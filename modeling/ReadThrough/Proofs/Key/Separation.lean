import ReadThrough.Key.Derive
import ReadThrough.Proofs.Text.Quoting

/-!
Derived keys tell tools apart, whatever characters the names of the tools have.

* `Hex.readBytes?`: the bytes of a hexadecimal text.
* `compose`: a key in its parts, the tool and the kept bytes of a digest.
* `parts?`: the parts of a key, found from both ends. The digits have a fixed width, so the colon
  in front of them is found by its place and not by looking for a colon, of which the name of the
  tool may have any number.
* `parts?_compose`: the parts are found again.
* `derive_eq_iff`: two derived keys are equal if and only if the tools and the first eight bytes of
  the digests are.
-/

namespace ReadThrough

namespace Hex

/-- The bytes of a hexadecimal text, two digits for each. -/
def readBytes? : List Char → Option (List UInt8)
  | [] => some []
  | high :: low :: rest =>
    match Quoted.hexValue? high, Quoted.hexValue? low, readBytes? rest with
    | some h, some l, some bytes => some (UInt8.ofNat (16 * h + l) :: bytes)
    | _, _, _ => none
  | [_] => none

/-- The sixteen digits of lower-case hexadecimal text. -/
def digits : List Char := "0123456789abcdef".toList

lemma digit_mem_digits : ∀ n < 16, digit n ∈ digits := by
  decide

lemma readBytes?_ofBytes (bytes : List UInt8) : readBytes? (ofBytes bytes) = some bytes := by
  induction bytes with
  | nil => rfl
  | cons b rest ih =>
      have small := b.toNat_lt
      have high := Quoted.hexValue?_digit (b.toNat / 16) (by omega)
      have low := Quoted.hexValue?_digit (b.toNat % 16) (by omega)
      have number : 16 * (b.toNat / 16) + b.toNat % 16 = b.toNat := Nat.div_add_mod _ _
      simp only [ofBytes, ofByte, List.cons_append, List.nil_append, readBytes?, high, low, ih,
        number, UInt8.ofNat_toNat]

lemma mem_digits_of_mem_ofBytes {bytes : List UInt8} {c : Char} (mem : c ∈ ofBytes bytes) :
    c ∈ digits := by
  induction bytes with
  | nil => simp [ofBytes] at mem
  | cons b rest ih =>
      have small := b.toNat_lt
      rcases List.mem_append.mp mem with mem | mem
      · rcases List.mem_cons.mp mem with rfl | mem
        · exact digit_mem_digits _ (by omega)
        · rw [List.mem_singleton.mp mem]
          exact digit_mem_digits _ (by omega)
      · exact ih mem

end Hex

namespace Key

/-- What every derived key starts with. -/
def opening : List Char := "toolcache:".toList

/-- The number of hexadecimal digits at the end of a derived key. -/
def digitCount : Nat := 2 * digestBytes

/-- The key of a tool and of the kept bytes of a digest. -/
def compose (toolId : String) (bytes : List UInt8) : String :=
  family ++ ":" ++ toolId ++ ":" ++ String.ofList (Hex.ofBytes bytes)

/-- The tool and the kept bytes of a digest, read off a key: the digits are its last characters, and
the tool is what stands between the opening and the colon in front of them. -/
def parts? (key : String) : Option (String × List UInt8) :=
  let body := key.toList.drop opening.length
  let toolId := body.take (body.length - digitCount - 1)
  (Hex.readBytes? (body.drop (body.length - digitCount))).map fun bytes =>
    (String.ofList toolId, bytes)

lemma compose_eq (toolId : String) (bytes : List UInt8) :
    compose toolId bytes =
      "toolcache:" ++ toolId ++ ":" ++ String.ofList (Hex.ofBytes bytes) := rfl

/-- A derived key in its parts: the tool, and the first eight bytes of the digest. -/
lemma derive_eq_compose (digest : List UInt8 → Vector UInt8 32) (toolId : String) (input : Value) :
    derive digest toolId input =
      compose toolId ((digest (Utf8.bytes input.encode)).toList.take 8) := rfl

lemma compose_toList (toolId : String) (bytes : List UInt8) :
    (compose toolId bytes).toList = opening ++ (toolId.toList ++ ':' :: Hex.ofBytes bytes) := by
  have start : family.toList ++ ":".toList = opening := by decide
  simp only [compose, String.toList_append, String.toList_ofList, List.append_assoc, ← start]
  rfl

/-- The parts of a key are found again, whatever the tool is called. -/
theorem parts?_compose (toolId : String) {bytes : List UInt8}
    (length : bytes.length = digestBytes) :
    parts? (compose toolId bytes) = some (toolId, bytes) := by
  have width : (Hex.ofBytes bytes).length = digitCount := by
    rw [Hex.length_ofBytes, length, digitCount]
  have total : (toolId.toList ++ ':' :: Hex.ofBytes bytes).length =
      toolId.toList.length + (1 + digitCount) := by
    simp only [List.length_append, List.length_cons, width]
    omega
  have before : (toolId.toList ++ ':' :: Hex.ofBytes bytes).take toolId.toList.length =
      toolId.toList := List.take_left
  have after : (toolId.toList ++ ':' :: Hex.ofBytes bytes).drop (toolId.toList.length + 1) =
      Hex.ofBytes bytes := by
    rw [← List.drop_drop, List.drop_left, List.drop_one, List.tail_cons]
  have digits_start : toolId.toList.length + (1 + digitCount) - digitCount =
      toolId.toList.length + 1 := by omega
  simp only [parts?, compose_toList, List.drop_left, total, digits_start, Nat.add_sub_cancel,
    before, after, Hex.readBytes?_ofBytes, Option.map_some, String.ofList_toList]

/-- The name of a tool may look like a key itself. -/
example : parts? (compose "toolcache:fs:0123456789abcdef" [0, 1, 2, 3, 4, 5, 254, 255]) =
    some ("toolcache:fs:0123456789abcdef", [0, 1, 2, 3, 4, 5, 254, 255]) := by
  decide

/-- Two keys are equal if and only if their parts are. -/
lemma compose_eq_iff {s t : String} {as bs : List UInt8} (ha : as.length = digestBytes)
    (hb : bs.length = digestBytes) : compose s as = compose t bs ↔ s = t ∧ as = bs := by
  constructor
  · intro h
    have parts : some (s, as) = some (t, bs) := by
      rw [← parts?_compose s ha, ← parts?_compose t hb, h]
    simpa using parts
  · rintro ⟨rfl, rfl⟩
    rfl

lemma length_digestOf (digest : List UInt8 → Vector UInt8 32) (input : Value) :
    (digestOf digest input).length = digestBytes := by
  rw [digestOf, List.length_take, Vector.length_toList]
  rfl

/-- Whatever the digest function is, two derived keys are equal if and only if the tools are and the
first eight bytes of the digests of the encodings are. A derived key is the opening, the tool, a
colon and sixteen lower-case hexadecimal digits. The tool and the eight bytes are found again from
it, and no other tool and no other eight bytes have the same key. The standard keys are those of
SHA-256, of the bytes that the encoding is stored as. -/
theorem derive_eq_iff (digest : List UInt8 → Vector UInt8 32) :
    (∀ (s t : String) (v w : Value),
      derive digest s v = derive digest t w ↔
        s = t ∧ (digest (Utf8.bytes v.encode)).toList.take 8 =
          (digest (Utf8.bytes w.encode)).toList.take 8) ∧
    (∀ (s : String) (v : Value),
      (∃ ds : List Char, ds.length = 16 ∧ (∀ c ∈ ds, c ∈ Hex.digits) ∧
        derive digest s v = "toolcache:" ++ s ++ ":" ++ String.ofList ds) ∧
      parts? (derive digest s v) = some (s, (digest (Utf8.bytes v.encode)).toList.take 8) ∧
      ∀ (t : String) (bytes : Vector UInt8 8),
        derive digest s v = "toolcache:" ++ t ++ ":" ++ String.ofList (Hex.ofBytes bytes.toList) ↔
          s = t ∧ (digest (Utf8.bytes v.encode)).toList.take 8 = bytes.toList) ∧
    (∀ (s : String) (v : Value), Keyer.standard s v = .ok (derive Sha256.digest s v)) ∧
    ∀ v : Value, Utf8.bytes v.encode = v.encode.toUTF8.data.toList := by
  have kept (v : Value) : ((digest (Utf8.bytes v.encode)).toList.take 8).length = digestBytes :=
    length_digestOf digest v
  refine ⟨fun s t v w => ?_, fun s v => ⟨?_, ?_, fun t bytes => ?_⟩, fun s v => rfl,
    fun v => Utf8.bytes_eq_toUTF8 v.encode⟩
  · rw [derive_eq_compose, derive_eq_compose, compose_eq_iff (kept v) (kept w)]
  · refine ⟨Hex.ofBytes (digestOf digest v), ?_, fun c => Hex.mem_digits_of_mem_ofBytes, rfl⟩
    rw [Hex.length_ofBytes, length_digestOf]
    rfl
  · rw [derive_eq_compose, parts?_compose s (kept v)]
  · rw [derive_eq_compose, ← compose_eq, compose_eq_iff (kept v) bytes.length_toList]

end Key

end ReadThrough
