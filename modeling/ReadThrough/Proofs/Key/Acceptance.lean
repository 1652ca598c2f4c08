import ReadThrough.Proofs.Key.Separation

/-!
Which tools have keys that a store accepts, whatever the input and whatever the digest.

* `Cacheable`: the tools whose names are short enough and hold no line break.
* `utf8ByteSize_compose`: a key is longer than the name of its tool by a fixed number of bytes.
* `any_isLineBreak_compose`: a key is broken into lines if and only if the name of its tool is.
* `check_derive`, `check_derive_eq_ok_iff`: what a store says to a derived key.
-/

namespace ReadThrough.Key

/-! ### The length of a key -/

/-- A text of hexadecimal digits has one byte for each. -/
lemma utf8ByteSize_ofList {cs : List Char} (digits : ∀ c ∈ cs, c ∈ Hex.digits) :
    (String.ofList cs).utf8ByteSize = cs.length := by
  have narrow : Hex.digits.all (fun c => c.utf8Size == 1) = true := by decide
  induction cs with
  | nil => rfl
  | cons c cs ih =>
      have first : c.utf8Size = 1 :=
        beq_iff_eq.mp (List.all_eq_true.mp narrow c (digits c List.mem_cons_self))
      have rest := ih fun d mem => digits d (List.mem_cons_of_mem _ mem)
      rw [String.ofList_cons, String.utf8ByteSize_append, String.utf8ByteSize_singleton, first,
        rest, List.length_cons, Nat.add_comm]

/-- What a key is longer than the name of its tool: the opening, a colon and the digits. -/
def frameBytes : Nat := opening.length + 1 + digitCount

/-- A key is as much longer than the name of its tool. -/
lemma utf8ByteSize_compose (toolId : String) {bytes : List UInt8}
    (length : bytes.length = digestBytes) :
    (compose toolId bytes).utf8ByteSize = toolId.utf8ByteSize + frameBytes := by
  have width : (String.ofList (Hex.ofBytes bytes)).utf8ByteSize = digitCount := by
    rw [utf8ByteSize_ofList fun c => Hex.mem_digits_of_mem_ofBytes, Hex.length_ofBytes, length,
      digitCount]
  have start : family.utf8ByteSize + ":".utf8ByteSize = opening.length := by decide
  have colon : ":".utf8ByteSize = 1 := by decide
  simp only [compose, String.utf8ByteSize_append, width, frameBytes]
  omega

/-! ### The characters of a key -/

/-- No key is blank, for it starts with the opening. -/
lemma isBlankText_compose (toolId : String) (bytes : List UInt8) :
    Text.isBlankText (compose toolId bytes).toList = false := by
  have inked : opening.all Text.isBlank = false := by decide
  rw [Text.isBlankText, compose_toList, List.all_append, inked, Bool.false_and]

/-- A key is broken into lines if and only if the name of its tool is. -/
lemma any_isLineBreak_compose (toolId : String) (bytes : List UInt8) :
    (compose toolId bytes).toList.any isLineBreak = toolId.toList.any isLineBreak := by
  have digit : Hex.digits.any isLineBreak = false := by decide
  have digits : (Hex.ofBytes bytes).any isLineBreak = false :=
    List.any_eq_false.mpr fun c mem =>
      List.any_eq_false.mp digit c (Hex.mem_digits_of_mem_ofBytes mem)
  have frame : opening.any isLineBreak = false := by decide
  have colon : isLineBreak ':' = false := by decide
  simp only [compose_toList, List.any_append, List.any_cons, frame, colon, digits, Bool.or_false,
    Bool.false_or]

/-! ### What a store says -/

/-- The tools whose names leave room for the rest of a key and hold no line break. -/
def Cacheable (toolId : String) : Prop :=
  toolId.utf8ByteSize ≤ 485 ∧ '\r' ∉ toolId.toList ∧ '\n' ∉ toolId.toList

lemma any_isLineBreak_eq_false_iff {cs : List Char} :
    cs.any isLineBreak = false ↔ '\r' ∉ cs ∧ '\n' ∉ cs := by
  rw [List.any_eq_false]
  simp only [isLineBreak, Bool.or_eq_true, beq_iff_eq, not_or]
  constructor
  · intro unbroken
    exact ⟨fun mem => (unbroken '\r' mem).1 rfl, fun mem => (unbroken '\n' mem).2 rfl⟩
  · rintro ⟨returns, feeds⟩ c mem
    exact ⟨fun same => returns (same ▸ mem), fun same => feeds (same ▸ mem)⟩

/-- The length of a derived key. -/
lemma utf8ByteSize_derive (digest : List UInt8 → Vector UInt8 32) (toolId : String)
    (input : Value) :
    (derive digest toolId input).utf8ByteSize = toolId.utf8ByteSize + 27 :=
  utf8ByteSize_compose toolId (length_digestOf digest input)

/-- What a store says to a derived key depends on the name of the tool alone. -/
theorem check_derive (digest : List UInt8 → Vector UInt8 32) (toolId : String) (input : Value) :
    check (derive digest toolId input) =
      if 485 < toolId.utf8ByteSize then
        .error (.keyTooLong (derive digest toolId input).utf8ByteSize 512)
      else if toolId.toList.any isLineBreak then .error (.invalidKey "key contains a line break")
      else .ok () := by
  have inked : Text.isBlankText (derive digest toolId input).toList = false :=
    isBlankText_compose toolId _
  have breaks : (derive digest toolId input).toList.any isLineBreak =
      toolId.toList.any isLineBreak :=
    any_isLineBreak_compose toolId _
  have room : maxBytes < toolId.utf8ByteSize + 27 ↔ 485 < toolId.utf8ByteSize := by
    rw [maxBytes]
    omega
  simp only [check, inked, breaks, utf8ByteSize_derive, room, Bool.false_eq_true, if_false]
  rfl

section

variable {digest : List UInt8 → Vector UInt8 32} {toolId : String} {input : Value}

/-- A store accepts a derived key if and only if its tool is cacheable. -/
theorem check_derive_eq_ok_iff :
    check (derive digest toolId input) = .ok () ↔ Cacheable toolId := by
  rw [check_derive, Cacheable, ← any_isLineBreak_eq_false_iff]
  by_cases long : 485 < toolId.utf8ByteSize
  · rw [if_pos long]
    exact iff_of_false (by simp) fun cacheable => Nat.not_le.mpr long cacheable.1
  · rw [if_neg long]
    have short : toolId.utf8ByteSize ≤ 485 := Nat.le_of_not_lt long
    cases toolId.toList.any isLineBreak <;> simp [short]

/-- A short name that is not cacheable is broken into lines, and so is the key. -/
lemma check_derive_of_short (short : toolId.utf8ByteSize ≤ 485) (uncacheable : ¬Cacheable toolId) :
    check (derive digest toolId input) = .error (.invalidKey "key contains a line break") := by
  have broken : toolId.toList.any isLineBreak = true := by
    rw [← Bool.not_eq_false, any_isLineBreak_eq_false_iff]
    exact fun unbroken => uncacheable ⟨short, unbroken⟩
  rw [check_derive, if_neg (Nat.not_lt.mpr short), if_pos broken]

/-- No derived key is refused as empty. -/
lemma check_derive_ne_empty :
    check (derive digest toolId input) ≠ .error (.invalidKey "empty key") := by
  rw [check_derive]
  split_ifs <;> simp

end

/-- No store accepts a standard key of a tool that is not cacheable. -/
lemma isValid_of_standard {toolId : String} {input : Value} {key : String}
    (uncacheable : ¬Cacheable toolId) (derived : Keyer.standard toolId input = .ok key) :
    isValid key = false := by
  obtain rfl : derive Sha256.digest toolId input = key := Except.ok.inj derived
  rw [isValid]
  split
  · rename_i accepted
    exact absurd (check_derive_eq_ok_iff.mp accepted) uncacheable
  · rfl

end ReadThrough.Key
