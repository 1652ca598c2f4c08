/-!
Lower-case hexadecimal text.

* `digit`: the digit of a number below sixteen.
* `ofBytes`: two digits for each byte, the high half first.
* `length_ofBytes`: the length of the text, which depends only on the number of bytes.
-/

namespace ReadThrough.Hex

/-- The digit of a number below sixteen. -/
def digit (n : Nat) : Char :=
  if n < 10 then Char.ofNat (48 + n) else Char.ofNat (87 + n)

/-- The two digits of a byte, the high half first. -/
def ofByte (b : UInt8) : List Char :=
  [digit (b.toNat / 16), digit (b.toNat % 16)]

/-- Two digits for each byte. -/
def ofBytes : List UInt8 → List Char
  | [] => []
  | b :: rest => ofByte b ++ ofBytes rest

theorem length_ofBytes (bytes : List UInt8) : (ofBytes bytes).length = 2 * bytes.length := by
  induction bytes with
  | nil => rfl
  | cons b rest ih =>
    simp only [ofBytes, ofByte, List.length_append, List.length_cons, List.length_nil, ih]
    omega

end ReadThrough.Hex
