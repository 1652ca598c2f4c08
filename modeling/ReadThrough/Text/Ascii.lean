/-!
ASCII letters without regard to their case.

* `lowerAscii`: an upper-case ASCII letter as its lower-case one.
* `equalsIgnoringCase`: equality of texts up to the case of ASCII letters.
-/

namespace ReadThrough

/-- An upper-case ASCII letter as its lower-case one; other characters stay. -/
def lowerAscii (c : Char) : Char :=
  if 65 ≤ c.toNat ∧ c.toNat ≤ 90 then Char.ofNat (c.toNat + 32) else c

/-- Equality of texts up to the case of ASCII letters. -/
def equalsIgnoringCase (s t : String) : Bool :=
  s.toList.map lowerAscii == t.toList.map lowerAscii

end ReadThrough
