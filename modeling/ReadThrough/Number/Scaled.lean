import ReadThrough.Number.Binary64
import ReadThrough.Number.Shortest

/-!
Doubles from decimals.

* `Binary64.ofDecimal`: the double nearest to a decimal, which is one rounding.
* `Binary64.tenPower`: the double nearest to a power of ten.
* `Binary64.scaled`: a word scaled by a power of ten in three roundings: of the word, of the power,
  and of their product or quotient. It is cheap, and most often but not always the nearest double.
-/

namespace ReadThrough.Binary64

/-- The double nearest to `± digits · 10 ^ exponent`. Far outside the range of doubles the answer
is infinity or zero without computing the power. -/
def ofDecimal (negative : Bool) (digits : Nat) (exponent : Int) : Binary64 :=
  let size := (Cell.digitCount digits : Int) + exponent
  if digits = 0 ∨ size < -330 then ofPattern negative 0
  else if 310 < size then ofPattern negative infinityPattern
  else
    match exponent with
    | .ofNat zeros => ofRatio negative (digits * Nat.pow 10 zeros) 1
    | .negSucc n => ofRatio negative digits (Nat.pow 10 (n + 1))

/-- The exponent of the greatest power of ten that is a finite double. -/
def greatestTenPower : Nat := 308

/-- The double nearest to a power of ten. -/
def tenPower (n : Nat) : Binary64 :=
  ofRatio false (Nat.pow 10 n) 1

/-- A finite double that is not negative, times a power of ten. A power beyond the range of doubles
gives infinity, except that zero stays zero. -/
def timesTenPower (x : Binary64) (n : Nat) : Binary64 :=
  if n ≤ greatestTenPower then multiply x (tenPower n)
  else if x.isZero then x
  else ofPattern false infinityPattern

/-- A double from zero to `2 ^ 64`, over a power of ten. A power beyond the range of doubles is
divided by in two steps; beyond the range of two steps nothing is left but zero. -/
def overTenPower (x : Binary64) (n : Nat) : Binary64 :=
  if n ≤ greatestTenPower then divide x (tenPower n)
  else if n ≤ 2 * greatestTenPower then
    divide (divide x (tenPower greatestTenPower)) (tenPower (n - greatestTenPower))
  else ofPattern false 0

/-- The double `± word · 10 ^ exponent`, found in steps of one rounding each. -/
def scaled (negative : Bool) (word : UInt64) (exponent : Int) : Binary64 :=
  let x := ofRatio false word.toNat 1
  let magnitude :=
    match exponent with
    | .ofNat n => x.timesTenPower n
    | .negSucc n => x.overTenPower (n + 1)
  ofPattern negative magnitude.pattern

end ReadThrough.Binary64
