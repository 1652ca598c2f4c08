/-!
Doubles: binary floating-point numbers of 64 bits, held as their bits and computed with in exact
whole-number arithmetic.

* `pattern`, `isNegative`: the bits without the sign, and the sign.
* `significand`, `scale`, `units`: a finite double is `± significand · 2 ^ scale` in units of
  `2 ^ -1074`, the least positive double.
* `sameNumber`: numeric equality, under which the two zeros agree and a NaN agrees with nothing.
* `ofRatio`: the double nearest to a quotient of whole numbers, a tie going to the even
  significand, infinity from half a step above the greatest finite double on.
* `ofInt`, `multiply`, `divide`: a whole number, a product and a quotient, each rounded once.
-/

namespace ReadThrough

/-- A double, held as its bits: the sign, eleven bits of exponent, 52 of fraction. -/
structure Binary64 where
  bits : UInt64
deriving DecidableEq, Inhabited

namespace Binary64

/-! ### Reading the bits -/

/-- The pattern of infinity; the finite doubles lie below it and the NaNs above. -/
def infinityPattern : Nat := 2047 * Nat.pow 2 52

/-- The bits without the sign. Of two doubles without sign the greater has the greater pattern. -/
def pattern (x : Binary64) : Nat :=
  x.bits.toNat % Nat.pow 2 63

/-- Whether the sign bit is set. -/
def isNegative (x : Binary64) : Bool :=
  decide (Nat.pow 2 63 ≤ x.bits.toNat)

/-- The double with a given sign and pattern. -/
def ofPattern (negative : Bool) (p : Nat) : Binary64 :=
  ⟨UInt64.ofNat (p + if negative then Nat.pow 2 63 else 0)⟩

/-- Whether the double is no number. -/
def isNaN (x : Binary64) : Bool :=
  decide (infinityPattern < x.pattern)

/-- Whether the double is one of the two infinities. -/
def isInfinite (x : Binary64) : Bool :=
  x.pattern == infinityPattern

/-- Whether the double is a number other than the infinities. -/
def isFinite (x : Binary64) : Bool :=
  decide (x.pattern < infinityPattern)

/-- Whether the double is one of the two zeros. -/
def isZero (x : Binary64) : Bool :=
  x.pattern == 0

/-- The significand of a finite double as a whole number, with its implicit leading bit. -/
def significand (x : Binary64) : Nat :=
  if x.pattern < Nat.pow 2 52 then x.pattern else Nat.pow 2 52 + x.pattern % Nat.pow 2 52

/-- The power of two, in units of the least positive double, that scales the significand. -/
def scale (x : Binary64) : Nat :=
  x.pattern / Nat.pow 2 52 - 1

/-- The number of binary places of the least positive double. -/
def leastPlaces : Nat := 1074

/-- The magnitude of a finite double in units of the least positive double. -/
def units (x : Binary64) : Nat :=
  x.significand * Nat.pow 2 x.scale

/-- The double that is no number, as computations give it. -/
def nan : Binary64 :=
  ofPattern false (infinityPattern + Nat.pow 2 51)

/-- Numeric equality: the two zeros agree, and a NaN agrees with nothing, not even itself. -/
def sameNumber (x y : Binary64) : Bool :=
  !x.isNaN && !y.isNaN && ((x.isZero && y.isZero) || x == y)

/-! ### Rounding -/

/-- A quotient rounded to the nearest whole number, a half going to the even neighbour. -/
def roundHalfEven (num den : Nat) : Nat :=
  let quotient := num / den
  let twice := 2 * (num % den)
  if twice < den then quotient
  else if den < twice then quotient + 1
  else quotient + quotient % 2

/-- The pattern of the double nearest to a quotient. The step between doubles is the unit up to
`2 ^ 53` units and doubles with each power of two from there on. -/
def nearestPattern (num den : Nat) : Nat :=
  let scaled := num * Nat.pow 2 leastPlaces
  let step := Nat.log2 (scaled / den) - 52
  min infinityPattern (step * Nat.pow 2 52 + roundHalfEven scaled (den * Nat.pow 2 step))

/-- The double nearest to a signed quotient. -/
def ofRatio (negative : Bool) (num den : Nat) : Binary64 :=
  ofPattern negative (nearestPattern num den)

/-- The double nearest to a whole number. -/
def ofInt (n : Int) : Binary64 :=
  ofRatio (decide (n < 0)) n.natAbs 1

/-- The double nearest to the product of two finite doubles that are not negative. -/
def multiply (x y : Binary64) : Binary64 :=
  ofRatio false (x.units * y.units) (Nat.pow 2 leastPlaces * Nat.pow 2 leastPlaces)

/-- The double nearest to the quotient of two finite doubles that are not negative, the second
not zero. -/
def divide (x y : Binary64) : Binary64 :=
  ofRatio false x.units y.units

end Binary64

end ReadThrough
