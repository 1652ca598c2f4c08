import ReadThrough.Number.Layout

/-!
Single-precision floating-point numbers, held as their bits.

* `Binary32.widen`: the double of the same value; every NaN becomes the one NaN.
* `Binary32.nameText`: a finite one as the name of a member, with the digits that single precision
  needs.
-/

namespace ReadThrough

/-- A single-precision number, held as its bits: the sign, eight bits of exponent, 23 of
fraction. -/
structure Binary32 where
  bits : UInt32
deriving DecidableEq, Inhabited

namespace Binary32

/-- The pattern of infinity; the finite numbers lie below it and the NaNs above. -/
def infinityPattern : Nat := 255 * Nat.pow 2 23

/-- The bits without the sign. -/
def pattern (x : Binary32) : Nat :=
  x.bits.toNat % Nat.pow 2 31

/-- Whether the sign bit is set. -/
def isNegative (x : Binary32) : Bool :=
  decide (Nat.pow 2 31 ≤ x.bits.toNat)

/-- Whether the number is neither an infinity nor a NaN. -/
def isFinite (x : Binary32) : Bool :=
  decide (x.pattern < infinityPattern)

/-- The significand of a finite number as a whole number, with its implicit leading bit. -/
def significand (x : Binary32) : Nat :=
  if x.pattern < Nat.pow 2 23 then x.pattern else Nat.pow 2 23 + x.pattern % Nat.pow 2 23

/-- The power of two, in units of the least positive number, that scales the significand. -/
def scale (x : Binary32) : Nat :=
  x.pattern / Nat.pow 2 23 - 1

/-- The number of binary places of the least positive number. -/
def leastPlaces : Nat := 149

/-- The double of the same value; every NaN becomes the one NaN. -/
def widen (x : Binary32) : Binary64 :=
  if x.isFinite then
    Binary64.ofRatio x.isNegative (x.significand * Nat.pow 2 x.scale) (Nat.pow 2 leastPlaces)
  else if x.pattern == infinityPattern then
    Binary64.ofPattern x.isNegative Binary64.infinityPattern
  else Binary64.nan

/-- Single-precision numbers as names of members: positional from `0.000001` up to below
`10 ^ 13`. -/
def nameLayout : Layout :=
  { Layout.memberName with plainFrom := -6, plainBelow := 13 }

/-- The text of a finite number as the name of a member. -/
def nameText (x : Binary32) : List Char :=
  let cell := Cell.ofBinary x.significand x.scale leastPlaces
    (x.significand == Nat.pow 2 23 && decide (0 < x.scale))
  (if x.isNegative then ['-'] else []) ++
    if x.pattern == 0 then ['0', '.', '0'] else cell.text nameLayout

end Binary32

end ReadThrough
