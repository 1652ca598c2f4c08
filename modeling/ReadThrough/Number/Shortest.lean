/-!
The shortest decimal that reads back as a given floating-point number.

* `Cell`: the numbers that round to one floating-point number, as an interval of decimals with a
  fixed number of places. Every binary fraction is a decimal, so all ends are whole numbers.
* `Decimal`: a decimal number `digits · 10 ^ exponent`.
* `Tie`: which of two equally near decimals is taken.
* `Cell.shortest`: of the decimals in the cell one with the fewest digits, of these the nearest to
  the number itself, and of two equally near the one that a tie goes to.
-/

namespace ReadThrough

/-- A decimal number: `digits · 10 ^ exponent`. -/
structure Decimal where
  digits : Nat
  exponent : Int
deriving DecidableEq, Inhabited

/-- Which of two equally near decimals is taken: the greater, or the one whose last digit is
even. -/
inductive Tie where
  | greater
  | even
deriving DecidableEq

/-- Whether a tie between a multiple and the next one goes to the lower of them. -/
def Tie.takesLower (lower : Nat) : Tie → Bool
  | .greater => false
  | .even => lower % 2 == 0

/-- The numbers that round to one floating-point number. The number itself and the two ends are
counted in quarters of the unit `10 ^ -places`, so that the ends, which lie halfway to the
neighbouring floating-point numbers, are whole. -/
structure Cell where
  centre : Nat
  low : Nat
  high : Nat
  /-- Whether the ends belong to the cell. -/
  closed : Bool
  places : Nat
deriving DecidableEq

namespace Cell

/-- The cell of the number `significand · 2 ^ scale`, in units of `2 ^ -places`. Of the places
`scale` are made up for by the power of two; the number has as many decimal places as are left. The
step to the next greater number is `2 ^ scale`; the step to the next smaller one is half of that
where `narrow` says so. A tie rounds to the even significand, so the ends belong to an even one. -/
def ofBinary (significand scale places : Nat) (narrow : Bool) : Cell :=
  let step := Nat.pow 2 (scale - places) * Nat.pow 5 (places - scale)
  { centre := 4 * significand * step
    low := 4 * significand * step - (if narrow then step else 2 * step)
    high := 4 * significand * step + 2 * step
    closed := significand % 2 == 0
    places := places - scale }

/-- Whether a number, counted in quarters of the unit, belongs to the cell. -/
def contains (c : Cell) (n : Nat) : Bool :=
  if c.closed then decide (c.low ≤ n) && decide (n ≤ c.high)
  else decide (c.low < n) && decide (n < c.high)

/-- The lower of two neighbouring multiples of a grid if it is nearer to the centre than the upper
one, or as near and a tie goes to it; else the upper one. -/
def nearer (c : Cell) (tie : Tie) (grid lower : Nat) : Nat :=
  let fromLower := c.centre - lower * grid
  let fromUpper := (lower + 1) * grid - c.centre
  if fromLower < fromUpper then lower
  else if fromUpper < fromLower then lower + 1
  else if tie.takesLower lower then lower
  else lower + 1

/-- The multiple of `10 ^ zeros` units nearest to the centre among the two around it, if it
belongs to the cell. -/
def nearestMultiple? (c : Cell) (tie : Tie) (zeros : Nat) : Option Nat :=
  let grid := 4 * Nat.pow 10 zeros
  let below := c.centre / grid
  let above := below + 1
  match c.contains (below * grid), c.contains (above * grid) with
  | true, true => some (c.nearer tie grid below)
  | true, false => some below
  | false, true => some above
  | false, false => none

/-- The coarsest multiple that belongs to the cell, from `10 ^ zeros` units down to the single
unit, of which the centre is a multiple. The answer is the multiple and its number of zeros. -/
def coarsest (c : Cell) (tie : Tie) : Nat → Nat × Nat
  | 0 => (c.centre / 4, 0)
  | zeros + 1 =>
    match c.nearestMultiple? tie (zeros + 1) with
    | some digits => (digits, zeros + 1)
    | none => c.coarsest tie zeros

/-- The number of decimal digits of a number; zero has none. -/
def digitCount (n : Nat) : Nat :=
  go (Nat.log2 n * 301 / 1000) (Nat.log2 n + 1)
where
  /-- The least exponent from `guess` on, within `fuel` steps, whose power of ten exceeds `n`. -/
  go (guess : Nat) : Nat → Nat
    | 0 => guess
    | fuel + 1 => if n < Nat.pow 10 guess then guess else go (guess + 1) fuel

/-- The shortest decimal in the cell, and of these the one nearest to the centre. A multiple of
the coarsest grid can be ten times the grid, which is one digit and not two. -/
def shortest (c : Cell) (tie : Tie) : Decimal :=
  let (digits, zeros) := c.coarsest tie (digitCount (c.centre / 4) - 1)
  if digits == 10 then ⟨1, (zeros + 1 : Nat) - (c.places : Int)⟩
  else ⟨digits, (zeros : Int) - (c.places : Int)⟩

end Cell

end ReadThrough
