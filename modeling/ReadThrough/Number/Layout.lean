import ReadThrough.Number.Binary64
import ReadThrough.Number.Shortest
import ReadThrough.Number.Whole

/-!
Decimal numbers as text.

* `Layout`: the choices of one written form, and the two forms in use, `Layout.canonical` and
  `Layout.memberName`.
* `Decimal.text`: a decimal in a layout, positional or with an exponent.
* `Cell.text`: the shortest decimal in a cell in a layout.
* `Binary64.text`: a double in canonical text; the zeros, the infinities and NaN have fixed texts.
-/

namespace ReadThrough

/-- The choices of a written form of decimals. -/
structure Layout where
  /-- The least exponent of the leading digit that is written positionally. -/
  plainFrom : Int
  /-- The least exponent above those that are written positionally. -/
  plainBelow : Int
  /-- Whether a whole number in positional form ends in a point and a zero. -/
  pointZero : Bool
  /-- Whether an exponent that is not negative has a plus sign. -/
  plusSign : Bool
  /-- The least number of digits of an exponent. -/
  exponentWidth : Nat
  /-- Which of two equally near shortest decimals is written. -/
  tie : Tie

/-- Canonical text: positional from `0.0001` up to below a million, whole numbers without a point,
exponents signed and of two digits at least; of two equally near decimals the greater. -/
def Layout.canonical : Layout :=
  ⟨-4, 6, false, true, 2, .greater⟩

/-- Doubles as names of members: positional from `0.00001` up to below `10 ^ 16`, whole numbers
with a point and a zero, exponents signed; of two equally near decimals the even one. -/
def Layout.memberName : Layout :=
  ⟨-5, 16, true, true, 1, .even⟩

namespace Decimal

/-- The exponent of the leading digit. -/
def leading (d : Decimal) : Int :=
  d.exponent + ((natText d.digits).length - 1 : Nat)

/-- Positional text: the digits around a decimal point, padded with zeros up to the point. -/
def plainText (layout : Layout) (d : Decimal) : List Char :=
  let digits := natText d.digits
  match d.exponent with
  | .ofNat zeros =>
    digits ++ List.replicate zeros '0' ++ (if layout.pointZero then ['.', '0'] else [])
  | .negSucc n =>
    let places := n + 1
    if places < digits.length then
      digits.take (digits.length - places) ++ '.' :: digits.drop (digits.length - places)
    else '0' :: '.' :: (List.replicate (places - digits.length) '0' ++ digits)

/-- The text of an exponent: its sign, and its digits padded with zeros on the left. -/
def exponentText (layout : Layout) (e : Int) : List Char :=
  let digits := natText e.natAbs
  (if e < 0 then ['-'] else if layout.plusSign then ['+'] else []) ++
    (List.replicate (layout.exponentWidth - digits.length) '0' ++ digits)

/-- Text with an exponent: one digit, the others after a point, and the exponent. -/
def scientificText (layout : Layout) (d : Decimal) : List Char :=
  let mantissa : List Char :=
    match natText d.digits with
    | first :: second :: rest => first :: '.' :: second :: rest
    | digits => digits
  mantissa ++ 'e' :: exponentText layout d.leading

/-- A decimal in a layout. -/
def text (layout : Layout) (d : Decimal) : List Char :=
  if layout.plainFrom ≤ d.leading ∧ d.leading < layout.plainBelow then d.plainText layout
  else d.scientificText layout

end Decimal

/-- The shortest decimal in a cell, in a layout. -/
def Cell.text (layout : Layout) (c : Cell) : List Char :=
  (c.shortest layout.tie).text layout

namespace Binary64

/-- The numbers that round to a finite double. Below a power of two the doubles lie closer than
above it, except at the bottom of the range. -/
def cell (x : Binary64) : Cell :=
  Cell.ofBinary x.significand x.scale leastPlaces
    (x.significand == Nat.pow 2 52 && decide (0 < x.scale))

/-- The minus sign of a negative number. -/
def signText (x : Binary64) : List Char :=
  if x.isNegative then ['-'] else []

/-- The canonical text of a double. Every NaN has one text, and so have the two zeros. -/
def text (x : Binary64) : List Char :=
  if x.isNaN then ['N', 'a', 'N']
  else if x.isInfinite then (if x.isNegative then '-' else '+') :: ['I', 'n', 'f']
  else if x.isZero then ['0']
  else x.signText ++ x.cell.text Layout.canonical

/-- The text of a finite double as the name of a member. -/
def nameText (x : Binary64) : List Char :=
  x.signText ++
    if x.isZero then ['0', '.', '0'] else x.cell.text Layout.memberName

end Binary64

end ReadThrough
