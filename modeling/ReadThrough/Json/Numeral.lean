import ReadThrough.Json.Basic
import ReadThrough.Number.Scaled
import ReadThrough.Number.Whole

/-!
JSON numerals.

* `Numeral`: a numeral in its parts, as the grammar has them.
* `Numeral.read`: the longest numeral at the start of a text.
* `Rounding`: how the double of a numeral is found.
* `Numeral.gathered`: the digits of a numeral as far as a word holds them.
* `Numeral.number?`: the number of a numeral. Without point and exponent it is whole, as far as a
  word can hold it; else it is a double. A numeral beyond the range of doubles has none.
-/

namespace ReadThrough

namespace Json

/-- How the double of a numeral is found. -/
inductive Rounding where
  /-- The double nearest to the numeral. -/
  | nearest
  /-- The digits that fit a word, scaled by a power of ten in three roundings. -/
  | stepwise
deriving DecidableEq

/-- The exponent of a numeral. -/
structure Exponent where
  negative : Bool
  digits : List Char
deriving DecidableEq

/-- A numeral in its parts. The fraction is empty where there is no point. -/
structure Numeral where
  negative : Bool
  whole : List Char
  fraction : List Char
  exponent : Option Exponent
deriving DecidableEq

namespace Exponent

/-- A magnitude with the sign of an exponent. -/
def signed (e : Exponent) (magnitude : Nat) : Int :=
  if e.negative then -(magnitude : Int) else magnitude

/-- The power of ten that an exponent stands for. -/
def power (e : Exponent) : Int :=
  e.signed (Nat.ofDigitChars 10 e.digits 0)

/-- The power of ten as far as a word can hold its magnitude. One beyond a word counts as `2 ^ 64`,
which is beyond the range of doubles as well. -/
def clippedPower (e : Exponent) : Int :=
  match gatherDigits 0 e.digits with
  | (word, []) => e.signed word.toNat
  | (_, _ :: _) => e.signed (Nat.pow 2 64)

end Exponent

namespace Numeral

/-- The number that digits stand for. -/
def value (digits : List Char) : Nat :=
  Nat.ofDigitChars 10 digits 0

/-- The digits at the start of a text, at least one, and the rest. -/
def readDigits (cs : List Char) : Option (List Char × List Char) :=
  match cs.takeWhile isDigit with
  | [] => none
  | digits => some (digits, cs.dropWhile isDigit)

/-- The digits before the point: a leading zero stands alone. -/
def readWhole (cs : List Char) : Option (List Char × List Char) :=
  match readDigits cs with
  | some ('0' :: _ :: _, _) => none
  | found => found

/-- A point and the digits after it, or nothing. -/
def readFraction : List Char → Option (List Char × List Char)
  | '.' :: rest => readDigits rest
  | cs => some ([], cs)

/-- The sign of an exponent and its digits. -/
def readExponentValue (cs : List Char) : Option (Exponent × List Char) :=
  match cs with
  | '-' :: rest => (readDigits rest).map fun (digits, rest) => (⟨true, digits⟩, rest)
  | '+' :: rest => (readDigits rest).map fun (digits, rest) => (⟨false, digits⟩, rest)
  | _ => (readDigits cs).map fun (digits, rest) => (⟨false, digits⟩, rest)

/-- The letter `e` of either case and an exponent, or nothing. -/
def readExponent : List Char → Option (Option Exponent × List Char)
  | 'e' :: rest => (readExponentValue rest).map fun (e, rest) => (some e, rest)
  | 'E' :: rest => (readExponentValue rest).map fun (e, rest) => (some e, rest)
  | cs => some (none, cs)

/-- The parts of a numeral after its sign. -/
def readUnsigned (negative : Bool) (cs : List Char) : Option (Numeral × List Char) := do
  let (whole, rest) ← readWhole cs
  let (fraction, rest) ← readFraction rest
  let (exponent, rest) ← readExponent rest
  some (⟨negative, whole, fraction, exponent⟩, rest)

/-- The longest numeral at the start of a text, and the rest. -/
def read : List Char → Option (Numeral × List Char)
  | '-' :: rest => readUnsigned true rest
  | cs => readUnsigned false cs

/-- Whether a numeral has neither a point nor an exponent. -/
def isWhole (n : Numeral) : Bool :=
  n.fraction.isEmpty && n.exponent.isNone

/-- The digits of a numeral gathered in a word, and the power of ten that scales the word. Digits
before the point that do not fit still count as places; those after it are dropped. -/
def gathered (n : Numeral) : UInt64 × Int :=
  let (word, places) := gatherDigits 0 n.whole
  let (word, dropped) := gatherDigits word n.fraction
  (word, n.exponent.elim 0 Exponent.clippedPower + (places.length : Int) -
    ((n.fraction.length : Int) - (dropped.length : Int)))

/-- The double of a numeral, infinity if it is out of range. -/
def toReal (n : Numeral) : Rounding → Binary64
  | .nearest =>
    Binary64.ofDecimal n.negative (value (n.whole ++ n.fraction))
      (n.exponent.elim 0 Exponent.power - (n.fraction.length : Int))
  | .stepwise => Binary64.scaled n.negative n.gathered.1 n.gathered.2

/-- The whole number of a numeral that has neither a point nor an exponent, if a word can hold it.
Minus zero is none: only a double can hold it. -/
def wholeNumber? (n : Numeral) : Option Json.Number :=
  match gatherDigits 0 n.whole with
  | (word, []) =>
    if n.negative then
      if word = 0 then none else Json.Number.ofInt? (-(word.toNat : Int))
    else some (.natural word)
  | (_, _ :: _) => none

/-- The number of a numeral. -/
def number? (n : Numeral) (rounding : Rounding) : Option Json.Number :=
  match if n.isWhole then n.wholeNumber? else none with
  | some whole => some whole
  | none => Json.Number.ofReal? (n.toReal rounding)

end Numeral

end Json

end ReadThrough
