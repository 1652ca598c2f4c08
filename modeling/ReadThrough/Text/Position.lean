import ReadThrough.Number.Whole

/-!
Messages that end in a position, such as `comma expected at line 3 column 14`.

* `Position`: a line and a column, both words.
* `Position.split?`: a message that ends in a position, taken apart.
* `Position.normalize`: the message with its position written anew, without leading zeros. Line zero
  is no position, and the message then goes without one.
-/

namespace ReadThrough

/-- A line and a column of a text. -/
structure Position where
  line : UInt64
  column : UInt64
deriving DecidableEq

namespace Position

/-- What stands before the number of a line. -/
def lineMark : List Char := " at line ".toList

/-- What stands between the number of a line and that of a column. -/
def columnMark : List Char := " column ".toList

/-- The number at the end of a reversed text, if it fits a word, and the text before it. -/
def lastWord? (reversed : List Char) : Option (UInt64 × List Char) :=
  let digits := (reversed.takeWhile isDigit).reverse
  match digits, gatherDigits 0 digits with
  | _ :: _, (word, []) => some (word, reversed.dropWhile isDigit)
  | _, _ => none

/-- A reversed text without a mark at its end. -/
def dropMark? (mark reversed : List Char) : Option (List Char) :=
  if mark.reverse.isPrefixOf reversed then some (reversed.drop mark.length) else none

/-- The text before the position at the end of a message, and the position. -/
def split? (message : List Char) : Option (List Char × Position) := do
  let (column, rest) ← lastWord? message.reverse
  let rest ← dropMark? columnMark rest
  let (line, rest) ← lastWord? rest
  let rest ← dropMark? lineMark rest
  some (rest.reverse, ⟨line, column⟩)

/-- A position behind a text. -/
def text (p : Position) : List Char :=
  lineMark ++ natText p.line.toNat ++ columnMark ++ natText p.column.toNat

/-- A message with the position at its end, if there is one, written anew. -/
def normalize (message : List Char) : List Char :=
  match split? message with
  | some (body, position) => if position.line = 0 then body else body ++ position.text
  | none => message

end Position

end ReadThrough
