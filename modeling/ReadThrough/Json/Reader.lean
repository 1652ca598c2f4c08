import ReadThrough.Json.Numeral
import ReadThrough.Text.Quoted

/-!
Reading JSON text, strictly: one value with white space around it, and nothing else.

* `Reader`: what reads something at the start of a text and hands on the rest.
* `Mode`: how doubles are found, and how long texts and lists can be.
* `sequence`: items between commas up to a closing character.
* `value`: a value of bounded nesting.
* `parseRounded`, `parse`: a whole text; values nested deeper than `maxNesting` are refused. `parse`
  finds the doubles of numerals stepwise.
-/

namespace ReadThrough.Json

/-- Reads something at the start of a text and hands on the rest, or refuses the text. -/
abbrev Reader (α : Type) := List Char → Option (α × List Char)

/-- How to read. -/
structure Mode where
  rounding : Rounding
  /-- No text and no list is longer: the length of the whole JSON text serves. -/
  limit : Nat

/-- The four characters that may stand between the parts of a JSON text. -/
def isSpace (c : Char) : Bool :=
  c == ' ' || c == '\t' || c == '\n' || c == '\r'

/-- A text without the white space at its start. -/
def skipSpace (cs : List Char) : List Char :=
  cs.dropWhile isSpace

/-- Items with commas between them up to the closing character; at least one and at most `limit`
items. -/
def sequence {α : Type} (item : Reader α) (close : Char) : Nat → Reader (List α)
  | 0, _ => none
  | limit + 1, cs =>
    match item cs with
    | none => none
    | some (first, rest) =>
      match skipSpace rest with
      | [] => none
      | c :: rest =>
        if c = close then some ([first], rest)
        else if c = ',' then
          match sequence item close limit rest with
          | none => none
          | some (others, rest) => some (first :: others, rest)
        else none

/-- The items between two brackets, of which the first has been read. -/
def bracketed {α : Type} (mode : Mode) (item : Reader α) (close : Char) : Reader (List α) :=
  fun cs =>
    match skipSpace cs with
    | [] => none
    | c :: rest => if c = close then some ([], rest) else sequence item close mode.limit cs

/-- A text between quotes. -/
def quoted (mode : Mode) : Reader String
  | '"' :: rest =>
    match Quoted.readBody mode.limit rest with
    | none => none
    | some (s, rest) => some (String.ofList s, rest)
  | _ => none

/-- The name of a member, the colon and its value. -/
def member (mode : Mode) (value : Reader Json) : Reader (String × Json) := fun cs =>
  match quoted mode (skipSpace cs) with
  | none => none
  | some (name, rest) =>
    match skipSpace rest with
    | ':' :: rest =>
      match value rest with
      | none => none
      | some (v, rest) => some ((name, v), rest)
    | _ => none

/-- A numeral. -/
def numeral (mode : Mode) : Reader Json := fun cs =>
  match Numeral.read cs with
  | none => none
  | some (numeral, rest) =>
    match numeral.number? mode.rounding with
    | none => none
    | some n => some (.number n, rest)

/-- A value that holds no other values. -/
def scalar (mode : Mode) : Reader Json
  | 'n' :: 'u' :: 'l' :: 'l' :: rest => some (.null, rest)
  | 't' :: 'r' :: 'u' :: 'e' :: rest => some (.bool true, rest)
  | 'f' :: 'a' :: 'l' :: 's' :: 'e' :: rest => some (.bool false, rest)
  | '"' :: rest =>
    match quoted mode ('"' :: rest) with
    | none => none
    | some (s, rest) => some (.text s, rest)
  | cs => numeral mode cs

/-- A value, after white space, in which arrays and objects are nested at most so deep. -/
def value (mode : Mode) : Nat → Reader Json
  | 0, cs => scalar mode (skipSpace cs)
  | depth + 1, cs =>
    match skipSpace cs with
    | '[' :: rest =>
      match bracketed mode (value mode depth) ']' rest with
      | none => none
      | some (items, rest) => some (.array items, rest)
    | '\x7b' :: rest =>
      match bracketed mode (member mode (value mode depth)) '\x7d' rest with
      | none => none
      | some (members, rest) => some (.object members, rest)
    | cs => scalar mode cs

/-- The deepest nesting of arrays and objects that is read. -/
def maxNesting : Nat := 127

/-- The value of a JSON text that nests arrays and objects at most `depth` deep. -/
def parseNested (rounding : Rounding) (depth : Nat) (cs : List Char) : Option Json :=
  match value ⟨rounding, cs.length⟩ depth cs with
  | none => none
  | some (j, rest) => if (skipSpace rest).isEmpty then some j else none

/-- The value of a JSON text, its doubles found in a given way. -/
def parseRounded (rounding : Rounding) (s : String) : Option Json :=
  parseNested rounding maxNesting s.toList

/-- The value of a JSON text. -/
def parse (s : String) : Option Json :=
  parseRounded .stepwise s

end ReadThrough.Json
