import ReadThrough.Number.Layout
import ReadThrough.Text.Quoted
import ReadThrough.Value.Basic

/-!
Canonical text: one compact text for all values that mean the same.

* `print`: the text of a value, field by field in the order given, followed by `rest`.
* `canonicalText`, `encode`: the text of the arranged value, so that the order in which the fields
  of a mapping were given does not show.

The text is JSON, except that NaN and the infinities, which JSON does not have, are written `NaN`,
`+Inf` and `-Inf`.
-/

namespace ReadThrough.Value

mutual

/-- The text of a value, its fields in the order given, followed by `rest`. -/
def print : Value → List Char → List Char
  | .null, rest => 'n' :: 'u' :: 'l' :: 'l' :: rest
  | .bool true, rest => 't' :: 'r' :: 'u' :: 'e' :: rest
  | .bool false, rest => 'f' :: 'a' :: 'l' :: 's' :: 'e' :: rest
  | .int n, rest => intText n.toInt ++ rest
  | .uint n, rest => natText n.toNat ++ rest
  | .float x, rest => x.text ++ rest
  | .text s, rest => Quoted.quoteOnto s.toList rest
  | .list [], rest => '[' :: ']' :: rest
  | .list (v :: items), rest => '[' :: print v (printItems items (']' :: rest))
  | .map [], rest => '\x7b' :: '\x7d' :: rest
  | .map ((name, v) :: fields), rest =>
    '\x7b' :: Quoted.quoteOnto name.toList (':' :: print v (printFields fields ('\x7d' :: rest)))
termination_by structural v => v

/-- The items after the first, each after a comma. -/
def printItems : List Value → List Char → List Char
  | [], rest => rest
  | v :: items, rest => ',' :: print v (printItems items rest)
termination_by structural items => items

/-- The fields after the first, each after a comma. -/
def printFields : List (String × Value) → List Char → List Char
  | [], rest => rest
  | (name, v) :: fields, rest =>
    ',' :: Quoted.quoteOnto name.toList (':' :: print v (printFields fields rest))
termination_by structural fields => fields

end

/-- The canonical text as a list of characters. -/
def canonicalText (v : Value) : List Char :=
  v.arrange.print []

/-- The canonical text of a value. -/
def encode (v : Value) : String :=
  String.ofList v.canonicalText

end ReadThrough.Value
