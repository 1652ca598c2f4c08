import ReadThrough.Json.Basic
import ReadThrough.Value.Basic

/-!
Values and JSON values.

* `ofJson`: every JSON value is a value.
* `toJson?`: the JSON value of a value; there is none where the value holds a NaN or an infinity. A
  field that a later one replaces is not part of the value.
-/

namespace ReadThrough.Value

/-- The value of a JSON number. -/
def ofNumber : Json.Number → Value
  | .natural n => ofUInt64 n
  | .negative n _ => .int n
  | .real x _ => .float x

mutual

/-- The value of a JSON value. -/
def ofJson : Json → Value
  | .null => .null
  | .bool b => .bool b
  | .number n => ofNumber n
  | .text s => .text s
  | .array items => .list (ofJsonItems items)
  | .object members => .map (ofJsonMembers members)
termination_by structural j => j

/-- The values of a list of JSON values. -/
def ofJsonItems : List Json → List Value
  | [] => []
  | j :: rest => ofJson j :: ofJsonItems rest
termination_by structural items => items

/-- The fields of the members of an object. -/
def ofJsonMembers : List (String × Json) → List (String × Value)
  | [] => []
  | (name, j) :: rest => (name, ofJson j) :: ofJsonMembers rest
termination_by structural members => members

end

mutual

/-- The JSON value of a value, field by field in the order given, unless it holds a NaN or an
infinity. -/
def fieldwiseJson? : Value → Option Json
  | .null => some .null
  | .bool b => some (.bool b)
  | .int n => some (.number (Json.Number.ofInt64 n))
  | .uint n => some (.number (.natural n))
  | .float x => (Json.Number.ofReal? x).map Json.number
  | .text s => some (.text s)
  | .list items => (itemsJson? items).map Json.array
  | .map fields => (fieldsJson? fields).map Json.object
termination_by structural v => v

/-- The JSON values of a list of values, if each has one. -/
def itemsJson? : List Value → Option (List Json)
  | [] => some []
  | v :: rest =>
    match fieldwiseJson? v, itemsJson? rest with
    | some j, some others => some (j :: others)
    | _, _ => none
termination_by structural items => items

/-- The members of the fields of a mapping, if the value of each field has a JSON value. -/
def fieldsJson? : List (String × Value) → Option (List (String × Json))
  | [] => some []
  | (name, v) :: rest =>
    match fieldwiseJson? v, fieldsJson? rest with
    | some j, some others => some ((name, j) :: others)
    | _, _ => none
termination_by structural fields => fields

end

/-- The JSON value of a value, its members in order, unless the value holds a NaN or an infinity. -/
def toJson? (v : Value) : Option Json :=
  v.arrange.fieldwiseJson?

end ReadThrough.Value
