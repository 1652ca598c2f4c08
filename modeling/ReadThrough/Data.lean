import ReadThrough.CacheError
import ReadThrough.Number.Binary32
import ReadThrough.Text.Position
import ReadThrough.Value.Json

/-!
Data: typed values as a program hands them to a serializer, and the values they become.

* `Data`: the shapes a typed value can have.
* `Data.Fault`: why data has no structured form.
* `Data.toJson`: the JSON value of data, or the first fault met from the outside in and from left
  to right, the name of a field before its value.
* `Value.ofData`: the value of data.
* `Value.fromSerialize`: the same, a fault being an error of the cache.
-/

namespace ReadThrough

/-- Typed values as a program hands them to a serializer. Whole numbers of every width are
`integer`. -/
inductive Data where
  | unit
  | bool (b : Bool)
  | integer (n : Int)
  | single (x : Binary32)
  | double (x : Binary64)
  | char (c : Char)
  | text (s : String)
  | bytes (bs : List UInt8)
  | absent
  | present (content : Data)
  | unitRecord
  | unitCase (name : String)
  | wrapper (content : Data)
  | wrapperCase (name : String) (content : Data)
  | sequence (items : List Data)
  | tuple (items : List Data)
  | tupleCase (name : String) (items : List Data)
  | record (fields : List (String × Data))
  | recordCase (name : String) (fields : List (String × Data))
  | mapping (entries : List (Data × Data))
  | failing (message : String)
deriving Inhabited

namespace Data

/-- Why data has no structured form. -/
inductive Fault where
  | numberOutOfRange
  | nameNotText
  | nameNotFinite
  | refused (message : String)
deriving DecidableEq

/-- The wording of a fault. A position at the end of the message of data that refuses is written
anew. -/
def Fault.message : Fault → String
  | .numberOutOfRange => "number out of range"
  | .nameNotText => "key must be a string"
  | .nameNotFinite => "float key must be finite (got NaN or +/-inf)"
  | .refused message => String.ofList (Position.normalize message.toList)

/-- The name that a key of a mapping gives to its field. -/
def fieldName : Data → Except Fault String
  | .text s => .ok s
  | .char c => .ok (String.ofList [c])
  | .unitCase name => .ok name
  | .bool b => .ok (if b then "true" else "false")
  | .integer n => .ok (String.ofList (intText n))
  | .single x => if x.isFinite then .ok (String.ofList x.nameText) else .error .nameNotFinite
  | .double x => if x.isFinite then .ok (String.ofList x.nameText) else .error .nameNotFinite
  | .wrapper content => content.fieldName
  | .failing message => .error (.refused message)
  | _ => .error .nameNotText

/-- The JSON value of a double: null if it is not finite. -/
def realJson (x : Binary64) : Json :=
  match Json.Number.ofReal? x with
  | some n => .number n
  | none => .null

/-- The JSON value of bytes: the list of their numbers. -/
def bytesJson (bs : List UInt8) : Json :=
  .array (bs.map fun b => .number (.natural b.toUInt64))

mutual

/-- The JSON value of data, or its first fault. -/
def toJson : Data → Except Fault Json
  | .unit => .ok .null
  | .bool b => .ok (.bool b)
  | .integer n =>
    match Json.Number.ofInt? n with
    | some number => .ok (.number number)
    | none => .error .numberOutOfRange
  | .single x => .ok (realJson x.widen)
  | .double x => .ok (realJson x)
  | .char c => .ok (.text (String.ofList [c]))
  | .text s => .ok (.text s)
  | .bytes bs => .ok (bytesJson bs)
  | .absent => .ok .null
  | .present content => content.toJson
  | .unitRecord => .ok .null
  | .unitCase name => .ok (.text name)
  | .wrapper content => content.toJson
  | .wrapperCase name content => content.toJson.map fun j => .object [(name, j)]
  | .sequence items => (toJsonItems items).map .array
  | .tuple items => (toJsonItems items).map .array
  | .tupleCase name items => (toJsonItems items).map fun js => .object [(name, .array js)]
  | .record fields => (toJsonFields fields).map .object
  | .recordCase name fields =>
    (toJsonFields fields).map fun members => .object [(name, .object members)]
  | .mapping entries => (toJsonEntries entries).map .object
  | .failing message => .error (.refused message)
termination_by structural d => d

/-- The JSON values of a list of data, or the first fault. -/
def toJsonItems : List Data → Except Fault (List Json)
  | [] => .ok []
  | d :: rest =>
    match d.toJson with
    | .error fault => .error fault
    | .ok j => (toJsonItems rest).map fun others => j :: others
termination_by structural items => items

/-- The members of the fields of a record, or the first fault. -/
def toJsonFields : List (String × Data) → Except Fault (List (String × Json))
  | [] => .ok []
  | (name, d) :: rest =>
    match d.toJson with
    | .error fault => .error fault
    | .ok j => (toJsonFields rest).map fun others => (name, j) :: others
termination_by structural fields => fields

/-- The members of the entries of a mapping, or the first fault. -/
def toJsonEntries : List (Data × Data) → Except Fault (List (String × Json))
  | [] => .ok []
  | (key, d) :: rest =>
    match key.fieldName with
    | .error fault => .error fault
    | .ok name =>
      match d.toJson with
      | .error fault => .error fault
      | .ok j => (toJsonEntries rest).map fun others => (name, j) :: others
termination_by structural entries => entries

end

end Data

/-- The value of data, or its first fault. -/
def Value.ofData (d : Data) : Except Data.Fault Value :=
  d.toJson.map Value.ofJson

/-- The value of data; data with a fault has no canonical form. -/
def Value.fromSerialize (d : Data) : Except CacheError Value :=
  (Value.ofData d).mapError fun fault => .encoding fault.message

end ReadThrough
