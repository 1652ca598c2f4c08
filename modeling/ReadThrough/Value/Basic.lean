import ReadThrough.Number.Binary64
import ReadThrough.Fields

/-!
Values: the structured input of a tool.

* `Value`: null, booleans, whole numbers of two kinds, doubles, text, lists and mappings. A mapping
  holds its fields in the order given; the order carries no meaning and of several fields with one
  name the last counts.
* `insert`, `get?`, `item?` and the `as` functions: building a value and taking it apart.
* `arrange`: the value with the fields of every mapping in order, each name once.
* `same`, `equals`: equality of values, in which a NaN equals nothing and a whole number equals no
  double.
-/

namespace ReadThrough

/-- The structured input of a tool. -/
inductive Value where
  | null
  | bool (b : Bool)
  | int (n : Int64)
  | uint (n : UInt64)
  | float (x : Binary64)
  | text (s : String)
  | list (items : List Value)
  | map (fields : List (String × Value))
deriving Inhabited

namespace Value

/-! ### Building -/

/-- The mapping without fields. -/
def empty : Value := .map []

/-- Adds a field to a mapping. A value that is no mapping is dropped, and the mapping with this
field alone takes its place. -/
def insert (v : Value) (name : String) (field : Value) : Value :=
  match v with
  | .map fields => .map (fields ++ [(name, field)])
  | _ => .map [(name, field)]

/-- The mapping of a list of fields; of several with one name the last counts. -/
def ofFields (fields : List (String × Value)) : Value := .map fields

/-- A whole number below `2 ^ 64`, signed if it fits. -/
def ofUInt64 (n : UInt64) : Value :=
  if n.toNat < Nat.pow 2 63 then .int (Int64.ofNat n.toNat) else .uint n

/-! ### Taking apart -/

/-- Whether the value is null. -/
def isNull : Value → Bool
  | .null => true
  | _ => false

/-- The text of a text. -/
def asText? : Value → Option String
  | .text s => some s
  | _ => none

/-- The truth value of a boolean. -/
def asBool? : Value → Option Bool
  | .bool b => some b
  | _ => none

/-- A whole number that fits the signed range. -/
def asInt? : Value → Option Int64
  | .int n => some n
  | .uint n => if n.toNat < Nat.pow 2 63 then some (Int64.ofNat n.toNat) else none
  | _ => none

/-- Any number as the nearest double. -/
def asFloat? : Value → Option Binary64
  | .int n => some (Binary64.ofInt n.toInt)
  | .uint n => some (Binary64.ofInt n.toNat)
  | .float x => some x
  | _ => none

/-- The field of a mapping. -/
def get? (v : Value) (name : String) : Option Value :=
  match v with
  | .map fields => Fields.lookup name fields
  | _ => none

/-- The item of a list, counted from zero. -/
def item? (v : Value) (i : Nat) : Option Value :=
  match v with
  | .list items => items[i]?
  | _ => none

/-! ### Order of fields and equality -/

mutual

/-- The value with the fields of every mapping in order, each name once. -/
def arrange : Value → Value
  | .list items => .list (arrangeItems items)
  | .map fields => .map (Fields.inOrder (arrangeFields fields))
  | v => v
termination_by structural v => v

/-- The items, each arranged. -/
def arrangeItems : List Value → List Value
  | [] => []
  | v :: rest => arrange v :: arrangeItems rest
termination_by structural items => items

/-- The fields, the value of each arranged. -/
def arrangeFields : List (String × Value) → List (String × Value)
  | [] => []
  | (name, v) :: rest => (name, arrange v) :: arrangeFields rest
termination_by structural fields => fields

end

mutual

/-- Equality of two values field by field in the order given. -/
def same : Value → Value → Bool
  | .null, .null => true
  | .bool a, .bool b => a == b
  | .int a, .int b => a == b
  | .uint a, .uint b => a == b
  | .float a, .float b => a.sameNumber b
  | .text a, .text b => a == b
  | .list as, .list bs => sameItems as bs
  | .map as, .map bs => sameFields as bs
  | _, _ => false
termination_by structural v => v

/-- Equality of two lists of values. -/
def sameItems : List Value → List Value → Bool
  | [], [] => true
  | a :: as, b :: bs => same a b && sameItems as bs
  | _, _ => false
termination_by structural items => items

/-- Equality of two lists of fields. -/
def sameFields : List (String × Value) → List (String × Value) → Bool
  | [], [] => true
  | (m, a) :: as, (n, b) :: bs => m == n && (same a b && sameFields as bs)
  | _, _ => false
termination_by structural fields => fields

end

/-- Equality of values: mappings are equal if they have the same names with equal values. -/
def equals (a b : Value) : Bool :=
  same a.arrange b.arrange

end Value

end ReadThrough
