import ReadThrough.Fields
import ReadThrough.Number.Binary64

/-!
JSON values.

* `Json.Number`: the three disjoint kinds of numbers, each with its range in the type.
* `Json`: JSON values; the members of an object are in the order given, and of several with one
  name the last counts.
* `Json.Number.ofInt?`: the number of a whole number that fits 64 bits, signed or not.
* `Json.arrange`: the value with the members of every object in order, each name once.
* `Json.agrees`, `Json.equals`: equality of JSON values, in which the order of members does not
  count.
-/

namespace ReadThrough

/-- A number of a JSON value: a whole number that is not negative, a negative whole number, or a
finite double. -/
inductive Json.Number where
  | natural (n : UInt64)
  | negative (n : Int64) (below : n < 0)
  | real (x : Binary64) (finite : x.isFinite = true)
deriving DecidableEq

/-- A JSON value. -/
inductive Json where
  | null
  | bool (b : Bool)
  | number (n : Json.Number)
  | text (s : String)
  | array (items : List Json)
  | object (members : List (String × Json))
deriving Inhabited

namespace Json

namespace Number

/-- The number of a signed word. -/
def ofInt64 (n : Int64) : Number :=
  if below : n < 0 then .negative n below else .natural (UInt64.ofNat n.toInt.toNat)

/-- The number of a whole number that fits a word, signed or not. -/
def ofInt? (n : Int) : Option Number :=
  if 0 ≤ n then
    if n < Nat.pow 2 64 then some (.natural (UInt64.ofNat n.toNat)) else none
  else if -Nat.pow 2 63 ≤ n then some (ofInt64 (Int64.ofInt n))
  else none

/-- The number of a double, if it is finite. -/
def ofReal? (x : Binary64) : Option Number :=
  if finite : x.isFinite = true then some (.real x finite) else none

/-- Equality of two numbers of one kind; the two zeros among the doubles agree. -/
def agrees : Number → Number → Bool
  | .natural a, .natural b => a == b
  | .negative a _, .negative b _ => a == b
  | .real a _, .real b _ => a.sameNumber b
  | _, _ => false

end Number

mutual

/-- The JSON value with the members of every object in order, each name once. -/
def arrange : Json → Json
  | .array items => .array (arrangeItems items)
  | .object members => .object (Fields.inOrder (arrangeMembers members))
  | j => j
termination_by structural j => j

/-- The items, each arranged. -/
def arrangeItems : List Json → List Json
  | [] => []
  | j :: rest => arrange j :: arrangeItems rest
termination_by structural items => items

/-- The members, the value of each arranged. -/
def arrangeMembers : List (String × Json) → List (String × Json)
  | [] => []
  | (name, j) :: rest => (name, arrange j) :: arrangeMembers rest
termination_by structural members => members

end

mutual

/-- Equality of two JSON values, member by member in the order given. -/
def agrees : Json → Json → Bool
  | .null, .null => true
  | .bool a, .bool b => a == b
  | .number a, .number b => a.agrees b
  | .text a, .text b => a == b
  | .array as, .array bs => agreesItems as bs
  | .object as, .object bs => agreesMembers as bs
  | _, _ => false
termination_by structural j => j

/-- Equality of two lists of JSON values. -/
def agreesItems : List Json → List Json → Bool
  | [], [] => true
  | a :: as, b :: bs => agrees a b && agreesItems as bs
  | _, _ => false
termination_by structural items => items

/-- Equality of two lists of members. -/
def agreesMembers : List (String × Json) → List (String × Json) → Bool
  | [], [] => true
  | (m, a) :: as, (n, b) :: bs => m == n && (agrees a b && agreesMembers as bs)
  | _, _ => false
termination_by structural members => members

end

/-- Equality of JSON values: objects are equal if they have the same names with equal values. -/
def equals (a b : Json) : Bool :=
  agrees a.arrange b.arrange

end Json

end ReadThrough
