import Mathlib.Tactic.Common
import ReadThrough.Data

/-!
What a serializer comes to in data, and where it fails.

* `Visit`, `visits`: data and keys in the order in which a serializer comes to them.
* `IsName`: the keys that give a name.
* `Visit.Faulty`: what is wrong with one visit by itself.
* `firstFault_visits`: the fault of data is that of its first faulty visit.
* `toJson_eq_error_iff`, `exists_error_iff`: which fault data has, and whether it has one.
-/

namespace ReadThrough

namespace Data

/-! ### The order of a serializer -/

/-- What a serializer comes to: data, or a key of a mapping. -/
inductive Visit where
  | node (d : Data)
  | key (d : Data)

mutual

/-- What a serializer comes to inside data. -/
def inside : Data → List Visit
  | .present content => .node content :: content.inside
  | .wrapper content => .node content :: content.inside
  | .wrapperCase _ content => .node content :: content.inside
  | .sequence items => insideItems items
  | .tuple items => insideItems items
  | .tupleCase _ items => insideItems items
  | .record fields => insideFields fields
  | .recordCase _ fields => insideFields fields
  | .mapping entries => insideEntries entries
  | _ => []
termination_by structural d => d

/-- The items one after the other, each with what is inside. -/
def insideItems : List Data → List Visit
  | [] => []
  | d :: rest => .node d :: (d.inside ++ insideItems rest)
termination_by structural items => items

/-- The fields one after the other, each with what is inside. -/
def insideFields : List (String × Data) → List Visit
  | [] => []
  | (_, d) :: rest => .node d :: (d.inside ++ insideFields rest)
termination_by structural fields => fields

/-- The entries one after the other, the key before what it stands for. A key counts as a whole. -/
def insideEntries : List (Data × Data) → List Visit
  | [] => []
  | (key, d) :: rest => .key key :: .node d :: (d.inside ++ insideEntries rest)
termination_by structural entries => entries

end

/-- What a serializer comes to in data, from the outside in and from left to right. -/
def visits (d : Data) : List Visit :=
  .node d :: d.inside

/-! ### Faults -/

/-- The keys that give a name: text, a character, a case without content, a boolean, a whole number,
a finite floating-point number, and what wraps one of these. -/
inductive IsName : Data → Prop where
  | text (s : String) : IsName (.text s)
  | char (c : Char) : IsName (.char c)
  | unitCase (name : String) : IsName (.unitCase name)
  | bool (b : Bool) : IsName (.bool b)
  | integer (n : Int) : IsName (.integer n)
  | single {x : Binary32} : x.isFinite = true → IsName (.single x)
  | double {x : Binary64} : x.isFinite = true → IsName (.double x)
  | wrapper {content : Data} : IsName content → IsName (.wrapper content)

/-- Whether a whole number fits a word, signed or not. -/
def Fits (n : Int) : Prop :=
  -0x8000000000000000 ≤ n ∧ n < 0x10000000000000000

/-- What is wrong with one visit by itself. -/
inductive Visit.Faulty : Visit → Fault → Prop where
  | refused (message : String) : Faulty (.node (.failing message)) (.refused message)
  | outOfRange {n : Int} : ¬Fits n → Faulty (.node (.integer n)) .numberOutOfRange
  | name {key : Data} {fault : Fault} : ¬key.IsName → key.fieldName = .error fault →
    Faulty (.key key) fault

/-- The fault of a result, if it is one. -/
def faultOf {α : Type} : Except Fault α → Option Fault
  | .error fault => some fault
  | .ok _ => none

lemma faultOf_map {α β : Type} (f : α → β) (result : Except Fault α) :
    faultOf (result.map f) = faultOf result := by
  cases result <;> rfl

lemma faultOf_eq_some_iff {α : Type} {result : Except Fault α} {fault : Fault} :
    faultOf result = some fault ↔ result = .error fault := by
  cases result <;> simp [faultOf]

/-- The fault of one visit by itself. Only a refusal and a number can be at fault without what is
inside. -/
def Visit.fault? : Visit → Option Fault
  | .node (.failing message) => some (.refused message)
  | .node (.integer n) => faultOf (toJson (.integer n))
  | .node _ => none
  | .key d => faultOf d.fieldName

/-- The first fault of several visits. -/
def firstFault (visits : List Visit) : Option Fault :=
  visits.findSome? Visit.fault?

lemma firstFault_cons (visit : Visit) (rest : List Visit) :
    firstFault (visit :: rest) = visit.fault?.or (firstFault rest) := by
  rw [firstFault, List.findSome?_cons]
  cases visit.fault? <;> rfl

lemma firstFault_append (before after : List Visit) :
    firstFault (before ++ after) = (firstFault before).or (firstFault after) :=
  List.findSome?_append

mutual

/-- The fault of data is that of its first faulty visit. -/
lemma firstFault_visits (d : Data) : faultOf d.toJson = firstFault d.visits := by
  rw [visits, firstFault_cons]
  -- data with something inside has no fault of its own
  cases d with
  | present content | wrapper content =>
      rw [toJson, firstFault_visits content]
      rfl
  | wrapperCase name content =>
      rw [toJson, faultOf_map, firstFault_visits content]
      rfl
  | sequence items | tuple items | tupleCase name items =>
      rw [toJson, faultOf_map, firstFault_items items]
      rfl
  | record fields | recordCase name fields =>
      rw [toJson, faultOf_map, firstFault_fields fields]
      rfl
  | mapping entries =>
      rw [toJson, faultOf_map, firstFault_entries entries]
      rfl
  | integer n => exact (Option.or_none).symm
  | _ => rfl
termination_by structural d

lemma firstFault_items (items : List Data) :
    faultOf (toJsonItems items) = firstFault (insideItems items) := by
  cases items with
  | nil => rfl
  | cons d rest =>
      rw [toJsonItems, insideItems, ← List.cons_append, firstFault_append, ← visits,
        ← firstFault_visits d, ← firstFault_items rest]
      cases d.toJson with
      | error fault => rfl
      | ok j => exact faultOf_map _ _
termination_by structural items

lemma firstFault_fields (fields : List (String × Data)) :
    faultOf (toJsonFields fields) = firstFault (insideFields fields) := by
  cases fields with
  | nil => rfl
  | cons pair rest =>
      obtain ⟨name, d⟩ := pair
      rw [toJsonFields, insideFields, ← List.cons_append, firstFault_append, ← visits,
        ← firstFault_visits d, ← firstFault_fields rest]
      cases d.toJson with
      | error fault => rfl
      | ok j => exact faultOf_map _ _
termination_by structural fields

lemma firstFault_entries (entries : List (Data × Data)) :
    faultOf (toJsonEntries entries) = firstFault (insideEntries entries) := by
  cases entries with
  | nil => rfl
  | cons entry rest =>
      obtain ⟨key, d⟩ := entry
      rw [toJsonEntries, insideEntries, firstFault_cons, ← List.cons_append, firstFault_append,
        ← visits, ← firstFault_visits d, ← firstFault_entries rest]
      have own : (Visit.key key).fault? = faultOf key.fieldName := rfl
      rw [own]
      cases key.fieldName with
      | error fault => rfl
      | ok name =>
          cases d.toJson with
          | error fault => rfl
          | ok j => exact faultOf_map _ _
termination_by structural entries

end

/-! ### Faulty visits -/

lemma IsName.fieldName {d : Data} (h : d.IsName) : ∃ name, d.fieldName = .ok name := by
  induction h with
  | single finite => exact ⟨_, if_pos finite⟩
  | double finite => exact ⟨_, if_pos finite⟩
  | wrapper _ ih => exact ih
  | _ => exact ⟨_, rfl⟩

lemma isName_of_fieldName {d : Data} {name : String} (h : d.fieldName = .ok name) : d.IsName := by
  fun_induction fieldName d with
  | case1 s => exact .text s
  | case2 c => exact .char c
  | case3 name => exact .unitCase name
  | case4 b => exact .bool b
  | case5 n => exact .integer n
  | case6 x finite => exact .single finite
  | case8 x finite => exact .double finite
  | case10 content ih => exact .wrapper (ih h)
  | case7 | case9 | case11 | case12 => cases h

lemma ofInt?_eq_none_iff {n : Int} : Json.Number.ofInt? n = none ↔ ¬Fits n := by
  have signed : ((Nat.pow 2 63 : Nat) : Int) = 0x8000000000000000 := rfl
  have word : ((Nat.pow 2 64 : Nat) : Int) = 0x10000000000000000 := rfl
  rw [Json.Number.ofInt?, Fits, signed, word]
  split_ifs <;> simp only [false_iff, true_iff] <;> omega

lemma faultOf_integer_eq_some_iff {n : Int} {fault : Fault} :
    faultOf (toJson (.integer n)) = some fault ↔ ¬Fits n ∧ fault = .numberOutOfRange := by
  rw [faultOf_eq_some_iff, toJson, ← ofInt?_eq_none_iff]
  cases Json.Number.ofInt? n <;> simp [eq_comm]

/-- What is wrong with one visit is found at that visit. -/
lemma Visit.fault?_eq_some_iff {visit : Visit} {fault : Fault} :
    visit.fault? = some fault ↔ visit.Faulty fault := by
  constructor
  · intro found
    cases visit with
    | node d =>
        cases d with
        | failing message =>
            obtain rfl := Option.some.inj found
            exact .refused message
        | integer n =>
            obtain ⟨outside, rfl⟩ := faultOf_integer_eq_some_iff.mp found
            exact .outOfRange outside
        | _ => cases found
    | key d =>
        have failed : d.fieldName = .error fault := faultOf_eq_some_iff.mp found
        refine .name (fun named => ?_) failed
        obtain ⟨name, given⟩ := named.fieldName
        cases failed.symm.trans given
  · rintro (message | outside | ⟨-, failed⟩)
    · rfl
    · exact faultOf_integer_eq_some_iff.mpr ⟨outside, rfl⟩
    · exact faultOf_eq_some_iff.mpr failed

/-- Data has the fault of its first faulty visit. -/
theorem toJson_eq_error_iff {d : Data} {fault : Fault} :
    d.toJson = .error fault ↔ ∃ before visit after, d.visits = before ++ visit :: after ∧
      (∀ earlier ∈ before, ∀ other, ¬earlier.Faulty other) ∧ visit.Faulty fault := by
  rw [← faultOf_eq_some_iff, firstFault_visits, firstFault, List.findSome?_eq_some_iff]
  simp only [Visit.fault?_eq_some_iff, Option.eq_none_iff_forall_ne_some, ne_eq]
  exact exists₃_congr fun before visit after => and_congr_right fun _ => and_comm

/-- The visits with a fault: those of data that refuses, of whole numbers out of range, and of keys
that give no name. -/
lemma Visit.exists_faulty_iff {visit : Visit} :
    (∃ fault, visit.Faulty fault) ↔ (∃ message, visit = .node (.failing message)) ∨
      (∃ n, visit = .node (.integer n) ∧ ¬Fits n) ∨ ∃ d, visit = .key d ∧ ¬d.IsName := by
  constructor
  · rintro ⟨fault, message | @⟨n, outside⟩ | @⟨d, _, nameless, -⟩⟩
    · exact .inl ⟨message, rfl⟩
    · exact .inr (.inl ⟨n, rfl, outside⟩)
    · exact .inr (.inr ⟨d, rfl, nameless⟩)
  · rintro (⟨message, rfl⟩ | ⟨n, rfl, outside⟩ | ⟨d, rfl, nameless⟩)
    · exact ⟨_, .refused message⟩
    · exact ⟨_, .outOfRange outside⟩
    · cases failed : d.fieldName with
      | ok name => exact absurd (isName_of_fieldName failed) nameless
      | error fault => exact ⟨fault, .name nameless failed⟩

/-- Data has a fault if and only if one of its visits has. -/
theorem exists_error_iff {d : Data} :
    (∃ fault, d.toJson = .error fault) ↔
      (∃ message, .node (.failing message) ∈ d.visits) ∨
      (∃ n, .node (.integer n) ∈ d.visits ∧ ¬Fits n) ∨
      ∃ key, .key key ∈ d.visits ∧ ¬key.IsName := by
  have visited : (∃ fault, d.toJson = .error fault) ↔
      ∃ visit ∈ d.visits, ∃ fault, visit.Faulty fault := by
    simp only [← faultOf_eq_some_iff, firstFault_visits, firstFault, ← Visit.fault?_eq_some_iff,
      ← Option.isSome_iff_exists, List.findSome?_isSome_iff]
  rw [visited]
  simp only [Visit.exists_faulty_iff]
  constructor
  · rintro ⟨visit, mem, ⟨message, rfl⟩ | ⟨n, rfl, outside⟩ | ⟨key, rfl, nameless⟩⟩
    · exact .inl ⟨message, mem⟩
    · exact .inr (.inl ⟨n, mem, outside⟩)
    · exact .inr (.inr ⟨key, mem, nameless⟩)
  · rintro (⟨message, mem⟩ | ⟨n, mem, outside⟩ | ⟨key, mem, nameless⟩)
    · exact ⟨_, mem, .inl ⟨message, rfl⟩⟩
    · exact ⟨_, mem, .inr (.inl ⟨n, rfl, outside⟩)⟩
    · exact ⟨_, mem, .inr (.inr ⟨key, rfl, nameless⟩)⟩

end Data

end ReadThrough
