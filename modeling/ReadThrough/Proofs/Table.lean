import Mathlib.Data.Set.Card
import Mathlib.SetTheory.Cardinal.NatCard
import Mathlib.Tactic.Common
import ReadThrough.Table

/-!
The number of rows of a table in terms of its keys.

* `isSome_get?_iff`: the keys that stand for something are those of the rows.
* `size_eq_card`, `size_le_card`: there are as many rows as such keys, and so no more than keys of
  a kind to which all of them belong.
* `size_keep_add`, `keep_eq_self`: each row passes a test or fails it, and a table that loses none
  stays as it is.
-/

namespace ReadThrough.Table

variable {α : Type}

/-- The key of a row stands for something, and no other key does. -/
lemma isSome_get?_iff (t : Table α) (key : String) :
    (t.get? key).isSome ↔ key ∈ t.rows.map Prod.fst := by
  rw [get?]
  induction t.rows with
  | nil => simp [find?]
  | cons row rest ih =>
      rw [find?, List.map_cons, List.mem_cons]
      by_cases same : row.1 = key
      · simp [same]
      · simp [same, Ne.symm same, ih]

/-- There are as many rows as keys that stand for something. -/
lemma size_eq_card (t : Table α) : t.size = Nat.card {key // (t.get? key).isSome} := by
  have keys : ∀ key, key ∈ (t.rows.map Prod.fst).toFinset ↔ (t.get? key).isSome = true := by
    intro key
    rw [List.mem_toFinset, isSome_get?_iff]
  calc
    t.size = (t.rows.map Prod.fst).toFinset.card := by
      rw [List.toFinset_card_of_nodup t.distinct, List.length_map, size]
    _ = Nat.card {key // (t.get? key).isSome} := (Nat.subtype_card _ keys).symm

/-- A table has no more rows than there are keys of a kind, if all its keys are of that kind. -/
lemma size_le_card (t : Table α) {p : String → Prop} (finite : Set.Finite {key | p key})
    (kind : ∀ key, (t.get? key).isSome → p key) : t.size ≤ Nat.card {key // p key} := by
  rw [size_eq_card]
  exact Set.ncard_le_ncard (s := {key | (t.get? key).isSome}) kind finite

/-- Each row passes a test or fails it. -/
lemma size_keep_add (t : Table α) (test : String → α → Bool) :
    (t.keep test).size + (t.keep fun key value => !test key value).size = t.size := by
  have split := List.length_eq_length_filter_add (l := t.rows) fun row => test row.1 row.2
  exact split.symm

/-- A table that loses no row by a test stays as it is. -/
lemma keep_eq_self {t : Table α} {test : String → α → Bool} (le : t.size ≤ (t.keep test).size) :
    t.keep test = t := by
  have rows : (t.keep test).rows = t.rows := List.filter_sublist.eq_of_length_le le
  cases t
  simpa only [keep, mk.injEq] using rows

end ReadThrough.Table
