/-!
Tables: finite maps from text keys, each key in at most one row.

* `Table`: rows with distinct keys.
* `get?`, `insert`, `erase`, `keep`: looking a key up, putting a row in place of that of the same
  key, taking a row away, and keeping the rows that pass a test.
* `get?_insert`, `get?_erase`, `get?_keep`: what each operation does to what keys stand for.
* `size_insert`, `size_erase`: what each does to the number of rows.
-/

namespace ReadThrough

/-- Rows with distinct text keys. -/
structure Table (α : Type) where
  rows : List (String × α)
  distinct : (rows.map Prod.fst).Nodup

namespace Table

variable {α : Type}

/-- The table without rows. -/
def empty : Table α := ⟨[], by simp⟩

instance : Inhabited (Table α) := ⟨empty⟩

/-- The first value of a key among rows. -/
def find? (key : String) : List (String × α) → Option α
  | [] => none
  | (other, value) :: rest => if other = key then some value else find? key rest

/-- What a key stands for. -/
def get? (t : Table α) (key : String) : Option α :=
  find? key t.rows

/-- The number of rows. -/
def size (t : Table α) : Nat :=
  t.rows.length

theorem distinct_filter (test : String × α → Bool) {rows : List (String × α)}
    (h : (rows.map Prod.fst).Nodup) : ((rows.filter test).map Prod.fst).Nodup :=
  h.sublist ((List.filter_sublist (p := test) (l := rows)).map Prod.fst)

/-- The rows that pass a test. -/
def keep (t : Table α) (test : String → α → Bool) : Table α :=
  ⟨t.rows.filter fun (key, value) => test key value, distinct_filter _ t.distinct⟩

/-- The table without the row of a key. -/
def erase (t : Table α) (key : String) : Table α :=
  t.keep fun other _ => other != key

theorem key_not_mem_erase (t : Table α) (key : String) :
    key ∉ (t.erase key).rows.map Prod.fst := by
  simp [erase, keep]

/-- The table with a row for a key, in place of the row it had. -/
def insert (t : Table α) (key : String) (value : α) : Table α :=
  ⟨(key, value) :: (t.erase key).rows,
    List.nodup_cons.mpr ⟨t.key_not_mem_erase key, (t.erase key).distinct⟩⟩

/-! ### What keys stand for -/

@[simp] theorem get?_empty (key : String) : (empty : Table α).get? key = none := rfl

/-- Among rows with distinct keys a test decides about a key by its one value. -/
theorem find?_filter (test : String → α → Bool) (key : String) {rows : List (String × α)}
    (h : (rows.map Prod.fst).Nodup) :
    find? key (rows.filter fun (key, value) => test key value) =
      (find? key rows).filter (test key) := by
  induction rows with
  | nil => rfl
  | cons row rest ih =>
    obtain ⟨other, value⟩ := row
    simp only [List.map_cons, List.nodup_cons] at h
    have none_after : other = key → find? key rest = none := by
      rintro rfl
      have absent := h.1
      clear ih h
      induction rest with
      | nil => rfl
      | cons row rest ih =>
        simp only [List.map_cons, List.mem_cons, not_or] at absent
        simp only [find?, Ne.symm absent.1, if_false]
        exact ih absent.2
    by_cases same : other = key
    · subst same
      have rest_none := none_after rfl
      by_cases pass : test other value = true
      · simp [find?, pass, Option.filter]
      · simp [find?, pass, Option.filter, ih h.2, rest_none]
    · by_cases pass : test other value = true
      · simp [find?, pass, same, ih h.2]
      · simp [find?, pass, same, ih h.2]

theorem get?_keep (t : Table α) (test : String → α → Bool) (key : String) :
    (t.keep test).get? key = (t.get? key).filter (test key) :=
  find?_filter test key t.distinct

theorem get?_erase (t : Table α) (key other : String) :
    (t.erase key).get? other = if other = key then none else t.get? other := by
  rw [erase, get?_keep]
  by_cases same : other = key
  · cases h : t.get? other <;> simp [same, Option.filter]
  · cases h : t.get? other <;> simp [same, Option.filter]

theorem get?_insert (t : Table α) (key other : String) (value : α) :
    (t.insert key value).get? other = if other = key then some value else t.get? other := by
  have erased := t.get?_erase key other
  simp only [get?] at erased
  by_cases same : other = key
  · simp [get?, insert, find?, same]
  · rw [if_neg same] at erased
    simp only [get?, insert, find?, Ne.symm same, if_false, erased, same]

/-! ### The number of rows -/

theorem size_erase (t : Table α) (key : String) :
    (t.erase key).size + (t.get? key).isSome.toNat = t.size := by
  obtain ⟨rows, distinct⟩ := t
  simp only [erase, keep, size, get?]
  induction rows with
  | nil => rfl
  | cons row rest ih =>
    obtain ⟨other, value⟩ := row
    simp only [List.map_cons, List.nodup_cons] at distinct
    have step := ih distinct.2
    by_cases same : other = key
    · subst same
      have all_kept : rest.filter (fun (other_1, _) => other_1 != other) = rest := by
        refine List.filter_eq_self.mpr fun row member => ?_
        have key_ne : row.1 ≠ other := fun h => distinct.1 (h ▸ List.mem_map_of_mem member)
        simpa using key_ne
      simp [find?, all_kept]
    · simp only [List.filter_cons, bne_iff_ne, ne_eq, same, not_false_eq_true, if_true,
        List.length_cons, find?, if_false]
      omega

theorem size_insert (t : Table α) (key : String) (value : α) :
    (t.insert key value).size + (t.get? key).isSome.toNat = t.size + 1 := by
  have erased := t.size_erase key
  simp only [insert, size, List.length_cons] at erased ⊢
  omega

end Table

end ReadThrough
