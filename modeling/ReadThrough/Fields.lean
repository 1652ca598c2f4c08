import ReadThrough.Text.Utf8

/-!
Fields: pairs of a name and a value in the order in which they were given. Of several pairs with
one name the last counts.

* `lookup`: the value that counts for a name.
* `Ordered`: every name once, in the order of UTF-8 bytes.
* `merge`: two ordered lists in one; a pair of the second replaces one of the first.
* `inOrder`: fields put in order by merging blocks of growing size.
* `ordered_inOrder`, `lookup_inOrder`: the result is ordered, and keeps what every name stands for.
-/

namespace ReadThrough.Fields

variable {α : Type}

/-- The value that counts for a name: that of its last pair. -/
def lookup (name : String) : List (String × α) → Option α
  | [] => none
  | (other, value) :: rest =>
    match lookup name rest with
    | some later => some later
    | none => if other = name then some value else none

/-- Every name once, in the order of UTF-8 bytes. -/
def Ordered (fields : List (String × α)) : Prop :=
  fields.Pairwise fun a b => Utf8.before a.1 b.1 = true

/-- Merges an ordered list with a pair in front of `rest` into one that comes after it, given how
`rest` is merged. -/
def mergeFrom (pair : String × α) (rest : List (String × α))
    (mergeRest : List (String × α) → List (String × α)) :
    List (String × α) → List (String × α)
  | [] => pair :: rest
  | later :: others =>
    if pair.1 = later.1 then later :: mergeRest others
    else if Utf8.before pair.1 later.1 then pair :: mergeRest (later :: others)
    else later :: mergeFrom pair rest mergeRest others

/-- Two ordered lists in one. A pair of the second replaces the pair of its name in the first. -/
def merge : List (String × α) → List (String × α) → List (String × α)
  | [] => fun later => later
  | pair :: rest => mergeFrom pair rest (merge rest)

/-- The first `2 ^ depth` fields in order, and the fields after them. -/
def orderBlock : Nat → List (String × α) → List (String × α) × List (String × α)
  | 0, [] => ([], [])
  | 0, pair :: rest => ([pair], rest)
  | depth + 1, fields =>
    let (first, rest) := orderBlock depth fields
    let (second, rest) := orderBlock depth rest
    (merge first second, rest)

/-- Every name once, in the order of UTF-8 bytes, with the value that counts for it. -/
def inOrder (fields : List (String × α)) : List (String × α) :=
  (orderBlock (fields.length.log2 + 1) fields).1

/-! ### Looking a name up -/

theorem lookup_cons (key : String) (pair : String × α) (rest : List (String × α)) :
    lookup key (pair :: rest) =
      (lookup key rest).or (if pair.1 = key then some pair.2 else none) := by
  rw [lookup]
  cases lookup key rest <;> rfl

/-- A name that none of the fields has stands for nothing. -/
theorem lookup_eq_none {key : String} {fields : List (String × α)}
    (h : ∀ pair ∈ fields, pair.1 ≠ key) : lookup key fields = none := by
  induction fields with
  | nil => rfl
  | cons pair rest ih =>
    have absent := ih fun other mem => h other (List.mem_cons_of_mem _ mem)
    simp [lookup, absent, h pair List.mem_cons_self]

/-- In an ordered list the first name is none of the later ones. -/
theorem Ordered.lookup_rest {pair : String × α} {rest : List (String × α)}
    (h : Ordered (pair :: rest)) : lookup pair.1 rest = none := by
  refine lookup_eq_none fun other mem same => ?_
  have first := (List.pairwise_cons.mp h).1 other mem
  rw [same, Utf8.before_irrefl] at first
  exact Bool.false_ne_true first

/-- A name that comes before all names stands for nothing. -/
theorem lookup_eq_none_of_before {key : String} {fields : List (String × α)}
    (h : ∀ pair ∈ fields, Utf8.before key pair.1 = true) : lookup key fields = none := by
  refine lookup_eq_none fun pair mem same => ?_
  have first := h pair mem
  rw [same, Utf8.before_irrefl] at first
  exact Bool.false_ne_true first

/-! ### Merging -/

/-- Each pair of the merged list is one of the first or one of the second. -/
theorem mem_merge {pair : String × α} {xs ys : List (String × α)} (h : pair ∈ merge xs ys) :
    pair ∈ xs ∨ pair ∈ ys := by
  induction xs generalizing ys with
  | nil => exact Or.inr h
  | cons x xs ih =>
    induction ys with
    | nil => exact Or.inl h
    | cons y ys ihy =>
      simp only [merge, mergeFrom] at h
      split at h
      · rcases List.mem_cons.mp h with rfl | h
        · simp
        · rcases ih h with h | h <;> simp [h]
      · split at h
        · rcases List.mem_cons.mp h with rfl | h
          · simp
          · rcases ih h with h | h
            · simp [h]
            · exact Or.inr h
        · rcases List.mem_cons.mp h with rfl | h
          · simp
          · rcases ihy h with h | h
            · exact Or.inl h
            · simp [h]

/-- Merging ordered lists gives an ordered list. -/
theorem ordered_merge {xs ys : List (String × α)} (hx : Ordered xs) (hy : Ordered ys) :
    Ordered (merge xs ys) := by
  induction xs generalizing ys with
  | nil => exact hy
  | cons x xs ih =>
    have ⟨x_first, hxs⟩ := List.pairwise_cons.mp hx
    induction ys with
    | nil => exact hx
    | cons y ys ihy =>
      have ⟨y_first, hys⟩ := List.pairwise_cons.mp hy
      simp only [merge, mergeFrom]
      split
      · rename_i same
        refine List.pairwise_cons.mpr ⟨fun other mem => ?_, ih hxs hys⟩
        rcases mem_merge mem with mem | mem
        · exact same ▸ x_first other mem
        · exact y_first other mem
      · rename_i different
        split
        · rename_i first
          refine List.pairwise_cons.mpr ⟨fun other mem => ?_, ih hxs hy⟩
          rcases mem_merge mem with mem | mem
          · exact x_first other mem
          · rcases List.mem_cons.mp mem with rfl | mem
            · exact first
            · exact Utf8.before_trans first (y_first other mem)
        · rename_i not_first
          have last : Utf8.before y.1 x.1 = true := by
            rcases Utf8.before_or x.1 y.1 with h | h | h
            · exact absurd h not_first
            · exact absurd h different
            · exact h
          refine List.pairwise_cons.mpr ⟨fun other mem => ?_, ihy hys⟩
          have from_either : other ∈ x :: xs ∨ other ∈ ys := mem_merge mem
          rcases from_either with mem | mem
          · rcases List.mem_cons.mp mem with rfl | mem
            · exact last
            · exact Utf8.before_trans last (x_first other mem)
          · exact y_first other mem

/-- In the merged list a name stands for what it stands for in the second list, or else in the
first. -/
theorem lookup_merge (key : String) {xs ys : List (String × α)} (hx : Ordered xs)
    (hy : Ordered ys) : lookup key (merge xs ys) = (lookup key ys).or (lookup key xs) := by
  induction xs generalizing ys with
  | nil => simp [merge, lookup]
  | cons x xs ih =>
    have ⟨x_first, hxs⟩ := List.pairwise_cons.mp hx
    induction ys with
    | nil => simp [merge, mergeFrom, lookup]
    | cons y ys ihy =>
      have ⟨y_first, hys⟩ := List.pairwise_cons.mp hy
      simp only [merge, mergeFrom]
      split
      · rename_i same
        simp only [lookup_cons, ih hxs hys]
        by_cases hit : y.1 = key
        · subst hit
          have absent : lookup y.1 xs = none := same ▸ hx.lookup_rest
          simp [absent]
        · simp [hit, same]
      · rename_i different
        split
        · rename_i first
          rw [lookup_cons key x, lookup_cons key x, ih hxs hy]
          by_cases hit : x.1 = key
          · have absent : lookup key (y :: ys) = none := by
              refine lookup_eq_none_of_before fun other mem => ?_
              rcases List.mem_cons.mp mem with rfl | mem
              · exact hit ▸ first
              · exact hit ▸ Utf8.before_trans first (y_first other mem)
            simp [absent]
          · simp [hit]
        · rename_i not_first
          have last : Utf8.before y.1 x.1 = true := by
            rcases Utf8.before_or x.1 y.1 with h | h | h
            · exact absurd h not_first
            · exact absurd h different
            · exact h
          have tail := ihy hys
          rw [merge] at tail
          rw [lookup_cons key y, lookup_cons key y, tail]
          by_cases hit : y.1 = key
          · have absent : lookup key (x :: xs) = none := by
              refine lookup_eq_none_of_before fun other mem => ?_
              rcases List.mem_cons.mp mem with rfl | mem
              · exact hit ▸ last
              · exact hit ▸ Utf8.before_trans last (x_first other mem)
            simp [absent]
          · simp [hit]

/-! ### Putting in order -/

/-- A block is ordered, and with the fields after it every name stands for what it stood for. -/
theorem orderBlock_spec (depth : Nat) (fields : List (String × α)) :
    Ordered (orderBlock depth fields).1 ∧
      (orderBlock depth fields).2.length = fields.length - Nat.pow 2 depth ∧
      ∀ key, lookup key fields =
        (lookup key (orderBlock depth fields).2).or (lookup key (orderBlock depth fields).1) := by
  induction depth generalizing fields with
  | zero =>
    cases fields with
    | nil => simp [orderBlock, Ordered, lookup]
    | cons pair rest =>
      refine ⟨by simp [orderBlock, Ordered], by simp [orderBlock], fun key => ?_⟩
      rw [lookup_cons]
      simp [orderBlock, lookup]
  | succ depth ih =>
    have ⟨first_ordered, first_length, first_lookup⟩ := ih fields
    have ⟨second_ordered, second_length, second_lookup⟩ := ih (orderBlock depth fields).2
    refine ⟨ordered_merge first_ordered second_ordered, ?_, fun key => ?_⟩
    · simp only [orderBlock, second_length, first_length, Nat.pow_eq, Nat.pow_succ]
      omega
    · simp only [orderBlock, lookup_merge key first_ordered second_ordered]
      rw [first_lookup, second_lookup, Option.or_assoc]

/-- Nothing is left after the block that covers all fields. -/
theorem orderBlock_rest (fields : List (String × α)) :
    (orderBlock (fields.length.log2 + 1) fields).2 = [] := by
  have covered : fields.length < Nat.pow 2 (fields.length.log2 + 1) := Nat.lt_log2_self
  have rest_length := (orderBlock_spec (fields.length.log2 + 1) fields).2.1
  exact List.eq_nil_of_length_eq_zero (by omega)

theorem ordered_inOrder (fields : List (String × α)) : Ordered (inOrder fields) :=
  (orderBlock_spec _ fields).1

/-- Putting fields in order keeps what every name stands for. -/
theorem lookup_inOrder (key : String) (fields : List (String × α)) :
    lookup key (inOrder fields) = lookup key fields := by
  rw [inOrder, (orderBlock_spec (fields.length.log2 + 1) fields).2.2 key, orderBlock_rest]
  simp [lookup]

end ReadThrough.Fields
