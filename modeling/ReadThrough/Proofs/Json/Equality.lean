import Mathlib.Data.List.Forall2
import Mathlib.Tactic.Common
import ReadThrough.Proofs.Json.Reading
import ReadThrough.Proofs.Value.Equivalent
import ReadThrough.Value.Json

/-!
Equality of JSON values.

* `ind`: induction on JSON values.
* `equals_refl`: every value is equal to itself, since a JSON number is never a NaN.
* `equivalent_of_equals`: equal JSON values are equivalent as values.
* `reads_parseNested`: the reader that finds the nearest doubles does what is asked of a reader.
-/

namespace ReadThrough.Json

open ReadThrough.Value (Equivalent ofNumber ofJson ofJsonItems ofJsonMembers equivalent_list_iff
  equivalent_map_iff)

/-- The induction principle of JSON values: arrays and objects inherit from their items and
members. -/
@[elab_as_elim]
theorem ind {P : Json → Prop} (null : P .null) (bool : ∀ b, P (.bool b))
    (number : ∀ n, P (.number n)) (text : ∀ s, P (.text s))
    (array : ∀ items : List Json, (∀ j ∈ items, P j) → P (.array items))
    (object : ∀ members : List (String × Json), (∀ pair ∈ members, P pair.2) → P (.object members))
    (j : Json) : P j :=
  @Json.rec P (fun items => ∀ j ∈ items, P j)
    (fun members => ∀ pair ∈ members, P pair.2) (fun pair => P pair.2)
    null bool number text array object
    (fun _ mem => absurd mem List.not_mem_nil)
    (fun _ _ head tail _ mem => (List.mem_cons.mp mem).elim (fun same => same ▸ head) (tail _))
    (fun _ mem => absurd mem List.not_mem_nil)
    (fun _ _ head tail _ mem => (List.mem_cons.mp mem).elim (fun same => same ▸ head) (tail _))
    (fun _ _ value => value)
    j

/-! ### Item by item and member by member -/

lemma ofJsonItems_eq (items : List Json) : ofJsonItems items = items.map ofJson := by
  induction items with
  | nil => rfl
  | cons j rest ih => rw [ofJsonItems, ih, List.map_cons]

lemma ofJsonMembers_eq (members : List (String × Json)) :
    ofJsonMembers members = members.map fun pair => (pair.1, ofJson pair.2) := by
  induction members with
  | nil => rfl
  | cons pair rest ih => rw [ofJsonMembers, ih, List.map_cons]

lemma arrangeItems_eq (items : List Json) : arrangeItems items = items.map arrange := by
  induction items with
  | nil => rfl
  | cons j rest ih => rw [arrangeItems, ih, List.map_cons]

lemma arrangeMembers_eq (members : List (String × Json)) :
    arrangeMembers members = members.map fun pair => (pair.1, arrange pair.2) := by
  induction members with
  | nil => rfl
  | cons pair rest ih => rw [arrangeMembers, ih, List.map_cons]

/-! ### Equality and itself -/

lemma Number.agrees_refl (n : Number) : n.agrees n = true := by
  cases n with
  | natural n => exact beq_self_eq_true n
  | negative n below => exact beq_self_eq_true n
  | real x finite =>
      have number : x.isNaN = false := by
        simp only [Binary64.isFinite, decide_eq_true_eq] at finite
        simp only [Binary64.isNaN, decide_eq_false_iff_not]
        omega
      simp [agrees, Binary64.sameNumber, number]

lemma agrees_refl (j : Json) : j.agrees j = true := by
  induction j using ind with
  | null => rfl
  | bool b => exact beq_self_eq_true b
  | number n => exact n.agrees_refl
  | text s => exact beq_self_eq_true s
  | array items ih =>
      rw [agrees]
      induction items with
      | nil => rfl
      | cons j items tail =>
          rw [agreesItems, ih j List.mem_cons_self,
            tail fun k mem => ih k (List.mem_cons_of_mem _ mem), Bool.and_self]
  | object members ih =>
      rw [agrees]
      induction members with
      | nil => rfl
      | cons pair members tail =>
          rw [agreesMembers, ih pair List.mem_cons_self,
            tail fun other mem => ih other (List.mem_cons_of_mem _ mem), beq_self_eq_true,
            Bool.and_self, Bool.and_self]

theorem equals_refl (j : Json) : j.equals j = true :=
  agrees_refl j.arrange

/-! ### Equal values are equivalent -/

/-- Equal numbers have one text. -/
lemma Number.numberText?_eq {m n : Number} (h : m.agrees n = true) :
    (ofNumber m).numberText? = (ofNumber n).numberText? := by
  cases m <;> cases n <;> simp only [agrees, Bool.false_eq_true, beq_iff_eq] at h
  · rw [h]
  · subst h
    rfl
  · exact congrArg some (Binary64.text_eq_of_sameNumber h)

lemma exists_numberText? (n : Number) : ∃ digits, (ofNumber n).numberText? = some digits := by
  cases n with
  | natural n =>
      rw [ofNumber, Value.ofUInt64]
      split <;> exact ⟨_, rfl⟩
  | negative n below => exact ⟨_, rfl⟩
  | real x finite => exact ⟨_, rfl⟩

lemma forall₂_of_agreesItems {as bs : List Json}
    (ih : ∀ j ∈ as, ∀ k, agrees j k = true → Equivalent (ofJson j) (ofJson k))
    (h : agreesItems as bs = true) :
    List.Forall₂ (fun j k => Equivalent (ofJson j) (ofJson k)) as bs := by
  induction as generalizing bs with
  | nil =>
      cases bs with
      | nil => exact .nil
      | cons k bs => simp [agreesItems] at h
  | cons j as tail =>
      cases bs with
      | nil => simp [agreesItems] at h
      | cons k bs =>
          rw [agreesItems, Bool.and_eq_true] at h
          have head := ih j List.mem_cons_self k h.1
          exact .cons head (tail (fun i mem => ih i (List.mem_cons_of_mem _ mem)) h.2)

lemma forall₂_of_agreesMembers {as bs : List (String × Json)}
    (ih : ∀ pair ∈ as, ∀ k, agrees pair.2 k = true → Equivalent (ofJson pair.2) (ofJson k))
    (h : agreesMembers as bs = true) :
    List.Forall₂ (Fields.PairAlike fun j k => Equivalent (ofJson j) (ofJson k)) as bs := by
  induction as generalizing bs with
  | nil =>
      cases bs with
      | nil => exact .nil
      | cons q bs => simp [agreesMembers] at h
  | cons p as tail =>
      cases bs with
      | nil => simp [agreesMembers] at h
      | cons q bs =>
          obtain ⟨name, j⟩ := p
          obtain ⟨other, k⟩ := q
          simp only [agreesMembers, Bool.and_eq_true, beq_iff_eq] at h
          have value := ih (name, j) List.mem_cons_self k h.2.1
          exact .cons ⟨h.1, value⟩ (tail (fun p mem => ih p (List.mem_cons_of_mem _ mem)) h.2.2)

/-- JSON values that agree member by member are equivalent as values. -/
lemma equivalent_of_agrees {j k : Json} (h : agrees j k = true) :
    Equivalent (ofJson j) (ofJson k) := by
  induction j using ind generalizing k with
  | null => cases k <;> simp [agrees] at h; exact .null
  | bool b =>
      cases k <;> simp [agrees] at h
      subst h
      exact .bool b
  | number n =>
      cases k <;> simp only [agrees, Bool.false_eq_true] at h
      obtain ⟨digits, text⟩ := exists_numberText? n
      exact .number text ((Number.numberText?_eq h).symm.trans text)
  | text s =>
      cases k <;> simp [agrees] at h
      subst h
      exact .text s
  | array items ih =>
      cases k <;> simp only [agrees, Bool.false_eq_true] at h
      rw [ofJson, ofJson, ofJsonItems_eq, ofJsonItems_eq, equivalent_list_iff,
        List.forall₂_map_left_iff, List.forall₂_map_right_iff]
      exact forall₂_of_agreesItems (fun j mem k => ih j mem) h
  | object members ih =>
      cases k <;> simp only [agrees, Bool.false_eq_true] at h
      rw [ofJson, ofJson, ofJsonMembers_eq, ofJsonMembers_eq, equivalent_map_iff]
      refine Fields.alike_of_forall₂ ?_
      rw [List.forall₂_map_left_iff, List.forall₂_map_right_iff]
      exact forall₂_of_agreesMembers (fun pair mem k => ih pair mem) h

/-- A JSON value is equivalent to itself with its members put in order. -/
lemma equivalent_arrange (j : Json) : Equivalent (ofJson j) (ofJson j.arrange) := by
  induction j using ind with
  | array items ih =>
      rw [arrange, arrangeItems_eq, ofJson, ofJson, ofJsonItems_eq, ofJsonItems_eq,
        equivalent_list_iff, List.forall₂_map_left_iff, List.forall₂_map_right_iff,
        List.forall₂_map_right_iff, List.forall₂_same]
      exact ih
  | object members ih =>
      rw [arrange, arrangeMembers_eq, ofJson, ofJson, ofJsonMembers_eq, ofJsonMembers_eq,
        equivalent_map_iff]
      intro name
      rw [Fields.lookup_map, Fields.lookup_map, Fields.lookup_inOrder, Fields.lookup_map,
        Option.map_map]
      cases found : Fields.lookup name members with
      | none => exact .none
      | some j => exact .some (ih (name, j) (Fields.mem_of_lookup found))
  | _ => exact .refl _

/-- Equal JSON values are equivalent as values. -/
theorem equivalent_of_equals {j k : Json} (h : j.equals k = true) :
    Equivalent (ofJson j) (ofJson k) := by
  have arranged : Equivalent (ofJson j.arrange) (ofJson k.arrange) := equivalent_of_agrees h
  exact (equivalent_arrange j).trans (arranged.trans (equivalent_arrange k).symm)

/-! ### Readers -/

/-- The reader that finds the nearest doubles does what is asked of a reader. -/
theorem reads_parseNested (depth : Nat) : Reads (parseNested .nearest depth) depth :=
  fun _ j text shallow => ⟨j, parseNested_eq text shallow, equals_refl j⟩

end ReadThrough.Json
