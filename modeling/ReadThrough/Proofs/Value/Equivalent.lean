import Mathlib.Data.List.Forall2
import Mathlib.Tactic.Common
import ReadThrough.Proofs.Fields
import ReadThrough.Proofs.Number.Numeral
import ReadThrough.Value.Basic

/-!
Values that mean the same.

* `Equivalent`: the same null, truth value or text, numbers of any kind with one text, lists with
  equivalent items, and mappings with the same names and equivalent values under each.
* `Equivalent.refl`, `Equivalent.symm`, `Equivalent.trans`: it is an equivalence relation.
* `equivalent_arrange`: a value is equivalent to itself with its fields put in order.
* `equivalent_of_equals`: values that are equal are equivalent. The converse fails, since one number
  may be of another kind than the other, and a NaN equals nothing.
-/

namespace ReadThrough.Value

/-- The canonical text of a number, whatever its kind. -/
def numberText? : Value → Option (List Char)
  | .int n => some (intText n.toInt)
  | .uint n => some (natText n.toNat)
  | .float x => some x.text
  | _ => none

/-- Values that mean the same. -/
inductive Equivalent : Value → Value → Prop where
  | null : Equivalent .null .null
  | bool (b : Bool) : Equivalent (.bool b) (.bool b)
  | number {v w : Value} {digits : List Char} :
    v.numberText? = some digits → w.numberText? = some digits → Equivalent v w
  | text (s : String) : Equivalent (.text s) (.text s)
  | list {as bs : List Value} :
    as.length = bs.length →
    (∀ (i : Nat) (a b : Value), as[i]? = some a → bs[i]? = some b → Equivalent a b) →
    Equivalent (.list as) (.list bs)
  | map {as bs : List (String × Value)} :
    (∀ name, (Fields.lookup name as).isSome = (Fields.lookup name bs).isSome) →
    (∀ name a b, Fields.lookup name as = some a → Fields.lookup name bs = some b →
      Equivalent a b) →
    Equivalent (.map as) (.map bs)

/-! ### Induction on values -/

/-- The induction principle of values: numbers are one case, and lists and mappings inherit from
their items and fields. -/
@[elab_as_elim]
theorem ind {P : Value → Prop} (null : P .null) (bool : ∀ b, P (.bool b))
    (number : ∀ v digits, v.numberText? = some digits → P v) (text : ∀ s, P (.text s))
    (list : ∀ items : List Value, (∀ v ∈ items, P v) → P (.list items))
    (map : ∀ fields : List (String × Value), (∀ pair ∈ fields, P pair.2) → P (.map fields))
    (v : Value) : P v :=
  @Value.rec P (fun items => ∀ v ∈ items, P v)
    (fun fields => ∀ pair ∈ fields, P pair.2) (fun pair => P pair.2)
    null bool (fun _ => number _ _ rfl) (fun _ => number _ _ rfl) (fun _ => number _ _ rfl) text
    list map
    (fun _ mem => absurd mem List.not_mem_nil)
    (fun _ _ head tail _ mem => (List.mem_cons.mp mem).elim (fun same => same ▸ head) (tail _))
    (fun _ mem => absurd mem List.not_mem_nil)
    (fun _ _ head tail _ mem => (List.mem_cons.mp mem).elim (fun same => same ▸ head) (tail _))
    (fun _ _ value => value)
    v

/-! ### Lists and mappings -/

lemma equivalent_list_iff {as bs : List Value} :
    Equivalent (.list as) (.list bs) ↔ List.Forall₂ Equivalent as bs := by
  rw [forall₂_iff_getElem?]
  constructor
  · intro h
    cases h with
    | number h => simp [numberText?] at h
    | list length items => exact ⟨length, items⟩
  · rintro ⟨length, items⟩
    exact .list length items

lemma equivalent_map_iff {as bs : List (String × Value)} :
    Equivalent (.map as) (.map bs) ↔ Fields.Alike Equivalent as bs := by
  rw [Fields.alike_iff]
  constructor
  · intro h
    cases h with
    | number h => simp [numberText?] at h
    | map names values => exact ⟨names, values⟩
  · rintro ⟨names, values⟩
    exact .map names values

/-! ### An equivalence relation -/

namespace Equivalent

theorem refl (v : Value) : Equivalent v v := by
  induction v using ind with
  | null => exact .null
  | bool b => exact .bool b
  | number v digits h => exact .number h h
  | text s => exact .text s
  | list items ih =>
      refine .list rfl fun i a b ha hb => ?_
      obtain rfl : a = b := Option.some.inj (ha.symm.trans hb)
      exact ih a (List.mem_of_getElem? ha)
  | map fields ih =>
      refine .map (fun _ => rfl) fun name a b ha hb => ?_
      obtain rfl : a = b := Option.some.inj (ha.symm.trans hb)
      exact ih (name, a) (Fields.mem_of_lookup ha)

theorem symm {v w : Value} (h : Equivalent v w) : Equivalent w v := by
  induction h with
  | null => exact .null
  | bool b => exact .bool b
  | number hv hw => exact .number hw hv
  | text s => exact .text s
  | list length _ ih => exact .list length.symm fun i a b ha hb => ih i b a hb ha
  | map names _ ih =>
      exact .map (fun name => (names name).symm) fun name a b ha hb => ih name b a hb ha

/-- What is equivalent to a number is a number of the same text. -/
lemma numberText?_eq {v w : Value} (h : Equivalent v w) : v.numberText? = w.numberText? := by
  cases h with
  | number hv hw => rw [hv, hw]
  | _ => rfl

theorem trans {u v w : Value} (h : Equivalent u v) (h' : Equivalent v w) : Equivalent u w := by
  induction h generalizing w with
  | null => exact h'
  | bool b => exact h'
  | text s => exact h'
  | number hu hv => exact .number hu (h'.numberText?_eq.symm.trans hv)
  | @list as bs length _ ih =>
      cases h' with
      | number h => simp [numberText?] at h
      | @list _ cs length' items' =>
          refine .list (length.trans length') fun i a c ha hc => ?_
          obtain ⟨ia, -⟩ := List.getElem?_eq_some_iff.mp ha
          have hb : bs[i]? = some (bs[i]) := List.getElem?_eq_getElem (length ▸ ia)
          exact ih i a _ ha hb (items' i _ c hb hc)
  | @map as bs names _ ih =>
      cases h' with
      | number h => simp [numberText?] at h
      | @map _ cs names' values' =>
          refine .map (fun name => (names name).trans (names' name)) fun name a c ha hc => ?_
          obtain ⟨b, hb⟩ := Option.isSome_iff_exists.mp ((names name).symm.trans (by rw [ha]; rfl))
          exact ih name a b ha hb (values' name b c hb hc)

end Equivalent

/-! ### Fields in order -/

lemma arrangeItems_eq (items : List Value) : arrangeItems items = items.map arrange := by
  induction items with
  | nil => rfl
  | cons v rest ih => rw [arrangeItems, ih, List.map_cons]

lemma lookup_arrangeFields (name : String) (fields : List (String × Value)) :
    Fields.lookup name (arrangeFields fields) = (Fields.lookup name fields).map arrange := by
  induction fields with
  | nil => rfl
  | cons pair rest ih =>
      obtain ⟨other, v⟩ := pair
      rw [arrangeFields, Fields.lookup_cons, Fields.lookup_cons, ih]
      cases Fields.lookup name rest with
      | some later => rfl
      | none => by_cases same : other = name <;> simp [same]

/-- The value that counts for a name, once fields are put in order. -/
lemma lookup_arranged (name : String) (fields : List (String × Value)) :
    Fields.lookup name (Fields.inOrder (arrangeFields fields)) =
      (Fields.lookup name fields).map arrange := by
  rw [Fields.lookup_inOrder, lookup_arrangeFields]

lemma arrange_number {v : Value} {digits : List Char} (h : v.numberText? = some digits) :
    v.arrange = v := by
  cases v <;> first | rfl | simp [numberText?] at h

/-- A value is equivalent to itself with its fields put in order. -/
theorem equivalent_arrange (v : Value) : Equivalent v v.arrange := by
  induction v using ind with
  | null => exact .null
  | bool b => exact .bool b
  | number v digits h =>
      rw [arrange_number h]
      exact .number h h
  | text s => exact .text s
  | list items ih =>
      rw [arrange, arrangeItems_eq, equivalent_list_iff, List.forall₂_map_right_iff,
        List.forall₂_same]
      exact ih
  | map fields ih =>
      rw [arrange, equivalent_map_iff]
      intro name
      rw [lookup_arranged]
      cases found : Fields.lookup name fields with
      | none => exact .none
      | some v => exact .some (ih (name, v) (Fields.mem_of_lookup found))

/-! ### Equality -/

/-- Equal numbers have one text; of the zeros, which are equal but differ in sign, both have `0`. -/
lemma numberText?_eq_of_same {v w : Value} (h : same v w = true) :
    v.numberText? = w.numberText? := by
  cases v <;> cases w <;> simp only [same, Bool.false_eq_true, beq_iff_eq] at h <;>
    first
    | rfl
    | rw [h]
    | exact congrArg some (Binary64.text_eq_of_sameNumber h)

lemma forall₂_of_sameItems {as bs : List Value}
    (ih : ∀ v ∈ as, ∀ w, same v w = true → Equivalent v w) (h : sameItems as bs = true) :
    List.Forall₂ Equivalent as bs := by
  induction as generalizing bs with
  | nil =>
      cases bs with
      | nil => exact .nil
      | cons w bs => simp [sameItems] at h
  | cons v as tail =>
      cases bs with
      | nil => simp [sameItems] at h
      | cons w bs =>
          rw [sameItems, Bool.and_eq_true] at h
          have head : Equivalent v w := ih v List.mem_cons_self w h.1
          exact .cons head (tail (fun u mem => ih u (List.mem_cons_of_mem _ mem)) h.2)

lemma forall₂_of_sameFields {as bs : List (String × Value)}
    (ih : ∀ pair ∈ as, ∀ w, same pair.2 w = true → Equivalent pair.2 w)
    (h : sameFields as bs = true) : List.Forall₂ (Fields.PairAlike Equivalent) as bs := by
  induction as generalizing bs with
  | nil =>
      cases bs with
      | nil => exact .nil
      | cons q bs => simp [sameFields] at h
  | cons p as tail =>
      cases bs with
      | nil => simp [sameFields] at h
      | cons q bs =>
          obtain ⟨name, v⟩ := p
          obtain ⟨other, w⟩ := q
          simp only [sameFields, Bool.and_eq_true, beq_iff_eq] at h
          have value : Equivalent v w := ih (name, v) List.mem_cons_self w h.2.1
          exact .cons ⟨h.1, value⟩ (tail (fun u mem => ih u (List.mem_cons_of_mem _ mem)) h.2.2)

/-- Values that are the same field by field are equivalent. -/
lemma equivalent_of_same {v w : Value} (h : same v w = true) : Equivalent v w := by
  induction v using ind generalizing w with
  | null => cases w <;> simp [same] at h; exact .null
  | bool b =>
      cases w <;> simp [same] at h
      subst h
      exact .bool b
  | number v digits number =>
      exact .number number ((numberText?_eq_of_same h).symm.trans number)
  | text s =>
      cases w <;> simp [same] at h
      subst h
      exact .text s
  | list items ih =>
      cases w <;> simp only [same, Bool.false_eq_true] at h
      exact equivalent_list_iff.mpr (forall₂_of_sameItems (fun v mem w => ih v mem) h)
  | map fields ih =>
      cases w <;> simp only [same, Bool.false_eq_true] at h
      refine equivalent_map_iff.mpr (Fields.alike_of_forall₂ ?_)
      exact forall₂_of_sameFields (fun pair mem w => ih pair mem) h

/-- Values that are equal are equivalent. -/
theorem equivalent_of_equals {v w : Value} (h : equals v w = true) : Equivalent v w := by
  have arranged : Equivalent v.arrange w.arrange := equivalent_of_same h
  exact (equivalent_arrange v).trans (arranged.trans (equivalent_arrange w).symm)

end ReadThrough.Value
