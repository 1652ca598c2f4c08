import Mathlib.Data.List.Forall2
import Mathlib.Tactic.Common
import ReadThrough.Fields

/-!
Two lists side by side, and two lists of fields.

* `forall₂_iff_getElem?`: lists that are related item by item, in terms of places.
* `Alike`: every name stands for related values in both, or for nothing in both.
* `alike_of_forall₂`: fields that are related pair by pair are alike.
* `Ordered.forall₂`: ordered fields that are alike are related pair by pair, so that the order in
  which fields were given is lost once they are put in order.
-/

namespace ReadThrough

variable {α β : Type}

/-- Lists are related item by item if they are of one length and related at each place. -/
lemma forall₂_iff_getElem? {R : α → β → Prop} {as : List α} {bs : List β} :
    List.Forall₂ R as bs ↔ as.length = bs.length ∧
      ∀ (i : Nat) (a : α) (b : β), as[i]? = some a → bs[i]? = some b → R a b := by
  rw [List.forall₂_iff_get]
  refine and_congr_right fun _ => ⟨fun related i a b ha hb => ?_, fun related i ha hb => ?_⟩
  · obtain ⟨ia, rfl⟩ := List.getElem?_eq_some_iff.mp ha
    obtain ⟨ib, rfl⟩ := List.getElem?_eq_some_iff.mp hb
    exact related i ia ib
  · exact related i _ _ (List.getElem?_eq_getElem ha) (List.getElem?_eq_getElem hb)

/-- What each item is related to can be collected. -/
lemma exists_forall₂ {R : α → β → Prop} {as : List α} (h : ∀ a ∈ as, ∃ b, R a b) :
    ∃ bs, List.Forall₂ R as bs := by
  induction as with
  | nil => exact ⟨[], .nil⟩
  | cons a as ih =>
      obtain ⟨b, head⟩ := h a List.mem_cons_self
      obtain ⟨bs, tail⟩ := ih fun other mem => h other (List.mem_cons_of_mem _ mem)
      exact ⟨b :: bs, .cons head tail⟩

namespace Fields

lemma mem_of_lookup {name : String} {value : α} {fields : List (String × α)}
    (found : lookup name fields = some value) : (name, value) ∈ fields := by
  induction fields with
  | nil => simp [lookup] at found
  | cons pair rest ih =>
      rw [lookup_cons, Option.or_eq_some_iff] at found
      rcases found with found | ⟨-, found⟩
      · exact List.mem_cons_of_mem _ (ih found)
      · obtain ⟨rfl, same⟩ := Option.ite_none_right_eq_some.mp found
        rw [← Option.some.inj same]
        exact List.mem_cons_self

/-- What a name stands for once the value of each field is mapped. -/
lemma lookup_map (f : α → β) (name : String) (fields : List (String × α)) :
    lookup name (fields.map fun pair => (pair.1, f pair.2)) = (lookup name fields).map f := by
  induction fields with
  | nil => rfl
  | cons pair rest ih =>
      rw [List.map_cons, lookup_cons, lookup_cons, ih]
      cases lookup name rest with
      | some later => rfl
      | none => by_cases same : pair.1 = name <;> simp [same]

/-- In both lists of fields a name stands for related values, or for nothing. -/
def Alike (R : α → β → Prop) (as : List (String × α)) (bs : List (String × β)) : Prop :=
  ∀ name, Option.Rel R (lookup name as) (lookup name bs)

/-- Two pairs with one name and related values. -/
def PairAlike (R : α → β → Prop) (p : String × α) (q : String × β) : Prop :=
  p.1 = q.1 ∧ R p.2 q.2

variable {R : α → β → Prop} {as : List (String × α)} {bs : List (String × β)}

lemma isSome_eq_of_rel {x : Option α} {y : Option β} (h : Option.Rel R x y) :
    x.isSome = y.isSome := by
  cases h <;> rfl

lemma rel_or {x x' : Option α} {y y' : Option β} (h : Option.Rel R x y)
    (h' : Option.Rel R x' y') : Option.Rel R (x.or x') (y.or y') := by
  cases h with
  | none => exact h'
  | some related => exact .some related

lemma rel_map {f : α → β} {S : β → β → Prop} {x y : Option α}
    (h : Option.Rel (fun a b => S (f a) (f b)) x y) : Option.Rel S (x.map f) (y.map f) := by
  cases h with
  | none => exact .none
  | some related => exact .some related

/-- Alike fields, in terms of the names they have and of the values under each. -/
lemma alike_iff :
    Alike R as bs ↔ (∀ name, (lookup name as).isSome = (lookup name bs).isSome) ∧
      ∀ name a b, lookup name as = some a → lookup name bs = some b → R a b := by
  constructor
  · intro alike
    refine ⟨fun name => isSome_eq_of_rel (alike name), fun name a b ha hb => ?_⟩
    have related := alike name
    rw [ha, hb] at related
    cases related with
    | some related => exact related
  · rintro ⟨names, values⟩ name
    have same := names name
    cases ha : lookup name as with
    | none =>
        cases hb : lookup name bs with
        | none => exact .none
        | some b => simp [ha, hb] at same
    | some a =>
        cases hb : lookup name bs with
        | none => simp [ha, hb] at same
        | some b => exact .some (values name a b ha hb)

/-- Fields that are related pair by pair are alike. -/
lemma alike_of_forall₂ (h : List.Forall₂ (PairAlike R) as bs) : Alike R as bs := by
  intro name
  induction h with
  | nil => exact .none
  | @cons p q as bs pair _ ih =>
      obtain ⟨same, related⟩ := pair
      rw [lookup_cons, lookup_cons, same]
      refine rel_or ih ?_
      by_cases hit : q.1 = name
      · rw [if_pos hit, if_pos hit]
        exact .some related
      · rw [if_neg hit, if_neg hit]
        exact .none

/-- Alike fields stay so under a weaker relation on the values that are given. -/
lemma Alike.imp {S : α → β → Prop} (alike : Alike R as bs)
    (weaker : ∀ pair ∈ as, ∀ b, R pair.2 b → S pair.2 b) : Alike S as bs := by
  obtain ⟨names, values⟩ := alike_iff.mp alike
  refine alike_iff.mpr ⟨names, fun name a b ha hb => ?_⟩
  exact weaker (name, a) (mem_of_lookup ha) b (values name a b ha hb)

lemma rel_map_left_iff {γ : Type} {f : γ → α} {x : Option γ} {y : Option β} :
    Option.Rel R (x.map f) y ↔ Option.Rel (fun c b => R (f c) b) x y := by
  cases x <;> cases y <;> simp

lemma alike_map_right_iff {γ : Type} {f : γ → β} {cs : List (String × γ)} :
    Alike R as (cs.map fun pair => (pair.1, f pair.2)) ↔
      Alike (fun a c => R a (f c)) as cs := by
  refine forall_congr' fun name => ?_
  rw [lookup_map]
  cases lookup name as <;> cases lookup name cs <;> simp

/-! ### Ordered fields -/

/-- The first of ordered fields stands for its own value. -/
lemma Ordered.lookup_head {p : String × α} {rest : List (String × α)}
    (h : Ordered (p :: rest)) : lookup p.1 (p :: rest) = some p.2 := by
  rw [lookup_cons, h.lookup_rest, if_pos rfl, Option.none_or]

/-- What the names stand for without the first of ordered fields. -/
lemma Ordered.lookup_tail {p : String × α} {rest : List (String × α)} (h : Ordered (p :: rest))
    (name : String) :
    lookup name rest = if p.1 = name then none else lookup name (p :: rest) := by
  split
  · rename_i same
    rw [← same, h.lookup_rest]
  · rename_i different
    rw [lookup_cons, if_neg different, Option.or_none]

/-- A name that comes before the first of ordered fields stands for nothing. -/
lemma Ordered.lookup_before {p : String × α} {rest : List (String × α)} (h : Ordered (p :: rest))
    {name : String} (first : Utf8.before name p.1 = true) : lookup name (p :: rest) = none := by
  refine lookup_eq_none_of_before fun pair mem => ?_
  rcases List.mem_cons.mp mem with rfl | mem
  · exact first
  · exact Utf8.before_trans first ((List.pairwise_cons.mp h).1 pair mem)

/-- Ordered fields that are alike have the same first name. -/
lemma Alike.head_eq {p : String × α} {q : String × β} (alike : Alike R (p :: as) (q :: bs))
    (hp : Ordered (p :: as)) (hq : Ordered (q :: bs)) : p.1 = q.1 := by
  rcases Utf8.before_or p.1 q.1 with first | same | first
  · have related := alike p.1
    rw [hp.lookup_head, hq.lookup_before first] at related
    cases related
  · exact same
  · have related := alike q.1
    rw [hq.lookup_head, hp.lookup_before first] at related
    cases related

/-- Ordered fields that are alike stay alike without the first of each. -/
lemma Alike.tail {p : String × α} {q : String × β} (alike : Alike R (p :: as) (q :: bs))
    (hp : Ordered (p :: as)) (hq : Ordered (q :: bs)) : Alike R as bs := by
  intro name
  rw [hp.lookup_tail, hq.lookup_tail, alike.head_eq hp hq]
  split
  · exact .none
  · exact alike name

/-- Ordered fields that are alike are related pair by pair. -/
theorem Ordered.forall₂ (ha : Ordered as) (hb : Ordered bs) (alike : Alike R as bs) :
    List.Forall₂ (PairAlike R) as bs := by
  induction as generalizing bs with
  | nil =>
      cases bs with
      | nil => exact .nil
      | cons q bs =>
          have related := alike q.1
          rw [hb.lookup_head] at related
          cases related
  | cons p as ih =>
      cases bs with
      | nil =>
          have related := alike p.1
          rw [ha.lookup_head] at related
          cases related
      | cons q bs =>
          have same := alike.head_eq ha hb
          have value : R p.2 q.2 := by
            refine (alike_iff.mp alike).2 p.1 p.2 q.2 ha.lookup_head ?_
            rw [same, hb.lookup_head]
          have tails := ih (List.pairwise_cons.mp ha).2 (List.pairwise_cons.mp hb).2
            (alike.tail ha hb)
          exact .cons ⟨same, value⟩ tails

end Fields

end ReadThrough
