import Mathlib.Logic.Relation
import Mathlib.Tactic.Common
import ReadThrough.Context.Forest

/-!
What becomes of the tokens of a forest when tokens are added and cancelled.

* `parentOf?`, `Rising`: the token that one descends from, which is always an older one.
* `isCancelled_add`: a new token is cancelled if the one above it is, and all others stay as they
  are.
* `isCancelled_cancel_iff`: after the cancellation of a token, those are cancelled that were, the
  token itself, and those whose parent is cancelled now. This speaks of one generation.
* `Told`: the forest is as the names that were cancelled and the branches that were made tell.
  Adding and cancelling keep this (`Told.add`, `Told.cancel`).
* `Told.isCancelled_iff`: a token is cancelled if and only if it, or one that it descends from over
  any number of generations, was cancelled by name.
-/

namespace ReadThrough.Forest

/-! ### Names and parents -/

lemma find?_eq_none_iff {name : Nat} {tokens : List Token} :
    find? name tokens = none ↔ tokens.length ≤ name := by
  rw [find?, List.getElem?_eq_none_iff, List.length_reverse]

lemma lt_of_find?_eq_some {name : Nat} {token : Token} {tokens : List Token}
    (found : find? name tokens = some token) : name < tokens.length := by
  by_contra absent
  rw [find?_eq_none_iff.mpr (by omega)] at found
  cases found

/-- An older token is found with or without the newest one. -/
lemma find?_cons_of_lt {name : Nat} {token : Token} {older : List Token}
    (lt : name < older.length) : find? name (token :: older) = find? name older := by
  rw [find?_cons, if_neg (by omega)]

/-- The name of the token that a token descends from. -/
def parentOf? (f : Forest) (name : Nat) : Option Nat :=
  (find? name f.tokens).bind Token.parent

/-- A token descends only from an older one. -/
def Rising (tokens : List Token) : Prop :=
  ∀ name token parent, find? name tokens = some token → token.parent = some parent →
    parent < name

lemma Rising.tail {token : Token} {older : List Token} (h : Rising (token :: older)) :
    Rising older := by
  intro name other parent found above
  refine h name other parent ?_ above
  rw [find?_cons_of_lt (lt_of_find?_eq_some found), found]

/-! ### A new token -/

lemma parentOf?_add (f : Forest) (parent : Option Nat) (name : Nat) :
    (f.add parent).2.parentOf? name =
      if f.tokens.length = name then parent else f.parentOf? name := by
  rw [parentOf?, add, find?_cons]
  split <;> rfl

/-- A new token is cancelled if the one above it is, and all others stay as they are. -/
lemma isCancelled_add (f : Forest) (parent : Option Nat) (name : Nat) :
    (f.add parent).2.isCancelled name =
      if f.tokens.length = name then parentCancelledIn f.tokens parent
      else f.isCancelled name := by
  rw [isCancelled, cancelledIn, add, find?_cons]
  by_cases newest : f.tokens.length = name
  · rw [if_pos newest, if_pos newest]
  · rw [if_neg newest, if_neg newest, isCancelled, cancelledIn]

lemma isCancelled_add_of_lt {f : Forest} {parent : Option Nat} {name : Nat}
    (lt : name < f.tokens.length) : (f.add parent).2.isCancelled name = f.isCancelled name := by
  rw [isCancelled_add, if_neg (by omega)]

/-- Only the name of a token is cancelled. -/
lemma lt_of_isCancelled {f : Forest} {name : Nat} (cancelled : f.isCancelled name = true) :
    name < f.tokens.length := by
  rw [isCancelled, cancelledIn] at cancelled
  cases found : find? name f.tokens with
  | none => simp [found] at cancelled
  | some token => exact lt_of_find?_eq_some found

/-! ### A cancellation -/

lemma length_cancelIn (root : Nat) (tokens : List Token) :
    (cancelIn root tokens).length = tokens.length := by
  induction tokens with
  | nil => rfl
  | cons token older ih => rw [cancelIn, List.length_cons, List.length_cons, ih]

/-- Each token after a cancellation, in terms of the token before and of the one above it after. -/
lemma find?_cancelIn {tokens : List Token} (rising : Rising tokens) (root name : Nat) :
    find? name (cancelIn root tokens) = (find? name tokens).map fun token =>
      { token with
        isCancelled := token.isCancelled ||
          (name == root || parentCancelledIn (cancelIn root tokens) token.parent) } := by
  induction tokens generalizing name with
  | nil => rfl
  | cons token older ih =>
      -- what is above an older token, or above the newest, is found without the newest
      have above : ∀ (other : Token) (newest : Token), (∀ parent, other.parent = some parent →
          parent < older.length) → parentCancelledIn (newest :: cancelIn root older) other.parent =
            parentCancelledIn (cancelIn root older) other.parent := by
        intro other newest small
        cases parent : other.parent with
        | none => rfl
        | some p =>
            have lt : p < (cancelIn root older).length := by
              rw [length_cancelIn]
              exact small p parent
            rw [parentCancelledIn, parentCancelledIn, cancelledIn, cancelledIn, find?_cons_of_lt lt]
      rw [cancelIn, find?_cons, find?_cons, length_cancelIn]
      by_cases newest : older.length = name
      · subst newest
        have found : find? older.length (token :: older) = some token := by
          rw [find?_cons, if_pos rfl]
        rw [if_pos rfl, if_pos rfl, Option.map_some,
          above token _ fun parent h => rising _ token parent found h]
      · rw [if_neg newest, if_neg newest, ih rising.tail]
        cases found : find? name older with
        | none => rfl
        | some other =>
            have lt := lt_of_find?_eq_some found
            have small : ∀ parent, other.parent = some parent → parent < older.length :=
              fun parent h => Nat.lt_trans (rising.tail name other parent found h) lt
            rw [Option.map_some, Option.map_some, above other _ small]

lemma parentOf?_cancel {f : Forest} (rising : Rising f.tokens) (root name : Nat) :
    (f.cancel root).parentOf? name = f.parentOf? name := by
  rw [parentOf?, cancel, find?_cancelIn rising, parentOf?]
  cases find? name f.tokens <;> rfl

/-- After the cancellation of a token those are cancelled that were, the token itself, and those
whose parent is cancelled now. -/
theorem isCancelled_cancel_iff {f : Forest} (rising : Rising f.tokens) (root : Nat) {name : Nat}
    (lt : name < f.tokens.length) :
    (f.cancel root).isCancelled name = true ↔ f.isCancelled name = true ∨ name = root ∨
      ∃ parent, f.parentOf? name = some parent ∧ (f.cancel root).isCancelled parent = true := by
  obtain ⟨token, found⟩ : ∃ token, find? name f.tokens = some token := by
    cases found : find? name f.tokens with
    | none => exact absurd (find?_eq_none_iff.mp found) (by omega)
    | some token => exact ⟨token, rfl⟩
  have before : f.isCancelled name = token.isCancelled := by
    rw [isCancelled, cancelledIn, found]
  have after : (f.cancel root).isCancelled name = (token.isCancelled ||
      (name == root || parentCancelledIn (f.cancel root).tokens token.parent)) := by
    rw [isCancelled, cancelledIn, cancel, find?_cancelIn rising, found]
    rfl
  have parent : f.parentOf? name = token.parent := by
    rw [parentOf?, found]
    rfl
  rw [before, after, parent, Bool.or_eq_true, Bool.or_eq_true, beq_iff_eq]
  cases token.parent with
  | none => simp [parentCancelledIn]
  | some p => simp [parentCancelledIn, isCancelled]

/-! ### All generations -/

/-- Whether a token is another one or descends from it. -/
def Under (branches : List (Nat × Nat)) : Nat → Nat → Prop :=
  Relation.ReflTransGen fun parent child => (parent, child) ∈ branches

/-- The forest is as the names that were cancelled and the branches that were made, each from the
older token to the newer, tell. Of the cancelled tokens each is told by its own name or by the one
above it, so that the invariant speaks of one generation only. -/
structure Told (f : Forest) (cancelled : List Nat) (branches : List (Nat × Nat)) : Prop where
  known : ∀ name ∈ cancelled, name < f.tokens.length
  rising : ∀ parent name, (parent, name) ∈ branches → parent < name
  parents : ∀ parent name, f.parentOf? name = some parent ↔ (parent, name) ∈ branches
  settled : ∀ name, name < f.tokens.length → (f.isCancelled name = true ↔
    name ∈ cancelled ∨ ∃ parent, (parent, name) ∈ branches ∧ f.isCancelled parent = true)

lemma told_empty : Told empty [] [] := by
  refine ⟨by simp, by simp, fun parent name => ?_, fun name lt => absurd lt (by simp [empty])⟩
  simp [parentOf?, empty, find?_nil]

namespace Told

variable {f : Forest} {cancelled : List Nat} {branches : List (Nat × Nat)}

lemma lt_of_branch (h : Told f cancelled branches) {parent name : Nat}
    (branch : (parent, name) ∈ branches) : name < f.tokens.length := by
  have above := (h.parents parent name).mpr branch
  cases found : find? name f.tokens with
  | none => simp [parentOf?, found] at above
  | some token => exact lt_of_find?_eq_some found

/-- The token that comes next is under no other. -/
lemma next_not_branch (h : Told f cancelled branches) (parent : Nat) :
    (parent, f.tokens.length) ∉ branches :=
  fun branch => Nat.lt_irrefl _ (h.lt_of_branch branch)

lemma next_not_known (h : Told f cancelled branches) : f.tokens.length ∉ cancelled :=
  fun told => Nat.lt_irrefl _ (h.known _ told)

lemma rising_tokens (h : Told f cancelled branches) : Rising f.tokens := by
  intro name token parent found above
  refine h.rising parent name ((h.parents parent name).mp ?_)
  rw [parentOf?, found, Option.bind_some, above]

/-- A new token, under one that is there or by itself. -/
lemma add (h : Told f cancelled branches) {parent : Option Nat}
    (there : ∀ p, parent = some p → p < f.tokens.length) :
    Told (f.add parent).2 cancelled
      (parent.toList.map (fun p => (p, f.tokens.length)) ++ branches) := by
  have longer : (f.add parent).2.tokens.length = f.tokens.length + 1 := rfl
  have mem : ∀ p name, (p, name) ∈ parent.toList.map (fun p => (p, f.tokens.length)) ++ branches ↔
      (parent = some p ∧ f.tokens.length = name) ∨ (p, name) ∈ branches := by
    intro p name
    rw [List.mem_append]
    cases parent <;> simp [eq_comm]
  refine ⟨fun name told => ?_, fun p name branch => ?_, fun p name => ?_, fun name lt => ?_⟩
  · have := h.known name told
    omega
  · rcases (mem p name).mp branch with ⟨above, rfl⟩ | branch
    · exact there p above
    · exact h.rising p name branch
  · rw [mem, parentOf?_add]
    by_cases newest : f.tokens.length = name
    · subst newest
      simp [h.next_not_branch]
    · rw [if_neg newest, h.parents]
      simp [newest]
  · rw [isCancelled_add]
    by_cases newest : f.tokens.length = name
    · subst newest
      simp only [mem, h.next_not_known, h.next_not_branch, if_true, and_true, or_false, false_or]
      cases parent with
      | none => simp [parentCancelledIn]
      | some p =>
          have older := there p rfl
          have above : parentCancelledIn f.tokens (some p) = f.isCancelled p := rfl
          simp [above, isCancelled_add_of_lt older]
    · have older : name < f.tokens.length := by omega
      rw [if_neg newest, h.settled name older]
      simp only [mem, newest, and_false, false_or]
      refine or_congr_right (exists_congr fun p => and_congr_right fun branch => ?_)
      have lt : p < f.tokens.length := Nat.lt_trans (h.rising p name branch) older
      rw [isCancelled_add_of_lt lt]

/-- The cancellation of a token that is there. -/
lemma cancel (h : Told f cancelled branches) {root : Nat} (there : root < f.tokens.length) :
    Told (f.cancel root) (root :: cancelled) branches := by
  have same : (f.cancel root).tokens.length = f.tokens.length := length_cancelIn root f.tokens
  refine ⟨fun name told => ?_, h.rising, fun p name => ?_, fun name lt => ?_⟩
  · rw [same]
    rcases List.mem_cons.mp told with rfl | told
    · exact there
    · exact h.known name told
  · rw [parentOf?_cancel h.rising_tokens, h.parents]
  · rw [same] at lt
    have kept : ∀ p, p < f.tokens.length → f.isCancelled p = true →
        (f.cancel root).isCancelled p = true :=
      fun p lt before => (isCancelled_cancel_iff h.rising_tokens root lt).mpr (.inl before)
    rw [isCancelled_cancel_iff h.rising_tokens root lt, h.settled name lt, List.mem_cons]
    constructor
    · rintro ((told | ⟨p, branch, before⟩) | rfl | ⟨p, above, after⟩)
      · exact .inl (.inr told)
      · exact .inr ⟨p, branch, kept p (Nat.lt_trans (h.rising p name branch) lt) before⟩
      · exact .inl (.inl rfl)
      · exact .inr ⟨p, (h.parents p name).mp above, after⟩
    · rintro ((rfl | told) | ⟨p, branch, after⟩)
      · exact .inr (.inl rfl)
      · exact .inl (.inl told)
      · exact .inr (.inr ⟨p, (h.parents p name).mpr branch, after⟩)

/-- A token is cancelled if and only if it, or one that it descends from, was cancelled by name. -/
theorem isCancelled_iff (h : Told f cancelled branches) (name : Nat) :
    f.isCancelled name = true ↔ ∃ root ∈ cancelled, Under branches root name := by
  -- parents are older, so the generations above a token come to an end
  induction name using Nat.strongRecOn with
  | ind name ih =>
    constructor
    · intro isCancelled
      rcases (h.settled name (lt_of_isCancelled isCancelled)).mp isCancelled with
        told | ⟨p, branch, above⟩
      · exact ⟨name, told, .refl⟩
      · obtain ⟨root, told, under⟩ := (ih p (h.rising p name branch)).mp above
        exact ⟨root, told, under.tail branch⟩
    · rintro ⟨root, told, under⟩
      rcases under.cases_tail with rfl | ⟨p, under, branch⟩
      · exact (h.settled name (h.known name told)).mpr (.inl told)
      · have above := (ih p (h.rising p name branch)).mpr ⟨root, told, under⟩
        exact (h.settled name (h.lt_of_branch branch)).mpr (.inr ⟨p, branch, above⟩)

end Told

end ReadThrough.Forest
