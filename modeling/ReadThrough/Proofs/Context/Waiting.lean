import Mathlib.Order.Bounds.Basic
import ReadThrough.Proofs.Context.Chronicle

/-!
Waiting for a context, and asking it again and again.

* `Context.wakesAt?_le_iff`: a wait ends by itself up to an instant just if the context is cancelled
  at that instant, with the tokens as they are by then.
* `Context.isResolved_wait_iff`, `Context.isLeast_wait`, `Context.wait_now_of_unresolved`: whether
  and when a wait ends.
* `Session.meanwhile`: the steps of a session in which nobody waits, while time passes and a planned
  cancellation comes when it is due; `Session.runAll_meanwhile` tells where they lead.
* `Faithful.isCancelled_cancel_iff`: which tokens a cancellation reaches.
* `Session.wait_iff_isCancelled`: a wait for a context ends at the first instant at which the
  context says that it is cancelled, unless its limit comes first, and leaves the session as if
  nobody had waited.
-/

namespace ReadThrough

namespace Context

variable {c : Context} {f : Forest} {now limit : Nat} {planned : Option Cancellation}

/-! ### The instant at which a wait ends -/

lemma isOverdue_iff : c.isOverdue now = true ↔ ∃ d, c.deadline = some d ∧ d ≤ now := by
  rw [isOverdue]
  cases c.deadline <;> simp

lemma earlier?_le_iff {a b : Option Nat} {t : Nat} :
    (∃ s ∈ earlier? a b, s ≤ t) ↔ (∃ s ∈ a, s ≤ t) ∨ ∃ s ∈ b, s ≤ t := by
  cases a <;> cases b <;> simp [earlier?]

/-- The token of a context wakes a wait up to an instant just if it is cancelled by then. Tokens
that are cancelled must stay so. -/
lemma tokenWakesAt?_le_iff
    (kept : ∀ root, f.isCancelled c.token = true → (f.cancel root).isCancelled c.token = true)
    (time : Nat) : (∃ t ∈ c.tokenWakesAt? f now planned, t ≤ now + time) ↔
      (forestAt f now (now + time) planned).isCancelled c.token = true := by
  unfold tokenWakesAt? forestAt
  by_cases before : f.isCancelled c.token = true
  · rw [if_pos before]
    refine iff_of_true ⟨now, rfl, Nat.le_add_right ..⟩ ?_
    cases planned with
    | none => exact before
    | some p =>
        simp only
        split
        · exact kept p.token before
        · exact before
  · rw [if_neg before]
    cases planned with
    | none => simp [before]
    | some p =>
        by_cases reached : (f.cancel p.token).isCancelled c.token = true <;>
          by_cases due : p.delay ≤ time <;> simp [before, reached, due]

/-- A wait ends by itself up to an instant just if the context is cancelled at that instant. -/
lemma wakesAt?_le_iff
    (kept : ∀ root, f.isCancelled c.token = true → (f.cancel root).isCancelled c.token = true)
    (time : Nat) : (∃ t ∈ c.wakesAt? f now planned, t ≤ now + time) ↔
      c.isCancelled (forestAt f now (now + time) planned) (now + time) = true := by
  have overdue : (∃ t ∈ c.deadline.map fun deadline => max now deadline, t ≤ now + time) ↔
      c.isOverdue (now + time) = true := by
    rw [isOverdue_iff]
    cases c.deadline <;> simp
  rw [wakesAt?, earlier?_le_iff, tokenWakesAt?_le_iff kept, overdue, isCancelled, Bool.or_eq_true]

/-- A wait ends within its limit, with the first instant at which it ends by itself if there is one
by then. -/
lemma wait_eq (c : Context) (f : Forest) (now limit : Nat) (planned : Option Cancellation) :
    (∃ t ∈ c.wakesAt? f now planned, t ≤ now + limit ∧
        c.wait f now limit planned = ⟨t, true, forestAt f now t planned⟩) ∨
      (¬∃ t ∈ c.wakesAt? f now planned, t ≤ now + limit) ∧
        c.wait f now limit planned =
          ⟨now + limit, false, forestAt f now (now + limit) planned⟩ := by
  rw [wait]
  cases wake : c.wakesAt? f now planned with
  | none => exact .inr ⟨by simp, rfl⟩
  | some t =>
      by_cases soon : t ≤ now + limit
      · exact .inl ⟨t, rfl, soon, if_pos soon⟩
      · exact .inr ⟨by simpa using soon, if_neg soon⟩

/-- A wait that is not resolved ends at its limit. -/
lemma wait_now_of_unresolved (unresolved : (c.wait f now limit planned).isResolved = false) :
    (c.wait f now limit planned).now = now + limit := by
  rcases c.wait_eq f now limit planned with ⟨t, -, -, eq⟩ | ⟨-, eq⟩
  · simp [eq] at unresolved
  · rw [eq]

section

variable
  (kept : ∀ root, f.isCancelled c.token = true → (f.cancel root).isCancelled c.token = true)

include kept

/-- A wait is resolved just if the context is cancelled at some time up to the limit. -/
lemma isResolved_wait_iff : (c.wait f now limit planned).isResolved = true ↔
    ∃ time ≤ limit, c.isCancelled (forestAt f now (now + time) planned) (now + time) = true := by
  simp only [← wakesAt?_le_iff kept]
  rcases c.wait_eq f now limit planned with ⟨t, wake, soon, eq⟩ | ⟨late, eq⟩
  · exact iff_of_true (by rw [eq]) ⟨limit, Nat.le_refl limit, t, wake, soon⟩
  · refine iff_of_false (by simp [eq]) ?_
    rintro ⟨time, within, t, wake, soon⟩
    exact late ⟨t, wake, Nat.le_trans soon (Nat.add_le_add_left within now)⟩

/-- A wait that is resolved ends at the first time at which the context is cancelled. -/
lemma isLeast_wait (resolved : (c.wait f now limit planned).isResolved = true) :
    IsLeast {time | c.isCancelled (forestAt f now (now + time) planned) (now + time) = true}
      ((c.wait f now limit planned).now - now) := by
  rcases c.wait_eq f now limit planned with ⟨t, wake, -, eq⟩ | ⟨-, eq⟩
  · rw [eq]
    have begun : now ≤ t := now_le_of_wakesAt? wake
    refine ⟨(wakesAt?_le_iff kept _).mp ⟨t, wake, ?_⟩, fun time cancelled => ?_⟩
    · exact Nat.le_of_eq (Nat.add_sub_of_le begun).symm
    · obtain ⟨t', wake', le⟩ := (wakesAt?_le_iff kept time).mpr cancelled
      obtain rfl : t = t' := Option.mem_unique wake wake'
      exact Nat.sub_le_of_le_add (Nat.add_comm now time ▸ le)
  · simp [eq] at resolved

/-- At the end of a wait the context is cancelled just if the wait is resolved. -/
lemma isCancelled_wait : c.isCancelled (c.wait f now limit planned).forest
    (c.wait f now limit planned).now = (c.wait f now limit planned).isResolved := by
  rw [wait_forest]
  cases resolved : (c.wait f now limit planned).isResolved with
  | true =>
      have begun := c.now_le_wait f now limit planned
      have cancelled : c.isCancelled _ _ = true := (isLeast_wait kept resolved).1
      rwa [Nat.add_sub_of_le begun] at cancelled
  | false =>
      rw [wait_now_of_unresolved resolved, Bool.eq_false_iff]
      intro cancelled
      rw [(isResolved_wait_iff kept).mpr ⟨limit, Nat.le_refl limit, cancelled⟩] at resolved
      cases resolved

end

end Context

namespace Session

/-! ### The session in which nobody waits -/

/-- The cancellation of the context at a place, planned for some time ahead. -/
def cancellation (s : Session) (plan : Option (Nat × Nat)) : Option Cancellation :=
  plan.bind fun (place, delay) => (s.contexts[place]?).map fun c => ⟨c.token, delay⟩

/-- A wait that is a step of a session cuts the time of a planned cancellation only if it is very
long. -/
lemma planned_eq_cancellation {s : Session} {plan : Option (Nat × Nat)}
    (soon : ∀ place delay, plan = some (place, delay) → delay ≤ longestPlan) :
    s.planned plan = s.cancellation plan := by
  match plan with
  | none => rfl
  | some (place, delay) => simp [planned, cancellation, Nat.min_eq_left (soon place delay rfl)]

/-- Time passes, and a context is cancelled when its cancellation is due. -/
def meanwhile (plan : Option (Nat × Nat)) (time : Nat) : List Step :=
  match plan with
  | some (place, delay) =>
    if delay ≤ time then [.advance delay, .on place .cancel, .advance (time - delay)]
    else [.advance time]
  | none => [.advance time]

/-- A session in which nobody waits, some time later. -/
lemma runAll_meanwhile (s : Session) (plan : Option (Nat × Nat)) (time : Nat) :
    runAll (meanwhile plan time) s =
      ⟨s.now + time, Context.forestAt s.forest s.now (s.now + time) (s.cancellation plan),
        s.contexts⟩ := by
  match plan with
  | none => rfl
  | some (place, delay) =>
      by_cases due : delay ≤ time
      · have clock : s.now + delay + (time - delay) = s.now + time := by omega
        cases there : s.contexts[place]? <;>
          simp [meanwhile, due, runAll, apply, act, cancellation, there, Context.forestAt, clock]
      · cases there : s.contexts[place]? <;>
          simp [meanwhile, due, runAll, apply, cancellation, there, Context.forestAt]

/-! ### What a cancellation reaches -/

/-- A planned cancellation has come within some time and reaches a token. -/
def Chronicle.Reaches (k : Chronicle) (s : Session) (plan : Option (Nat × Nat))
    (time token : Nat) : Prop :=
  ∃ place delay c, plan = some (place, delay) ∧ s.contexts[place]? = some c ∧ delay ≤ time ∧
    k.Under c.token token

namespace Faithful

variable {k : Chronicle} {s : Session}

/-- A cancelled token stays so, whichever is cancelled. -/
lemma isCancelled_cancel_of_isCancelled (h : Faithful k s) {name : Nat}
    (cancelled : s.forest.isCancelled name = true) (root : Nat) :
    (s.forest.cancel root).isCancelled name = true :=
  (Forest.isCancelled_cancel_iff h.told.rising_tokens root
    (Forest.lt_of_isCancelled cancelled)).mpr (.inl cancelled)

/-- A cancellation reaches the token itself and all that descend from it, and no others. -/
lemma isCancelled_cancel_iff (h : Faithful k s) {root : Nat} (there : root < k.made) (name : Nat) :
    (s.forest.cancel root).isCancelled name = true ↔
      s.forest.isCancelled name = true ∨ k.Under root name := by
  have cancelled := h.cancel there s.now
  rw [cancelled.told.isCancelled_iff, h.told.isCancelled_iff]
  constructor
  · rintro ⟨named, told, under⟩
    rcases List.mem_cons.mp told with rfl | told
    · exact .inr under
    · exact .inl ⟨named, told, under⟩
  · rintro (⟨named, told, under⟩ | under)
    · exact ⟨named, List.mem_cons_of_mem _ told, under⟩
    · exact ⟨root, List.mem_cons_self, under⟩

/-- The tokens some time later are those that were cancelled and those that a planned cancellation
has reached. -/
lemma isCancelled_forestAt_iff (h : Faithful k s) (plan : Option (Nat × Nat)) (time name : Nat) :
    (Context.forestAt s.forest s.now (s.now + time) (s.cancellation plan)).isCancelled name = true ↔
      s.forest.isCancelled name = true ∨ k.Reaches s plan time name := by
  match plan with
  | none => simp [cancellation, Context.forestAt, Chronicle.Reaches]
  | some (place, delay) =>
      cases there : s.contexts[place]? with
      | none => simp [cancellation, Context.forestAt, Chronicle.Reaches, there]
      | some c =>
          obtain ⟨o, origin, token, -⟩ := h.origin_of_context there
          have held : c.token < k.made := token ▸ h.held_at origin
          by_cases due : delay ≤ time
          · simp [cancellation, Context.forestAt, Chronicle.Reaches, there, due,
              h.isCancelled_cancel_iff held]
          · simp [cancellation, Context.forestAt, Chronicle.Reaches, there, due]

end Faithful

/-! ### The main statement -/

/-- A wait for a context of any session, next to the session in which nobody waits: time passes,
and a cancellation that is planned for some context comes when it is due.

* Some time later the context is cancelled if and only if its token was cancelled from the start,
  its deadline is reached, or the planned cancellation has come and was that of the token of the
  context or of one that this descends from.
* The wait is resolved just if the context is cancelled at some time up to the limit. It ends at the
  first such time then, and at the limit otherwise.
* It leaves the session as if nobody had waited for so long. The context is cancelled then just if
  the wait is resolved.
* A token is cancelled at the end just if it was before, or the wait has lasted until the planned
  cancellation, which reaches it.
* All this is what a step of the session does, if the cancellation is not planned for too late. -/
theorem wait_iff_isCancelled {steps : List Step} {place : Nat} {o : Context}
    (there : (runAll steps start).contexts[place]? = some o) (limit : Nat)
    (plan : Option (Nat × Nat)) :
    let s := runAll steps start
    let k := chronicle steps
    let ended := o.wait s.forest s.now limit (s.cancellation plan)
    let later time := runAll (meanwhile plan time) s
    let isCancelledAfter time := o.isCancelled (later time).forest (later time).now
    (∀ time, isCancelledAfter time = true ↔ s.forest.isCancelled o.token = true ∨
      (∃ deadline, o.deadline = some deadline ∧ deadline ≤ s.now + time) ∨
        k.Reaches s plan time o.token) ∧
    ((ended.isResolved = true ↔ ∃ time ≤ limit, isCancelledAfter time = true) ∧
      (ended.isResolved = true →
        IsLeast {time | isCancelledAfter time = true} (ended.now - s.now)) ∧
      (ended.isResolved = false → ended.now = s.now + limit)) ∧
    (later (ended.now - s.now) = ⟨ended.now, ended.forest, s.contexts⟩ ∧
      o.isCancelled ended.forest ended.now = ended.isResolved) ∧
    (∀ token, ended.forest.isCancelled token = true ↔ s.forest.isCancelled token = true ∨
      k.Reaches s plan (ended.now - s.now) token) ∧
    ((∀ other delay, plan = some (other, delay) → delay ≤ longestPlan) →
      s.apply (.on place (.wait limit plan)) =
        (.waited ended.isResolved (ended.now - s.now), later (ended.now - s.now))) := by
  intro s k ended later isCancelledAfter
  have h : Faithful k s := faithful_start.applyAll steps
  have kept : ∀ root, s.forest.isCancelled o.token = true →
      (s.forest.cancel root).isCancelled o.token = true :=
    fun root cancelled => h.isCancelled_cancel_of_isCancelled cancelled root
  have begun : s.now ≤ ended.now := o.now_le_wait ..
  have instant : s.now + (ended.now - s.now) = ended.now := Nat.add_sub_of_le begun
  have forest : ended.forest = Context.forestAt s.forest s.now ended.now (s.cancellation plan) :=
    Context.wait_forest ..
  -- the tokens and the clock when nobody has waited
  have idle : ∀ time, isCancelledAfter time = o.isCancelled
      (Context.forestAt s.forest s.now (s.now + time) (s.cancellation plan)) (s.now + time) :=
    fun time => by simp only [isCancelledAfter, later, s.runAll_meanwhile plan time]
  have same : later (ended.now - s.now) = ⟨ended.now, ended.forest, s.contexts⟩ := by
    simp only [later, s.runAll_meanwhile, instant, forest]
  refine ⟨fun time => ?_, ⟨?_, fun resolved => ?_, fun unresolved => ?_⟩, ⟨same, ?_⟩,
    fun token => ?_, fun soon => ?_⟩
  · rw [idle, Context.isCancelled, Bool.or_eq_true, h.isCancelled_forestAt_iff, or_assoc,
      or_comm (b := o.isOverdue _ = true), Context.isOverdue_iff]
  · simp only [idle]
    exact Context.isResolved_wait_iff kept
  · simp only [idle]
    exact Context.isLeast_wait kept resolved
  · exact Context.wait_now_of_unresolved unresolved
  · exact Context.isCancelled_wait kept
  · rw [forest, ← instant, h.isCancelled_forestAt_iff, instant]
  · rw [same]
    simp only [apply]
    rw [there]
    simp only [act, planned_eq_cancellation soon]
    rfl

/-- A child is made, and a timeout is given to it. -/
def outing : List Step :=
  [.fresh, .on 0 .child, .on 1 (.withTimeout 50)]

/-- The parent is to be cancelled during a wait for the child. A wait that lasts until then is
resolved there, before the deadline; a shorter one ends at its limit, and nothing is cancelled. -/
theorem wait_iff_isCancelled_outing :
    let s := runAll outing start
    let o : Context := ⟨1, some 50⟩
    let plan := some (0, 30)
    s.contexts[2]? = some o ∧
      o.wait s.forest s.now 100 (s.cancellation plan) = ⟨30, true, s.forest.cancel 0⟩ ∧
      IsLeast {time | o.isCancelled (runAll (meanwhile plan time) s).forest
        (runAll (meanwhile plan time) s).now = true} 30 ∧
      o.wait s.forest s.now 20 (s.cancellation plan) = ⟨20, false, s.forest⟩ ∧
      ¬∃ time ≤ 20, o.isCancelled (runAll (meanwhile plan time) s).forest
        (runAll (meanwhile plan time) s).now = true := by
  intro s o plan
  have there : s.contexts[2]? = some o := by decide
  have long : o.wait s.forest s.now 100 (s.cancellation plan) = ⟨30, true, s.forest.cancel 0⟩ := by
    decide
  have short : o.wait s.forest s.now 20 (s.cancellation plan) = ⟨20, false, s.forest⟩ := by decide
  obtain ⟨-, ⟨-, first, -⟩, -⟩ := wait_iff_isCancelled there 100 plan
  obtain ⟨-, ⟨within, -, -⟩, -⟩ := wait_iff_isCancelled there 20 plan
  have resolved : (o.wait s.forest s.now 100 (s.cancellation plan)).isResolved = true := by
    rw [long]
  have unresolved : (o.wait s.forest s.now 20 (s.cancellation plan)).isResolved ≠ true := by
    simp [short]
  have elapsed : (o.wait s.forest s.now 100 (s.cancellation plan)).now - s.now = 30 := by
    rw [long]
    rfl
  have first : IsLeast _ ((o.wait s.forest s.now 100 (s.cancellation plan)).now - s.now) :=
    first resolved
  rw [elapsed] at first
  exact ⟨there, long, first, short, mt within.mpr unresolved⟩

end Session

end ReadThrough
