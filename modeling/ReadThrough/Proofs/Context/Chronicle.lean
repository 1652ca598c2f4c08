import Mathlib.Data.List.Forall2
import ReadThrough.Context.Session
import ReadThrough.Proofs.Context.Tokens

/-!
What the steps of a session tell about its contexts.

* `runAll`: steps one after another.
* `Chronicle`, `chronicle`: what is noted of steps, which are the tokens cancelled by name, the
  tokens made under others, and for each context its token and the deadlines given along its chain
  of derivations. Of the session it knows only the clock.
* `Faithful`: a session is as its chronicle tells. Every step keeps this (`Faithful.apply`), and so
  do steps one after another (`Faithful.applyAll`).
* `isCancelled_iff_chronicle`: a context of any session is cancelled if and only if its token, or
  one that this descends from, was cancelled by name, or its deadline is reached; and the deadline
  is the least of all given along its chain.
-/

namespace ReadThrough

namespace Context

/-- A deadline makes a context end at the least of those given. -/
lemma withDeadline_deadline {c : Context} {given : List Nat} (h : c.deadline = given.min?)
    (deadline : Nat) : (c.withDeadline deadline).deadline = (deadline :: given).min? := by
  rw [withDeadline, List.min?_cons, ← h]
  cases c.deadline with
  | none => rfl
  | some existing => simp [Nat.min_comm]

lemma withDeadline_token (c : Context) (deadline : Nat) :
    (c.withDeadline deadline).token = c.token := by
  rw [withDeadline]
  cases c.deadline <;> rfl

/-- A deadline only gets earlier. -/
lemma exists_withDeadline_le {c : Context} {d : Nat}
    (ends : c.deadline = some d) (deadline : Nat) :
    ∃ e, (c.withDeadline deadline).deadline = some e ∧ e ≤ d := by
  rw [withDeadline, ends]
  exact ⟨_, rfl, Nat.min_le_left ..⟩

/-- A wait ends by itself no earlier than now. -/
lemma now_le_of_wakesAt? {c : Context} {f : Forest} {now instant : Nat}
    {planned : Option Cancellation} (wake : c.wakesAt? f now planned = some instant) :
    now ≤ instant := by
  have by_token : ∀ t ∈ c.tokenWakesAt? f now planned, now ≤ t := by
    intro t at_token
    unfold tokenWakesAt? at at_token
    cases planned <;> simp only at at_token <;> split at at_token <;> simp at at_token <;> omega
  have by_deadline : ∀ t ∈ c.deadline.map fun deadline => max now deadline, now ≤ t := by
    intro t at_deadline
    obtain ⟨deadline, -, rfl⟩ := Option.map_eq_some_iff.mp at_deadline
    exact Nat.le_max_left ..
  rw [wakesAt?] at wake
  cases first : c.tokenWakesAt? f now planned <;>
    cases second : c.deadline.map fun deadline => max now deadline <;>
    simp [earlier?, first, second] at wake by_token by_deadline <;> omega

/-- A wait does not end before it begins. -/
lemma now_le_wait (c : Context) (f : Forest) (now limit : Nat) (planned : Option Cancellation) :
    now ≤ (c.wait f now limit planned).now := by
  rw [wait]
  cases wake : c.wakesAt? f now planned with
  | none => exact Nat.le_add_right ..
  | some instant =>
      simp only
      split
      · exact now_le_of_wakesAt? wake
      · exact Nat.le_add_right ..

/-- The tokens at the end of a wait: the planned cancellation has come if it is due by then. -/
lemma wait_forest (c : Context) (f : Forest) (now limit : Nat) (planned : Option Cancellation) :
    (c.wait f now limit planned).forest =
      forestAt f now (c.wait f now limit planned).now planned := by
  rw [wait]
  cases c.wakesAt? f now planned with
  | none => rfl
  | some instant =>
      simp only
      split <;> rfl

end Context

namespace Session

/-- The session after steps. -/
def runAll : List Step → Session → Session
  | [], s => s
  | step :: rest, s => runAll rest (s.apply step).2

/-! ### What is noted -/

/-- Where a context comes from: its token, and the deadlines given along its chain of derivations,
its own and those of the contexts that it is derived from. -/
structure Origin where
  token : Nat
  given : List Nat

/-- What is noted of steps. -/
structure Chronicle where
  /-- How many tokens were made. -/
  made : Nat
  /-- The tokens that were cancelled by name. -/
  cancelled : List Nat
  /-- The tokens that were made under others, each behind the one above it. -/
  branches : List (Nat × Nat)
  /-- Where the contexts come from, the oldest first. -/
  origins : List Origin

namespace Chronicle

/-- Nothing noted. -/
def empty : Chronicle := ⟨0, [], [], []⟩

/-- One more context. -/
def push (k : Chronicle) (o : Origin) : Chronicle :=
  { k with origins := k.origins ++ [o] }

/-- One more context, with a new token that is made under another or by itself. -/
def pushNew (k : Chronicle) (parent : Option Nat) (given : List Nat) : Chronicle :=
  { k with
    made := k.made + 1
    branches := parent.toList.map (fun above => (above, k.made)) ++ k.branches
    origins := k.origins ++ [⟨k.made, given⟩] }

/-- One more token cancelled by name. -/
def cancel (k : Chronicle) (token : Nat) : Chronicle :=
  { k with cancelled := token :: k.cancelled }

/-- The end of a wait: the cancellation planned meanwhile has come if its time is over. -/
def noteWait (k : Chronicle) (elapsed : Nat) (plan : Option (Nat × Nat)) : Chronicle :=
  match plan with
  | none => k
  | some (other, delay) =>
    match k.origins[other]? with
    | none => k
    | some o => if min delay longestPlan ≤ elapsed then k.cancel o.token else k

/-- An action on a context, in terms of where that comes from. It begins at one instant and ends at
another. -/
def noteAction (k : Chronicle) (now later : Nat) (o : Origin) : Action → Chronicle
  | .clone => k.push o
  | .child => k.pushNew (some o.token) o.given
  | .withTimeout time =>
    if now + time ≤ Instant.last then k.push ⟨o.token, (now + time) :: o.given⟩ else k
  | .withDeadline deadline => k.push ⟨o.token, deadline :: o.given⟩
  | .withTokenOf other =>
    match k.origins[other]? with
    | some p => k.push ⟨p.token, o.given⟩
    | none => k
  | .cancel => k.cancel o.token
  | .wait _ plan => k.noteWait (later - now) plan

/-- A step that begins at one instant and ends at another. -/
def note (k : Chronicle) (now later : Nat) : Step → Chronicle
  | .fresh => k.pushNew none []
  | .advance _ => k
  | .on place action =>
    match k.origins[place]? with
    | some o => k.noteAction now later o action
    | none => k

/-- Steps, one after another, on a session. -/
def noteAll : List Step → Session → Chronicle → Chronicle
  | [], _, k => k
  | step :: rest, s, k =>
    let t := (s.apply step).2
    noteAll rest t (k.note s.now t.now step)

/-- Whether a token is another one or descends from it. -/
def Under (k : Chronicle) : Nat → Nat → Prop :=
  Forest.Under k.branches

/-- What was noted remains. -/
structure Extends (k l : Chronicle) : Prop where
  cancelled : k.cancelled ⊆ l.cancelled
  branches : k.branches ⊆ l.branches

namespace Extends

lemma refl (k : Chronicle) : Extends k k := ⟨List.Subset.refl _, List.Subset.refl _⟩

lemma trans {k l m : Chronicle} (h : Extends k l) (h' : Extends l m) : Extends k m :=
  ⟨List.Subset.trans h.cancelled h'.cancelled, List.Subset.trans h.branches h'.branches⟩

end Extends

lemma extends_cancel (k : Chronicle) (token : Nat) : Extends k (k.cancel token) :=
  ⟨List.subset_cons_self .., List.Subset.refl _⟩

lemma extends_pushNew (k : Chronicle) (parent : Option Nat) (given : List Nat) :
    Extends k (k.pushNew parent given) :=
  ⟨List.Subset.refl _, List.subset_append_right ..⟩

lemma extends_push (k : Chronicle) (o : Origin) : Extends k (k.push o) :=
  ⟨List.Subset.refl _, List.Subset.refl _⟩

lemma extends_noteWait (k : Chronicle) (elapsed : Nat) (plan : Option (Nat × Nat)) :
    Extends k (k.noteWait elapsed plan) := by
  unfold noteWait
  split
  · exact .refl k
  · split
    · exact .refl k
    · split
      · exact k.extends_cancel _
      · exact .refl k

lemma extends_noteAction (k : Chronicle) (now later : Nat) (o : Origin) (action : Action) :
    Extends k (k.noteAction now later o action) := by
  cases action with
  | clone => exact k.extends_push o
  | child => exact k.extends_pushNew ..
  | withTimeout time =>
      simp only [noteAction]
      split
      · exact k.extends_push _
      · exact .refl k
  | withDeadline deadline => exact k.extends_push _
  | withTokenOf other =>
      simp only [noteAction]
      split
      · exact k.extends_push _
      · exact .refl k
  | cancel => exact k.extends_cancel _
  | wait limit plan => exact k.extends_noteWait ..

lemma extends_note (k : Chronicle) (now later : Nat) (step : Step) :
    Extends k (k.note now later step) := by
  cases step with
  | fresh => exact k.extends_pushNew ..
  | advance time => exact .refl k
  | on place action =>
      simp only [note]
      split
      · exact k.extends_noteAction ..
      · exact .refl k

/-- Nothing that was noted is ever dropped. -/
lemma extends_noteAll (steps : List Step) (s : Session) (k : Chronicle) :
    Extends k (noteAll steps s k) := by
  induction steps generalizing s k with
  | nil => exact .refl k
  | cons step rest ih => exact (k.extends_note ..).trans (ih ..)

end Chronicle

/-- The chronicle of a session from its start. -/
def chronicle (steps : List Step) : Chronicle :=
  Chronicle.noteAll steps start .empty

/-! ### Every step keeps the chronicle true -/

/-- A context is as told by where it comes from: it ends at the least of the deadlines given along
its chain. -/
def Origin.Tells (o : Origin) (c : Context) : Prop :=
  c.token = o.token ∧ c.deadline = o.given.min?

/-- A session is as its chronicle tells. -/
structure Faithful (k : Chronicle) (s : Session) : Prop where
  made : s.forest.tokens.length = k.made
  told : s.forest.Told k.cancelled k.branches
  held : ∀ o ∈ k.origins, o.token < k.made
  tells : List.Forall₂ (fun c o => Origin.Tells o c) s.contexts k.origins

lemma faithful_start : Faithful .empty start :=
  ⟨rfl, Forest.told_empty, by simp [Chronicle.empty], .nil⟩

namespace Faithful

variable {k : Chronicle} {s : Session}

/-- A context and its origin have the same place. -/
lemma origin_of_context (h : Faithful k s) {place : Nat} {c : Context}
    (there : s.contexts[place]? = some c) :
    ∃ o, k.origins[place]? = some o ∧ o.Tells c := by
  obtain ⟨length, related⟩ := List.forall₂_iff_get.mp h.tells
  obtain ⟨lt, rfl⟩ := List.getElem?_eq_some_iff.mp there
  have lt' : place < k.origins.length := length ▸ lt
  exact ⟨k.origins[place], List.getElem?_eq_getElem lt', related place lt lt'⟩

/-- Where there is no context there is no origin. -/
lemma origin_eq_none (h : Faithful k s) {place : Nat} (absent : s.contexts[place]? = none) :
    k.origins[place]? = none := by
  rw [List.getElem?_eq_none_iff] at absent ⊢
  rw [← h.tells.length_eq]
  exact absent

lemma held_at (h : Faithful k s) {place : Nat} {o : Origin}
    (there : k.origins[place]? = some o) : o.token < k.made :=
  h.held o (List.mem_of_getElem? there)

/-- One more context with a token that is there. -/
lemma push (h : Faithful k s) {c : Context} {o : Origin} (held : o.token < k.made)
    (tells : o.Tells c) : Faithful (k.push o) (s.push c s.forest) := by
  refine ⟨h.made, h.told, fun other mem => ?_, List.rel_append h.tells (.cons tells .nil)⟩
  rcases List.mem_append.mp mem with mem | mem
  · exact h.held other mem
  · rw [List.mem_singleton.mp mem]
    exact held

/-- One more context with a new token, which may be made under one that is there. -/
lemma pushNew (h : Faithful k s) {parent deadline : Option Nat} {given : List Nat}
    (there : ∀ p, parent = some p → p < k.made) (least : deadline = given.min?) :
    Faithful (k.pushNew parent given)
      (s.push ⟨s.forest.tokens.length, deadline⟩ (s.forest.add parent).2) := by
  refine ⟨congrArg (· + 1) h.made, ?_, fun other mem => ?_,
    List.rel_append h.tells (.cons ⟨h.made, least⟩ .nil)⟩
  · have told := h.told.add (h.made ▸ there)
    rw [h.made] at told
    exact told
  · rcases List.mem_append.mp mem with mem | mem
    · exact Nat.lt_succ_of_lt (h.held other mem)
    · rw [List.mem_singleton.mp mem]
      exact Nat.lt_succ_self _

/-- The cancellation of a token that is there, at any instant. -/
lemma cancel (h : Faithful k s) {root : Nat} (there : root < k.made) (now : Nat) :
    Faithful (k.cancel root) ⟨now, s.forest.cancel root, s.contexts⟩ := by
  have same : (s.forest.cancel root).tokens.length = s.forest.tokens.length :=
    Forest.length_cancelIn root s.forest.tokens
  exact ⟨same.trans h.made, h.told.cancel (h.made ▸ there), h.held, h.tells⟩

/-- The clock plays no part. -/
lemma pass (h : Faithful k s) (now : Nat) : Faithful k { s with now := now } :=
  ⟨h.made, h.told, h.held, h.tells⟩

/-- A wait for a context keeps the chronicle true. -/
lemma wait (h : Faithful k s) (c : Context) (limit : Nat) (plan : Option (Nat × Nat)) :
    let ended := c.wait s.forest s.now limit (s.planned plan)
    Faithful (k.noteWait (ended.now - s.now) plan) ⟨ended.now, ended.forest, s.contexts⟩ := by
  intro ended
  have begun : s.now ≤ ended.now := Context.now_le_wait ..
  have forest : ended.forest = Context.forestAt s.forest s.now ended.now (s.planned plan) :=
    Context.wait_forest ..
  rw [forest]
  match plan with
  | none => exact h.pass _
  | some (other, delay) =>
      cases found : s.contexts[other]? with
      | none =>
          simp only [Session.planned, Option.bind_some, found, Option.map_none, Context.forestAt,
            Chronicle.noteWait, h.origin_eq_none found]
          exact h.pass _
      | some p =>
          obtain ⟨o, place, token, -⟩ := h.origin_of_context found
          simp only [Session.planned, Option.bind_some, found, Option.map_some, Context.forestAt,
            Chronicle.noteWait, place]
          by_cases due : s.now + min delay longestPlan ≤ ended.now
          · rw [if_pos due, if_pos (by omega), token]
            exact h.cancel (h.held_at place) _
          · rw [if_neg due, if_neg (by omega)]
            exact h.pass _

/-- An action on a context keeps the chronicle true. -/
lemma act (h : Faithful k s) {c : Context} {o : Origin} (held : o.token < k.made)
    (tells : o.Tells c) (action : Action) :
    Faithful (k.noteAction s.now (s.act c action).2.now o action) (s.act c action).2 := by
  obtain ⟨token, deadline⟩ := tells
  cases action with
  | clone => exact h.push held ⟨token, deadline⟩
  | child =>
      simp only [Chronicle.noteAction, ← token]
      have there : ∀ p, some c.token = some p → p < k.made := by simpa [token] using held
      exact h.pushNew there deadline
  | withTimeout time =>
      simp only [Chronicle.noteAction, Session.act, Context.withTimeout?, Instant.after?]
      split
      · exact h.push (o := ⟨o.token, _⟩) held
          ⟨(Context.withDeadline_token ..).trans token, Context.withDeadline_deadline deadline _⟩
      · exact h
  | withDeadline finish =>
      exact h.push (o := ⟨o.token, _⟩) held
        ⟨(Context.withDeadline_token ..).trans token, Context.withDeadline_deadline deadline _⟩
  | withTokenOf other =>
      simp only [Chronicle.noteAction, Session.act]
      cases found : s.contexts[other]? with
      | none =>
          rw [h.origin_eq_none found]
          exact h
      | some d =>
          obtain ⟨p, place, same, -⟩ := h.origin_of_context found
          rw [place]
          have shared : p.token < k.made := h.held_at place
          exact h.push (o := ⟨p.token, o.given⟩) shared ⟨same, deadline⟩
  | cancel =>
      simp only [Chronicle.noteAction, ← token]
      exact h.cancel (token ▸ held) s.now
  | wait limit plan => exact h.wait c limit plan

/-- A step keeps the chronicle true. -/
theorem apply (h : Faithful k s) (step : Step) :
    Faithful (k.note s.now (s.apply step).2.now step) (s.apply step).2 := by
  cases step with
  | fresh =>
      have there : ∀ p, none = some p → p < k.made := by simp
      exact h.pushNew there rfl
  | advance time => exact h.pass _
  | on place action =>
      simp only [Session.apply, Chronicle.note]
      cases there : s.contexts[place]? with
      | some c =>
          obtain ⟨o, origin, tells⟩ := h.origin_of_context there
          rw [origin]
          exact h.act (h.held_at origin) tells action
      | none =>
          rw [h.origin_eq_none there]
          exact h

/-- Steps one after another keep the chronicle true. -/
theorem applyAll (h : Faithful k s) (steps : List Step) :
    Faithful (Chronicle.noteAll steps s k) (runAll steps s) := by
  induction steps generalizing k s with
  | nil => exact h
  | cons step rest ih => exact ih (h.apply step)

/-- A context is cancelled if and only if its token or one that this descends from was cancelled by
name, or its deadline is reached. -/
lemma isCancelled_iff (h : Faithful k s) {c : Context} {o : Origin} (tells : o.Tells c) :
    c.isCancelled s.forest s.now = true ↔
      (∃ root ∈ k.cancelled, k.Under root o.token) ∨
        ∃ deadline, c.deadline = some deadline ∧ deadline ≤ s.now := by
  have overdue : c.isOverdue s.now = true ↔
      ∃ deadline, c.deadline = some deadline ∧ deadline ≤ s.now := by
    rw [Context.isOverdue]
    cases c.deadline <;> simp
  rw [Context.isCancelled, Bool.or_eq_true, h.told.isCancelled_iff, overdue, tells.1]
  rfl

end Faithful

/-! ### What no step takes back -/

/-- No step drops or changes a context. -/
lemma contexts_apply (s : Session) (step : Step) : s.contexts <+: (s.apply step).2.contexts := by
  have act : ∀ (c : Context) (action : Action), s.contexts <+: (s.act c action).2.contexts := by
    intro c action
    cases action with
    | clone => exact List.prefix_append ..
    | child => exact List.prefix_append ..
    | withTimeout time =>
        simp only [Session.act]
        cases c.withTimeout? s.now time with
        | none => exact List.prefix_refl _
        | some made => exact List.prefix_append ..
    | withDeadline deadline => exact List.prefix_append ..
    | withTokenOf other =>
        simp only [Session.act]
        cases s.contexts[other]? with
        | none => exact List.prefix_refl _
        | some d => exact List.prefix_append ..
    | cancel => exact List.prefix_refl _
    | wait limit plan => exact List.prefix_refl _
  cases step with
  | fresh => exact List.prefix_append ..
  | advance time => exact List.prefix_refl _
  | on place action =>
      simp only [Session.apply]
      cases s.contexts[place]? with
      | none => exact List.prefix_refl _
      | some c => exact act c action

lemma contexts_runAll (steps : List Step) (s : Session) :
    s.contexts <+: (runAll steps s).contexts := by
  induction steps generalizing s with
  | nil => exact List.prefix_refl _
  | cons step rest ih => exact (s.contexts_apply step).trans (ih _)

/-- The clock never goes back. -/
lemma now_le_apply (s : Session) (step : Step) : s.now ≤ (s.apply step).2.now := by
  cases step with
  | fresh => exact Nat.le_refl _
  | advance time => exact Nat.le_add_right ..
  | on place action =>
      simp only [Session.apply]
      cases s.contexts[place]? with
      | none => exact Nat.le_refl _
      | some c =>
          cases action with
          | withTimeout time =>
              simp only [Session.act]
              cases c.withTimeout? s.now time <;> exact Nat.le_refl _
          | withTokenOf other =>
              simp only [Session.act]
              cases s.contexts[other]? <;> exact Nat.le_refl _
          | wait limit plan => exact c.now_le_wait ..
          | _ => exact Nat.le_refl _

lemma now_le_runAll (steps : List Step) (s : Session) : s.now ≤ (runAll steps s).now := by
  induction steps generalizing s with
  | nil => exact Nat.le_refl _
  | cons step rest ih => exact Nat.le_trans (s.now_le_apply step) (ih _)

/-- A context that is cancelled stays so. -/
lemma Faithful.isCancelled_runAll {k : Chronicle} {s : Session} (h : Faithful k s)
    {c : Context} {o : Origin} (tells : o.Tells c) (steps : List Step)
    (cancelled : c.isCancelled s.forest s.now = true) :
    c.isCancelled (runAll steps s).forest (runAll steps s).now = true := by
  have kept := Chronicle.extends_noteAll steps s k
  rw [(h.applyAll steps).isCancelled_iff tells]
  rcases (h.isCancelled_iff tells).mp cancelled with ⟨root, told, under⟩ | ⟨deadline, ends, reached⟩
  · exact .inl ⟨root, kept.cancelled told,
      Relation.ReflTransGen.mono (fun _ _ branch => kept.branches branch) _ _ under⟩
  · exact .inr ⟨deadline, ends, Nat.le_trans reached (now_le_runAll steps s)⟩

/-- A cancellation reaches no context but those whose tokens are the cancelled one or descend from
it. -/
lemma Faithful.isCancelled_cancel {k : Chronicle} {s : Session} (h : Faithful k s) {root : Nat}
    (there : root < k.made) {d : Context} (mem : d ∈ s.contexts)
    (apart : ¬k.Under root d.token) :
    d.isCancelled (s.forest.cancel root) s.now = d.isCancelled s.forest s.now := by
  obtain ⟨place, found⟩ := List.getElem?_of_mem mem
  obtain ⟨o, -, tells⟩ := h.origin_of_context found
  have before := h.isCancelled_iff tells
  have after := (h.cancel there s.now).isCancelled_iff tells
  rw [tells.1] at apart
  have same : (∃ named ∈ (k.cancel root).cancelled, (k.cancel root).Under named o.token) ↔
      ∃ named ∈ k.cancelled, k.Under named o.token := by
    constructor
    · rintro ⟨named, told, under⟩
      rcases List.mem_cons.mp told with rfl | told
      · exact absurd under apart
      · exact ⟨named, told, under⟩
    · rintro ⟨named, told, under⟩
      exact ⟨named, List.mem_cons_of_mem _ told, under⟩
  rw [Bool.eq_iff_iff, before]
  exact after.trans (or_congr_left same)

/-! ### Contexts derived from another -/

/-- A context derived from another ends no later. -/
lemma exists_deadline_le_of_act {s : Session} {c made : Context} {action : Action}
    (derived : (s.act c action).2.contexts = s.contexts ++ [made]) {d : Nat}
    (ends : c.deadline = some d) : ∃ e, made.deadline = some e ∧ e ≤ d := by
  have last : ∀ {other : Context}, s.contexts ++ [other] = s.contexts ++ [made] →
      other = made := fun same => by simpa using same
  have more : s.contexts ≠ s.contexts ++ [made] := by simp
  cases action with
  | clone => exact ⟨d, last derived ▸ ends, Nat.le_refl d⟩
  | child => exact ⟨d, (congrArg Context.deadline (last derived)).symm.trans ends, Nat.le_refl d⟩
  | withTimeout time =>
      simp only [Session.act, Context.withTimeout?] at derived
      cases finish : Instant.after? s.now time with
      | none =>
          rw [finish] at derived
          exact absurd derived more
      | some deadline =>
          rw [finish] at derived
          rw [← last derived]
          exact Context.exists_withDeadline_le ends deadline
  | withDeadline deadline =>
      rw [← last derived]
      exact Context.exists_withDeadline_le ends deadline
  | withTokenOf other =>
      simp only [Session.act] at derived
      cases found : s.contexts[other]? with
      | none =>
          rw [found] at derived
          exact absurd derived more
      | some o =>
          rw [found] at derived
          exact ⟨d, (congrArg Context.deadline (last derived)).symm.trans ends, Nat.le_refl d⟩
  | cancel => exact absurd derived more
  | wait limit plan => exact absurd derived more

/-- A timeout fails just if its end cannot be represented, and then nothing changes. -/
lemma act_withTimeout (s : Session) (c : Context) (time : Nat) :
    ((s.act c (.withTimeout time)).1 = .overflow ↔ Instant.last < s.now + time) ∧
      (Instant.last < s.now + time → s.act c (.withTimeout time) = (.overflow, s)) := by
  simp only [Session.act, Context.withTimeout?, Instant.after?]
  by_cases fits : s.now + time ≤ Instant.last
  · simp [fits, Nat.not_lt.mpr fits]
  · simp [fits, Nat.not_le.mp fits]

/-! ### The main statement -/

/-- Any steps, and a context of the session after them.

* It has the token that it comes from, and ends at the least of the deadlines given along its chain.
* It is cancelled if and only if its token or one that this descends from was cancelled by name, or
  its deadline is reached.
* A context derived from it ends no later. With the token of another it keeps its deadline, and
  nothing else changes.
* Its cancellation leaves the clock and the contexts as they are, and each context whose token does
  not descend from its own is cancelled afterwards just if it was before.
* It remains, whatever steps follow, and if it is cancelled it stays so.
* A timeout is refused just if its end cannot be represented, and then nothing changes. -/
theorem isCancelled_iff_chronicle {steps : List Step} {place : Nat} {c : Context}
    (there : (runAll steps start).contexts[place]? = some c) :
    let s := runAll steps start
    let k := chronicle steps
    (∃ o, k.origins[place]? = some o ∧ c.token = o.token ∧ c.deadline = o.given.min?) ∧
    (c.isCancelled s.forest s.now = true ↔
      (∃ root ∈ k.cancelled, k.Under root c.token) ∨
        ∃ deadline, c.deadline = some deadline ∧ deadline ≤ s.now) ∧
    (∀ action made, (s.apply (.on place action)).2.contexts = s.contexts ++ [made] →
      ∀ d, c.deadline = some d → ∃ e, made.deadline = some e ∧ e ≤ d) ∧
    (∀ other o, s.contexts[other]? = some o →
      s.apply (.on place (.withTokenOf other)) =
        (.done, ⟨s.now, s.forest, s.contexts ++ [⟨o.token, c.deadline⟩]⟩)) ∧
    (let t := (s.apply (.on place .cancel)).2;
      t.now = s.now ∧ t.contexts = s.contexts ∧ ∀ d ∈ s.contexts, ¬k.Under c.token d.token →
        d.isCancelled t.forest t.now = d.isCancelled s.forest s.now) ∧
    (∀ more, let t := runAll more s;
      t.contexts[place]? = some c ∧
        (c.isCancelled s.forest s.now = true → c.isCancelled t.forest t.now = true)) ∧
    (∀ time, (s.apply (.on place (.withTimeout time))).1 = .overflow ↔
      Instant.last < s.now + time) ∧
    ∀ time, Instant.last < s.now + time →
      s.apply (.on place (.withTimeout time)) = (.overflow, s) := by
  intro s k
  have h : Faithful k s := faithful_start.applyAll steps
  obtain ⟨o, origin, tells⟩ := h.origin_of_context there
  have apply : ∀ action, s.apply (.on place action) = s.act c action := by
    intro action
    simp only [Session.apply]
    rw [there]
  refine ⟨⟨o, origin, tells⟩, tells.1 ▸ h.isCancelled_iff tells, ?_, ?_, ?_, ?_, ?_, ?_⟩
  · intro action made derived d ends
    rw [apply] at derived
    exact exists_deadline_le_of_act derived ends
  · intro other p found
    rw [apply, Session.act, found]
    rfl
  · rw [apply]
    refine ⟨rfl, rfl, fun d mem apart => ?_⟩
    have held : c.token < k.made := tells.1 ▸ h.held_at origin
    exact h.isCancelled_cancel held mem apart
  · intro more t
    obtain ⟨rest, same⟩ := contexts_runAll more s
    refine ⟨?_, h.isCancelled_runAll tells more⟩
    have lt := (List.getElem?_eq_some_iff.mp there).1
    show (runAll more s).contexts[place]? = some c
    rw [← same, List.getElem?_append_left lt]
    exact there
  · intro time
    rw [apply]
    exact (act_withTimeout s c time).1
  · intro time beyond
    rw [apply]
    exact (act_withTimeout s c time).2 beyond

/-- A child is made, a timeout and a later deadline are given to it, and during a wait for it the
token of its parent is cancelled. -/
def errand : List Step :=
  [.fresh, .on 0 .child, .on 1 (.withTimeout 5), .advance 2, .on 2 (.withDeadline 9), .fresh,
    .on 3 (.wait 10 (some (0, 1)))]

/-- At the end the child is cancelled before its deadline, by the token that its own descends
from. -/
theorem isCancelled_iff_chronicle_errand :
    (runAll errand start).contexts[3]? = some ⟨1, some 5⟩ ∧ (runAll errand start).now = 3 ∧
      ∃ root ∈ (chronicle errand).cancelled, (chronicle errand).Under root 1 := by
  have there : (runAll errand start).contexts[3]? = some ⟨1, some 5⟩ := by decide
  have now : (runAll errand start).now = 3 := by decide
  have cancelled : (Context.mk 1 (some 5)).isCancelled (runAll errand start).forest
      (runAll errand start).now = true := by decide
  obtain ⟨-, reason, -⟩ := isCancelled_iff_chronicle there
  refine ⟨there, now, (reason.mp cancelled).resolve_right ?_⟩
  rintro ⟨deadline, ends, reached⟩
  rw [now] at reached
  cases ends
  omega

end Session

end ReadThrough
