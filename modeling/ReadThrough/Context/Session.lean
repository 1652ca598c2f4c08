import ReadThrough.Context.Wait

/-!
Sessions: contexts made one after another, cancelled and waited for while time passes.

* `Session`: the clock, the tokens and the contexts made so far, the oldest first.
* `Session.Action`, `Session.Step`: what can be done with a context, and what can be done at all. A
  context is named by its place among those made so far; a step on a place that holds none changes
  nothing.
* `Session.apply`: one step, with what it tells.
-/

namespace ReadThrough

/-- The clock, the tokens and the contexts made so far, the oldest first. -/
structure Session where
  now : Nat
  forest : Forest
  contexts : List Context

namespace Session

/-- The session before its first step. -/
def start : Session := ⟨0, Forest.empty, []⟩

/-- What can be done with a context. -/
inductive Action where
  | clone
  | child
  | withTimeout (time : Nat)
  | withDeadline (deadline : Nat)
  /-- Another context with the token of the one at a place. -/
  | withTokenOf (place : Nat)
  | cancel
  /-- Waits for the context, at most so long; meanwhile the token of the context at a place may be
  cancelled, after some time. -/
  | wait (limit : Nat) (plan : Option (Nat × Nat))
deriving DecidableEq

/-- What can be done in a session. -/
inductive Step where
  | fresh
  | advance (time : Nat)
  | on (place : Nat) (action : Action)
deriving DecidableEq

/-- What a step tells. -/
inductive Report where
  | done
  /-- The end of a timeout cannot be represented. -/
  | overflow
  /-- A wait has ended, by the end of the context or by its limit, after some time. -/
  | waited (isResolved : Bool) (elapsed : Nat)
deriving DecidableEq

/-- One more context, and the tokens after it was made. -/
def push (s : Session) (c : Context) (f : Forest) : Session :=
  { s with contexts := s.contexts ++ [c], forest := f }

/-- The longest time ahead for which a cancellation can be planned: thirty years of 365 days. The
timer that carries out a plan keeps no later time; the end of a wait has no such bound. -/
def longestPlan : Nat := Duration.ofSeconds (30 * 365 * 24 * 60 * 60)

/-- The cancellation that a plan stands for. One that is planned for later than the longest time
ahead comes at the end of that time. -/
def planned (s : Session) (plan : Option (Nat × Nat)) : Option Cancellation :=
  plan.bind fun (place, delay) =>
    (s.contexts[place]?).map fun c => ⟨c.token, min delay longestPlan⟩

/-- An action on a context. -/
def act (s : Session) (c : Context) : Action → Report × Session
  | .clone => (.done, s.push c s.forest)
  | .child =>
    let (made, f) := c.child s.forest
    (.done, s.push made f)
  | .withTimeout time =>
    match c.withTimeout? s.now time with
    | some made => (.done, s.push made s.forest)
    | none => (.overflow, s)
  | .withDeadline deadline => (.done, s.push (c.withDeadline deadline) s.forest)
  | .withTokenOf place =>
    match s.contexts[place]? with
    | some other => (.done, s.push (c.withToken other.token) s.forest)
    | none => (.done, s)
  | .cancel => (.done, { s with forest := s.forest.cancel c.token })
  | .wait limit plan =>
    let ended := c.wait s.forest s.now limit (s.planned plan)
    (.waited ended.isResolved (ended.now - s.now),
      { s with now := ended.now, forest := ended.forest })

/-- One step. -/
def apply (s : Session) : Step → Report × Session
  | .fresh =>
    let (made, f) := Context.fresh s.forest
    (.done, s.push made f)
  | .advance time => (.done, { s with now := s.now + time })
  | .on place action =>
    match s.contexts[place]? with
    | some c => s.act c action
    | none => (.done, s)

end Session

end ReadThrough
