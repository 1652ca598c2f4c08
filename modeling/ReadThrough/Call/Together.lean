import ReadThrough.Call.Script

/-!
Calls of scripted tools that run together on one thread. A call runs until its tool pauses or the
call ends. When all have paused or ended, the clock jumps to the end of the earliest pause, and the
calls that wake there go on, in the order in which they were given. This is one of the orders in
which the steps of calls that overlap can be taken.

* `Frame`: a call whose tool is at work.
* `Task`: a call that has ended, or one that is paused, with the calls that wait for it.
* `Rehearsal.launch`, `Rehearsal.wake`: a call from its start, or from the end of a pause, up to its
  next pause or its end.
* `Rehearsal.callTogether`: the outcomes of calls that run together.
-/

namespace ReadThrough

/-- A call whose tool is at work, with the number of that run. -/
structure Frame where
  request : Request
  context : Context
  key : Option String
  run : Nat

/-- A call that has ended, or one that is paused. -/
inductive Task where
  | ended (outcome : Outcome)
  /-- The innermost call is paused until an instant; each of the outer ones waits for the one
  before it. -/
  | paused (instant : Nat) (frame : Frame) (behaviour : Behaviour) (outer : List Frame)

namespace Task

/-- The instant at which a task wakes. -/
def wakesAt? : Task → Option Nat
  | .ended _ => none
  | .paused instant _ _ _ => some instant

/-- The outcome of a task that has ended. -/
def outcome? : Task → Option Outcome
  | .ended outcome => some outcome
  | .paused _ _ _ _ => none

/-- The earliest instant at which one of several tasks wakes. -/
def earliest? : List Task → Option Nat
  | [] => none
  | task :: rest =>
    match task.wakesAt?, earliest? rest with
    | some s, some t => some (min s t)
    | some s, none => some s
    | none, t => t

end Task

namespace Rehearsal

variable {σ : Type}

/-- Ends the innermost call with the outcome of its tool, and with it every outer call, whose tool
has waited for just that. -/
def settle (r : Rehearsal σ) (frame : Frame) (outcome : Outcome) :
    List Frame → World σ → Task × World σ
  | [], w =>
    let w := r.middleware.finish r.backend frame.context frame.request.call frame.key outcome w
    (.ended outcome, w)
  | outer :: rest, w =>
    let w := r.middleware.finish r.backend frame.context frame.request.call frame.key outcome w
    r.settle outer (.ok (Behaviour.nestedBytes outer.run outcome)) rest w

/-- A call up to the run of its tool: the bytes from the cache, or the call with its tool at
work. -/
def enter (r : Rehearsal σ) (request : Request) (w : World σ) :
    (Except Bytes Frame) × World σ :=
  let (c, w) := w.openContext request
  match r.middleware.start r.backend c request.call w with
  | (.answered value, w) => (.error value, w)
  | (.run key, w) =>
    let (run, w) := w.countRun
    (.ok ⟨request, c, key, run⟩, w)

/-- The tool of the innermost call behaves, up to its next pause or its end. -/
def wake (r : Rehearsal σ) (frame : Frame) (outer : List Frame) :
    Behaviour → World σ → Task × World σ
  | .nested request inner, w =>
    match r.enter request w with
    | (.error value, w) =>
      r.settle frame (.ok (Behaviour.nestedBytes frame.run (.ok value))) outer w
    | (.ok next, w) =>
      if request.delay = 0 then r.wake next (frame :: outer) inner w
      else (.paused (w.now + request.delay) next inner (frame :: outer), w)
  | behaviour, w =>
    let outcome := behaviour.outcome frame.request.call frame.run (w.isCancelled frame.context)
      (.ok [])
    r.settle frame outcome outer w

/-- A call from its start up to its first pause or its end. -/
def launch (r : Rehearsal σ) (request : Request) (behaviour : Behaviour) (w : World σ) :
    Task × World σ :=
  match r.enter request w with
  | (.error value, w) => (.ended (.ok value), w)
  | (.ok frame, w) =>
    if request.delay = 0 then r.wake frame [] behaviour w
    else (.paused (w.now + request.delay) frame behaviour [], w)

/-- All calls in order, each up to its first pause or its end. -/
def launchAll (r : Rehearsal σ) : List (Request × Behaviour) → World σ → List Task × World σ
  | [], w => ([], w)
  | (request, behaviour) :: rest, w =>
    let (task, w) := r.launch request behaviour w
    let (tasks, w) := r.launchAll rest w
    (task :: tasks, w)

/-- The tasks that wake by now go on, in order; the others stay. -/
def wakeAll (r : Rehearsal σ) : List Task → World σ → List Task × World σ
  | [], w => ([], w)
  | .paused instant frame behaviour outer :: rest, w =>
    if instant ≤ w.now then
      let (task, w) := r.wake frame outer behaviour w
      let (tasks, w) := r.wakeAll rest w
      (task :: tasks, w)
    else
      let (tasks, w) := r.wakeAll rest w
      (.paused instant frame behaviour outer :: tasks, w)
  | .ended outcome :: rest, w =>
    let (tasks, w) := r.wakeAll rest w
    (.ended outcome :: tasks, w)

/-- Tasks after at most so many jumps of the clock. -/
def passTime (r : Rehearsal σ) : Nat → List Task → World σ → List Task × World σ
  | 0, tasks, w => (tasks, w)
  | jumps + 1, tasks, w =>
    match Task.earliest? tasks with
    | none => (tasks, w)
    | some instant =>
      let (tasks, w) := r.wakeAll tasks { w with now := instant }
      r.passTime jumps tasks w

/-- The greatest number of pauses of calls. -/
def pauses (calls : List (Request × Behaviour)) : Nat :=
  calls.foldr (fun (_, behaviour) total => behaviour.depth + total) 0

/-- The outcomes of calls that run together, in the order in which the calls were given. Each jump
of the clock ends a pause, so that there are no more jumps than pauses. -/
def callTogether (r : Rehearsal σ) (calls : List (Request × Behaviour)) (w : World σ) :
    List (Option Outcome) × World σ :=
  let (tasks, w) := r.launchAll calls w
  let (tasks, w) := r.passTime (pauses calls) tasks w
  (tasks.map Task.outcome?, w)

end Rehearsal

end ReadThrough
