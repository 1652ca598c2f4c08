import Mathlib.Logic.Function.Basic
import ReadThrough.Proofs.Call.Sequence

/-!
Calls that overlap over one store, in any order of their steps.

* `Crowd`: calls of middlewares with a common keyer, each with a policy and a skip rule of its own.
  Any type can name them, so that there can be any number.
* `Stage`, `Scene`: how far a call has come, and the world with the stages of all calls.
* `Step`: the steps. A call enters, looks its key up, purges the expired entry that it has met, lets
  its tool run to an outcome, and finishes; and time passes. Between the steps of a call there can
  be any steps of others.
* `Run`: steps one after another, with the history of scenes and moves, the latest first.
* `run_start`, `run_finish`: a call up to the run of its tool, and from the end of that run.
* `run_execute`: a call whose steps follow one another without a break is just
  `Middleware.execute`.
-/

namespace ReadThrough

/-- Calls of middlewares with a common keyer, each with a policy and a skip rule of its own. -/
structure Crowd (ι : Type) where
  keyer : Keyer
  policy : ι → Policy
  skipRule : ι → Option SkipRule
  context : ι → Context
  call : ι → Call

/-- How far a call has come. -/
inductive Stage where
  | waiting
  /-- The call may use the cache and has a key. -/
  | lookingUp (key : String)
  /-- The lookup has met an expired entry. -/
  | purging (key : String)
  /-- The tool is at work, its result to be kept under the key, if there is one. -/
  | running (key? : Option String)
  /-- The tool has ended. -/
  | finishing (key? : Option String) (outcome : Outcome)
  | ended (result : Outcome)

/-- The world and the stages of all calls. -/
structure Scene (ι : Type) where
  world : World Store
  stage : ι → Stage

/-- What can happen next: a step of one of the calls, or the passing of time. -/
inductive Move (ι : Type) where
  | enter (i : ι)
  | lookUp (i : ι)
  | purge (i : ι)
  | complete (i : ι) (outcome : Outcome)
  | finish (i : ι)
  | pass (time : Nat)

namespace Crowd

variable {ι : Type}

/-- The middleware of a call. -/
def middleware (c : Crowd ι) (i : ι) : Middleware :=
  ⟨c.keyer, c.policy i, c.skipRule i⟩

/-- The key of a call. -/
def key (c : Crowd ι) (i : ι) : Except CacheError String :=
  c.keyer (c.call i).toolId (c.call i).input

end Crowd

namespace Scene

variable {ι : Type}

/-- The scene before the first step, over an empty store. -/
def opening (w : World Store) : Scene ι :=
  ⟨{ w with store := .empty }, fun _ => .waiting⟩

variable [DecidableEq ι]

/-- The scene after a step of one of the calls. -/
def put (s : Scene ι) (i : ι) (stage : Stage) (world : World Store) : Scene ι :=
  ⟨world, Function.update s.stage i stage⟩

@[simp] lemma put_world (s : Scene ι) (i : ι) (stage : Stage) (world : World Store) :
    (s.put i stage world).world = world := rfl

@[simp] lemma put_stage_self (s : Scene ι) (i : ι) (stage : Stage) (world : World Store) :
    (s.put i stage world).stage i = stage := Function.update_self ..

lemma put_stage_of_ne (s : Scene ι) {i j : ι} (ne : j ≠ i) (stage : Stage) (world : World Store) :
    (s.put i stage world).stage j = s.stage j := Function.update_of_ne ne ..

@[simp] lemma put_put (s : Scene ι) (i : ι) (stage stage' : Stage) (world world' : World Store) :
    (s.put i stage world).put i stage' world' = s.put i stage' world' := by
  simp [put]

end Scene

section

variable {ι : Type} [DecidableEq ι]

/-- The steps that can be taken in a scene. A clock shows only instants that can be represented. -/
inductive Step (c : Crowd ι) (s : Scene ι) : Move ι → Scene ι → Prop where
  /-- Without the cache the tool starts at once. -/
  | bypass {i : ι} {events : List Event} (waiting : s.stage i = .waiting)
      (entered : (c.middleware i).enter (c.call i) = (none, events)) :
      Step c s (.enter i) (s.put i (.running none) (s.world.emit events).countRun.2)
  | enter {i : ι} {key : String} {events : List Event} (waiting : s.stage i = .waiting)
      (entered : (c.middleware i).enter (c.call i) = (some key, events)) :
      Step c s (.enter i) (s.put i (.lookingUp key) (s.world.emit events))
  | hit {i : ι} {key : String} {value : Bytes} {store : Store} (keyed : s.stage i = .lookingUp key)
      (found : s.world.store.startGet s.world.now key = (.answered (some value), store)) :
      Step c s (.lookUp i) (s.put i (.ended (.ok value))
        (World.emit { s.world with store := store }
          [Middleware.lookupEvent (c.call i) key (some value)]))
  | miss {i : ι} {key : String} {store : Store} (keyed : s.stage i = .lookingUp key)
      (found : s.world.store.startGet s.world.now key = (.answered none, store)) :
      Step c s (.lookUp i) (s.put i (.running (some key))
        (World.emit { s.world with store := store }
          [Middleware.lookupEvent (c.call i) key none]).countRun.2)
  | meet {i : ι} {key : String} {store : Store} (keyed : s.stage i = .lookingUp key)
      (found : s.world.store.startGet s.world.now key = (.purging, store)) :
      Step c s (.lookUp i) (s.put i (.purging key) { s.world with store := store })
  | purge {i : ι} {key : String} (met : s.stage i = .purging key) :
      Step c s (.purge i) (s.put i (.running (some key))
        ((s.world.receive (s.world.store.finishGet s.world.now key)).2.emit
          [Middleware.lookupEvent (c.call i) key none]).countRun.2)
  | complete {i : ι} {key? : Option String} (outcome : Outcome)
      (running : s.stage i = .running key?) :
      Step c s (.complete i outcome) (s.put i (.finishing key? outcome) s.world)
  | finish {i : ι} {key? : Option String} {outcome : Outcome}
      (finishing : s.stage i = .finishing key? outcome) :
      Step c s (.finish i) (s.put i (.ended outcome)
        ((c.middleware i).finish .memory (c.context i) (c.call i) key? outcome s.world))
  | pass {time later : Nat} (fits : Instant.after? s.world.now time = some later) :
      Step c s (.pass time) { s with world := { s.world with now := later } }

/-- What has happened: the scenes and the moves made in them, the latest first. -/
abbrev History (ι : Type) := List (Scene ι × Move ι)

/-- Steps one after another from a scene on. -/
inductive Run (c : Crowd ι) (start : Scene ι) : History ι → Scene ι → Prop where
  | start : Run c start [] start
  | step {history : History ι} {s s' : Scene ι} {move : Move ι} (run : Run c start history s)
      (next : Step c s move s') : Run c start ((s, move) :: history) s'

/-- Steps after steps. -/
lemma Run.trans {c : Crowd ι} {start s s' : Scene ι} {history later : History ι}
    (run : Run c start history s) (next : Run c s later s') :
    Run c start (later ++ history) s' := by
  induction next with
  | start => exact run
  | step _ next ih => exact ih.step next

/-! ### A call without a break -/

/-- The part of a call before the run of its tool. -/
lemma run_start (c : Crowd ι) (s : Scene ι) {i : ι} (waiting : s.stage i = .waiting) :
    ∃ history, Run c s history
      (match (c.middleware i).start .memory (c.context i) (c.call i) s.world with
      | (.answered value, w) => s.put i (.ended (.ok value)) w
      | (.run key?, w) => s.put i (.running key?) w.countRun.2) := by
  rcases entered : (c.middleware i).enter (c.call i) with ⟨_ | key, events⟩
  · have bypassed := Run.start.step (Step.bypass waiting entered)
    exact ⟨_, by simpa [Middleware.start, entered] using bypassed⟩
  · have run := Run.start.step (Step.enter waiting entered)
    have keyed := s.put_stage_self i (.lookingUp key) (s.world.emit events)
    simp only [Middleware.start, entered, World.get, World.receive, Backend.memory, Store.get]
    rcases found : s.world.store.startGet s.world.now key with ⟨(_ | value) | _, store⟩
    · have missed := run.step (Step.miss keyed found)
      exact ⟨_, by simpa [found, World.emit] using missed⟩
    · have answered := run.step (Step.hit keyed found)
      exact ⟨_, by simpa [found, World.emit] using answered⟩
    · have met := run.step (Step.meet keyed found)
      have purged := met.step (Step.purge (Scene.put_stage_self _ i _ _))
      exact ⟨_, by simpa [found, World.emit, World.receive] using purged⟩

/-- The end of the run of a tool and the part of the call after it. -/
lemma run_finish {c : Crowd ι} {start s : Scene ι} {history : History ι} {i : ι}
    {key? : Option String} (run : Run c start history s) (running : s.stage i = .running key?)
    (outcome : Outcome) :
    ∃ longer, Run c start longer (s.put i (.ended outcome)
      ((c.middleware i).finish .memory (c.context i) (c.call i) key? outcome s.world)) := by
  have completed := run.step (Step.complete (i := i) outcome running)
  have finished := completed.step (Step.finish (i := i) (Scene.put_stage_self _ i _ _))
  rw [Scene.put_put] at finished
  exact ⟨_, finished⟩

/-- A call whose steps follow one another without a break is just `Middleware.execute`, for every
outcome of its tool and every time that the tool takes. -/
theorem run_execute (c : Crowd ι) (s : Scene ι) {i : ι} (waiting : s.stage i = .waiting)
    (delay : Nat) (outcome : Outcome) (fits : s.world.now + delay ≤ Instant.last) :
    ∃ history, Run c s history
      (s.put i (.ended ((c.middleware i).execute .memory (c.context i) (c.call i)
          (Trial.tool ⟨c.call i, c.context i, delay, outcome⟩) s.world).1)
        ((c.middleware i).execute .memory (c.context i) (c.call i)
          (Trial.tool ⟨c.call i, c.context i, delay, outcome⟩) s.world).2) := by
  obtain ⟨history, run⟩ := run_start c s waiting
  have clock := ((c.middleware i).start_memory (c.context i) (c.call i) s.world).2.1
  rw [Middleware.execute]
  rcases started : (c.middleware i).start .memory (c.context i) (c.call i) s.world with
    ⟨value | key?, w⟩
  · rw [started] at run
    exact ⟨history, run⟩
  · rw [started] at run clock
    have now : w.countRun.2.now = s.world.now := clock
    have passed := run.step (Step.pass (if_pos (now.symm ▸ fits)))
    obtain ⟨longer, ended⟩ := run_finish passed (Scene.put_stage_self s i _ _) outcome
    exact ⟨longer, by simpa [Scene.put, Trial.tool, World.advance] using ended⟩

end

end ReadThrough
