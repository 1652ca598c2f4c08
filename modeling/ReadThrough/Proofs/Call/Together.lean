import ReadThrough.Proofs.Call.Interleaving
import ReadThrough.Proofs.Call.Pauses

/-!
Calls of scripted tools that run together on one thread are calls that overlap: whatever they do is
done by steps of a crowd.

* `Middleware.together`: the crowd of such calls. A call has its place in the list and its depth:
  the call at depth zero is the one that was given, and its tool makes the next.
* `start_tokensOf`, `finish_tokensOf`: the store does not heed contexts, so that the parts of a call
  do not depend on tokens. The calls of a crowd have their contexts from the start, and none of its
  steps makes tokens.
* `Ahead`, `AtWork`, `Shows`: how a scene shows the calls that are still to come, and a task.
* `Moves`, `Leads`: steps of the calls of some places only, and what they lead to.
* `leads_settle`, `leads_wake`, `leads_launch`: one stretch of a task is made of such steps, and so
  is what all tasks do at one instant (`leads_launchAll`, `leads_wakeAll`).
* `callTogether_run`: calls that run together come to their outcomes in a run of their crowd.
-/

namespace ReadThrough

/-! ### The crowd of calls that run together -/

/-- The call so many levels deep: that of a request, or the one that the tool of the call above it
makes. -/
def Behaviour.callAt : Nat → Request → Behaviour → Call
  | depth + 1, _, .nested request inner => inner.callAt depth request
  | _, request, _ => request.call

/-- The crowd of calls that run together. A call has a place in the list and a depth. -/
def Middleware.together (m : Middleware) (calls : List (Request × Behaviour)) :
    Crowd (Nat × Nat) where
  keyer := m.keyer
  policy _ := m.policy
  skipRule _ := m.skipRule
  context _ := ⟨0, none⟩
  call i :=
    match calls[i.1]? with
    | some (request, behaviour) => behaviour.callAt i.2 request
    | none => ⟨"", .null, []⟩

namespace World

variable (w base : World Store)

/-- The part of a call before the run of its tool does not depend on contexts. -/
lemma start_tokensOf (m : Middleware) (c d : Context) (call : Call) :
    m.start .memory d call (w.tokensOf base) =
      ((m.start .memory c call w).1, (m.start .memory c call w).2.tokensOf base) := by
  rw [Middleware.start, Middleware.start]
  rcases m.enter call with ⟨_ | key, events⟩
  · rfl
  · simp only [get, receive, emit, tokensOf, Backend.memory]
    cases (w.store.get w.now key).answer <;> rfl

/-- The part of a call after the run of its tool does not depend on contexts. -/
lemma finish_tokensOf (m : Middleware) (c d : Context) (call : Call) (key? : Option String)
    (outcome : Outcome) :
    m.finish .memory d call key? outcome (w.tokensOf base) =
      (m.finish .memory c call key? outcome w).tokensOf base := by
  rcases key? with _ | key
  · rfl
  · cases outcome with
    | error e => rfl
    | ok value =>
        simp only [Middleware.finish, Middleware.keep]
        split_ifs
        · rfl
        · simp only [set, receive, tokensOf, Backend.memory]
          cases (w.store.set w.now key value (m.policy.lifetime 0)).answer <;> rfl

end World

section

variable {c : Crowd (Nat × Nat)} {s s' s'' : Scene (Nat × Nat)} {place depth : Nat}

/-- The calls that a tool will make have not begun yet. -/
def Ahead (c : Crowd (Nat × Nat)) (s : Scene (Nat × Nat)) (place : Nat) : Nat → Behaviour → Prop
  | depth, .nested request inner =>
    c.call (place, depth) = request.call ∧ s.stage (place, depth) = .waiting ∧
      Ahead c s place (depth + 1) inner
  | _, _ => True

/-- The calls of frames, the innermost first, have their tools at work. -/
def AtWork (c : Crowd (Nat × Nat)) (s : Scene (Nat × Nat)) (place : Nat) : List Frame → Prop
  | [] => True
  | frame :: outer =>
    c.call (place, outer.length) = frame.request.call ∧
      s.stage (place, outer.length) = .running frame.key ∧ AtWork c s place outer

/-- A scene shows a task: its calls have ended with its outcome, or they are at work or still to
come. -/
def Shows (c : Crowd (Nat × Nat)) (s : Scene (Nat × Nat)) (place : Nat) : Task → Prop
  | .ended outcome => s.stage (place, 0) = .ended outcome
  | .paused _ frame behaviour outer =>
    AtWork c s place (frame :: outer) ∧ Ahead c s place (outer.length + 1) behaviour

lemma Ahead.congr {behaviour : Behaviour} (h : Ahead c s place depth behaviour)
    (same : ∀ d, depth ≤ d → s'.stage (place, d) = s.stage (place, d)) :
    Ahead c s' place depth behaviour := by
  induction behaviour generalizing depth with
  | nested request inner ih =>
      obtain ⟨called, waiting, deeper⟩ := h
      exact ⟨called, (same depth Nat.le.refl).trans waiting,
        ih deeper fun d le => same d (Nat.le_of_succ_le le)⟩
  | _ => trivial

lemma AtWork.congr {frames : List Frame} (h : AtWork c s place frames)
    (same : ∀ d < frames.length, s'.stage (place, d) = s.stage (place, d)) :
    AtWork c s' place frames := by
  induction frames with
  | nil => trivial
  | cons frame outer ih =>
      obtain ⟨called, running, others⟩ := h
      exact ⟨called, (same outer.length (Nat.lt_succ_self _)).trans running,
        ih others fun d lt => same d (Nat.lt_succ_of_lt lt)⟩

/-- A step of a call matters only to calls of its depth. -/
lemma Ahead.put {behaviour : Behaviour} (h : Ahead c s place (depth + 1) behaviour)
    (stage : Stage) (world : World Store) :
    Ahead c (s.put (place, depth) stage world) place (depth + 1) behaviour :=
  h.congr fun _ lt => s.put_stage_of_ne (fun eq => Nat.ne_of_gt lt (congrArg Prod.snd eq)) _ _

lemma AtWork.put {frames : List Frame} (h : AtWork c s place frames) (stage : Stage)
    (world : World Store) : AtWork c (s.put (place, frames.length) stage world) place frames :=
  h.congr fun _ lt => s.put_stage_of_ne (fun eq => Nat.ne_of_lt lt (congrArg Prod.snd eq)) _ _

lemma Shows.congr {task : Task} (h : Shows c s place task)
    (same : ∀ d, s'.stage (place, d) = s.stage (place, d)) : Shows c s' place task := by
  cases task with
  | ended outcome => exact (same 0).trans h
  | paused instant frame behaviour outer =>
      exact ⟨h.1.congr fun d _ => same d, h.2.congr fun d _ => same d⟩

/-! ### Stretches are made of steps -/

/-- Steps of the calls of some places, after which the calls of all other places stand where they
stood. -/
structure Moves (c : Crowd (Nat × Nat)) (places : Nat → Prop) (s s' : Scene (Nat × Nat)) :
    Prop where
  run : ∃ history, Run c s history s'
  others : ∀ place depth, ¬places place → s'.stage (place, depth) = s.stage (place, depth)

namespace Moves

variable {places : Nat → Prop}

lemma refl : Moves c places s s := ⟨⟨[], .start⟩, fun _ _ _ => rfl⟩

lemma trans (h : Moves c places s s') (h' : Moves c places s' s'') : Moves c places s s'' := by
  obtain ⟨_, run⟩ := h.run
  obtain ⟨_, next⟩ := h'.run
  exact ⟨⟨_, run.trans next⟩, fun place depth other =>
    (h'.others place depth other).trans (h.others place depth other)⟩

lemma mono {more : Nat → Prop} (h : Moves c places s s')
    (imp : ∀ place, places place → more place) : Moves c more s s' :=
  ⟨h.run, fun place depth other => h.others place depth fun own => other (imp place own)⟩

/-- Steps of one call. -/
lemma put {stage : Stage} {world : World Store} {history : History (Nat × Nat)}
    (run : Run c s history (s.put (place, depth) stage world)) :
    Moves c (· = place) s (s.put (place, depth) stage world) :=
  ⟨⟨history, run⟩, fun _ _ other =>
    s.put_stage_of_ne (fun same => other (congrArg Prod.fst same)) _ _⟩

end Moves

variable {m : Middleware} {w w' base : World Store}

/-- How far a call has come that is answered by the cache, or whose tool is at work. -/
def Stage.afterEnter : Except Bytes Frame → Stage
  | .error value => .ended (.ok value)
  | .ok frame => .running frame.key

/-- A call comes to the run of its tool, or to an answer of the cache. -/
lemma moves_enter (same : ∀ i, c.middleware i = m) (world : s.world = w.tokensOf base)
    {request : Request} (called : c.call (place, depth) = request.call)
    (waiting : s.stage (place, depth) = .waiting) {entered : Except Bytes Frame}
    (h : (Rehearsal.mk m .memory).enter request w = (entered, w')) :
    Moves c (· = place) s (s.put (place, depth) (.afterEnter entered) (w'.tokensOf base)) := by
  obtain ⟨history, run⟩ := run_start c s waiting
  rw [same, called, world, ← w.openContext_tokensOf base request,
    World.start_tokensOf _ base m (w.openContext request).1] at run
  rcases Rehearsal.enter_cases _ h with ⟨value, rfl, eq⟩ | ⟨frame, later, rfl, -, eq, rfl⟩
  · rw [eq] at run
    exact .put run
  · rw [eq] at run
    exact .put run

/-- The tool of a call ends, and the call with it. -/
lemma moves_finish (same : ∀ i, c.middleware i = m) (world : s.world = w.tokensOf base)
    {call : Call} (called : c.call (place, depth) = call) {key? : Option String}
    (running : s.stage (place, depth) = .running key?) (context : Context) (outcome : Outcome) :
    Moves c (· = place) s (s.put (place, depth) (.ended outcome)
      ((m.finish .memory context call key? outcome w).tokensOf base)) := by
  obtain ⟨history, run⟩ := run_finish Run.start running outcome
  rw [same, called, world, World.finish_tokensOf w base m context] at run
  exact .put run

/-- Steps of one place lead to a scene that shows a task and its world. -/
def Leads (c : Crowd (Nat × Nat)) (base : World Store) (place : Nat) (s : Scene (Nat × Nat))
    (reply : Task × World Store) : Prop :=
  ∃ s', Moves c (· = place) s s' ∧ s'.world = reply.2.tokensOf base ∧ Shows c s' place reply.1

lemma Leads.after {reply : Task × World Store} (h : Leads c base place s' reply)
    (before : Moves c (· = place) s s') : Leads c base place s reply := by
  obtain ⟨last, moves, world, shows⟩ := h
  exact ⟨last, before.trans moves, world, shows⟩

/-- The innermost call ends, and with it every outer one. -/
lemma leads_settle (same : ∀ i, c.middleware i = m) {frame : Frame} {outer : List Frame}
    (world : s.world = w.tokensOf base) (work : AtWork c s place (frame :: outer))
    (outcome : Outcome) :
    Leads c base place s ((Rehearsal.mk m .memory).settle frame outcome outer w) := by
  induction outer generalizing s w frame outcome with
  | nil =>
      obtain ⟨called, running, -⟩ := work
      exact ⟨_, moves_finish same world called running frame.context outcome, rfl,
        s.put_stage_self _ _ _⟩
  | cons next rest ih =>
      obtain ⟨called, running, others⟩ := work
      have first := moves_finish same world called running frame.context outcome
      exact (ih rfl (others.put _ _) _).after first

/-- When a call has come to the run of its tool, it stands in front of the calls around it. -/
lemma AtWork.next {outer : List Frame} (work : AtWork c s place outer) {frame : Frame}
    {inner : Behaviour} (ahead : Ahead c s place outer.length (.nested frame.request inner))
    (world : World Store) :
    let s' := s.put (place, outer.length) (.running frame.key) world
    AtWork c s' place (frame :: outer) ∧ Ahead c s' place (outer.length + 1) inner := by
  obtain ⟨called, -, deeper⟩ := ahead
  exact ⟨⟨called, s.put_stage_self _ _ _, work.put _ _⟩, deeper.put _ _⟩

/-- A tool behaves, up to the next pause or the end. -/
lemma leads_wake (same : ∀ i, c.middleware i = m) {frame : Frame} {outer : List Frame}
    {behaviour : Behaviour} (world : s.world = w.tokensOf base)
    (work : AtWork c s place (frame :: outer))
    (ahead : Ahead c s place (outer.length + 1) behaviour) :
    Leads c base place s ((Rehearsal.mk m .memory).wake frame outer behaviour w) := by
  induction behaviour generalizing s w frame outer with
  | nested request inner ih =>
      have ⟨called, waiting, _⟩ := ahead
      rw [Rehearsal.wake]
      rcases entered : (Rehearsal.mk m .memory).enter request w with ⟨value | next, w'⟩
      · have first := moves_enter same world called waiting entered
        exact (leads_settle (w := w') same rfl (work.put _ _) _).after first
      · have first := moves_enter same world called waiting entered
        obtain rfl := Rehearsal.enter_request _ entered
        obtain ⟨work', ahead'⟩ := work.next ahead (w'.tokensOf base)
        dsimp only
        split_ifs
        · exact (ih rfl work' ahead').after first
        · exact ⟨_, first, rfl, work', ahead'⟩
  | _ => exact leads_settle same world work _

/-- A call goes from its start up to its first pause or its end. -/
lemma leads_launch (same : ∀ i, c.middleware i = m) {request : Request} {behaviour : Behaviour}
    (world : s.world = w.tokensOf base) (ahead : Ahead c s place 0 (.nested request behaviour)) :
    Leads c base place s ((Rehearsal.mk m .memory).launch request behaviour w) := by
  have ⟨called, waiting, _⟩ := ahead
  rw [Rehearsal.launch]
  rcases entered : (Rehearsal.mk m .memory).enter request w with ⟨value | frame, w'⟩
  · have first := moves_enter same world called waiting entered
    exact ⟨_, first, rfl, s.put_stage_self _ _ _⟩
  · have first := moves_enter same world called waiting entered
    obtain rfl := Rehearsal.enter_request _ entered
    have nothing : AtWork c s place [] := trivial
    obtain ⟨work, ahead'⟩ := nothing.next ahead (w'.tokensOf base)
    dsimp only
    split_ifs
    · exact (leads_wake (w := w') same rfl work ahead').after first
    · exact ⟨_, first, rfl, work, ahead'⟩

/-- A task whose pause is over goes on, up to its next pause or its end. -/
lemma leads_resume (same : ∀ i, c.middleware i = m) {task : Task}
    (world : s.world = w.tokensOf base) (shows : Shows c s place task) :
    Leads c base place s ((Rehearsal.mk m .memory).resume task w) := by
  cases task with
  | ended outcome => exact ⟨s, .refl, world, shows⟩
  | paused instant frame behaviour outer =>
      rw [Rehearsal.resume]
      split_ifs
      · exact leads_wake same world shows.1 shows.2
      · exact ⟨s, .refl, world, shows⟩

/-! ### All tasks -/

/-- A scene shows tasks at one place after another. -/
def ShowsAll (c : Crowd (Nat × Nat)) (s : Scene (Nat × Nat)) : Nat → List Task → Prop
  | _, [] => True
  | place, task :: rest => Shows c s place task ∧ ShowsAll c s (place + 1) rest

/-- Calls at one place after another have not begun yet. -/
def AllAhead (c : Crowd (Nat × Nat)) (s : Scene (Nat × Nat)) :
    Nat → List (Request × Behaviour) → Prop
  | _, [] => True
  | place, (request, behaviour) :: rest =>
    Ahead c s place 0 (.nested request behaviour) ∧ AllAhead c s (place + 1) rest

lemma ShowsAll.congr {tasks : List Task} (h : ShowsAll c s place tasks)
    (same : ∀ other d, place ≤ other → s'.stage (other, d) = s.stage (other, d)) :
    ShowsAll c s' place tasks := by
  induction tasks generalizing place with
  | nil => trivial
  | cons task rest ih =>
      exact ⟨h.1.congr fun d => same place d Nat.le.refl,
        ih h.2 fun other d le => same other d (Nat.le_of_succ_le le)⟩

lemma AllAhead.congr {calls : List (Request × Behaviour)} (h : AllAhead c s place calls)
    (same : ∀ other d, place ≤ other → s'.stage (other, d) = s.stage (other, d)) :
    AllAhead c s' place calls := by
  induction calls generalizing place with
  | nil => trivial
  | cons first rest ih =>
      exact ⟨h.1.congr fun d _ => same place d Nat.le.refl,
        ih h.2 fun other d le => same other d (Nat.le_of_succ_le le)⟩

/-- Steps of the places from one on lead to a scene that shows tasks and their world. -/
def LeadsAll (c : Crowd (Nat × Nat)) (base : World Store) (place : Nat) (s : Scene (Nat × Nat))
    (reply : List Task × World Store) : Prop :=
  ∃ s', Moves c (place ≤ ·) s s' ∧ s'.world = reply.2.tokensOf base ∧ ShowsAll c s' place reply.1

/-- First the task at a place, then those behind it. -/
lemma LeadsAll.cons {task : Task} {reply : List Task × World Store}
    (first : Moves c (· = place) s s') (shows : Shows c s' place task)
    (later : LeadsAll c base (place + 1) s' reply) :
    LeadsAll c base place s (task :: reply.1, reply.2) := by
  obtain ⟨last, moves, world, others⟩ := later
  refine ⟨last, (first.mono fun _ => Nat.le_of_eq ∘ Eq.symm).trans
    (moves.mono fun _ => Nat.le_of_succ_le), world, shows.congr fun d => ?_, others⟩
  exact moves.others place d (Nat.not_succ_le_self place)

/-- The places behind one are not touched by its steps. -/
lemma Moves.behind (first : Moves c (· = place) s s') (other d : Nat) (le : place + 1 ≤ other) :
    s'.stage (other, d) = s.stage (other, d) :=
  first.others other d (Nat.ne_of_gt le)

lemma leads_launchAll (same : ∀ i, c.middleware i = m) {calls : List (Request × Behaviour)}
    (world : s.world = w.tokensOf base) (ahead : AllAhead c s place calls) :
    LeadsAll c base place s ((Rehearsal.mk m .memory).launchAll calls w) := by
  induction calls generalizing s w place with
  | nil => exact ⟨s, .refl, world, trivial⟩
  | cons first rest ih =>
      obtain ⟨s', moves, world', shows⟩ := leads_launch same world ahead.1
      exact .cons moves shows (ih world' (ahead.2.congr moves.behind))

lemma leads_wakeAll (same : ∀ i, c.middleware i = m) {tasks : List Task}
    (world : s.world = w.tokensOf base) (shows : ShowsAll c s place tasks) :
    LeadsAll c base place s ((Rehearsal.mk m .memory).wakeAll tasks w) := by
  induction tasks generalizing s w place with
  | nil => exact ⟨s, .refl, world, trivial⟩
  | cons task rest ih =>
      obtain ⟨s', moves, world', shown⟩ := leads_resume same world shows.1
      rw [Rehearsal.wakeAll_cons]
      exact .cons moves shown (ih world' (shows.2.congr moves.behind))

lemma LeadsAll.after {reply : List Task × World Store} (h : LeadsAll c base place s' reply)
    (before : Moves c (place ≤ ·) s s') : LeadsAll c base place s reply := by
  obtain ⟨last, moves, world, shows⟩ := h
  exact ⟨last, before.trans moves, world, shows⟩

/-- The clock jumps to an instant that it can show. -/
lemma moves_jump (world : s.world = w.tokensOf base) {instant : Nat} (later : w.now ≤ instant)
    (fits : instant ≤ Instant.last) :
    Moves c (place ≤ ·) s ⟨World.tokensOf { w with now := instant } base, s.stage⟩ := by
  have reached : s.world.now + (instant - w.now) = instant := by
    rw [world]
    exact Nat.add_sub_cancel' later
  have after : Instant.after? s.world.now (instant - w.now) = some instant := by
    rw [Instant.after?, reached, if_pos fits]
  have passed := Run.start.step (Step.pass (c := c) after)
  rw [world] at passed
  exact ⟨⟨_, passed⟩, fun _ _ _ => rfl⟩

lemma leads_passTime (same : ∀ i, c.middleware i = m) {jumps : Nat} {tasks : List Task}
    (world : s.world = w.tokensOf base) (shows : ShowsAll c s place tasks)
    (later : ∀ task ∈ tasks, task.WakesFrom w.now)
    (fits : ((Rehearsal.mk m .memory).passTime jumps tasks w).2.now ≤ Instant.last) :
    LeadsAll c base place s ((Rehearsal.mk m .memory).passTime jumps tasks w) := by
  induction jumps generalizing s w tasks with
  | zero => exact ⟨s, .refl, world, shows⟩
  | succ jumps ih =>
      rw [Rehearsal.passTime] at fits ⊢
      cases earliest : Task.earliest? tasks with
      | none => exact ⟨s, .refl, world, shows⟩
      | some instant =>
          rw [earliest] at fits
          obtain ⟨⟨first, mem, wakes⟩, -⟩ := Task.earliest?_eq_some earliest
          obtain ⟨now, later', -⟩ :=
            (Rehearsal.mk m .memory).wakeAll_pauses tasks { w with now := instant }
          have forward := ((Rehearsal.mk m .memory).passTime_pauses jumps (now.symm ▸ later')).1
          have jumped : Moves c (place ≤ ·) s _ :=
            moves_jump world (later first mem instant wakes)
              (Nat.le_trans (Nat.le_of_eq now.symm) (Nat.le_trans forward fits))
          have shown : ShowsAll c ⟨World.tokensOf { w with now := instant } base, s.stage⟩ place
              tasks := shows.congr fun _ _ _ => rfl
          obtain ⟨s', moves, world', shows'⟩ :=
            leads_wakeAll (w := { w with now := instant }) same rfl shown
          exact (ih world' shows' (now.symm ▸ later') fits).after (jumped.trans moves)

/-! ### The run -/

lemma ahead_of_callAt {request : Request} {inner : Behaviour}
    (called : ∀ k, c.call (place, depth + k) = inner.callAt k request)
    (waiting : ∀ d, s.stage (place, d) = .waiting) :
    Ahead c s place depth (.nested request inner) := by
  induction inner generalizing request depth with
  | nested next deeper ih =>
      refine ⟨called 0, waiting depth, ih fun k => ?_⟩
      rw [Nat.add_right_comm]
      exact called (k + 1)
  | _ => exact ⟨called 0, waiting depth, trivial⟩

lemma allAhead_together (calls : List (Request × Behaviour)) (w : World Store) :
    AllAhead (m.together calls) ⟨w, fun _ => .waiting⟩ 0 calls := by
  have behind : ∀ (rest : List (Request × Behaviour)) (place : Nat),
      (∀ i, calls[place + i]? = rest[i]?) →
        AllAhead (m.together calls) ⟨w, fun _ => .waiting⟩ place rest := by
    intro rest
    induction rest with
    | nil => exact fun _ _ => trivial
    | cons first rest ih =>
        intro place given
        refine ⟨ahead_of_callAt (fun k => ?_) fun _ => rfl, ih (place + 1) fun i => ?_⟩
        · have own : calls[place]? = some first := given 0
          simp [Middleware.together, own]
        · rw [Nat.add_assoc, Nat.add_comm 1 i, given, List.getElem?_cons_succ]
  exact behind calls 0 fun i => by rw [Nat.zero_add]

/-- A scene that shows tasks has the outcomes of those that have ended. -/
lemma ShowsAll.stage_of_outcome? {tasks : List Task} (h : ShowsAll c s place tasks) {n : Nat}
    {outcome : Outcome} (ended : (tasks.map Task.outcome?)[n]? = some (some outcome)) :
    s.stage (place + n, 0) = .ended outcome := by
  induction tasks generalizing place n with
  | nil => simp at ended
  | cons task rest ih =>
      cases n with
      | zero =>
          cases task with
          | ended own =>
              obtain rfl : own = outcome := by simpa [Task.outcome?] using ended
              exact h.1
          | paused instant frame behaviour outer => simp [Task.outcome?] at ended
      | succ n =>
          have behind := ih h.2 (by simpa using ended)
          rwa [Nat.add_right_comm] at behind

/-- Calls of scripted tools that run together come to their outcomes in a run of their crowd, as
long as the clock can show the end. The run leaves the store, the events, the number of runs of
tools and the clock as they are left by the calls. Every call ends. -/
theorem callTogether_run (m : Middleware) (calls : List (Request × Behaviour)) (w : World Store)
    (fits : ((Rehearsal.mk m .memory).callTogether calls w).2.now ≤ Instant.last) :
    let reply := (Rehearsal.mk m .memory).callTogether calls w
    ∃ history s, Run (m.together calls) ⟨w, fun _ => .waiting⟩ history s ∧
      s.world = reply.2.tokensOf w ∧ reply.1.length = calls.length ∧
      ∀ n < calls.length, ∃ outcome, reply.1[n]? = some (some outcome) ∧
        s.stage (n, 0) = .ended outcome := by
  have same : ∀ i, (m.together calls).middleware i = m := fun _ => rfl
  obtain ⟨launched, moves, world, shows⟩ :=
    leads_launchAll (w := w) same rfl (allAhead_together calls w)
  obtain ⟨now, later, -⟩ := (Rehearsal.mk m .memory).launchAll_pauses calls w
  obtain ⟨s, moves', world', shows'⟩ := leads_passTime same world shows (now.symm ▸ later) fits
  obtain ⟨history, run⟩ := (moves.trans moves').run
  have length := (Rehearsal.mk m .memory).length_callTogether calls w
  refine ⟨history, s, run, world', length, fun n lt => ?_⟩
  have found := List.getElem?_eq_getElem (Nat.lt_of_lt_of_eq lt length.symm)
  obtain ⟨outcome, ended⟩ := Option.isSome_iff_exists.mp
    ((Rehearsal.mk m .memory).isSome_of_mem_callTogether calls w _ (List.mem_of_getElem? found))
  rw [ended] at found
  have stage := shows'.stage_of_outcome? found
  rw [Nat.zero_add] at stage
  exact ⟨outcome, found, stage⟩

/-- Two calls of one tool at once: the cache answers neither, and the bytes of the one that ends
last are kept. -/
example :
    let m : Middleware := ⟨fun toolId _ => .ok toolId, ⟨10, 0, false⟩, none⟩
    let slow : Request := ⟨⟨"get", .null, []⟩, false, none, 5⟩
    let fast : Request := ⟨⟨"get", .null, []⟩, false, none, 3⟩
    let reply := (Rehearsal.mk m .memory).callTogether [(slow, .give [1]), (fast, .give [2])]
      (World.start .empty)
    reply.1 = [some (.ok [1]), some (.ok [2])] ∧ reply.2.now = 5 ∧
      reply.2.store.liveAt 6 "get" = some [1] :=
  ⟨rfl, rfl, rfl⟩

end

end ReadThrough
