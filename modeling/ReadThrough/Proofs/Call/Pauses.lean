import ReadThrough.Call.Together
import ReadThrough.Proofs.Call.Parts

/-!
The pauses of calls of scripted tools that run together: the clock never goes back, and every call
ends.

* `Task.pauses`, `Task.allPauses`: the greatest number of pauses that are left.
* `World.tokensOf`: a world but for its tokens. To make a context changes nothing else
  (`openContext_tokensOf`).
* `enter_cases`: how a call comes to the run of its tool, or to an answer of the cache.
* `Shorter`: what a stretch of a task leaves to do. A task that is launched or that goes on has no
  pause that ends before the instant of the stretch (`shorter_launch`, `shorter_wake`).
* `wakeAll_pauses`: each jump of the clock ends a pause.
* `passTime_pauses`: with as many jumps as there are pauses all tasks end.
* `isSome_of_mem_callTogether`: every call has an outcome.
-/

namespace ReadThrough

namespace Task

/-- The greatest number of pauses that are left to a task. -/
def pauses : Task → Nat
  | .ended _ => 0
  | .paused _ _ behaviour _ => behaviour.depth

/-- The greatest number of pauses that are left to tasks. -/
def allPauses : List Task → Nat
  | [] => 0
  | task :: rest => task.pauses + allPauses rest

/-- A task that is paused does not wake before an instant. -/
def WakesFrom (now : Nat) (task : Task) : Prop :=
  ∀ t, task.wakesAt? = some t → now ≤ t

lemma earliest?_eq_min? (tasks : List Task) :
    earliest? tasks = (tasks.filterMap wakesAt?).min? := by
  induction tasks with
  | nil => rfl
  | cons task rest ih =>
      rw [earliest?, ih, List.filterMap_cons]
      cases task.wakesAt? with
      | none => rfl
      | some s =>
          rw [List.min?_cons]
          cases (rest.filterMap wakesAt?).min? <;> rfl

/-- Without an instant at which one wakes, all tasks have ended. -/
lemma isSome_outcome?_of_earliest?_eq_none {tasks : List Task} (h : earliest? tasks = none) :
    ∀ task ∈ tasks, task.outcome?.isSome = true := by
  rw [earliest?_eq_min?, List.min?_eq_none_iff, List.filterMap_eq_nil_iff] at h
  intro task mem
  cases task with
  | ended outcome => rfl
  | paused instant frame behaviour outer => exact absurd (h _ mem) (Option.some_ne_none _)

lemma earliest?_eq_some {tasks : List Task} {t : Nat} (h : earliest? tasks = some t) :
    (∃ task ∈ tasks, task.wakesAt? = some t) ∧ ∀ task ∈ tasks, task.WakesFrom t := by
  rw [earliest?_eq_min?, List.min?_eq_some_iff] at h
  obtain ⟨found, least⟩ := h
  exact ⟨List.mem_filterMap.mp found,
    fun task mem s wakes => least s (List.mem_filterMap.mpr ⟨task, mem, wakes⟩)⟩

end Task

lemma Behaviour.depth_pos (behaviour : Behaviour) : 0 < behaviour.depth := by
  cases behaviour <;> simp [depth]

/-- A world with the tokens of another, and with its word on whether a timeout went too far. -/
def World.tokensOf {σ : Type} (w base : World σ) : World σ :=
  { w with forest := base.forest, overflowed := base.overflowed }

/-- To make the context of a request changes nothing else. -/
lemma World.openContext_tokensOf {σ : Type} (w base : World σ) (request : Request) :
    (w.openContext request).2.tokensOf base = w.tokensOf base := by
  simp only [openContext]
  rcases request.timeout with _ | time
  · rfl
  · dsimp only
    cases (Context.fresh w.forest).1.withTimeout? w.now time <;> rfl

lemma World.openContext_now {σ : Type} (w : World σ) (request : Request) :
    (w.openContext request).2.now = w.now := by
  have same := congrArg now (w.openContext_tokensOf w request)
  exact same

lemma Middleware.start_now {σ : Type} (m : Middleware) (b : Backend σ) (c : Context) (call : Call)
    (w : World σ) : (m.start b c call w).2.now = w.now := by
  rw [start]
  rcases m.enter call with ⟨_ | key, events⟩
  · rfl
  · simp only [World.get, World.receive, World.emit]
    split <;> rfl

namespace Rehearsal

section

variable {σ : Type} (r : Rehearsal σ)

/-- What a task has left to do after a stretch of it: fewer pauses than a number, none of which ends
before the instant of that stretch. -/
structure Shorter (w : World σ) (pauses : Nat) (reply : Task × World σ) : Prop where
  now : reply.2.now = w.now
  later : reply.1.WakesFrom w.now
  fewer : reply.1.pauses < pauses

lemma Shorter.mono {w w' : World σ} {pauses pauses' : Nat} {reply : Task × World σ}
    (h : Shorter w' pauses reply) (now : w'.now = w.now) (le : pauses ≤ pauses') :
    Shorter w pauses' reply :=
  ⟨h.now.trans now, now ▸ h.later, Nat.lt_of_lt_of_le h.fewer le⟩

/-- A task that has ended has no pauses left. -/
lemma shorter_ended {w : World σ} {pauses : Nat} (left : 0 < pauses) {reply : Task × World σ}
    {outcome : Outcome} (ended : reply.1 = .ended outcome) (now : reply.2.now = w.now) :
    Shorter w pauses reply :=
  ⟨now, by simp [ended, Task.WakesFrom, Task.wakesAt?], by simpa [ended, Task.pauses] using left⟩

/-- A task that pauses once more. -/
lemma shorter_paused {w : World σ} {pauses : Nat} {behaviour : Behaviour}
    (left : behaviour.depth < pauses) (delay : Nat) (frame : Frame) (outer : List Frame) :
    Shorter w pauses (.paused (w.now + delay) frame behaviour outer, w) := by
  refine ⟨rfl, ?_, left⟩
  rintro t ⟨⟩
  exact Nat.le_add_right _ _

lemma exists_settle_eq (frame : Frame) (outcome : Outcome) (outer : List Frame) (w : World σ) :
    ∃ last, (r.settle frame outcome outer w).1 = .ended last ∧
      (r.settle frame outcome outer w).2.now = w.now := by
  induction outer generalizing frame outcome w with
  | nil => exact ⟨outcome, rfl, (Middleware.finish_now ..).1⟩
  | cons next rest ih =>
      obtain ⟨last, ended, now⟩ := ih next (.ok (Behaviour.nestedBytes next.run outcome))
        (r.middleware.finish r.backend frame.context frame.request.call frame.key outcome w)
      exact ⟨last, ended, now.trans (Middleware.finish_now ..).1⟩

lemma shorter_settle (frame : Frame) (outcome : Outcome) (outer : List Frame) (w : World σ)
    {pauses : Nat} (left : 0 < pauses) : Shorter w pauses (r.settle frame outcome outer w) := by
  obtain ⟨last, ended, now⟩ := r.exists_settle_eq frame outcome outer w
  exact shorter_ended left ended now

/-- The ways in which a call comes to the run of its tool, or to an answer of the cache. -/
lemma enter_cases {request : Request} {w w' : World σ} {entered : Except Bytes Frame}
    (h : r.enter request w = (entered, w')) :
    let opened := w.openContext request
    let started := r.middleware.start r.backend opened.1 request.call opened.2
    (∃ value, entered = .error value ∧ started = (.answered value, w')) ∨
      ∃ frame later, entered = .ok frame ∧ frame.request = request ∧
        started = (.run frame.key, later) ∧ w' = later.countRun.2 := by
  intro opened started
  simp only [enter] at h
  rcases eq : r.middleware.start r.backend (w.openContext request).1 request.call
    (w.openContext request).2 with ⟨value | key, later⟩
  · rw [eq] at h
    obtain ⟨rfl, rfl⟩ := Prod.mk.inj h
    exact Or.inl ⟨value, rfl, eq⟩
  · rw [eq] at h
    obtain ⟨rfl, rfl⟩ := Prod.mk.inj h
    exact Or.inr ⟨_, later, rfl, rfl, eq, rfl⟩

lemma enter_request {request : Request} {w w' : World σ} {frame : Frame}
    (h : r.enter request w = (.ok frame, w')) : frame.request = request := by
  rcases r.enter_cases h with ⟨value, eq, -⟩ | ⟨own, later, eq, made, -⟩
  · exact absurd eq (by simp)
  · rwa [← Except.ok.inj eq] at made

lemma enter_now {request : Request} {w w' : World σ} {entered : Except Bytes Frame}
    (h : r.enter request w = (entered, w')) : w'.now = w.now := by
  have opened := w.openContext_now request
  have started := r.middleware.start_now r.backend (w.openContext request).1 request.call
    (w.openContext request).2
  rcases r.enter_cases h with ⟨value, -, eq⟩ | ⟨frame, later, -, -, eq, rfl⟩
  · exact (eq ▸ started).trans opened
  · exact (eq ▸ started).trans opened

/-- A task that goes on has fewer pauses left. -/
lemma shorter_wake (frame : Frame) (outer : List Frame) (behaviour : Behaviour) (w : World σ) :
    Shorter w behaviour.depth (r.wake frame outer behaviour w) := by
  induction behaviour generalizing frame outer w with
  | nested request inner ih =>
      rw [wake]
      rcases entered : r.enter request w with ⟨value | next, w'⟩
      · exact (r.shorter_settle frame _ outer w' inner.depth_pos).mono (r.enter_now entered)
          (Nat.le_succ _)
      · dsimp only
        split_ifs with immediate
        · exact (ih next (frame :: outer) w').mono (r.enter_now entered) (Nat.le_succ _)
        · exact (shorter_paused (Nat.lt_succ_self _) ..).mono (r.enter_now entered) Nat.le.refl
  | _ => exact r.shorter_settle frame _ outer w (Nat.succ_pos 0)

lemma shorter_launch (request : Request) (behaviour : Behaviour) (w : World σ) :
    Shorter w (behaviour.depth + 1) (r.launch request behaviour w) := by
  rw [launch]
  rcases entered : r.enter request w with ⟨value | frame, w'⟩
  · exact shorter_ended (Nat.succ_pos _) rfl (r.enter_now entered)
  · dsimp only
    split_ifs with immediate
    · exact (r.shorter_wake frame [] behaviour w').mono (r.enter_now entered) (Nat.le_succ _)
    · exact (shorter_paused (Nat.lt_succ_self _) ..).mono (r.enter_now entered) Nat.le.refl

/-- All calls up to their first pauses. -/
lemma launchAll_pauses (calls : List (Request × Behaviour)) (w : World σ) :
    (r.launchAll calls w).2.now = w.now ∧
      (∀ task ∈ (r.launchAll calls w).1, task.WakesFrom w.now) ∧
      Task.allPauses (r.launchAll calls w).1 ≤ pauses calls := by
  induction calls generalizing w with
  | nil => exact ⟨rfl, List.forall_mem_nil _, Nat.le.refl⟩
  | cons first rest ih =>
      obtain ⟨now, later, fewer⟩ := r.shorter_launch first.1 first.2 w
      obtain ⟨now', later', fewer'⟩ := ih (r.launch first.1 first.2 w).2
      refine ⟨now'.trans now, List.forall_mem_cons.mpr ⟨later, now ▸ later'⟩, ?_⟩
      exact Nat.add_le_add (Nat.le_of_lt_succ fewer) fewer'

/-- A task whose pause is over goes on; another one stays as it is. -/
def resume : Task → World σ → Task × World σ
  | .ended outcome, w => (.ended outcome, w)
  | .paused instant frame behaviour outer, w =>
    if instant ≤ w.now then r.wake frame outer behaviour w
    else (.paused instant frame behaviour outer, w)

lemma wakeAll_cons (task : Task) (rest : List Task) (w : World σ) :
    r.wakeAll (task :: rest) w =
      ((r.resume task w).1 :: (r.wakeAll rest (r.resume task w).2).1,
        (r.wakeAll rest (r.resume task w).2).2) := by
  cases task with
  | ended outcome => rfl
  | paused instant frame behaviour outer =>
      rw [wakeAll, resume]
      split_ifs <;> rfl

/-- A task that goes on has fewer pauses left. -/
lemma resume_pauses (task : Task) (w : World σ) :
    (r.resume task w).2.now = w.now ∧ (r.resume task w).1.WakesFrom w.now ∧
      (r.resume task w).1.pauses ≤ task.pauses ∧
      (task.wakesAt? = some w.now → (r.resume task w).1.pauses < task.pauses) := by
  cases task with
  | ended outcome =>
      refine ⟨rfl, ?_, Nat.le.refl, ?_⟩ <;> simp [resume, Task.WakesFrom, Task.wakesAt?]
  | paused instant frame behaviour outer =>
      rw [resume]
      split_ifs with due
      · obtain ⟨now, later, fewer⟩ := r.shorter_wake frame outer behaviour w
        exact ⟨now, later, Nat.le_of_lt fewer, fun _ => fewer⟩
      · refine ⟨rfl, ?_, Nat.le.refl, ?_⟩
        · rintro t ⟨⟩
          exact Nat.le_of_not_le due
        · rintro ⟨⟩
          exact absurd Nat.le.refl due

/-- All tasks whose pauses are over up to their next pauses. If there is one, fewer pauses are
left. -/
lemma wakeAll_pauses (tasks : List Task) (w : World σ) :
    (r.wakeAll tasks w).2.now = w.now ∧
      (∀ task ∈ (r.wakeAll tasks w).1, task.WakesFrom w.now) ∧
      Task.allPauses (r.wakeAll tasks w).1 ≤ Task.allPauses tasks ∧
      ∀ task ∈ tasks, task.wakesAt? = some w.now →
        Task.allPauses (r.wakeAll tasks w).1 < Task.allPauses tasks := by
  induction tasks generalizing w with
  | nil => exact ⟨rfl, List.forall_mem_nil _, Nat.le.refl, List.forall_mem_nil _⟩
  | cons task rest ih =>
      obtain ⟨now, later, fewer, woken⟩ := r.resume_pauses task w
      obtain ⟨now', later', fewer', woken'⟩ := ih (r.resume task w).2
      rw [now] at now' later' woken'
      rw [wakeAll_cons]
      refine ⟨now', List.forall_mem_cons.mpr ⟨later, later'⟩, Nat.add_le_add fewer fewer',
        List.forall_mem_cons.mpr ⟨fun wakes => ?_, fun other mem wakes => ?_⟩⟩
      · exact Nat.add_lt_add_of_lt_of_le (woken wakes) fewer'
      · exact Nat.add_lt_add_of_le_of_lt fewer (woken' other mem wakes)

lemma isSome_outcome?_of_allPauses_eq_zero {tasks : List Task}
    (none_left : Task.allPauses tasks = 0) : ∀ task ∈ tasks, task.outcome?.isSome = true := by
  induction tasks with
  | nil => exact List.forall_mem_nil _
  | cons task rest ih =>
      obtain ⟨own, others⟩ := Nat.add_eq_zero_iff.mp none_left
      refine List.forall_mem_cons.mpr ⟨?_, ih others⟩
      cases task with
      | ended outcome => rfl
      | paused instant frame behaviour outer => exact absurd own (Nat.ne_of_gt behaviour.depth_pos)

/-- The clock never goes back, and with as many jumps as there are pauses left all tasks end. -/
lemma passTime_pauses (jumps : Nat) {tasks : List Task} {w : World σ}
    (later : ∀ task ∈ tasks, task.WakesFrom w.now) :
    w.now ≤ (r.passTime jumps tasks w).2.now ∧
      (Task.allPauses tasks ≤ jumps →
        ∀ task ∈ (r.passTime jumps tasks w).1, task.outcome?.isSome = true) := by
  induction jumps generalizing tasks w with
  | zero =>
      exact ⟨Nat.le.refl, fun few =>
        isSome_outcome?_of_allPauses_eq_zero (Nat.le_zero.mp few)⟩
  | succ jumps ih =>
      rw [passTime]
      cases earliest : Task.earliest? tasks with
      | none => exact ⟨Nat.le.refl, fun _ => Task.isSome_outcome?_of_earliest?_eq_none earliest⟩
      | some instant =>
          obtain ⟨⟨first, mem, wakes⟩, -⟩ := Task.earliest?_eq_some earliest
          obtain ⟨now, later', -, woken⟩ := r.wakeAll_pauses tasks { w with now := instant }
          obtain ⟨forward, ended⟩ := ih (now.symm ▸ later')
          refine ⟨?_, fun few => ended ?_⟩
          · exact Nat.le_trans (later first mem instant wakes)
              (Nat.le_trans (Nat.le_of_eq now.symm) forward)
          · exact Nat.le_of_lt_succ (Nat.lt_of_lt_of_le (woken first mem wakes) few)

lemma length_launchAll (calls : List (Request × Behaviour)) (w : World σ) :
    (r.launchAll calls w).1.length = calls.length := by
  induction calls generalizing w with
  | nil => rfl
  | cons first rest ih => exact congrArg (· + 1) (ih (r.launch first.1 first.2 w).2)

lemma length_wakeAll (tasks : List Task) (w : World σ) :
    (r.wakeAll tasks w).1.length = tasks.length := by
  induction tasks generalizing w with
  | nil => rfl
  | cons task rest ih =>
      rw [wakeAll_cons]
      exact congrArg (· + 1) (ih (r.resume task w).2)

lemma length_passTime (jumps : Nat) (tasks : List Task) (w : World σ) :
    (r.passTime jumps tasks w).1.length = tasks.length := by
  induction jumps generalizing tasks w with
  | zero => rfl
  | succ jumps ih =>
      rw [passTime]
      cases Task.earliest? tasks with
      | none => rfl
      | some instant => exact (ih _ _).trans (r.length_wakeAll tasks _)

/-- Every call that runs together with others has an outcome. -/
lemma length_callTogether (calls : List (Request × Behaviour)) (w : World σ) :
    (r.callTogether calls w).1.length = calls.length :=
  (List.length_map _).trans ((r.length_passTime ..).trans (r.length_launchAll calls w))

/-- Calls that run together all end. -/
lemma isSome_of_mem_callTogether (calls : List (Request × Behaviour)) (w : World σ) :
    ∀ outcome? ∈ (r.callTogether calls w).1, outcome?.isSome = true := by
  obtain ⟨now, later, fewer⟩ := r.launchAll_pauses calls w
  have ended := (r.passTime_pauses (pauses calls) (now.symm ▸ later)).2 fewer
  exact List.forall_mem_map.mpr ended

end

end Rehearsal

end ReadThrough
