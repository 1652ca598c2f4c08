import ReadThrough.Proofs.Call.Interleaving

/-!
What calls return that overlap over one store.

* `outcomesOf`: the outcomes of the runs of the tool of a call.
* `Writing`, `Crowd.writings`, `lastWriting`: the writes to the store, the latest first, and the
  latest one under a key.
* `Crowd.Served`: a call was answered with the bytes of the latest write under its key, which
  another call had made from an outcome of its tool, and whose lifetime was not over.
* `Crowd.Coherent`: what holds at any time: the latest writes tell what is live in the store, each
  of them stems from a run of a tool under that key, and each call has come as far as its runs say.
* `Coherent.step`, `coherent_run`: every step keeps that, and so every run does.
* `ended_of_run`: what a call returns that has ended, whatever the order of all steps.
-/

namespace ReadThrough

variable {ι : Type} [DecidableEq ι]

/-- The outcomes of the runs of the tool of a call, the latest first. -/
def outcomesOf (i : ι) (history : History ι) : List Outcome :=
  history.filterMap fun (_, move) =>
    match move with
    | .complete j outcome => if j = i then some outcome else none
    | _ => none

/-- A write to the store: by whom, under which key, when, what, and for how long. -/
structure Writing (ι : Type) where
  writer : ι
  key : String
  instant : Nat
  value : Bytes
  lifetime : Nat

/-- The latest write under a key. -/
def lastWriting (key : String) (writings : List (Writing ι)) : Option (Writing ι) :=
  writings.find? fun w => w.key = key

namespace Crowd

variable (c : Crowd ι)

/-- The write that a move makes in a scene, if it makes one: a call that finishes writes what is to
be kept of the outcome of its tool. -/
def writing? (s : Scene ι) : Move ι → Option (Writing ι)
  | .finish i =>
    match s.stage i with
    | .finishing key? outcome =>
      ((c.middleware i).kept? key? outcome).map fun (key, value) =>
        ⟨i, key, s.world.now, value, (c.policy i).lifetime 0⟩
    | _ => none
  | _ => none

/-- The writes of a history, the latest first. -/
def writings (history : History ι) : List (Writing ι) :=
  history.filterMap fun (s, move) => c.writing? s move

/-- The result of a call is the latest write under its key at its lookup. Another call with the same
key had made the write from an outcome of its tool, and its lifetime was not over. -/
def Served (history : History ι) (i : ι) (result : Outcome) : Prop :=
  ∃ after s before key writing,
    history = after ++ (s, Move.lookUp i) :: before ∧ c.key i = .ok key ∧
      lastWriting key (c.writings before) = some writing ∧
      writing.writer ≠ i ∧ c.key writing.writer = .ok key ∧
      .ok writing.value ∈ outcomesOf writing.writer before ∧
      s.world.now < writing.instant + writing.lifetime ∧ result = .ok writing.value

/-- How far a call has come agrees with the runs of its tool and with its key. -/
def Accounted (history : History ι) (i : ι) : Stage → Prop
  | .waiting => outcomesOf i history = []
  | .lookingUp key => outcomesOf i history = [] ∧ c.key i = .ok key
  | .purging key => outcomesOf i history = [] ∧ c.key i = .ok key
  | .running key? => outcomesOf i history = [] ∧ ∀ key ∈ key?, c.key i = .ok key
  | .finishing key? outcome =>
    outcomesOf i history = [outcome] ∧ ∀ key ∈ key?, c.key i = .ok key
  | .ended result =>
    outcomesOf i history = [result] ∨ outcomesOf i history = [] ∧ c.Served history i result

/-- What holds at any time. -/
structure Coherent (history : History ι) (s : Scene ι) : Prop where
  clock : s.world.now ≤ Instant.last
  live : ∀ key later, s.world.now ≤ later → s.world.store.liveAt later key =
    (lastWriting key (c.writings history)).bind fun w =>
      (Entry.lasting w.instant w.value w.lifetime).liveAt later
  written : ∀ w ∈ c.writings history,
    c.key w.writer = .ok w.key ∧ .ok w.value ∈ outcomesOf w.writer history
  accounted : ∀ i, c.Accounted history i (s.stage i)

end Crowd

/-! ### Longer histories -/

section

variable {c : Crowd ι} {history : History ι} {s : Scene ι} {move : Move ι}

lemma outcomesOf_complete (i : ι) (outcome : Outcome) :
    outcomesOf i ((s, .complete i outcome) :: history) = outcome :: outcomesOf i history := by
  simp [outcomesOf]

lemma outcomesOf_cons_of_ne {i : ι} (ne : ∀ outcome, move ≠ .complete i outcome) :
    outcomesOf i ((s, move) :: history) = outcomesOf i history := by
  cases move with
  | complete j outcome =>
      have other : j ≠ i := fun same => ne outcome (by rw [same])
      simp [outcomesOf, other]
  | _ => rfl

lemma mem_outcomesOf_cons {i : ι} {outcome : Outcome} (mem : outcome ∈ outcomesOf i history) :
    outcome ∈ outcomesOf i ((s, move) :: history) :=
  List.Sublist.mem mem ((List.sublist_cons_self _ history).filterMap _)

lemma Crowd.Served.cons {i : ι} {result : Outcome} (served : c.Served history i result) :
    c.Served ((s, move) :: history) i result := by
  obtain ⟨after, s', before, key, writing, split, rest⟩ := served
  exact ⟨(s, move) :: after, s', before, key, writing, by rw [split, List.cons_append], rest⟩

/-- A move that is not the end of a run of its tool leaves the account of a call as it is. -/
lemma Crowd.Accounted.cons {i : ι} {stage : Stage} (accounted : c.Accounted history i stage)
    (ne : ∀ outcome, move ≠ .complete i outcome) :
    c.Accounted ((s, move) :: history) i stage := by
  have same : outcomesOf i ((s, move) :: history) = outcomesOf i history :=
    outcomesOf_cons_of_ne ne
  cases stage with
  | ended result =>
      rcases accounted with run_once | ⟨unrun, served⟩
      · exact Or.inl (same.trans run_once)
      · exact Or.inr ⟨same.trans unrun, served.cons⟩
  | _ => simpa only [Crowd.Accounted, same] using accounted

omit [DecidableEq ι] in
lemma writings_cons_of_none (silent : c.writing? s move = none) :
    c.writings ((s, move) :: history) = c.writings history :=
  List.filterMap_cons_none silent

omit [DecidableEq ι] in
lemma writings_cons_of_some {w : Writing ι} (written : c.writing? s move = some w) :
    c.writings ((s, move) :: history) = w :: c.writings history :=
  List.filterMap_cons_some written

omit [DecidableEq ι] in
lemma lastWriting_cons (key : String) (w : Writing ι) (writings : List (Writing ι)) :
    lastWriting key (w :: writings) = if w.key = key then some w else lastWriting key writings := by
  rw [lastWriting, List.find?_cons]
  by_cases same : w.key = key <;> simp [same, lastWriting]

end

namespace Crowd

variable {c : Crowd ι} {history : History ι} {s : Scene ι}

/-! ### What a step keeps -/

/-- The account of all calls after a step of one of them. -/
lemma Coherent.accounted_put (h : c.Coherent history s) {move : Move ι} {i : ι} {stage : Stage}
    (own : c.Accounted ((s, move) :: history) i stage)
    (others : ∀ j ≠ i, ∀ outcome, move ≠ .complete j outcome) (world : World Store) (j : ι) :
    c.Accounted ((s, move) :: history) j ((s.put i stage world).stage j) := by
  by_cases same : j = i
  · subst same
    rwa [Scene.put_stage_self]
  · rw [Scene.put_stage_of_ne s same]
    exact (h.accounted j).cons (others j same)

/-- The account of a call whose stage is known. -/
lemma Coherent.own (h : c.Coherent history s) {i : ι} {stage : Stage} (known : s.stage i = stage) :
    c.Accounted history i stage :=
  known ▸ h.accounted i

/-- The same after a move other than the end of a run of its tool. -/
lemma Coherent.own_cons (h : c.Coherent history s) {i : ι} {stage : Stage}
    (known : s.stage i = stage) (move : Move ι) (ne : ∀ outcome, move ≠ .complete i outcome) :
    c.Accounted ((s, move) :: history) i stage :=
  (h.own known).cons ne

/-- A call that has a key and has not run its tool may do so. -/
lemma Accounted.running {i : ι} {key : String} (own : c.Accounted history i (.lookingUp key)) :
    c.Accounted history i (.running (some key)) := by
  refine ⟨own.1, fun other mem => ?_⟩
  obtain rfl : key = other := Option.mem_some.mp mem
  exact own.2

lemma Coherent.written_cons (h : c.Coherent history s) {move : Move ι} {w : Writing ι}
    (mem : w ∈ c.writings history) : c.key w.writer = .ok w.key ∧
      .ok w.value ∈ outcomesOf w.writer ((s, move) :: history) :=
  ⟨(h.written w mem).1, mem_outcomesOf_cons (h.written w mem).2⟩

/-- A step of a call that writes nothing and takes nothing but expired entries from the store. -/
lemma Coherent.put (h : c.Coherent history s) {move : Move ι} {i : ι} {stage : Stage}
    {world : World Store} (now : world.now = s.world.now)
    (dropped : Store.DropsExpired s.world.now s.world.store world.store)
    (silent : c.writing? s move = none)
    (others : ∀ j ≠ i, ∀ outcome, move ≠ .complete j outcome)
    (own : c.Accounted ((s, move) :: history) i stage) :
    c.Coherent ((s, move) :: history) (s.put i stage world) where
  clock := by rw [Scene.put_world, now]; exact h.clock
  live key later le := by
    rw [Scene.put_world, now] at le
    rw [Scene.put_world, dropped.liveAt_eq le, writings_cons_of_none silent, h.live key later le]
  written w mem := by
    rw [writings_cons_of_none silent] at mem
    exact h.written_cons mem
  accounted := h.accounted_put own others world

/-- Living bytes that a lookup finds are the latest write under the key of the call. -/
lemma Coherent.served_of_live (h : c.Coherent history s) {i : ι} {key : String} {value : Bytes}
    (own : c.Accounted history i (.lookingUp key))
    (live : s.world.store.liveAt s.world.now key = some value) :
    c.Served ((s, .lookUp i) :: history) i (.ok value) := by
  rw [h.live key _ (Nat.le_refl _)] at live
  obtain ⟨w, last, w_live⟩ := Option.bind_eq_some_iff.mp live
  obtain ⟨rfl, fresh⟩ := Entry.liveAt_lasting_eq_some_iff.mp w_live
  obtain ⟨derived, came_from⟩ := h.written w (List.mem_of_find?_eq_some last)
  have under : w.key = key := by simpa using List.find?_some last
  -- the tool of the call itself has not run
  have other : w.writer ≠ i := by
    rintro rfl
    rw [own.1] at came_from
    exact absurd came_from (by simp)
  have young : s.world.now < w.instant + w.lifetime := by
    rcases fresh with fresh | endless
    · exact fresh
    · have clock := h.clock
      simp only [Instant.after?, ite_eq_right_iff, reduceCtorEq, imp_false] at endless
      omega
  exact ⟨[], s, history, key, w, rfl, own.2, last, other, under ▸ derived, came_from, young, rfl⟩

/-- The end of a call: what is to be kept becomes the latest write under its key. -/
lemma Coherent.finish (h : c.Coherent history s) {i : ι} {key? : Option String} {outcome : Outcome}
    (finishing : s.stage i = .finishing key? outcome) :
    c.Coherent ((s, .finish i) :: history) (s.put i (.ended outcome)
      ((c.middleware i).finish .memory (c.context i) (c.call i) key? outcome s.world)) := by
  obtain ⟨run_once, derived⟩ := h.own finishing
  have now := ((c.middleware i).finish_now .memory (c.context i) (c.call i) key? outcome s.world).1
  have entries := (c.middleware i).finish_entries (c.context i) (c.call i) key? outcome s.world
  have same_runs : outcomesOf i ((s, .finish i) :: history) = outcomesOf i history :=
    outcomesOf_cons_of_ne (by simp)
  have own : c.Accounted ((s, .finish i) :: history) i (.ended outcome) :=
    Or.inl (same_runs.trans run_once)
  have others : ∀ j ≠ i, ∀ outcome, Move.finish i ≠ .complete j outcome := by simp
  rcases kept : (c.middleware i).kept? key? outcome with _ | ⟨key, value⟩
  · rw [kept] at entries
    exact h.put now (Store.DropsExpired.of_entries_eq entries) (by simp [writing?, finishing, kept])
      others own
  · rw [kept] at entries
    obtain ⟨rfl, rfl, -, -⟩ := Middleware.kept?_eq_some_iff.mp kept
    have writing : c.writing? s (.finish i) =
        some ⟨i, key, s.world.now, value, (c.policy i).lifetime 0⟩ := by
      simp [writing?, finishing, kept]
    refine ⟨?_, fun other later le => ?_, fun w mem => ?_, h.accounted_put own others _⟩
    · rw [Scene.put_world, now]
      exact h.clock
    · rw [Scene.put_world, now] at le
      rw [Scene.put_world, Store.liveAt, entries, Table.get?_insert, writings_cons_of_some writing,
        lastWriting_cons]
      by_cases same : other = key
      · rw [if_pos same, if_pos same.symm, Option.bind_some, Option.bind_some]
        rfl
      · rw [if_neg same, if_neg (Ne.symm same), ← h.live other later le]
        rfl
    · rw [writings_cons_of_some writing] at mem
      rcases List.mem_cons.mp mem with rfl | mem
      · exact ⟨derived key rfl, by rw [same_runs, run_once]; exact List.mem_singleton_self _⟩
      · exact h.written_cons mem

/-- The first step of a lookup, whatever it finds. -/
lemma Coherent.lookUp (h : c.Coherent history s) {i : ι} {key : String} {found : Store.GetStage}
    {store : Store} {stage : Stage} {world : World Store}
    (looked : s.world.store.startGet s.world.now key = (found, store))
    (now : world.now = s.world.now) (kept : world.store = store)
    (own : c.Accounted ((s, .lookUp i) :: history) i stage) :
    c.Coherent ((s, .lookUp i) :: history) (s.put i stage world) := by
  have entries : world.store.entries = s.world.store.entries := by
    rw [kept, Store.entries_of_startGet looked]
  exact h.put now (Store.DropsExpired.of_entries_eq entries) rfl (by simp) own

/-- Every step keeps what holds at any time. -/
lemma Coherent.step (h : c.Coherent history s) {move : Move ι} {s' : Scene ι}
    (next : Step c s move s') : c.Coherent ((s, move) :: history) s' := by
  cases next with
  | @bypass i events waiting entered =>
      have own := h.own_cons waiting (.enter i) (by simp)
      refine h.put rfl (Store.DropsExpired.of_entries_eq rfl) rfl (by simp) ?_
      exact ⟨own, by simp⟩
  | @enter i key events waiting entered =>
      have own := h.own_cons waiting (.enter i) (by simp)
      have derived : c.key i = .ok key :=
        (Middleware.enter_eq_some_iff.mp (congrArg Prod.fst entered)).2
      refine h.put rfl (Store.DropsExpired.of_entries_eq rfl) rfl (by simp) ?_
      exact ⟨own, derived⟩
  | @hit i key value store keyed found =>
      have own := h.own_cons keyed (.lookUp i) (by simp)
      have served := h.served_of_live (h.own keyed) (Store.liveAt_of_startGet found)
      exact h.lookUp found rfl rfl (Or.inr ⟨own.1, served⟩)
  | @miss i key store keyed found =>
      have own := h.own_cons keyed (.lookUp i) (by simp)
      exact h.lookUp found rfl rfl own.running
  | @meet i key store keyed found =>
      have own := h.own_cons keyed (.lookUp i) (by simp)
      exact h.lookUp found rfl rfl own
  | @purge i key met =>
      have own := h.own_cons met (.purge i) (by simp)
      exact h.put rfl (s.world.store.finishGet_dropsExpired s.world.now key) rfl (by simp)
        (Accounted.running own)
  | @complete i key? outcome running =>
      have own := h.own running
      refine h.put rfl (Store.DropsExpired.of_entries_eq rfl) rfl ?_ ?_
      · intro j ne other same
        exact ne (Move.complete.inj same).1.symm
      · exact ⟨by rw [outcomesOf_complete, own.1], own.2⟩
  | finish finishing => exact h.finish finishing
  | @pass time later fits =>
      obtain ⟨representable, rfl⟩ :
          s.world.now + time ≤ Instant.last ∧ s.world.now + time = later := by
        simpa [Instant.after?] using fits
      refine ⟨representable, fun key instant le => ?_, fun w mem => h.written_cons mem, fun i => ?_⟩
      · exact h.live key instant (Nat.le_trans (Nat.le_add_right _ _) le)
      · exact (h.accounted i).cons (by simp)

/-! ### What a run keeps -/

lemma coherent_opening (c : Crowd ι) {w : World Store} (clock : w.now ≤ Instant.last) :
    c.Coherent [] (Scene.opening w) :=
  ⟨clock, fun _ _ _ => rfl, by simp [writings], fun _ => rfl⟩

lemma coherent_run {w : World Store} (clock : w.now ≤ Instant.last)
    (run : Run c (Scene.opening w) history s) : c.Coherent history s := by
  induction run with
  | start => exact c.coherent_opening clock
  | step _ next ih => exact ih.step next

/-- Whatever the order of all steps, a call that has ended has run its tool once and returns the
outcome of that run, or it has not run its tool and returns what another call with its key has
written before its lookup, as the latest write under that key, for a time that was not over.

Hence, if all tools compute a function that does not tell inputs with one key apart, every call
returns the value of that function. -/
theorem ended_of_run {w : World Store} (clock : w.now ≤ Instant.last)
    (run : Run c (Scene.opening w) history s) {i : ι} {result : Outcome}
    (ended : s.stage i = .ended result) :
    (outcomesOf i history = [result] ∨
        outcomesOf i history = [] ∧ c.Served history i result) ∧
      ∀ f : String → Value → Outcome,
        (∀ tool input tool' input' key, c.keyer tool input = .ok key →
          c.keyer tool' input' = .ok key → f tool input = f tool' input') →
        (∀ j, ∀ outcome ∈ outcomesOf j history,
          outcome = f (c.call j).toolId (c.call j).input) →
        result = f (c.call i).toolId (c.call i).input := by
  have account : c.Accounted history i (.ended result) :=
    ended ▸ (coherent_run clock run).accounted i
  refine ⟨account, fun f respects computes => ?_⟩
  rcases account with run_once | ⟨-, after, s', before, key, writing, split, derived, -, -,
    written_derived, came_from, -, rfl⟩
  · exact computes i result (by rw [run_once]; simp)
  · have in_history : .ok writing.value ∈ outcomesOf writing.writer history := by
      rw [split]
      exact List.Sublist.mem came_from (((List.sublist_cons_self _ _).trans
        (List.sublist_append_right _ _)).filterMap _)
    rw [computes writing.writer _ in_history]
    exact respects _ _ _ _ key written_derived derived

/-- Three calls with one key and a lifetime of ten nanoseconds. -/
def rivals : Crowd (Fin 3) where
  keyer _ _ := .ok "k"
  policy _ := ⟨10, 0, false⟩
  skipRule _ := none
  context _ := ⟨0, none⟩
  call _ := ⟨"t", .null, []⟩

/-- Two of them miss, and the first to run its tool is the last to finish. The third call gets what
that one has written, and has not run its tool. -/
theorem rivals_third_served :
    ∃ history s, Run rivals (Scene.opening (World.start .empty)) history s ∧
      s.stage 2 = .ended (.ok [1]) ∧ outcomesOf 2 history = [] ∧
      rivals.Served history 2 (.ok [1]) := by
  have run : Run rivals (Scene.opening (World.start .empty)) [] _ := .start
  have run := run.step (.enter (i := 0) rfl rfl)
  have run := run.step (.enter (i := 1) rfl rfl)
  have run := run.step (.miss (i := 0) rfl rfl)
  have run := run.step (.miss (i := 1) rfl rfl)
  have run := run.step (.complete (i := 0) (.ok [1]) rfl)
  have run := run.step (.complete (i := 1) (.ok [2]) rfl)
  have run := run.step (.finish (i := 1) rfl)
  have run := run.step (@Step.pass _ _ rivals _ 3 3 rfl)
  have run := run.step (.finish (i := 0) rfl)
  have run := run.step (.enter (i := 2) rfl rfl)
  have run := run.step (.hit (i := 2) rfl rfl)
  rcases (ended_of_run (by decide) run (i := 2) rfl).1 with run_once | ⟨unrun, served⟩
  · simp [outcomesOf] at run_once
  · exact ⟨_, _, run, rfl, unrun, served⟩

end Crowd

end ReadThrough
