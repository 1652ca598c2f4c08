import Mathlib.Algebra.BigOperators.Group.Finset.Basic
import Mathlib.Data.Set.Finite.Range
import ReadThrough.Proofs.Call.Serving
import ReadThrough.Proofs.Store.Counting
import ReadThrough.Proofs.Table

/-!
Three books about calls that overlap over one store: the runs of their tools, the counters of the
store, and its entries.

* `Crowd.Uses`, `Crowd.key?`: a call uses the cache under a key, and the key if it does.
* `Book`, `Crowd.begun`, `Crowd.share`: the counters that calls raise, and what each call has left
  in them and in the number of runs, as told by how far it has come and by the outcomes of its tool.
* `Crowd.Booked`: a step books to the world what it books to its call.
* `Crowd.Balanced`: the books are the sums over all calls, no write was left out, each entry and
  each expiration stems from a write, and each entry stands under an accepted key of some call.
* `Balanced.step`, `balanced_run`: every step keeps that, and so every run does.
* `books_of_run`: what the books say when all calls have ended, and of a cache that can keep
  nothing.
-/

namespace ReadThrough

variable {ι : Type}

/-- The counters of a store that calls raise. -/
inductive Book where
  | hits
  | misses
  | writes

/-- What the store has counted in a book. -/
def Book.count : Book → Counters → UInt64
  | .hits, k => k.hits
  | .misses, k => k.misses
  | .writes, k => k.writes

/-- What a lookup leaves of the store: it counts what it has found, unless that is an expired
entry. -/
lemma Store.eq_of_startGet {s s' : Store} {now : Nat} {key : String} {stage : GetStage}
    (found : s.startGet now key = (stage, s')) :
    s' = match stage with
      | .answered (some _) => s.countHit
      | .answered none => s.countMiss
      | .purging => s := by
  rw [startGet] at found
  by_cases valid : Key.isValid key = true
  · rw [if_pos valid] at found
    cases met : s.lookup now key <;> rw [met] at found <;> obtain ⟨rfl, rfl⟩ := found <;> rfl
  · rw [if_neg valid] at found
    obtain ⟨rfl, rfl⟩ := found
    rfl

namespace Middleware

/-- The part of a call after the run of its tool counts a write if there is something to keep, and
nothing else. -/
lemma finish_counters (m : Middleware) (c : Context) (call : Call) (key? : Option String)
    (outcome : Outcome) (w : World Store) :
    (m.finish .memory c call key? outcome w).store.counters =
      { w.store.counters with
        writes := w.store.counters.writes +
          UInt64.ofNat (m.kept? key? outcome).isSome.toNat } := by
  cases key? with
  | none => simp [finish, kept?]
  | some key =>
      cases outcome with
      | error e => simp [finish, kept?]
      | ok value =>
          rw [finish, kept?]
          by_cases unkept : m.policy.lifetime 0 = 0
          · simp [keep, unkept, World.emit]
          · rw [m.keep_store .memory c call key value w unkept, Backend.memory, Store.set_counters]
            by_cases valid : Key.isValid key = true <;> simp [valid, unkept]

end Middleware

namespace Crowd

/-! ### What a call leaves in the books -/

/-- A call uses the cache under a key: no rule keeps it away, and the key is the one it has. -/
def Uses (c : Crowd ι) (i : ι) (key : String) : Prop :=
  (c.middleware i).skips (c.call i).toolId (c.call i).tags = false ∧ c.key i = .ok key

/-- The key under which a call uses the cache, if it does. -/
def key? (c : Crowd ι) (i : ι) : Option String :=
  ((c.middleware i).enter (c.call i)).1

lemma key?_eq_some_iff {c : Crowd ι} {i : ι} {key : String} :
    c.key? i = some key ↔ c.Uses i key :=
  Middleware.enter_eq_some_iff

/-- The runs of the tool of a call that have begun. -/
def begun : Stage → List Outcome → Nat
  | .running _, _ => 1
  | .finishing _ _, _ => 1
  | .ended _, outcomes => outcomes.length
  | _, _ => 0

/-- What a call has left in a book: a hit if it has ended without a run of its tool, a miss for each
run that has begun under a key, and a write for each outcome that was to be kept. -/
def share (c : Crowd ι) (book : Book) (i : ι) (stage : Stage) (outcomes : List Outcome) : Nat :=
  match book, stage with
  | .hits, .ended _ => outcomes.isEmpty.toNat
  | .misses, stage => if (c.key? i).isSome then begun stage outcomes else 0
  | .writes, .ended _ =>
    outcomes.countP fun outcome => ((c.middleware i).kept? (c.key? i) outcome).isSome
  | _, _ => 0

/-! ### What a step books -/

/-- What a step books to the world it books to its call, which comes from one stage to another. -/
structure Booked (c : Crowd ι) (i : ι) (stage : Stage) (outcomes : List Outcome)
    (world : World Store) (stage' : Stage) (outcomes' : List Outcome) (world' : World Store) :
    Prop where
  runs : world'.runs + begun stage outcomes = world.runs + begun stage' outcomes'
  counted : ∀ book : Book, book.count world'.store.counters +
      UInt64.ofNat (c.share book i stage outcomes) =
    book.count world.store.counters + UInt64.ofNat (c.share book i stage' outcomes')
  leftOut : world'.store.counters.skippedWrites = world.store.counters.skippedWrites
  entries : ∃ removed, world'.store.counters.expirations =
      world.store.counters.expirations + UInt64.ofNat removed ∧
    world'.store.size + removed + c.share .writes i stage outcomes ≤
      world.store.size + c.share .writes i stage' outcomes'
  resident : ∀ key, (world'.store.entries.get? key).isSome →
    (world.store.entries.get? key).isSome ∨
      c.Uses i key ∧ Key.isValid key = true ∧ (c.policy i).lifetime 0 ≠ 0

section

variable {c : Crowd ι} {i : ι} {stage stage' : Stage} {outcomes outcomes' : List Outcome}
  {world world' : World Store}

/-- A step that leaves the store alone. -/
lemma Booked.of_store_eq (store : world'.store = world.store)
    (runs : world'.runs + begun stage outcomes = world.runs + begun stage' outcomes')
    (shares : ∀ book, c.share book i stage outcomes = c.share book i stage' outcomes') :
    c.Booked i stage outcomes world stage' outcomes' world' where
  runs := runs
  counted book := by rw [store, shares]
  leftOut := by rw [store]
  entries := ⟨0, by rw [store]; exact (UInt64.add_zero _).symm, by rw [store, shares]; omega⟩
  resident key there := Or.inl (store ▸ there)

/-- A call that has found its bytes. -/
lemma booked_hit {key : String} {value : Bytes} {store : Store} {events : List Event}
    (found : world.store.startGet world.now key = (.answered (some value), store)) :
    c.Booked i (.lookingUp key) [] world (.ended (.ok value)) []
      (World.emit { world with store := store } events) := by
  obtain rfl : store = world.store.countHit := Store.eq_of_startGet found
  refine ⟨rfl, fun book => ?_, rfl, ⟨0, (UInt64.add_zero _).symm, Nat.le_refl _⟩,
    fun other there => Or.inl there⟩
  cases book <;> simp [Book.count, World.emit, Store.countHit, share, begun]

/-- A call that has found nothing, and whose tool starts to run. -/
lemma booked_miss {key : String} {store : Store} {events : List Event}
    (own : c.key? i = some key)
    (found : world.store.startGet world.now key = (.answered none, store)) :
    c.Booked i (.lookingUp key) [] world (.running (some key)) []
      (World.emit { world with store := store } events).countRun.2 := by
  obtain rfl : store = world.store.countMiss := Store.eq_of_startGet found
  refine ⟨rfl, fun book => ?_, rfl, ⟨0, (UInt64.add_zero _).symm, Nat.le_refl _⟩,
    fun other there => Or.inl there⟩
  cases book <;> simp [Book.count, World.emit, World.countRun, Store.countMiss, share, begun, own]

/-- A call that purges the expired entry it has met, and whose tool starts to run. -/
lemma booked_purge {key : String} {events : List Event} (own : c.key? i = some key) :
    c.Booked i (.purging key) [] world (.running (some key)) []
      ((world.receive (world.store.finishGet world.now key)).2.emit events).countRun.2 := by
  obtain ⟨removed, size, counters⟩ : ∃ removed,
      (world.store.finishGet world.now key).state.size + removed = world.store.size ∧
        (world.store.finishGet world.now key).state.counters =
          { world.store.counters with
            misses := world.store.counters.misses + 1
            expirations := world.store.counters.expirations + UInt64.ofNat removed } :=
    Store.Pending.finish_counters ⟨0, key, .purging⟩ world.now world.store
  have dropped := world.store.finishGet_dropsExpired world.now key
  refine ⟨rfl, fun book => ?_, ?_, ⟨removed, ?_, ?_⟩, fun other there => Or.inl ?_⟩
  · cases book <;> simp [Book.count, World.receive, World.emit, World.countRun, counters, share,
      begun, own]
  · simp [World.receive, World.emit, World.countRun, counters]
  · simp [World.receive, World.emit, World.countRun, counters]
  · simp only [World.receive, World.emit, World.countRun, share, Nat.add_zero]
    exact Nat.le_of_eq size
  · rcases dropped other with same | ⟨gone, -⟩
    · rw [← same]
      exact there
    · simp [World.receive, World.emit, World.countRun, gone] at there

/-- The end of a call. -/
lemma booked_finish {key? : Option String} {outcome : Outcome} (own : c.key? i = key?) :
    c.Booked i (.finishing key? outcome) [outcome] world (.ended outcome) [outcome]
      ((c.middleware i).finish .memory (c.context i) (c.call i) key? outcome world) := by
  subst own
  have counters := (c.middleware i).finish_counters (c.context i) (c.call i) (c.key? i) outcome
    world
  have entries := (c.middleware i).finish_entries (c.context i) (c.call i) (c.key? i) outcome world
  have runs := ((c.middleware i).finish_now .memory (c.context i) (c.call i) (c.key? i) outcome
    world).2
  have written : c.share .writes i (.ended outcome) [outcome] =
      ((c.middleware i).kept? (c.key? i) outcome).isSome.toNat := by
    cases kept : ((c.middleware i).kept? (c.key? i) outcome).isSome <;> simp [share, kept]
  refine ⟨by rw [runs]; rfl, fun book => ?_, by rw [counters], ⟨0, ?_, ?_⟩, fun other there => ?_⟩
  · cases book with
    | hits => simp [Book.count, counters, share]
    | misses => simp [Book.count, counters, share, begun]
    | writes =>
        rw [written, counters]
        simp [Book.count, share]
  · rw [counters]
    exact (UInt64.add_zero _).symm
  · rw [written, Store.size, Store.size, entries]
    cases kept : (c.middleware i).kept? (c.key? i) outcome with
    | none => simp [share]
    | some pair =>
        have grown := world.store.entries.size_insert pair.1
          (Entry.lasting world.now pair.2 ((c.middleware i).policy.lifetime 0))
        simp only [share, Option.isSome_some, Bool.toNat_true]
        omega
  · rw [entries] at there
    cases kept : (c.middleware i).kept? (c.key? i) outcome with
    | none =>
        rw [kept] at there
        exact Or.inl there
    | some pair =>
        obtain ⟨own, -, valid, lives⟩ := Middleware.kept?_eq_some_iff.mp kept
        rw [kept] at there
        simp only [Table.get?_insert] at there
        by_cases same : other = pair.1
        · subst same
          exact Or.inr ⟨key?_eq_some_iff.mp own, valid, lives⟩
        · rw [if_neg same] at there
          exact Or.inl there

end

/-! ### The balance -/

section

variable [DecidableEq ι]

/-- The sum of all shares in a book. -/
def total [Fintype ι] (share : ι → Stage → List Outcome → Nat) (history : History ι)
    (s : Scene ι) : Nat :=
  ∑ i, share i (s.stage i) (outcomesOf i history)

/-- A step of one call changes the sum by what it changes in the share of that call. -/
lemma total_put [Fintype ι] (share : ι → Stage → List Outcome → Nat) (history : History ι)
    (s : Scene ι) {move : Move ι} {i : ι} (others : ∀ j ≠ i, ∀ outcome, move ≠ .complete j outcome)
    (stage : Stage) (world : World Store) :
    total share ((s, move) :: history) (s.put i stage world) +
        share i (s.stage i) (outcomesOf i history) =
      total share history s + share i stage (outcomesOf i ((s, move) :: history)) := by
  have rest : ∑ j ∈ Finset.univ.erase i, share j ((s.put i stage world).stage j)
      (outcomesOf j ((s, move) :: history)) =
        ∑ j ∈ Finset.univ.erase i, share j (s.stage j) (outcomesOf j history) := by
    refine Finset.sum_congr rfl fun j mem => ?_
    have ne := Finset.ne_of_mem_erase mem
    rw [s.put_stage_of_ne ne, outcomesOf_cons_of_ne (others j ne)]
  rw [total, total, ← Finset.add_sum_erase _ _ (Finset.mem_univ i),
    ← Finset.add_sum_erase _ (fun j => share j (s.stage j) _) (Finset.mem_univ i), rest,
    Scene.put_stage_self]
  omega

/-- How far a call has come agrees with the key under which it uses the cache. -/
def Keyed (c : Crowd ι) (history : History ι) (i : ι) : Stage → Prop
  | .waiting => True
  | .lookingUp key => c.key? i = some key
  | .purging key => c.key? i = some key
  | .running key? => c.key? i = key?
  | .finishing key? _ => c.key? i = key?
  | .ended _ => outcomesOf i history = [] → (c.key? i).isSome

/-- The books are the sums over all calls. -/
structure Balanced [Fintype ι] (c : Crowd ι) (w : World Store) (history : History ι)
    (s : Scene ι) : Prop where
  keyed : ∀ i, c.Keyed history i (s.stage i)
  runs : s.world.runs = w.runs + total (fun _ => begun) history s
  counted : ∀ book : Book, book.count s.world.store.counters =
    UInt64.ofNat (total (c.share book) history s)
  leftOut : s.world.store.counters.skippedWrites = 0
  entries : ∃ removed, s.world.store.counters.expirations = UInt64.ofNat removed ∧
    s.world.store.size + removed ≤ total (c.share .writes) history s
  resident : ∀ key, (s.world.store.entries.get? key).isSome →
    ∃ i, c.Uses i key ∧ Key.isValid key = true ∧ (c.policy i).lifetime 0 ≠ 0

variable {c : Crowd ι} {history : History ι} {s : Scene ι}

/-- The key of a call agrees with its stage after a move that ends no run of its tool. -/
lemma Keyed.cons {i : ι} {stage : Stage} (keyed : c.Keyed history i stage) {move : Move ι}
    (ne : ∀ outcome, move ≠ .complete i outcome) : c.Keyed ((s, move) :: history) i stage := by
  cases stage with
  | ended result => simpa only [Keyed, outcomesOf_cons_of_ne ne] using keyed
  | _ => exact keyed

section

variable [Fintype ι] {w : World Store}

/-- A step of a call that books what it should keeps the balance. -/
lemma Balanced.put (h : c.Balanced w history s) {move : Move ι} {i : ι} {stage : Stage}
    {world : World Store} (others : ∀ j ≠ i, ∀ outcome, move ≠ .complete j outcome)
    (keyed : c.Keyed ((s, move) :: history) i stage)
    (booked : c.Booked i (s.stage i) (outcomesOf i history) s.world stage
      (outcomesOf i ((s, move) :: history)) world) :
    c.Balanced w ((s, move) :: history) (s.put i stage world) where
  keyed j := by
    by_cases same : j = i
    · subst same
      rwa [Scene.put_stage_self]
    · rw [s.put_stage_of_ne same]
      exact (h.keyed j).cons (others j same)
  runs := by
    have moved := total_put (fun _ => begun) history s others stage world
    have runs := booked.runs
    have before := h.runs
    rw [Scene.put_world]
    omega
  counted book := by
    have moved := congrArg UInt64.ofNat
      (total_put (c.share book) history s others stage world)
    have counted := booked.counted book
    rw [h.counted, ← UInt64.ofNat_add, ← moved, UInt64.ofNat_add] at counted
    exact (UInt64.add_left_inj _).mp counted
  leftOut := booked.leftOut.trans h.leftOut
  entries := by
    have moved := total_put (c.share .writes) history s others stage world
    obtain ⟨removed, expired, size⟩ := h.entries
    obtain ⟨more, expired', size'⟩ := booked.entries
    refine ⟨removed + more, ?_, ?_⟩
    · rw [Scene.put_world, expired', expired, UInt64.ofNat_add]
    · rw [Scene.put_world]
      omega
  resident key there := by
    rcases booked.resident key there with before | own
    · exact h.resident key before
    · exact ⟨i, own⟩

/-- Every step keeps the balance. -/
lemma Balanced.step (coherent : c.Coherent history s) (h : c.Balanced w history s)
    {move : Move ι} {s' : Scene ι} (next : Step c s move s') :
    c.Balanced w ((s, move) :: history) s' := by
  -- a call whose stage is known has left in the books what that stage tells
  have own : ∀ {i : ι} {stage : Stage}, s.stage i = stage → c.Keyed history i stage :=
    fun known => known ▸ h.keyed _
  cases next with
  | @bypass i events waiting entered =>
      have none_run : outcomesOf i history = [] := coherent.own waiting
      refine h.put (by simp) (congrArg Prod.fst entered) ?_
      rw [outcomesOf_cons_of_ne (by simp), waiting, none_run]
      refine .of_store_eq rfl rfl fun book => ?_
      have keyless : c.key? i = none := congrArg Prod.fst entered
      cases book <;> simp [share, keyless]
  | @enter i key events waiting entered =>
      refine h.put (by simp) (congrArg Prod.fst entered) ?_
      rw [outcomesOf_cons_of_ne (by simp), waiting]
      exact .of_store_eq rfl rfl fun book => by cases book <;> rfl
  | @hit i key value store keyed found =>
      have none_run := (coherent.own keyed).1
      refine h.put (by simp) (fun _ => by simp [show c.key? i = some key from own keyed]) ?_
      rw [outcomesOf_cons_of_ne (by simp), keyed, none_run]
      exact booked_hit found
  | @miss i key store keyed found =>
      have none_run := (coherent.own keyed).1
      refine h.put (by simp) (own keyed) ?_
      rw [outcomesOf_cons_of_ne (by simp), keyed, none_run]
      exact booked_miss (own keyed) found
  | @meet i key store keyed found =>
      refine h.put (by simp) (own keyed) ?_
      rw [outcomesOf_cons_of_ne (by simp), keyed]
      exact .of_store_eq (Store.eq_of_startGet found) rfl fun book => by cases book <;> rfl
  | @purge i key met =>
      have none_run := (coherent.own met).1
      refine h.put (by simp) (own met) ?_
      rw [outcomesOf_cons_of_ne (by simp), met, none_run]
      exact booked_purge (own met)
  | @complete i key? outcome running =>
      refine h.put ?_ (own running) ?_
      · intro j ne other same
        exact ne (Move.complete.inj same).1.symm
      · rw [running]
        exact .of_store_eq rfl rfl fun book => by cases book <;> rfl
  | @finish i key? outcome finishing =>
      have run_once := (coherent.own finishing).1
      refine h.put (by simp) (fun none_run => ?_) ?_
      · rw [outcomesOf_cons_of_ne (by simp), run_once] at none_run
        simp at none_run
      · rw [outcomesOf_cons_of_ne (by simp), finishing, run_once]
        exact booked_finish (own finishing)
  | @pass time later fits =>
      exact ⟨fun i => (h.keyed i).cons (by simp), h.runs, h.counted, h.leftOut, h.entries,
        h.resident⟩

/-! ### What a run keeps -/

lemma balanced_opening (c : Crowd ι) (w : World Store) : c.Balanced w [] (Scene.opening w) where
  keyed _ := trivial
  runs := by simp [total, Scene.opening, begun]
  counted book := by cases book <;> simp [total, Scene.opening, share, begun] <;> rfl
  leftOut := rfl
  entries := ⟨0, rfl, Nat.zero_le _⟩
  resident key there := by simp [Scene.opening, Store.empty] at there

lemma balanced_run (clock : w.now ≤ Instant.last) (run : Run c (Scene.opening w) history s) :
    c.Balanced w history s := by
  induction run with
  | start => exact c.balanced_opening w
  | step before next ih => exact ih.step (coherent_run clock before) next

/-! ### Counting calls -/

omit [DecidableEq ι] in
/-- A sum of ones and zeros is the number of ones. -/
lemma sum_eq_card {p : ι → Prop} {f : ι → Nat} (h : ∀ i, f i = 1 ∧ p i ∨ f i = 0 ∧ ¬p i) :
    ∑ i, f i = Nat.card {i // p i} := by
  classical
  rw [Nat.card_eq_fintype_card, Fintype.card_subtype, Finset.card_filter]
  refine Finset.sum_congr rfl fun i _ => ?_
  rcases h i with ⟨one, holds⟩ | ⟨zero, fails⟩
  · rw [if_pos holds, one]
  · rw [if_neg fails, zero]

omit [DecidableEq ι] in
/-- Calls of two kinds that exclude each other. -/
lemma card_or {p q : ι → Prop} (apart : ∀ i, p i → ¬q i) :
    Nat.card {i // p i} + Nat.card {i // q i} = Nat.card {i // p i ∨ q i} :=
  (Set.ncard_union_eq (Set.disjoint_left.mpr apart)).symm

end

/-! ### A cache that can keep nothing -/

/-- Each scene of a history was reached by a run. -/
lemma exists_run_of_mem {start : Scene ι} (run : Run c start history s) {s' : Scene ι}
    {move : Move ι} (mem : (s', move) ∈ history) : ∃ earlier, Run c start earlier s' := by
  induction run with
  | start => simp at mem
  | step before next ih =>
      rcases List.mem_cons.mp mem with same | mem
      · obtain ⟨rfl, rfl⟩ := Prod.mk.inj same
        exact ⟨_, before⟩
      · exact ih mem

/-- A write was made by a call that uses the cache under its key. -/
lemma uses_of_mem_writings [Fintype ι] {w : World Store} (clock : w.now ≤ Instant.last)
    (run : Run c (Scene.opening w) history s) {writing : Writing ι}
    (mem : writing ∈ c.writings history) :
    c.Uses writing.writer writing.key ∧ Key.isValid writing.key = true ∧
      (c.policy writing.writer).lifetime 0 ≠ 0 := by
  obtain ⟨⟨s', move⟩, mem, written⟩ := List.mem_filterMap.mp mem
  obtain ⟨earlier, before⟩ := exists_run_of_mem run mem
  cases move with
  | finish i =>
      cases stage : s'.stage i with
      | finishing key? outcome =>
          have own : c.key? i = key? := by
            have keyed := (balanced_run clock before).keyed i
            rwa [stage] at keyed
          simp only [writing?, stage, Option.map_eq_some_iff, Prod.exists] at written
          obtain ⟨key, value, kept, rfl⟩ := written
          obtain ⟨rfl, -, valid, lives⟩ := Middleware.kept?_eq_some_iff.mp kept
          exact ⟨key?_eq_some_iff.mp own, valid, lives⟩
      | _ => simp [writing?, stage] at written
  | _ => simp [writing?] at written

/-- If no call can keep anything, each call that has ended has run its tool. -/
lemma ran_of_unkept [Fintype ι] {w : World Store} (clock : w.now ≤ Instant.last)
    (run : Run c (Scene.opening w) history s)
    (unkept : ∀ i key, c.Uses i key → Key.isValid key = true → (c.policy i).lifetime 0 = 0)
    {i : ι} {result : Outcome} (ended : s.stage i = .ended result) :
    outcomesOf i history = [result] := by
  rcases (coherent_run clock run).own ended with run_once | ⟨-, after, s', before, key, writing,
    split, -, last, -⟩
  · exact run_once
  · have mem : writing ∈ c.writings history := by
      rw [split]
      exact List.Sublist.mem (List.mem_of_find?_eq_some last)
        (((List.sublist_cons_self _ _).trans (List.sublist_append_right _ _)).filterMap _)
    obtain ⟨uses, valid, lives⟩ := uses_of_mem_writings clock run mem
    exact absurd (unkept _ _ uses valid) lives

/-- If no call can keep anything, the store is empty. -/
lemma rows_of_unkept [Fintype ι] {w : World Store} (balanced : c.Balanced w history s)
    (unkept : ∀ i key, c.Uses i key → Key.isValid key = true → (c.policy i).lifetime 0 = 0) :
    s.world.store.entries.rows = [] := by
  refine List.eq_nil_iff_forall_not_mem.mpr fun row mem => ?_
  have there : (s.world.store.entries.get? row.1).isSome :=
    (Table.isSome_get?_iff _ _).mpr (List.mem_map_of_mem mem)
  obtain ⟨i, uses, valid, lives⟩ := balanced.resident row.1 there
  exact lives (unkept i row.1 uses valid)

/-- If each call that has ended has run its tool, nothing was a hit. -/
lemma hits_of_ran [Fintype ι] {w : World Store} (balanced : c.Balanced w history s)
    (ran : ∀ i result, s.stage i = .ended result → outcomesOf i history = [result]) :
    s.world.store.counters.hits = 0 := by
  have none_hit : total (c.share .hits) history s = 0 := by
    refine Finset.sum_eq_zero fun i _ => ?_
    cases stage : s.stage i with
    | ended result =>
        rw [ran i result stage]
        rfl
    | _ => rfl
  exact (balanced.counted .hits).trans (by rw [none_hit]; rfl)

/-! ### All calls together -/

/-- A call that has ended has run its tool once, or not at all. -/
lemma outcomesOf_of_ended (coherent : c.Coherent history s) {i : ι}
    (ended : ∃ result, s.stage i = .ended result) :
    ∃ result, s.stage i = .ended result ∧
      (outcomesOf i history = [] ∨ outcomesOf i history = [result]) := by
  obtain ⟨result, stage⟩ := ended
  refine ⟨result, stage, ?_⟩
  rcases coherent.own stage with run_once | ⟨unrun, -⟩
  · exact Or.inr run_once
  · exact Or.inl unrun

section

variable [Fintype ι] {w : World Store}

/-- When all calls have ended, the shares in a book are those of the calls that have not run their
tool and of the calls that have run it once. -/
lemma total_of_ended (coherent : c.Coherent history s)
    (ended : ∀ i, ∃ result, s.stage i = .ended result) {share : ι → Stage → List Outcome → Nat}
    {p : ι → Prop}
    (unrun : ∀ i result, outcomesOf i history = [] →
      share i (.ended result) [] = 1 ∧ p i ∨ share i (.ended result) [] = 0 ∧ ¬p i)
    (ran : ∀ i result, outcomesOf i history = [result] →
      share i (.ended result) [result] = 1 ∧ p i ∨
        share i (.ended result) [result] = 0 ∧ ¬p i) :
    total share history s = Nat.card {i // p i} := by
  refine sum_eq_card fun i => ?_
  obtain ⟨result, stage, none_run | run_once⟩ := outcomesOf_of_ended coherent (ended i)
  · rw [stage, none_run]
    exact unrun i result none_run
  · rw [stage, run_once]
    exact ran i result run_once

lemma total_begun (coherent : c.Coherent history s)
    (ended : ∀ i, ∃ result, s.stage i = .ended result) :
    total (fun _ => begun) history s = Nat.card {i // outcomesOf i history ≠ []} := by
  refine total_of_ended coherent ended (fun i result none_run => ?_) fun i result run_once => ?_
  · exact Or.inr ⟨rfl, not_not_intro none_run⟩
  · exact Or.inl ⟨rfl, by simp [run_once]⟩

lemma total_hits (coherent : c.Coherent history s)
    (ended : ∀ i, ∃ result, s.stage i = .ended result) :
    total (c.share .hits) history s = Nat.card {i // outcomesOf i history = []} := by
  refine total_of_ended coherent ended (fun i result none_run => ?_) fun i result run_once => ?_
  · exact Or.inl ⟨rfl, none_run⟩
  · exact Or.inr ⟨rfl, by simp [run_once]⟩

lemma total_misses (coherent : c.Coherent history s)
    (ended : ∀ i, ∃ result, s.stage i = .ended result) :
    total (c.share .misses) history s =
      Nat.card {i // outcomesOf i history ≠ [] ∧ ∃ key, c.Uses i key} := by
  have uses : ∀ i, (c.key? i).isSome = true ↔ ∃ key, c.Uses i key := fun i => by
    simp only [Option.isSome_iff_exists, key?_eq_some_iff]
  refine total_of_ended coherent ended (fun i result none_run => ?_) fun i result run_once => ?_
  · exact Or.inr ⟨by simp [share, begun], fun holds => holds.1 none_run⟩
  · by_cases used : (c.key? i).isSome = true
    · exact Or.inl ⟨by rw [share, if_pos used]; rfl, by simp [run_once], (uses i).mp used⟩
    · exact Or.inr ⟨by rw [share, if_neg used], fun holds => used ((uses i).mpr holds.2)⟩

lemma total_writes (coherent : c.Coherent history s)
    (ended : ∀ i, ∃ result, s.stage i = .ended result) :
    total (c.share .writes) history s = Nat.card {i // ∃ key value, c.Uses i key ∧
      outcomesOf i history = [.ok value] ∧ Key.isValid key = true ∧
        (c.policy i).lifetime 0 ≠ 0} := by
  refine total_of_ended coherent ended (fun i result none_run => ?_) fun i result run_once => ?_
  · exact Or.inr ⟨rfl, by simp [none_run]⟩
  · cases kept : (c.middleware i).kept? (c.key? i) result with
    | some pair =>
        obtain ⟨own, rfl, valid, lives⟩ := Middleware.kept?_eq_some_iff.mp kept
        exact Or.inl ⟨by simp [share, kept], pair.1, pair.2, key?_eq_some_iff.mp own, run_once,
          valid, lives⟩
    | none =>
        refine Or.inr ⟨by simp [share, kept], ?_⟩
        rintro ⟨key, value, used, ran, valid, lives⟩
        obtain rfl : result = .ok value := by simpa [run_once] using ran
        rw [Middleware.kept?_eq_some_iff.mpr ⟨key?_eq_some_iff.mpr used, rfl, valid, lives⟩] at kept
        simp at kept

/-- When all calls have ended, those that use the cache are the hits and the misses. -/
lemma card_uses (balanced : c.Balanced w history s)
    (ended : ∀ i, ∃ result, s.stage i = .ended result) :
    Nat.card {i // outcomesOf i history = []} +
        Nat.card {i // outcomesOf i history ≠ [] ∧ ∃ key, c.Uses i key} =
      Nat.card {i // ∃ key, c.Uses i key} := by
  rw [card_or fun i unrun ran => ran.1 unrun]
  refine Nat.card_congr (Equiv.subtypeEquivRight fun i => ⟨?_, fun uses => ?_⟩)
  · rintro (unrun | ⟨-, uses⟩)
    · obtain ⟨result, stage⟩ := ended i
      have keyed := balanced.keyed i
      rw [stage] at keyed
      obtain ⟨key, own⟩ := Option.isSome_iff_exists.mp (keyed unrun)
      exact ⟨key, key?_eq_some_iff.mp own⟩
    · exact uses
  · exact (eq_or_ne (outcomesOf i history) []).imp_right fun ran => ⟨ran, uses⟩

omit [DecidableEq ι] in
/-- A word counts the calls of a kind exactly if it could count all calls. -/
lemma toNat_of_eq_card (fits : Nat.card ι < 2 ^ 64) {p : ι → Prop} {word : UInt64}
    (counted : word = UInt64.ofNat (Nat.card {i // p i})) : word.toNat = Nat.card {i // p i} := by
  rw [counted]
  exact UInt64.toNat_ofNat_of_lt' (Nat.lt_of_le_of_lt (Finite.card_subtype_le p) fits)

omit [DecidableEq ι] in
/-- There are finitely many keys under which calls use the cache. -/
lemma finite_keys (c : Crowd ι) :
    Set.Finite {key | Key.isValid key = true ∧ ∃ i, c.Uses i key} := by
  refine Set.Finite.subset ((Set.finite_range c.key?).preimage (Option.some_injective _).injOn) ?_
  rintro key ⟨-, i, uses⟩
  exact ⟨i, key?_eq_some_iff.mpr uses⟩

/-- Three books agree about calls that overlap over one store which nothing else uses, in any order
of their steps.

When all calls have ended, a call has run its tool or it was a hit, and no call was both. The hits
and the misses are together the calls that use the cache. The writes are the misses whose tool gave
bytes under an accepted key for a time. No write was left out. Every entry and every expiration
stems from a write of its own, and each key of an entry is accepted and is that of a call, so that
there are no more entries than such keys. Counters are words; they are exact as long as a word can
hold the number of calls.

If no call can keep anything, for want of a lifetime or of an accepted key, then at any time the
store is empty, nothing was a hit, and each call that has ended has run its tool. -/
theorem books_of_run (clock : w.now ≤ Instant.last)
    (run : Run c (Scene.opening w) history s) :
    ((∀ i, ∃ result, s.stage i = .ended result) →
      let k := s.world.store.counters
      let entries := s.world.store.entries
      let runs := Nat.card {i // outcomesOf i history ≠ []}
      let hits := Nat.card {i // outcomesOf i history = []}
      let misses := Nat.card {i // outcomesOf i history ≠ [] ∧ ∃ key, c.Uses i key}
      let writes := Nat.card {i // ∃ key value, c.Uses i key ∧
        outcomesOf i history = [.ok value] ∧ Key.isValid key = true ∧ (c.policy i).lifetime 0 ≠ 0}
      (s.world.runs = w.runs + runs ∧ k.hits = UInt64.ofNat hits ∧ runs + hits = Nat.card ι) ∧
      (k.misses = UInt64.ofNat misses ∧ hits + misses = Nat.card {i // ∃ key, c.Uses i key}) ∧
      (k.writes = UInt64.ofNat writes ∧ k.skippedWrites = 0) ∧
      (∃ removed, k.expirations = UInt64.ofNat removed ∧ entries.size + removed ≤ writes) ∧
      ((∀ key, (entries.get? key).isSome → Key.isValid key = true ∧ ∃ i, c.Uses i key) ∧
        entries.size ≤ Nat.card {key // Key.isValid key = true ∧ ∃ i, c.Uses i key}) ∧
      (Nat.card ι < 2 ^ 64 → k.hits.toNat = hits ∧ k.misses.toNat = misses ∧
        k.writes.toNat = writes ∧ entries.size + k.expirations.toNat ≤ k.writes.toNat)) ∧
    ((∀ i key, c.Uses i key → Key.isValid key = true → (c.policy i).lifetime 0 = 0) →
      s.world.store.entries.rows = [] ∧ s.world.store.counters.hits = 0 ∧
        ∀ i result, s.stage i = .ended result → outcomesOf i history = [result]) := by
  have coherent := coherent_run clock run
  have balanced := balanced_run clock run
  refine ⟨fun ended => ?_, fun unkept => ?_⟩
  · intro k entries runs hits misses writes
    have counted_hits : k.hits = UInt64.ofNat hits :=
      (balanced.counted .hits).trans (congrArg _ (total_hits coherent ended))
    have counted_misses : k.misses = UInt64.ofNat misses :=
      (balanced.counted .misses).trans (congrArg _ (total_misses coherent ended))
    have counted_writes : k.writes = UInt64.ofNat writes :=
      (balanced.counted .writes).trans (congrArg _ (total_writes coherent ended))
    have all : runs + hits = Nat.card ι := by
      rw [card_or fun i ran unrun => ran unrun]
      exact Nat.card_congr (Equiv.subtypeUnivEquiv fun i => (eq_or_ne _ _).symm)
    obtain ⟨removed, expired, conserved⟩ := balanced.entries
    rw [total_writes coherent ended] at conserved
    have keys : ∀ key, (entries.get? key).isSome → Key.isValid key = true ∧ ∃ i, c.Uses i key := by
      intro key there
      obtain ⟨i, uses, valid, -⟩ := balanced.resident key there
      exact ⟨valid, i, uses⟩
    refine ⟨⟨?_, counted_hits, all⟩, ⟨counted_misses, card_uses balanced ended⟩,
      ⟨counted_writes, balanced.leftOut⟩, ⟨removed, expired, conserved⟩,
      ⟨keys, entries.size_le_card c.finite_keys keys⟩, fun fits => ?_⟩
    · rw [balanced.runs, total_begun coherent ended]
    · have written := toNat_of_eq_card fits counted_writes
      have small := Nat.mod_le removed (2 ^ 64)
      refine ⟨toNat_of_eq_card fits counted_hits, toNat_of_eq_card fits counted_misses, written, ?_⟩
      rw [written, expired, UInt64.toNat_ofNat']
      exact Nat.le_trans (Nat.add_le_add_left small _) conserved
  · have ran : ∀ i result, s.stage i = .ended result → outcomesOf i history = [result] :=
      fun i result => ran_of_unkept clock run unkept
    exact ⟨rows_of_unkept balanced unkept, hits_of_ran balanced ran, ran⟩

end

end

/-- Four calls with one key, the last one with a tag that keeps it away from the cache. -/
def queue (lifetime : Nat) : Crowd (Fin 4) where
  keyer _ _ := .ok "k"
  policy _ := ⟨lifetime, 0, false⟩
  skipRule _ := none
  context _ := ⟨0, none⟩
  call i := ⟨"t", .null, if i = 3 then ["write"] else []⟩

/-- Two calls miss and overlap, and the tool of one of them fails. A third call is a hit, and the
fourth one stays away. With no lifetime, a call that has ended after another has run its tool as
well. -/
theorem queue_books :
    (∃ history s, Run (queue 10) (Scene.opening (World.start .empty)) history s ∧
      (∀ i, ∃ result, s.stage i = .ended result) ∧
      s.world.runs = Nat.card {i // outcomesOf i history ≠ []} ∧
      s.world.runs = 3 ∧ s.world.store.counters.hits = 1 ∧ s.world.store.counters.misses = 2 ∧
      s.world.store.counters.writes = 1 ∧
      s.world.store.counters.hits.toNat = Nat.card {i // outcomesOf i history = []} ∧
      s.world.store.entries.size + s.world.store.counters.expirations.toNat ≤
        s.world.store.counters.writes.toNat) ∧
    ∃ history s, Run (queue 0) (Scene.opening (World.start .empty)) history s ∧
      s.stage 0 = .ended (.ok [1]) ∧ s.stage 1 = .ended (.ok [2]) ∧
      outcomesOf 1 history = [.ok [2]] ∧ s.world.store.entries.rows = [] := by
  constructor
  · have run : Run (queue 10) (Scene.opening (World.start .empty)) [] _ := .start
    have run := run.step (.enter (i := 0) rfl rfl)
    have run := run.step (.enter (i := 1) rfl rfl)
    have run := run.step (.miss (i := 0) rfl rfl)
    have run := run.step (.miss (i := 1) rfl rfl)
    have run := run.step (.complete (i := 0) (.ok [1]) rfl)
    have run := run.step (.bypass (i := 3) rfl rfl)
    have run := run.step (.complete (i := 1) (.error (.plain "e")) rfl)
    have run := run.step (.finish (i := 0) rfl)
    have run := run.step (.finish (i := 1) rfl)
    have run := run.step (.enter (i := 2) rfl rfl)
    have run := run.step (.hit (i := 2) rfl rfl)
    have run := run.step (.complete (i := 3) (.ok [3]) rfl)
    have run := run.step (.finish (i := 3) rfl)
    have books := (books_of_run (by decide) run).1 fun | 0 | 1 | 2 | 3 => ⟨_, rfl⟩
    obtain ⟨⟨ran, -, -⟩, -, -, -, -, small⟩ := books
    obtain ⟨hits, -, -, size⟩ := small (by simp)
    exact ⟨_, _, run, fun | 0 | 1 | 2 | 3 => ⟨_, rfl⟩, ran.trans (Nat.zero_add _), rfl, rfl,
      rfl, rfl, hits, size⟩
  · have run : Run (queue 0) (Scene.opening (World.start .empty)) [] _ := .start
    have run := run.step (.enter (i := 0) rfl rfl)
    have run := run.step (.miss (i := 0) rfl rfl)
    have run := run.step (.complete (i := 0) (.ok [1]) rfl)
    have run := run.step (.finish (i := 0) rfl)
    have run := run.step (.enter (i := 1) rfl rfl)
    have run := run.step (.miss (i := 1) rfl rfl)
    have run := run.step (.complete (i := 1) (.ok [2]) rfl)
    have run := run.step (.finish (i := 1) rfl)
    have unkept := (books_of_run (by decide) run).2 fun _ _ _ _ => rfl
    exact ⟨_, _, run, rfl, rfl, unkept.2.2 1 _ rfl, unkept.1⟩

end Crowd

end ReadThrough
