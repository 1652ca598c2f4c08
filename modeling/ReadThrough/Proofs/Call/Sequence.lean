import ReadThrough.Call.Script
import ReadThrough.Proofs.Call.Parts
import ReadThrough.Proofs.Store.History

/-!
Calls one after another over one store: when the cache answers, and with what.

* `Trial`: a call with the time that a run of its tool takes and the outcome of such a run.
* `Middleware.playCall`, `Middleware.play`: a call from start to end, and turns one after another,
  with a log of the calls that have ended.
* `Played.Serves`: a call of the log has left bytes that still live at an instant.
* `playCall_served`, `playCall_ran`: the two ways in which a call can go.
* `Recalls`: what is live in the store is told by the log alone. Every turn keeps that
  (`Recalls.call`, `Recalls.pass`), and so it holds after all turns (`recalls_play`).
* `play_call`: the law of read-through for the next call after any turns.
-/

namespace ReadThrough

/-- A call, the time that a run of its tool takes, and the outcome of such a run. -/
structure Trial where
  call : Call
  context : Context
  delay : Nat
  outcome : Outcome

/-- The tool of a trial: a run is counted, takes its time, and ends. -/
def Trial.tool {σ : Type} (t : Trial) : Tool σ :=
  fun w => (t.outcome, w.countRun.2.advance t.delay)

/-- A call that has ended, with its result, the number of runs of its tool, and the instant at
which it ended. -/
structure Played extends Trial where
  result : Outcome
  runs : Nat
  ended : Nat

/-- A turn of a sequence: a call, or the passing of time. -/
inductive Turn where
  | call (trial : Trial)
  | pass (time : Nat)

namespace Middleware

/-- A call from start to end. -/
def playCall (m : Middleware) (t : Trial) (w : World Store) : Played × World Store :=
  let (result, after) := m.execute .memory t.context t.call t.tool w
  (⟨t, result, after.runs - w.runs, after.now⟩, after)

/-- Turns one after another. The log holds the calls that have ended, the latest first. -/
def play (m : Middleware) : List Turn → List Played → World Store → List Played × World Store
  | [], log, w => (log, w)
  | .call t :: rest, log, w => m.play rest ((m.playCall t w).1 :: log) (m.playCall t w).2
  | .pass time :: rest, log, w => m.play rest log (w.advance time)

end Middleware

/-- A call that was allowed to use the cache under a key, ran its tool, got bytes, and ended so
recently that the lifetime of the policy is not over, or its end cannot be represented. -/
structure Played.Serves (m : Middleware) (key : String) (now : Nat) (value : Bytes)
    (p : Played) : Prop where
  allowed : m.skips p.call.toolId p.call.tags = false
  derived : m.keyer p.call.toolId p.call.input = .ok key
  ran : p.runs ≠ 0
  succeeded : p.outcome = .ok value
  fresh : now < p.ended + m.policy.lifetime 0 ∨
    Instant.after? p.ended (m.policy.lifetime 0) = none

/-- What a call of the log has put under a key, if it has. -/
def Played.put? (m : Middleware) (key : String) (p : Played) : Option Store.Write :=
  match m.kept? (m.enter p.call).1 p.outcome with
  | some (own, value) =>
    if p.runs ≠ 0 ∧ own = key then some (.put p.ended value (m.policy.lifetime 0)) else none
  | none => none

namespace Middleware

variable {m : Middleware} {log : List Played} {w : World Store}

/-! ### One call -/

lemma answer?_eq_some_iff {call : Call} {value : Bytes} :
    m.answer? call w = some value ↔ m.skips call.toolId call.tags = false ∧
      ∃ key, m.keyer call.toolId call.input = .ok key ∧ Key.isValid key = true ∧
        w.store.liveAt w.now key = some value := by
  rw [answer?, Option.bind_eq_some_iff]
  constructor
  · rintro ⟨key, entered, live⟩
    obtain ⟨allowed, derived⟩ := enter_eq_some_iff.mp entered
    by_cases valid : Key.isValid key = true
    · exact ⟨allowed, key, derived, valid, by simpa [valid] using live⟩
    · simp [valid] at live
  · rintro ⟨allowed, key, derived, valid, live⟩
    exact ⟨key, enter_eq_some_iff.mpr ⟨allowed, derived⟩, by simpa [valid] using live⟩

/-- A call that the cache answers runs no tool and takes no time. -/
lemma playCall_served {t : Trial} {value : Bytes} (answered : m.answer? t.call w = some value) :
    (m.playCall t w).1 = ⟨t, .ok value, 0, w.now⟩ ∧ (m.playCall t w).2.now = w.now ∧
      Store.DropsExpired w.now w.store (m.playCall t w).2.store := by
  obtain ⟨first, now, runs, dropped⟩ := m.start_memory t.context t.call w
  rw [answered] at first
  rcases started : m.start .memory t.context t.call w with ⟨stage, w'⟩
  rw [started] at first now runs dropped
  obtain rfl : stage = .answered value := first
  dsimp only at now runs dropped
  simp only [playCall, execute, started]
  exact ⟨by rw [runs, now, Nat.sub_self], now, dropped⟩

/-- A call that the cache does not answer runs its tool once and puts what is to be kept at the end
of that run. -/
lemma playCall_ran {t : Trial} (unanswered : m.answer? t.call w = none) :
    (m.playCall t w).1 = ⟨t, t.outcome, 1, w.now + t.delay⟩ ∧
      (m.playCall t w).2.now = w.now + t.delay ∧
      ∃ s, Store.DropsExpired w.now w.store s ∧ (m.playCall t w).2.store.entries =
        match m.kept? (m.enter t.call).1 t.outcome with
        | some (key, value) =>
          s.entries.insert key (Entry.lasting (w.now + t.delay) value (m.policy.lifetime 0))
        | none => s.entries := by
  obtain ⟨first, now, runs, dropped⟩ := m.start_memory t.context t.call w
  rw [unanswered] at first
  rcases started : m.start .memory t.context t.call w with ⟨stage, w'⟩
  rw [started] at first now runs dropped
  obtain rfl : stage = .run (m.enter t.call).1 := first
  dsimp only at now runs dropped
  -- the world right after the run of the tool
  have ran : t.tool w' = (t.outcome, w'.countRun.2.advance t.delay) := rfl
  have ended := m.finish_now .memory t.context t.call (m.enter t.call).1 t.outcome
    (w'.countRun.2.advance t.delay)
  have entries := m.finish_entries t.context t.call (m.enter t.call).1 t.outcome
    (w'.countRun.2.advance t.delay)
  have clock : (w'.countRun.2.advance t.delay).now = w.now + t.delay :=
    congrArg (· + t.delay) now
  have count : (w'.countRun.2.advance t.delay).runs = w.runs + 1 := congrArg (· + 1) runs
  rw [clock] at entries ended
  rw [count] at ended
  simp only [playCall, execute, started, ran]
  exact ⟨by rw [ended.1, ended.2, Nat.add_sub_cancel_left], ended.1, w'.store, dropped, entries⟩

/-! ### What the log tells -/

/-- What the log tells about the store: from now on exactly that is live which the latest call of
the log with something to keep has put, and the calls of the log ended one after another. -/
structure Recalls (m : Middleware) (log : List Played) (w : World Store) : Prop where
  live : ∀ key later, w.now ≤ later → w.store.liveAt later key =
    (log.findSome? (Played.put? m key)).bind (Store.Write.liveAt later)
  ended_le : ∀ p ∈ log, p.ended ≤ w.now
  sorted : log.Pairwise fun p q => q.ended ≤ p.ended

lemma recalls_empty (store_empty : w.store = Store.empty) : Recalls m [] w :=
  ⟨fun key later _ => by rw [store_empty]; rfl, by simp, List.Pairwise.nil⟩

lemma Recalls.pass (h : Recalls m log w) (time : Nat) : Recalls m log (w.advance time) where
  live key later le := h.live key later (Nat.le_trans (Nat.le_add_right _ _) le)
  ended_le p mem := Nat.le_trans (h.ended_le p mem) (Nat.le_add_right _ _)
  sorted := h.sorted

/-- The log tells about the store after a call if it did so before. -/
lemma Recalls.call (h : Recalls m log w) (t : Trial) :
    Recalls m ((m.playCall t w).1 :: log) (m.playCall t w).2 := by
  cases answered : m.answer? t.call w with
  | some value =>
      obtain ⟨played, now, dropped⟩ := playCall_served answered
      have nothing_put : ∀ key, Played.put? m key ⟨t, .ok value, 0, w.now⟩ = none := by
        intro key
        rw [Played.put?]
        split <;> simp
      rw [played]
      refine ⟨fun key later le => ?_, ?_, ?_⟩
      · rw [now] at le
        rw [dropped.liveAt_eq le, h.live key later le, List.findSome?_cons, nothing_put]
      · simpa [now] using h.ended_le
      · exact List.pairwise_cons.mpr ⟨h.ended_le, h.sorted⟩
  | none =>
      obtain ⟨played, now, s, dropped, entries⟩ := playCall_ran answered
      rw [played]
      refine ⟨fun key later le => ?_, ?_, ?_⟩
      · rw [now] at le
        have before := dropped.liveAt_eq (Nat.le_trans (Nat.le_add_right w.now t.delay) le) key
        rw [h.live key later (Nat.le_trans (Nat.le_add_right _ _) le)] at before
        rw [List.findSome?_cons, Played.put?]
        rcases kept : m.kept? (m.enter t.call).1 t.outcome with _ | ⟨own, value⟩
        · rw [kept] at entries
          rw [Store.liveAt_of_entries_eq entries, before]
        · rw [kept] at entries
          rw [Store.liveAt, entries, Table.get?_insert]
          by_cases same : key = own
          · simp [same, Store.Write.liveAt]
          · simpa [same, Ne.symm same, Store.liveAt] using before
      · intro p mem
        rcases List.mem_cons.mp mem with rfl | mem
        · exact Nat.le_of_eq now.symm
        · rw [now]
          exact Nat.le_trans (h.ended_le p mem) (Nat.le_add_right _ _)
      · exact List.pairwise_cons.mpr
          ⟨fun p mem => Nat.le_trans (h.ended_le p mem) (Nat.le_add_right _ _), h.sorted⟩

/-- After any turns the log tells about the store. -/
lemma recalls_play (turns : List Turn) (h : Recalls m log w) :
    Recalls m (m.play turns log w).1 (m.play turns log w).2 := by
  induction turns generalizing log w with
  | nil => exact h
  | cons turn rest ih =>
      cases turn with
      | call t => exact ih (h.call t)
      | pass time => exact ih (h.pass time)

/-! ### The call that serves another -/

lemma put?_eq_some_iff {key : String} {p : Played} {write : Store.Write} :
    p.put? m key = some write ↔
      ∃ value, m.kept? (m.enter p.call).1 p.outcome = some (key, value) ∧ p.runs ≠ 0 ∧
        write = .put p.ended value (m.policy.lifetime 0) := by
  rw [Played.put?]
  rcases kept : m.kept? (m.enter p.call).1 p.outcome with _ | ⟨own, bytes⟩
  · simp
  · simp only [Option.ite_none_right_eq_some, Option.some.injEq, Prod.mk.injEq]
    constructor
    · rintro ⟨⟨ran, rfl⟩, rfl⟩
      exact ⟨bytes, ⟨rfl, rfl⟩, ran, rfl⟩
    · rintro ⟨value, ⟨rfl, rfl⟩, ran, rfl⟩
      exact ⟨⟨ran, rfl⟩, rfl⟩

/-- Under a key that is accepted a call has put living bytes exactly if it serves them and the
policy gives results a lifetime. -/
lemma put?_live_iff {key : String} {now : Nat} {value : Bytes} {p : Played}
    (valid : Key.isValid key = true) :
    (p.put? m key).bind (Store.Write.liveAt now) = some value ↔
      0 < m.policy.lifetime 0 ∧ p.Serves m key now value := by
  rw [Option.bind_eq_some_iff]
  constructor
  · rintro ⟨write, put, live⟩
    obtain ⟨bytes, kept, ran, rfl⟩ := put?_eq_some_iff.mp put
    obtain ⟨rfl, fresh⟩ := Entry.liveAt_lasting_eq_some_iff.mp live
    obtain ⟨entered, succeeded, -, lives⟩ := kept?_eq_some_iff.mp kept
    obtain ⟨allowed, derived⟩ := enter_eq_some_iff.mp entered
    exact ⟨Nat.pos_of_ne_zero lives, allowed, derived, ran, succeeded, fresh⟩
  · rintro ⟨lives, serves⟩
    have entered := enter_eq_some_iff.mpr ⟨serves.allowed, serves.derived⟩
    have kept :=
      kept?_eq_some_iff.mpr ⟨entered, serves.succeeded, valid, Nat.ne_of_gt lives⟩
    refine ⟨_, put?_eq_some_iff.mpr ⟨value, kept, serves.ran, rfl⟩, ?_⟩
    exact Entry.liveAt_lasting_eq_some_iff.mpr ⟨rfl, serves.fresh⟩

/-- A put at a later instant outlives one at an earlier instant. -/
lemma put_fresh_mono {start later now lifetime : Nat} (le : start ≤ later)
    (fresh : now < start + lifetime ∨ Instant.after? start lifetime = none) :
    now < later + lifetime ∨ Instant.after? later lifetime = none := by
  rcases fresh with fresh | endless
  · exact Or.inl (by omega)
  · refine Or.inr ?_
    simp only [Instant.after?, ite_eq_right_iff, reduceCtorEq, imp_false] at endless ⊢
    omega

/-- A call of the log that has put something ended no later than the latest one that has. -/
lemma Recalls.ended_le_of_latest (h : Recalls m log w) {key : String} {p q : Played}
    {after before : List Played} (split : log = after ++ q :: before)
    (idle : ∀ r ∈ after, r.put? m key = none) (mem : p ∈ log) {write : Store.Write}
    (put : p.put? m key = some write) : p.ended ≤ q.ended := by
  have sorted := h.sorted
  rw [split] at mem sorted
  rcases List.mem_append.mp mem with mem | mem
  · simp [idle p mem] at put
  · rcases List.mem_cons.mp mem with rfl | mem
    · exact Nat.le_refl _
    · exact (List.pairwise_cons.mp (List.pairwise_append.mp sorted).2.1).1 p mem

/-- If any call of the log serves bytes under a key, the latest one that has put anything does. -/
lemma Recalls.live_of_serves (h : Recalls m log w) {key : String} {p : Played} {value : Bytes}
    (valid : Key.isValid key = true) (lives : 0 < m.policy.lifetime 0) (mem : p ∈ log)
    (serves : p.Serves m key w.now value) :
    ∃ other, w.store.liveAt w.now key = some other := by
  rw [h.live key w.now (Nat.le_refl _)]
  have live := (put?_live_iff valid).mpr ⟨lives, serves⟩
  obtain ⟨own, put, -⟩ := Option.bind_eq_some_iff.mp live
  cases latest : log.findSome? (Played.put? m key) with
  | none => simp [List.findSome?_eq_none_iff.mp latest p mem] at put
  | some write =>
      obtain ⟨after, q, before, split, q_put, idle⟩ := List.findSome?_eq_some_iff.mp latest
      have le : p.ended ≤ q.ended := h.ended_le_of_latest split idle mem put
      obtain ⟨bytes, -, -, rfl⟩ := put?_eq_some_iff.mp q_put
      refine ⟨bytes, Entry.liveAt_lasting_eq_some_iff.mpr ⟨rfl, ?_⟩⟩
      exact put_fresh_mono le serves.fresh

/-- Living bytes were put by a call that serves them, and no later call serves any. -/
lemma Recalls.serves_of_live (h : Recalls m log w) {key : String} {value : Bytes}
    (valid : Key.isValid key = true) (live : w.store.liveAt w.now key = some value) :
    0 < m.policy.lifetime 0 ∧ ∃ after p before, log = after ++ p :: before ∧
      p.Serves m key w.now value ∧ ∀ q ∈ after, ∀ other, ¬ q.Serves m key w.now other := by
  rw [h.live key w.now (Nat.le_refl _)] at live
  obtain ⟨write, latest, write_live⟩ := Option.bind_eq_some_iff.mp live
  obtain ⟨after, p, before, split, put, idle⟩ := List.findSome?_eq_some_iff.mp latest
  obtain ⟨lives, serves⟩ := (put?_live_iff (m := m) (p := p) valid).mp
    (by rw [put, Option.bind_some, write_live])
  refine ⟨lives, after, p, before, split, serves, fun q mem other q_serves => ?_⟩
  have q_live := (put?_live_iff valid).mpr ⟨lives, q_serves⟩
  simp [idle q mem] at q_live

/-- The cache answers a call exactly if the call may use it under an accepted key for which a call
of the log serves bytes. -/
lemma Recalls.answer?_isSome_iff (h : Recalls m log w) (call : Call) :
    (m.answer? call w).isSome = true ↔ m.skips call.toolId call.tags = false ∧
      ∃ key, m.keyer call.toolId call.input = .ok key ∧ Key.isValid key = true ∧
        0 < m.policy.lifetime 0 ∧ ∃ q ∈ log, ∃ value, q.Serves m key w.now value := by
  rw [Option.isSome_iff_exists]
  constructor
  · rintro ⟨value, answered⟩
    obtain ⟨allowed, key, derived, valid, live⟩ := answer?_eq_some_iff.mp answered
    obtain ⟨lives, after, q, before, split, serves, -⟩ := h.serves_of_live valid live
    exact ⟨allowed, key, derived, valid, lives, q, by simp [split], value, serves⟩
  · rintro ⟨allowed, key, derived, valid, lives, q, mem, value, serves⟩
    obtain ⟨other, live⟩ := h.live_of_serves valid lives mem serves
    exact ⟨other, answer?_eq_some_iff.mpr ⟨allowed, key, derived, valid, live⟩⟩

/-- A run of a tool that fails adds, replaces and extends nothing. -/
lemma playCall_dropsExpired {t : Trial} {error : ToolError} (failed : t.outcome = .error error) :
    Store.DropsExpired w.now w.store (m.playCall t w).2.store := by
  cases answered : m.answer? t.call w with
  | some value => exact (playCall_served answered).2.2
  | none =>
      obtain ⟨-, -, s, dropped, entries⟩ := playCall_ran answered
      have unkept : m.kept? (m.enter t.call).1 t.outcome = none := by
        rw [failed]
        cases (m.enter t.call).1 <;> rfl
      rw [unkept] at entries
      intro key
      rw [entries]
      exact dropped key

/-- After any turns over an empty store a call is answered by the cache exactly if it may use the
cache, has a key that is accepted, the policy gives results a lifetime, and an earlier call serves
bytes under that key. It then gets the bytes of the latest such call. In every other case its tool
runs once, the result is the outcome of that run, and the lifetime of what it leaves counts from the
end of that run. A run that fails adds, replaces and extends nothing. -/
theorem play_call (m : Middleware) (turns : List Turn) (start : World Store) (t : Trial) :
    let log := (m.play turns [] { start with store := .empty }).1
    let w := (m.play turns [] { start with store := .empty }).2
    let p := (m.playCall t w).1
    (p.runs = 0 ↔ m.skips t.call.toolId t.call.tags = false ∧
        ∃ key, m.keyer t.call.toolId t.call.input = .ok key ∧ Key.isValid key = true ∧
          0 < m.policy.lifetime 0 ∧ ∃ q ∈ log, ∃ value, q.Serves m key w.now value) ∧
      (p.runs = 0 ∧ p.ended = w.now ∧
          (∃ key after q before value, m.keyer t.call.toolId t.call.input = .ok key ∧
            log = after ++ q :: before ∧ q.Serves m key w.now value ∧
            (∀ r ∈ after, ∀ other, ¬ r.Serves m key w.now other) ∧ p.result = .ok value) ∨
        p.runs = 1 ∧ p.ended = w.now + t.delay ∧ p.result = t.outcome) ∧
      ∀ error, t.outcome = .error error →
        Store.DropsExpired w.now w.store (m.playCall t w).2.store := by
  intro log w p
  have recalls : Recalls m log w := recalls_play turns (recalls_empty rfl)
  refine ⟨?_, ?_, fun error failed => playCall_dropsExpired failed⟩
  · rw [← recalls.answer?_isSome_iff t.call]
    cases answered : m.answer? t.call w with
    | some value =>
        have unrun : p = ⟨t, .ok value, 0, w.now⟩ := (playCall_served answered).1
        simp [unrun]
    | none =>
        have run_once : p = ⟨t, t.outcome, 1, w.now + t.delay⟩ := (playCall_ran answered).1
        simp [run_once]
  · cases answered : m.answer? t.call w with
    | some value =>
        have unrun : p = ⟨t, .ok value, 0, w.now⟩ := (playCall_served answered).1
        obtain ⟨allowed, key, derived, valid, live⟩ := answer?_eq_some_iff.mp answered
        obtain ⟨-, after, q, before, split, serves, latest⟩ := recalls.serves_of_live valid live
        rw [unrun]
        exact Or.inl
          ⟨rfl, rfl, key, after, q, before, value, derived, split, serves, latest, rfl⟩
    | none =>
        have run_once : p = ⟨t, t.outcome, 1, w.now + t.delay⟩ := (playCall_ran answered).1
        rw [run_once]
        exact Or.inr ⟨rfl, rfl, rfl⟩

end Middleware

end ReadThrough
