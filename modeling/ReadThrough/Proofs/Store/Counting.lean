import ReadThrough.Proofs.Store.Purging

/-!
What the counters of a store say about all that has happened to it, reads that overlap with other
operations included.

* `Act.total`: the sum of an amount over acts, each taken in the state in which the act comes.
* `Act.begins`, `Act.finds`, `Act.stores`, `Act.leavesOut`, `Act.purges`, `Act.sweeps`,
  `Act.deletes`, `Act.replaces`: the amounts, none of which looks at a counter.
* `set_counters`, `sweep_counters`, `startGet_counters`, `Pending.finish_counters`, and `set_size`,
  `delete_size`, `sweep_size`: what each operation does to the counters and to the number of
  entries.
* `Act.Booked`: an act does to both what its amounts say. Every act does (`booked`). A read under
  way that has met an expired entry still owes its miss (`Shared.lookups`), and one that has found
  bytes still owes its answer (`Shared.answeredHits`).
* `refused`: under a key that is refused nothing changes but the misses.
* `counters_runAll`: after any acts the counters are the sums, and every entry that was written is
  still there, has expired and was purged or swept, was deleted, or was replaced.
-/

namespace ReadThrough.Store

/-! ### Amounts -/

namespace Act

/-- The sum of an amount over acts, each taken in the state in which the act comes. -/
def total (amount : Act → Shared → Nat) : List Act → Shared → Nat
  | [], _ => 0
  | act :: rest, t => amount act t + total amount rest (act.run t).state

/-- Reads that begin. -/
def begins : Act → Shared → Nat
  | .lookUp _, _ => 1
  | _, _ => 0

/-- Reads that answer bytes. -/
def finds (act : Act) (t : Shared) : Nat :=
  match (act.run t).answer with
  | .value (some _) => 1
  | _ => 0

/-- Writes under a valid key with a lifetime. -/
def stores : Act → Shared → Nat
  | .write (.set key _ lifetime), _ => if Key.isValid key = true ∧ lifetime ≠ 0 then 1 else 0
  | _, _ => 0

/-- Writes under a valid key without a lifetime. -/
def leavesOut : Act → Shared → Nat
  | .write (.set key _ lifetime), _ => if Key.isValid key = true ∧ lifetime = 0 then 1 else 0
  | _, _ => 0

/-- Entries that a read takes away at its end. -/
def purges : Act → Shared → Nat
  | .finish ticket, t => t.state.size - ((finish ticket).run t).state.state.size
  | _, _ => 0

/-- Entries that a sweep answers to have removed. -/
def sweeps (act : Act) (t : Shared) : Nat :=
  match (act.run t).answer with
  | .removed count => count
  | _ => 0

/-- Removals of a valid key that has an entry. -/
def deletes : Act → Shared → Nat
  | .write (.delete key), t =>
    if Key.isValid key = true ∧ (t.state.entries.get? key).isSome then 1 else 0
  | _, _ => 0

/-- Writes under a valid key with a lifetime where there is an entry already. -/
def replaces : Act → Shared → Nat
  | .write (.set key _ lifetime), t =>
    if (Key.isValid key = true ∧ lifetime ≠ 0) ∧ (t.state.entries.get? key).isSome then 1 else 0
  | _, _ => 0

/-- A counter that every act raises by an amount has been raised by the sum. -/
lemma eq_total (count : Shared → UInt64) (amount : Act → Shared → Nat)
    (step : ∀ act t, count (act.run t).state = count t + UInt64.ofNat (amount act t))
    (acts : List Act) (t : Shared) :
    count (runAll acts t) = count t + UInt64.ofNat (total amount acts t) := by
  induction acts generalizing t with
  | nil => exact (UInt64.add_zero _).symm
  | cons act rest ih => rw [runAll, ih, step, total, UInt64.ofNat_add, UInt64.add_assoc]

end Act

/-! ### What an operation does to the counters -/

lemma set_counters (s : Store) (now : Nat) (key : String) (value : Bytes) (lifetime : Nat) :
    (s.set now key value lifetime).state.counters =
      { s.counters with
        writes := s.counters.writes +
          UInt64.ofNat (if Key.isValid key = true ∧ lifetime ≠ 0 then 1 else 0)
        skippedWrites := s.counters.skippedWrites +
          UInt64.ofNat (if Key.isValid key = true ∧ lifetime = 0 then 1 else 0) } := by
  rw [set, Key.isValid]
  cases Key.check key with
  | error e => simp
  | ok u =>
      by_cases none_left : lifetime = 0
      · simp [none_left, countSkippedWrite]
      · simp [none_left, countWrite]

lemma delete_counters (s : Store) (key : String) :
    (s.delete key).state.counters = s.counters := by
  rw [delete]
  cases Key.check key <;> rfl

lemma sweep_counters (s : Store) (now : Nat) :
    (s.sweep now).state.counters =
      { s.counters with
        expirations := s.counters.expirations + UInt64.ofNat (s.sweep now).answer } := by
  simp only [sweep]
  split
  · simp
  · rfl

/-- A lookup counts a hit or a miss, unless it has met an expired entry. -/
lemma startGet_counters (s : Store) (now : Nat) (key : String) :
    (s.startGet now key).2.counters =
      { s.counters with
        hits := s.counters.hits + UInt64.ofNat (s.startGet now key).1.answer.isSome.toNat
        misses := s.counters.misses +
          UInt64.ofNat (decide ((s.startGet now key).1 = .answered none)).toNat } := by
  rw [startGet]
  split
  · cases s.lookup now key <;> simp [GetStage.answer, countHit, countMiss]
  · simp [GetStage.answer, countMiss]

/-- The end of a read counts the entry that it removes, and the miss that its lookup has left to
it. -/
lemma Pending.finish_counters (read : Pending) (now : Nat) (s : Store) :
    ∃ removed, (read.finish now s).state.size + removed = s.size ∧
      (read.finish now s).state.counters =
        { s.counters with
          misses := s.counters.misses + UInt64.ofNat (decide (read.stage = .purging)).toNat
          expirations := s.counters.expirations + UInt64.ofNat removed } := by
  rw [finish]
  cases read.stage with
  | answered value => exact ⟨0, rfl, by simp⟩
  | purging =>
      obtain ⟨removed, purged⟩ := s.finishGet_purged now read.key
      refine ⟨removed, purged.size, ?_⟩
      have others : (s.finishGet now read.key).state.counters =
          { s.counters with
            misses := s.counters.misses + 1
            expirations := (s.finishGet now read.key).state.counters.expirations } := by
        rw [finishGet, purge]
        cases s.lookup now read.key <;> rfl
      rw [others, purged.counted]
      simp

/-! ### What an operation does to the number of entries -/

lemma set_size (s : Store) (now : Nat) (key : String) (value : Bytes) (lifetime : Nat) :
    (s.set now key value lifetime).state.size +
        (if (Key.isValid key = true ∧ lifetime ≠ 0) ∧ (s.entries.get? key).isSome then 1 else 0) =
      s.size + (if Key.isValid key = true ∧ lifetime ≠ 0 then 1 else 0) := by
  have grown := s.entries.size_insert key (Entry.lasting now value lifetime)
  rw [size, set_entries]
  by_cases stored : Key.isValid key = true ∧ lifetime ≠ 0
  · cases resident : (s.entries.get? key).isSome <;> simpa [stored, resident, size] using grown
  · simp [stored, size]

lemma delete_size (s : Store) (key : String) :
    (s.delete key).state.size +
        (if Key.isValid key = true ∧ (s.entries.get? key).isSome then 1 else 0) = s.size := by
  have shrunk := s.entries.size_erase key
  rw [size, delete_entries]
  by_cases valid : Key.isValid key = true
  · cases resident : (s.entries.get? key).isSome <;> simpa [valid, resident, size] using shrunk
  · simp [valid, size]

lemma sweep_size (s : Store) (now : Nat) :
    (s.sweep now).state.size + (s.sweep now).answer = s.size := by
  have le : (s.entries.keep fun _ entry => !entry.isExpired now).size ≤ s.entries.size :=
    List.length_filter_le _ _
  simp only [sweep]
  split
  · rfl
  · simp only [size, countExpirations]
    omega

/-! ### What an act does -/

namespace Shared

/-- The number of reads under way that have come to such a stage. -/
def underWay (t : Shared) (test : GetStage → Bool) : Nat :=
  t.pending.countP fun read => test read.stage

/-- The lookups counted so far, and those whose reads still have to count their miss. -/
def lookups (t : Shared) : UInt64 :=
  t.state.counters.hits + t.state.counters.misses + UInt64.ofNat (t.underWay (· = .purging))

/-- The hits counted so far, but for those whose reads still have to answer. -/
def answeredHits (t : Shared) : UInt64 :=
  t.state.counters.hits - UInt64.ofNat (t.underWay fun stage => stage.answer.isSome)

lemma underWay_eraseP {t : Shared} {ticket : Nat} {read : Pending}
    (found : t.read? ticket = some read) (test : GetStage → Bool) :
    t.underWay test =
      (t.pending.eraseP (Pending.has ticket)).countP (fun read => test read.stage) +
        (test read.stage).toNat := by
  obtain ⟨older, newer, split, erased, -, -⟩ := split_of_read? found
  rw [underWay, erased, split]
  cases tested : test read.stage <;> simp [tested, Nat.add_assoc]

end Shared

namespace Act

/-- What an act does to the counters and to the number of entries is what its amounts say. -/
structure Booked (act : Act) (t : Shared) : Prop where
  lookups : (act.run t).state.lookups = t.lookups + UInt64.ofNat (act.begins t)
  hits : (act.run t).state.answeredHits = t.answeredHits + UInt64.ofNat (act.finds t)
  writes : (act.run t).state.state.counters.writes =
    t.state.counters.writes + UInt64.ofNat (act.stores t)
  skippedWrites : (act.run t).state.state.counters.skippedWrites =
    t.state.counters.skippedWrites + UInt64.ofNat (act.leavesOut t)
  expirations : (act.run t).state.state.counters.expirations =
    t.state.counters.expirations + UInt64.ofNat (act.purges t + act.sweeps t)
  entries : (act.run t).state.state.size +
      (act.purges t + act.sweeps t + act.deletes t + act.replaces t) =
    t.state.size + act.stores t

lemma write_counters (change : Change) (t : Shared) :
    ((write change).run t).state.state.counters =
      { t.state.counters with
        writes := t.state.counters.writes + UInt64.ofNat (stores (.write change) t)
        skippedWrites :=
          t.state.counters.skippedWrites + UInt64.ofNat (leavesOut (.write change) t)
        expirations :=
          t.state.counters.expirations + UInt64.ofNat (sweeps (.write change) t) } := by
  have unchanged : ∀ word : UInt64, word + UInt64.ofNat 0 = word := UInt64.add_zero
  cases change with
  | set key value lifetime =>
      have written := t.state.set_counters t.now key value lifetime
      simpa only [run, Change.run, stores, leavesOut, sweeps, unchanged] using written
  | delete key =>
      have deleted := t.state.delete_counters key
      simpa only [run, Change.run, stores, leavesOut, sweeps, unchanged] using deleted
  | sweep =>
      have swept := t.state.sweep_counters t.now
      simpa only [run, Change.run, stores, leavesOut, sweeps, unchanged] using swept

lemma write_size (change : Change) (t : Shared) :
    ((write change).run t).state.state.size +
        (sweeps (.write change) t + deletes (.write change) t + replaces (.write change) t) =
      t.state.size + stores (.write change) t := by
  cases change with
  | set key value lifetime =>
      have written := t.state.set_size t.now key value lifetime
      simpa only [run, Change.run, stores, sweeps, deletes, replaces, Nat.zero_add] using written
  | delete key =>
      have deleted := t.state.delete_size key
      simpa only [run, Change.run, stores, sweeps, deletes, replaces, Nat.zero_add, Nat.add_zero]
        using deleted
  | sweep =>
      have swept := t.state.sweep_size t.now
      simpa only [run, Change.run, stores, sweeps, deletes, replaces, Nat.add_zero] using swept

/-- A write leaves the reads under way alone and answers no read. -/
lemma booked_write (change : Change) (t : Shared) : Booked (.write change) t := by
  have counters := write_counters change t
  have unanswered : finds (.write change) t = 0 := by cases change <;> rfl
  have unpurged : purges (.write change) t = 0 := rfl
  refine ⟨?_, ?_, ?_, ?_, ?_, ?_⟩
  · rw [Shared.lookups, counters]
    exact (UInt64.add_zero _).symm
  · rw [Shared.answeredHits, counters, unanswered]
    exact (UInt64.add_zero _).symm
  · rw [counters]
  · rw [counters]
  · rw [counters, unpurged, Nat.zero_add]
  · rw [unpurged, Nat.zero_add]
    exact write_size change t

lemma underWay_lookUp (key : String) (t : Shared) (test : GetStage → Bool) :
    ((lookUp key).run t).state.underWay test =
      t.underWay test + (test (t.state.startGet t.now key).1).toNat := by
  rw [run, Shared.underWay, List.countP_append]
  cases tested : test (t.state.startGet t.now key).1 <;> simp [tested, Shared.underWay]

/-- A lookup counts a hit or a miss, or leaves the miss to the end of its read. -/
lemma booked_lookUp (key : String) (t : Shared) : Booked (.lookUp key) t := by
  have counters : ((lookUp key).run t).state.state.counters = _ :=
    t.state.startGet_counters t.now key
  have entries : ((lookUp key).run t).state.state.entries = t.state.entries :=
    entries_of_startGet rfl
  have one_of_three : (t.state.startGet t.now key).1.answer.isSome.toNat +
      (decide ((t.state.startGet t.now key).1 = .answered none)).toNat +
      (decide ((t.state.startGet t.now key).1 = .purging)).toNat = 1 := by
    rcases (t.state.startGet t.now key).1 with (_ | _) | _ <;> rfl
  refine ⟨?_, ?_, ?_, ?_, ?_, ?_⟩
  · have begun : begins (.lookUp key) t = _ := one_of_three.symm
    rw [Shared.lookups, counters, underWay_lookUp, begun, Shared.lookups]
    simp only [UInt64.ofNat_add]
    grind
  · have unanswered : UInt64.ofNat (finds (.lookUp key) t) = 0 := rfl
    rw [Shared.answeredHits, counters, underWay_lookUp, unanswered, Shared.answeredHits]
    simp only [UInt64.ofNat_add]
    grind
  · rw [counters]
    exact (UInt64.add_zero _).symm
  · rw [counters]
    exact (UInt64.add_zero _).symm
  · rw [counters]
    exact (UInt64.add_zero _).symm
  · rw [Store.size, entries]
    rfl

/-- The end of a read counts what the lookup has left to it, and what it purges. -/
lemma booked_finish (ticket : Nat) (t : Shared) : Booked (.finish ticket) t := by
  cases found : t.read? ticket with
  | none =>
      have idle := run_finish_of_none found
      constructor <;>
        simp [idle, begins, finds, stores, leavesOut, purges, sweeps, deletes, replaces]
  | some read =>
      have ran := run_finish_of_some found
      obtain ⟨removed, size, counters⟩ := read.finish_counters t.now t.state
      have purged : purges (.finish ticket) t = removed := by
        rw [purges, ran]
        exact Nat.sub_eq_of_eq_add (size.symm.trans (Nat.add_comm _ _))
      have answered : finds (.finish ticket) t = read.stage.answer.isSome.toNat := by
        rw [finds, ran, read.finish_answer]
        cases read.stage.answer <;> rfl
      have swept : sweeps (.finish ticket) t = 0 := by rw [sweeps, ran]
      have others := Shared.underWay_eraseP found
      refine ⟨?_, ?_, ?_, ?_, ?_, ?_⟩
      · rw [ran, Shared.lookups, Shared.lookups, others]
        simp only [counters, Shared.underWay, UInt64.ofNat_add, begins]
        grind
      · rw [ran, Shared.answeredHits, Shared.answeredHits, others, answered]
        simp only [counters, Shared.underWay, UInt64.ofNat_add]
        grind
      · rw [ran, counters]
        exact (UInt64.add_zero _).symm
      · rw [ran, counters]
        exact (UInt64.add_zero _).symm
      · rw [ran, counters, purged, swept]
        rfl
      · rw [ran, purged, swept]
        exact size

/-- Every act does what its amounts say. -/
lemma booked (act : Act) (t : Shared) : Booked act t := by
  cases act with
  | write change => exact booked_write change t
  | lookUp key => exact booked_lookUp key t
  | finish ticket => exact booked_finish ticket t
  | _ =>
      constructor <;>
        simp [run, Shared.lookups, Shared.answeredHits, Shared.underWay, begins, finds, stores,
          leavesOut, purges, sweeps, deletes, replaces]

/-! ### What a run does -/

/-- Entries are conserved: those written are still there or were taken away. -/
lemma entries_runAll (acts : List Act) (t : Shared) :
    (runAll acts t).state.size +
        (total purges acts t + total sweeps acts t + total deletes acts t +
          total replaces acts t) =
      t.state.size + total stores acts t := by
  induction acts generalizing t with
  | nil => rfl
  | cons act rest ih =>
      have first := (booked act t).entries
      have others := ih (act.run t).state
      simp only [runAll, total]
      omega

lemma total_add (amount amount' : Act → Shared → Nat) (acts : List Act) (t : Shared) :
    total (fun act t => amount act t + amount' act t) acts t =
      total amount acts t + total amount' acts t := by
  induction acts generalizing t with
  | nil => rfl
  | cons act rest ih =>
      simp only [total, ih]
      omega

section

variable (start : Nat) (acts : List Act)

lemma writes_runAll :
    (runAll acts (.opening start)).state.counters.writes =
      UInt64.ofNat (total stores acts (.opening start)) := by
  rw [eq_total (fun t => t.state.counters.writes) stores (fun act t => (booked act t).writes)]
  exact UInt64.zero_add _

lemma skippedWrites_runAll :
    (runAll acts (.opening start)).state.counters.skippedWrites =
      UInt64.ofNat (total leavesOut acts (.opening start)) := by
  rw [eq_total (fun t => t.state.counters.skippedWrites) leavesOut
    (fun act t => (booked act t).skippedWrites)]
  exact UInt64.zero_add _

lemma expirations_runAll :
    (runAll acts (.opening start)).state.counters.expirations =
      UInt64.ofNat (total purges acts (.opening start) + total sweeps acts (.opening start)) := by
  rw [eq_total (fun t => t.state.counters.expirations) (fun act t => act.purges t + act.sweeps t)
    (fun act t => (booked act t).expirations), total_add]
  exact UInt64.zero_add _

variable {start acts} (idle : (runAll acts (.opening start)).pending = [])
include idle

lemma underWay_of_idle (test : GetStage → Bool) :
    (runAll acts (.opening start)).underWay test = 0 := by
  rw [Shared.underWay, idle, List.countP_nil]

lemma lookups_runAll :
    (runAll acts (.opening start)).state.counters.hits +
        (runAll acts (.opening start)).state.counters.misses =
      UInt64.ofNat (total begins acts (.opening start)) := by
  have sum := eq_total Shared.lookups begins (fun act t => (booked act t).lookups) acts
    (.opening start)
  have none_yet : (Shared.opening start).lookups = 0 := UInt64.add_zero 0
  rw [Shared.lookups, underWay_of_idle idle, none_yet, UInt64.zero_add] at sum
  exact (UInt64.add_zero _).symm.trans sum

lemma hits_runAll :
    (runAll acts (.opening start)).state.counters.hits =
      UInt64.ofNat (total finds acts (.opening start)) := by
  have sum := eq_total Shared.answeredHits finds (fun act t => (booked act t).hits) acts
    (.opening start)
  have none_yet : (Shared.opening start).answeredHits = 0 := UInt64.sub_zero 0
  rw [Shared.answeredHits, underWay_of_idle idle, none_yet, UInt64.zero_add] at sum
  exact (UInt64.sub_zero _).symm.trans sum

end

end Act

/-- Under a refused key a write and a removal fail and leave the store as it is, and a read finds
nothing and counts a miss. -/
lemma refused {key : String} (invalid : Key.isValid key = false) (s : Store) (now : Nat) :
    ∃ error, (∀ value lifetime, s.set now key value lifetime = ⟨.error error, [], s⟩) ∧
      s.delete key = ⟨.error error, [], s⟩ ∧ s.get now key = ⟨none, [], s.countMiss⟩ := by
  obtain ⟨error, refusal⟩ : ∃ error, Key.check key = .error error := by
    rw [Key.isValid] at invalid
    cases checked : Key.check key with
    | error error => exact ⟨error, rfl⟩
    | ok u => simp [checked] at invalid
  refine ⟨error, fun value lifetime => ?_, ?_, ?_⟩
  · rw [set, refusal]
  · rw [delete, refusal]
  · rw [get, startGet, if_neg (Bool.eq_false_iff.mp invalid)]

/-- After any acts on an empty store, when no read is under way, the counters are the sums over the
acts: as many lookups as reads, and as many hits as reads that found bytes; as many writes, and
writes left out, as there were under valid keys; as many expirations as entries purged or swept.
Each entry that was written is still there, or it was purged, swept, deleted or replaced. Under a
refused key writes and removals fail and change nothing, and a read only counts a miss. -/
theorem counters_runAll (start : Nat) (acts : List Act)
    (idle : (Act.runAll acts (.opening start)).pending = []) :
    let s := (Act.runAll acts (.opening start)).state
    let sum := fun amount => Act.total amount acts (.opening start)
    (s.counters.hits + s.counters.misses = UInt64.ofNat (sum Act.begins) ∧
        s.counters.hits = UInt64.ofNat (sum Act.finds)) ∧
      (s.counters.writes = UInt64.ofNat (sum Act.stores) ∧
        s.counters.skippedWrites = UInt64.ofNat (sum Act.leavesOut)) ∧
      (s.counters.expirations = UInt64.ofNat (sum Act.purges + sum Act.sweeps) ∧
        s.size + (sum Act.purges + sum Act.sweeps) + sum Act.deletes + sum Act.replaces =
          sum Act.stores ∧
        UInt64.ofNat s.size + s.counters.expirations + UInt64.ofNat (sum Act.deletes) +
          UInt64.ofNat (sum Act.replaces) = s.counters.writes) ∧
      ∀ key, Key.isValid key = false → ∀ (r : Store) (now : Nat),
        ∃ error, (∀ value lifetime, r.set now key value lifetime = ⟨.error error, [], r⟩) ∧
          r.delete key = ⟨.error error, [], r⟩ ∧ r.get now key = ⟨none, [], r.countMiss⟩ := by
  intro s sum
  have writes : s.counters.writes = UInt64.ofNat (sum Act.stores) := Act.writes_runAll start acts
  have expirations : s.counters.expirations = UInt64.ofNat (sum Act.purges + sum Act.sweeps) :=
    Act.expirations_runAll start acts
  have taken : s.size + (sum Act.purges + sum Act.sweeps + sum Act.deletes + sum Act.replaces) =
      0 + sum Act.stores := Act.entries_runAll acts (.opening start)
  have conserved : s.size + (sum Act.purges + sum Act.sweeps) + sum Act.deletes +
      sum Act.replaces = sum Act.stores := by omega
  refine ⟨⟨Act.lookups_runAll idle, Act.hits_runAll idle⟩,
    ⟨writes, Act.skippedWrites_runAll start acts⟩, ⟨expirations, conserved, ?_⟩,
    fun key invalid => refused invalid⟩
  rw [expirations, writes, ← conserved]
  simp only [UInt64.ofNat_add]

/-- An expired entry is replaced between the two steps of a read that has met it, one is swept, one
deleted, and one purged by a whole read; a read of an empty key is refused. -/
theorem counters_runAll_mixed :
    let acts : List Act :=
      [.write (.set "a" [1] 5), .write (.set "b" [2] 5), .write (.set "c" [3] 9), .advance 5,
        .lookUp "a", .write (.set "a" [4] 5), .write .sweep, .finish 0, .lookUp "a", .finish 1,
        .write (.delete "a"), .advance 4, .lookUp "c", .finish 2, .write (.set "d" [] 0),
        .lookUp "", .finish 3]
    let s := (Act.runAll acts (.opening 0)).state
    (Act.runAll acts (.opening 0)).pending = [] ∧ s.counters = ⟨1, 3, 2, 4, 1⟩ ∧
      s.size + 2 + 1 + 1 = 4 ∧ s.counters.hits + s.counters.misses = UInt64.ofNat 4 ∧
      Key.isValid "" = false ∧ s.get 9 "" = ⟨none, [], s.countMiss⟩ := by
  intro acts s
  have idle : (Act.runAll acts (.opening 0)).pending = [] := by decide
  have invalid : Key.isValid "" = false := by decide
  obtain ⟨⟨lookups, -⟩, -, ⟨-, entries, -⟩, refusal⟩ := counters_runAll 0 acts idle
  obtain ⟨error, -, -, missed⟩ := refusal "" invalid s 9
  exact ⟨idle, by decide, entries, lookups, invalid, missed⟩

end ReadThrough.Store
