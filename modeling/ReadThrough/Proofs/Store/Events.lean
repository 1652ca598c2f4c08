import ReadThrough.Proofs.Store.Counting

/-!
What the events of a store say about its counters.

* `Event.isPurgedOnRead`, `Event.isWriteSkipped`: the events of purges by readers and of writes left
  out.
* `Event.number`, `Event.sum`: the number that a field of an event shows, and of many events.
* `Act.events`: the events of acts, in their order.
* `Act.Reported`: what an act does is what its events say. That is so for every act (`reported`).
* `expirations_eq_events`, `skippedWrites_eq_events`: so after any acts two counters are what the
  events say.
-/

namespace ReadThrough

namespace Event

/-- Whether an event is the purge of an expired entry by a reader. -/
def isPurgedOnRead : Event → Bool
  | .purgedOnRead _ => true
  | _ => false

/-- Whether an event is a write left out for want of a lifetime. -/
def isWriteSkipped : Event → Bool
  | .writeSkipped _ => true
  | _ => false

/-- The number that a field of an event shows, zero without that field. -/
def number (field : String) (e : Event) : Nat :=
  match e.fields.lookup field with
  | some text => Nat.ofDigitChars 10 text.toList 0
  | none => 0

lemma number_natText {field : String} {e : Event} {n : Nat}
    (shown : e.fields.lookup field = some (String.ofList (natText n))) : e.number field = n := by
  simp [number, shown, ofDigitChars_natText]

/-- The sum of the numbers that a field of events shows. -/
def sum (field : String) : List Event → Nat
  | [] => 0
  | e :: es => e.number field + sum field es

@[simp] lemma sum_nil (field : String) : sum field [] = 0 :=
  rfl

/-- The event of a sweep shows the number of entries removed. -/
lemma sum_purged (count : Nat) : sum "removed" [purged count] = count := by
  have shown : (purged count).number "removed" = count := number_natText rfl
  rw [sum, shown, sum_nil, Nat.add_zero]

lemma sum_append (field : String) (es es' : List Event) :
    sum field (es ++ es') = sum field es + sum field es' := by
  induction es with
  | nil => exact (Nat.zero_add _).symm
  | cons e es ih => rw [List.cons_append, sum, sum, ih, Nat.add_assoc]

end Event

namespace Store

/-! ### What an operation reports -/

/-- The end of a read that has met an expired entry reports the entry that it takes away. -/
lemma finishGet_events (s : Store) (now : Nat) (key : String) :
    let reply := s.finishGet now key
    reply.state.size + reply.events.countP Event.isPurgedOnRead = s.size ∧
      Event.sum "removed" reply.events = 0 ∧
      reply.events.countP Event.isWriteSkipped = 0 := by
  rw [finishGet, purge]
  cases met : s.lookup now key with
  | expired =>
      obtain ⟨e, found, -⟩ := lookup_eq_expired_iff.mp met
      have gone := s.entries.size_erase key
      rw [found] at gone
      exact ⟨gone, rfl, rfl⟩
  | _ => exact ⟨rfl, rfl, rfl⟩

/-- A write reports that it is left out if it is. -/
lemma set_events (s : Store) (now : Nat) (key : String) (value : Bytes) (lifetime : Nat) :
    (s.set now key value lifetime).events =
      if Key.isValid key = true ∧ lifetime = 0 then [.writeSkipped key] else [] := by
  rw [set, Key.isValid]
  cases Key.check key with
  | error e => simp
  | ok u => by_cases none_left : lifetime = 0 <;> simp [none_left]

lemma delete_events (s : Store) (key : String) : (s.delete key).events = [] := by
  rw [delete]
  cases Key.check key <;> rfl

/-- A sweep reports how many entries it has removed, if there are any. -/
lemma sweep_events (s : Store) (now : Nat) :
    (s.sweep now).events =
      if (s.sweep now).answer = 0 then [] else [.purged (s.sweep now).answer] := by
  simp only [sweep]
  split <;> simp_all

namespace Act

/-- The events of acts, in their order. -/
def events : List Act → Shared → List Event
  | [], _ => []
  | act :: rest, t => (act.run t).events ++ events rest (act.run t).state

/-- What an act does is what its events say. -/
structure Reported (act : Act) (t : Shared) : Prop where
  purges : (act.run t).events.countP Event.isPurgedOnRead = act.purges t
  sweeps : Event.sum "removed" (act.run t).events = act.sweeps t
  leavesOut : (act.run t).events.countP Event.isWriteSkipped = act.leavesOut t

lemma reported_write (change : Change) (t : Shared) : Reported (.write change) t := by
  cases change with
  | set key value lifetime =>
      have events : ((write (.set key value lifetime)).run t).events =
          if Key.isValid key = true ∧ lifetime = 0 then [.writeSkipped key] else [] :=
        t.state.set_events t.now key value lifetime
      refine ⟨?_, ?_, ?_⟩ <;> rw [events]
      · split <;> rfl
      · split <;> rfl
      · rw [leavesOut]
        split <;> rfl
  | delete key =>
      have events : ((write (.delete key)).run t).events = [] := t.state.delete_events key
      refine ⟨?_, ?_, ?_⟩ <;> rw [events] <;> rfl
  | sweep =>
      have events : ((write .sweep).run t).events =
          if sweeps (.write .sweep) t = 0 then [] else [.purged (sweeps (.write .sweep) t)] :=
        t.state.sweep_events t.now
      refine ⟨?_, ?_, ?_⟩ <;> rw [events]
      · split <;> rfl
      · split
        · rename_i unswept
          rw [unswept, Event.sum_nil]
        · exact Event.sum_purged _
      · split <;> rfl

lemma reported_finish (ticket : Nat) (t : Shared) : Reported (.finish ticket) t := by
  cases found : t.read? ticket with
  | none =>
      have idle := run_finish_of_none found
      constructor <;> simp [idle, purges, sweeps, leavesOut]
  | some read =>
      have ran := run_finish_of_some found
      have swept : sweeps (.finish ticket) t = 0 := by rw [sweeps, ran]
      have taken : purges (.finish ticket) t =
          t.state.size - (read.finish t.now t.state).state.size := by rw [purges, ran]
      rw [Pending.finish] at ran taken
      cases stage : read.stage with
      | answered value =>
          simp only [stage] at ran taken
          rw [Nat.sub_self] at taken
          constructor <;> simp [ran, taken, swept, leavesOut]
      | purging =>
          simp only [stage] at ran taken
          obtain ⟨purged, unswept, kept⟩ := t.state.finishGet_events t.now read.key
          refine ⟨?_, ?_, ?_⟩
          · rw [ran, taken, ← purged]
            exact (Nat.add_sub_cancel_left _ _).symm
          · rw [ran, swept]
            exact unswept
          · rw [ran]
            exact kept

/-- Every act does what its events say. -/
lemma reported (act : Act) (t : Shared) : Reported act t := by
  cases act with
  | write change => exact reported_write change t
  | finish ticket => exact reported_finish ticket t
  | _ => exact ⟨rfl, rfl, rfl⟩

/-! ### What a run reports -/

/-- What is measured of the events of each act adds up to what is measured of all events. -/
lemma total_eq_measure (measure : List Event → Nat) (nothing : measure [] = 0)
    (append : ∀ es es', measure (es ++ es') = measure es + measure es')
    {amount : Act → Shared → Nat} (step : ∀ act t, measure (act.run t).events = amount act t)
    (acts : List Act) (t : Shared) : total amount acts t = measure (events acts t) := by
  induction acts generalizing t with
  | nil => exact nothing.symm
  | cons act rest ih => rw [total, events, append, step, ih]

lemma total_le_length {amount : Act → Shared → Nat} (step : ∀ act t, amount act t ≤ 1)
    (acts : List Act) (t : Shared) : total amount acts t ≤ acts.length := by
  induction acts generalizing t with
  | nil => exact Nat.le_refl _
  | cons act rest ih =>
      have first := step act t
      have others := ih (act.run t).state
      rw [total, List.length_cons]
      omega

lemma stores_le_one (act : Act) (t : Shared) : act.stores t ≤ 1 := by
  unfold stores
  split
  · split <;> decide
  · decide

lemma leavesOut_le_one (act : Act) (t : Shared) : act.leavesOut t ≤ 1 := by
  unfold leavesOut
  split
  · split <;> decide
  · decide

section

variable (start : Nat) (acts : List Act)

/-- After any acts on an empty store the expirations are what the events of purges and of sweeps
tell together, which is no more than there were acts. -/
lemma expirations_eq_events :
    let es := events acts (.opening start)
    let told := es.countP Event.isPurgedOnRead + Event.sum "removed" es
    (runAll acts (.opening start)).state.counters.expirations = UInt64.ofNat told ∧
      told ≤ acts.length := by
  intro es told
  have purged : total purges acts (.opening start) = es.countP Event.isPurgedOnRead :=
    total_eq_measure (List.countP Event.isPurgedOnRead) rfl (fun _ _ => List.countP_append)
      (fun act t => (reported act t).purges) acts _
  have swept : total sweeps acts (.opening start) = Event.sum "removed" es :=
    total_eq_measure (Event.sum "removed") rfl (Event.sum_append "removed")
      (fun act t => (reported act t).sweeps) acts _
  refine ⟨by rw [expirations_runAll, purged, swept], ?_⟩
  -- every entry that has gone was written
  have conserved := entries_runAll acts (.opening start)
  have stored := total_le_length stores_le_one acts (.opening start)
  have none_yet : (Shared.opening start).state.size = 0 := rfl
  omega

/-- After any acts on an empty store the writes left out are those that events tell of. -/
lemma skippedWrites_eq_events :
    let told := (events acts (.opening start)).countP Event.isWriteSkipped
    (runAll acts (.opening start)).state.counters.skippedWrites = UInt64.ofNat told ∧
      told ≤ acts.length := by
  intro told
  have leftOut : total leavesOut acts (.opening start) = told :=
    total_eq_measure (List.countP Event.isWriteSkipped) rfl (fun _ _ => List.countP_append)
      (fun act t => (reported act t).leavesOut) acts _
  refine ⟨by rw [skippedWrites_runAll, leftOut], ?_⟩
  rw [← leftOut]
  exact total_le_length leavesOut_le_one acts _

end

end Act

end Store

end ReadThrough
