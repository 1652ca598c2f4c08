import ReadThrough.Proofs.Store.History

/-!
Reads that overlap with other operations of a store. A read looks its key up and ends later, and
between these two steps there can be any operations and any steps of other reads.

* `Pending`, `Shared`: a read between its two steps, and a store with a clock and such reads. Each
  read has the number of reads begun before it as its ticket.
* `Act`: what can happen: a write, a step of a read, a question, or the passing of time.
* `Act.run`, `Act.runAll`, `Act.readings`: one act, acts one after another, and what reads and
  questions for the time left have answered on the way.
* `run_get`, `run_getDuring`: the two steps without a break are `Store.get`, and with a write
  between them `Store.getDuring`.
* `read?_runAll`: a read stays as its lookup has left it until it ends.
* `runAll_liveAt_of_unwritten`: only writes to a key change what is live under it.
-/

namespace ReadThrough.Store

/-! ### Reads under way -/

/-- What a read answers at its end, as its lookup has settled it. -/
def GetStage.answer : GetStage → Option Bytes
  | .answered value => value
  | .purging => none

/-- A read that has looked its key up and has not ended. -/
structure Pending where
  ticket : Nat
  key : String
  stage : GetStage
deriving DecidableEq

/-- Whether a read has a ticket. -/
def Pending.has (ticket : Nat) (read : Pending) : Bool :=
  read.ticket == ticket

/-- The end of a read: a purge, if the lookup has met an expired entry. -/
def Pending.finish (read : Pending) (now : Nat) (s : Store) : Reply Store (Option Bytes) :=
  match read.stage with
  | .answered value => ⟨value, [], s⟩
  | .purging => s.finishGet now read.key

/-- A store with a clock and the reads under way. -/
structure Shared extends Timed Store where
  /-- The number of reads begun so far, which is the ticket of the next one. -/
  begun : Nat
  /-- The reads under way, the oldest first. -/
  pending : List Pending

namespace Shared

/-- The empty store at an instant, before the first read. -/
def opening (start : Nat) : Shared :=
  ⟨⟨start, empty⟩, 0, []⟩

/-- The read under way that has a ticket. -/
def read? (t : Shared) (ticket : Nat) : Option Pending :=
  t.pending.find? (Pending.has ticket)

/-- No read under way has a ticket that is still to be given. -/
def Numbered (t : Shared) : Prop :=
  ∀ read ∈ t.pending, read.ticket < t.begun

end Shared

/-! ### Acts -/

/-- What can happen to a shared store. -/
inductive Act where
  | write (change : Change)
  /-- The first step of a read; it gets the next ticket. -/
  | lookUp (key : String)
  /-- The second step of the read with a ticket, if it is under way. -/
  | finish (ticket : Nat)
  | remaining (key : String)
  | size
  | advance (time : Nat)
deriving DecidableEq

namespace Act

/-- One act. A read answers at its end. -/
def run : Act → Shared → Reply Shared Answer
  | .write change, t =>
    let reply := change.run t.now t.state
    ⟨reply.answer, reply.events, { t with state := reply.state }⟩
  | .lookUp key, t =>
    let (stage, s) := t.state.startGet t.now key
    ⟨.passed, [],
      ⟨⟨t.now, s⟩, t.begun + 1, t.pending ++ [⟨t.begun, key, stage⟩]⟩⟩
  | .finish ticket, t =>
    match t.read? ticket with
    | none => ⟨.passed, [], t⟩
    | some read =>
      let reply := read.finish t.now t.state
      ⟨.value reply.answer, reply.events,
        { t with state := reply.state, pending := t.pending.eraseP (Pending.has ticket) }⟩
  | .remaining key, t => ⟨.remaining (t.state.remaining? t.now key), [], t⟩
  | .size, t => ⟨.size t.state.size t.state.isEmpty, [], t⟩
  | .advance time, t => ⟨.passed, [], { t with now := t.now + time }⟩

/-- The shared store after acts. -/
def runAll : List Act → Shared → Shared
  | [], t => t
  | act :: rest, t => runAll rest (act.run t).state

/-- Whether an act answers from what is stored under one key: the end of a read, or the question for
the time left. -/
def reads : Act → Bool
  | .finish _ => true
  | .remaining _ => true
  | _ => false

/-- What the reads and the questions for the time left answer during acts. -/
def readings : List Act → Shared → List Answer
  | [], _ => []
  | act :: rest, t =>
    (if act.reads then [(act.run t).answer] else []) ++ readings rest (act.run t).state

/-- The write that an act makes under a key, if it makes one. -/
def write? (key : String) (now : Nat) : Act → Option Write
  | .write change => change.write? key now
  | _ => none

lemma runAll_append (acts acts' : List Act) (t : Shared) :
    runAll (acts ++ acts') t = runAll acts' (runAll acts t) := by
  induction acts generalizing t with
  | nil => rfl
  | cons act rest ih => exact ih _

lemma readings_append (acts acts' : List Act) (t : Shared) :
    readings (acts ++ acts') t = readings acts t ++ readings acts' (runAll acts t) := by
  induction acts generalizing t with
  | nil => rfl
  | cons act rest ih => rw [List.cons_append, readings, ih, readings, runAll, List.append_assoc]

end Act

/-! ### Which read ends -/

/-- A read under way, and the reads under way without it. -/
lemma Shared.split_of_read? {t : Shared} {ticket : Nat} {read : Pending}
    (found : t.read? ticket = some read) :
    ∃ older newer, t.pending = older ++ read :: newer ∧
      t.pending.eraseP (Pending.has ticket) = older ++ newer ∧ read.ticket = ticket ∧
      ∀ other ∈ older, other.has ticket = false := by
  obtain ⟨own, older, newer, split, others⟩ := List.find?_eq_some_iff_append.mp found
  have absent : ∀ other ∈ older, other.has ticket = false :=
    fun other mem => by simpa using others other mem
  refine ⟨older, newer, split, ?_, by simpa [Pending.has] using own, absent⟩
  rw [split, List.eraseP_append_right _ (fun other mem => by simp [absent other mem]),
    List.eraseP_cons_of_pos own]

namespace Act

lemma run_finish_of_none {t : Shared} {ticket : Nat} (ended : t.read? ticket = none) :
    (finish ticket).run t = ⟨.passed, [], t⟩ := by
  rw [run, ended]

lemma run_finish_of_some {t : Shared} {ticket : Nat} {read : Pending}
    (found : t.read? ticket = some read) :
    (finish ticket).run t =
      ⟨.value (read.finish t.now t.state).answer, (read.finish t.now t.state).events,
        { t with
          state := (read.finish t.now t.state).state
          pending := t.pending.eraseP (Pending.has ticket) }⟩ := by
  rw [run, found]

lemma numbered_run {t : Shared} (h : t.Numbered) (act : Act) : (act.run t).state.Numbered := by
  cases act with
  | lookUp key =>
      intro read mem
      rcases List.mem_append.mp mem with mem | mem
      · exact Nat.lt_succ_of_lt (h read mem)
      · obtain rfl := List.mem_singleton.mp mem
        exact Nat.lt_succ_self _
  | finish ticket =>
      rw [run]
      split
      · exact h
      · exact fun read mem => h read (List.mem_of_mem_eraseP mem)
  | _ => exact h

lemma numbered_runAll {t : Shared} (h : t.Numbered) (acts : List Act) :
    (runAll acts t).Numbered := by
  induction acts generalizing t with
  | nil => exact h
  | cons act rest ih => exact ih (numbered_run h act)

lemma numbered_opening (start : Nat) : (Shared.opening start).Numbered := by
  simp [Shared.Numbered, Shared.opening]

lemma has_begun_of_mem {t : Shared} (h : t.Numbered) {read : Pending} (mem : read ∈ t.pending) :
    read.has t.begun = false := by
  have lt := h read mem
  simp only [Pending.has, beq_eq_false_iff_ne]
  omega

/-- A lookup leaves its read under way. -/
lemma read?_lookUp {t : Shared} (h : t.Numbered) (key : String) :
    ((lookUp key).run t).state.read? t.begun =
      some ⟨t.begun, key, (t.state.startGet t.now key).1⟩ := by
  have unused : t.pending.find? (Pending.has t.begun) = none :=
    List.find?_eq_none.mpr fun read mem => by simp [has_begun_of_mem h mem]
  simp [Shared.read?, run, unused, Pending.has]

/-- A read under way stays as it is in every act but its end. -/
lemma read?_run {t : Shared} {ticket : Nat} {read : Pending}
    (found : t.read? ticket = some read) {act : Act} (other : act ≠ .finish ticket) :
    (act.run t).state.read? ticket = some read := by
  cases act with
  | lookUp key =>
      rw [Shared.read?] at found
      simp [Shared.read?, run, List.find?_append, found]
  | finish ended =>
      rw [run]
      split
      · exact found
      · rename_i last ending
        obtain ⟨older, newer, split, erased, own, -⟩ := Shared.split_of_read? ending
        have apart : last.has ticket = false := by
          rw [Pending.has, own]
          simpa using fun same : ended = ticket => other (by rw [same])
        rw [Shared.read?, split, List.find?_append, List.find?_cons_of_neg (by simp [apart])]
          at found
        rw [Shared.read?]
        simpa [erased, List.find?_append] using found
  | _ => exact found

lemma read?_runAll {t : Shared} {ticket : Nat} {read : Pending}
    (found : t.read? ticket = some read) {acts : List Act} (unfinished : .finish ticket ∉ acts) :
    (runAll acts t).read? ticket = some read := by
  induction acts generalizing t with
  | nil => exact found
  | cons act rest ih =>
      obtain ⟨other, others⟩ := List.ne_and_not_mem_of_not_mem_cons unfinished
      exact ih (read?_run found (Ne.symm other)) others

/-! ### Reads without a break -/

/-- The end of a read that began last. -/
lemma run_finish_last {t : Shared} (h : t.Numbered) (key : String) (stage : GetStage) (s : Store) :
    (finish t.begun).run
        ⟨⟨t.now, s⟩, t.begun + 1, t.pending ++ [⟨t.begun, key, stage⟩]⟩ =
      let reply := Pending.finish ⟨t.begun, key, stage⟩ t.now s
      ⟨.value reply.answer, reply.events, ⟨⟨t.now, reply.state⟩, t.begun + 1, t.pending⟩⟩ := by
  have own : Pending.has t.begun ⟨t.begun, key, stage⟩ = true := by simp [Pending.has]
  have others : ∀ read ∈ t.pending, ¬ Pending.has t.begun read = true :=
    fun read mem => by simp [has_begun_of_mem h mem]
  have unused : t.pending.find? (Pending.has t.begun) = none := List.find?_eq_none.mpr others
  have found : Shared.read? ⟨⟨t.now, s⟩, t.begun + 1, t.pending ++ [⟨t.begun, key, stage⟩]⟩
      t.begun = some ⟨t.begun, key, stage⟩ := by
    rw [Shared.read?, List.find?_append, unused, List.find?_cons_of_pos own, Option.none_or]
  rw [run_finish_of_some found, List.eraseP_append_right _ others, List.eraseP_cons_of_pos own,
    List.append_nil]

/-- The two steps of a read without a break are a whole read. -/
lemma run_get {t : Shared} (h : t.Numbered) (key : String) :
    runAll [.lookUp key, .finish t.begun] t =
        { t with state := (t.state.get t.now key).state, begun := t.begun + 1 } ∧
      readings [.lookUp key, .finish t.begun] t = [.value (t.state.get t.now key).answer] := by
  rcases first : t.state.startGet t.now key with ⟨stage, s⟩
  have looked : ((lookUp key).run t).state =
      ⟨⟨t.now, s⟩, t.begun + 1, t.pending ++ [⟨t.begun, key, stage⟩]⟩ := by
    simp only [run, first]
  simp only [runAll, readings, looked, run_finish_last h, get, first]
  cases stage <;> exact ⟨rfl, rfl⟩

/-- With a write between the two steps they are a read during that write. -/
lemma run_getDuring {t : Shared} (h : t.Numbered) (key : String) (change : Change) :
    (runAll [.lookUp key, .write change, .finish t.begun] t).state =
        (t.state.getDuring t.now key change).state ∧
      ∃ found other, (t.state.getDuring t.now key change).answer = .valueAnd found other ∧
        readings [.lookUp key, .write change, .finish t.begun] t = [.value found] := by
  rcases first : t.state.startGet t.now key with ⟨stage, s⟩
  have looked : ((lookUp key).run t).state =
      ⟨⟨t.now, s⟩, t.begun + 1, t.pending ++ [⟨t.begun, key, stage⟩]⟩ := by
    simp only [run, first]
  have written : ((write change).run ((lookUp key).run t).state).state =
      ⟨⟨t.now, (change.run t.now s).state⟩, t.begun + 1, t.pending ++ [⟨t.begun, key, stage⟩]⟩ := by
    rw [looked]
    rfl
  simp only [runAll, readings, written, run_finish_last h, getDuring, first]
  cases stage <;> exact ⟨rfl, _, _, rfl, rfl⟩

/-! ### What is live -/

lemma run_now_le (act : Act) (t : Shared) : t.now ≤ (act.run t).state.now := by
  cases act with
  | advance time => exact Nat.le_add_right _ _
  | finish ticket => rw [run]; split <;> exact Nat.le_refl _
  | _ => exact Nat.le_refl _

lemma runAll_now_le (acts : List Act) (t : Shared) : t.now ≤ (runAll acts t).now := by
  induction acts generalizing t with
  | nil => exact Nat.le_refl _
  | cons act rest ih => exact Nat.le_trans (run_now_le act t) (ih _)

/-- The end of a read removes nothing but an expired entry. -/
lemma finish_dropsExpired (read : Pending) (now : Nat) (s : Store) :
    DropsExpired now s (read.finish now s).state := by
  rw [Pending.finish]
  split
  · exact DropsExpired.of_entries_eq rfl
  · exact finishGet_dropsExpired s now read.key

/-- An act makes live what its write leaves live. If it makes none, the same is live as before, from
the end of the act on. -/
lemma run_liveAt (act : Act) (t : Shared) {later : Nat} (le : (act.run t).state.now ≤ later)
    {key : String} (valid : Key.isValid key = true) :
    (act.run t).state.state.liveAt later key =
      (act.write? key t.now).elim (t.state.liveAt later key) (Write.liveAt later) := by
  have le_later : t.now ≤ later := Nat.le_trans (run_now_le act t) le
  cases act with
  | write change => exact change.run_liveAt le_later t.state valid
  | lookUp read => exact liveAt_of_entries_eq (entries_of_startGet rfl) later key
  | finish ticket =>
      rw [run]
      split
      · rfl
      · exact (finish_dropsExpired _ t.now t.state).liveAt_eq le_later key
  | _ => rfl

/-- Acts that do not write to a key leave the same live under it, from their end on. -/
lemma runAll_liveAt_of_unwritten (acts : List Act) (t : Shared) {later : Nat}
    (le : (runAll acts t).now ≤ later) {key : String} (valid : Key.isValid key = true)
    (unwritten : ∀ act ∈ acts, ∀ now, act.write? key now = none) :
    (runAll acts t).state.liveAt later key = t.state.liveAt later key := by
  induction acts generalizing t with
  | nil => rfl
  | cons act rest ih =>
      have ended : (act.run t).state.now ≤ later :=
        Nat.le_trans (runAll_now_le rest _) le
      have own := act.run_liveAt t ended valid
      rw [unwritten act List.mem_cons_self, Option.elim_none] at own
      rw [runAll, ih _ le fun other mem => unwritten other (List.mem_cons_of_mem _ mem), own]

end Act

end ReadThrough.Store
