import ReadThrough.Proofs.Store.Live

/-!
The store as a memory of last writes. Entries come and go by purges, sweeps and overwriting, and yet
what a read answers is told by the operations so far alone.

* `Operation.runAll`: the store and the clock after operations.
* `Write`, `Operation.write?`: the removal of a key or a put with a lifetime, and the one that an
  operation makes under a key, if any.
* `lastWrite`: the last write to a key among operations.
* `Operation.run_liveAt`, `runAll_liveAt`: at every instant from now on exactly that is live which
  the last write left live. This is the relation between what is resident and the history, and it is
  kept by every operation.
* `get_runAll`: what a read answers after any operations, in terms of the last write; the operations
  that neither write to the key nor take time could as well be left out.
-/

namespace ReadThrough.Store

/-- A write to a key: its removal, or bytes put under it at an instant for a time. -/
inductive Write where
  | removal
  | put (instant : Nat) (value : Bytes) (lifetime : Nat)
deriving DecidableEq

/-- The bytes that a write leaves live at an instant. -/
def Write.liveAt (instant : Nat) : Write → Option Bytes
  | .removal => none
  | .put start value lifetime => (Entry.lasting start value lifetime).liveAt instant

lemma Write.liveAt_eq_some_iff {w : Write} {instant : Nat} {value : Bytes} :
    w.liveAt instant = some value ↔ ∃ start lifetime, w = .put start value lifetime ∧
      (instant < start + lifetime ∨ Instant.after? start lifetime = none) := by
  cases w with
  | removal => simp [liveAt]
  | put start other lifetime =>
      rw [liveAt, Entry.liveAt_lasting_eq_some_iff]
      constructor
      · rintro ⟨rfl, fresh⟩
        exact ⟨start, lifetime, rfl, fresh⟩
      · rintro ⟨start', lifetime', same, fresh⟩
        obtain ⟨rfl, rfl, rfl⟩ := Write.put.inj same
        exact ⟨rfl, fresh⟩

/-- The write that a change makes under a key, if it makes one. A put without a lifetime makes
none. -/
def Change.write? (key : String) (now : Nat) : Change → Option Write
  | .set other value lifetime =>
    if other = key ∧ lifetime ≠ 0 then some (.put now value lifetime) else none
  | .delete other => if other = key then some .removal else none
  | .sweep => none

namespace Operation

/-- The store and the clock after operations. -/
def runAll : List Operation → Timed Store → Timed Store
  | [], t => t
  | operation :: rest, t => runAll rest (operation.run t).state

/-- The time that an operation takes. -/
def time : Operation → Nat
  | .advance time => time
  | _ => 0

/-- The write that an operation makes under a key, if it makes one. -/
def write? (key : String) (now : Nat) : Operation → Option Write
  | .write change => change.write? key now
  | .getDuring _ change => change.write? key now
  | _ => none

/-- Whether an operation takes time or makes a write under a key that is accepted. -/
def bearsOn (key : String) : Operation → Bool
  | .advance _ => true
  | operation => Key.isValid key && (operation.write? key 0).isSome

end Operation

/-- The last write to a key among operations, the first of which begins at an instant. -/
def lastWrite (key : String) : Nat → List Operation → Option Write
  | _, [] => none
  | now, operation :: rest =>
    (lastWrite key (now + operation.time) rest).or (operation.write? key now)

/-! ### What one operation does -/

/-- A change makes live what its write leaves live, and nothing else does it change for good. -/
lemma Change.run_liveAt (change : Change) {now later : Nat} (le : now ≤ later) (s : Store)
    {key : String} (valid : Key.isValid key = true) :
    (change.run now s).state.liveAt later key =
      (change.write? key now).elim (s.liveAt later key) (Write.liveAt later) := by
  cases change with
  | set other value lifetime =>
      rw [run, set_liveAt, write?]
      by_cases written : other = key ∧ lifetime ≠ 0
      · obtain ⟨rfl, some_left⟩ := written
        simp [valid, some_left, Write.liveAt]
      · have unchanged : ¬ ((Key.isValid other = true ∧ lifetime ≠ 0) ∧ key = other) :=
          fun h => written ⟨h.2.symm, h.1.2⟩
        rw [if_neg unchanged, if_neg written, Option.elim_none]
  | delete other =>
      rw [run, delete_liveAt, write?]
      by_cases same : other = key
      · subst same
        simp [valid, Write.liveAt]
      · simp [same, Ne.symm same]
  | sweep => exact (sweep_dropsExpired s now).liveAt_eq le key

/-- The same for a change between the two steps of a read. -/
lemma getDuring_liveAt (s : Store) {now later : Nat} (le : now ≤ later) (read : String)
    (change : Change) {key : String} (valid : Key.isValid key = true) :
    (s.getDuring now read change).state.liveAt later key =
      (change.write? key now).elim (s.liveAt later key) (Write.liveAt later) := by
  rw [getDuring]
  rcases first : s.startGet now read with ⟨stage, s'⟩
  have before : s'.liveAt later key = s.liveAt later key :=
    liveAt_of_entries_eq (entries_of_startGet first) later key
  rw [← before, ← change.run_liveAt le s' valid]
  cases stage with
  | answered value => rfl
  | purging => exact (finishGet_dropsExpired _ now read).liveAt_eq le key

namespace Operation

lemma run_now (operation : Operation) (t : Timed Store) :
    (operation.run t).state.now = t.now + operation.time := by
  cases operation <;> rfl

/-- An operation makes live what its write leaves live. If it makes none, the same is live as
before, from the end of the operation on. -/
lemma run_liveAt (operation : Operation) (t : Timed Store) {later : Nat}
    (le : t.now + operation.time ≤ later) {key : String} (valid : Key.isValid key = true) :
    (operation.run t).state.state.liveAt later key =
      (operation.write? key t.now).elim (t.state.liveAt later key) (Write.liveAt later) := by
  have le_later : t.now ≤ later := by omega
  cases operation with
  | write change => exact change.run_liveAt le_later t.state valid
  | get read => exact (get_dropsExpired t.state t.now read).liveAt_eq le_later key
  | getDuring read change => exact getDuring_liveAt t.state le_later read change valid
  | remaining read => rfl
  | size => rfl
  | advance time => rfl

end Operation

/-! ### What a run does -/

lemma runAll_now_le (operations : List Operation) (t : Timed Store) :
    t.now ≤ (Operation.runAll operations t).now := by
  induction operations generalizing t with
  | nil => exact Nat.le_refl _
  | cons operation rest ih =>
      have first := operation.run_now t
      have others := ih (operation.run t).state
      rw [Operation.runAll]
      omega

/-- After any operations exactly that is live, now and at every later instant, which the last write
left live. -/
theorem runAll_liveAt (operations : List Operation) (t : Timed Store) {later : Nat}
    (le : (Operation.runAll operations t).now ≤ later) {key : String}
    (valid : Key.isValid key = true) :
    (Operation.runAll operations t).state.liveAt later key =
      (lastWrite key t.now operations).elim (t.state.liveAt later key) (Write.liveAt later) := by
  induction operations generalizing t with
  | nil => rfl
  | cons operation rest ih =>
      have started := runAll_now_le rest (operation.run t).state
      rw [Operation.runAll] at le
      have ended : t.now + operation.time ≤ later := by
        rw [← operation.run_now]
        omega
      rw [Operation.runAll, ih _ le, operation.run_liveAt t ended valid, lastWrite,
        operation.run_now]
      cases lastWrite key (t.now + operation.time) rest with
      | none => rw [Option.elim_none, Option.none_or]
      | some write => rw [Option.some_or, Option.elim_some, Option.elim_some]

/-! ### Leaving operations out -/

lemma isSome_write? (key : String) (now now' : Nat) (operation : Operation) :
    (operation.write? key now).isSome = (operation.write? key now').isSome := by
  have changes : ∀ change : Change,
      (change.write? key now).isSome = (change.write? key now').isSome := by
    intro change
    cases change with
    | set other value lifetime => simp only [Change.write?]; split <;> rfl
    | delete other => rfl
    | sweep => rfl
  cases operation with
  | write change => exact changes change
  | getDuring read change => exact changes change
  | _ => rfl

/-- An operation without bearing on a key takes no time and makes no write that counts there. -/
lemma time_of_not_bearsOn {key : String} {operation : Operation}
    (idle : operation.bearsOn key = false) : operation.time = 0 := by
  cases operation with
  | advance time => simp [Operation.bearsOn] at idle
  | _ => rfl

lemma write?_of_not_bearsOn {key : String} (valid : Key.isValid key = true)
    {operation : Operation} (idle : operation.bearsOn key = false) (now : Nat) :
    operation.write? key now = none := by
  rw [← Option.not_isSome_iff_eq_none, isSome_write? key now 0]
  cases operation with
  | advance time => simp [Operation.bearsOn] at idle
  | _ => simpa [Operation.bearsOn, valid] using idle

lemma runAll_filter_now (key : String) (operations : List Operation) (t t' : Timed Store)
    (same : t'.now = t.now) :
    (Operation.runAll (operations.filter (Operation.bearsOn key)) t').now =
      (Operation.runAll operations t).now := by
  induction operations generalizing t t' with
  | nil => exact same
  | cons operation rest ih =>
      by_cases bears : operation.bearsOn key = true
      · rw [List.filter_cons_of_pos bears]
        exact ih _ _ (by rw [operation.run_now, operation.run_now, same])
      · rw [List.filter_cons_of_neg bears]
        have none_passed := time_of_not_bearsOn (Bool.eq_false_iff.mpr bears)
        exact ih _ _ (by rw [operation.run_now, none_passed, same, Nat.add_zero])

lemma lastWrite_filter {key : String} (valid : Key.isValid key = true) (now : Nat)
    (operations : List Operation) :
    lastWrite key now (operations.filter (Operation.bearsOn key)) =
      lastWrite key now operations := by
  induction operations generalizing now with
  | nil => rfl
  | cons operation rest ih =>
      by_cases bears : operation.bearsOn key = true
      · rw [List.filter_cons_of_pos bears, lastWrite, lastWrite, ih]
      · have idle := Bool.eq_false_iff.mpr bears
        rw [List.filter_cons_of_neg bears, lastWrite, time_of_not_bearsOn idle,
          write?_of_not_bearsOn valid idle, Nat.add_zero, Option.or_none, ih]

/-! ### What a read answers -/

/-- After any operations a read answers what the last write left live. -/
lemma get_answer_eq (start : Nat) (operations : List Operation) (key : String) :
    ((Operation.runAll operations ⟨start, empty⟩).state.get
        (Operation.runAll operations ⟨start, empty⟩).now key).answer =
      if Key.isValid key then
        (lastWrite key start operations).bind
          (Write.liveAt (Operation.runAll operations ⟨start, empty⟩).now)
      else none := by
  rw [get_answer]
  by_cases valid : Key.isValid key = true
  · rw [if_pos valid, if_pos valid, runAll_liveAt operations _ (Nat.le_refl _) valid]
    cases lastWrite key start operations <;> rfl
  · rw [if_neg valid, if_neg valid]

/-- After any operations on an empty store, valid or not, a read answers bytes exactly if the key is
accepted and the last write to it put these bytes, with a lifetime that is not over or whose end
cannot be represented. Puts without lifetime, refused operations, reads, purges, sweeps and
operations on other keys could all be left out: the answer and the clock would be the same. -/
theorem get_runAll (start : Nat) (operations : List Operation) (key : String) :
    let t := Operation.runAll operations ⟨start, empty⟩
    let u := Operation.runAll (operations.filter (Operation.bearsOn key)) ⟨start, empty⟩
    (∀ value, (t.state.get t.now key).answer = some value ↔
      Key.isValid key = true ∧ ∃ instant lifetime,
        lastWrite key start operations = some (.put instant value lifetime) ∧
          (t.now < instant + lifetime ∨ Instant.after? instant lifetime = none)) ∧
      u.now = t.now ∧ (u.state.get u.now key).answer = (t.state.get t.now key).answer := by
  intro t u
  have clock : u.now = t.now := runAll_filter_now key operations _ _ rfl
  refine ⟨fun value => ?_, clock, ?_⟩
  · rw [get_answer_eq]
    by_cases valid : Key.isValid key = true
    · rw [if_pos valid, Option.bind_eq_some_iff]
      constructor
      · rintro ⟨w, last, live⟩
        obtain ⟨instant, lifetime, rfl, fresh⟩ := Write.liveAt_eq_some_iff.mp live
        exact ⟨valid, instant, lifetime, last, fresh⟩
      · rintro ⟨-, instant, lifetime, last, fresh⟩
        exact ⟨_, last, Write.liveAt_eq_some_iff.mpr ⟨instant, lifetime, rfl, fresh⟩⟩
    · simp [valid]
  · rw [get_answer_eq, get_answer_eq, runAll_filter_now key operations _ ⟨start, empty⟩ rfl]
    by_cases valid : Key.isValid key = true
    · rw [if_pos valid, if_pos valid, lastWrite_filter valid]
    · rw [if_neg valid, if_neg valid]

end ReadThrough.Store
