import ReadThrough.Proofs.Call.Contacts
import ReadThrough.Proofs.Call.Serving
import ReadThrough.Proofs.Key.Acceptance
import ReadThrough.Proofs.Store.Counting

/-!
Calls under keys that the store refuses.

* `Middleware.start_of_refused`, `Middleware.finish_of_refused`: the two parts of such a call leave
  the entries alone, and its tool runs.
* `Move.caller?`: the call that makes a move.
* `Crowd.Uncached`: how far such a call has come agrees with the runs of its tool.
* `Uncached.step`, `uncached_run`: every step keeps that, and so every run does.
* `standard_uncached`: which tools are cacheable with standard keys, and what becomes of the calls
  of the others.
-/

namespace ReadThrough

namespace Middleware

variable {m : Middleware} {call : Call}

/-- The part before the run of the tool asks for that run and leaves the entries alone. -/
lemma start_of_refused
    (refused : ∀ key, m.keyer call.toolId call.input = .ok key → Key.isValid key = false)
    (c : Context) (w : World Store) :
    ∃ w', m.start .memory c call w = (.run (m.enter call).1, w') ∧
      w'.store.entries = w.store.entries := by
  rw [start]
  rcases entered : m.enter call with ⟨_ | key, events⟩
  · exact ⟨_, rfl, rfl⟩
  · have invalid := refused key (enter_eq_some_iff.mp (congrArg Prod.fst entered)).2
    obtain ⟨-, -, -, read⟩ := Store.refused invalid w.store w.now
    simp only [World.get, World.receive, World.emit, Backend.memory, read]
    exact ⟨_, rfl, rfl⟩

/-- The part after the run of the tool leaves the entries alone. -/
lemma finish_of_refused {key? : Option String}
    (refused : ∀ key ∈ key?, Key.isValid key = false) (c : Context) (outcome : Outcome)
    (w : World Store) :
    (m.finish .memory c call key? outcome w).store.entries = w.store.entries := by
  have unkept : m.kept? key? outcome = none := by
    rw [Option.eq_none_iff_forall_ne_some]
    rintro ⟨key, value⟩ kept
    obtain ⟨rfl, -, valid, -⟩ := kept?_eq_some_iff.mp kept
    rw [refused key rfl] at valid
    cases valid
  rw [finish_entries, unkept]

/-- A call that runs without a break asks its tool once, whatever the tool does to the world, and
adds nothing to what the tool does to the entries. -/
lemma execute_of_refused
    (refused : ∀ key, m.keyer call.toolId call.input = .ok key → Key.isValid key = false)
    (c : Context) (tool : Tool Store) (w : World Store) :
    ∃ w', w'.store.entries = w.store.entries ∧
      (m.contacts .memory c call tool w).filter Contact.isRun = [.run (tool w').1] ∧
      (m.execute .memory c call tool w).1 = (tool w').1 ∧
      (m.execute .memory c call tool w).2.store.entries = (tool w').2.store.entries := by
  obtain ⟨w', started, same⟩ := start_of_refused refused c w
  have result : (m.execute .memory c call tool w).1 = (tool w').1 := by rw [execute, started]
  refine ⟨w', same, ?_, result, ?_⟩
  · rcases (m.course_execute .memory c call tool w).runs with ⟨_, _, -, unrun, -⟩ | ⟨-, once⟩
    · have run : Contact.run (tool w').1 ∈ m.contacts .memory c call tool w := by
        rw [contacts_eq, asked, started]
        simp
      exact absurd rfl (List.countP_eq_zero.mp unrun _ run)
    · rw [once, result]
  · rw [execute, started]
    exact finish_of_refused (fun key mem => refused key (enter_eq_some_iff.mp mem).2) _ _ _

end Middleware

/-- The call that makes a move. -/
def Move.caller? {ι : Type} : Move ι → Option ι
  | .enter i => some i
  | .lookUp i => some i
  | .purge i => some i
  | .complete i _ => some i
  | .finish i => some i
  | .pass _ => none

namespace Crowd

variable {ι : Type} [DecidableEq ι] {c : Crowd ι} {history : History ι} {s s' : Scene ι} {i : ι}

/-- How far a call has come agrees with the runs of its tool: one, or none so far. It is never
answered and never meets an expired entry. -/
def Uncached (c : Crowd ι) (history : History ι) (i : ι) : Stage → Prop
  | .waiting => outcomesOf i history = []
  | .lookingUp key => outcomesOf i history = [] ∧ c.key i = .ok key
  | .purging _ => False
  | .running key? => outcomesOf i history = [] ∧ ∀ key ∈ key?, c.key i = .ok key
  | .finishing key? outcome =>
    outcomesOf i history = [outcome] ∧ ∀ key ∈ key?, c.key i = .ok key
  | .ended result => outcomesOf i history = [result]

lemma Uncached.cons {stage : Stage} (h : c.Uncached history i stage) {move : Move ι}
    (ne : ∀ outcome, move ≠ .complete i outcome) : c.Uncached ((s, move) :: history) i stage := by
  have same : outcomesOf i ((s, move) :: history) = outcomesOf i history :=
    outcomesOf_cons_of_ne ne
  cases stage with
  | purging key => exact h
  | _ => simpa only [Uncached, same] using h

/-- The moves of others leave a call where it is. -/
lemma stage_of_caller_ne {move : Move ι} (next : Step c s move s') (ne : move.caller? ≠ some i) :
    s'.stage i = s.stage i := by
  cases next with
  | pass fits => rfl
  | _ => exact Scene.put_stage_of_ne s (fun same => ne (congrArg some same.symm)) _ _

/-- A step of a call whose key is refused. -/
lemma Uncached.own_step (refused : ∀ key, c.key i = .ok key → Key.isValid key = false)
    (h : c.Uncached history i (s.stage i)) {move : Move ι} (next : Step c s move s')
    (own : move.caller? = some i) :
    c.Uncached ((s, move) :: history) i (s'.stage i) ∧
      s'.world.store.entries = s.world.store.entries := by
  -- so that a lookup neither hits nor meets an expired entry
  have unanswered {key : String} (derived : c.key i = .ok key) (now : Nat) :
      s.world.store.startGet now key = (.answered none, s.world.store.countMiss) := by
    rw [Store.startGet, refused key derived]
    rfl
  cases next with
  | bypass waiting entered =>
      obtain rfl := Option.some.inj own
      have unrun : c.Uncached history _ .waiting := waiting ▸ h
      rw [Scene.put_stage_self]
      exact ⟨⟨unrun.cons (by simp), by simp⟩, rfl⟩
  | enter waiting entered =>
      obtain rfl := Option.some.inj own
      have unrun : c.Uncached history _ .waiting := waiting ▸ h
      have derived := (Middleware.enter_eq_some_iff.mp (congrArg Prod.fst entered)).2
      rw [Scene.put_stage_self]
      exact ⟨⟨unrun.cons (by simp), derived⟩, rfl⟩
  | hit keyed found =>
      obtain rfl := Option.some.inj own
      have keyed : c.Uncached history _ (.lookingUp _) := keyed ▸ h
      cases (unanswered keyed.2 _).symm.trans found
  | @miss j key store keyed found =>
      obtain rfl := Option.some.inj own
      have keyed : c.Uncached history j (.lookingUp key) := keyed ▸ h
      have unrun : c.Uncached ((s, .lookUp j) :: history) j (.lookingUp key) :=
        keyed.cons (by simp)
      rw [Scene.put_stage_self]
      refine ⟨⟨unrun.1, ?_⟩, Store.entries_of_startGet found⟩
      rintro other ⟨⟩
      exact unrun.2
  | meet keyed found =>
      obtain rfl := Option.some.inj own
      have keyed : c.Uncached history _ (.lookingUp _) := keyed ▸ h
      cases (unanswered keyed.2 _).symm.trans found
  | @purge j key met =>
      obtain rfl := Option.some.inj own
      have never : c.Uncached history _ (.purging key) := met ▸ h
      exact never.elim
  | complete outcome running =>
      obtain rfl := Option.some.inj own
      have unrun : c.Uncached history _ (.running _) := running ▸ h
      rw [Scene.put_stage_self]
      refine ⟨⟨?_, unrun.2⟩, rfl⟩
      rw [outcomesOf_complete, unrun.1]
  | @finish j key? outcome finishing =>
      obtain rfl := Option.some.inj own
      have ran : c.Uncached history j (.finishing key? outcome) := finishing ▸ h
      have still : c.Uncached ((s, .finish j) :: history) j (.finishing key? outcome) :=
        ran.cons (by simp)
      rw [Scene.put_stage_self]
      refine ⟨still.1, ?_⟩
      exact Middleware.finish_of_refused (fun key mem => refused key (ran.2 key mem)) _ _ _
  | pass fits => cases own

/-- Every step keeps how far a call with a refused key has come, and those of its own leave the
entries alone. -/
lemma Uncached.step (refused : ∀ key, c.key i = .ok key → Key.isValid key = false)
    (h : c.Uncached history i (s.stage i)) {move : Move ι} (next : Step c s move s') :
    c.Uncached ((s, move) :: history) i (s'.stage i) ∧
      (move.caller? = some i → s'.world.store.entries = s.world.store.entries) := by
  by_cases own : move.caller? = some i
  · have stepped := h.own_step refused next own
    exact ⟨stepped.1, fun _ => stepped.2⟩
  · have ne : ∀ outcome, move ≠ .complete i outcome := by
      rintro outcome rfl
      exact own rfl
    rw [stage_of_caller_ne next own]
    exact ⟨h.cons ne, fun same => absurd same own⟩

/-- So does every run, from any scene in which the call has not begun. -/
lemma uncached_run (refused : ∀ key, c.key i = .ok key → Key.isValid key = false)
    {start : Scene ι} (waiting : start.stage i = .waiting) (run : Run c start history s) :
    c.Uncached history i (s.stage i) := by
  induction run with
  | start =>
      rw [waiting]
      rfl
  | step _ next ih => exact (ih.step refused next).1

/-! ### Standard keys -/

/-- Which tools are cacheable. Whatever the input, a store accepts the standard key of a tool if and
only if the name of the tool has at most 485 bytes and no line break; a longer name makes the key
too long, line breaks or not, and any other refusal is for a line break.

Over the store of this library, a call of a tool that is not cacheable runs its tool each time and
returns the outcome of that run, and takes, adds and changes no entry: without a break, with
whatever the tool does meanwhile, and in every order of the steps of overlapping calls. -/
theorem standard_cacheable :
    (∀ (toolId : String) (input : Value), ∃ key, Keyer.standard toolId input = .ok key ∧
      (Key.check key = .ok () ↔ Key.Cacheable toolId) ∧
      (485 < toolId.utf8ByteSize →
        Key.check key = .error (.keyTooLong key.utf8ByteSize 512) ∧
          key.utf8ByteSize = toolId.utf8ByteSize + 27) ∧
      (toolId.utf8ByteSize ≤ 485 → ¬Key.Cacheable toolId →
        Key.check key = .error (.invalidKey "key contains a line break")) ∧
      Key.check key ≠ .error (.invalidKey "empty key")) ∧
    (∀ (m : Middleware) (call : Call), m.keyer = Keyer.standard → ¬Key.Cacheable call.toolId →
      ∀ (c : Context) (tool : Tool Store) (w : World Store),
        ∃ w', w'.store.entries = w.store.entries ∧
          (m.contacts .memory c call tool w).filter Contact.isRun = [.run (tool w').1] ∧
          (m.execute .memory c call tool w).1 = (tool w').1 ∧
          (m.execute .memory c call tool w).2.store.entries = (tool w').2.store.entries) ∧
    ∀ (ι : Type) [DecidableEq ι] (c : Crowd ι) (i : ι), c.keyer = Keyer.standard →
      ¬Key.Cacheable (c.call i).toolId →
      ∀ (start : Scene ι) (history : History ι) (s : Scene ι), start.stage i = .waiting →
        Run c start history s →
        (∀ result, s.stage i = .ended result → outcomesOf i history = [result]) ∧
          ∀ move s', Step c s move s' → move.caller? = some i →
            s'.world.store.entries = s.world.store.entries := by
  refine ⟨fun toolId input => ?_, fun m call standard uncacheable => ?_,
    fun ι _ c i standard uncacheable start history s waiting run => ?_⟩
  · refine ⟨_, rfl, Key.check_derive_eq_ok_iff, fun long => ⟨?_, ?_⟩, Key.check_derive_of_short,
      Key.check_derive_ne_empty⟩
    · rw [Key.check_derive, if_pos long]
    · exact Key.utf8ByteSize_derive _ _ _
  · refine Middleware.execute_of_refused fun key derived => ?_
    rw [standard] at derived
    exact Key.isValid_of_standard uncacheable derived
  · have refused : ∀ key, c.key i = .ok key → Key.isValid key = false := by
      intro key derived
      rw [Crowd.key, standard] at derived
      exact Key.isValid_of_standard uncacheable derived
    have uncached := uncached_run refused waiting run
    refine ⟨fun result ended => ?_, fun move s' next => (uncached.step refused next).2⟩
    rw [ended] at uncached
    exact uncached

/-- One call of a tool whose name is broken into lines, with a lifetime of ten nanoseconds. -/
def broken : Crowd Unit where
  keyer := Keyer.standard
  policy _ := ⟨10, 0, false⟩
  skipRule _ := none
  context _ := ⟨0, none⟩
  call _ := ⟨"two\nlines", .null, []⟩

/-- Its key is refused for the line break. Its lookup misses, its tool gives bytes, and its write is
refused. -/
theorem standard_cacheable_broken :
    (∃ key, Keyer.standard "two\nlines" .null = .ok key ∧
        Key.check key = .error (.invalidKey "key contains a line break")) ∧
      ∃ history s, Run broken (Scene.opening (World.start .empty)) history s ∧
        s.stage () = .ended (.ok [1]) ∧ outcomesOf () history = [.ok [1]] ∧
        s.world.store.entries = Table.empty := by
  have uncacheable : ¬Key.Cacheable "two\nlines" := fun cacheable => cacheable.2.2 (by decide)
  have law := standard_cacheable
  obtain ⟨key, derived, -, -, short, -⟩ := law.1 "two\nlines" .null
  have refusal := short (by decide) uncacheable
  have looked (w : World Store) :
      w.store.startGet w.now key = (.answered none, w.store.countMiss) := by
    have invalid : Key.isValid key = false := by rw [Key.isValid, refusal]
    rw [Store.startGet, invalid]
    rfl
  refine ⟨⟨key, derived, refusal⟩, ?_⟩
  obtain rfl := Except.ok.inj derived
  have run : Run broken (Scene.opening (World.start .empty)) [] _ := .start
  have run := run.step (.enter (i := ()) rfl rfl)
  have run := run.step (.miss (i := ()) rfl (looked _))
  have run := run.step (.complete (i := ()) (.ok [1]) rfl)
  have whole := run.step (.finish (i := ()) rfl)
  have before := law.2.2 Unit broken () rfl uncacheable _ _ _ rfl run
  have after := law.2.2 Unit broken () rfl uncacheable _ _ _ rfl whole
  exact ⟨_, _, whole, rfl, after.1 _ rfl, before.2 _ _ (.finish (i := ()) rfl) rfl⟩

end Crowd

end ReadThrough
