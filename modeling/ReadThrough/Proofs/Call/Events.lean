import ReadThrough.Proofs.Call.Books
import ReadThrough.Proofs.Call.Contacts
import ReadThrough.Proofs.Store.Events

/-!
The events of calls one after another over one store, and what its counters say.

* `Event.isDecision`: the event that tells how a call uses the cache.
* `Bystander`: a tool that leaves the store and the events alone.
* `Round`, `Told`, `tellAll`: calls of any middlewares one after another, and of each of them what
  it asked and which events it added.
* `Tally`: what was counted between two worlds is what the events between them tell. It holds for
  the part of a call before the run of its tool (`tally_start`), for the part after it
  (`tally_finish`), for a whole call (`tally_tell`), and so for all calls (`tally_tellAll`).
* `counters_tellAll`: the events and the counters tell the same story.
-/

namespace ReadThrough

namespace Event

/-- Whether an event tells how a call uses the cache. -/
def isDecision : Event → Bool
  | .bypassed .. => true
  | .keyFailed .. => true
  | .hit .. => true
  | .miss .. => true
  | _ => false

/-- Whether an event tells that the cache has answered a call. -/
def isHit : Event → Bool
  | .hit .. => true
  | _ => false

/-- Whether an event tells that the cache has nothing for a call. -/
def isMiss : Event → Bool
  | .miss .. => true
  | _ => false

/-- Whether an event tells that the policy gives a result no lifetime. -/
def isNotCaching : Event → Bool
  | .notCaching .. => true
  | _ => false

/-- Whether an event tells that a result was refused. -/
def isWriteFailed : Event → Bool
  | .writeFailed .. => true
  | _ => false

lemma isDecision_of_isHit {e : Event} (hit : e.isHit = true) : e.isDecision = true := by
  cases e <;> first | rfl | exact absurd hit Bool.false_ne_true

lemma isDecision_of_isMiss {e : Event} (miss : e.isMiss = true) : e.isDecision = true := by
  cases e <;> first | rfl | exact absurd miss Bool.false_ne_true

/-- Purges by readers are no other events. -/
lemma countP_of_purges {es : List Event} (purges : ∀ e ∈ es, e.isPurgedOnRead = true)
    {test : Event → Bool} (other : ∀ key, test (.purgedOnRead key) = false) :
    es.countP test = 0 := by
  refine List.countP_eq_zero.mpr fun e mem => Bool.eq_false_iff.mp ?_
  have purged := purges e mem
  cases e with
  | purgedOnRead key => exact other key
  | _ => exact absurd purged Bool.false_ne_true

end Event

/-- A tool that leaves the store and the events alone, whatever else it does. -/
structure Bystander where
  tool : Tool Store
  store_eq : ∀ w, (tool w).2.store = w.store
  events_eq : ∀ w, (tool w).2.events = w.events

/-- The tool of a trial, which takes its time and ends. -/
def Trial.bystander (t : Trial) : Bystander where
  tool := t.tool
  store_eq _ := rfl
  events_eq _ := rfl

/-- What happens over a store: a call of a middleware, or the passing of time. -/
inductive Round where
  | call (m : Middleware) (c : Context) (call : Call) (bystander : Bystander)
  | pass (time : Nat)

/-- A call that has ended: what it asked, and the events that it added. -/
structure Told where
  contacts : List Contact
  events : List Event

namespace Contact

/-- Whether a contact is a lookup that finds bytes. -/
def isHit : Contact → Bool
  | .get _ (some _) => true
  | _ => false

/-- Whether a contact is a lookup that finds nothing. -/
def isMiss : Contact → Bool
  | .get _ none => true
  | _ => false

/-- Whether a contact is a run of the tool that gives bytes. -/
def isSuccess : Contact → Bool
  | .run (.ok _) => true
  | _ => false

/-- Whether a contact is a run of the tool that fails. -/
def isFailure : Contact → Bool
  | .run (.error _) => true
  | _ => false

end Contact

namespace Told

/-- Whether the call found nothing and its tool then gave bytes, which are due to be kept. -/
def isDue (t : Told) : Bool :=
  t.contacts.any Contact.isMiss && t.contacts.any Contact.isSuccess

/-- Whether the tool of the call failed. -/
def hasFailed (t : Told) : Bool :=
  t.contacts.any Contact.isFailure

/-- One event tells how the call uses the cache. It agrees with what the lookup has found, and it is
the last one if the tool fails. -/
structure Decided (t : Told) : Prop where
  once : t.events.countP Event.isDecision = 1
  hit : t.events.any Event.isHit = t.contacts.any Contact.isHit
  miss : t.events.any Event.isMiss = t.contacts.any Contact.isMiss
  last : t.hasFailed = true →
    ∃ before decision, decision.isDecision = true ∧ t.events = before ++ [decision]

end Told

/-- The event that tells how a call uses the cache, with what the call needs then. -/
inductive Decides : Event → Middleware.Started → Prop where
  | bypassed (toolId : String) (tags : List String) : Decides (.bypassed toolId tags) (.run none)
  | keyFailed (toolId : String) (error : CacheError) : Decides (.keyFailed toolId error) (.run none)
  | hit (toolId key : String) (value : Bytes) : Decides (.hit toolId key) (.answered value)
  | miss (toolId key : String) : Decides (.miss toolId key) (.run (some key))

namespace Decides

variable {decision : Event} {stage : Middleware.Started}

lemma isDecision (h : Decides decision stage) : decision.isDecision = true := by
  cases h <;> rfl

/-- It is the only such event among purges by readers and events of other kinds. -/
lemma alone (h : Decides decision stage) {before after : List Event}
    (purges : ∀ e ∈ before, e.isPurgedOnRead = true)
    (settled : after.countP Event.isDecision = 0) :
    (before ++ [decision] ++ after).countP Event.isDecision = 1 ∧
      ∀ test : Event → Bool, (∀ {e}, test e = true → e.isDecision = true) →
        (before ++ [decision] ++ after).any test = test decision := by
  have earlier : before.countP Event.isDecision = 0 :=
    Event.countP_of_purges purges fun _ => rfl
  refine ⟨?_, fun test narrow => ?_⟩
  · rw [List.countP_append, List.countP_append, earlier, settled, List.countP_singleton,
      if_pos h.isDecision]
  · have quiet {es : List Event} (others : es.countP Event.isDecision = 0) :
        es.any test = false :=
      List.any_eq_false.mpr fun e mem found => List.countP_eq_zero.mp others e mem (narrow found)
    simp [quiet earlier, quiet settled]

end Decides

/-- A call from start to end, with what it tells. -/
def Middleware.tell (m : Middleware) (c : Context) (call : Call) (bystander : Bystander)
    (w : World Store) : Told × World Store :=
  let after := (m.execute .memory c call bystander.tool w).2
  (⟨m.contacts .memory c call bystander.tool w, after.events.drop w.events.length⟩, after)

/-- Rounds one after another, with what each call tells. -/
def tellAll : List Round → World Store → List Told × World Store
  | [], w => ([], w)
  | .call m c call bystander :: rest, w =>
    let (told, after) := m.tell c call bystander w
    let (log, last) := tellAll rest after
    (told :: log, last)
  | .pass time :: rest, w => tellAll rest (w.advance time)

/-! ### The tally -/

/-- What was counted between two worlds is what the events between them tell, where so many results
were due to be kept. -/
structure Tally (due : Nat) (es : List Event) (w w' : World Store) : Prop where
  events : w'.events = w.events ++ es
  hits : w'.store.counters.hits =
    w.store.counters.hits + UInt64.ofNat (es.countP Event.isHit)
  misses : w'.store.counters.misses =
    w.store.counters.misses + UInt64.ofNat (es.countP Event.isMiss)
  writes : ∃ written,
    w'.store.counters.writes = w.store.counters.writes + UInt64.ofNat written ∧
      written + es.countP Event.isNotCaching + es.countP Event.isWriteFailed = due

namespace Tally

variable {due due' : Nat} {es es' : List Event} {w w' w'' : World Store}

/-- Where nothing happens to the store and to the events, nothing is counted. -/
lemma of_eq (store : w'.store = w.store) (events : w'.events = w.events) : Tally 0 [] w w' where
  events := events.trans (List.append_nil _).symm
  hits := by rw [store]; exact (UInt64.add_zero _).symm
  misses := by rw [store]; exact (UInt64.add_zero _).symm
  writes := ⟨0, by rw [store]; exact (UInt64.add_zero _).symm, rfl⟩

/-- The events that were added are those between the two worlds. -/
lemma drop (h : Tally due es w w') : w'.events.drop w.events.length = es := by
  rw [h.events, List.drop_left]

/-- An event that tells of no lookup, but perhaps of a result that was due. -/
lemma emit {e : Event} (no_hit : e.isHit = false) (no_miss : e.isMiss = false)
    (kept : (e.isNotCaching || e.isWriteFailed).toNat = due) : Tally due [e] w (w.emit [e]) where
  events := rfl
  hits := by simp [no_hit, World.emit]
  misses := by simp [no_miss, World.emit]
  writes := ⟨0, (UInt64.add_zero _).symm, by rw [← kept]; cases e <;> rfl⟩

lemma trans (h : Tally due es w w') (h' : Tally due' es' w' w'') :
    Tally (due + due') (es ++ es') w w'' where
  events := by rw [h'.events, h.events, List.append_assoc]
  hits := by rw [h'.hits, h.hits, List.countP_append, UInt64.ofNat_add, UInt64.add_assoc]
  misses := by rw [h'.misses, h.misses, List.countP_append, UInt64.ofNat_add, UInt64.add_assoc]
  writes := by
    obtain ⟨written, counted, kept⟩ := h.writes
    obtain ⟨written', counted', kept'⟩ := h'.writes
    refine ⟨written + written', ?_, ?_⟩
    · rw [counted', counted, UInt64.ofNat_add, UInt64.add_assoc]
    · rw [List.countP_append, List.countP_append]
      omega

end Tally

/-! ### One call -/

/-- A read counts a hit or a miss, and reports nothing but the purge of an expired entry. -/
lemma Store.get_counters (s : Store) (now : Nat) (key : String) :
    let reply := s.get now key
    (∀ e ∈ reply.events, e.isPurgedOnRead = true) ∧
      ∃ removed, reply.state.counters =
        { s.counters with
          hits := s.counters.hits + UInt64.ofNat reply.answer.isSome.toNat
          misses := s.counters.misses + UInt64.ofNat reply.answer.isNone.toNat
          expirations := s.counters.expirations + UInt64.ofNat removed } := by
  simp only [get]
  rcases looked : s.startGet now key with ⟨stage, after⟩
  have left := eq_of_startGet looked
  cases stage with
  | answered value =>
      refine ⟨by simp, 0, ?_⟩
      cases value <;> simp [left, countHit, countMiss]
  | purging =>
      obtain rfl : after = s := left
      obtain ⟨removed, -, counters⟩ := Pending.finish_counters ⟨0, key, .purging⟩ now after
      refine ⟨?_, removed, counters.trans ?_⟩
      · simp only [finishGet, purge]
        cases after.lookup now key <;> simp [Event.isPurgedOnRead]
      · simp [finishGet]

namespace Middleware

variable (m : Middleware) (c : Context) (call : Call) (w : World Store)

/-- A lookup tells what it has found, perhaps after a purge. -/
lemma tally_lookup {key : String} {found : Option Bytes} {after : World Store}
    (looked : w.get .memory c key = (found, after)) :
    ∃ before, (∀ e ∈ before, e.isPurgedOnRead = true) ∧
      Tally 0 (before ++ [lookupEvent call key found]) w
        (after.emit [lookupEvent call key found]) := by
  obtain ⟨rfl, rfl⟩ := Prod.mk.inj looked
  simp only [World.emit, Backend.memory]
  obtain ⟨purges, removed, counters⟩ := w.store.get_counters w.now key
  generalize w.store.get w.now key = reply at purges counters
  have silent : ∀ test : Event → Bool, (∀ own, test (.purgedOnRead own) = false) →
      reply.events.countP test = 0 := fun _ other => Event.countP_of_purges purges other
  refine ⟨reply.events, purges, List.append_assoc .., ?_, ?_, 0, ?_, ?_⟩
  · rw [List.countP_append, silent _ fun _ => rfl, counters]
    cases reply.answer <;> rfl
  · rw [List.countP_append, silent _ fun _ => rfl, counters]
    cases reply.answer <;> rfl
  · rw [counters]
    exact (UInt64.add_zero _).symm
  · rw [List.countP_append, List.countP_append, silent _ fun _ => rfl, silent _ fun _ => rfl]
    cases reply.answer <;> rfl

/-- Up to the run of its tool a call tells how it uses the cache, perhaps after a purge. -/
lemma tally_start :
    ∃ before decision, (∀ e ∈ before, e.isPurgedOnRead = true) ∧
      Decides decision (m.start .memory c call w).1 ∧
      Tally 0 (before ++ [decision]) w (m.start .memory c call w).2 := by
  rw [start, enter]
  cases m.skips call.toolId call.tags with
  | true =>
      exact ⟨[], _, List.forall_mem_nil _, .bypassed call.toolId call.tags, .emit rfl rfl rfl⟩
  | false =>
      cases m.keyer call.toolId call.input with
      | error error =>
          exact ⟨[], _, List.forall_mem_nil _, .keyFailed call.toolId error, .emit rfl rfl rfl⟩
      | ok key =>
          have entered : Tally 0 [] w (w.emit []) := .of_eq rfl (List.append_nil _)
          simp only [Bool.false_eq_true, if_false]
          rcases looked : (w.emit []).get .memory c key with ⟨_ | value, after⟩
          · obtain ⟨before, purges, tally⟩ := tally_lookup c call (w.emit []) looked
            exact ⟨before, _, purges, .miss call.toolId key, entered.trans tally⟩
          · obtain ⟨before, purges, tally⟩ := tally_lookup c call (w.emit []) looked
            exact ⟨before, _, purges, .hit call.toolId key value, entered.trans tally⟩

/-- A write of a result that lives counts, unless it is refused. -/
lemma set_memory (key : String) (value : Bytes) {lifetime : Nat} (lives : lifetime ≠ 0) :
    (∃ error, w.set .memory c key value lifetime = (.error error, w)) ∨
      ∃ after, w.set .memory c key value lifetime = (.ok (), after) ∧ Tally 1 [] w after := by
  simp only [World.set, World.receive, Backend.memory, Store.set]
  cases Key.check key with
  | error error => exact Or.inl ⟨error, by simp⟩
  | ok u =>
      simp only [if_neg lives]
      refine Or.inr ⟨_, rfl, rfl, ?_, ?_, 1, rfl, rfl⟩
      · exact (UInt64.add_zero _).symm
      · exact (UInt64.add_zero _).symm

/-- After the run of its tool, a call tells why a result that was due is not kept. -/
lemma tally_finish (key? : Option String) (outcome : Outcome) :
    ∃ after, after.countP Event.isDecision = 0 ∧
      (∀ error, outcome = .error error → after = []) ∧
      Tally (key?.isSome && outcome.isOk).toNat after w
        (m.finish .memory c call key? outcome w) := by
  cases key? with
  | none => exact ⟨[], rfl, fun _ _ => rfl, .of_eq rfl rfl⟩
  | some key =>
      cases outcome with
      | error error => exact ⟨[], rfl, fun _ _ => rfl, .of_eq rfl rfl⟩
      | ok value =>
          simp only [finish, keep]
          by_cases fleeting : m.policy.lifetime 0 = 0
          · rw [if_pos fleeting]
            exact ⟨[.notCaching call.toolId key], rfl, by simp, .emit rfl rfl rfl⟩
          · rw [if_neg fleeting]
            rcases set_memory c w key value fleeting with ⟨error, refused⟩ | ⟨after, written, tally⟩
            · rw [refused]
              exact ⟨[.writeFailed call.toolId key (m.policy.lifetime 0) error], rfl, by simp,
                .emit rfl rfl rfl⟩
            · rw [written]
              exact ⟨[], rfl, by simp, tally⟩

/-- A call is answered if its lookup has found bytes, and else its tool runs, with a key if there
was a lookup. -/
lemma lookups_of_start {σ : Type} (b : Backend σ) (w : World σ) :
    (∃ value key, (m.start b c call w).1 = .answered value ∧
        m.lookups b c call w = [.get key (some value)]) ∨
      ∃ key?, (m.start b c call w).1 = .run key? ∧
        m.lookups b c call w = key?.toList.map fun key => .get key none := by
  rw [start, lookups]
  rcases m.enter call with ⟨_ | key, events⟩
  · exact Or.inr ⟨none, rfl, rfl⟩
  · dsimp only
    rcases (w.emit events).get b c key with ⟨_ | value, after⟩
    · exact Or.inr ⟨some key, rfl, rfl⟩
    · exact Or.inl ⟨value, key, rfl, rfl⟩

/-- What the contacts of a call tell that was not answered. -/
lemma told_of_run {σ : Type} (b : Backend σ) (key? : Option String) (outcome : Outcome)
    (w : World σ) (es : List Event) :
    let told : Told := ⟨(key?.toList.map fun key => .get key none) ++
      .run outcome :: m.writes b c key? outcome w, es⟩
    told.contacts.any Contact.isHit = false ∧ told.contacts.any Contact.isMiss = key?.isSome ∧
      told.contacts.any Contact.isSuccess = outcome.isOk ∧ told.hasFailed = !outcome.isOk := by
  have unheard (test : Contact → Bool) (other : ∀ key value lifetime answer,
      test (.set key value lifetime answer) = false) :
      (m.writes b c key? outcome w).any test = false := by
    unfold writes
    split
    · split <;> simp [other]
    · rfl
  have no_hit := unheard Contact.isHit fun _ _ _ _ => rfl
  have no_miss := unheard Contact.isMiss fun _ _ _ _ => rfl
  have no_success := unheard Contact.isSuccess fun _ _ _ _ => rfl
  have no_failure := unheard Contact.isFailure fun _ _ _ _ => rfl
  simp only [Told.hasFailed, List.any_append, List.any_cons, no_hit, no_miss, no_success,
    no_failure]
  cases key? <;> cases outcome <;> exact ⟨rfl, rfl, rfl, rfl⟩

/-- The event that tells how a call uses the cache that was not answered. -/
lemma decided_of_run {σ : Type} {b : Backend σ} {key? : Option String} {outcome : Outcome}
    {w : World σ} {before after : List Event} {decision : Event}
    (decides : Decides decision (.run key?)) (purges : ∀ e ∈ before, e.isPurgedOnRead = true)
    (settled : after.countP Event.isDecision = 0)
    (unfailed : ∀ error, outcome = .error error → after = []) :
    Told.Decided ⟨(key?.toList.map fun key => .get key none) ++
      .run outcome :: m.writes b c key? outcome w, before ++ [decision] ++ after⟩ := by
  obtain ⟨once, any⟩ := decides.alone purges settled
  obtain ⟨served, missed, -, failed⟩ := m.told_of_run c b key? outcome w
    (before ++ [decision] ++ after)
  refine ⟨once, ?_, ?_, fun gave_up => ?_⟩
  · rw [served, any _ Event.isDecision_of_isHit]
    cases decides <;> rfl
  · rw [missed, any _ Event.isDecision_of_isMiss]
    cases decides <;> rfl
  · rw [failed] at gave_up
    cases outcome with
    | ok value => exact absurd gave_up Bool.false_ne_true
    | error error =>
        exact ⟨before, decision, decides.isDecision, by rw [unfailed error rfl, List.append_nil]⟩

/-- One event of a call tells how it uses the cache, and what it adds agrees with what it counts. -/
lemma tally_tell (bystander : Bystander) :
    let (told, after) := m.tell c call bystander w
    told.Decided ∧ Tally told.isDue.toNat told.events w after := by
  obtain ⟨tool, store_eq, events_eq⟩ := bystander
  obtain ⟨before, decision, purges, decides, opened⟩ := m.tally_start c call w
  have began := m.lookups_of_start c call .memory w
  simp only [tell, contacts_eq, asked, execute]
  generalize m.start .memory c call w = stepped at decides opened began ⊢
  obtain ⟨stage, w'⟩ := stepped
  rcases began with ⟨value, key, rfl, looked⟩ | ⟨key?, rfl, looked⟩
  · simp only [looked, opened.drop]
    obtain ⟨once, any⟩ := decides.alone purges List.countP_nil
    rw [List.append_nil] at once any
    cases decides with
    | hit =>
        have hit := any _ Event.isDecision_of_isHit
        have miss := any _ Event.isDecision_of_isMiss
        exact ⟨⟨once, hit, miss, fun failed => absurd failed Bool.false_ne_true⟩, opened⟩
  · have idle : Tally 0 [] w' (tool w').2 := .of_eq (store_eq w') (events_eq w')
    simp only [looked]
    generalize tool w' = ended at idle ⊢
    obtain ⟨outcome, rested⟩ := ended
    obtain ⟨after, settled, unfailed, closed⟩ := m.tally_finish c call rested key? outcome
    have whole : Tally _ (before ++ [decision] ++ after) w _ :=
      opened.trans (idle.trans closed)
    rw [Nat.zero_add, Nat.zero_add] at whole
    simp only [whole.drop]
    obtain ⟨-, missed, succeeded, -⟩ := m.told_of_run c .memory key? outcome rested
      (before ++ [decision] ++ after)
    refine ⟨m.decided_of_run c decides purges settled unfailed, ?_⟩
    rw [Told.isDue, missed, succeeded]
    exact whole

end Middleware

/-! ### All calls -/

/-- The events that calls have added, in their order. -/
def eventsOf (log : List Told) : List Event :=
  log.flatMap Told.events

lemma eventsOf_cons (told : Told) (log : List Told) :
    eventsOf (told :: log) = told.events ++ eventsOf log :=
  List.flatMap_cons

lemma countP_isDue_cons (told : Told) (log : List Told) :
    (told :: log).countP Told.isDue = told.isDue.toNat + log.countP Told.isDue := by
  rw [List.countP_cons, Nat.add_comm]
  cases told.isDue <;> rfl

/-- What each call adds agrees with what it counts, and so does what they add together. -/
lemma tally_tellAll (rounds : List Round) (w : World Store) :
    let (log, after) := tellAll rounds w
    (∀ told ∈ log, told.Decided) ∧ Tally (log.countP Told.isDue) (eventsOf log) w after := by
  induction rounds generalizing w with
  | nil => exact ⟨List.forall_mem_nil _, .of_eq rfl rfl⟩
  | cons round rest ih =>
      cases round with
      | pass time =>
          obtain ⟨decided, tally⟩ := ih (w.advance time)
          have idle : Tally 0 [] w (w.advance time) := .of_eq rfl rfl
          have whole := idle.trans tally
          rw [Nat.zero_add, List.nil_append] at whole
          exact ⟨decided, whole⟩
      | call m c call bystander =>
          obtain ⟨first, one⟩ := m.tally_tell c call w bystander
          obtain ⟨decided, others⟩ := ih (m.tell c call bystander w).2
          have whole := one.trans others
          rw [← countP_isDue_cons, ← eventsOf_cons] at whole
          exact ⟨List.forall_mem_cons.mpr ⟨first, decided⟩, whole⟩

/-- Each call tells once how it uses the cache. -/
lemma countP_isDecision {log : List Told} (decided : ∀ told ∈ log, told.Decided) :
    (eventsOf log).countP Event.isDecision = log.length := by
  induction log with
  | nil => rfl
  | cons told rest ih =>
      obtain ⟨first, others⟩ := List.forall_mem_cons.mp decided
      rw [eventsOf_cons, List.countP_append, first.once, ih others, List.length_cons,
        Nat.add_comm]

/-- No more events tell of hits, or of misses, than there were calls. -/
lemma countP_le_length {log : List Told} (decided : ∀ told ∈ log, told.Decided)
    {test : Event → Bool} (decides : ∀ {e}, test e = true → e.isDecision = true) :
    (eventsOf log).countP test ≤ log.length :=
  countP_isDecision decided ▸ List.countP_mono_left fun _ _ => decides

/-- The events and the counters tell the same story.

Calls of any middlewares that come one after another over an empty store, each with a tool that
leaves the store and the events alone, add one event each that tells how the call uses the cache.
It agrees with what the lookup has found, and if the tool fails, it is the last one. The hits and
the misses are those that events tell of. The calls that found nothing and whose tools gave bytes
are the writes, together with the events which tell that the policy gives no lifetime or that a
write has failed. The counters are words, so the numbers agree as words, and as numbers while there
are fewer than `2 ^ 64` calls.

After any operations on an empty store, reads that overlap with them included, the expirations are
the purges by readers and the numbers that the events of sweeps show, and the writes left out are
those that events tell of; the numbers agree in the same way. -/
theorem counters_tellAll (rounds : List Round) (start : World Store) (instant : Nat)
    (acts : List Store.Act) :
    let log := (tellAll rounds { start with store := .empty }).1
    let after := (tellAll rounds { start with store := .empty }).2
    let es := eventsOf log
    let k := after.store.counters
    (after.events = start.events ++ es ∧ ∀ told ∈ log, told.Decided) ∧
      (k.hits = UInt64.ofNat (es.countP Event.isHit) ∧
        k.misses = UInt64.ofNat (es.countP Event.isMiss) ∧
        UInt64.ofNat (log.countP Told.isDue) = k.writes +
          UInt64.ofNat (es.countP Event.isNotCaching) +
          UInt64.ofNat (es.countP Event.isWriteFailed)) ∧
      (log.length < Nat.pow 2 64 →
        k.hits.toNat = es.countP Event.isHit ∧ k.misses.toNat = es.countP Event.isMiss ∧
          log.countP Told.isDue = k.writes.toNat + es.countP Event.isNotCaching +
            es.countP Event.isWriteFailed) ∧
      let es' := Store.Act.events acts (.opening instant)
      let k' := (Store.Act.runAll acts (.opening instant)).state.counters
      let gone := es'.countP Event.isPurgedOnRead + Event.sum "removed" es'
      (k'.expirations = UInt64.ofNat gone ∧
          k'.skippedWrites = UInt64.ofNat (es'.countP Event.isWriteSkipped)) ∧
        (acts.length < Nat.pow 2 64 → k'.expirations.toNat = gone ∧
          k'.skippedWrites.toNat = es'.countP Event.isWriteSkipped) := by
  intro log after es k
  obtain ⟨decided, tally⟩ : (∀ told ∈ log, told.Decided) ∧
      Tally (log.countP Told.isDue) es { start with store := .empty } after :=
    tally_tellAll rounds { start with store := .empty }
  have hits : k.hits = UInt64.ofNat (es.countP Event.isHit) :=
    tally.hits.trans (UInt64.zero_add _)
  have misses : k.misses = UInt64.ofNat (es.countP Event.isMiss) :=
    tally.misses.trans (UInt64.zero_add _)
  obtain ⟨written, counted, due⟩ := tally.writes
  have writes : k.writes = UInt64.ofNat written := counted.trans (UInt64.zero_add _)
  have exact_of_le {word : UInt64} {n bound : Nat} (eq : word = UInt64.ofNat n) (le : n ≤ bound)
      (few : bound < Nat.pow 2 64) : word.toNat = n := by
    rw [eq, UInt64.toNat_ofNat_of_lt' (Nat.lt_of_le_of_lt le few)]
  refine ⟨⟨tally.events, decided⟩, ⟨hits, misses, ?_⟩, fun few => ⟨?_, ?_, ?_⟩, ?_⟩
  · rw [writes, ← due, UInt64.ofNat_add, UInt64.ofNat_add]
  · exact exact_of_le hits (countP_le_length decided Event.isDecision_of_isHit) few
  · exact exact_of_le misses (countP_le_length decided Event.isDecision_of_isMiss) few
  · have le : log.countP Told.isDue ≤ log.length := List.countP_le_length
    rw [exact_of_le writes (by omega) few]
    exact due.symm
  · intro es' k' gone
    obtain ⟨expirations, gone_le⟩ := Store.Act.expirations_eq_events instant acts
    obtain ⟨skipped, skipped_le⟩ := Store.Act.skippedWrites_eq_events instant acts
    exact ⟨⟨expirations, skipped⟩, fun few =>
      ⟨exact_of_le expirations gone_le few, exact_of_le skipped skipped_le few⟩⟩

/-- A miss and a hit, a purge before a tool that fails, a call without a key, one that a tag keeps
away, one whose key is refused, and one under a policy without a lifetime. Of two entries a reader
purges one and a sweep the other. -/
theorem counters_tellAll_mixed :
    let keyer : Keyer := fun toolId _ =>
      if toolId = "odd" then .error (.encoding "odd")
      else if toolId = "bad" then .ok "" else .ok toolId
    let call (usual : Nat) (toolId : String) (tags : List String) (outcome : Outcome) : Round :=
      let trial : Trial := ⟨⟨toolId, .null, tags⟩, ⟨0, none⟩, 1, outcome⟩
      .call ⟨keyer, ⟨usual, 0, false⟩, none⟩ trial.context trial.call trial.bystander
    let rounds : List Round :=
      [call 9 "k" [] (.ok [1]), call 9 "k" [] (.ok [2]), .pass 9,
        call 9 "k" [] (.error (.plain "gone")), call 9 "odd" [] (.ok [3]),
        call 9 "k" ["write"] (.ok [4]), call 9 "bad" [] (.ok [5]), call 0 "z" [] (.ok [6])]
    let acts : List Store.Act :=
      [.write (.set "a" [1] 5), .write (.set "b" [2] 5), .advance 5, .lookUp "a", .finish 0,
        .write .sweep, .write (.set "c" [3] 0)]
    let start : World Store := .start .empty
    let log := (tellAll rounds { start with store := .empty }).1
    let k := (tellAll rounds { start with store := .empty }).2.store.counters
    let k' := (Store.Act.runAll acts (.opening 0)).state.counters
    log.length < Nat.pow 2 64 ∧ acts.length < Nat.pow 2 64 ∧ k.hits.toNat = 1 ∧ k.misses.toNat = 4 ∧
      log.countP Told.isDue = k.writes.toNat + 1 + 1 ∧ k'.expirations.toNat = 1 + 1 ∧
      k'.skippedWrites.toNat = 1 := by
  intro keyer call rounds acts start log k k'
  obtain ⟨-, -, few_calls, -, few_acts⟩ := counters_tellAll rounds start 0 acts
  have calls : log.length < Nat.pow 2 64 := by decide +kernel
  have operations : acts.length < Nat.pow 2 64 := by decide
  obtain ⟨hits, misses, due⟩ := few_calls calls
  obtain ⟨expirations, skipped⟩ := few_acts operations
  refine ⟨calls, operations, hits.trans ?_, misses.trans ?_, due.trans ?_, expirations.trans ?_,
    skipped.trans ?_⟩ <;> decide +kernel

end ReadThrough
