import Mathlib.Tactic.Common
import ReadThrough.Call.Middleware

/-!
What a call asks of its backend and of its tool, whatever they answer.

* `Contact`: one thing asked, with the answer.
* `Backend.noting`, `Tool.noting`: any backend and any tool, but for a note of every contact. They
  answer as before, and the notes change nothing else (`execute_noting`).
* `Middleware.contacts`: the contacts of a call, in their order.
* `Course`: the ways in which a call can go, each with its contacts and its result.
* `execute_contacts`: every call goes one of these ways.
-/

namespace ReadThrough

variable {σ : Type}

/-- What a call asks of its backend or of its tool, with the answer. -/
inductive Contact where
  | get (key : String) (answer : Option Bytes)
  | set (key : String) (value : Bytes) (lifetime : Nat) (answer : Except CacheError Unit)
  | delete (key : String) (answer : Except CacheError Unit)
  | run (outcome : Outcome)

namespace Contact

/-- Whether a contact is a run of the tool. -/
def isRun : Contact → Bool
  | .run _ => true
  | _ => false

/-- Whether a contact is a lookup. -/
def isGet : Contact → Bool
  | .get .. => true
  | _ => false

/-- Whether a contact is a write. -/
def isSet : Contact → Bool
  | .set .. => true
  | _ => false

/-- Whether a contact is a removal. -/
def isDelete : Contact → Bool
  | .delete .. => true
  | _ => false

end Contact

/-! ### Taking notes -/

/-- The world with notes beside the state of the backend. -/
def World.noting (w : World σ) (notes : List Contact) : World (σ × List Contact) :=
  { w with store := (w.store, notes) }

/-- The world without the notes. -/
def World.bare (w : World (σ × List Contact)) : World σ :=
  { w with store := w.store.1 }

/-- A backend that answers as before and notes what it is asked. -/
def Backend.noting (b : Backend σ) : Backend (σ × List Contact) where
  get isCancelled now key s :=
    let reply := b.get isCancelled now key s.1
    ⟨reply.answer, reply.events, reply.state, s.2 ++ [.get key reply.answer]⟩
  set isCancelled now key value lifetime s :=
    let reply := b.set isCancelled now key value lifetime s.1
    ⟨reply.answer, reply.events, reply.state, s.2 ++ [.set key value lifetime reply.answer]⟩
  delete isCancelled now key s :=
    let reply := b.delete isCancelled now key s.1
    ⟨reply.answer, reply.events, reply.state, s.2 ++ [.delete key reply.answer]⟩

/-- A tool that does as before and notes its run. What it asks of the backend itself is no contact
of the call. -/
def Tool.noting (tool : Tool σ) : Tool (σ × List Contact) := fun w =>
  let (outcome, after) := tool w.bare
  (outcome, after.noting (w.store.2 ++ [.run outcome]))

namespace Middleware

variable (m : Middleware) (b : Backend σ) (c : Context) (call : Call)

/-- What a call asks of its backend and of its tool, in this order. -/
def contacts (tool : Tool σ) (w : World σ) : List Contact :=
  (m.execute b.noting c call (Tool.noting tool) (w.noting [])).2.store.2

/-- The contact of a call before the run of its tool: a lookup, if the call has a key. -/
def lookups (w : World σ) : List Contact :=
  match m.enter call with
  | (none, _) => []
  | (some key, events) => [.get key ((w.emit events).get b c key).1]

/-- The contact of a call after the run of its tool: a write, if there is something to keep. -/
def writes (key? : Option String) (outcome : Outcome) (w : World σ) : List Contact :=
  match key?, outcome with
  | some key, .ok value =>
    if m.policy.lifetime 0 = 0 then []
    else [.set key value (m.policy.lifetime 0) (w.set b c key value (m.policy.lifetime 0)).1]
  | _, _ => []

lemma start_noting (w : World σ) (notes : List Contact) :
    m.start b.noting c call (w.noting notes) =
      ((m.start b c call w).1, (m.start b c call w).2.noting (notes ++ m.lookups b c call w)) := by
  rw [start, start, lookups]
  rcases m.enter call with ⟨_ | key, events⟩
  · simp [World.noting, World.emit]
  · have asked : ((w.noting notes).emit events).get b.noting c key =
        (((w.emit events).get b c key).1, ((w.emit events).get b c key).2.noting
          (notes ++ [.get key ((w.emit events).get b c key).1])) := rfl
    simp only [asked]
    cases ((w.emit events).get b c key).1 <;> rfl

lemma finish_noting (key? : Option String) (outcome : Outcome) (w : World σ)
    (notes : List Contact) :
    m.finish b.noting c call key? outcome (w.noting notes) =
      (m.finish b c call key? outcome w).noting (notes ++ m.writes b c key? outcome w) := by
  cases key? with
  | none => simp [finish, writes]
  | some key =>
      cases outcome with
      | error error => simp [finish, writes]
      | ok value =>
          rw [finish, finish, keep, keep, writes]
          have asked : (w.noting notes).set b.noting c key value (m.policy.lifetime 0) =
              ((w.set b c key value (m.policy.lifetime 0)).1,
                (w.set b c key value (m.policy.lifetime 0)).2.noting (notes ++
                  [.set key value (m.policy.lifetime 0)
                    (w.set b c key value (m.policy.lifetime 0)).1])) := rfl
          rcases answered : w.set b c key value (m.policy.lifetime 0) with ⟨answer, after⟩
          rw [answered] at asked
          by_cases unkept : m.policy.lifetime 0 = 0
          · simp [unkept, World.noting, World.emit]
          · simp only [unkept, if_false, asked]
            cases answer <;> rfl

/-- What a call asks: before the run of its tool, the run, and after it. -/
def asked (tool : Tool σ) (w : World σ) : List Contact :=
  m.lookups b c call w ++
    match m.start b c call w with
    | (.answered _, _) => []
    | (.run key?, w) => .run (tool w).1 :: m.writes b c key? (tool w).1 (tool w).2

/-- The notes change nothing: the result and the world are as without them. -/
lemma execute_noting (tool : Tool σ) (w : World σ) :
    m.execute b.noting c call (Tool.noting tool) (w.noting []) =
      ((m.execute b c call tool w).1,
        (m.execute b c call tool w).2.noting (m.asked b c call tool w)) := by
  rw [execute, execute, asked, start_noting]
  rcases m.start b c call w with ⟨value | key?, started⟩
  · simp
  · have ran : Tool.noting tool (started.noting ([] ++ m.lookups b c call w)) =
        ((tool started).1, (tool started).2.noting (m.lookups b c call w ++
          [.run (tool started).1])) := rfl
    simp only [ran, finish_noting, List.append_assoc, List.singleton_append]

lemma contacts_eq (tool : Tool σ) (w : World σ) :
    m.contacts b c call tool w = m.asked b c call tool w :=
  congrArg (fun after => after.2.store.2) (m.execute_noting b c call tool w)

/-! ### The ways of a call -/

/-- The ways in which a call can go, each with what is asked on it, in order, and its result. -/
inductive Course : List Contact → Outcome → Prop where
  /-- A rule keeps the call away from the cache. -/
  | skipped (outcome : Outcome) (skips : m.skips call.toolId call.tags = true) :
      Course [.run outcome] outcome
  /-- The call has no key. -/
  | keyless (outcome : Outcome) {error : CacheError}
      (allowed : m.skips call.toolId call.tags = false)
      (failed : m.keyer call.toolId call.input = .error error) :
      Course [.run outcome] outcome
  /-- The backend answers the call. -/
  | served {key : String} (value : Bytes) (allowed : m.skips call.toolId call.tags = false)
      (derived : m.keyer call.toolId call.input = .ok key) :
      Course [.get key (some value)] (.ok value)
  /-- The backend has nothing, and the tool fails. -/
  | failed {key : String} (error : ToolError) (allowed : m.skips call.toolId call.tags = false)
      (derived : m.keyer call.toolId call.input = .ok key) :
      Course [.get key none, .run (.error error)] (.error error)
  /-- The backend has nothing, and the policy gives the bytes of the tool no lifetime. -/
  | unkept {key : String} (value : Bytes) (allowed : m.skips call.toolId call.tags = false)
      (derived : m.keyer call.toolId call.input = .ok key) (fleeting : m.policy.lifetime 0 = 0) :
      Course [.get key none, .run (.ok value)] (.ok value)
  /-- The backend has nothing, and is given the bytes of the tool, whether it takes them or not. -/
  | kept {key : String} (value : Bytes) (answer : Except CacheError Unit)
      (allowed : m.skips call.toolId call.tags = false)
      (derived : m.keyer call.toolId call.input = .ok key) (lives : m.policy.lifetime 0 ≠ 0) :
      Course [.get key none, .run (.ok value), .set key value (m.policy.lifetime 0) answer]
        (.ok value)

/-- What a call that has a key and was not answered asks after its lookup. -/
lemma Course.of_run {key : String} (allowed : m.skips call.toolId call.tags = false)
    (derived : m.keyer call.toolId call.input = .ok key) (outcome : Outcome) (w : World σ) :
    m.Course call (.get key none :: .run outcome :: m.writes b c (some key) outcome w) outcome := by
  cases outcome with
  | error error => exact .failed error allowed derived
  | ok value =>
      rw [writes]
      by_cases fleeting : m.policy.lifetime 0 = 0
      · rw [if_pos fleeting]
        exact .unkept value allowed derived fleeting
      · rw [if_neg fleeting]
        exact .kept value _ allowed derived fleeting

/-- Every call goes one of these ways. -/
lemma course_execute (tool : Tool σ) (w : World σ) :
    m.Course call (m.contacts b c call tool w) (m.execute b c call tool w).1 := by
  rw [contacts_eq, asked, lookups, execute, start, enter]
  cases skips : m.skips call.toolId call.tags with
  | true => exact .skipped _ skips
  | false =>
      cases derived : m.keyer call.toolId call.input with
      | error error => exact .keyless _ skips derived
      | ok key =>
          rcases answered : (w.emit []).get b c key with ⟨_ | value, looked⟩
          · simpa [answered] using Course.of_run m b c call skips derived _ _
          · simpa [answered] using Course.served value skips derived

namespace Course

variable {m call} {contacts : List Contact} {result : Outcome}

/-- The tool runs once and its outcome is the result, unless the backend answers bytes; then these
are the result, and the tool does not run. -/
lemma runs (h : m.Course call contacts result) :
    (∃ key value, .get key (some value) ∈ contacts ∧ contacts.countP Contact.isRun = 0 ∧
        result = .ok value) ∨
      (∀ key value, .get key (some value) ∉ contacts) ∧
        contacts.filter Contact.isRun = [.run result] := by
  cases h with
  | served value allowed derived => exact Or.inl ⟨_, value, List.mem_cons_self, rfl, rfl⟩
  | _ => exact Or.inr ⟨by simp, rfl⟩

/-- Without a key a call asks nothing of the backend. -/
lemma only_runs (h : m.Course call contacts result)
    (keyless : m.skips call.toolId call.tags = true ∨
      ∃ error, m.keyer call.toolId call.input = .error error) :
    ∀ contact ∈ contacts, contact.isRun = true := by
  cases h with
  | skipped outcome skips => simp [Contact.isRun]
  | keyless outcome allowed failed => simp [Contact.isRun]
  | _ => simp_all

/-- With a key a call looks that up once. -/
lemma gets (h : m.Course call contacts result) {key : String}
    (allowed : m.skips call.toolId call.tags = false)
    (derived : m.keyer call.toolId call.input = .ok key) :
    ∃ answer, contacts.filter Contact.isGet = [.get key answer] := by
  have same : ∀ {own}, m.keyer call.toolId call.input = .ok own → own = key :=
    fun own_derived => Except.ok.inj (own_derived.symm.trans derived)
  cases h with
  | skipped outcome skips => simp [skips] at allowed
  | keyless outcome allowed failed => simp [failed] at derived
  | served value allowed own => exact ⟨some value, by rw [same own]; rfl⟩
  | failed error allowed own => exact ⟨none, by rw [same own]; rfl⟩
  | unkept value allowed own fleeting => exact ⟨none, by rw [same own]; rfl⟩
  | kept value answer allowed own lives => exact ⟨none, by rw [same own]; rfl⟩

/-- A call writes at most once, namely the bytes of its tool under the key that had none, with the
lifetime of the policy, and it removes nothing. -/
lemma sets (h : m.Course call contacts result) :
    contacts.countP Contact.isSet ≤ 1 ∧
      (∀ key value lifetime, (∃ answer, .set key value lifetime answer ∈ contacts) ↔
        .get key none ∈ contacts ∧ result = .ok value ∧ lifetime = m.policy.lifetime 0 ∧
          lifetime ≠ 0) ∧
      contacts.countP Contact.isDelete = 0 := by
  cases h with
  | unkept value allowed derived fleeting => simp [fleeting, Contact.isSet, Contact.isDelete]
  | kept value answer allowed derived lives =>
      refine ⟨Nat.le_refl _, fun key bytes lifetime => ⟨?_, ?_⟩, rfl⟩
      · rintro ⟨given, mem⟩
        obtain ⟨rfl, rfl, rfl, -⟩ : key = _ ∧ bytes = value ∧ lifetime = _ ∧ given = answer := by
          simpa using mem
        exact ⟨List.mem_cons_self, rfl, rfl, lives⟩
      · rintro ⟨mem, same, rfl, -⟩
        obtain rfl : key = _ := by simpa using mem
        obtain rfl := Except.ok.inj same
        exact ⟨answer, by simp⟩
  | _ => simp [Contact.isSet, Contact.isDelete]

end Course

/-- Over any backend and with any tool, keyer, policy and rule, a call goes one of the ways above.
In particular its tool runs once and its outcome is the result, unless the backend answers bytes;
then these are the result, and the tool does not run. Without a key the backend is asked nothing,
and with one it is asked once for that key. The call writes at most once, exactly if the backend had
nothing, the tool gave bytes and the policy gives them a lifetime, which obeys its bound; and it
removes nothing. -/
theorem execute_contacts (tool : Tool σ) (w : World σ) :
    let result := (m.execute b c call tool w).1
    let contacts := m.contacts b c call tool w
    let lifetime := m.policy.lifetime 0
    (m.execute b.noting c call (Tool.noting tool) (w.noting []) =
          (result, (m.execute b c call tool w).2.noting contacts) ∧
        m.Course call contacts result) ∧
      ((∃ key value, .get key (some value) ∈ contacts ∧ contacts.countP Contact.isRun = 0 ∧
            result = .ok value) ∨
        (∀ key value, .get key (some value) ∉ contacts) ∧
          contacts.filter Contact.isRun = [.run result]) ∧
      ((m.skips call.toolId call.tags = true ∨
            ∃ error, m.keyer call.toolId call.input = .error error) →
          ∀ contact ∈ contacts, contact.isRun = true) ∧
      (∀ key, m.skips call.toolId call.tags = false → m.keyer call.toolId call.input = .ok key →
        ∃ answer, contacts.filter Contact.isGet = [.get key answer]) ∧
      (contacts.countP Contact.isSet ≤ 1 ∧
        (∀ key value time, (∃ answer, .set key value time answer ∈ contacts) ↔
          .get key none ∈ contacts ∧ result = .ok value ∧ time = lifetime ∧ time ≠ 0) ∧
        contacts.countP Contact.isDelete = 0) ∧
      (0 < m.policy.greatest → lifetime ≤ m.policy.greatest) := by
  intro result contacts lifetime
  have course : m.Course call contacts result := m.course_execute b c call tool w
  have noted : m.execute b.noting c call (Tool.noting tool) (w.noting []) =
      (result, (m.execute b c call tool w).2.noting contacts) := by
    rw [execute_noting, ← contacts_eq]
  exact ⟨⟨noted, course⟩, course.runs, course.only_runs, fun _ allowed derived =>
    course.gets allowed derived, course.sets, m.policy.lifetime_le 0⟩

/-- A keyer that fails for one tool, over a backend that refuses every write: the one call asks the
backend nothing, the other one looks its key up and gets the bytes of its tool all the same. -/
theorem execute_contacts_refused :
    let m : Middleware :=
      ⟨fun toolId _ => if toolId = "odd" then .error (.encoding "odd") else .ok "k", ⟨10, 5, false⟩,
        none⟩
    let b : Backend Unit := Backend.readOnly
    let tool : Tool Unit := fun w => (.ok [1], w)
    let odd := m.contacts b ⟨0, none⟩ ⟨"odd", .null, []⟩ tool (World.start ())
    let even := m.contacts b ⟨0, none⟩ ⟨"even", .null, []⟩ tool (World.start ())
    m.keyer "odd" .null = .error (.encoding "odd") ∧
      (∀ contact ∈ odd, contact.isRun = true) ∧
      m.skips "even" [] = false ∧ m.keyer "even" .null = .ok "k" ∧
      (∃ answer, even.filter Contact.isGet = [.get "k" answer]) ∧
      (∃ answer, .set "k" [1] 5 answer ∈ even) ∧ 0 < m.policy.greatest ∧
      m.policy.lifetime 0 ≤ m.policy.greatest := by
  intro m b tool odd even
  have failed : m.keyer "odd" .null = .error (.encoding "odd") := rfl
  have allowed : m.skips "even" [] = false := rfl
  have derived : m.keyer "even" .null = .ok "k" := rfl
  have asked := m.execute_contacts b ⟨0, none⟩ ⟨"even", .null, []⟩ tool (World.start ())
  obtain ⟨-, -, -, gets, ⟨-, sets, -⟩, bounded⟩ := asked
  have keyless :=
    (m.execute_contacts b ⟨0, none⟩ ⟨"odd", .null, []⟩ tool (World.start ())).2.2.1
  have written := (sets "k" [1] 5).mpr
    ⟨List.mem_cons_self, rfl, rfl, by decide⟩
  exact ⟨failed, keyless (Or.inr ⟨_, failed⟩), allowed, derived, gets "k" allowed derived, written,
    by decide, bounded (by decide)⟩

end Middleware

end ReadThrough
