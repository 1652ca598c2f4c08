import ReadThrough.Call.Middleware
import ReadThrough.Proofs.Store.Live

/-!
The two parts of a call over the store of this library, before and after the run of its tool.

* `enter_eq_some_iff`: a call uses the cache if no rule keeps it away and it has a key.
* `Middleware.kept?`: what a call writes once its tool has ended, and under which key.
* `start_memory`: the part before the run answers what is live under the key of the call, or leaves
  the run of the tool to be done. Of the store it takes nothing but expired entries.
* `finish_entries`: the part after the run puts what `kept?` says, and nothing else.
-/

namespace ReadThrough.Middleware

/-- A call uses the cache under a key if no rule keeps it away and the key is the derived one. -/
lemma enter_eq_some_iff {m : Middleware} {call : Call} {key : String} :
    (m.enter call).1 = some key ↔
      m.skips call.toolId call.tags = false ∧ m.keyer call.toolId call.input = .ok key := by
  rw [enter]
  cases m.skips call.toolId call.tags with
  | true => simp
  | false => cases m.keyer call.toolId call.input <;> simp

/-- What a call writes once its tool has ended: the bytes of a success, if there is a key that is
accepted and the policy gives the result a lifetime. -/
def kept? (m : Middleware) : Option String → Outcome → Option (String × Bytes)
  | some key, .ok value =>
    if Key.isValid key = true ∧ m.policy.lifetime 0 ≠ 0 then some (key, value) else none
  | _, _ => none

lemma kept?_eq_some_iff {m : Middleware} {key? : Option String} {outcome : Outcome} {key : String}
    {value : Bytes} :
    m.kept? key? outcome = some (key, value) ↔
      key? = some key ∧ outcome = .ok value ∧ Key.isValid key = true ∧
        m.policy.lifetime 0 ≠ 0 := by
  cases key? with
  | none => simp [kept?]
  | some own =>
      cases outcome with
      | error e => simp [kept?]
      | ok bytes =>
          simp only [kept?, Option.ite_none_right_eq_some, Option.some.injEq, Prod.mk.injEq,
            Except.ok.injEq]
          constructor
          · rintro ⟨stored, rfl, rfl⟩
            exact ⟨rfl, rfl, stored⟩
          · rintro ⟨rfl, rfl, stored⟩
            exact ⟨stored, rfl, rfl⟩

/-! ### Before the run -/

/-- Whether the cache answers a call: what is live under its key, if it has one that is accepted. -/
def answer? (m : Middleware) (call : Call) (w : World Store) : Option Bytes :=
  (m.enter call).1.bind fun key => if Key.isValid key then w.store.liveAt w.now key else none

/-- The part before the run answers the call, or leaves its tool to run. -/
lemma start_memory (m : Middleware) (c : Context) (call : Call) (w : World Store) :
    (m.start .memory c call w).1 =
        (match m.answer? call w with
        | some value => .answered value
        | none => .run (m.enter call).1) ∧
      (m.start .memory c call w).2.now = w.now ∧ (m.start .memory c call w).2.runs = w.runs ∧
      Store.DropsExpired w.now w.store (m.start .memory c call w).2.store := by
  rw [start, answer?]
  rcases entered : m.enter call with ⟨_ | key, events⟩
  · exact ⟨rfl, rfl, rfl, Store.DropsExpired.of_entries_eq rfl⟩
  · have answered := w.store.get_answer w.now key
    have dropped := w.store.get_dropsExpired w.now key
    simp only [World.get, World.receive, World.emit, Backend.memory, Option.bind_some]
    rw [← answered]
    cases (w.store.get w.now key).answer with
    | some value => exact ⟨rfl, rfl, rfl, dropped⟩
    | none => exact ⟨rfl, rfl, rfl, dropped⟩

/-! ### After the run -/

section

variable {σ : Type} (m : Middleware) (b : Backend σ) (c : Context) (call : Call)

/-- A result with a lifetime is handed to the backend. -/
lemma keep_store (key : String) (value : Bytes) (w : World σ) (lives : m.policy.lifetime 0 ≠ 0) :
    (m.keep b c call key value w).store =
      (b.set (w.isCancelled c) w.now key value (m.policy.lifetime 0) w.store).state := by
  simp only [keep, if_neg lives, World.set, World.receive]
  cases (b.set (w.isCancelled c) w.now key value (m.policy.lifetime 0) w.store).answer <;> rfl

lemma keep_now (key : String) (value : Bytes) (w : World σ) :
    (m.keep b c call key value w).now = w.now ∧ (m.keep b c call key value w).runs = w.runs := by
  by_cases unkept : m.policy.lifetime 0 = 0
  · simp [keep, unkept, World.emit]
  · simp only [keep, if_neg unkept, World.set, World.receive]
    cases (b.set (w.isCancelled c) w.now key value (m.policy.lifetime 0) w.store).answer <;>
      exact ⟨rfl, rfl⟩

/-- The part after the run takes no time and runs no tool. -/
lemma finish_now (key? : Option String) (outcome : Outcome) (w : World σ) :
    (m.finish b c call key? outcome w).now = w.now ∧
      (m.finish b c call key? outcome w).runs = w.runs := by
  cases key? with
  | none => exact ⟨rfl, rfl⟩
  | some key =>
      cases outcome with
      | error e => exact ⟨rfl, rfl⟩
      | ok value => exact m.keep_now b c call key value w

end

/-- The part after the run puts the bytes that are to be kept, with the lifetime of the policy from
that instant on. -/
lemma finish_entries (m : Middleware) (c : Context) (call : Call) (key? : Option String)
    (outcome : Outcome) (w : World Store) :
    (m.finish .memory c call key? outcome w).store.entries =
      match m.kept? key? outcome with
      | some (key, value) =>
        w.store.entries.insert key (Entry.lasting w.now value (m.policy.lifetime 0))
      | none => w.store.entries := by
  cases key? with
  | none => rfl
  | some key =>
      cases outcome with
      | error e => rfl
      | ok value =>
          rw [finish, kept?]
          by_cases unkept : m.policy.lifetime 0 = 0
          · simp [keep, unkept, World.emit]
          · rw [m.keep_store .memory c call key value w unkept, Backend.memory, Store.set_entries]
            by_cases valid : Key.isValid key = true
            · simp [valid, unkept]
            · simp [valid]

end ReadThrough.Middleware
