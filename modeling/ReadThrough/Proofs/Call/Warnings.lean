import ReadThrough.Proofs.Call.Contacts
import ReadThrough.Proofs.Call.Lifetimes
import ReadThrough.Proofs.Store.Events

/-!
The warning about a result that a backend refuses, and the lifetime that it shows.

* `mem_writes_iff`: the write of a call.
* `events_of_refused`: a refused write ends in the warning.
* `number_writeFailed`: the warning shows the milliseconds of the lifetime modulo the size of a
  word.
* `ttl_of_refused`: which lifetimes the warning shows as they are.
-/

namespace ReadThrough

/-- The warning shows the milliseconds of the lifetime modulo the size of a word. -/
lemma Event.number_writeFailed (toolId key : String) (lifetime : Nat) (error : CacheError) :
    (writeFailed toolId key lifetime error).number "ttl_ms" =
      lifetime / Duration.millisecond % Nat.pow 2 64 := by
  have shown : (writeFailed toolId key lifetime error).number "ttl_ms" =
      (Duration.milliseconds lifetime).toNat := number_natText rfl
  rw [shown, Duration.milliseconds, UInt64.toNat_ofNat']

namespace Middleware

variable {σ : Type} {m : Middleware} {b : Backend σ} {c : Context} {call : Call}

/-- The write of a call: the bytes of its tool, for the lifetime of the policy if there is one. -/
lemma mem_writes_iff {key? : Option String} {outcome : Outcome} {w : World σ} {contact : Contact} :
    contact ∈ m.writes b c key? outcome w ↔
      ∃ key value, key? = some key ∧ outcome = .ok value ∧ m.policy.lifetime 0 ≠ 0 ∧
        contact = .set key value (m.policy.lifetime 0)
          (w.set b c key value (m.policy.lifetime 0)).1 := by
  cases key? with
  | none => simp [writes]
  | some key =>
      cases outcome with
      | error error => simp [writes]
      | ok value => by_cases fleeting : m.policy.lifetime 0 = 0 <;> simp [writes, fleeting]

/-- After a refused write there is nothing but the warning. -/
lemma finish_of_refused_write {key : String} {value : Bytes} {error : CacheError} {w w' : World σ}
    (lives : m.policy.lifetime 0 ≠ 0)
    (refused : w.set b c key value (m.policy.lifetime 0) = (.error error, w')) :
    m.finish b c call (some key) (.ok value) w =
      w'.emit [.writeFailed call.toolId key (m.policy.lifetime 0) error] := by
  simp only [finish, keep, if_neg lives, refused]

/-- A call whose write is refused ends with the warning. -/
lemma events_of_refused {tool : Tool σ} {w : World σ} {key : String} {value : Bytes}
    {lifetime : Nat} {error : CacheError}
    (refused : .set key value lifetime (.error error) ∈ m.contacts b c call tool w) :
    lifetime = m.policy.lifetime 0 ∧ ∃ before, (m.execute b c call tool w).2.events =
      before ++ [.writeFailed call.toolId key lifetime error] := by
  have unasked : .set key value lifetime (.error error) ∉ m.lookups b c call w := by
    rw [lookups]
    split <;> simp
  rw [contacts_eq, asked, List.mem_append, or_iff_right unasked] at refused
  rw [execute]
  generalize m.start b c call w = stepped at refused ⊢
  obtain ⟨given | key?, started⟩ := stepped
  · exact absurd refused List.not_mem_nil
  · dsimp only at refused ⊢
    rw [List.mem_cons, or_iff_right (by simp), mem_writes_iff] at refused
    obtain ⟨own, bytes, rfl, ran, lives, written⟩ := refused
    obtain ⟨rfl, rfl, rfl, answered⟩ := Contact.set.inj written
    rcases ended : (tool started).2.set b c key value (m.policy.lifetime 0) with ⟨answer, after⟩
    rw [ended] at answered
    subst answered
    rw [ran, finish_of_refused_write lives ended]
    exact ⟨rfl, after.events, rfl⟩

/-- What the warning about a refused write shows.

A call whose backend refuses its write, with any policy, keyer, rule and tool, ends with a warning
that shows the milliseconds of the lifetime that the backend was given, modulo `2 ^ 64`. So it shows
them as they are exactly if they fit a word. They do under a policy whose greatest lifetime is set
and fits, and under the policy of settings exactly if the lifetime has no more than
`18446744073709551` seconds. -/
theorem ttl_of_refused (tool : Tool σ) (w : World σ) {key : String} {value : Bytes} {lifetime : Nat}
    {error : CacheError}
    (refused : .set key value lifetime (.error error) ∈ m.contacts b c call tool w) :
    let warning : Event := .writeFailed call.toolId key lifetime error
    let shown := warning.number "ttl_ms"
    (warning.message = "failed to cache tool result" ∧
        warning.fields.lookup "ttl_ms" = some (String.ofList (natText shown)) ∧
        lifetime = m.policy.lifetime 0 ∧
        ∃ before, (m.execute b c call tool w).2.events = before ++ [warning]) ∧
      shown = lifetime / Duration.millisecond % Nat.pow 2 64 ∧
      (shown = lifetime / Duration.millisecond ↔ lifetime / Duration.millisecond < Nat.pow 2 64) ∧
      (0 < m.policy.greatest → m.policy.greatest / Duration.millisecond < Nat.pow 2 64 →
        shown = lifetime / Duration.millisecond) ∧
      ∀ s : Settings, m.policy = s.policy →
        (shown = s.seconds * 1000 ↔ s.seconds ≤ 18446744073709551) := by
  intro warning shown
  obtain ⟨given, told⟩ := events_of_refused refused
  have word : shown = (Duration.milliseconds lifetime).toNat := Event.number_natText rfl
  have field : warning.fields.lookup "ttl_ms" = some (String.ofList (natText shown)) := by
    rw [word]
    rfl
  have cut : shown = lifetime / Duration.millisecond % Nat.pow 2 64 := Event.number_writeFailed ..
  have fits : shown = lifetime / Duration.millisecond ↔
      lifetime / Duration.millisecond < Nat.pow 2 64 := by
    rw [cut, Nat.mod_eq_iff_lt (by decide)]
  refine ⟨⟨rfl, field, given, told⟩, cut, fits, fun bounded small => ?_, fun s governed => ?_⟩
  · have le : lifetime ≤ m.policy.greatest := given ▸ m.policy.lifetime_le 0 bounded
    exact fits.mpr (Nat.lt_of_le_of_lt (Nat.div_le_div_right le) small)
  · have whole : lifetime / Duration.millisecond = s.seconds * 1000 := by
      rw [given, governed, s.policy_lifetime, Duration.ofSeconds, Duration.second,
        Duration.millisecond]
      omega
    rw [← whole, fits, whole]
    show s.seconds * 1000 < 18446744073709551616 ↔ s.seconds ≤ 18446744073709551
    omega

/-- A middleware that has one key for all calls. -/
def oneKeyed (policy : Policy) : Middleware :=
  ⟨fun _ _ => .ok "k", policy, none⟩

/-- What a call asks of a backend that finds nothing and refuses every write. -/
def refusedContacts (policy : Policy) : List Contact :=
  (oneKeyed policy).contacts Backend.readOnly ⟨0, none⟩ ⟨"t", .null, []⟩ (fun w => (.ok [1], w))
    (World.start ())

/-- The events of that call. -/
def refusedEvents (policy : Policy) : List Event :=
  ((oneKeyed policy).execute Backend.readOnly ⟨0, none⟩ ⟨"t", .null, []⟩ (fun w => (.ok [1], w))
    (World.start ())).2.events

lemma refused_mem_refusedContacts {policy : Policy} {lifetime : Nat}
    (given : policy.lifetime 0 = lifetime) (lives : lifetime ≠ 0) :
    .set "k" [1] lifetime (.error (.backend "read-only")) ∈ refusedContacts policy := by
  subst given
  have entered : (oneKeyed policy).enter ⟨"t", .null, []⟩ = (some "k", []) := by
    cases allowed : policy.unsafeAllowed <;> simp [oneKeyed, enter, skips, allowed, hasUnsafeTag]
  rw [refusedContacts, contacts_eq, asked, start, entered]
  refine List.mem_append_right _ (List.mem_cons_of_mem _ (mem_writes_iff.mpr ?_))
  exact ⟨"k", [1], rfl, rfl, lives, rfl⟩

/-- The greatest number of seconds that is shown as it is, and a bounded lifetime. -/
theorem ttl_of_refused_greatest :
    let s : Settings := ⟨18446744073709551, 0, false⟩
    let bounded : Policy := ⟨2000000000, 1500000001, false⟩
    let error : CacheError := .backend "read-only"
    .set "k" [1] 18446744073709551000000000 (.error error) ∈ refusedContacts s.policy ∧
      (Event.writeFailed "t" "k" 18446744073709551000000000 error).number "ttl_ms" =
        18446744073709551000 ∧
      .set "k" [1] 1500000001 (.error error) ∈ refusedContacts bounded ∧
      (Event.writeFailed "t" "k" 1500000001 error).number "ttl_ms" = 1500 := by
  intro s bounded error
  have seconds : s.seconds = 18446744073709551 := rfl
  have lifetime : s.policy.lifetime 0 = 18446744073709551000000000 := by
    rw [s.policy_lifetime, seconds, Duration.ofSeconds, Duration.second]
  have limit : bounded.lifetime 0 = 1500000001 := rfl
  have long := refused_mem_refusedContacts lifetime (by decide)
  have short := refused_mem_refusedContacts limit (by decide)
  obtain ⟨-, -, -, -, settings⟩ := ttl_of_refused _ _ long
  obtain ⟨-, -, -, fits, -⟩ := ttl_of_refused _ _ short
  have longest := (settings s rfl).mpr (by rw [seconds])
  rw [seconds] at longest
  exact ⟨long, longest, short, fits (by decide) (by decide)⟩

/-- One second more: a lifetime of more than 584 million years is shown as 384 milliseconds. -/
theorem ttl_of_refused_wrapped :
    let s : Settings := ⟨18446744073709552, 0, false⟩
    let error : CacheError := .backend "read-only"
    let warning : Event := .writeFailed "t" "k" 18446744073709552000000000 error
    .set "k" [1] 18446744073709552000000000 (.error error) ∈ refusedContacts s.policy ∧
      (∃ before, refusedEvents s.policy = before ++ [warning]) ∧
      warning.number "ttl_ms" = 384 ∧
      18446744073709552000000000 / Duration.millisecond = 18446744073709552000 := by
  intro s error warning
  have seconds : s.seconds = 18446744073709552 := rfl
  have lifetime : s.policy.lifetime 0 = 18446744073709552000000000 := by
    rw [s.policy_lifetime, seconds, Duration.ofSeconds, Duration.second]
  have refused := refused_mem_refusedContacts lifetime (by decide)
  exact ⟨refused, (events_of_refused refused).2, Event.number_writeFailed .., rfl⟩

end Middleware

end ReadThrough
