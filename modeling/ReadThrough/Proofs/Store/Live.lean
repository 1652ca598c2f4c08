import Mathlib.Tactic.Common
import ReadThrough.Store.Operation

/-!
What is live under the keys of a store, and what the operations of the store do to it.

* `Entry.liveAt`, `Store.liveAt`: the bytes of an entry, and those under a key, unless they are
  expired at an instant.
* `Store.unexpired`: the entry under a key, unless it is expired at an instant. Its bytes are the
  live ones (`liveAt_eq_map`), and it tells the time that is left (`remaining?_eq`).
* `get_answer`: a read answers what is live under a valid key.
* `Store.DropsExpired`: a store that has lost nothing but expired entries. Reads, purges and sweeps
  leave such a store (`purge_dropsExpired`, `get_dropsExpired`, `sweep_dropsExpired`), and what is
  live in it is the same from that instant on (`DropsExpired.liveAt_eq`).
* `set_unexpired`, `delete_unexpired`: the two operations that do change what is unexpired, each
  under one key; `set_liveAt`, `delete_liveAt` say the same of what is live.
-/

namespace ReadThrough

namespace Entry

/-- The bytes of an entry, unless they are expired at an instant. -/
def liveAt (e : Entry) (instant : Nat) : Option Bytes :=
  if e.isExpired instant then none else some e.value

/-- An expired entry stays expired. -/
lemma isExpired_mono {e : Entry} {now later : Nat} (expired : e.isExpired now = true)
    (le : now ≤ later) : e.isExpired later = true := by
  rw [isExpired] at expired ⊢
  cases limit : e.expires with
  | none => simp [limit] at expired
  | some instant =>
      simp only [limit, decide_eq_true_eq] at expired ⊢
      omega

/-- Stored bytes live for their time, and forever if its end cannot be represented. -/
lemma isExpired_lasting (now later : Nat) (value : Bytes) (lifetime : Nat) :
    (lasting now value lifetime).isExpired later = false ↔
      later < now + lifetime ∨ Instant.after? now lifetime = none := by
  by_cases fits : now + lifetime ≤ Instant.last
  · simp [lasting, isExpired, Instant.after?, fits]
  · simp [lasting, isExpired, Instant.after?, fits]

lemma liveAt_lasting_eq_some_iff {now later : Nat} {value other : Bytes} {lifetime : Nat} :
    (lasting now value lifetime).liveAt later = some other ↔
      value = other ∧ (later < now + lifetime ∨ Instant.after? now lifetime = none) := by
  rw [← isExpired_lasting now later value lifetime, liveAt]
  cases (lasting now value lifetime).isExpired later with
  | true => simp
  | false => simp [lasting]

end Entry

namespace Store

/-- The bytes under a key, unless they are expired at an instant. -/
def liveAt (s : Store) (instant : Nat) (key : String) : Option Bytes :=
  (s.entries.get? key).bind fun e => e.liveAt instant

/-- Nothing but the entries decides what is live. -/
lemma liveAt_of_entries_eq {s s' : Store} (same : s'.entries = s.entries) (instant : Nat)
    (key : String) : s'.liveAt instant key = s.liveAt instant key := by
  rw [liveAt, liveAt, same]

/-- The entry under a key, unless it is expired at an instant. -/
def unexpired (s : Store) (instant : Nat) (key : String) : Option Entry :=
  (s.entries.get? key).filter fun e => !e.isExpired instant

lemma liveAt_eq_map (s : Store) (instant : Nat) (key : String) :
    s.liveAt instant key = (s.unexpired instant key).map Entry.value := by
  rw [liveAt, unexpired]
  cases s.entries.get? key with
  | none => rfl
  | some e => cases expired : e.isExpired instant <;> simp [Entry.liveAt, expired, Option.filter]

/-- The time left is that of the unexpired entry. -/
lemma remaining?_eq (s : Store) (now : Nat) (key : String) :
    s.remaining? now key =
      (s.unexpired now key).map fun e => (e.remaining now).getD Duration.longest := by
  rw [remaining?, unexpired]
  cases s.entries.get? key with
  | none => rfl
  | some e => cases expired : e.isExpired now <;> simp [expired, Option.filter]

/-- What is unexpired later is unexpired now. -/
lemma unexpired_later (s : Store) {now later : Nat} (le : now ≤ later) (key : String) :
    s.unexpired later key = (s.unexpired now key).filter fun e => !e.isExpired later := by
  rw [unexpired, unexpired]
  cases s.entries.get? key with
  | none => rfl
  | some e =>
      cases expired : e.isExpired now with
      | false => simp [expired, Option.filter]
      | true => simp [expired, Entry.isExpired_mono expired le, Option.filter]

lemma lookup_of_liveAt_eq_some {s : Store} {now : Nat} {key : String} {value : Bytes}
    (live : s.liveAt now key = some value) : s.lookup now key = .live value := by
  obtain ⟨e, found, live⟩ := Option.bind_eq_some_iff.mp live
  rw [Entry.liveAt] at live
  split at live
  · simp at live
  · rename_i unexpired
    rw [lookup, found]
    simp_all

lemma lookup_of_liveAt_eq_none {s : Store} {now : Nat} {key : String}
    (dead : s.liveAt now key = none) :
    s.lookup now key = .expired ∨ s.lookup now key = .missing := by
  rw [lookup]
  cases found : s.entries.get? key with
  | none => simp
  | some e =>
      have expired : e.liveAt now = none := by simpa [liveAt, found] using dead
      by_cases h : e.isExpired now = true
      · simp [h]
      · simp [Entry.liveAt, h] at expired

/-! ### Losing expired entries -/

/-- The second store holds what the first one holds, but for entries that are expired. -/
def DropsExpired (now : Nat) (s s' : Store) : Prop :=
  ∀ key, s'.entries.get? key = s.entries.get? key ∨
    s'.entries.get? key = none ∧ ∃ e, s.entries.get? key = some e ∧ e.isExpired now = true

namespace DropsExpired

variable {now : Nat} {s s' : Store}

lemma of_entries_eq (same : s'.entries = s.entries) : DropsExpired now s s' :=
  fun key => Or.inl (by rw [same])

/-- From the instant of the loss on the same entries are unexpired. -/
lemma unexpired_eq (h : DropsExpired now s s') {later : Nat} (le : now ≤ later) (key : String) :
    s'.unexpired later key = s.unexpired later key := by
  rw [unexpired, unexpired]
  rcases h key with same | ⟨gone, e, found, expired⟩
  · rw [same]
  · rw [gone, found]
    simp [Entry.isExpired_mono expired le, Option.filter]

/-- From the instant of the loss on the same bytes are live. -/
lemma liveAt_eq (h : DropsExpired now s s') {later : Nat} (le : now ≤ later) (key : String) :
    s'.liveAt later key = s.liveAt later key := by
  rw [liveAt_eq_map, liveAt_eq_map, h.unexpired_eq le]

end DropsExpired

lemma purge_dropsExpired (s : Store) (now : Nat) (key : String) :
    DropsExpired now s (s.purge now key).state := by
  intro other
  rw [purge, lookup]
  cases found : s.entries.get? key with
  | none => exact Or.inl rfl
  | some e =>
      by_cases expired : e.isExpired now = true
      · simp only [expired, if_true, countExpirations, Table.get?_erase]
        by_cases same : other = key
        · subst same
          exact Or.inr ⟨if_pos rfl, e, found, expired⟩
        · exact Or.inl (if_neg same)
      · simp [expired]

lemma sweep_dropsExpired (s : Store) (now : Nat) : DropsExpired now s (s.sweep now).state := by
  intro other
  simp only [sweep]
  split
  · exact Or.inl rfl
  · simp only [countExpirations, Table.get?_keep]
    cases found : s.entries.get? other with
    | none => exact Or.inl rfl
    | some e =>
        by_cases expired : e.isExpired now = true
        · exact Or.inr ⟨by simp [Option.filter, expired], e, rfl, expired⟩
        · exact Or.inl (by simp [Option.filter, expired])

/-! ### Reading -/

/-- The first step of a read removes nothing. -/
lemma entries_of_startGet {s s' : Store} {now : Nat} {key : String} {stage : GetStage}
    (first : s.startGet now key = (stage, s')) : s'.entries = s.entries := by
  have unchanged : (s.startGet now key).2.entries = s.entries := by
    rw [startGet]
    split
    · cases s.lookup now key <;> rfl
    · rfl
  rw [← unchanged, first]

/-- The second step of a read answers nothing. -/
@[simp] lemma finishGet_answer (s : Store) (now : Nat) (key : String) :
    (s.finishGet now key).answer = none := rfl

lemma finishGet_dropsExpired (s : Store) (now : Nat) (key : String) :
    DropsExpired now s (s.finishGet now key).state :=
  purge_dropsExpired s now key

/-- The first step of a read under a valid key: it answers what is live, or it has met an expired
entry, or there is none. -/
lemma startGet_fst (s : Store) (now : Nat) (key : String) :
    (s.startGet now key).1 = .answered (if Key.isValid key then s.liveAt now key else none) ∨
      (s.startGet now key).1 = .purging ∧ Key.isValid key = true ∧ s.liveAt now key = none := by
  rw [startGet]
  by_cases valid : Key.isValid key = true
  · simp only [valid, if_true]
    cases live : s.liveAt now key with
    | some value => simp [lookup_of_liveAt_eq_some live]
    | none => rcases lookup_of_liveAt_eq_none live with h | h <;> simp [h]
  · simp [valid]

lemma liveAt_of_startGet {s s' : Store} {now : Nat} {key : String} {value : Bytes}
    (found : s.startGet now key = (.answered (some value), s')) :
    s.liveAt now key = some value := by
  rcases startGet_fst s now key with first | ⟨first, -, -⟩
  · rw [found] at first
    by_cases valid : Key.isValid key = true
    · simpa [valid] using first.symm
    · simp [valid] at first
  · simp [found] at first

/-- A read answers what is live under a valid key. -/
theorem get_answer (s : Store) (now : Nat) (key : String) :
    (s.get now key).answer = if Key.isValid key then s.liveAt now key else none := by
  rw [get]
  rcases startGet_fst s now key with first | ⟨first, valid, dead⟩
  · rcases stage : s.startGet now key with ⟨stage, s'⟩
    simp only [stage] at first
    simp [first]
  · rcases stage : s.startGet now key with ⟨stage, s'⟩
    simp only [stage] at first
    simp [first, valid, dead]

lemma get_dropsExpired (s : Store) (now : Nat) (key : String) :
    DropsExpired now s (s.get now key).state := by
  rw [get]
  rcases first : s.startGet now key with ⟨_ | _, s'⟩
  · exact DropsExpired.of_entries_eq (entries_of_startGet first)
  · intro other
    have purged := finishGet_dropsExpired s' now key other
    rwa [entries_of_startGet first] at purged

/-! ### Writing -/

/-- A refused key or a missing lifetime leaves the entries alone. -/
lemma set_entries (s : Store) (now : Nat) (key : String) (value : Bytes) (lifetime : Nat) :
    (s.set now key value lifetime).state.entries =
      if Key.isValid key = true ∧ lifetime ≠ 0 then
        s.entries.insert key (Entry.lasting now value lifetime)
      else s.entries := by
  rw [set, Key.isValid]
  cases Key.check key with
  | error e => simp
  | ok u =>
      by_cases none_left : lifetime = 0
      · simp [none_left, countSkippedWrite]
      · simp [none_left, countWrite]

/-- A write makes its entry the one under its key. -/
lemma set_unexpired (s : Store) (now : Nat) (key : String) (value : Bytes) (lifetime instant : Nat)
    (other : String) :
    (s.set now key value lifetime).state.unexpired instant other =
      if (Key.isValid key = true ∧ lifetime ≠ 0) ∧ other = key then
        (some (Entry.lasting now value lifetime)).filter fun e => !e.isExpired instant
      else s.unexpired instant other := by
  rw [unexpired, set_entries]
  by_cases stored : Key.isValid key = true ∧ lifetime ≠ 0
  · rw [if_pos stored, Table.get?_insert]
    by_cases same : other = key
    · simp [stored, same]
    · simp [same, unexpired]
  · simp [stored, unexpired]

/-- A write makes its bytes the live ones under its key. -/
lemma set_liveAt (s : Store) (now : Nat) (key : String) (value : Bytes) (lifetime instant : Nat)
    (other : String) :
    (s.set now key value lifetime).state.liveAt instant other =
      if (Key.isValid key = true ∧ lifetime ≠ 0) ∧ other = key then
        (Entry.lasting now value lifetime).liveAt instant
      else s.liveAt instant other := by
  rw [liveAt_eq_map, set_unexpired, liveAt_eq_map, Entry.liveAt]
  by_cases written : (Key.isValid key = true ∧ lifetime ≠ 0) ∧ other = key
  · rw [if_pos written, if_pos written]
    cases expired : (Entry.lasting now value lifetime).isExpired instant <;>
      simp [expired, Option.filter]
  · rw [if_neg written, if_neg written]

lemma delete_entries (s : Store) (key : String) :
    (s.delete key).state.entries =
      if Key.isValid key = true then s.entries.erase key else s.entries := by
  rw [delete, Key.isValid]
  cases Key.check key with
  | error e => simp
  | ok u => simp

/-- A removal leaves nothing under its key. -/
lemma delete_unexpired (s : Store) (key : String) (instant : Nat) (other : String) :
    (s.delete key).state.unexpired instant other =
      if Key.isValid key = true ∧ other = key then none else s.unexpired instant other := by
  rw [unexpired, delete_entries]
  by_cases valid : Key.isValid key = true
  · rw [if_pos valid, Table.get?_erase]
    by_cases same : other = key
    · simp [valid, same]
    · simp [same, unexpired]
  · simp [valid, unexpired]

/-- A removal leaves nothing live under its key. -/
lemma delete_liveAt (s : Store) (key : String) (instant : Nat) (other : String) :
    (s.delete key).state.liveAt instant other =
      if Key.isValid key = true ∧ other = key then none else s.liveAt instant other := by
  rw [liveAt_eq_map, delete_unexpired, liveAt_eq_map]
  by_cases removed : Key.isValid key = true ∧ other = key
  · rw [if_pos removed, if_pos removed, Option.map_none]
  · rw [if_neg removed, if_neg removed]

end Store

end ReadThrough
