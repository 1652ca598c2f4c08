import ReadThrough.Proofs.Store.Overlap
import ReadThrough.Proofs.Table

/-!
The views of a store agree. A read, the question for the time left, the number of entries and a
sweep judge expiry each in its own way, and all of them follow from what is unexpired.

* `Store.Sound`: every key of a store is accepted, and every instant of expiry can be represented.
  Every act keeps that (`Sound.run`), and so it holds of every store that acts can lead to
  (`sound_runAll`).
* `Sound.get_answer`: in a sound store a read answers the bytes of the unexpired entry, whether the
  key is accepted or not.
* `Entry.timeLeft`: the time left to an entry, and what it tells about later instants
  (`isExpired_iff_timeLeft`, `timeLeft_later`).
* `runAll_unexpired_of_unwritten`: acts that do not write to a key lose its entry by expiry only.
* `sweep_entries`, `sweep_answer_eq_card`: what a sweep leaves, and how many entries it removes.
* `views_agree`: the agreement of all views in every store that acts can lead to.
-/

namespace ReadThrough

/-! ### The time left to an entry -/

namespace Entry

/-- The time left to an entry as it is told: the longest duration for one that never expires. -/
def timeLeft (e : Entry) (now : Nat) : Nat :=
  (e.remaining now).getD Duration.longest

/-- Whether the instant of expiry, if there is one, can be represented. -/
def Representable (e : Entry) : Prop :=
  ∀ limit, e.expires = some limit → limit ≤ Instant.last

lemma last_lt_longest : Instant.last < Duration.longest := by
  decide

lemma representable_lasting (now : Nat) (value : Bytes) (lifetime : Nat) :
    (lasting now value lifetime).Representable := by
  intro limit ends
  simp only [lasting, Instant.after?, Option.ite_none_right_eq_some, Option.some.injEq] at ends
  exact ends.2 ▸ ends.1

variable {e : Entry} {now later limit : Nat}

lemma timeLeft_of_none (ends : e.expires = none) (now : Nat) :
    e.timeLeft now = Duration.longest := by
  rw [timeLeft, remaining, ends, Option.map_none, Option.getD_none]

/-- The time left to an entry that does expire is not the longest duration. -/
lemma timeLeft_of_some (h : e.Representable) (ends : e.expires = some limit) (now : Nat) :
    e.timeLeft now = limit - now ∧ e.timeLeft now ≠ Duration.longest := by
  have left : e.timeLeft now = limit - now := by
    rw [timeLeft, remaining, ends, Option.map_some, Option.getD_some]
  have shorter : limit - now < Duration.longest :=
    calc
      limit - now ≤ limit := Nat.sub_le limit now
      _ ≤ Instant.last := h limit ends
      _ < Duration.longest := last_lt_longest
  exact ⟨left, left ▸ Nat.ne_of_lt shorter⟩

lemma isExpired_of_some (ends : e.expires = some limit) (now : Nat) :
    e.isExpired now = true ↔ limit ≤ now := by
  rw [isExpired, ends, decide_eq_true_iff]

/-- An unexpired entry has some time left. -/
lemma timeLeft_pos (h : e.Representable) (fresh : e.isExpired now = false) :
    0 < e.timeLeft now := by
  cases ends : e.expires with
  | none =>
      rw [timeLeft_of_none ends]
      exact Nat.zero_lt_of_lt last_lt_longest
  | some limit =>
      have open_end : ¬limit ≤ now := by simp [← isExpired_of_some ends, fresh]
      rw [(timeLeft_of_some h ends now).1]
      omega

/-- The time left tells when an unexpired entry is expired: never, if it is the longest duration. -/
lemma isExpired_iff_timeLeft (h : e.Representable) (fresh : e.isExpired now = false) :
    e.isExpired later = true ↔
      e.timeLeft now ≠ Duration.longest ∧ now + e.timeLeft now ≤ later := by
  cases ends : e.expires with
  | none => simp [isExpired, ends, timeLeft_of_none ends]
  | some limit =>
      obtain ⟨left, shorter⟩ := timeLeft_of_some h ends now
      have open_end : ¬limit ≤ now := by simp [← isExpired_of_some ends, fresh]
      rw [isExpired_of_some ends, and_iff_right shorter, left]
      omega

/-- The time left shrinks as time passes, unless it is the longest duration. -/
lemma timeLeft_later (h : e.Representable) (le : now ≤ later) :
    e.timeLeft later =
      if e.timeLeft now = Duration.longest then Duration.longest
      else e.timeLeft now - (later - now) := by
  cases ends : e.expires with
  | none => rw [timeLeft_of_none ends, timeLeft_of_none ends, if_pos rfl]
  | some limit =>
      obtain ⟨left, shorter⟩ := timeLeft_of_some h ends now
      rw [if_neg shorter, left, (timeLeft_of_some h ends later).1]
      omega

end Entry

namespace Store

/-! ### Sound stores -/

/-- Every key is accepted, and every instant of expiry can be represented. -/
structure Sound (s : Store) : Prop where
  valid : ∀ key e, s.entries.get? key = some e → Key.isValid key = true
  representable : ∀ key e, s.entries.get? key = some e → e.Representable

namespace Sound

variable {s s' : Store}

lemma empty : Sound empty :=
  ⟨fun _ _ found => by simp [Store.empty] at found, fun _ _ found => by simp [Store.empty] at found⟩

/-- A store without other entries than a sound one is sound. -/
lemma of_subset (h : Sound s)
    (sub : ∀ key e, s'.entries.get? key = some e → s.entries.get? key = some e) : Sound s' :=
  ⟨fun key e found => h.valid key e (sub key e found),
    fun key e found => h.representable key e (sub key e found)⟩

lemma dropsExpired (h : Sound s) {now : Nat} (dropped : DropsExpired now s s') : Sound s' := by
  refine h.of_subset fun key e found => ?_
  rcases dropped key with same | ⟨gone, -⟩
  · rwa [same] at found
  · simp [gone] at found

lemma set (h : Sound s) (now : Nat) (key : String) (value : Bytes) (lifetime : Nat) :
    Sound (s.set now key value lifetime).state := by
  have old_or_new : ∀ other e, (s.set now key value lifetime).state.entries.get? other = some e →
      s.entries.get? other = some e ∨
        Key.isValid other = true ∧ e = Entry.lasting now value lifetime := by
    intro other e found
    rw [set_entries] at found
    split at found
    · rename_i stored
      rw [Table.get?_insert] at found
      by_cases same : other = key
      · rw [if_pos same] at found
        exact Or.inr ⟨same ▸ stored.1, (Option.some.inj found).symm⟩
      · exact Or.inl (by rwa [if_neg same] at found)
    · exact Or.inl found
  constructor
  · intro other e found
    rcases old_or_new other e found with old | ⟨accepted, -⟩
    · exact h.valid other e old
    · exact accepted
  · intro other e found
    rcases old_or_new other e found with old | ⟨-, rfl⟩
    · exact h.representable other e old
    · exact Entry.representable_lasting now value lifetime

lemma delete (h : Sound s) (key : String) : Sound (s.delete key).state := by
  refine h.of_subset fun other e found => ?_
  rw [delete_entries] at found
  split at found
  · rw [Table.get?_erase] at found
    exact (Option.ite_none_left_eq_some.mp found).2
  · exact found

lemma change (h : Sound s) (change : Change) (now : Nat) : Sound (change.run now s).state := by
  cases change with
  | set key value lifetime => exact h.set now key value lifetime
  | delete key => exact h.delete key
  | sweep => exact h.dropsExpired (s.sweep_dropsExpired now)

/-- Every act keeps the store sound. -/
lemma run {t : Shared} (h : Sound t.state) (act : Act) : Sound (act.run t).state.state := by
  cases act with
  | write change => exact h.change change t.now
  | lookUp key =>
      have kept : DropsExpired t.now t.state ((Act.lookUp key).run t).state.state :=
        .of_entries_eq (entries_of_startGet rfl)
      exact h.dropsExpired kept
  | finish ticket =>
      rw [Act.run]
      split
      · exact h
      · exact h.dropsExpired (Act.finish_dropsExpired _ t.now t.state)
  | _ => exact h

end Sound

/-- Acts keep the store sound. -/
lemma sound_runAll {t : Shared} (h : Sound t.state) (acts : List Act) :
    Sound (Act.runAll acts t).state := by
  induction acts generalizing t with
  | nil => exact h
  | cons act rest ih => exact ih (h.run act)

/-! ### Views of one store -/

lemma unexpired_eq_some_iff {s : Store} {now : Nat} {key : String} {e : Entry} :
    s.unexpired now key = some e ↔ s.entries.get? key = some e ∧ e.isExpired now = false := by
  rw [unexpired, Option.filter_eq_some_iff]
  simp

/-- In a sound store a read answers the bytes of the unexpired entry, whatever the key. -/
lemma Sound.get_answer {s : Store} (h : Sound s) (now : Nat) (key : String) :
    (s.get now key).answer = (s.unexpired now key).map Entry.value := by
  rw [Store.get_answer, liveAt_eq_map]
  by_cases valid : Key.isValid key = true
  · rw [if_pos valid]
  · rw [if_neg valid]
    cases found : s.unexpired now key with
    | none => rfl
    | some e => exact absurd (h.valid key e (unexpired_eq_some_iff.mp found).1) valid

lemma remaining?_eq_timeLeft (s : Store) (now : Nat) (key : String) :
    s.remaining? now key = (s.unexpired now key).map fun e => e.timeLeft now :=
  s.remaining?_eq now key

/-! ### Views at different instants -/

/-- Acts that do not write to a key lose its entry by expiry only. -/
lemma Act.run_unexpired_of_unwritten (act : Act) (t : Shared) {later : Nat}
    (le : (act.run t).state.now ≤ later) {key : String}
    (unwritten : ∀ now, act.write? key now = none) :
    (act.run t).state.state.unexpired later key = t.state.unexpired later key := by
  have le_later : t.now ≤ later := Nat.le_trans (run_now_le act t) le
  cases act with
  | write change =>
      cases change with
      | set other value lifetime =>
          have elsewhere : ¬(other = key ∧ lifetime ≠ 0) := by
            simpa [write?, Change.write?] using unwritten 0
          refine (set_unexpired ..).trans (if_neg fun written => elsewhere ?_)
          exact ⟨written.2.symm, written.1.2⟩
      | delete other =>
          have elsewhere : other ≠ key := by
            simpa [write?, Change.write?] using unwritten 0
          exact (delete_unexpired ..).trans (if_neg fun removed => elsewhere removed.2.symm)
      | sweep => exact (sweep_dropsExpired t.state t.now).unexpired_eq le_later key
  | lookUp read =>
      exact (DropsExpired.of_entries_eq (entries_of_startGet rfl)).unexpired_eq le_later key
  | finish ticket =>
      rw [run]
      split
      · rfl
      · exact (finish_dropsExpired _ t.now t.state).unexpired_eq le_later key
  | _ => rfl

lemma Act.runAll_unexpired_of_unwritten (acts : List Act) (t : Shared) {later : Nat}
    (le : (runAll acts t).now ≤ later) {key : String}
    (unwritten : ∀ act ∈ acts, ∀ now, act.write? key now = none) :
    (runAll acts t).state.unexpired later key = t.state.unexpired later key := by
  induction acts generalizing t with
  | nil => rfl
  | cons act rest ih =>
      have ended : (act.run t).state.now ≤ later := Nat.le_trans (runAll_now_le rest _) le
      have own := act.run_unexpired_of_unwritten t ended (unwritten act List.mem_cons_self)
      rw [runAll, ih _ le fun other mem => unwritten other (List.mem_cons_of_mem _ mem), own]

/-! ### Sweeps -/

/-- A sweep keeps the entries that are not expired, also if there are no others. -/
lemma sweep_entries (s : Store) (now : Nat) :
    (s.sweep now).state.entries = s.entries.keep fun _ e => !e.isExpired now := by
  simp only [sweep]
  split
  · rename_i none_removed
    exact (Table.keep_eq_self (Nat.sub_eq_zero_iff_le.mp none_removed)).symm
  · rfl

lemma sweep_get? (s : Store) (now : Nat) (key : String) :
    (s.sweep now).state.entries.get? key = s.unexpired now key := by
  rw [sweep_entries, Table.get?_keep, unexpired]

/-- A sweep answers the number of expired entries. -/
lemma sweep_answer (s : Store) (now : Nat) :
    (s.sweep now).answer = (s.entries.keep fun _ e => e.isExpired now).size := by
  have split := s.entries.size_keep_add fun _ e => e.isExpired now
  simp only [sweep]
  split <;> dsimp only <;> omega

/-- Nothing is left for a second sweep at the same instant. -/
lemma sweep_sweep_answer (s : Store) (now : Nat) :
    ((s.sweep now).state.sweep now).answer = 0 := by
  rw [sweep_answer, Table.size_eq_card, Nat.card_eq_zero, isEmpty_subtype]
  refine Or.inl fun key => ?_
  rw [Table.get?_keep, sweep_get?]
  cases found : s.unexpired now key with
  | none => simp
  | some e => simp [Option.filter, (unexpired_eq_some_iff.mp found).2]

section

variable {s : Store}

/-- A sweep removes as many entries as there are keys of entries under which a read finds
nothing. -/
lemma Sound.sweep_answer_eq_card (h : Sound s) (now : Nat) :
    (s.sweep now).answer =
      Nat.card {key // (s.entries.get? key).isSome ∧ (s.get now key).answer = none} := by
  rw [sweep_answer, Table.size_eq_card]
  refine Nat.card_congr (Equiv.subtypeEquivRight fun key => ?_)
  rw [h.get_answer, Table.get?_keep, unexpired]
  cases s.entries.get? key with
  | none => simp
  | some e => cases expired : e.isExpired now <;> simp [Option.filter, expired]

/-- The entries of a sound store in which nothing is expired are those that reads find. -/
lemma Sound.size_sweep_eq_card (h : Sound s) (now : Nat) :
    (s.sweep now).state.size =
      Nat.card {key // ((s.sweep now).state.get now key).answer.isSome} := by
  have swept : Sound (s.sweep now).state := h.dropsExpired (s.sweep_dropsExpired now)
  rw [size, Table.size_eq_card]
  refine Nat.card_congr (Equiv.subtypeEquivRight fun key => ?_)
  rw [swept.get_answer, Option.isSome_map, (s.sweep_dropsExpired now).unexpired_eq (Nat.le_refl _),
    sweep_get?]

lemma Sound.sweep_get?_eq (h : Sound s) (now : Nat) (key : String) :
    (s.sweep now).state.entries.get? key =
      if (s.get now key).answer.isSome then s.entries.get? key else none := by
  rw [sweep_get?, h.get_answer, Option.isSome_map]
  cases found : s.unexpired now key with
  | none => simp
  | some e => simp [(unexpired_eq_some_iff.mp found).1]

end

/-! ### All views -/

/-- What is unexpired under a key after acts that do not write to it, in terms of the time left
before them. -/
lemma unexpired_later_of_unwritten {t : Shared} (sound : Sound t.state) {key : String} {e : Entry}
    (found : t.state.unexpired t.now key = some e) (later : List Act)
    (unwritten : ∀ act ∈ later, ∀ now, act.write? key now = none) :
    (Act.runAll later t).state.unexpired (Act.runAll later t).now key =
      if e.timeLeft t.now = Duration.longest ∨
          (Act.runAll later t).now < t.now + e.timeLeft t.now then some e
      else none := by
  obtain ⟨stored, fresh⟩ := unexpired_eq_some_iff.mp found
  have ends : e.isExpired (Act.runAll later t).now = true ↔
      e.timeLeft t.now ≠ Duration.longest ∧
        t.now + e.timeLeft t.now ≤ (Act.runAll later t).now :=
    Entry.isExpired_iff_timeLeft (sound.representable key e stored) fresh
  rw [Act.runAll_unexpired_of_unwritten later t (Nat.le_refl _) unwritten,
    t.state.unexpired_later (Act.runAll_now_le later t), found]
  cases expired : e.isExpired (Act.runAll later t).now with
  | true =>
      obtain ⟨shorter, past⟩ := ends.mp expired
      rw [if_neg fun alive => alive.elim shorter (Nat.not_lt.mpr past)]
      simp [Option.filter, expired]
  | false =>
      have alive : e.timeLeft t.now = Duration.longest ∨
          (Act.runAll later t).now < t.now + e.timeLeft t.now := by
        by_contra past
        rw [not_or, Nat.not_lt] at past
        simp [ends.mpr past] at expired
      rw [if_pos alive]
      simp [Option.filter, expired]

/-- The views of a store agree after any acts on an empty store, with any reads under way.

Every key of an entry is accepted. A key has some time left exactly if a read finds bytes under it,
and then the time is not zero. It tells what happens to the bytes as long as nothing is written to
the key: they are read until that time is over, or for good if it is the longest duration, and the
time left has shrunk by the time passed.

A sweep answers how many keys of entries a read finds nothing under, and removes just their entries.
There are then as many entries as keys under which a read finds bytes, and nothing is left for a
second sweep. -/
theorem views_agree (start : Nat) (acts : List Act) :
    let t := Act.runAll acts (.opening start)
    let swept := (t.state.sweep t.now).state
    (∀ key, (t.state.entries.get? key).isSome → Key.isValid key = true) ∧
      (∀ key, (t.state.remaining? t.now key).isSome = (t.state.get t.now key).answer.isSome) ∧
      (∀ key left, t.state.remaining? t.now key = some left → 0 < left ∧
        ∃ value, (t.state.get t.now key).answer = some value ∧
          ∀ later, (∀ act ∈ later, ∀ now, act.write? key now = none) →
            let u := Act.runAll later t
            (u.state.get u.now key).answer =
                (if left = Duration.longest ∨ u.now < t.now + left then some value else none) ∧
              u.state.remaining? u.now key =
                if left = Duration.longest ∨ u.now < t.now + left then
                  some (if left = Duration.longest then left else left - (u.now - t.now))
                else none) ∧
      (t.state.sweep t.now).answer = Nat.card
          {key // (t.state.entries.get? key).isSome ∧ (t.state.get t.now key).answer = none} ∧
        (∀ key, swept.entries.get? key =
          if (t.state.get t.now key).answer.isSome then t.state.entries.get? key else none) ∧
        swept.size = Nat.card {key // (swept.get t.now key).answer.isSome} ∧
        (swept.sweep t.now).answer = 0 := by
  intro t swept
  have sound : Sound t.state := sound_runAll Sound.empty acts
  refine ⟨fun key there => ?_, fun key => ?_, fun key left asked => ?_,
    sound.sweep_answer_eq_card t.now, sound.sweep_get?_eq t.now, sound.size_sweep_eq_card t.now,
    t.state.sweep_sweep_answer t.now⟩
  · obtain ⟨e, found⟩ := Option.isSome_iff_exists.mp there
    exact sound.valid key e found
  · rw [sound.get_answer, remaining?_eq_timeLeft, Option.isSome_map, Option.isSome_map]
  · rw [remaining?_eq_timeLeft] at asked
    obtain ⟨e, found, rfl⟩ := Option.map_eq_some_iff.mp asked
    obtain ⟨stored, fresh⟩ := unexpired_eq_some_iff.mp found
    have fits := sound.representable key e stored
    refine ⟨Entry.timeLeft_pos fits fresh, e.value, ?_, fun later unwritten => ?_⟩
    · rw [sound.get_answer, found, Option.map_some]
    · intro u
      have still := unexpired_later_of_unwritten sound found later unwritten
      have elapsed := Entry.timeLeft_later fits (Act.runAll_now_le later t)
      rw [(sound_runAll sound later).get_answer, remaining?_eq_timeLeft, still]
      split
      · rw [Option.map_some, Option.map_some, elapsed]
        refine ⟨rfl, congrArg some ?_⟩
        split <;> simp [*, u]
      · exact ⟨rfl, rfl⟩

/-- Of an entry with a lifetime of five nanoseconds three are left after two. One nanosecond before
they are over it is still read, and then it is not; an entry whose end cannot be represented is. -/
theorem views_agree_boundary :
    let acts : List Act :=
      [.write (.set "a" [1] 5), .write (.set "b" [2] Duration.longest), .advance 2]
    let t := Act.runAll acts (.opening 0)
    let last := Act.runAll [.lookUp "a", .advance 2, .write .sweep] t
    let late := Act.runAll [.lookUp "a", .advance 3, .write (.set "b" [3] 1)] t
    t.state.remaining? t.now "a" = some 3 ∧
      ((last.state.get last.now "a").answer = some [1] ∧
        last.state.remaining? last.now "a" = some 1) ∧
      (late.state.get late.now "a").answer = none ∧
      t.state.remaining? t.now "b" = some Duration.longest ∧
      (last.state.get last.now "b").answer = some [2] := by
  intro acts t last late
  obtain ⟨-, -, told, -⟩ := views_agree 0 acts
  have left : t.state.remaining? t.now "a" = some 3 := by decide
  have endless : t.state.remaining? t.now "b" = some Duration.longest := by decide
  obtain ⟨-, value, found, after⟩ := told "a" 3 left
  obtain ⟨-, other, found', after'⟩ := told "b" Duration.longest endless
  obtain rfl : [1] = value := Option.some.inj (Eq.trans (by decide) found)
  obtain rfl : [2] = other := Option.some.inj (Eq.trans (by decide) found')
  have at_last := after [.lookUp "a", .advance 2, .write .sweep]
    (by simp [Act.write?, Change.write?])
  have at_over := after [.lookUp "a", .advance 3, .write (.set "b" [3] 1)]
    (by simp [Act.write?, Change.write?])
  have at_last' := after' [.lookUp "a", .advance 2, .write .sweep]
    (by simp [Act.write?, Change.write?])
  exact ⟨left, ⟨at_last.1.trans (if_pos (by decide)), at_last.2.trans (if_pos (by decide))⟩,
    at_over.1.trans (if_neg (by decide)), endless, at_last'.1.trans (if_pos (Or.inl rfl))⟩

end Store

end ReadThrough
