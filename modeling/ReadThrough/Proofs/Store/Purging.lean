import ReadThrough.Proofs.Store.Overlap

/-!
The purge at the end of a read. The read decides to purge when its lookup meets an expired entry,
and until the purge comes the key can be written anew, removed or swept, and expire again.

* `Store.Purged`: what a purge does: it removes the entry of its key if that is expired now, counts
  it, and leaves all other keys alone (`finishGet_purged`).
* `SameUnexpired`: two stores that differ in expired entries at most. Every operation keeps that.
* `Shared.Agrees`: two shared stores that no read can tell apart. Every act keeps that and answers
  alike (`Agrees.run`), and so do all acts after it (`Agrees.readings_eq`).
* `finish_purging`: whatever comes between the lookup and the end of a read that meets an expired
  entry, its purge takes nothing but an expired entry, and no answer depends on it.
-/

namespace ReadThrough.Store

/-! ### The purge -/

/-- What the purge of a key does to a store, with the number of entries that it removes: the entry
of the key goes if it is expired at this instant. -/
structure Purged (now : Nat) (key : String) (s s' : Store) (removed : Nat) : Prop where
  own : removed = 1 ∧ s'.entries.get? key = none ∧
      (∃ e, s.entries.get? key = some e ∧ e.isExpired now = true) ∨
    removed = 0 ∧ s'.entries.get? key = s.entries.get? key ∧
      ∀ e, s.entries.get? key = some e → e.isExpired now = false
  others : ∀ other ≠ key, s'.entries.get? other = s.entries.get? other
  size : s'.size + removed = s.size
  counted : s'.counters.expirations = s.counters.expirations + UInt64.ofNat removed

lemma lookup_eq_expired_iff {s : Store} {now : Nat} {key : String} :
    s.lookup now key = .expired ↔
      ∃ e, s.entries.get? key = some e ∧ e.isExpired now = true := by
  rw [lookup]
  cases s.entries.get? key with
  | none => simp
  | some e => cases expired : e.isExpired now <;> simp [expired]

/-- The purge judges the entry that is there now, whatever the lookup has met. -/
lemma finishGet_purged (s : Store) (now : Nat) (key : String) :
    ∃ removed, Purged now key s (s.finishGet now key).state removed := by
  rw [finishGet, purge]
  cases met : s.lookup now key with
  | expired =>
      obtain ⟨e, found, expired⟩ := lookup_eq_expired_iff.mp met
      refine ⟨1, Or.inl ⟨rfl, ?_, e, found, expired⟩, fun other ne => ?_, ?_, rfl⟩
      · exact (s.entries.get?_erase key key).trans (if_pos rfl)
      · exact (s.entries.get?_erase key other).trans (if_neg ne)
      · have gone := s.entries.size_erase key
        rwa [found] at gone
  | _ =>
      have unexpired : ¬ ∃ e, s.entries.get? key = some e ∧ e.isExpired now = true := by
        simp [← lookup_eq_expired_iff, met]
      refine ⟨0, Or.inr ⟨rfl, rfl, fun e found => ?_⟩, fun _ _ => rfl, rfl, ?_⟩
      · exact Bool.eq_false_iff.mpr fun expired => unexpired ⟨e, found, expired⟩
      · exact (UInt64.add_zero _).symm

/-! ### Stores that differ in expired entries at most -/

/-- The same entries are unexpired in two stores. -/
def SameUnexpired (now : Nat) (s s' : Store) : Prop :=
  ∀ key, s'.unexpired now key = s.unexpired now key

namespace SameUnexpired

variable {now : Nat} {s s' r r' : Store}

/-- The relation holds between stores that have lost expired entries only, each from one of two
stores between which it holds. -/
lemma drops (h : SameUnexpired now s s') (dropped : DropsExpired now s r)
    (dropped' : DropsExpired now s' r') : SameUnexpired now r r' := by
  intro key
  rw [dropped.unexpired_eq (Nat.le_refl _), dropped'.unexpired_eq (Nat.le_refl _), h key]

lemma later (h : SameUnexpired now s s') {instant : Nat} (le : now ≤ instant) :
    SameUnexpired instant s s' := by
  intro key
  rw [s.unexpired_later le, s'.unexpired_later le, h key]

lemma liveAt_eq (h : SameUnexpired now s s') (key : String) :
    s'.liveAt now key = s.liveAt now key := by
  rw [liveAt_eq_map, liveAt_eq_map, h key]

lemma remaining?_eq (h : SameUnexpired now s s') (key : String) :
    s'.remaining? now key = s.remaining? now key := by
  rw [Store.remaining?_eq, Store.remaining?_eq, h key]

lemma change (h : SameUnexpired now s s') (change : Change) :
    SameUnexpired now (change.run now s).state (change.run now s').state := by
  cases change with
  | set key value lifetime =>
      intro other
      simp only [Change.run, set_unexpired, h other]
  | delete key =>
      intro other
      simp only [Change.run, delete_unexpired, h other]
  | sweep => exact h.drops (s.sweep_dropsExpired now) (s'.sweep_dropsExpired now)

end SameUnexpired

/-! ### Shared stores that no read can tell apart -/

/-- The ticket of a read under way and what it will answer. -/
def Pending.promise (read : Pending) : Nat × Option Bytes :=
  (read.ticket, read.stage.answer)

lemma Pending.finish_answer (read : Pending) (now : Nat) (s : Store) :
    (read.finish now s).answer = read.stage.answer := by
  rw [finish]
  cases read.stage with
  | answered value => rfl
  | purging => rfl

/-- A lookup settles that the read answers what is live under a valid key. -/
lemma startGet_answer (s : Store) (now : Nat) (key : String) :
    (s.startGet now key).1.answer = if Key.isValid key then s.liveAt now key else none := by
  rcases startGet_fst s now key with first | ⟨first, valid, dead⟩
  · rw [first, GetStage.answer]
  · rw [first, GetStage.answer, valid, dead, if_pos rfl]

namespace Shared

/-- Two shared stores that no read can tell apart. -/
structure Agrees (t t' : Shared) : Prop where
  now : t'.now = t.now
  begun : t'.begun = t.begun
  stored : SameUnexpired t.now t.state t'.state
  promised : t'.pending.map Pending.promise = t.pending.map Pending.promise

lemma read?_promise (t : Shared) (ticket : Nat) :
    (t.read? ticket).map Pending.promise =
      (t.pending.map Pending.promise).find? fun promise => promise.1 == ticket := by
  rw [List.find?_map]
  rfl

lemma eraseP_promise (t : Shared) (ticket : Nat) :
    (t.pending.eraseP (Pending.has ticket)).map Pending.promise =
      (t.pending.map Pending.promise).eraseP fun promise => promise.1 == ticket := by
  rw [List.eraseP_map]
  rfl

/-- The shared store after a read has ended without its purge: only its miss is counted. -/
def leave (t : Shared) (ticket : Nat) : Shared :=
  { t with state := t.state.countMiss, pending := t.pending.eraseP (Pending.has ticket) }

namespace Agrees

variable {t t' : Shared}

/-- The end of the same read in both. -/
lemma finish (h : Agrees t t') (ticket : Nat) :
    Agrees ((Act.finish ticket).run t).state ((Act.finish ticket).run t').state ∧
      ((Act.finish ticket).run t').answer = ((Act.finish ticket).run t).answer := by
  have same : (t'.read? ticket).map Pending.promise = (t.read? ticket).map Pending.promise := by
    rw [read?_promise, read?_promise, h.promised]
  have erased : (t'.pending.eraseP (Pending.has ticket)).map Pending.promise =
      (t.pending.eraseP (Pending.has ticket)).map Pending.promise := by
    rw [eraseP_promise, eraseP_promise, h.promised]
  cases found : t.read? ticket with
  | none =>
      rw [found, Option.map_none, Option.map_eq_none_iff] at same
      rw [Act.run_finish_of_none found, Act.run_finish_of_none same]
      exact ⟨h, rfl⟩
  | some read =>
      rw [found, Option.map_some] at same
      obtain ⟨read', found', promise⟩ := Option.map_eq_some_iff.mp same
      have answer : read'.stage.answer = read.stage.answer := congrArg Prod.snd promise
      have dropped := Act.finish_dropsExpired read t.now t.state
      have dropped' := Act.finish_dropsExpired read' t.now t'.state
      rw [Act.run_finish_of_some found, Act.run_finish_of_some found', h.now]
      exact ⟨⟨rfl, h.begun, h.stored.drops dropped dropped', erased⟩,
        by rw [Pending.finish_answer, Pending.finish_answer, answer]⟩

/-- Every act keeps the agreement. -/
lemma run (h : Agrees t t') (act : Act) : Agrees (act.run t).state (act.run t').state := by
  cases act with
  | write change =>
      have written := h.stored.change change
      rw [Act.run, Act.run, h.now]
      exact ⟨rfl, h.begun, written, h.promised⟩
  | lookUp key =>
      have kept : DropsExpired t.now t.state (t.state.startGet t.now key).2 :=
        DropsExpired.of_entries_eq (entries_of_startGet rfl)
      have kept' : DropsExpired t.now t'.state (t'.state.startGet t.now key).2 :=
        DropsExpired.of_entries_eq (entries_of_startGet rfl)
      rw [Act.run, Act.run, h.now, h.begun]
      refine ⟨rfl, rfl, h.stored.drops kept kept', ?_⟩
      simp [h.promised, Pending.promise, startGet_answer, h.stored.liveAt_eq key]
  | finish ticket => exact (h.finish ticket).1
  | remaining key => exact h
  | size => exact h
  | advance time =>
      refine ⟨?_, h.begun, h.stored.later (Nat.le_add_right _ _), h.promised⟩
      exact congrArg (· + time) h.now

/-- Reads and questions for the time left answer alike. -/
lemma answer_eq (h : Agrees t t') {act : Act} (reads : act.reads = true) :
    (act.run t').answer = (act.run t).answer := by
  cases act with
  | finish ticket => exact (h.finish ticket).2
  | remaining key =>
      rw [Act.run, Act.run, h.now, h.stored.remaining?_eq key]
  | _ => simp [Act.reads] at reads

lemma readings_eq (h : Agrees t t') (acts : List Act) :
    Act.readings acts t' = Act.readings acts t := by
  induction acts generalizing t t' with
  | nil => rfl
  | cons act rest ih =>
      rw [Act.readings, Act.readings, ih (h.run act)]
      by_cases reads : act.reads = true
      · rw [if_pos reads, if_pos reads, h.answer_eq reads]
      · rw [if_neg reads, if_neg reads]

/-- A purge that is left out is not missed. -/
lemma leave {ticket : Nat} {key : String} (found : t.read? ticket = some ⟨ticket, key, .purging⟩) :
    Agrees (t.leave ticket) ((Act.finish ticket).run t).state := by
  rw [Act.run_finish_of_some found]
  have same : SameUnexpired t.now t.state t.state := fun _ => rfl
  exact ⟨rfl, rfl, same.drops (DropsExpired.of_entries_eq rfl)
    (t.state.finishGet_dropsExpired t.now key), rfl⟩

end Agrees

end Shared

/-! ### A read that meets an expired entry -/

lemma valid_of_startGet {s : Store} {now : Nat} {key : String}
    (met : (s.startGet now key).1 = .purging) : Key.isValid key = true := by
  rcases startGet_fst s now key with first | ⟨-, valid, -⟩
  · simp [met] at first
  · exact valid

/-- Bytes put under a valid key are what a read answers after acts that do not write to the key,
until their lifetime is over. -/
lemma Act.get_runAll_of_put (t : Shared) (earlier : List Act) {key : String}
    (valid : Key.isValid key = true) (value : Bytes) {lifetime : Nat} (lives : lifetime ≠ 0)
    {later : List Act} (unwritten : ∀ act ∈ later, ∀ now, act.write? key now = none) :
    let w := Act.runAll (earlier ++ .write (.set key value lifetime) :: later) t
    let put := (Act.runAll earlier t).now
    (w.state.get w.now key).answer =
      if w.now < put + lifetime ∨ Instant.after? put lifetime = none then some value
      else none := by
  intro w put
  have split : w = Act.runAll later
      ((Act.write (.set key value lifetime)).run (Act.runAll earlier t)).state :=
    Act.runAll_append earlier _ t
  have live : w.state.liveAt w.now key = (Entry.lasting put value lifetime).liveAt w.now :=
    calc
      w.state.liveAt w.now key =
          ((Act.write (.set key value lifetime)).run
            (Act.runAll earlier t)).state.state.liveAt w.now key := by
        rw [split]
        exact Act.runAll_liveAt_of_unwritten later _ (Nat.le_refl _) valid unwritten
      _ = (Entry.lasting put value lifetime).liveAt w.now :=
        (set_liveAt ..).trans (if_pos ⟨⟨valid, lives⟩, rfl⟩)
  rw [get_answer, if_pos valid, live]
  by_cases fresh : w.now < put + lifetime ∨ Instant.after? put lifetime = none
  · rw [if_pos fresh, Entry.liveAt_lasting_eq_some_iff]
    exact ⟨rfl, fresh⟩
  · rw [if_neg fresh, Option.eq_none_iff_forall_ne_some]
    exact fun other alive => fresh (Entry.liveAt_lasting_eq_some_iff.mp alive).2

/-- A read meets an expired entry, and any acts follow before it ends, with its purge. The purge
then removes the entry of the key exactly if that is expired at this instant, counts what it
removes, and leaves all other keys alone. All reads and questions for the time left, before and
after, answer as if the purge had been left out. Bytes that were put under the key in between are
still read until their own lifetime is over, if nothing else is written there. -/
theorem finish_purging (start : Nat) (before between after : List Act) (key : String)
    (met : ((Act.runAll before (.opening start)).state.startGet
      (Act.runAll before (.opening start)).now key).1 = .purging)
    (unfinished : .finish (Act.runAll before (.opening start)).begun ∉ between) :
    let ticket := (Act.runAll before (.opening start)).begun
    let acts := before ++ .lookUp key :: between
    let t := Act.runAll acts (.opening start)
    let u := Act.runAll (acts ++ [.finish ticket]) (.opening start)
    (∃ removed, Purged t.now key t.state u.state removed) ∧
      Act.readings (acts ++ .finish ticket :: after) (.opening start) =
        Act.readings acts (.opening start) ++
          .value none :: Act.readings after (t.leave ticket) ∧
      ∀ earlier value lifetime later,
        between = earlier ++ .write (.set key value lifetime) :: later → lifetime ≠ 0 →
        (∀ act ∈ later ++ after, ∀ now, act.write? key now = none) →
        let w := Act.runAll (acts ++ .finish ticket :: after) (.opening start)
        let put := (Act.runAll (before ++ .lookUp key :: earlier) (.opening start)).now
        (w.state.get w.now key).answer =
          if w.now < put + lifetime ∨ Instant.after? put lifetime = none then some value
          else none := by
  intro ticket acts t u
  have numbered := Act.numbered_runAll (Act.numbered_opening start) before
  have begun : t = Act.runAll between
      ((Act.lookUp key).run (Act.runAll before (.opening start))).state :=
    Act.runAll_append before _ _
  have found : t.read? ticket = some ⟨ticket, key, .purging⟩ := by
    rw [begun]
    refine Act.read?_runAll ?_ unfinished
    rw [Act.read?_lookUp numbered, met]
  have finished : u = ((Act.finish ticket).run t).state := Act.runAll_append acts _ _
  refine ⟨?_, ?_, fun earlier value lifetime later split lives unwritten => ?_⟩
  · rw [finished, Act.run_finish_of_some found]
    exact finishGet_purged t.state t.now key
  · have alike := (Shared.Agrees.leave found).readings_eq after
    have answer : ((Act.finish ticket).run t).answer = .value none := by
      rw [Act.run_finish_of_some found]
      rfl
    have rest : Act.readings (.finish ticket :: after) t =
        .value none :: Act.readings after (t.leave ticket) := by
      rw [Act.readings, answer, alike]
      rfl
    rw [Act.readings_append, rest]
  · intro w put
    have regroup : acts ++ .finish ticket :: after =
        (before ++ .lookUp key :: earlier) ++
          .write (.set key value lifetime) :: (later ++ .finish ticket :: after) := by
      simp only [acts, split, List.append_assoc, List.cons_append]
    have others : ∀ act ∈ later ++ .finish ticket :: after, ∀ now, act.write? key now = none := by
      obtain ⟨unwritten_later, unwritten_after⟩ := List.forall_mem_append.mp unwritten
      exact List.forall_mem_append.mpr
        ⟨unwritten_later, List.forall_mem_cons.mpr ⟨fun _ => rfl, unwritten_after⟩⟩
    have answered := Act.get_runAll_of_put (.opening start) (before ++ .lookUp key :: earlier)
      (valid_of_startGet met) value lives others
    rw [← regroup] at answered
    exact answered

/-- Two reads meet the same expired entry, and the key is written anew before either of them purges.
Both purges leave the new bytes alone. -/
theorem finish_purging_rewritten :
    let before : List Act := [.write (.set "k" [1] 10), .advance 10]
    let between : List Act := [.lookUp "k", .write (.set "k" [2] 5), .advance 2, .finish 1]
    let w := Act.runAll (before ++ .lookUp "k" :: between ++ [.finish 0, .advance 2]) (.opening 0)
    ((Act.runAll before (.opening 0)).state.startGet (Act.runAll before (.opening 0)).now
        "k").1 = .purging ∧
      .finish (Act.runAll before (.opening 0)).begun ∉ between ∧
      (w.state.get w.now "k").answer = some [2] := by
  intro before between w
  have met : ((Act.runAll before (.opening 0)).state.startGet
      (Act.runAll before (.opening 0)).now "k").1 = .purging := rfl
  have unfinished : .finish (Act.runAll before (.opening 0)).begun ∉ between := by decide
  have spared := finish_purging 0 before between [.advance 2] "k" met unfinished
  have unwritten : ∀ act ∈ [Act.advance 2, .finish 1] ++ [.advance 2], ∀ now,
      act.write? "k" now = none := by simp [Act.write?]
  refine ⟨met, unfinished, ?_⟩
  exact (spared.2.2 [.lookUp "k"] [2] 5 [.advance 2, .finish 1] rfl (by decide) unwritten).trans
    (if_pos (Or.inl (by decide)))

end ReadThrough.Store
