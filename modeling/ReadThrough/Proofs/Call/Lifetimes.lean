import ReadThrough.Proofs.Call.Serving
import ReadThrough.Proofs.Policy.Settings
import ReadThrough.Proofs.Store.Views

/-!
How long the results of calls live under a policy that comes from settings.

* `Settings.seconds`: the lifetime of results in seconds, which is that of the policy
  (`policy_lifetime`).
* `Store.told`: what a store tells about the time left to a lifetime that begins
  (`remaining?_of_lasting`).
* `Settings.Left`: what is under the key of a call when it ends. The part of a call after the run of
  its tool leaves just that where there was nothing before (`Left.of_finish`).
* `start_unanswered`: a lookup that finds nothing leaves nothing under its key.
* `get?_of_unkept`: calls that can keep nothing leave an empty store empty, in any order of their
  steps.
* `ofLookup_lasts`: from the texts of three variables to the time left to a result.
-/

namespace ReadThrough

/-! ### The lifetime that settings give -/

/-- Where the caller asks for no lifetime the usual one counts, up to the greatest one where that is
set. -/
lemma Policy.lifetime_zero (p : Policy) :
    p.lifetime 0 = if 0 < p.greatest ∧ p.greatest < p.usual then p.greatest else p.usual :=
  rfl

namespace Settings

/-- The lifetime of results in seconds: the usual one, up to the greatest one where that is set. -/
def seconds (s : Settings) : Nat :=
  if 0 < s.greatest.toNat ∧ s.greatest.toNat < s.usual.toNat then s.greatest.toNat
  else s.usual.toNat

/-- The policy of settings counts in nanoseconds what they count in seconds. -/
lemma policy_lifetime (s : Settings) : s.policy.lifetime 0 = Duration.ofSeconds s.seconds := by
  have second : 0 < Duration.second := by decide
  have bounded : 0 < s.policy.greatest ↔ 0 < s.greatest.toNat :=
    Nat.mul_pos_iff_of_pos_right second
  have above : s.policy.greatest < s.policy.usual ↔ s.greatest.toNat < s.usual.toNat :=
    Nat.mul_lt_mul_right second
  simp only [Policy.lifetime_zero, seconds, bounded, above]
  split <;> rfl

/-- There is no lifetime exactly if there is no usual one. -/
lemma policy_lifetime_eq_zero_iff (s : Settings) :
    s.policy.lifetime 0 = 0 ↔ s.usual.toNat = 0 := by
  have seconds_zero : s.seconds = 0 ↔ s.usual.toNat = 0 := by
    rw [seconds]
    split <;> omega
  have second : Duration.second ≠ 0 := by decide
  rw [policy_lifetime, Duration.ofSeconds, ← seconds_zero, Nat.mul_eq_zero, or_iff_left second]

end Settings

/-! ### The time left -/

namespace Store

/-- What a store tells about the time left to a lifetime that begins: all of it, or the longest
duration if its end cannot be represented. -/
def told (now lifetime : Nat) : Nat :=
  if now + lifetime ≤ Instant.last then lifetime else Duration.longest

/-- An entry that has just been put has its whole lifetime left. -/
lemma remaining?_of_lasting {s : Store} {now lifetime : Nat} {key : String} {value : Bytes}
    (lives : lifetime ≠ 0) (found : s.entries.get? key = some (Entry.lasting now value lifetime)) :
    s.remaining? now key = some (told now lifetime) := by
  have fresh : (Entry.lasting now value lifetime).isExpired now = false := by
    rw [Entry.isExpired_lasting]
    exact Or.inl (Nat.lt_add_of_pos_right (Nat.pos_of_ne_zero lives))
  rw [remaining?_eq_timeLeft, unexpired_eq_some_iff.mpr ⟨found, fresh⟩, Option.map_some,
    Entry.timeLeft, Entry.remaining, Entry.lasting, Instant.after?, told]
  split
  · rw [Option.map_some, Option.getD_some, Nat.add_sub_cancel_left]
  · rw [Option.map_none, Option.getD_none]

/-- A read that finds nothing under a valid key leaves nothing there. -/
lemma get?_of_answer_eq_none {s : Store} {now : Nat} {key : String}
    (valid : Key.isValid key = true) (missed : (s.get now key).answer = none) :
    (s.get now key).state.entries.get? key = none := by
  cases met : s.lookup now key with
  | live value => simp [get, startGet, valid, met] at missed
  | expired =>
      have purged : (s.get now key).state.entries = s.entries.erase key := by
        simp [get, startGet, valid, met, finishGet, purge, countExpirations, countMiss]
      rw [purged, Table.get?_erase, if_pos rfl]
  | missing =>
      have same : (s.get now key).state.entries = s.entries := by
        simp [get, startGet, valid, met, countMiss]
      rw [same]
      cases found : s.entries.get? key with
      | none => rfl
      | some e => cases expired : e.isExpired now <;> simp [lookup, found, expired] at met

end Store

/-! ### What a call leaves under its key -/

/-- What is under the key of a call when it ends: nothing if the usual lifetime is zero, and else an
entry that has the lifetime of the settings left. -/
structure Settings.Left (s : Settings) (key : String) (w : World Store) : Prop where
  remaining : w.store.remaining? w.now key =
    if s.usual.toNat = 0 then none else some (Store.told w.now (Duration.ofSeconds s.seconds))
  nothing : w.store.entries.get? key = none ↔ s.usual.toNat = 0

/-- The part of a call after the run of its tool, where that has given bytes, leaves just that. -/
lemma Settings.Left.of_finish {s : Settings} {m : Middleware} (governed : m.policy = s.policy)
    {key : String} (valid : Key.isValid key = true) (c : Context) (call : Call) (value : Bytes)
    {w : World Store} (absent : s.usual.toNat = 0 → w.store.entries.get? key = none) :
    s.Left key (m.finish .memory c call (some key) (.ok value) w) := by
  have now := (m.finish_now .memory c call (some key) (.ok value) w).1
  have entries := m.finish_entries c call (some key) (.ok value) w
  have lifetime : m.policy.lifetime 0 = 0 ↔ s.usual.toNat = 0 := by
    rw [governed, s.policy_lifetime_eq_zero_iff]
  by_cases fleeting : s.usual.toNat = 0
  · have unkept : m.kept? (some key) (.ok value) = none :=
      if_neg fun kept => kept.2 (lifetime.mpr fleeting)
    rw [unkept] at entries
    have nothing : (m.finish .memory c call (some key) (.ok value) w).store.entries.get? key =
        none := by
      rw [entries, absent fleeting]
    refine ⟨?_, iff_of_true nothing fleeting⟩
    rw [if_pos fleeting, Store.remaining?, nothing]
  · have lives := mt lifetime.mp fleeting
    have kept : m.kept? (some key) (.ok value) = some (key, value) := if_pos ⟨valid, lives⟩
    rw [kept] at entries
    have found : (m.finish .memory c call (some key) (.ok value) w).store.entries.get? key =
        some (Entry.lasting w.now value (m.policy.lifetime 0)) := by
      rw [entries, Table.get?_insert, if_pos rfl]
    refine ⟨?_, iff_of_false (by simp [found]) fleeting⟩
    rw [if_neg fleeting, now, Store.remaining?_of_lasting lives found, governed,
      s.policy_lifetime]

/-! ### Calls one after another -/

namespace Middleware

variable {s : Settings} {m : Middleware} {call : Call} {key : String}

/-- A lookup that finds nothing leaves nothing under its key. -/
lemma start_unanswered {c : Context} {w : World Store} {events : List Event}
    (entered : m.enter call = (some key, events)) (valid : Key.isValid key = true)
    (unanswered : m.answer? call w = none) :
    ∃ w', m.start .memory c call w = (.run (some key), w') ∧
      w'.store.entries.get? key = none := by
  have missed : (w.store.get w.now key).answer = none := by
    rw [Store.get_answer, if_pos valid]
    simpa [answer?, entered, valid] using unanswered
  have nothing := Store.get?_of_answer_eq_none valid missed
  simp only [start, entered, World.get, World.receive, World.emit, Backend.memory, missed]
  exact ⟨_, rfl, nothing⟩

/-- A call that misses and whose tool gives bytes, over a store in any state. -/
lemma left_playCall (governed : m.policy = s.policy) {t : Trial} {w : World Store}
    (allowed : m.skips t.call.toolId t.call.tags = false)
    (derived : m.keyer t.call.toolId t.call.input = .ok key) (valid : Key.isValid key = true)
    (missed : (m.playCall t w).1.runs ≠ 0) {value : Bytes} (succeeded : t.outcome = .ok value) :
    s.Left key (m.playCall t w).2 := by
  have unanswered : m.answer? t.call w = none := by
    cases answered : m.answer? t.call w with
    | none => rfl
    | some other => exact absurd (congrArg Played.runs (playCall_served answered).1) missed
  rcases entered : m.enter t.call with ⟨key?, events⟩
  obtain rfl : key? = some key :=
    (congrArg Prod.fst entered).symm.trans (enter_eq_some_iff.mpr ⟨allowed, derived⟩)
  obtain ⟨w', started, nothing⟩ := start_unanswered (c := t.context) entered valid unanswered
  -- the tool of a trial leaves the store alone
  have ran : t.tool w' = (.ok value, w'.countRun.2.advance t.delay) := by
    rw [Trial.tool, succeeded]
  simp only [playCall, execute, started, ran]
  exact .of_finish governed valid _ _ _ fun _ => nothing

end Middleware

/-! ### Calls that overlap -/

namespace Crowd

variable {ι : Type} [DecidableEq ι] {c : Crowd ι} {history : History ι} {s : Scene ι}

/-- Calls that can keep nothing leave an empty store empty. -/
lemma get?_of_unkept {w : World Store} (run : Run c (Scene.opening w) history s)
    (unkept : ∀ i, (c.policy i).lifetime 0 = 0) (key : String) :
    s.world.store.entries.get? key = none := by
  induction run with
  | start => rfl
  | step _ next ih =>
      cases next with
      | bypass waiting entered => exact ih
      | enter waiting entered => exact ih
      | hit keyed found => exact (congrArg (·.get? key) (Store.entries_of_startGet found)).trans ih
      | miss keyed found => exact (congrArg (·.get? key) (Store.entries_of_startGet found)).trans ih
      | meet keyed found => exact (congrArg (·.get? key) (Store.entries_of_startGet found)).trans ih
      | @purge i own met =>
          rename_i before _
          rcases before.world.store.finishGet_dropsExpired before.world.now own key with
            same | ⟨gone, -⟩
          · exact same.trans ih
          · exact gone
      | complete outcome running => exact ih
      | @finish i key? outcome finishing =>
          rename_i before _
          have nothing : (c.middleware i).kept? key? outcome = none := by
            rw [Option.eq_none_iff_forall_ne_some]
            rintro ⟨own, value⟩ kept
            exact (Middleware.kept?_eq_some_iff.mp kept).2.2.2 (unkept i)
          rw [Scene.put_world, Middleware.finish_entries, nothing]
          exact ih
      | pass fits => exact ih

/-- A call that has missed and whose tool has given bytes can end, and its end leaves just that. -/
lemma left_finish {r : Settings} (governed : ∀ i, c.policy i = r.policy) {w : World Store}
    (run : Run c (Scene.opening w) history s) {i : ι} {key : String} {value : Bytes}
    (finishing : s.stage i = .finishing (some key) (.ok value)) (valid : Key.isValid key = true) :
    (∃ s', Step c s (.finish i) s') ∧
      ∀ s', Step c s (.finish i) s' → s'.stage i = .ended (.ok value) ∧ r.Left key s'.world := by
  refine ⟨⟨_, .finish finishing⟩, fun s' next => ?_⟩
  cases next with
  | finish ending =>
      obtain ⟨rfl, rfl⟩ := Stage.finishing.inj (ending.symm.trans finishing)
      refine ⟨Scene.put_stage_self .., ?_⟩
      rw [Scene.put_world]
      refine .of_finish (governed i) valid _ _ _ fun fleeting => ?_
      refine get?_of_unkept run (fun j => ?_) key
      rw [governed j, r.policy_lifetime_eq_zero_iff, fleeting]

end Crowd

namespace Settings

/-- From the texts of three variables to the time left to a result.

Each number of seconds is what the text of its variable stands for between blanks, with a plus sign
or without, if that fits a word of 64 bits; the switch follows its words in any case. A variable
that is missing or stands for nothing leaves its default, and no variable bears on the others.

Under the policy of these settings, a call that uses the cache under an accepted key, misses, and
gets bytes from its tool leaves an entry whose time left is the usual lifetime, up to the greatest
one where that is set, or the longest duration where the end cannot be represented. It leaves
nothing exactly if the usual lifetime is zero. That is so for a call without a break, over a store
in any state, and for calls over an empty store that overlap in any order of their steps. -/
theorem ofLookup_lasts (lookup : String → Option String) :
    let s := ofLookup lookup
    (Decided (fun text n => IsNumber text n ∧ n < Nat.pow 2 64) 300 (lookup "TOOLCACHE_DEFAULT_TTL")
          s.usual.toNat ∧
        Decided (fun text n => IsNumber text n ∧ n < Nat.pow 2 64) 3600 (lookup "TOOLCACHE_MAX_TTL")
          s.greatest.toNat ∧
        Decided IsSwitch false (lookup "TOOLCACHE_ALLOW_UNSAFE") s.unsafeAllowed) ∧
      (∀ other : String → Option String,
        (other "TOOLCACHE_DEFAULT_TTL" = lookup "TOOLCACHE_DEFAULT_TTL" →
            (ofLookup other).usual = s.usual) ∧
          (other "TOOLCACHE_MAX_TTL" = lookup "TOOLCACHE_MAX_TTL" →
            (ofLookup other).greatest = s.greatest) ∧
          (other "TOOLCACHE_ALLOW_UNSAFE" = lookup "TOOLCACHE_ALLOW_UNSAFE" →
            (ofLookup other).unsafeAllowed = s.unsafeAllowed)) ∧
      (∀ (m : Middleware) (t : Trial) (w : World Store) (key : String) (value : Bytes),
        m.policy = s.policy → m.skips t.call.toolId t.call.tags = false →
        m.keyer t.call.toolId t.call.input = .ok key → Key.isValid key = true →
        (m.playCall t w).1.runs ≠ 0 → t.outcome = .ok value → s.Left key (m.playCall t w).2) ∧
      ∀ (ι : Type) [DecidableEq ι] (c : Crowd ι), (∀ i, c.policy i = s.policy) →
        ∀ (w : World Store) (history : History ι) (scene : Scene ι),
          Run c (Scene.opening w) history scene → ∀ (i : ι) (key : String) (value : Bytes),
            scene.stage i = .finishing (some key) (.ok value) → Key.isValid key = true →
            (∃ scene', Step c scene (.finish i) scene') ∧
              ∀ scene', Step c scene (.finish i) scene' →
                scene'.stage i = .ended (.ok value) ∧ s.Left key scene'.world := by
  intro s
  refine ⟨ofLookup_decided lookup, fun other => ?_, ?_, ?_⟩
  · simp +contextual [ofLookup, s]
  · intro m t w key value governed allowed derived valid missed succeeded
    exact Middleware.left_playCall governed allowed derived valid missed succeeded
  · intro ι _ c governed w history scene run i key value finishing valid
    exact Crowd.left_finish governed run finishing valid

/-- One call with a lifetime from settings. -/
def lone (s : Settings) : Crowd Unit where
  keyer _ _ := .ok "k"
  policy _ := s.policy
  skipRule _ := none
  context _ := ⟨0, none⟩
  call _ := ⟨"t", .null, []⟩

/-- The call misses, and its tool gives bytes. -/
lemma run_lone (s : Settings) : ∃ history scene,
    Run (lone s) (Scene.opening (World.start .empty)) history scene ∧
      scene.stage () = .finishing (some "k") (.ok [1]) := by
  obtain ⟨usual, greatest, unsafeAllowed⟩ := s
  have entered : ((lone ⟨usual, greatest, unsafeAllowed⟩).middleware ()).enter ⟨"t", .null, []⟩ =
      (some "k", []) := by
    cases unsafeAllowed <;> rfl
  have run : Run (lone ⟨usual, greatest, unsafeAllowed⟩) (.opening (World.start .empty)) [] _ :=
    .start
  have run := run.step (.enter (i := ()) rfl entered)
  have run := run.step (.miss (i := ()) rfl rfl)
  have run := run.step (.complete (i := ()) (.ok [1]) rfl)
  exact ⟨_, _, run, rfl⟩

/-- A text with a sign, leading zeros and blanks, a bound below it, and a switch in mixed case: a
call of an unsafe tool is kept for the bound. Without a usual lifetime nothing is kept. -/
theorem ofLookup_lasts_bounded :
    let lookup : String → Option String := fun name =>
      if name = "TOOLCACHE_DEFAULT_TTL" then some "\t+0090 "
      else if name = "TOOLCACHE_MAX_TTL" then some "60"
      else some " oN"
    let s := ofLookup lookup
    let m : Middleware := ⟨fun _ _ => .ok "k", s.policy, none⟩
    let t : Trial := ⟨⟨"t", .null, ["write"]⟩, ⟨0, none⟩, 7, .ok [1]⟩
    let after := (m.playCall t (.start .empty)).2
    (s.usual.toNat = 90 ∧ s.greatest.toNat = 60 ∧ s.unsafeAllowed = true) ∧
      after.store.remaining? after.now "k" = some 60000000000 ∧
      ∃ history scene scene', Run (lone (ofLookup fun _ => some "0"))
          (Scene.opening (World.start .empty)) history scene ∧
        Step (lone (ofLookup fun _ => some "0")) scene (.finish ()) scene' ∧
        scene'.stage () = .ended (.ok [1]) ∧
        scene'.world.store.entries.get? "k" = none := by
  intro lookup s m t after
  have number (text : String) (digits : List Char) (n : Nat)
      (left : Text.trim text.toList = digits ∨ Text.trim text.toList = '+' :: digits)
      (denotes : digits ≠ [] ∧ digits.all isDigit = true ∧ Nat.ofDigitChars 10 digits 0 = n) :
      IsNumber text n :=
    ⟨_, digits, Text.trimmed_trim text.toList, left, denotes.1, List.all_eq_true.mp denotes.2.1,
      denotes.2.2⟩
  obtain ⟨⟨usual, greatest, switch⟩, -, alone, -⟩ := ofLookup_lasts lookup
  have ninety : s.usual.toNat = 90 :=
    usual.set _ rfl 90 ⟨number _ "0090".toList 90 (Or.inr (by decide)) (by decide), by decide⟩
  have sixty : s.greatest.toNat = 60 :=
    greatest.set _ rfl 60 ⟨number _ "60".toList 60 (Or.inl (by decide)) (by decide), by decide⟩
  have on : s.unsafeAllowed = true :=
    switch.set _ rfl true ⟨_, Text.trimmed_trim " oN".toList, "on", by decide,
      (equalsIgnoringCase_iff _ _).mp (by decide)⟩
  refine ⟨⟨ninety, sixty, on⟩, ?_, ?_⟩
  · have left := alone m t (.start .empty) "k" [1] rfl (if_pos on) rfl (by decide) (by decide) rfl
    have clock : after.now = 7 := by decide
    refine left.remaining.trans ?_
    rw [ninety, if_neg (by decide), seconds, ninety, sixty, clock]
    decide
  · obtain ⟨⟨usual, -, -⟩, -, -, together⟩ := ofLookup_lasts fun _ => some "0"
    have fleeting : (ofLookup fun _ => some "0").usual.toNat = 0 :=
      usual.set _ rfl 0 ⟨number _ "0".toList 0 (Or.inl (by decide)) (by decide), by decide⟩
    obtain ⟨history, scene, run, finishing⟩ := run_lone (ofLookup fun _ => some "0")
    obtain ⟨⟨scene', next⟩, leaves⟩ := together Unit (lone (ofLookup fun _ => some "0"))
      (fun _ => rfl) _ _ _ run () "k" [1] finishing (by decide)
    obtain ⟨ended, left⟩ := leaves scene' next
    exact ⟨history, scene, scene', run, next, ended, left.nothing.mpr fleeting⟩

end Settings

end ReadThrough
