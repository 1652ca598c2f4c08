import Mathlib.Data.List.Forall2
import Mathlib.Data.List.ReduceOption
import ReadThrough.Proofs.Call.Contacts
import ReadThrough.Proofs.Call.Sequence

/-!
Calls that a rule keeps away from the cache: the cache does not notice them.

* `SameUpToCase`: two texts that differ at most in the case of ASCII letters. An unsafe tag is
  recognized in any case (`hasUnsafeTag_iff`).
* `SkipRule.Guards`: a rule in which the rule for unsafe tags stands somewhere, at any depth. Such a
  rule applies to every call with an unsafe tag (`Guards.applies`).
* `details_of_mem_enter`: what the event about a call that does not use the cache names and lists.
* `execute_of_skips`: a skipped call is just the run of its tool.
* `World.Alike`: worlds with the same time and the same store. A call does the same in both of them
  (`playCall_alike`).
* `Middleware.replies`: what each turn gives, in its place.
* `Replaces`: a skipped call may give way to the passing of the time of its tool. Turns after such
  replacements give the same in every place that was kept and leave the same store
  (`replies_of_replaces`, `play_of_replaces`).
-/

namespace ReadThrough

/-! ### Unsafe tags -/

/-- The lower-case form of an upper-case ASCII letter. -/
def IsLowerOf (lower upper : Char) : Prop :=
  'A'.toNat ≤ upper.toNat ∧ upper.toNat ≤ 'Z'.toNat ∧
    lower.toNat = upper.toNat + ('a'.toNat - 'A'.toNat)

/-- The same character, or the two cases of one ASCII letter. -/
def SameLetter (c d : Char) : Prop :=
  c = d ∨ IsLowerOf c d ∨ IsLowerOf d c

/-- Equality of texts up to the case of ASCII letters, character by character. -/
def SameUpToCase (s t : String) : Prop :=
  List.Forall₂ SameLetter s.toList t.toList

/-- The code of a character after lowering. -/
lemma toNat_lowerAscii (c : Char) :
    (lowerAscii c).toNat =
      if 65 ≤ c.toNat ∧ c.toNat ≤ 90 then c.toNat + 32 else c.toNat := by
  rw [lowerAscii]
  split
  · have valid : (c.toNat + 32).isValidChar := Or.inl (by omega)
    rw [Char.ofNat, dif_pos valid]
    rfl
  · rfl

/-- Lowering makes two characters equal exactly if they are the same letter. -/
lemma lowerAscii_eq_iff (c d : Char) : lowerAscii c = lowerAscii d ↔ SameLetter c d := by
  have code_A : 'A'.toNat = 65 := rfl
  have code_Z : 'Z'.toNat = 90 := rfl
  have code_a : 'a'.toNat = 97 := rfl
  rw [SameLetter, IsLowerOf, IsLowerOf, code_A, code_Z, code_a, ← Char.toNat_inj,
    ← Char.toNat_inj, toNat_lowerAscii, toNat_lowerAscii]
  split <;> split <;> omega

lemma equalsIgnoringCase_iff (s t : String) :
    equalsIgnoringCase s t = true ↔ SameUpToCase s t := by
  rw [equalsIgnoringCase, beq_iff_eq, ← List.forall₂_eq_eq_eq, List.forall₂_map_left_iff,
    List.forall₂_map_right_iff, SameUpToCase]
  simp only [lowerAscii_eq_iff]

/-- A call has an unsafe tag if one of its tags is one of the listed ones up to case. -/
lemma hasUnsafeTag_iff (tags : List String) :
    hasUnsafeTag tags = true ↔ ∃ tag ∈ tags, ∃ marked ∈ unsafeTags, SameUpToCase tag marked := by
  simp only [hasUnsafeTag, List.any_eq_true, equalsIgnoringCase_iff]

/-! ### Rules that guard against them -/

namespace SkipRule

/-- A rule in which the rule for unsafe tags stands somewhere, at any depth and in any place. -/
inductive Guards : SkipRule → Prop where
  | unsafeTagged : Guards .unsafeTagged
  | anyOf {rules : List SkipRule} {rule : SkipRule} (mem : rule ∈ rules) (inner : Guards rule) :
      Guards (.anyOf rules)

variable {toolId : String} {tags : List String}

lemma someApplies_of_mem {rules : List SkipRule} {rule : SkipRule} (mem : rule ∈ rules)
    (applies : rule.applies toolId tags = true) : someApplies toolId tags rules = true := by
  induction rules with
  | nil => simp at mem
  | cons first rest ih =>
      rw [someApplies, Bool.or_eq_true]
      rcases List.mem_cons.mp mem with rfl | mem
      · exact Or.inl applies
      · exact Or.inr (ih mem)

/-- A rule that guards applies to every call with an unsafe tag, whatever its other parts do. -/
lemma Guards.applies {rule : SkipRule} (h : rule.Guards) (tagged : hasUnsafeTag tags = true) :
    rule.applies toolId tags = true := by
  induction h with
  | unsafeTagged => exact tagged
  | anyOf mem inner ih => exact someApplies_of_mem mem ih

end SkipRule

namespace World

variable {σ : Type}

/-- Worlds with the same time and the same state of the backend. -/
structure Alike (w w' : World σ) : Prop where
  now : w.now = w'.now
  store : w.store = w'.store

end World

namespace Middleware

section

variable {m : Middleware} {call : Call}

/-- Unless the policy allows unsafe tools, a call with an unsafe tag is skipped by the rule for
unsafe tags and by every rule that guards. -/
lemma skips_of_guards (forbidden : m.policy.unsafeAllowed = false)
    (guarded : ∀ rule, m.skipRule = some rule → rule.Guards) {toolId : String}
    {tags : List String} (tagged : hasUnsafeTag tags = true) : m.skips toolId tags = true := by
  simp only [skips, forbidden, Bool.false_eq_true, if_false]
  cases ruled : m.skipRule with
  | none => exact tagged
  | some rule => exact (guarded rule ruled).applies tagged

lemma enter_of_skips (skips : m.skips call.toolId call.tags = true) :
    m.enter call = (none, [.bypassed call.toolId call.tags]) := by
  rw [enter, if_pos skips]

/-- An event about a call that does not use the cache names the tool. It lists the tags exactly if a
rule keeps the call away. -/
lemma details_of_mem_enter {e : Event} (mem : e ∈ (m.enter call).2) :
    e.fields.lookup "tool_id" = some call.toolId ∧
      e.lists = if m.skips call.toolId call.tags then [("tags", call.tags)] else [] := by
  rw [enter] at mem
  by_cases skips : m.skips call.toolId call.tags = true
  · rw [if_pos skips, List.mem_singleton] at mem
    rw [mem, if_pos skips]
    exact ⟨rfl, rfl⟩
  · rw [if_neg skips] at mem
    rw [if_neg skips]
    cases derived : m.keyer call.toolId call.input with
    | ok key => simp [derived] at mem
    | error error =>
        rw [derived, List.mem_singleton] at mem
        rw [mem]
        exact ⟨rfl, rfl⟩

/-- A skipped call is just the run of its tool, over any backend. -/
lemma execute_of_skips {σ : Type} (skips : m.skips call.toolId call.tags = true) (b : Backend σ)
    (c : Context) (tool : Tool σ) (w : World σ) :
    m.execute b c call tool w = tool (w.emit [.bypassed call.toolId call.tags]) := by
  rw [execute, start, enter_of_skips skips]
  rfl

/-- The only contact of a skipped call is that run. -/
lemma contacts_of_skips {σ : Type} (skips : m.skips call.toolId call.tags = true) (b : Backend σ)
    (c : Context) (tool : Tool σ) (w : World σ) :
    m.contacts b c call tool w = [.run (m.execute b c call tool w).1] := by
  rw [contacts, execute_of_skips skips, execute_of_skips skips]
  rfl

end

variable {m : Middleware} {t : Trial} {w w' : World Store}

/-- A skipped call runs its tool once and leaves the store as it is, with its counters. -/
lemma playCall_of_skips (skips : m.skips t.call.toolId t.call.tags = true) (w : World Store) :
    (m.playCall t w).1 = ⟨t, t.outcome, 1, w.now + t.delay⟩ ∧
      (m.playCall t w).2.Alike (w.advance t.delay) := by
  rw [playCall, execute_of_skips skips]
  refine ⟨?_, rfl, rfl⟩
  simp [Trial.tool, World.countRun, World.advance, World.emit]

/-! ### Calls in worlds alike -/

lemma answer?_alike (h : w.Alike w') (call : Call) : m.answer? call w = m.answer? call w' := by
  rw [answer?, answer?, h.now, h.store]

lemma start_alike (h : w.Alike w') (c : Context) (call : Call) :
    (m.start .memory c call w).1 = (m.start .memory c call w').1 ∧
      (m.start .memory c call w).2.Alike (m.start .memory c call w').2 := by
  rw [start, start]
  rcases m.enter call with ⟨_ | key, events⟩
  · exact ⟨rfl, h.now, h.store⟩
  · simp only [World.get, World.receive, World.emit, Backend.memory, h.now, h.store]
    cases (w'.store.get w'.now key).answer with
    | some value => exact ⟨rfl, rfl, rfl⟩
    | none => exact ⟨rfl, rfl, rfl⟩

lemma finish_alike (h : w.Alike w') (c : Context) (call : Call) (key? : Option String)
    (outcome : Outcome) :
    (m.finish .memory c call key? outcome w).Alike (m.finish .memory c call key? outcome w') where
  now := by
    rw [(m.finish_now .memory c call key? outcome w).1, h.now,
      (m.finish_now .memory c call key? outcome w').1]
  store := by
    cases key? with
    | none => exact h.store
    | some key =>
        cases outcome with
        | error error => exact h.store
        | ok value =>
            rw [finish, finish]
            by_cases unkept : m.policy.lifetime 0 = 0
            · rw [keep, keep, if_pos unkept, if_pos unkept]
              exact h.store
            · rw [keep_store m .memory c call key value w unkept,
                keep_store m .memory c call key value w' unkept, h.now, h.store]
              rfl

lemma execute_alike (h : w.Alike w') (t : Trial) :
    (m.execute .memory t.context t.call t.tool w).2.Alike
      (m.execute .memory t.context t.call t.tool w').2 := by
  obtain ⟨first, same⟩ := start_alike (m := m) h t.context t.call
  rw [execute, execute]
  rcases started : m.start .memory t.context t.call w with ⟨stage, s⟩
  rcases started' : m.start .memory t.context t.call w' with ⟨stage', s'⟩
  rw [started, started'] at first same
  obtain rfl : stage = stage' := first
  dsimp only at same
  cases stage with
  | answered value => exact same
  | run key? =>
      have ran : (t.tool s).2.Alike (t.tool s').2 :=
        ⟨congrArg (· + t.delay) same.now, same.store⟩
      exact finish_alike ran t.context t.call key? t.outcome

/-- A call does the same in worlds alike, and leaves worlds alike. -/
lemma playCall_alike (h : w.Alike w') (t : Trial) :
    (m.playCall t w).1 = (m.playCall t w').1 ∧ (m.playCall t w).2.Alike (m.playCall t w').2 := by
  refine ⟨?_, execute_alike h t⟩
  have same := answer?_alike (m := m) h t.call
  cases answered : m.answer? t.call w with
  | some value =>
      rw [(playCall_served answered).1, (playCall_served (same.symm.trans answered)).1, h.now]
  | none =>
      rw [(playCall_ran answered).1, (playCall_ran (same.symm.trans answered)).1, h.now]

/-! ### Turns with and without skipped calls -/

/-- What a turn gives: the call, if it is one, as it has ended. -/
def reply (m : Middleware) (w : World Store) : Turn → Option Played
  | .call t => some (m.playCall t w).1
  | .pass _ => none

/-- The world after a turn. -/
def after (m : Middleware) (w : World Store) : Turn → World Store
  | .call t => (m.playCall t w).2
  | .pass time => w.advance time

/-- What each of the turns gives, in its place. -/
def replies (m : Middleware) : List Turn → World Store → List (Option Played)
  | [], _ => []
  | turn :: rest, w => m.reply w turn :: m.replies rest (m.after w turn)

/-- The log is made of what the turns give. -/
lemma play_eq (turns : List Turn) (log : List Played) (w : World Store) :
    m.play turns log w =
      ((m.replies turns w).reduceOption.reverse ++ log, turns.foldl m.after w) := by
  induction turns generalizing log w with
  | nil => rfl
  | cons turn rest ih =>
      cases turn with
      | call t =>
          rw [play, ih, replies, reply, List.reduceOption_cons_of_some, List.reverse_cons,
            List.append_assoc]
          rfl
      | pass time =>
          rw [play, ih, replies, reply, List.reduceOption_cons_of_none]
          rfl

/-- A turn is kept, or it is a skipped call and the time of its tool just passes. -/
inductive Replaces (m : Middleware) : Turn → Turn → Prop where
  | kept (turn : Turn) : Replaces m turn turn
  | passed {t : Trial} (skips : m.skips t.call.toolId t.call.tags = true) :
      Replaces m (.call t) (.pass t.delay)

/-- A turn that is kept gives the same in worlds alike, and with or without it they stay alike. -/
lemma Replaces.alike {turn turn' : Turn} (replaces : m.Replaces turn turn') (h : w.Alike w') :
    (turn = turn' → m.reply w turn = m.reply w' turn') ∧
      (m.after w turn).Alike (m.after w' turn') := by
  cases replaces with
  | kept =>
      cases turn with
      | call t =>
          obtain ⟨played, same⟩ := playCall_alike (m := m) h t
          exact ⟨fun _ => congrArg some played, same⟩
      | pass time => exact ⟨fun _ => rfl, congrArg (· + time) h.now, h.store⟩
  | @passed t skips =>
      obtain ⟨-, same⟩ := playCall_of_skips skips w
      exact ⟨nofun, same.now.trans (congrArg (· + t.delay) h.now), same.store.trans h.store⟩

/-- Whatever skipped calls are replaced: every turn that is kept gives the same, and the time and
the store at the end are the same. -/
lemma replies_of_replaces {turns turns' : List Turn}
    (replaces : List.Forall₂ m.Replaces turns turns') (h : w.Alike w') :
    (∀ i : Nat, turns[i]? = turns'[i]? → (m.replies turns w)[i]? = (m.replies turns' w')[i]?) ∧
      (turns.foldl m.after w).Alike (turns'.foldl m.after w') := by
  induction replaces generalizing w w' with
  | nil => exact ⟨fun i _ => rfl, h⟩
  | @cons turn turn' rest rest' first _ ih =>
      obtain ⟨replied, same⟩ := first.alike h
      obtain ⟨later, ended⟩ := ih same
      refine ⟨fun i kept => ?_, ended⟩
      cases i with
      | zero => exact congrArg some (replied (Option.some.inj kept))
      | succ i => exact later i kept

/-- Calls with an unsafe tag, in letters of any case, are not noticed by the cache. Unless the
policy allows unsafe tools, the rule for unsafe tags and every rule in which it stands at any depth
make such a call the mere run of its tool: the backend is asked nothing, and the store stays as it
is, with its counters. And whatever skipped calls of a sequence give way to the passing of the time
of their tools, all other turns give the same, and the store at the end is the same. Under a policy
that allows unsafe tools no rule whatever makes a call skip the cache. -/
theorem unnoticed_of_skips (m : Middleware) :
    (m.policy.unsafeAllowed = false → (∀ rule, m.skipRule = some rule → rule.Guards) →
        ∀ t : Trial, (∃ tag ∈ t.call.tags, ∃ marked ∈ unsafeTags, SameUpToCase tag marked) →
          (∀ (σ : Type) (b : Backend σ) (tool : Tool σ) (w : World σ),
            m.execute b t.context t.call tool w =
                tool (w.emit [.bypassed t.call.toolId t.call.tags]) ∧
              m.contacts b t.context t.call tool w =
                [.run (m.execute b t.context t.call tool w).1]) ∧
          ∀ w, (m.playCall t w).1 = ⟨t, t.outcome, 1, w.now + t.delay⟩ ∧
            (m.playCall t w).2.store = w.store) ∧
      (∀ turns turns', List.Forall₂ m.Replaces turns turns' → ∀ log w,
        (∀ i : Nat, turns[i]? = turns'[i]? → (m.replies turns w)[i]? = (m.replies turns' w)[i]?) ∧
          (m.play turns log w).2.now = (m.play turns' log w).2.now ∧
          (m.play turns log w).2.store = (m.play turns' log w).2.store) ∧
      (m.policy.unsafeAllowed = true → ∀ (rule? : Option SkipRule) toolId tags,
        Middleware.skips { m with skipRule := rule? } toolId tags = false) := by
  refine ⟨fun forbidden guarded t tagged => ?_, fun turns turns' replaces log w => ?_, ?_⟩
  · have skips : m.skips t.call.toolId t.call.tags = true :=
      skips_of_guards forbidden guarded ((hasUnsafeTag_iff _).mpr tagged)
    refine ⟨fun σ b tool w => ?_, fun w => ?_⟩
    · exact ⟨execute_of_skips skips b t.context tool w, contacts_of_skips skips b t.context tool w⟩
    · obtain ⟨played, same⟩ := playCall_of_skips skips w
      exact ⟨played, same.store⟩
  · obtain ⟨replied, ended⟩ := replies_of_replaces replaces (World.Alike.mk (w := w) rfl rfl)
    rw [play_eq, play_eq]
    exact ⟨replied, ended.now, ended.store⟩
  · intro allowed rule? toolId tags
    rw [skips, if_pos allowed]

/-- Two lookups under one key, and between them a call with an unsafe tag that would use the same
key. The rule for unsafe tags stands two levels deep behind another rule. With the middle call
replaced by the passing of its time the second lookup is answered as before. -/
theorem unnoticed_of_skips_nested :
    let nested : SkipRule := .anyOf [.startingWith ["tmp"], .anyOf [.unsafeTagged]]
    let m : Middleware := ⟨fun _ _ => .ok "k", ⟨10, 0, false⟩, some nested⟩
    let free : Middleware := ⟨fun _ _ => .ok "k", ⟨10, 0, true⟩, some nested⟩
    let look : Trial := ⟨⟨"get", .null, []⟩, ⟨0, none⟩, 3, .ok [1]⟩
    let write : Trial := ⟨⟨"put", .null, ["fast", "WrItE"]⟩, ⟨0, none⟩, 4, .ok [2]⟩
    let turns : List Turn := [.call look, .call write, .call look]
    let turns' : List Turn := [.call look, .pass 4, .call look]
    let w := World.start Store.empty
    (m.policy.unsafeAllowed = false ∧ nested.Guards ∧
        (∃ tag ∈ write.call.tags, ∃ marked ∈ unsafeTags, SameUpToCase tag marked) ∧
        (m.playCall write w).2.store = w.store) ∧
      (List.Forall₂ m.Replaces turns turns' ∧
        (m.replies turns w)[2]? = (m.replies turns' w)[2]? ∧
        (m.play turns [] w).2.store = (m.play turns' [] w).2.store) ∧
      free.policy.unsafeAllowed = true ∧ free.skips "put" ["write"] = false := by
  intro nested m free look write turns turns' w
  have guards : nested.Guards :=
    .anyOf (List.mem_cons_of_mem _ List.mem_cons_self)
      (.anyOf List.mem_cons_self .unsafeTagged)
  have tagged : ∃ tag ∈ write.call.tags, ∃ marked ∈ unsafeTags, SameUpToCase tag marked :=
    (hasUnsafeTag_iff _).mp (by decide)
  have skips : m.skips write.call.toolId write.call.tags = true := by decide
  have replaces : List.Forall₂ m.Replaces turns turns' :=
    .cons (.kept _) (.cons (.passed skips) (.cons (.kept _) .nil))
  obtain ⟨unsafe_call, replaced, -⟩ := unnoticed_of_skips m
  have guarded : ∀ rule, m.skipRule = some rule → rule.Guards := by
    rintro rule ⟨⟩
    exact guards
  obtain ⟨-, untouched⟩ := unsafe_call rfl guarded write tagged
  obtain ⟨replied, -, store⟩ := replaced turns turns' replaces [] w
  have unskipped := (unnoticed_of_skips free).2.2 rfl (some nested) "put" ["write"]
  exact ⟨⟨rfl, guards, tagged, (untouched w).2⟩, ⟨replaces, replied 2 rfl, store⟩, rfl, unskipped⟩

end Middleware

end ReadThrough
