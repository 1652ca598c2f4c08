import Mathlib.Data.List.DropRight
import ReadThrough.Policy.Settings
import ReadThrough.Proofs.Call.Skipping

/-!
What the texts of three variables make of the settings.

* `Text.Trimmed`: what is left of a text without the blanks around it. There is one such rest, and
  `Text.trim` finds it (`trim_eq_iff`).
* `IsNumber`, `IsSwitch`: the texts that stand for a number and for a position of the switch.
* `readWord?_eq_some_iff`, `readSwitch?_eq_some_iff`: just these texts are read, and as that.
* `Decided`: a setting is what the text of its variable stands for, or else its default.
* `ofLookup_decided`: each setting is decided by its own variable.
-/

namespace ReadThrough

/-! ### Texts without the blanks around them -/

namespace Text

/-- What is left of a text without the blanks around it. -/
structure Trimmed (cs core : List Char) : Prop where
  around : ∃ before after, cs = before ++ core ++ after ∧
    (∀ c ∈ before, isBlank c = true) ∧ ∀ c ∈ after, isBlank c = true
  first : ∀ c ∈ core.head?, isBlank c = false
  last : ∀ c ∈ core.getLast?, isBlank c = false

variable {cs core : List Char}

lemma trimEnd_append {after : List Char} (blank : ∀ c ∈ after, isBlank c = true)
    (last : ∀ c ∈ core.getLast?, isBlank c = false) : trimEnd (core ++ after) = core := by
  have reversed : core.reverse.dropWhile isBlank = core.reverse := by
    cases ends : core.reverse with
    | nil => rfl
    | cons c rest =>
        have inked := last c (by rw [← List.head?_reverse, ends]; rfl)
        rw [List.dropWhile_cons_of_neg (by simp [inked])]
  rw [trimEnd, List.reverse_append,
    List.dropWhile_append_of_pos fun c mem => blank c (List.mem_reverse.mp mem), reversed,
    List.reverse_reverse]

/-- Trimming finds what is left. -/
lemma Trimmed.trim_eq (h : Trimmed cs core) : trim cs = core := by
  obtain ⟨before, after, rfl, blank, blank'⟩ := h.around
  have started : (before ++ core ++ after).dropWhile isBlank =
      (core ++ after).dropWhile isBlank := by
    rw [List.append_assoc, List.dropWhile_append_of_pos blank]
  rw [trim, started]
  cases core with
  | nil =>
      have nothing : after.dropWhile isBlank = [] := List.dropWhile_eq_nil_iff.mpr blank'
      rw [List.nil_append, nothing]
      rfl
  | cons c rest =>
      have inked := h.first c rfl
      rw [List.cons_append, List.dropWhile_cons_of_neg (by simp [inked])]
      exact trimEnd_append blank' h.last

/-- Trimming leaves no blank at either end. -/
lemma trimmed_trim (cs : List Char) : Trimmed cs (trim cs) := by
  have trim_eq : trim cs = (cs.dropWhile isBlank).rdropWhile isBlank := rfl
  refine ⟨⟨cs.takeWhile isBlank, (cs.dropWhile isBlank).rtakeWhile isBlank, ?_, ?_, ?_⟩, ?_, ?_⟩
  · rw [trim_eq, List.append_assoc, List.rdropWhile_append_rtakeWhile,
      List.takeWhile_append_dropWhile]
  · exact fun c mem => List.mem_takeWhile_imp mem
  · exact fun c mem => List.mem_rtakeWhile_imp mem
  · intro c mem
    -- the first character stays the first one when the end is trimmed
    obtain ⟨rest, started⟩ := List.head?_eq_some_iff.mp mem
    obtain ⟨ended, whole⟩ := trim_eq ▸ List.rdropWhile_prefix isBlank (cs.dropWhile isBlank)
    have inked := List.head?_dropWhile_not isBlank cs
    rw [← whole, started, List.cons_append, List.head?_cons] at inked
    exact inked
  · intro c mem
    obtain ⟨some_left, rfl⟩ := List.mem_getLast?_eq_getLast mem
    exact Bool.eq_false_iff.mpr (List.rdropWhile_last_not isBlank _ some_left)

/-- There is one rest without blanks around it, and trimming finds it. -/
lemma trim_eq_iff : trim cs = core ↔ Trimmed cs core :=
  ⟨fun trimmed => trimmed ▸ trimmed_trim cs, Trimmed.trim_eq⟩

end Text

namespace Settings

/-! ### Texts that stand for a number -/

/-- A text that stands for a number: between blanks digits, at least one, with a plus sign or
without. -/
def IsNumber (s : String) (n : Nat) : Prop :=
  ∃ core digits, Text.Trimmed s.toList core ∧ (core = digits ∨ core = '+' :: digits) ∧
    digits ≠ [] ∧ (∀ c ∈ digits, isDigit c = true) ∧ Nat.ofDigitChars 10 digits 0 = n

/-- Digits are read as the number they denote, if that fits a word. -/
lemma readDigits?_eq_some_iff {cs : List Char} {word : UInt64} :
    readDigits? cs = some word ↔
      cs ≠ [] ∧ (∀ c ∈ cs, isDigit c = true) ∧ Nat.ofDigitChars 10 cs 0 = word.toNat := by
  rw [readDigits?, ← and_assoc, ← List.all_eq_true]
  by_cases digits : cs ≠ [] ∧ cs.all isDigit = true
  · rw [if_pos digits, and_iff_right digits]
    by_cases fits : Nat.ofDigitChars 10 cs 0 < Nat.pow 2 64
    · have gathered := gatherDigits_eq cs 0 fits
      have exact : (UInt64.ofNat (Nat.ofDigitChars 10 cs 0)).toNat = Nat.ofDigitChars 10 cs 0 :=
        UInt64.toNat_ofNat_of_lt' fits
      rw [gathered]
      simp only [UInt64.toNat_zero, Option.some.injEq, ← UInt64.toNat_inj, exact]
    · have left := gatherDigits_left cs 0 (Nat.le_of_not_lt fits)
      have larger : Nat.ofDigitChars 10 cs 0 ≠ word.toNat :=
        fun same => fits (same ▸ word.toNat_lt)
      split
      · rename_i gathered
        exact absurd (congrArg Prod.snd gathered) left
      · simp [larger]
  · rw [if_neg digits]
    exact iff_of_false (by simp) fun denotes => digits denotes.1

/-- A text is read as the number that it stands for, if that fits a word. -/
lemma readWord?_eq_some_iff {s : String} {word : UInt64} :
    readWord? s = some word ↔ IsNumber s word.toNat := by
  have unsigned {digits : List Char} (h : ∀ c ∈ digits, isDigit c = true) (rest : List Char) :
      digits ≠ '+' :: rest := by
    rintro rfl
    exact absurd (h '+' List.mem_cons_self) (by decide)
  rw [readWord?]
  split
  · rename_i digits trimmed
    rw [readDigits?_eq_some_iff]
    constructor
    · exact fun denotes => ⟨_, digits, Text.trim_eq_iff.mp trimmed, Or.inr rfl, denotes⟩
    · rintro ⟨core, digits', left, signed, denotes⟩
      rw [left.trim_eq] at trimmed
      rcases signed with rfl | rfl
      · exact absurd trimmed (unsigned denotes.2.1 digits)
      · obtain rfl := (List.cons.inj trimmed).2
        exact denotes
  · rename_i no_sign
    rw [readDigits?_eq_some_iff]
    constructor
    · exact fun denotes => ⟨_, _, Text.trimmed_trim s.toList, Or.inl rfl, denotes⟩
    · rintro ⟨core, digits, left, rfl | rfl, denotes⟩
      · rwa [left.trim_eq]
      · exact absurd left.trim_eq (no_sign digits)

/-! ### Texts that stand for a position of the switch -/

/-- The words for a position of the switch. -/
def words : Bool → List String
  | true => ["true", "1", "yes", "on"]
  | false => ["false", "0", "no", "off"]

/-- A text that stands for a position of the switch: between blanks one of the words for it, in
ASCII letters of any case. -/
def IsSwitch (s : String) (position : Bool) : Prop :=
  ∃ core, Text.Trimmed s.toList core ∧
    ∃ word ∈ words position, SameUpToCase (String.ofList core) word

/-- The words are in lower case. -/
lemma map_lowerAscii_words {position : Bool} {word : String} (mem : word ∈ words position) :
    word.toList.map lowerAscii = word.toList := by
  have lower : ∀ position, (words position).all
      (fun word => word.toList.map lowerAscii == word.toList) = true := by decide
  exact beq_iff_eq.mp (List.all_eq_true.mp (lower position) word mem)

/-- A text in lower case is one of the words exactly if the text is one of them up to case. -/
lemma lowered_mem_words_iff {position : Bool} {core : List Char} :
    String.ofList (core.map lowerAscii) ∈ words position ↔
      ∃ word ∈ words position, SameUpToCase (String.ofList core) word := by
  have same {word : String} (mem : word ∈ words position) :
      SameUpToCase (String.ofList core) word ↔ String.ofList (core.map lowerAscii) = word := by
    rw [← equalsIgnoringCase_iff, equalsIgnoringCase, beq_iff_eq, map_lowerAscii_words mem,
      String.toList_ofList, ← String.toList_inj, String.toList_ofList]
  constructor
  · exact fun mem => ⟨_, mem, (same mem).mpr rfl⟩
  · rintro ⟨word, mem, alike⟩
    exact (same mem).mp alike ▸ mem

/-- No word stands for both positions. -/
lemma notMem_words_not {word : String} {position : Bool} (mem : word ∈ words position) :
    word ∉ words (!position) := by
  have apart : ∀ position, (words position).all (fun word => word ∉ words (!position)) = true := by
    decide
  exact of_decide_eq_true (List.all_eq_true.mp (apart position) word mem)

/-- A text is read as the position of the switch that it stands for. -/
lemma readSwitch?_eq_some_iff {s : String} {position : Bool} :
    readSwitch? s = some position ↔ IsSwitch s position := by
  have lowered : IsSwitch s position ↔
      String.ofList ((Text.trim s.toList).map lowerAscii) ∈ words position := by
    rw [lowered_mem_words_iff]
    constructor
    · rintro ⟨core, left, given⟩
      rwa [left.trim_eq]
    · exact fun given => ⟨_, Text.trimmed_trim s.toList, given⟩
  rw [lowered, readSwitch?]
  generalize String.ofList ((Text.trim s.toList).map lowerAscii) = word
  change (if word ∈ words true then some true else if word ∈ words false then some false
    else none) = some position ↔ word ∈ words position
  by_cases on : word ∈ words true
  · have off : word ∉ words false := notMem_words_not on
    cases position <;> simp [on, off]
  · cases position <;> simp [on]

/-! ### Settings and their variables -/

/-- A setting is what the text of its variable stands for, or else its default. -/
structure Decided {α : Type} (stands : String → α → Prop) (default : α) (text : Option String)
    (setting : α) : Prop where
  set : ∀ s ∈ text, ∀ value, stands s value → setting = value
  unset : (∀ s ∈ text, ∀ value, ¬stands s value) → setting = default

lemma decided_of_read {α : Type} {stands : String → α → Prop} {read : String → Option α}
    (reads : ∀ s value, read s = some value ↔ stands s value) (default : α)
    (text : Option String) : Decided stands default text ((text.bind read).getD default) := by
  constructor
  · rintro s rfl value means
    rw [Option.bind_some, (reads s value).mpr means, Option.getD_some]
  · intro meaningless
    have unread : text.bind read = none := by
      rw [Option.bind_eq_none_iff]
      exact fun s mem => Option.eq_none_iff_forall_ne_some.mpr fun value given =>
        meaningless s mem value ((reads s value).mp given)
    rw [unread, Option.getD_none]

/-- Each setting is decided by its own variable. -/
lemma ofLookup_decided (lookup : String → Option String) :
    Decided (fun s n => IsNumber s n ∧ n < Nat.pow 2 64) 300 (lookup "TOOLCACHE_DEFAULT_TTL")
        (ofLookup lookup).usual.toNat ∧
      Decided (fun s n => IsNumber s n ∧ n < Nat.pow 2 64) 3600 (lookup "TOOLCACHE_MAX_TTL")
        (ofLookup lookup).greatest.toNat ∧
      Decided IsSwitch false (lookup "TOOLCACHE_ALLOW_UNSAFE") (ofLookup lookup).unsafeAllowed := by
  have reads (s : String) (n : Nat) :
      (readWord? s).map UInt64.toNat = some n ↔ IsNumber s n ∧ n < Nat.pow 2 64 := by
    simp only [Option.map_eq_some_iff, readWord?_eq_some_iff]
    constructor
    · rintro ⟨word, number, rfl⟩
      exact ⟨number, word.toNat_lt⟩
    · rintro ⟨number, fits⟩
      have exact : (UInt64.ofNat n).toNat = n := UInt64.toNat_ofNat_of_lt' fits
      exact ⟨UInt64.ofNat n, exact.symm ▸ number, exact⟩
  have worded (text : Option String) (default : UInt64) :
      ((text.bind readWord?).getD default).toNat =
        (text.bind fun s => (readWord? s).map UInt64.toNat).getD default.toNat := by
    cases text with
    | none => rfl
    | some s =>
        rw [Option.bind_some, Option.bind_some]
        cases readWord? s <;> rfl
  refine ⟨?_, ?_, decided_of_read (fun _ _ => readSwitch?_eq_some_iff) _ _⟩
  · rw [ofLookup, worded]
    exact decided_of_read reads _ _
  · rw [ofLookup, worded]
    exact decided_of_read reads _ _

end Settings

end ReadThrough
