import Mathlib.Tactic.Common
import ReadThrough.Json.Reader
import ReadThrough.Proofs.Json.Grammar
import ReadThrough.Proofs.Number.Numeral
import ReadThrough.Proofs.Number.ReadBack
import ReadThrough.Proofs.Text.Quoting

/-!
Numerals and quoted texts are read as what they stand for.

* `Ends`: a text in front of which a value ends.
* `read_numeral`, `number?_eq`: a numeral is read to its end, and as the number that it stands for
  if the nearest doubles are found.
* `quoted_text`: a quoted text is read as what it stands for.
-/

namespace ReadThrough.Json

/-! ### What follows a value -/

/-- The characters that may stand right behind a value: white space, a comma and the closing
brackets. -/
def endings : List Char := Grammar.spaces ++ [',', ']', '\x7d']

/-- A text in front of which a value ends: it is empty or starts with one of these characters. -/
def Ends (rest : List Char) : Prop :=
  ∀ c ∈ rest.head?, c ∈ endings

/-- A text does not start with a character. -/
def StartsWithout (c : Char) (rest : List Char) : Prop :=
  ∀ d ∈ rest.head?, d ≠ c

/-- A text does not start with a digit. -/
def StartsWithoutDigit (rest : List Char) : Prop :=
  ∀ c ∈ rest.head?, isDigit c = false

lemma ends_cons {c : Char} {rest : List Char} (h : c ∈ endings) : Ends (c :: rest) := by
  intro d mem
  rw [← Option.some.inj mem]
  exact h

lemma Ends.startsWithout {rest : List Char} (h : Ends rest) {c : Char}
    (other : c ∉ endings) : StartsWithout c rest :=
  fun d mem same => other (same ▸ h d mem)

lemma Ends.startsWithoutDigit {rest : List Char} (h : Ends rest) : StartsWithoutDigit rest := by
  have none : ∀ c ∈ endings, isDigit c = false := by simp [endings, Grammar.spaces, isDigit]
  exact fun c mem => none c (h c mem)

/-- White space may stand between a value and what ends it. -/
lemma Ends.blank {blank rest : List Char} (h : Ends rest) (white : Grammar.Blank blank) :
    Ends (blank ++ rest) := by
  cases blank with
  | nil => exact h
  | cons c blank => exact ends_cons (List.mem_append_left _ (white c List.mem_cons_self))

/-! ### White space -/

lemma skipSpace_cons {c : Char} (solid : isSpace c = false) (cs : List Char) :
    skipSpace (c :: cs) = c :: cs := by
  rw [skipSpace, List.dropWhile_cons, solid]
  rfl

lemma skipSpace_blank {blank : List Char} (white : Grammar.Blank blank) (cs : List Char) :
    skipSpace (blank ++ cs) = skipSpace cs := by
  have space : ∀ c ∈ Grammar.spaces, isSpace c = true := by simp [Grammar.spaces, isSpace]
  exact List.dropWhile_append_of_pos fun c mem => space c (white c mem)

/-! ### Numerals -/

lemma readDigits_append {digits rest : List Char} (h : Digits digits)
    (stop : StartsWithoutDigit rest) :
    Numeral.readDigits (digits ++ rest) = some (digits, rest) := by
  have none_left : rest.takeWhile isDigit = [] ∧ rest.dropWhile isDigit = rest := by
    cases rest with
    | nil => exact ⟨rfl, rfl⟩
    | cons c rest =>
        have other : isDigit c = false := stop c rfl
        rw [List.takeWhile_cons, List.dropWhile_cons, other]
        exact ⟨rfl, rfl⟩
  rw [Numeral.readDigits, List.takeWhile_append_of_pos h.2, List.dropWhile_append_of_pos h.2,
    none_left.1, none_left.2, List.append_nil]
  cases digits with
  | nil => exact absurd rfl h.1
  | cons c digits => rfl

lemma readWhole_append {whole rest : List Char} (h : Grammar.Whole whole)
    (stop : StartsWithoutDigit rest) : Numeral.readWhole (whole ++ rest) = some (whole, rest) := by
  cases h with
  | zero =>
      rw [Numeral.readWhole, readDigits_append ⟨by simp, by simp [isDigit]⟩ stop]
      rfl
  | digits first all =>
      rw [Numeral.readWhole, readDigits_append all stop]
      split
      · rename_i same
        simp only [Option.some.injEq, Prod.mk.injEq] at same
        exact absurd (List.cons.inj same.1).1 first
      · rfl

lemma readFraction_append {point fraction rest : List Char} (h : Grammar.Fraction point fraction)
    (stop : StartsWithoutDigit rest) (no_point : StartsWithout '.' rest) :
    Numeral.readFraction (point ++ rest) = some (fraction, rest) := by
  cases h with
  | absent =>
      rw [List.nil_append, Numeral.readFraction.eq_def]
      split
      · exact absurd rfl (no_point '.' rfl)
      · rfl
  | present digits => exact readDigits_append digits stop

lemma readExponentValue_append {digits rest : List Char} (h : Digits digits)
    (stop : StartsWithoutDigit rest) :
    Numeral.readExponentValue (digits ++ rest) = some (⟨false, digits⟩, rest) := by
  have found := readDigits_append h stop
  cases digits with
  | nil => exact absurd rfl h.1
  | cons c digits =>
      have digit := h.2 c List.mem_cons_self
      rw [Numeral.readExponentValue.eq_def]
      split
      · rename_i same
        rw [(List.cons.inj same).1] at digit
        exact absurd digit (by decide)
      · rename_i same
        rw [(List.cons.inj same).1] at digit
        exact absurd digit (by decide)
      · rw [found]
        rfl

lemma readExponent_append {power rest : List Char} {exponent : Option Exponent}
    (h : Grammar.Power power exponent) (ends : Ends rest) :
    Numeral.readExponent (power ++ rest) = some (exponent, rest) := by
  have letters : ∀ {letter : Char} {cs : List Char} {e : Exponent}, letter ∈ ['e', 'E'] →
      Numeral.readExponentValue cs = some (e, rest) →
        Numeral.readExponent (letter :: cs) = some (some e, rest) := by
    intro letter cs e known found
    rcases List.mem_cons.mp known with rfl | known
    · rw [Numeral.readExponent, found]
      rfl
    · rw [List.mem_singleton.mp known, Numeral.readExponent, found]
      rfl
  cases h with
  | absent =>
      rw [List.nil_append, Numeral.readExponent.eq_def]
      split
      · exact absurd rfl (ends.startsWithout (c := 'e') (by decide) 'e' rfl)
      · exact absurd rfl (ends.startsWithout (c := 'E') (by decide) 'E' rfl)
      · rfl
  | unsigned known digits =>
      exact letters known (readExponentValue_append digits ends.startsWithoutDigit)
  | @plus letter cs known digits =>
      have found : Numeral.readExponentValue ('+' :: (cs ++ rest)) = some (⟨false, cs⟩, rest) := by
        rw [Numeral.readExponentValue.eq_def]
        simp only [readDigits_append digits ends.startsWithoutDigit, Option.map_some]
      exact letters known found
  | @minus letter cs known digits =>
      have found : Numeral.readExponentValue ('-' :: (cs ++ rest)) = some (⟨true, cs⟩, rest) := by
        rw [Numeral.readExponentValue.eq_def]
        simp only [readDigits_append digits ends.startsWithoutDigit, Option.map_some]
      exact letters known found

/-- A numeral starts with a digit or a minus sign. -/
lemma numeral_starts {cs : List Char} {n : Numeral} (h : Grammar.Numeral cs n) :
    ∃ c rest, cs = c :: rest ∧ startsNumber c = true := by
  cases h with
  | parts negative is_whole is_fraction is_power =>
      cases negative with
      | true => exact ⟨'-', _, rfl, rfl⟩
      | false =>
          cases is_whole with
          | zero => exact ⟨'0', _, rfl, rfl⟩
          | @digits c rest first all =>
              have digit : c.isDigit = true := all.2 c List.mem_cons_self
              exact ⟨c, _, rfl, by simp [startsNumber, digit]⟩

/-- A numeral is read to its end. -/
lemma read_numeral {cs : List Char} {n : Numeral} (h : Grammar.Numeral cs n) {rest : List Char}
    (ends : Ends rest) : Numeral.read (cs ++ rest) = some (n, rest) := by
  cases h with
  | @parts negative whole point fraction power exponent is_whole is_fraction is_power =>
      have after_fraction : StartsWithoutDigit (power ++ rest) ∧
          StartsWithout '.' (power ++ rest) := by
        have letters : ∀ letter ∈ ['e', 'E'], isDigit letter = false ∧ letter ≠ '.' := by
          simp [isDigit]
        cases is_power with
        | absent => exact ⟨ends.startsWithoutDigit, ends.startsWithout (by decide)⟩
        | unsigned known _ => simpa [StartsWithoutDigit, StartsWithout] using letters _ known
        | plus known _ => simpa [StartsWithoutDigit, StartsWithout] using letters _ known
        | minus known _ => simpa [StartsWithoutDigit, StartsWithout] using letters _ known
      have after_whole : StartsWithoutDigit (point ++ (power ++ rest)) := by
        cases is_fraction with
        | absent => exact after_fraction.1
        | present _ => simp [StartsWithoutDigit, isDigit]
      have unsigned : ∀ sign, Numeral.readUnsigned sign (whole ++ (point ++ (power ++ rest))) =
          some (⟨sign, whole, fraction, exponent⟩, rest) := by
        intro sign
        simp [Numeral.readUnsigned, readWhole_append is_whole after_whole,
          readFraction_append is_fraction after_fraction.1 after_fraction.2,
          readExponent_append is_power ends]
      rw [List.append_assoc, List.append_assoc, List.append_assoc]
      cases negative with
      | true => exact unsigned true
      | false =>
          rw [if_neg Bool.false_ne_true, List.nil_append, Numeral.read.eq_def]
          split
          · rename_i same
            cases is_whole with
            | zero => exact absurd (List.cons.inj same).1 (by decide)
            | digits _ all =>
                have digit := all.2 _ List.mem_cons_self
                rw [(List.cons.inj same).1] at digit
                exact absurd digit (by decide)
          · exact unsigned false

/-! ### Numbers -/

/-- Digits are gathered in a word if it holds their number. -/
lemma gatherDigits_of_lt {digits : List Char} (fits : Numeral.value digits < 2 ^ 64) :
    gatherDigits 0 digits = (UInt64.ofNat (Numeral.value digits), []) :=
  gatherDigits_eq digits 0 fits

/-- A whole number is read as such only if a word holds it. -/
lemma wholeNumber?_eq_none {n : Numeral} (whole : n.isWhole = true) (beyond : ¬n.FitsWord) :
    n.wholeNumber? = none := by
  rw [Numeral.FitsWord, not_and] at beyond
  have beyond := beyond whole
  rw [Numeral.wholeNumber?]
  by_cases fits : Numeral.value n.whole < 2 ^ 64
  · rw [gatherDigits_of_lt fits]
    have toNat : (UInt64.ofNat (Numeral.value n.whole)).toNat = Numeral.value n.whole :=
      UInt64.toNat_ofNat_of_lt' fits
    cases sign : n.negative with
    | false =>
        rw [sign, if_neg Bool.false_ne_true] at beyond
        exact absurd fits beyond
    | true =>
        simp only [sign, if_true, not_and] at beyond
        simp only [if_true, toNat]
        split
        · rfl
        · rename_i nonzero
          have some_unit : Numeral.value n.whole ≠ 0 := fun zero => nonzero (by rw [zero]; rfl)
          have large := beyond some_unit
          have below : ¬(0 : Int) ≤ -(Numeral.value n.whole : Int) := by omega
          have range : ¬-((Nat.pow 2 63 : Nat) : Int) ≤ -(Numeral.value n.whole : Int) := by
            rw [Nat.pow_eq]
            omega
          rw [Number.ofInt?, if_neg below]
          exact if_neg range
  · have left := gatherDigits_left n.whole 0 (Nat.le_of_not_lt fits)
    split
    · rename_i none_left
      rw [none_left] at left
      exact absurd rfl left
    · rfl

/-- A numeral is read as the number that it stands for. -/
lemma number?_eq {n : Numeral} {number : Number} (h : n.Stands number) :
    n.number? .nearest = some number := by
  cases h with
  | natural fits sign =>
      obtain ⟨whole, fits⟩ := fits
      rw [sign, if_neg Bool.false_ne_true] at fits
      simp [Numeral.number?, whole, Numeral.wholeNumber?, gatherDigits_of_lt fits, sign]
  | negative fits sign below =>
      obtain ⟨whole, fits⟩ := fits
      rw [sign, if_pos rfl] at fits
      have small : Numeral.value n.whole < 2 ^ 64 := by omega
      have toNat : (UInt64.ofNat (Numeral.value n.whole)).toNat = Numeral.value n.whole :=
        UInt64.toNat_ofNat_of_lt' small
      have word : UInt64.ofNat (Numeral.value n.whole) ≠ 0 := fun zero =>
        fits.1 (by rw [← toNat, zero]; rfl)
      have not_natural : ¬(0 : Int) ≤ -(Numeral.value n.whole : Int) := by omega
      have range : -((Nat.pow 2 63 : Nat) : Int) ≤ -(Numeral.value n.whole : Int) :=
        Int.neg_le_neg (Int.ofNat_le.mpr fits.2)
      have signed : Number.ofInt? (-(Numeral.value n.whole : Int)) = some (.negative _ below) := by
        rw [Number.ofInt?, if_neg not_natural]
        refine (if_pos range).trans ?_
        rw [Number.ofInt64, dif_pos below]
      simp [Numeral.number?, whole, Numeral.wholeNumber?, gatherDigits_of_lt small, sign, word,
        toNat, signed]
  | @real beyond x finite sign nearest =>
      have found : n.toReal .nearest = x := by
        rw [Numeral.toReal, ← sign]
        exact Binary64.ofDecimal_eq finite nearest
      have not_whole : (if n.isWhole then n.wholeNumber? else none) = none := by
        split
        · exact wholeNumber?_eq_none ‹_› beyond
        · rfl
      rw [Numeral.number?, not_whole, found]
      simp [Number.ofReal?, finite]

/-! ### Quoted texts -/

lemma readQuad_append {cs : List Char} {n : Nat} (h : Grammar.Quad cs n) (rest : List Char) :
    Quoted.readQuad (cs ++ rest) = some (n, rest) := by
  cases h with
  | digits first second third fourth =>
      simp [Quoted.readQuad, first, second, third, fourth]

lemma readChar_append {cs : List Char} {c : Char} (h : Grammar.Character cs c) (rest : List Char) :
    Quoted.readChar (cs ++ rest) = some (c, rest) := by
  cases h with
  | plain printable _ no_backslash =>
      exact Quoted.readChar_plain no_backslash (Nat.not_lt.mpr printable) rest
  | @short letter c known =>
      simp only [Grammar.shortEscapes, List.mem_cons, Prod.mk.injEq, List.not_mem_nil,
        or_false] at known
      rcases known with ⟨rfl, rfl⟩ | ⟨rfl, rfl⟩ | ⟨rfl, rfl⟩ | ⟨rfl, rfl⟩ | ⟨rfl, rfl⟩ |
        ⟨rfl, rfl⟩ | ⟨rfl, rfl⟩ | ⟨rfl, rfl⟩ <;> rfl
  | @unicode cs n quad no_half =>
      have high : Quoted.isHighSurrogate n = false := by
        simp only [Quoted.isHighSurrogate, Bool.and_eq_false_iff, decide_eq_false_iff_not]
        omega
      have low : Quoted.isLowSurrogate n = false := by
        simp only [Quoted.isLowSurrogate, Bool.and_eq_false_iff, decide_eq_false_iff_not]
        omega
      show Quoted.readUnicode (cs ++ rest) = _
      simp [Quoted.readUnicode, readQuad_append quad, high, low]
  | @pair cs ds high low first second is_high is_low =>
      have is_high : Quoted.isHighSurrogate high = true := by
        simpa [Quoted.isHighSurrogate] using is_high
      have is_low : Quoted.isLowSurrogate low = true := by
        simpa [Quoted.isLowSurrogate] using is_low
      show Quoted.readUnicode (cs ++ '\\' :: 'u' :: ds ++ rest) = _
      rw [List.append_assoc]
      simp [Quoted.readUnicode, readQuad_append first, readQuad_append second, is_high, is_low]

/-- No character between quotes starts with a quote. -/
lemma character_append_ne {cs : List Char} {c : Char} (h : Grammar.Character cs c)
    (rest others : List Char) : cs ++ rest ≠ '"' :: others := by
  intro same
  cases h with
  | plain _ no_quote _ => exact no_quote (List.cons.inj same).1
  | _ => exact absurd (List.cons.inj same).1 (by decide)

lemma length_characters {cs body : List Char} (h : Grammar.Characters cs body) :
    body.length ≤ cs.length := by
  induction h with
  | nil => exact Nat.le_refl _
  | @cons cs rest c others character _ ih =>
      have some_length : 0 < cs.length := by
        cases character <;> simp
      rw [List.length_cons, List.length_append]
      omega

lemma readBody_append {cs body : List Char} (h : Grammar.Characters cs body) {limit : Nat}
    (fits : body.length ≤ limit) (rest : List Char) :
    Quoted.readBody limit (cs ++ '"' :: rest) = some (body, rest) := by
  induction h generalizing limit with
  | nil => simp [Quoted.readBody]
  | @cons cs others c body character _ ih =>
      obtain ⟨limit, rfl⟩ : ∃ n, limit = n + 1 :=
        Nat.exists_eq_succ_of_ne_zero (by rw [List.length_cons] at fits; omega)
      rw [List.append_assoc, Quoted.readBody.eq_def]
      split
      · exact absurd ‹_› (character_append_ne character _ _)
      · contradiction
      · rename_i same _
        obtain rfl := Nat.succ.inj same
        rw [readChar_append character]
        simp only [ih (by simpa using fits)]

/-- A quoted text is read as what it stands for. -/
lemma quoted_text {mode : Mode} {cs : List Char} {s : String} (h : Grammar.Text cs s)
    {rest : List Char} (fits : (cs ++ rest).length ≤ mode.limit) :
    quoted mode (cs ++ rest) = some (s, rest) := by
  cases h with
  | @quoted cs body characters =>
      have length := length_characters characters
      have body_fits : body.length ≤ mode.limit := by
        simp only [List.cons_append, List.length_cons, List.length_append] at fits
        omega
      have read := readBody_append characters body_fits rest
      rw [List.cons_append, List.append_assoc]
      simp only [Json.quoted, List.cons_append, List.nil_append, read]

end ReadThrough.Json
