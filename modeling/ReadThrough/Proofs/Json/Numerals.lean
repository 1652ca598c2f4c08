import Mathlib.Tactic.Common
import ReadThrough.Proofs.Json.Grammar
import ReadThrough.Proofs.Number.ReadBack
import ReadThrough.Proofs.Value.Equivalent
import ReadThrough.Value.Json

/-!
The texts of numbers are JSON numbers.

* `natText_leading`, `natText_mul_ten_pow`: the digits of whole numbers.
* `Numeral.writes_text`: a decimal in canonical layout is the text of a numeral, which either is
  whole or has the digits and the exponent of the decimal.
* `standsAlike_of_numberText?`: the canonical text of every number but NaN and the infinities stands
  for a number with the same canonical text. The text of a double may be that of a whole number, for
  which it stands then; every other one stands for its double.
-/

namespace ReadThrough.Json

/-! ### Digits and what they stand for -/

lemma isDigit_eq (c : Char) : isDigit c = c.isDigit := by
  rfl

lemma digits_natText (n : Nat) : Digits (natText n) :=
  ⟨Nat.toDigits_ne_nil, fun c mem => by rw [isDigit_eq]; exact isDigit_of_mem_natText mem⟩

/-- Zeros on the left of digits are digits. -/
lemma Digits.pad {digits : List Char} (h : Digits digits) (zeros : Nat) :
    Digits (List.replicate zeros '0' ++ digits) := by
  refine ⟨fun none => h.1 (List.append_eq_nil_iff.mp none).2, fun c mem => ?_⟩
  rcases List.mem_append.mp mem with mem | mem
  · rw [List.eq_of_mem_replicate mem]
    rfl
  · exact h.2 c mem

/-- Digits stand for a number below the power of ten with as many zeros. -/
lemma ofDigitChars_lt {cs : List Char} (digits : ∀ c ∈ cs, isDigit c = true) :
    Nat.ofDigitChars 10 cs 0 < 10 ^ cs.length := by
  induction cs with
  | nil => decide
  | cons c cs ih =>
      have rest := ih fun d mem => digits d (List.mem_cons_of_mem _ mem)
      have first : c.toNat - 48 + 1 ≤ 10 := by
        have := digits c List.mem_cons_self
        simp only [isDigit, Bool.and_eq_true, decide_eq_true_eq] at this
        omega
      rw [Nat.ofDigitChars_cons, Nat.ofDigitChars_eq_ofDigitChars_zero, List.length_cons,
        Nat.mul_zero, Nat.zero_add]
      calc
        10 ^ cs.length * (c.toNat - 48) + Nat.ofDigitChars 10 cs 0
          < 10 ^ cs.length * (c.toNat - 48) + 10 ^ cs.length := by omega
        _ = 10 ^ cs.length * (c.toNat - 48 + 1) := (Nat.mul_succ ..).symm
        _ ≤ 10 ^ cs.length * 10 := Nat.mul_le_mul_left _ first

/-- The digits of a number do not start with a zero, except those of zero itself. -/
lemma natText_leading {n : Nat} {rest : List Char} (h : natText n = '0' :: rest) : rest = [] := by
  by_contra more
  have value : Nat.ofDigitChars 10 rest 0 = n := by
    have := ofDigitChars_natText n
    rwa [h, Nat.ofDigitChars_cons] at this
  have digits := (digits_natText n).2
  rw [h] at digits
  have small := ofDigitChars_lt fun c mem => digits c (List.mem_cons_of_mem _ mem)
  rw [value, ← Nat.length_toDigits_le_iff (by decide) (List.length_pos_iff.mpr more)] at small
  have length := congrArg List.length h
  rw [natText, List.length_cons] at length
  omega

/-- The digits of a multiple of a power of ten. -/
lemma natText_mul_ten_pow {n : Nat} (nonzero : n ≠ 0) (zeros : Nat) :
    natText (n * 10 ^ zeros) = natText n ++ List.replicate zeros '0' := by
  induction zeros with
  | zero => simp
  | succ zeros ih =>
      have positive : 0 < n * 10 ^ zeros :=
        Nat.mul_pos (Nat.pos_of_ne_zero nonzero) (Nat.pow_pos (by decide))
      have shifted : n * 10 ^ (zeros + 1) = 10 * (n * 10 ^ zeros) + 0 := by
        rw [Nat.pow_succ, ← Nat.mul_assoc, Nat.mul_comm, Nat.add_zero]
      rw [List.replicate_succ', ← List.append_assoc, ← ih, shifted, natText,
        ← Nat.toDigits_append_toDigits (by decide) positive (by decide)]
      rfl

lemma whole_natText (n : Nat) : Grammar.Whole (natText n) := by
  cases shape : natText n with
  | nil => exact absurd shape (digits_natText n).1
  | cons c rest =>
      by_cases zero : c = '0'
      · subst zero
        rw [natText_leading shape]
        exact .zero
      · exact .digits zero (shape ▸ digits_natText n)

/-- The first digits of a number, but not all, do not start with a zero. -/
lemma whole_take {n k : Nat} (some_digit : k ≠ 0) (inside : k < (natText n).length) :
    Grammar.Whole ((natText n).take k) := by
  have digits := (digits_natText n).2
  have together := List.take_append_drop k (natText n)
  cases shape : (natText n).take k with
  | nil =>
      have length := List.length_take (i := k) (l := natText n)
      rw [shape, List.length_nil] at length
      omega
  | cons c rest =>
      have whole : Digits (c :: rest) := ⟨List.cons_ne_nil c rest, fun x mem =>
        digits x (List.mem_of_mem_take (shape ▸ mem))⟩
      refine .digits (fun zero => ?_) whole
      rw [shape, zero, List.cons_append] at together
      have alone := List.append_eq_nil_iff.mp (natText_leading together.symm)
      have length := List.length_drop (i := k) (l := natText n)
      rw [alone.2, List.length_nil] at length
      omega

namespace Numeral

/-- Zeros on the left of digits count for nothing. -/
lemma value_pad (zeros n : Nat) : value (List.replicate zeros '0' ++ natText n) = n := by
  rw [value, Nat.ofDigitChars_append, Nat.ofDigitChars_replicate_zero, Nat.mul_zero,
    ofDigitChars_natText]

/-! ### Decimals as numerals -/

/-- A numeral stands for a decimal: it has the digits and the exponent of the decimal, or it is
whole, a little number without zeros on the left. -/
inductive Denotes (d : Decimal) (n : Numeral) : Prop
  | whole (k : Nat) (nonzero : k ≠ 0) (small : k < 10 ^ 6) (digits : n.whole = natText k)
      (no_fraction : n.fraction = []) (no_exponent : n.exponent = none)
  | scaled (parts : n.isWhole = false) (digits : value (n.whole ++ n.fraction) = d.digits)
      (exponent : n.scale = d.exponent)

/-- Whether a text is, behind a sign, that of a numeral that stands for a decimal. -/
def Writes (negative : Bool) (d : Decimal) (cs : List Char) : Prop :=
  ∃ n, Grammar.Numeral ((if negative then ['-'] else []) ++ cs) n ∧ n.negative = negative ∧
    Denotes d n

variable {d : Decimal}

/-- A whole number, with or without a sign in front of its digits. -/
lemma numeral_whole (negative : Bool) (k : Nat) :
    Grammar.Numeral ((if negative then ['-'] else []) ++ natText k)
      ⟨negative, natText k, [], none⟩ := by
  have parts := Grammar.Numeral.parts negative (whole_natText k) .absent .absent
  rwa [List.nil_append, List.append_nil] at parts

/-- A numeral without point and exponent has no other text. -/
lemma eq_of_numeral_whole {cs whole : List Char} {negative : Bool}
    (h : Grammar.Numeral cs ⟨negative, whole, [], none⟩) :
    cs = (if negative then ['-'] else []) ++ whole := by
  cases h with
  | parts _ is_whole is_fraction is_power =>
      cases is_power
      cases is_fraction with
      | absent => rw [List.nil_append, List.append_nil]
      | present digits => exact absurd rfl digits.1

/-- A decimal without places after the point. -/
lemma writes_whole (nonzero : d.digits ≠ 0) (negative : Bool) {zeros : Nat}
    (exponent : d.exponent = zeros) (small : d.leading < 6) :
    Writes negative d (natText d.digits ++ List.replicate zeros '0') := by
  have positive : d.digits * 10 ^ zeros ≠ 0 :=
    Nat.mul_ne_zero nonzero (Nat.ne_of_gt (Nat.pow_pos (by decide)))
  have length := congrArg List.length (natText_mul_ten_pow nonzero zeros)
  rw [← natText_mul_ten_pow nonzero]
  refine ⟨_, numeral_whole negative _, rfl, .whole _ positive ?_ rfl rfl rfl⟩
  have some_digit : 0 < (natText d.digits).length := Nat.length_toDigits_pos
  rw [← Nat.length_toDigits_le_iff (by decide) (by decide)]
  rw [List.length_append, List.length_replicate, natText] at length
  rw [Decimal.leading, exponent] at small
  omega

/-- A decimal with a point, whatever stands before it. -/
lemma writes_point (negative : Bool) {whole fraction : List Char} (is_whole : Grammar.Whole whole)
    (places : Digits fraction) (number : value (whole ++ fraction) = d.digits)
    (exponent : d.exponent = -(fraction.length : Int)) :
    Writes negative d (whole ++ '.' :: fraction) := by
  have parts := Grammar.Numeral.parts negative is_whole (.present places) .absent
  rw [List.append_nil] at parts
  refine ⟨_, parts, rfl, .scaled ?_ number (by simp [scale, exponent])⟩
  simpa [isWhole] using places.1

/-- A decimal with a point between its digits. -/
lemma writes_split (negative : Bool) {places : Nat} (exponent : d.exponent = -(places : Int))
    (some_place : places ≠ 0) (inside : places < (natText d.digits).length) :
    Writes negative d ((natText d.digits).take ((natText d.digits).length - places) ++
      '.' :: (natText d.digits).drop ((natText d.digits).length - places)) := by
  have digits := (digits_natText d.digits).2
  have together := List.take_append_drop ((natText d.digits).length - places) (natText d.digits)
  have fraction_length := List.length_drop (i := (natText d.digits).length - places)
    (l := natText d.digits)
  refine writes_point negative (whole_take (by omega) (by omega))
    ⟨?_, fun c mem => digits c (List.mem_of_mem_drop mem)⟩ ?_ ?_
  · intro none
    rw [none, List.length_nil] at fraction_length
    omega
  · rw [together, value, ofDigitChars_natText]
  · omega

/-- A decimal below one. -/
lemma writes_small (negative : Bool) {places : Nat} (exponent : d.exponent = -(places : Int))
    (outside : (natText d.digits).length ≤ places) :
    Writes negative d (['0'] ++ '.' ::
      (List.replicate (places - (natText d.digits).length) '0' ++ natText d.digits)) := by
  refine writes_point negative .zero ((digits_natText d.digits).pad _)
    (value_pad (_ + 1) d.digits) ?_
  rw [List.length_append, List.length_replicate, exponent]
  omega

/-- The text of an exponent stands for the exponent. -/
lemma exists_exponent (e : Int) :
    ∃ x : Exponent, Grammar.Power ('e' :: Decimal.exponentText Layout.canonical e) (some x) ∧
      x.power = e := by
  have digits := (digits_natText e.natAbs).pad (2 - (natText e.natAbs).length)
  have magnitude : Nat.ofDigitChars 10 (List.replicate (2 - (natText e.natAbs).length) '0' ++
    natText e.natAbs) 0 = e.natAbs := value_pad _ _
  by_cases negative : e < 0
  · refine ⟨⟨true, List.replicate (2 - (natText e.natAbs).length) '0' ++ natText e.natAbs⟩, ?_, ?_⟩
    · rw [Decimal.exponentText, if_pos negative]
      exact .minus (by decide) digits
    · simp only [Exponent.power, Exponent.signed, magnitude, if_true]
      omega
  · refine ⟨⟨false, List.replicate (2 - (natText e.natAbs).length) '0' ++ natText e.natAbs⟩, ?_, ?_⟩
    · rw [Decimal.exponentText, if_neg negative]
      exact .plus (by decide) digits
    · simp only [Exponent.power, Exponent.signed, magnitude, Bool.false_eq_true, if_false]
      omega

/-- A decimal with an exponent. -/
lemma writes_scientific (negative : Bool) :
    Writes negative d (d.scientificText Layout.canonical) := by
  obtain ⟨x, is_power, power⟩ := exists_exponent d.leading
  obtain ⟨first, others, shape⟩ := List.exists_cons_of_ne_nil (digits_natText d.digits).1
  have all := (digits_natText d.digits).2
  rw [shape] at all
  have whole : Grammar.Whole [first] := by
    by_cases zero : first = '0'
    · rw [zero]
      exact .zero
    · refine .digits zero ⟨by simp, fun c mem => ?_⟩
      rw [List.mem_singleton.mp mem]
      exact all first List.mem_cons_self
  have value : value ([first] ++ others) = d.digits := by
    show value (first :: others) = d.digits
    rw [← shape, value, ofDigitChars_natText]
  have exponent : x.power - (others.length : Int) = d.exponent := by
    rw [power, Decimal.leading, shape, List.length_cons]
    omega
  rw [Decimal.scientificText, shape]
  cases others with
  | nil => exact ⟨_, .parts negative whole .absent is_power, rfl, .scaled rfl value exponent⟩
  | cons second others =>
      have places : Digits (second :: others) := ⟨List.cons_ne_nil second others, fun c mem =>
        all c (List.mem_cons_of_mem _ mem)⟩
      exact ⟨_, .parts negative whole (.present places) is_power, rfl, .scaled rfl value exponent⟩

/-- A decimal other than zero in canonical layout. -/
lemma writes_text (nonzero : d.digits ≠ 0) (negative : Bool) :
    Writes negative d (d.text Layout.canonical) := by
  rw [Decimal.text]
  split
  · rename_i plain
    rw [Decimal.plainText]
    cases exponent : d.exponent with
    | ofNat zeros =>
        have whole := writes_whole nonzero negative exponent plain.2
        simpa [Layout.canonical] using whole
    | negSucc n =>
        have places : d.exponent = -((n + 1 : Nat) : Int) := by
          rw [exponent]
          omega
        simp only
        split
        · exact writes_split negative places (Nat.succ_ne_zero n) ‹_›
        · exact writes_small negative places (Nat.le_of_not_lt ‹_›)
  · exact writes_scientific negative

end Numeral

/-! ### The texts of numbers -/

/-- Whether a text stands for a number with the same canonical text. -/
def StandsAlike (digits : List Char) : Prop :=
  ∃ number, Grammar.Number digits number ∧ (Value.ofNumber number).numberText? = some digits

/-- A whole number without a sign. -/
lemma standsAlike_natural {k : Nat} (fits : k < 2 ^ 64) : StandsAlike (natText k) := by
  have value : Numeral.value (natText k) = k := ofDigitChars_natText k
  have toNat : (UInt64.ofNat k).toNat = k := UInt64.toNat_ofNat_of_lt' fits
  have word : Numeral.FitsWord ⟨false, natText k, [], none⟩ := ⟨rfl, by simpa [value] using fits⟩
  refine ⟨_, ⟨_, Numeral.numeral_whole false k, .natural word rfl⟩, ?_⟩
  simp only [value, Value.ofNumber, Value.ofUInt64, toNat, Nat.pow_eq]
  split
  · rename_i small
    have toInt : (Int64.ofNat k).toInt = (k : Int) := Int64.toInt_ofNat_of_lt small
    rw [Value.numberText?, toInt, intText, if_neg (by omega), Int.natAbs_natCast]
  · rw [Value.numberText?, toNat]

/-- A whole number with a sign. -/
lemma standsAlike_negative {k : Nat} (nonzero : k ≠ 0) (fits : k ≤ 2 ^ 63) :
    StandsAlike ('-' :: natText k) := by
  have value : Numeral.value (natText k) = k := ofDigitChars_natText k
  have toInt : (Int64.ofInt (-(k : Int))).toInt = -(k : Int) :=
    Int64.toInt_ofInt_of_le (by omega) (by omega)
  have below : Int64.ofInt (-(k : Int)) < 0 := by
    rw [Int64.lt_iff_toInt_lt, toInt]
    show -(k : Int) < 0
    omega
  have word : Numeral.FitsWord ⟨true, natText k, [], none⟩ :=
    ⟨rfl, by simpa [value] using ⟨nonzero, fits⟩⟩
  refine ⟨_, ⟨_, Numeral.numeral_whole true k, .negative word rfl (by rwa [value])⟩, ?_⟩
  rw [Value.ofNumber, Value.numberText?, value, toInt, intText, if_pos (by omega), Int.natAbs_neg,
    Int.natAbs_natCast]

lemma standsAlike_int (n : Int64) : StandsAlike (intText n.toInt) := by
  have low := n.le_toInt
  have high := n.toInt_lt
  rw [intText]
  split
  · exact standsAlike_negative (by omega) (by omega)
  · exact standsAlike_natural (by omega)

/-- A finite double other than zero stands as it is, or if its text is that of a whole number, this
does. -/
lemma standsAlike_real {x : Binary64} (finite : x.isFinite = true) (nonzero : x.isZero = false) :
    StandsAlike (x.signText ++ x.cell.text Layout.canonical) := by
  have nearest := Binary64.nearestTo_shortest nonzero Layout.canonical.tie
  obtain ⟨n, written, sign, denotes⟩ := Numeral.writes_text (nearest.digits_ne_zero nonzero)
    x.isNegative
  have text : Grammar.Numeral (x.signText ++ x.cell.text Layout.canonical) n := written
  cases denotes with
  | whole k nonzero small whole no_fraction no_exponent =>
      obtain ⟨negative, whole, fraction, exponent⟩ := n
      simp only at whole no_fraction no_exponent
      subst whole no_fraction no_exponent
      rw [Numeral.eq_of_numeral_whole text]
      cases negative with
      | true => exact standsAlike_negative nonzero (by omega)
      | false => exact standsAlike_natural (by omega)
  | scaled parts digits exponent =>
      have beyond : ¬n.FitsWord := fun fits => by
        rw [fits.1] at parts
        contradiction
      rw [← digits, ← exponent] at nearest
      refine ⟨_, ⟨n, text, .real beyond finite sign.symm nearest⟩, ?_⟩
      rw [Value.ofNumber, Value.numberText?, Binary64.text_of_isFinite finite,
        if_neg (by simp [nonzero])]

/-- The text of a number that is neither NaN nor infinite stands for a number with the same text. -/
theorem standsAlike_of_numberText? {v : Value} {digits : List Char}
    (number : v.numberText? = some digits)
    (finite : ∀ x, v = .float x → x.isFinite = true) : StandsAlike digits := by
  cases v with
  | int n =>
      rw [← Option.some.inj number]
      exact standsAlike_int n
  | uint n =>
      rw [← Option.some.inj number]
      exact standsAlike_natural n.toNat_lt
  | float x =>
      rw [← Option.some.inj number, Binary64.text_of_isFinite (finite x rfl)]
      split
      · exact standsAlike_natural (k := 0) (by decide)
      · exact standsAlike_real (finite x rfl) (by simpa using ‹¬x.isZero = true›)
  | _ => cases number

end ReadThrough.Json
