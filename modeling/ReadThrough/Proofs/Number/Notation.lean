import ReadThrough.Proofs.Json.Numerals
import ReadThrough.Proofs.Json.Scalars
import ReadThrough.Proofs.Number.Fewest

/-!
The two notations of doubles, and what they stand for.

* `Plain`, `Scientific`: plain notation, which has no needless zeros, and notation with an exponent,
  each with the exact number that it stands for.
* `Decimal.leading_spec`: the exponent of the leading digit tells the size of a decimal.
* `Decimal.plain_plainText`, `Decimal.scientific_scientificText`: decimals are written so.
* `Plain.numeral`, `Scientific.numeral`: both notations are numerals, of the same exact number.
* `Binary64.text_exact_fewest`: the text of a double is that of a decimal that is rounded to the
  double, with the fewest digits and nearest to the double; its notation is told by the size of the
  decimal, and it is read back as the double.
-/

namespace ReadThrough

open Json

/-! ### Notations -/

/-- Plain notation of a number: a whole number, or digits around a point that do not end in a
zero. -/
inductive Plain : List Char → ℚ → Prop
  | whole {digits : List Char} (is_whole : Grammar.Whole digits) :
    Plain digits (Numeral.value digits)
  | point {whole fraction : List Char} (is_whole : Grammar.Whole whole) (digits : Digits fraction)
    (last : fraction.getLast? ≠ some '0') :
    Plain (whole ++ '.' :: fraction) (Numeral.value (whole ++ fraction) / 10 ^ fraction.length)

/-- A number with an exponent: a number with one digit before the point, the letter `e`, the sign
of the exponent, which is never left out, and its digits, of which there are two or as many as it
needs. -/
inductive Scientific : List Char → ℤ → ℚ → Prop
  | parts {mantissa power : List Char} {m : ℚ} {e : ℤ} (is_plain : Plain mantissa m)
    (one_le : 1 ≤ m) (lt_ten : m < 10) (digits : Digits power) (two : 2 ≤ power.length)
    (needed : 2 < power.length → Grammar.Whole power) (size : Numeral.value power = e.natAbs) :
    Scientific (mantissa ++ 'e' :: (if e < 0 then '-' else '+') :: power) e (m * 10 ^ e)

lemma notMem_e_of_digits {cs : List Char} (digits : ∀ c ∈ cs, isDigit c = true) : 'e' ∉ cs :=
  fun mem => absurd (digits 'e' mem) (by decide)

lemma Plain.notMem_e {cs : List Char} {q : ℚ} (plain : Plain cs q) : 'e' ∉ cs := by
  have whole : ∀ {digits}, Grammar.Whole digits → 'e' ∉ digits := by
    intro digits is_whole
    cases is_whole with
    | zero => simp
    | digits _ all => exact notMem_e_of_digits all.2
  cases plain with
  | whole is_whole => exact whole is_whole
  | point is_whole digits _ =>
      simp only [List.mem_append, List.mem_cons, not_or]
      exact ⟨whole is_whole, by decide, notMem_e_of_digits digits.2⟩

lemma Scientific.mem_e {cs : List Char} {e : ℤ} {q : ℚ} (h : Scientific cs e q) : 'e' ∈ cs := by
  cases h
  simp

/-! ### Numerals -/

lemma ends_nil : Ends [] := by
  simp [Ends]

namespace Json.Numeral

/-- The exact value of a numeral without its sign. -/
def magnitude (n : Numeral) : ℚ :=
  value (n.whole ++ n.fraction) * 10 ^ n.scale

/-- The exact value of a numeral. -/
def rational (n : Numeral) : ℚ :=
  (if n.negative then -1 else 1) * n.magnitude

end Json.Numeral

/-- Plain notation with a power of ten behind it, if any, is that of a numeral. -/
lemma Plain.numeral_power {cs power : List Char} {q : ℚ} {exponent : Option Exponent}
    (plain : Plain cs q) (negative : Bool) (is_power : Grammar.Power power exponent) :
    ∃ n : Numeral, Grammar.Numeral ((if negative then ['-'] else []) ++ (cs ++ power)) n ∧
      n.negative = negative ∧ n.magnitude = q * 10 ^ exponent.elim 0 Exponent.power := by
  cases plain with
  | whole is_whole =>
      refine ⟨_, .parts negative is_whole .absent is_power, rfl, ?_⟩
      simp [Numeral.magnitude, Numeral.scale]
  | point is_whole digits last =>
      rw [List.append_assoc]
      refine ⟨_, .parts negative is_whole (.present digits) is_power, rfl, ?_⟩
      rw [Numeral.magnitude, Numeral.scale, zpow_sub₀ (by norm_num), zpow_natCast]
      ring

/-- Plain notation is that of a numeral of the same number. -/
lemma Plain.numeral {cs : List Char} {q : ℚ} (plain : Plain cs q) (negative : Bool) :
    ∃ n : Numeral, Grammar.Numeral ((if negative then ['-'] else []) ++ cs) n ∧
      n.negative = negative ∧ n.magnitude = q := by
  simpa using plain.numeral_power negative .absent

/-- Notation with an exponent is that of a numeral of the same number. -/
lemma Scientific.numeral {cs : List Char} {e : ℤ} {q : ℚ} (h : Scientific cs e q)
    (negative : Bool) :
    ∃ n : Numeral, Grammar.Numeral ((if negative then ['-'] else []) ++ cs) n ∧
      n.negative = negative ∧ n.magnitude = q := by
  cases h with
  | @parts mantissa power m e plain one_le lt_ten digits two needed size =>
      have size : Nat.ofDigitChars 10 power 0 = e.natAbs := size
      by_cases below : e < 0
      · have exponent : (⟨true, power⟩ : Exponent).power = e := by
          rw [Exponent.power, Exponent.signed, size, if_pos rfl]
          omega
        have read := plain.numeral_power negative (.minus (by decide : 'e' ∈ ['e', 'E']) digits)
        simpa only [Option.elim_some, exponent, if_pos below] using read
      · have exponent : (⟨false, power⟩ : Exponent).power = e := by
          rw [Exponent.power, Exponent.signed, size, if_neg Bool.false_ne_true]
          omega
        have read := plain.numeral_power negative (.plus (by decide : 'e' ∈ ['e', 'E']) digits)
        simpa only [Option.elim_some, exponent, if_neg below] using read

/-! ### Decimals in their notations -/

namespace Decimal

variable {d : Decimal}

lemma digits_ne_zero (not_ten : ¬10 ∣ d.digits) : d.digits ≠ 0 :=
  fun zero => not_ten (zero ▸ Nat.dvd_zero 10)

/-- The exponent of the leading digit, in terms of the digits behind it. -/
lemma leading_eq (d : Decimal) : ∃ rest : Nat, (natText d.digits).length = rest + 1 ∧
    d.leading = d.exponent + rest := by
  have some_digit : 0 < (natText d.digits).length := Nat.length_toDigits_pos
  exact ⟨(natText d.digits).length - 1, by omega, rfl⟩

/-- The exponent of the leading digit tells the size of a decimal. -/
lemma leading_spec (nonzero : d.digits ≠ 0) :
    10 ^ d.leading ≤ d.value ∧ d.value < 10 ^ (d.leading + 1) := by
  have ten : (10 : ℚ) ≠ 0 := by norm_num
  have unit : (0 : ℚ) < 10 ^ d.exponent := zpow_pos (by norm_num) _
  obtain ⟨rest, length, leading⟩ := d.leading_eq
  have below : ((10 ^ rest : Nat) : ℚ) ≤ d.digits :=
    Nat.cast_le.mpr (pow_le_of_lt_length nonzero (by omega))
  have above : (d.digits : ℚ) < (10 ^ (rest + 1) : Nat) :=
    Nat.cast_lt.mpr ((length_natText_le_iff (Nat.succ_pos _)).mp (Nat.le_of_eq length))
  push_cast at below above
  have next : (10 : ℚ) ^ (d.exponent + rest + 1) = 10 ^ (rest + 1) * 10 ^ d.exponent := by
    rw [add_assoc, zpow_add₀ ten, mul_comm]
    congr 1
  rw [leading, next, zpow_add₀ ten, zpow_natCast, mul_comm (10 ^ d.exponent), value]
  exact ⟨(mul_le_mul_iff_of_pos_right unit).mpr below, (mul_lt_mul_iff_of_pos_right unit).mpr above⟩

end Decimal

/-- The digits of a number end in a zero only if ten divides it. -/
lemma getLast?_natText_ne {n : Nat} (not_ten : ¬10 ∣ n) : (natText n).getLast? ≠ some '0' := by
  intro last
  obtain ⟨first, digits⟩ := List.getLast?_eq_some_iff.mp last
  have value := ofDigitChars_natText n
  rw [digits, Nat.ofDigitChars_append, Nat.ofDigitChars_cons, Nat.ofDigitChars_nil] at value
  exact not_ten ⟨Nat.ofDigitChars 10 first 0, value.symm⟩

namespace Decimal

variable {d : Decimal}

/-- Digits around a point stand for a decimal with as many places. -/
lemma plain_point {whole fraction : List Char} (is_whole : Grammar.Whole whole)
    (digits : Digits fraction) (last : fraction.getLast? ≠ some '0')
    (number : Numeral.value (whole ++ fraction) = d.digits)
    (exponent : d.exponent = -(fraction.length : ℤ)) :
    Plain (whole ++ '.' :: fraction) d.value := by
  rw [value, ← number, exponent, zpow_neg, zpow_natCast, ← div_eq_mul_inv]
  exact .point is_whole digits last

/-- A decimal without places is written as a whole number. -/
lemma plainText_of_whole (nonzero : d.digits ≠ 0) {zeros : Nat} (exponent : d.exponent = zeros) :
    d.plainText Layout.canonical = natText (d.digits * 10 ^ zeros) := by
  rw [plainText, exponent, natText_mul_ten_pow nonzero]
  exact List.append_nil _

/-- A decimal without a zero at its end is written in plain notation. -/
lemma plain_plainText (not_ten : ¬10 ∣ d.digits) :
    Plain (d.plainText Layout.canonical) d.value := by
  have nonzero := digits_ne_zero not_ten
  have last := getLast?_natText_ne not_ten
  have digits := digits_natText d.digits
  cases exponent : d.exponent with
  | ofNat zeros =>
      have number : d.value = Numeral.value (natText (d.digits * 10 ^ zeros)) := by
        rw [value, exponent, Numeral.value, ofDigitChars_natText, Int.ofNat_eq_natCast,
          zpow_natCast]
        push_cast
        rfl
      rw [plainText_of_whole nonzero exponent, number]
      exact .whole (whole_natText _)
  | negSucc n =>
      rw [plainText, exponent]
      simp only
      split
      · rename_i inside
        have length := List.length_drop (i := (natText d.digits).length - (n + 1))
          (l := natText d.digits)
        refine plain_point (whole_take (by omega) (by omega))
          ⟨?_, fun c mem => digits.2 c (List.mem_of_mem_drop mem)⟩ ?_ ?_ ?_
        · intro none
          rw [none, List.length_nil] at length
          omega
        · rwa [List.getLast?_drop, if_neg (by omega)]
        · rw [List.take_append_drop, Numeral.value, ofDigitChars_natText]
        · omega
      · rename_i outside
        refine plain_point .zero (digits.pad _) ?_ (Numeral.value_pad (_ + 1) d.digits) ?_
        · rw [List.getLast?_append_of_ne_nil _ digits.1]
          exact last
        · rw [List.length_append, List.length_replicate]
          omega

/-- The digits of a decimal, with a point behind the first one if there are others. -/
lemma plain_mantissa (not_ten : ¬10 ∣ d.digits) :
    Plain (match natText d.digits with
      | first :: second :: rest => first :: '.' :: second :: rest
      | digits => digits) (d.value / 10 ^ d.leading) := by
  have last := getLast?_natText_ne not_ten
  have digits := digits_natText d.digits
  obtain ⟨rest, length, leading⟩ := d.leading_eq
  have number : d.value / 10 ^ d.leading = (⟨d.digits, -(rest : ℤ)⟩ : Decimal).value := by
    have unit : (10 : ℚ) ^ d.exponent ≠ 0 := zpow_ne_zero _ (by norm_num)
    rw [value, value, leading, zpow_add₀ (by norm_num), zpow_neg]
    field_simp
  rw [number]
  split
  · rename_i first second others shape
    rw [shape] at length last digits
    have head : Grammar.Whole ((natText d.digits).take 1) :=
      whole_take one_ne_zero (by rw [shape]; simp)
    rw [shape] at head
    refine plain_point head ⟨by simp, fun c mem => digits.2 c (.tail _ mem)⟩ ?_ ?_ ?_
    · rwa [List.getLast?_cons_cons] at last
    · show Numeral.value (first :: second :: others) = d.digits
      rw [← shape, Numeral.value, ofDigitChars_natText]
    · simp only [List.length_cons] at length ⊢
      omega
  · rename_i no_others
    obtain rfl : rest = 0 := by
      rcases shape : natText d.digits with _ | ⟨first, _ | ⟨second, others⟩⟩
      · exact absurd shape digits.1
      · simpa [shape] using length.symm
      · exact absurd shape (no_others first second others)
    have whole : (⟨d.digits, -((0 : Nat) : ℤ)⟩ : Decimal).value =
        Numeral.value (natText d.digits) := by
      simp [value, Numeral.value, ofDigitChars_natText]
    rw [whole]
    exact .whole (whole_natText _)

/-- An exponent is written with its sign and with two digits, or more if it needs them. -/
lemma exponentText_eq (e : ℤ) : ∃ power,
    exponentText Layout.canonical e = (if e < 0 then '-' else '+') :: power ∧ Digits power ∧
      2 ≤ power.length ∧ (2 < power.length → Grammar.Whole power) ∧
        Numeral.value power = e.natAbs := by
  have length : (List.replicate (2 - (natText e.natAbs).length) '0' ++
      natText e.natAbs).length = max 2 (natText e.natAbs).length := by
    rw [List.length_append, List.length_replicate]
    omega
  refine ⟨List.replicate (2 - (natText e.natAbs).length) '0' ++ natText e.natAbs, ?_,
    (digits_natText _).pad _, by omega, fun long => ?_, Numeral.value_pad _ _⟩
  · rw [exponentText]
    split <;> rfl
  · rw [Nat.sub_eq_zero_of_le (by omega)]
    exact whole_natText _

/-- A decimal without a zero at its end is written with an exponent. -/
lemma scientific_scientificText (not_ten : ¬10 ∣ d.digits) :
    Scientific (d.scientificText Layout.canonical) d.leading d.value := by
  obtain ⟨low, high⟩ := leading_spec (digits_ne_zero not_ten)
  have unit : (0 : ℚ) < 10 ^ d.leading := zpow_pos (by norm_num) _
  have one_le : 1 ≤ d.value / 10 ^ d.leading := by rwa [le_div_iff₀ unit, one_mul]
  have lt_ten : d.value / 10 ^ d.leading < 10 := by
    rwa [div_lt_iff₀ unit, mul_comm, ← zpow_add_one₀ (by norm_num)]
  obtain ⟨power, exponent, digits, two, needed, size⟩ := exponentText_eq d.leading
  have parts := Scientific.parts (plain_mantissa not_ten) one_le lt_ten digits two needed size
  rw [div_mul_cancel₀ _ (ne_of_gt unit)] at parts
  rwa [scientificText, exponent]

/-- The notation of a decimal without a zero at its end is told by its leading digit. -/
lemma text_cases (not_ten : ¬10 ∣ d.digits) :
    (-4 ≤ d.leading ∧ d.leading < 6) ∧ Plain (d.text Layout.canonical) d.value ∨
      ¬(-4 ≤ d.leading ∧ d.leading < 6) ∧
        Scientific (d.text Layout.canonical) d.leading d.value := by
  have text : d.text Layout.canonical = if -4 ≤ d.leading ∧ d.leading < 6 then
      d.plainText Layout.canonical else d.scientificText Layout.canonical := rfl
  by_cases plain : -4 ≤ d.leading ∧ d.leading < 6
  · rw [text, if_pos plain]
    exact .inl ⟨plain, plain_plainText not_ten⟩
  · rw [text, if_neg plain]
    exact .inr ⟨plain, scientific_scientificText not_ten⟩

/-- Plain notation is that without the letter `e`. -/
lemma notMem_e_text_iff (not_ten : ¬10 ∣ d.digits) :
    'e' ∉ d.text Layout.canonical ↔ -4 ≤ d.leading ∧ d.leading < 6 := by
  rcases text_cases not_ten with ⟨range, plain⟩ | ⟨beyond, scientific⟩
  · exact iff_of_true plain.notMem_e range
  · exact iff_of_false (not_not_intro scientific.mem_e) beyond

/-- The text of a decimal is that of a numeral of the same number. -/
lemma exists_numeral (not_ten : ¬10 ∣ d.digits) (negative : Bool) :
    ∃ n : Numeral, Grammar.Numeral ((if negative then ['-'] else []) ++ d.text Layout.canonical) n ∧
      n.negative = negative ∧ n.magnitude = d.value := by
  rcases text_cases not_ten with ⟨-, plain⟩ | ⟨-, scientific⟩
  · exact plain.numeral negative
  · exact scientific.numeral negative

end Decimal

/-! ### Doubles -/

namespace Binary64

variable {x : Binary64}

/-- The decimal as which a double is written. -/
def decimal (x : Binary64) : Decimal :=
  x.cell.shortest .greater

/-- A numeral whose exact number is rounded to a double is read as that double. -/
lemma IsRoundingOf.toReal {n : Numeral} (h : x.IsRoundingOf n.rational)
    (nonzero : x.isZero = false) (sign : n.negative = x.isNegative) : n.toReal .nearest = x := by
  have near := (isRoundingOf_iff_near h.finite nonzero _).mp h
  have same : x.sign * n.rational = n.magnitude := by
    rw [Numeral.rational, sign, ← mul_assoc]
    exact (congrArg (· * _) x.sign_mul_sign).trans (one_mul _)
  rw [same] at near
  have nearest := (nearestTo_iff_near ⟨Numeral.value (n.whole ++ n.fraction), n.scale⟩).mpr near
  rw [Numeral.toReal, sign]
  exact ofDecimal_eq h.finite nearest

section

variable (finite : x.isFinite = true) (nonzero : x.isZero = false)

include nonzero

lemma not_ten_dvd_decimal : ¬10 ∣ x.decimal.digits :=
  not_ten_dvd_shortest nonzero .greater

lemma decimal_digits_ne_zero : x.decimal.digits ≠ 0 :=
  Decimal.digits_ne_zero (not_ten_dvd_decimal nonzero)

include finite

lemma isRoundingOf_decimal : x.IsRoundingOf (x.sign * x.decimal.value) :=
  isRoundingOf_shortest finite nonzero .greater

/-- The text of a double other than zero is that of its decimal behind its sign. -/
lemma text_eq_decimal :
    x.text = (if x.isNegative then ['-'] else []) ++ x.decimal.text Layout.canonical := by
  rw [text_of_isFinite finite, if_neg (by simp [nonzero])]
  rfl

lemma notMem_e_text : 'e' ∉ x.text ↔ -4 ≤ x.decimal.leading ∧ x.decimal.leading < 6 := by
  have no_sign : 'e' ∉ (if x.isNegative then ['-'] else []) := by split <;> simp
  rw [text_eq_decimal finite nonzero, List.mem_append, not_or, and_iff_right no_sign,
    Decimal.notMem_e_text_iff (not_ten_dvd_decimal nonzero)]

/-- The text of a double is read as a numeral of the exact number of its decimal, and rounded to the
double. -/
lemma read_text : ∃ n, Numeral.read x.text = some (n, []) ∧
    n.rational = x.sign * x.decimal.value ∧ n.toReal .nearest = x := by
  obtain ⟨n, numeral, sign, magnitude⟩ :=
    Decimal.exists_numeral (not_ten_dvd_decimal nonzero) x.isNegative
  rw [← text_eq_decimal finite nonzero] at numeral
  have rational : n.rational = x.sign * x.decimal.value := by
    rw [Numeral.rational, sign, magnitude]
    rfl
  have read := read_numeral numeral ends_nil
  rw [List.append_nil] at read
  have rounding := isRoundingOf_decimal finite nonzero
  exact ⟨n, read, rational, (rational ▸ rounding).toReal nonzero sign⟩

end

/-- The text of a finite double other than zero, which is that of a decimal behind the sign.

* It is in plain notation if the leading digit of the decimal has an exponent from -4 to 5, and with
  an exponent otherwise.
* The double is the rounding of the decimal. Of all decimals of which it is the rounding, none has
  fewer digits, and none with as many digits is nearer to the double.
* The text is read as a numeral of the same number, and rounded to the double. -/
theorem text_exact_fewest (finite : x.isFinite = true) (nonzero : x.isZero = false) :
    ∃ (d : Decimal) (e : ℤ) (cs : List Char),
      x.text = (if x.isNegative then ['-'] else []) ++ cs ∧
      (10 ^ e ≤ d.value ∧ d.value < 10 ^ (e + 1)) ∧
      (-4 ≤ e ∧ e < 6 → Plain cs d.value) ∧ (¬(-4 ≤ e ∧ e < 6) → Scientific cs e d.value) ∧
      ('e' ∉ x.text ↔ -4 ≤ e ∧ e < 6) ∧
      x.IsRoundingOf (x.sign * d.value) ∧
      (∀ m k : ℤ, x.IsRoundingOf (m * 10 ^ k) →
        (natText d.digits).length ≤ (natText m.natAbs).length ∧
        ((natText m.natAbs).length = (natText d.digits).length →
          |x.value - x.sign * d.value| ≤ |x.value - m * 10 ^ k|)) ∧
      ∃ n, Numeral.read x.text = some (n, []) ∧ n.rational = x.sign * d.value ∧
        n.toReal .nearest = x := by
  have shape := Decimal.text_cases (not_ten_dvd_decimal nonzero)
  refine ⟨x.decimal, x.decimal.leading, x.decimal.text Layout.canonical,
    text_eq_decimal finite nonzero, Decimal.leading_spec (decimal_digits_ne_zero nonzero),
    fun range => ?_, fun beyond => ?_, notMem_e_text finite nonzero,
    isRoundingOf_decimal finite nonzero, fun m k h => shortest_fewest nonzero .greater h,
    read_text finite nonzero⟩
  · exact (shape.resolve_right fun other => other.1 range).2
  · exact (shape.resolve_left fun other => beyond other.1).2

/-- The double nearest to a tenth is written in plain notation, and the negative double nearest to
zero with an exponent. Both are read back. -/
theorem text_exact_fewest_tenth :
    (∃ d : Decimal, Plain ['0', '.', '1'] d.value ∧
      IsRoundingOf ⟨0x3FB999999999999A⟩ d.value ∧
      ∃ n, Numeral.read ['0', '.', '1'] = some (n, []) ∧
        n.toReal .nearest = ⟨0x3FB999999999999A⟩) ∧
    ∃ (d : Decimal) (e : ℤ), Scientific ['5', 'e', '-', '3', '2', '4'] e d.value ∧
      IsRoundingOf ⟨0x8000000000000001⟩ (-d.value) ∧
      ∃ n, Numeral.read ['-', '5', 'e', '-', '3', '2', '4'] = some (n, []) ∧
        n.toReal .nearest = ⟨0x8000000000000001⟩ := by
  constructor
  · have written : (⟨0x3FB999999999999A⟩ : Binary64).text = ['0', '.', '1'] := by decide +kernel
    have sign : (⟨0x3FB999999999999A⟩ : Binary64).sign = 1 := if_neg (by decide)
    obtain ⟨d, e, cs, text, -, plain, -, range, rounding, -, n, read, -, real⟩ :=
      text_exact_fewest (x := ⟨0x3FB999999999999A⟩) (by decide) (by decide)
    rw [written] at range read text
    rw [sign, one_mul] at rounding
    obtain rfl : ['0', '.', '1'] = cs := text
    exact ⟨d, plain (range.mp (by decide)), rounding, n, read, real⟩
  · have written : (⟨0x8000000000000001⟩ : Binary64).text =
        ['-', '5', 'e', '-', '3', '2', '4'] := by decide +kernel
    have sign : (⟨0x8000000000000001⟩ : Binary64).sign = -1 := if_pos (by decide)
    obtain ⟨d, e, cs, text, -, -, scientific, range, rounding, -, n, read, -, real⟩ :=
      text_exact_fewest (x := ⟨0x8000000000000001⟩) (by decide) (by decide)
    rw [written] at range read text
    rw [sign, neg_one_mul] at rounding
    obtain rfl : ['5', 'e', '-', '3', '2', '4'] = cs := (List.cons.inj text).2
    exact ⟨d, e, scientific (mt range.mpr (by decide)), rounding, n, read, real⟩

end Binary64

end ReadThrough
