import ReadThrough.Proofs.Number.Integral
import ReadThrough.Proofs.Value.Encoding

/-!
Which numbers have one canonical text.

* `read_intText`: a whole number is read as itself.
* `Binary64.text_eq_nan_iff`, `Binary64.text_eq_infinity_iff`, `Binary64.isFinite_of_read`: the text
  of a double tells whether it is no number, infinite or finite.
* `Binary64.text_eq_text_iff`, `Binary64.text_eq_intText_iff`: two doubles, and a double and a whole
  number, with one text.
* `Value.WrittenAlike`, `Value.encode_eq_iff_writtenAlike`: numbers of any kinds have one text just
  if they are the same and are of one kind or small.
-/

namespace ReadThrough

open Json

/-! ### Whole numbers -/

/-- A whole number is read as itself. -/
lemma read_intText (z : ℤ) : ∃ n, Numeral.read (intText z) = some (n, []) ∧ n.rational = z := by
  have plain := Plain.whole (whole_natText z.natAbs)
  rw [Numeral.value, ofDigitChars_natText] at plain
  obtain ⟨n, numeral, sign, magnitude⟩ := plain.numeral (decide (z < 0))
  have text : intText z = (if decide (z < 0) = true then ['-'] else []) ++ natText z.natAbs := by
    rw [intText]
    by_cases negative : z < 0 <;> simp [negative]
  have read := read_numeral numeral ends_nil
  rw [List.append_nil, ← text] at read
  refine ⟨n, read, ?_⟩
  rw [Numeral.rational, sign, magnitude]
  by_cases negative : z < 0
  · have size : (z.natAbs : ℚ) = -z := by
      rw [Nat.cast_natAbs, abs_of_neg negative, Int.cast_neg]
    rw [if_pos (by simpa using negative), size]
    ring
  · have size : (z.natAbs : ℚ) = z := by
      rw [Nat.cast_natAbs, abs_of_nonneg (not_lt.mp negative)]
    rw [if_neg (by simpa using negative), size, one_mul]

lemma notMem_e_intText (z : ℤ) : 'e' ∉ intText z := by
  have digits := notMem_e_of_digits (digits_natText z.natAbs).2
  rw [intText]
  split
  · simpa using digits
  · exact digits

lemma intText_injective {z w : ℤ} (same : intText z = intText w) : z = w := by
  obtain ⟨m, read, rational⟩ := read_intText z
  obtain ⟨n, read', rational'⟩ := read_intText w
  rw [same, read'] at read
  obtain rfl : n = m := by simpa using read
  exact_mod_cast rational.symm.trans rational'

namespace Binary64

variable {x y : Binary64}

/-! ### What the text of a double tells -/

/-- A double is no number, infinite or finite. -/
lemma kinds (x : Binary64) :
    x.isNaN = true ∧ x.isInfinite = false ∧ x.isFinite = false ∨
      x.isNaN = false ∧ x.isInfinite = true ∧ x.isFinite = false ∨
        x.isNaN = false ∧ x.isInfinite = false ∧ x.isFinite = true := by
  simp only [isNaN, isInfinite, isFinite, decide_eq_true_eq, decide_eq_false_iff_not, beq_iff_eq,
    beq_eq_false_iff_ne]
  omega

lemma text_of_isNaN (number : x.isNaN = true) : x.text = ['N', 'a', 'N'] := by
  rw [text, if_pos number]

lemma text_of_isInfinite (number : x.isNaN = false) (infinite : x.isInfinite = true) :
    x.text = (if x.isNegative then '-' else '+') :: ['I', 'n', 'f'] := by
  rw [text, if_neg (by simp [number]), if_pos infinite]

/-- The text of a finite double can be read. -/
lemma read_text_of_isFinite (finite : x.isFinite = true) :
    ∃ n, Numeral.read x.text = some (n, []) := by
  cases zero : x.isZero with
  | true =>
      rw [text_of_isZero zero]
      exact ⟨_, rfl⟩
  | false =>
      obtain ⟨n, read, -⟩ := read_text finite zero
      exact ⟨n, read⟩

lemma not_read_nan (n : Numeral) : Numeral.read ['N', 'a', 'N'] ≠ some (n, []) := by
  simp [Numeral.read, Numeral.readUnsigned, Numeral.readWhole, Numeral.readDigits, isDigit]

lemma not_read_infinity (negative : Bool) (n : Numeral) :
    Numeral.read ((if negative then '-' else '+') :: ['I', 'n', 'f']) ≠ some (n, []) := by
  cases negative <;>
    simp [Numeral.read, Numeral.readUnsigned, Numeral.readWhole, Numeral.readDigits, isDigit]

/-- A text that can be read is no text of NaN or of infinity. -/
lemma isFinite_of_read {n : Numeral} (read : Numeral.read x.text = some (n, [])) :
    x.isFinite = true := by
  rcases x.kinds with ⟨number, -, -⟩ | ⟨number, infinite, -⟩ | ⟨-, -, finite⟩
  · rw [text_of_isNaN number] at read
    exact absurd read (not_read_nan n)
  · rw [text_of_isInfinite number infinite] at read
    exact absurd read (not_read_infinity _ n)
  · exact finite

/-! ### Equal texts -/

lemma value_of_isZero (zero : x.isZero = true) : x.value = 0 := by
  simp [value, magnitude, units, significand, pattern_of_isZero zero]

lemma value_ne_zero (nonzero : x.isZero = false) : x.value ≠ 0 :=
  mul_ne_zero x.sign_ne_zero (ne_of_gt (magnitude_pos nonzero))

/-- If the text of a double other than zero is that of a whole number, then the decimal of the
double is that number. -/
lemma decimal_of_text_eq (finite : x.isFinite = true) (nonzero : x.isZero = false) {z : ℤ}
    (same : intText z = x.text) : x.sign * x.decimal.value = z := by
  obtain ⟨m, read, rational⟩ := read_intText z
  obtain ⟨n, read', rational', -⟩ := read_text finite nonzero
  rw [same, read'] at read
  obtain rfl : n = m := by simpa using read
  exact rational'.symm.trans rational

lemma text_ne_of_nonzero (finite : x.isFinite = true) (nonzero : x.isZero = false) :
    x.text ≠ ['0'] := by
  intro same
  have zero : x.sign * x.decimal.value = (0 : ℤ) := decimal_of_text_eq finite nonzero same.symm
  have positive : 0 < x.decimal.value :=
    lt_of_lt_of_le (zpow_pos (by norm_num) _)
      (Decimal.leading_spec (decimal_digits_ne_zero nonzero)).1
  exact mul_ne_zero x.sign_ne_zero (ne_of_gt positive) (zero.trans Int.cast_zero)

/-- Finite doubles have one text just if they are the same number. -/
lemma text_eq_iff_value_eq (finite : x.isFinite = true) (finite' : y.isFinite = true) :
    x.text = y.text ↔ x.value = y.value := by
  cases zero : x.isZero <;> cases zero' : y.isZero
  case false.false =>
    refine ⟨fun same => ?_, fun same => congrArg _ (value_injective zero same)⟩
    obtain ⟨n, read, -, double⟩ := read_text finite zero
    obtain ⟨m, read', -, double'⟩ := read_text finite' zero'
    rw [same, read'] at read
    obtain rfl : m = n := by simpa using read
    rw [← double, ← double']
  case false.true =>
    rw [text_of_isZero zero', value_of_isZero zero']
    exact iff_of_false (text_ne_of_nonzero finite zero) (value_ne_zero zero)
  case true.false =>
    rw [text_of_isZero zero, value_of_isZero zero, eq_comm, eq_comm (a := (0 : ℚ))]
    exact iff_of_false (text_ne_of_nonzero finite' zero') (value_ne_zero zero')
  case true.true =>
    rw [text_of_isZero zero, text_of_isZero zero', value_of_isZero zero, value_of_isZero zero']
    exact iff_of_true rfl rfl

/-- Only finite doubles have the text of a finite one. -/
lemma isFinite_of_text_eq (same : x.text = y.text) (finite : y.isFinite = true) :
    x.isFinite = true := by
  obtain ⟨n, read⟩ := read_text_of_isFinite finite
  exact isFinite_of_read (same ▸ read)

/-- Only NaN has its text. -/
lemma text_eq_nan_iff : x.text = ['N', 'a', 'N'] ↔ x.isNaN = true := by
  refine ⟨fun same => ?_, text_of_isNaN⟩
  rcases x.kinds with ⟨number, -, -⟩ | ⟨number, infinite, -⟩ | ⟨-, -, finite⟩
  · exact number
  · rw [text_of_isInfinite number infinite] at same
    cases sign : x.isNegative <;> simp [sign] at same
  · obtain ⟨n, read⟩ := read_text_of_isFinite finite
    exact absurd (same ▸ read) (not_read_nan n)

/-- Only the infinity of a sign has its text. -/
lemma text_eq_infinity_iff {negative : Bool} :
    x.text = (if negative then '-' else '+') :: ['I', 'n', 'f'] ↔
      x.isInfinite = true ∧ negative = x.isNegative := by
  rcases x.kinds with ⟨number, infinite, -⟩ | ⟨number, infinite, -⟩ | ⟨-, infinite, finite⟩
  · rw [text_of_isNaN number]
    cases negative <;> simp [infinite]
  · rw [text_of_isInfinite number infinite]
    cases sign : x.isNegative <;> cases negative <;> simp [infinite]
  · refine iff_of_false (fun same => ?_) (by simp [infinite])
    obtain ⟨n, read⟩ := read_text_of_isFinite finite
    exact absurd (same ▸ read) (not_read_infinity negative n)

/-- Doubles have one text just if both are no numbers, or the same infinity, or the same number. -/
lemma text_eq_text_iff : x.text = y.text ↔
    x.isNaN = true ∧ y.isNaN = true ∨
      (x.isInfinite = true ∧ y.isInfinite = true ∧ x.isNegative = y.isNegative) ∨
        x.isFinite = true ∧ y.isFinite = true ∧ x.value = y.value := by
  rcases x.kinds with ⟨number, infinite, finite⟩ | ⟨number, infinite, finite⟩ |
    ⟨number, infinite, finite⟩
  · rw [text_of_isNaN number, eq_comm, text_eq_nan_iff]
    simp [number, infinite, finite]
  · rw [text_of_isInfinite number infinite, eq_comm, text_eq_infinity_iff]
    simp [number, infinite, finite]
  · have values : x.text = y.text ↔ y.isFinite = true ∧ x.value = y.value := by
      constructor
      · intro same
        have finite' := isFinite_of_text_eq same.symm finite
        exact ⟨finite', (text_eq_iff_value_eq finite finite').mp same⟩
      · rintro ⟨finite', same⟩
        exact (text_eq_iff_value_eq finite finite').mpr same
    simp [values, number, infinite, finite]

/-- The magnitude of a double whose value is whole. -/
lemma magnitude_of_value {z : ℤ} (whole : x.value = z) : x.magnitude = z.natAbs := by
  have magnitude : x.magnitude = x.sign * z := by rw [← whole, sign_mul_value]
  rw [← abs_of_nonneg x.magnitude_nonneg, magnitude, abs_sign_mul, Nat.cast_natAbs, Int.cast_abs]

lemma natAbs_lt_of_abs_lt {z : ℤ} {n : Nat} (small : |(z : ℚ)| < n) : z.natAbs < n := by
  rw [← Int.cast_abs, ← Nat.cast_natAbs] at small
  exact_mod_cast small

/-- A whole double other than zero that is not large has the text of a whole number. -/
lemma text_eq_intText (finite : x.isFinite = true) (nonzero : x.isZero = false) {z : ℤ}
    (whole : x.value = z) (small : |(z : ℚ)| < 10 ^ 6) : x.text = intText z := by
  have other : z ≠ 0 := fun zero => value_ne_zero nonzero (by rw [whole, zero, Int.cast_zero])
  have size : z.natAbs < 10 ^ 6 := natAbs_lt_of_abs_lt (by exact_mod_cast small)
  have magnitude := magnitude_of_value whole
  rw [text_of_whole finite nonzero magnitude (Int.natAbs_pos.mpr other) size, intText]
  have signs : z < 0 ↔ x.isNegative = true := by
    have positive := magnitude_pos nonzero
    rw [← Int.cast_lt_zero (R := ℚ), ← whole, value, sign]
    split
    · exact iff_of_true (by linarith) ‹_›
    · exact iff_of_false (by linarith) ‹_›
  by_cases negative : z < 0
  · rw [if_pos negative, if_pos (signs.mp negative)]
    rfl
  · rw [if_neg negative, if_neg (mt signs.mpr negative)]
    rfl

/-- A double that has the text of a whole number is that number, and is small. -/
lemma value_eq_of_text_eq_intText (finite : x.isFinite = true) (nonzero : x.isZero = false) {z : ℤ}
    (same : x.text = intText z) : x.value = z ∧ |(z : ℚ)| < 10 ^ 6 := by
  have number := decimal_of_text_eq finite nonzero same.symm
  have rounding := isRoundingOf_decimal finite nonzero
  rw [number] at rounding
  have absolute := rounding.sign_mul_eq_abs nonzero
  have decimal : x.decimal.value = |(z : ℚ)| := by
    rw [← absolute, ← number, ← mul_assoc, sign_mul_sign, one_mul]
  have small : |(z : ℚ)| < 10 ^ 6 := by
    have plain := ((notMem_e_text finite nonzero).mp (same ▸ notMem_e_intText z)).2
    have size := (Decimal.leading_spec (decimal_digits_ne_zero nonzero)).2
    have most : (10 : ℚ) ^ (x.decimal.leading + 1) ≤ 10 ^ (6 : ℤ) :=
      zpow_le_zpow_right₀ (by norm_num) plain
    rw [← decimal]
    exact lt_of_lt_of_le size (by exact_mod_cast most)
  have near := (isRoundingOf_iff_near finite nonzero _).mp rounding
  have whole : |(z : ℚ)| = z.natAbs := by rw [Nat.cast_natAbs, Int.cast_abs]
  have size : z.natAbs < 10 ^ 6 := natAbs_lt_of_abs_lt (by exact_mod_cast small)
  rw [absolute, whole] at near
  have magnitude := magnitude_of_near (Nat.lt_trans size (by decide)) near
  refine ⟨?_, small⟩
  rw [value, magnitude, ← whole, ← absolute, ← mul_assoc, sign_mul_sign, one_mul]

/-- A double has the text of a whole number just if it is that number and is small. -/
lemma text_eq_intText_iff {z : ℤ} : x.text = intText z ↔
    x.isFinite = true ∧ x.value = z ∧ |(z : ℚ)| < 10 ^ 6 := by
  cases zero : x.isZero with
  | true =>
      have finite := isFinite_of_isZero zero
      rw [text_of_isZero zero, value_of_isZero zero]
      constructor
      · intro same
        obtain rfl : (0 : ℤ) = z := intText_injective same
        exact ⟨finite, Int.cast_zero.symm, by norm_num⟩
      · rintro ⟨-, same, -⟩
        obtain rfl : (0 : ℤ) = z := by exact_mod_cast same
        rfl
  | false =>
      constructor
      · intro same
        obtain ⟨n, read, -⟩ := read_intText z
        have finite := isFinite_of_read (same ▸ read)
        exact ⟨finite, value_eq_of_text_eq_intText finite zero same⟩
      · rintro ⟨finite, whole, small⟩
        exact text_eq_intText finite zero whole small

end Binary64

namespace Value

/-! ### Numbers of all kinds -/

/-- Whether a value is a double. -/
def isFloat : Value → Bool
  | .float _ => true
  | _ => false

/-- Whether a value is a number: whole, of one of two kinds, or a double. -/
def IsNumber : Value → Prop
  | .int _ => True
  | .uint _ => True
  | .float _ => True
  | _ => False

/-- The exact number that a value is, if it is a finite one. -/
def rational? : Value → Option ℚ
  | .int n => some n.toInt
  | .uint n => some n.toNat
  | .float x => if x.isFinite then some x.value else none
  | _ => none

/-- Two numbers that are written alike: both are NaN, or the same infinity, or the same exact number
and of one kind, whole or double, or less than a million. -/
inductive WrittenAlike : Value → Value → Prop
  | nan {x y : Binary64} (number : x.isNaN = true) (number' : y.isNaN = true) :
    WrittenAlike (.float x) (.float y)
  | infinite {x y : Binary64} (infinite : x.isInfinite = true) (infinite' : y.isInfinite = true)
    (sign : x.isNegative = y.isNegative) : WrittenAlike (.float x) (.float y)
  | same {a b : Value} {q : ℚ} (rational : a.rational? = some q) (rational' : b.rational? = some q)
    (kinds : a.isFloat = b.isFloat ∨ |q| < 10 ^ 6) : WrittenAlike a b

lemma number_cases {a : Value} (number : a.IsNumber) :
    (∃ z : ℤ, a.numberText? = some (intText z) ∧ a.rational? = some (z : ℚ) ∧ a.isFloat = false) ∨
      ∃ x, a = .float x := by
  cases a with
  | int n => exact .inl ⟨n.toInt, rfl, rfl, rfl⟩
  | uint n => exact .inl ⟨n.toNat, rfl, rfl, rfl⟩
  | float x => exact .inr ⟨x, rfl⟩
  | _ => exact absurd number not_false

/-- Numbers have one encoding just if they have one text. -/
lemma encode_eq_iff_text {a b : Value} {s t : List Char} (ha : a.numberText? = some s)
    (hb : b.numberText? = some t) : a.encode = b.encode ↔ s = t := by
  constructor
  · intro same
    have texts := (equivalent_of_encode_eq same).numberText?_eq
    rw [ha, hb] at texts
    exact Option.some.inj texts
  · rintro rfl
    exact encode_eq_of_equivalent (.number ha hb)

lemma WrittenAlike.symm {a b : Value} (h : WrittenAlike a b) : WrittenAlike b a := by
  cases h with
  | nan number number' => exact .nan number' number
  | infinite infinite infinite' sign => exact .infinite infinite' infinite sign.symm
  | same rational rational' kinds => exact .same rational' rational (kinds.imp_left Eq.symm)

lemma rational?_float_eq_some_iff {x : Binary64} {q : ℚ} :
    (Value.float x).rational? = some q ↔ x.isFinite = true ∧ x.value = q := by
  rw [rational?]
  split <;> simp [*]

section

variable {a b : Value} {z w : ℤ} (text : a.numberText? = some (intText z))
  (rational : a.rational? = some (z : ℚ)) (kind : a.isFloat = false)

include text rational kind

/-- Whole numbers of any kinds. -/
lemma encode_whole_eq_whole_iff (text' : b.numberText? = some (intText w))
    (rational' : b.rational? = some (w : ℚ)) (kind' : b.isFloat = false) :
    a.encode = b.encode ↔ WrittenAlike a b := by
  rw [encode_eq_iff_text text text']
  constructor
  · intro same
    obtain rfl := intText_injective same
    exact .same rational rational' (.inl (kind.trans kind'.symm))
  · intro alike
    cases alike with
    | nan _ _ => cases kind
    | infinite _ _ _ => cases kind
    | same first second _ =>
        have same := rational.symm.trans (first.trans (second.symm.trans rational'))
        rw [Int.cast_injective (Option.some.inj same)]

/-- A whole number and a double. -/
lemma encode_whole_eq_float_iff (x : Binary64) :
    a.encode = (Value.float x).encode ↔ WrittenAlike a (.float x) := by
  rw [encode_eq_iff_text text rfl, eq_comm, Binary64.text_eq_intText_iff]
  constructor
  · rintro ⟨finite, whole, small⟩
    exact .same rational (rational?_float_eq_some_iff.mpr ⟨finite, whole⟩) (.inr small)
  · intro alike
    cases alike with
    | nan _ _ => cases kind
    | infinite _ _ _ => cases kind
    | same first second kinds =>
        obtain ⟨finite, value⟩ := rational?_float_eq_some_iff.mp second
        obtain rfl := Option.some.inj (first.symm.trans rational)
        refine ⟨finite, value, kinds.resolve_left fun same => ?_⟩
        rw [kind] at same
        cases same

end

/-- Two doubles. -/
lemma encode_float_eq_float_iff (x y : Binary64) :
    (Value.float x).encode = (Value.float y).encode ↔ WrittenAlike (.float x) (.float y) := by
  rw [encode_eq_iff_text rfl rfl, Binary64.text_eq_text_iff]
  constructor
  · rintro (⟨number, number'⟩ | ⟨infinite, infinite', sign⟩ | ⟨finite, finite', same⟩)
    · exact .nan number number'
    · exact .infinite infinite infinite' sign
    · exact .same (rational?_float_eq_some_iff.mpr ⟨finite, same⟩)
        (rational?_float_eq_some_iff.mpr ⟨finite', rfl⟩) (.inl rfl)
  · intro alike
    cases alike with
    | nan number number' => exact .inl ⟨number, number'⟩
    | infinite infinite infinite' sign => exact .inr (.inl ⟨infinite, infinite', sign⟩)
    | same first second _ =>
        obtain ⟨finite, value⟩ := rational?_float_eq_some_iff.mp first
        obtain ⟨finite', value'⟩ := rational?_float_eq_some_iff.mp second
        exact .inr (.inr ⟨finite, finite', value.trans value'.symm⟩)

/-- Numbers have one encoding if and only if both are NaN, or the same infinity, or finite and the
same exact number, and in this last case of one kind, both whole or both doubles, or below a
million. -/
theorem encode_eq_iff_writtenAlike {a b : Value} (ha : a.IsNumber) (hb : b.IsNumber) :
    a.encode = b.encode ↔ WrittenAlike a b := by
  rcases number_cases ha with ⟨z, text, rational, kind⟩ | ⟨x, rfl⟩ <;>
    rcases number_cases hb with ⟨w, text', rational', kind'⟩ | ⟨y, rfl⟩
  · exact encode_whole_eq_whole_iff text rational kind text' rational' kind'
  · exact encode_whole_eq_float_iff text rational kind y
  · rw [eq_comm, encode_whole_eq_float_iff text' rational' kind' x]
    exact ⟨.symm, .symm⟩
  · exact encode_float_eq_float_iff x y

/-- The negative zero has the encoding of the whole zero. A million has another encoding as a double
than as a whole number. -/
theorem encode_eq_iff_writtenAlike_zero :
    (Value.float ⟨0x8000000000000000⟩).encode = (Value.uint 0).encode ∧
      (Value.float ⟨0x412E848000000000⟩).encode ≠ (Value.int 1000000).encode := by
  constructor
  · have zero : (Value.float ⟨0x8000000000000000⟩).rational? = some 0 :=
      rational?_float_eq_some_iff.mpr ⟨by decide, Binary64.value_of_isZero (by decide)⟩
    have whole : (Value.uint 0).rational? = some 0 := by simp [rational?]
    have number : IsNumber (.float ⟨0x8000000000000000⟩) ∧ IsNumber (.uint 0) := ⟨trivial, trivial⟩
    exact (encode_eq_iff_writtenAlike number.1 number.2).mpr
      (.same zero whole (.inr (by norm_num)))
  · have number : IsNumber (.float ⟨0x412E848000000000⟩) ∧ IsNumber (.int 1000000) :=
      ⟨trivial, trivial⟩
    refine mt (encode_eq_iff_writtenAlike number.1 number.2).mp fun alike => ?_
    cases alike with
    | same _ million kinds =>
        have size : (Int64.toInt 1000000 : ℚ) = 1000000 := by
          exact_mod_cast (by decide : Int64.toInt 1000000 = 1000000)
        rw [← Option.some.inj million, size] at kinds
        rcases kinds with same | small
        · cases same
        · norm_num at small

end Value

end ReadThrough
