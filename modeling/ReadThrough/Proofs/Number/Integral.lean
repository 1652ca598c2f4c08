import ReadThrough.Proofs.Number.Notation

/-!
Doubles that are whole numbers.

* `Binary64.magnitude_of_near`: a double near to a whole number of moderate size is that number.
* `Binary64.decimal_value_of_whole`: below a million the decimal of a whole double is the double.
* `Binary64.text_of_whole`: so the text is that of a whole number.
* `Binary64.value_injective`: doubles other than zero are determined by their exact values.
-/

namespace ReadThrough

open Json

/-! ### Decimals near to a whole number -/

/-- A decimal of at most six digits close to a whole number is that number. -/
lemma Decimal.value_eq_of_close {d : Decimal} {n : Nat} (short : d.digits < 10 ^ 6)
    (positive : 0 < n) (close : |d.value - n| < 1 / 10 ^ 6) : d.value = n := by
  have one_le : (1 : ℚ) ≤ n := by exact_mod_cast positive
  have digits : (d.digits : ℚ) < 10 ^ 6 := by exact_mod_cast short
  obtain ⟨low, high⟩ := abs_lt.mp close
  -- it has at most six places, since it is not small
  have exponent : -6 ≤ d.exponent := by
    by_contra small
    have power : (10 : ℚ) ^ d.exponent ≤ 10 ^ (-7 : ℤ) :=
      zpow_le_zpow_right₀ (by norm_num) (by omega)
    have bound : d.value ≤ d.digits * 10 ^ (-7 : ℤ) :=
      mul_le_mul_of_nonneg_left power (Nat.cast_nonneg _)
    norm_num at bound low
    linarith
  obtain ⟨zeros, same⟩ := Int.le.dest exponent
  have scaled : d.value * 10 ^ 6 = (d.digits * 10 ^ zeros : Nat) := by
    rw [value, ← same, zpow_add₀ (by norm_num), zpow_natCast]
    push_cast
    norm_num
    ring
  have equal : d.digits * 10 ^ zeros = n * 10 ^ 6 := by
    have below : ((d.digits * 10 ^ zeros : Nat) : ℚ) < (n * 10 ^ 6 + 1 : Nat) := by
      rw [← scaled]
      push_cast
      linarith
    have above : ((n * 10 ^ 6 : Nat) : ℚ) < (d.digits * 10 ^ zeros + 1 : Nat) := by
      rw [Nat.cast_succ, ← scaled]
      push_cast
      linarith
    have below := Nat.cast_lt.mp below
    have above := Nat.cast_lt.mp above
    omega
  rw [equal] at scaled
  push_cast at scaled
  linarith

/-- A whole number below a million is written without a point. -/
lemma Decimal.text_of_whole {d : Decimal} (not_ten : ¬10 ∣ d.digits) {n : Nat}
    (whole : d.value = n) (positive : 0 < n) (small : n < 10 ^ 6) :
    d.text Layout.canonical = natText n := by
  have nonzero := digits_ne_zero not_ten
  have one_lt : (1 : ℚ) < 10 := by norm_num
  obtain ⟨low, high⟩ := leading_spec nonzero
  have one_le : (1 : ℚ) ≤ n := by exact_mod_cast positive
  have small : (n : ℚ) < 10 ^ (6 : ℤ) := by exact_mod_cast small
  rw [whole] at low high
  have most : d.leading < 6 := (zpow_lt_zpow_iff_right₀ one_lt).mp (lt_of_le_of_lt low small)
  have least : (0 : ℤ) < d.leading + 1 :=
    (zpow_lt_zpow_iff_right₀ one_lt).mp (by rw [zpow_zero]; exact lt_of_le_of_lt one_le high)
  have plain : d.text Layout.canonical = d.plainText Layout.canonical :=
    if_pos ⟨show -4 ≤ d.leading by omega, most⟩
  rw [plain]
  cases exponent : d.exponent with
  | ofNat zeros =>
      rw [plainText_of_whole nonzero exponent]
      rw [value, exponent, Int.ofNat_eq_natCast, zpow_natCast] at whole
      congr 1
      exact_mod_cast whole
  | negSucc places =>
      -- the digits are those of a multiple of a power of ten
      have digits : (d.digits : ℚ) = n * 10 ^ (places + 1) := by
        rw [← whole, value, exponent, zpow_negSucc]
        field_simp
      have digits : d.digits = n * 10 ^ (places + 1) := by exact_mod_cast digits
      exact absurd ⟨n * 10 ^ places, by rw [digits, Nat.pow_succ]; ring⟩ not_ten

namespace Binary64

variable {x : Binary64}

/-! ### Whole numbers near to a double -/

/-- A double near to a whole number of moderate size is that number, since whole numbers are whole
multiples of its step. -/
lemma magnitude_of_near {n : Nat} (small : n < 2 ^ 52) (near : x.Near n) : x.magnitude = n := by
  have rounds : x.Rounds n 1 := (rounds_iff_near one_pos).mpr (by simpa using near)
  obtain ⟨-, low, high, -⟩ := rounds
  have gap := x.gap_le (2 ^ x.scale)
  rw [Nat.one_mul] at low high
  have positive : 0 < 2 ^ x.scale := Nat.two_pow_pos _
  have scale : x.scale ≤ leastPlaces := by
    by_contra large
    have leading := le_significand (x := x) (by omega)
    have step : 2 ^ leastPlaces ≤ 2 ^ x.scale := Nat.pow_le_pow_right (by decide) (by omega)
    have bound := Nat.mul_le_mul_left n step
    have bound' := Nat.mul_le_mul_right (2 ^ x.scale) leading
    have bound'' := Nat.mul_le_mul_right (2 ^ x.scale) (Nat.succ_le_of_lt small)
    rw [Nat.succ_mul] at bound''
    omega
  obtain ⟨places, sum⟩ := Nat.exists_eq_add_of_le scale
  have significand : x.significand = n * 2 ^ places := by
    have scaled : n * 2 ^ leastPlaces = n * 2 ^ places * 2 ^ x.scale := by
      rw [Nat.mul_assoc, ← Nat.pow_add, Nat.add_comm places, ← sum]
    rw [scaled] at low high
    have below : 4 * x.significand ≤ 4 * (n * 2 ^ places) + 2 :=
      Nat.le_of_mul_le_mul_right (by linarith) positive
    have above : 4 * (n * 2 ^ places) ≤ 4 * x.significand + 2 :=
      Nat.le_of_mul_le_mul_right (by linarith) positive
    omega
  rw [magnitude, units_eq, significand, Nat.mul_assoc, ← Nat.pow_add, Nat.add_comm places, ← sum]
  push_cast
  field_simp

/-! ### Whole doubles -/

/-- The step of a double is small beside a whole number that the double is. -/
lemma step_mul_le {n : Nat} (whole : x.magnitude = n) (positive : 0 < n) :
    x.step * 2 ^ 52 ≤ n := by
  have one_le : (1 : ℚ) ≤ n := by exact_mod_cast positive
  rcases Nat.eq_zero_or_pos x.scale with bottom | scaled
  · have least : x.step * 2 ^ 52 ≤ 1 := by
      rw [step, bottom, pow_zero, div_mul_eq_mul_div, one_mul, div_le_one (by positivity)]
      exact pow_le_pow_right₀ (by norm_num) (by decide)
    exact least.trans one_le
  · have leading : (2 ^ 52 : ℚ) ≤ x.significand := by exact_mod_cast le_significand scaled
    have magnitude : x.magnitude = x.significand * x.step := by
      rw [Binary64.magnitude, units_eq, step]
      push_cast
      ring
    rw [← whole, magnitude, mul_comm]
    exact mul_le_mul_of_nonneg_right leading (le_of_lt x.step_pos)

lemma isRoundingOf_value (finite : x.isFinite = true) (nonzero : x.isZero = false) :
    x.IsRoundingOf x.value := by
  have step := x.step_pos
  have gap := x.gap_mul_step_pos
  rw [isRoundingOf_iff_near finite nonzero, sign_mul_value]
  exact ⟨⟨by linarith, by linarith⟩, .inr ⟨by linarith, by linarith⟩⟩

/-- Below a million the decimal of a whole double is the double itself. -/
lemma decimal_value_of_whole (finite : x.isFinite = true) (nonzero : x.isZero = false) {n : Nat}
    (whole : x.magnitude = n) (positive : 0 < n) (small : n < 10 ^ 6) : x.decimal.value = n := by
  refine Decimal.value_eq_of_close ?_ positive ?_
  · -- the double itself is a decimal of few digits
    obtain ⟨m, same, size⟩ : ∃ m : ℤ, (m : ℚ) = x.value ∧ m.natAbs = n := by
      rw [value, whole, sign]
      split
      · exact ⟨-n, by simp, by simp⟩
      · exact ⟨n, by simp, by simp⟩
    have rounding : x.IsRoundingOf (m * 10 ^ (0 : ℤ)) := by
      rw [zpow_zero, mul_one, same]
      exact isRoundingOf_value finite nonzero
    have fewest := (shortest_fewest nonzero .greater rounding).1
    rw [size] at fewest
    have length := (length_natText_le_iff (by decide : 0 < 6)).mpr small
    exact (length_natText_le_iff (by decide)).mp (fewest.trans length)
  · have near := (isRoundingOf_iff_near finite nonzero _).mp (isRoundingOf_decimal finite nonzero)
    rw [← mul_assoc, sign_mul_sign, one_mul] at near
    have step := step_mul_le whole positive
    have two : x.gap ≤ 2 := by simpa using x.gap_le 1
    have gap : x.gap * x.step ≤ 2 * x.step :=
      mul_le_mul_of_nonneg_right (by exact_mod_cast two) (le_of_lt x.step_pos)
    have size : (n : ℚ) < 10 ^ 6 := by exact_mod_cast small
    obtain ⟨⟨low, high⟩, -⟩ := near
    rw [whole] at low high
    rw [abs_lt]
    constructor <;> linarith

/-- The text of a whole double below a million is that of a whole number. -/
lemma text_of_whole (finite : x.isFinite = true) (nonzero : x.isZero = false) {n : Nat}
    (whole : x.magnitude = n) (positive : 0 < n) (small : n < 10 ^ 6) :
    x.text = (if x.isNegative then ['-'] else []) ++ natText n := by
  rw [text_eq_decimal finite nonzero, Decimal.text_of_whole (not_ten_dvd_decimal nonzero)
    (decimal_value_of_whole finite nonzero whole positive small) positive small]

/-! ### Exact values -/

lemma magnitude_pos (nonzero : x.isZero = false) : 0 < x.magnitude := by
  have units : 0 < x.units := by
    rw [units_eq]
    exact Nat.mul_pos (significand_pos nonzero) (Nat.two_pow_pos _)
  rw [magnitude]
  positivity

/-- Doubles other than zero are determined by their exact values. -/
lemma value_injective {y : Binary64} (nonzero : x.isZero = false) (same : x.value = y.value) :
    x = y := by
  have positive := magnitude_pos nonzero
  have magnitude : x.magnitude = y.magnitude := by
    rw [← abs_of_nonneg x.magnitude_nonneg, ← abs_of_nonneg y.magnitude_nonneg,
      ← x.abs_sign_mul x.magnitude, ← y.abs_sign_mul y.magnitude]
    exact congrArg _ same
  have units : x.units = y.units := by
    rw [Binary64.magnitude, Binary64.magnitude, div_left_inj' (by positivity)] at magnitude
    exact_mod_cast magnitude
  have pattern : x.pattern = y.pattern := by
    have step := Nat.two_pow_pos x.scale
    have step' := Nat.two_pow_pos y.scale
    rcases Nat.lt_trichotomy x.pattern y.pattern with less | equal | more
    · have := units_add_le less
      omega
    · exact equal
    · have := units_add_le more
      omega
  have sign : x.isNegative = y.isNegative := by
    rw [value, value, ← magnitude, mul_left_inj' (ne_of_gt positive), Binary64.sign,
      Binary64.sign] at same
    cases first : x.isNegative <;> cases second : y.isNegative <;>
      simp only [first, second, if_true, Bool.false_eq_true, if_false] at same ⊢ <;>
      norm_num at same
  rw [← x.ofPattern_pattern, ← y.ofPattern_pattern, sign, pattern]

end Binary64

end ReadThrough
