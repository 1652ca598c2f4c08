import Mathlib.Algebra.Order.Field.Basic
import Mathlib.Algebra.Order.Field.Rat
import Mathlib.Algebra.Order.Ring.Abs
import Mathlib.Tactic.FieldSimp
import Mathlib.Tactic.Linarith
import Mathlib.Tactic.Positivity
import Mathlib.Tactic.Ring
import ReadThrough.Proofs.Number.ReadBack

/-!
Doubles and decimals as exact numbers, and rounding among these.

* `Decimal.value`, `Binary64.value`: the exact value of a decimal and of a finite double.
* `Binary64.IsRoundingOf`: a finite double is nearest to a number, and the even one of two that are
  equally near. The number from which on rounding gives infinity stands for infinity in this.
* `Binary64.exists_next`, `Binary64.exists_previous`: the neighbours of a double.
* `Binary64.isRoundingOf_iff_near`: a double is the rounding of a number just if this lies no
  farther than halfway to the neighbours of the double.
* `Cell.Holds`, `Binary64.isRoundingOf_iff_holds`: the cell of a double holds just the numbers that
  are rounded to the double.
-/

namespace ReadThrough

/-- The exact value of a decimal. -/
def Decimal.value (d : Decimal) : ℚ :=
  d.digits * 10 ^ d.exponent

/-! ### Distances -/

section

variable {r v w : ℚ}

lemma abs_sub_le_iff_of_lt (less : v < w) : |r - v| ≤ |r - w| ↔ 2 * r ≤ v + w := by
  rw [← sq_le_sq]
  constructor <;> intro h <;> nlinarith

lemma abs_sub_le_iff_of_gt (more : w < v) : |r - v| ≤ |r - w| ↔ v + w ≤ 2 * r := by
  rw [← sq_le_sq]
  constructor <;> intro h <;> nlinarith

lemma abs_sub_eq_iff (ne : w ≠ v) : |r - v| = |r - w| ↔ 2 * r = v + w := by
  rw [le_antisymm_iff, le_antisymm_iff]
  rcases lt_or_gt_of_ne ne with less | more
  · rw [abs_sub_le_iff_of_gt less, abs_sub_le_iff_of_lt less, add_comm w, and_comm]
  · rw [abs_sub_le_iff_of_lt more, abs_sub_le_iff_of_gt more, add_comm w]

/-- Two numbers are compared as two others if the difference of these is that of the former, but
scaled. -/
lemma le_iff_of_sub_mul_eq {a b c d f : ℚ} (positive : 0 < f) (scaled : (b - a) * f = d - c) :
    (a ≤ b ↔ c ≤ d) ∧ (a < b ↔ c < d) := by
  constructor
  · rw [← sub_nonneg, ← mul_nonneg_iff_of_pos_right positive, scaled, sub_nonneg]
  · rw [← sub_pos, ← mul_pos_iff_of_pos_right positive, scaled, sub_pos]

end

namespace Binary64

/-! ### The exact value of a double -/

/-- The sign of a double as a factor. -/
def sign (x : Binary64) : ℚ :=
  if x.isNegative then -1 else 1

/-- The magnitude of a finite double. Infinity gets `2 ^ 1024`, which would be the next double. -/
def magnitude (x : Binary64) : ℚ :=
  x.units / 2 ^ leastPlaces

/-- The exact value of a finite double. -/
def value (x : Binary64) : ℚ :=
  x.sign * x.magnitude

/-- The step from a double to the next greater one. -/
def step (x : Binary64) : ℚ :=
  2 ^ x.scale / 2 ^ leastPlaces

lemma sign_mul_sign (x : Binary64) : x.sign * x.sign = 1 := by
  rw [sign]
  split <;> norm_num

lemma sign_ne_zero (x : Binary64) : x.sign ≠ 0 := by
  rw [sign]
  split <;> norm_num

lemma sign_mul_value (x : Binary64) : x.sign * x.value = x.magnitude := by
  rw [value, ← mul_assoc, sign_mul_sign, one_mul]

/-- The sign of a double is no matter for distances. -/
lemma abs_sign_mul (x : Binary64) (q : ℚ) : |x.sign * q| = |q| := by
  rw [abs_mul, sign]
  split <;> simp

lemma step_pos (x : Binary64) : 0 < x.step := by
  rw [step]
  positivity

lemma magnitude_nonneg (x : Binary64) : 0 ≤ x.magnitude := by
  rw [magnitude]
  positivity

/-! ### Neighbours -/

lemma pattern_ofPattern (negative : Bool) {p : Nat} (small : p < 2 ^ 63) :
    (ofPattern negative p).pattern = p := by
  cases negative <;> simp [ofPattern, pattern] <;> omega

lemma isNegative_ofPattern (negative : Bool) {p : Nat} (small : p < 2 ^ 63) :
    (ofPattern negative p).isNegative = negative := by
  cases negative <;> simp [ofPattern, isNegative] <;> omega

/-- A double and the one of the next pattern. Their scales differ where the smaller one has the
greatest significand. -/
lemma scale_of_next {x y : Binary64} (next : y.pattern = x.pattern + 1) :
    y.scale = x.scale ∧ y.significand = x.significand + 1 ∧ y.isNarrow = false ∨
      y.scale = x.scale + 1 ∧ y.significand = 2 ^ 52 ∧ x.significand + 1 = 2 ^ 53 := by
  have size := x.significand_lt
  have size' := y.significand_lt
  have leading := x.le_significand
  have leading' := y.le_significand
  rw [pattern_eq, pattern_eq] at next
  by_cases greatest : x.significand + 1 = 2 ^ 53
  · right
    omega
  · left
    refine ⟨by omega, by omega, ?_⟩
    simp only [isNarrow, Nat.pow_eq, Bool.and_eq_false_imp, beq_iff_eq, decide_eq_false_iff_not]
    omega

lemma units_of_next {x y : Binary64} (next : y.pattern = x.pattern + 1) :
    y.units = x.units + 2 ^ x.scale := by
  rw [units_eq, units_eq]
  rcases scale_of_next next with ⟨scale, significand, -⟩ | ⟨scale, significand, greatest⟩
  · rw [scale, significand, Nat.succ_mul]
  · rw [scale, significand, ← Nat.succ_mul, Nat.succ_eq_add_one, greatest]
    ring

lemma magnitude_of_next {x y : Binary64} (next : y.pattern = x.pattern + 1) :
    y.magnitude = x.magnitude + x.step := by
  rw [magnitude, magnitude, step, units_of_next next, ← add_div]
  push_cast
  rfl

/-- The next greater double of the same sign, or infinity. -/
lemma exists_next {x : Binary64} (finite : x.isFinite = true) :
    ∃ y : Binary64, y.isNaN = false ∧ y.sign = x.sign ∧ y.magnitude = x.magnitude + x.step := by
  have small := pattern_lt finite
  have room : x.pattern + 1 < 2 ^ 63 := Nat.lt_of_le_of_lt small (by decide)
  have pattern := pattern_ofPattern x.isNegative room
  refine ⟨ofPattern x.isNegative (x.pattern + 1), ?_, ?_, ?_⟩
  · exact decide_eq_false (by rw [pattern]; omega)
  · rw [sign, isNegative_ofPattern _ room, sign]
  · exact magnitude_of_next pattern

lemma gap_mul_step_of_next {x y : Binary64} (next : y.pattern = x.pattern + 1) :
    y.gap * y.step = 2 * x.step := by
  rw [gap, step, step]
  rcases scale_of_next next with ⟨scale, -, wide⟩ | ⟨scale, significand, -⟩
  · simp [wide, scale]
  · have narrow : y.isNarrow = true := by simp [isNarrow, significand, scale]
    rw [narrow, scale, if_pos rfl, pow_succ]
    push_cast
    ring

/-- The next smaller double of the same sign. -/
lemma exists_previous {x : Binary64} (finite : x.isFinite = true) (nonzero : x.isZero = false) :
    ∃ y : Binary64, y.isNaN = false ∧ y.sign = x.sign ∧
      2 * y.magnitude + x.gap * x.step = 2 * x.magnitude := by
  have small := pattern_lt finite
  have some_pattern := pattern_ne_zero nonzero
  have room : x.pattern - 1 < 2 ^ 63 := Nat.lt_of_le_of_lt (Nat.sub_le ..)
    (Nat.lt_trans small (by decide))
  have pattern := pattern_ofPattern x.isNegative room
  have next : x.pattern = (ofPattern x.isNegative (x.pattern - 1)).pattern + 1 := by omega
  refine ⟨ofPattern x.isNegative (x.pattern - 1), ?_, ?_, ?_⟩
  · exact decide_eq_false (by rw [pattern]; omega)
  · rw [sign, isNegative_ofPattern _ room, sign]
  · rw [gap_mul_step_of_next next, magnitude_of_next next]
    ring

/-! ### Rounding -/

/-- A finite double is nearest to a number, and the one with the even significand if another is as
near. Infinity takes part as if it was the next double. -/
structure IsRoundingOf (x : Binary64) (q : ℚ) : Prop where
  finite : x.isFinite = true
  nearest : ∀ y : Binary64, y.isNaN = false → |q - x.value| ≤ |q - y.value|
  even : ∀ y : Binary64, y.isNaN = false → y.value ≠ x.value → |q - x.value| = |q - y.value| →
    x.significand % 2 = 0

/-- A magnitude lies no farther than halfway to the neighbours of a double, and not just halfway
unless the significand of the double is even. -/
def Near (x : Binary64) (r : ℚ) : Prop :=
  (4 * x.magnitude ≤ 4 * r + x.gap * x.step ∧ 4 * r ≤ 4 * x.magnitude + 2 * x.step) ∧
    (x.significand % 2 = 0 ∨
      4 * x.magnitude < 4 * r + x.gap * x.step ∧ 4 * r < 4 * x.magnitude + 2 * x.step)

/-- A smaller double is at least as far away as the next smaller one. -/
lemma two_magnitude_add_gap_le {x y : Binary64} (less : y.pattern < x.pattern) :
    2 * y.magnitude + x.gap * x.step ≤ 2 * x.magnitude := by
  have apart : (2 * y.units + x.gap * 2 ^ x.scale : ℚ) ≤ 2 * x.units := by
    exact_mod_cast two_units_add_gap_le less
  rw [magnitude, magnitude, step, ← mul_div_assoc, ← mul_div_assoc, ← mul_div_assoc, ← add_div]
  exact div_le_div_of_nonneg_right apart (by positivity)

lemma gap_mul_step_le {x : Binary64} (nonzero : x.isZero = false) :
    x.gap * x.step ≤ 2 * x.magnitude := by
  have zero : (⟨0⟩ : Binary64).pattern < x.pattern := Nat.pos_of_ne_zero (pattern_ne_zero nonzero)
  have apart := two_magnitude_add_gap_le zero
  have least := (⟨0⟩ : Binary64).magnitude_nonneg
  linarith

lemma gap_mul_step_pos (x : Binary64) : 0 < x.gap * x.step := by
  have positive := x.step_pos
  rw [gap]
  split <;> push_cast <;> linarith

/-- Every other double is at least as far away as one of the neighbours, also if it has the other
sign. -/
lemma value_apart {x : Binary64} (nonzero : x.isZero = false) (y : Binary64) :
    2 * (x.sign * y.value) + x.gap * x.step ≤ 2 * x.magnitude ∨
      x.sign * y.value = x.magnitude ∨ x.magnitude + x.step ≤ x.sign * y.value := by
  have signs : x.sign * y.value = y.magnitude ∨ x.sign * y.value = -y.magnitude := by
    rw [value, sign, sign]
    split <;> split <;> simp
  rcases signs with same | opposite
  · rw [same]
    rcases Nat.lt_trichotomy y.pattern x.pattern with less | equal | more
    · exact .inl (two_magnitude_add_gap_le less)
    · refine .inr (.inl ?_)
      simp only [magnitude, units, significand, scale, equal]
    · refine .inr (.inr ?_)
      have apart : (x.units + 2 ^ x.scale : ℚ) ≤ y.units := by exact_mod_cast units_add_le more
      rw [magnitude, magnitude, step, ← add_div]
      exact div_le_div_of_nonneg_right apart (by positivity)
  · have least := gap_mul_step_le nonzero
    have magnitude := y.magnitude_nonneg
    left
    linarith

/-- A double is the rounding of the numbers near to it. -/
theorem isRoundingOf_iff_near {x : Binary64} (finite : x.isFinite = true)
    (nonzero : x.isZero = false) (q : ℚ) : x.IsRoundingOf q ↔ x.Near (x.sign * q) := by
  have dist : ∀ y : Binary64, |q - y.value| = |x.sign * q - x.sign * y.value| := fun y => by
    rw [← mul_sub, abs_sign_mul]
  have same : ∀ y : Binary64, y.value = x.value ↔ x.sign * y.value = x.magnitude := fun y => by
    rw [← sign_mul_value, mul_right_inj' x.sign_ne_zero]
  have upper := x.step_pos
  have lower := x.gap_mul_step_pos
  constructor
  · rintro ⟨-, nearest, even⟩
    obtain ⟨above, number, sign, next⟩ := exists_next finite
    obtain ⟨below, number', sign', previous⟩ := exists_previous finite nonzero
    have above_value : x.sign * above.value = x.magnitude + x.step := by
      rw [← sign, sign_mul_value, next]
    have below_value : x.sign * below.value = below.magnitude := by
      rw [← sign', sign_mul_value]
    have high := nearest above number
    have low := nearest below number'
    rw [dist, dist, sign_mul_value, above_value, abs_sub_le_iff_of_lt (by linarith)] at high
    rw [dist, dist, sign_mul_value, below_value, abs_sub_le_iff_of_gt (by linarith)] at low
    refine ⟨⟨by linarith, by linarith⟩, or_iff_not_imp_left.mpr fun odd => ?_⟩
    have no_tie : ∀ y : Binary64, y.isNaN = false → x.sign * y.value ≠ x.magnitude →
        2 * (x.sign * q) ≠ x.magnitude + x.sign * y.value := by
      intro y number ne half
      refine odd (even y number (mt (same y).mp ne) ?_)
      rw [dist, dist, sign_mul_value, abs_sub_eq_iff ne]
      exact half
    have not_above := no_tie above number (by linarith)
    have not_below := no_tie below number' (by linarith)
    rw [above_value] at not_above
    rw [below_value] at not_below
    constructor
    · exact lt_of_le_of_ne (by linarith) fun half => not_below (by linarith)
    · exact lt_of_le_of_ne (by linarith) fun half => not_above (by linarith)
  · rintro ⟨⟨low, high⟩, ends⟩
    refine ⟨finite, fun y number => ?_, fun y number ne equal => ?_⟩
    · rw [dist, dist, sign_mul_value]
      rcases value_apart nonzero y with less | equal | more
      · rw [abs_sub_le_iff_of_gt (by linarith)]
        linarith
      · rw [equal]
      · rw [abs_sub_le_iff_of_lt (by linarith)]
        linarith
    · rw [dist, dist, sign_mul_value, abs_sub_eq_iff (mt (same y).mpr ne)] at equal
      refine ends.resolve_right fun strict => ?_
      rcases value_apart nonzero y with less | other | more
      · linarith [strict.1]
      · exact ne ((same y).mpr other)
      · linarith [strict.2]

/-- A quotient is rounded to a double just if it is near to it as a number. -/
lemma rounds_iff_near {x : Binary64} {num den : Nat} (positive : 0 < den) :
    x.Rounds num den ↔ x.Near (num / den) := by
  have factor : (0 : ℚ) < den * 2 ^ leastPlaces := by positivity
  have quotient : (num / den : ℚ) * (den * 2 ^ leastPlaces) = num * 2 ^ leastPlaces := by
    field_simp
  have step : x.step * (den * 2 ^ leastPlaces) = den * 2 ^ x.scale := by
    rw [Binary64.step]
    field_simp
  have magnitude : x.magnitude * (den * 2 ^ leastPlaces) = x.significand * (den * 2 ^ x.scale) := by
    rw [Binary64.magnitude, units_eq]
    push_cast
    field_simp
  have gap : x.gap * x.step * (den * 2 ^ leastPlaces) = x.gap * (den * 2 ^ x.scale) := by
    rw [mul_assoc, step]
  have lower := le_iff_of_sub_mul_eq factor
    (a := 4 * x.magnitude) (c := (4 * (x.significand * (den * 2 ^ x.scale)) : Nat))
    (b := 4 * (num / den) + x.gap * x.step)
    (d := (4 * (num * 2 ^ leastPlaces) + x.gap * (den * 2 ^ x.scale) : Nat))
    (by push_cast; linarith)
  have upper := le_iff_of_sub_mul_eq factor
    (a := 4 * (num / den)) (c := (4 * (num * 2 ^ leastPlaces) : Nat))
    (b := 4 * x.magnitude + 2 * x.step)
    (d := (4 * (x.significand * (den * 2 ^ x.scale)) + 2 * (den * 2 ^ x.scale) : Nat))
    (by push_cast; linarith)
  rw [Nat.cast_le, Nat.cast_lt] at lower upper
  rw [Near, lower.1, lower.2, upper.1, upper.2]
  exact ⟨fun h => ⟨⟨h.low, h.high⟩, h.ends⟩, fun h => ⟨positive, h.1.1, h.1.2, h.2⟩⟩

lemma nearestTo_iff_near {x : Binary64} (d : Decimal) :
    x.NearestTo d.digits d.exponent ↔ x.Near d.value := by
  have ten : (10 : ℚ) ≠ 0 := by norm_num
  have split : d.exponent = (d.exponent.toNat : ℤ) - ((-d.exponent).toNat : ℤ) := by omega
  have value : d.value =
      ((d.digits * 10 ^ d.exponent.toNat : Nat) : ℚ) / (10 ^ (-d.exponent).toNat : Nat) := by
    rw [Decimal.value, split, zpow_sub₀ ten, zpow_natCast, zpow_natCast, ← split]
    push_cast
    ring
  rw [NearestTo, rounds_iff_near (by positivity), ← value]

end Binary64

/-! ### Cells -/

/-- A number, counted in quarters of the unit, belongs to a cell. -/
def Cell.Holds (c : Cell) (t : ℚ) : Prop :=
  (c.low ≤ t ∧ t ≤ c.high) ∧ (c.closed = true ∨ c.low < t ∧ t < c.high)

lemma Cell.holds_natCast {c : Cell} {n : Nat} : c.Holds n ↔ c.contains n = true := by
  rw [Holds, contains]
  cases c.closed <;> simp
  omega

/-- What lies between two numbers of a cell belongs to it. -/
lemma Cell.Holds.between {c : Cell} {r s t : ℚ} (first : c.Holds r) (last : c.Holds t)
    (above : r ≤ s) (below : s ≤ t) : c.Holds s := by
  obtain ⟨low, strict⟩ := first
  obtain ⟨high, strict'⟩ := last
  refine ⟨⟨le_trans low.1 above, le_trans below high.2⟩, ?_⟩
  rcases strict with closed | strict
  · exact .inl closed
  · exact strict'.imp_right fun strict' =>
      ⟨lt_of_lt_of_le strict.1 above, lt_of_le_of_lt below strict'.2⟩

namespace Binary64

/-- The magnitude of a double and its step, in units of the last decimal place of the double. -/
lemma magnitude_mul_ten_pow (x : Binary64) :
    x.magnitude * 10 ^ (leastPlaces - x.scale) = x.significand * x.decimalStep ∧
      x.step * 10 ^ (leastPlaces - x.scale) = x.decimalStep := by
  have unit :
      (2 ^ x.scale * 10 ^ (leastPlaces - x.scale) : ℚ) = x.decimalStep * 2 ^ leastPlaces := by
    exact_mod_cast (step_mul x.scale leastPlaces).symm
  have step : x.step * 10 ^ (leastPlaces - x.scale) = x.decimalStep := by
    rw [Binary64.step, div_mul_eq_mul_div, unit, mul_div_assoc, div_self (by positivity), mul_one]
  refine ⟨?_, step⟩
  rw [magnitude, units_eq, ← step, Binary64.step]
  push_cast
  ring

/-- The cell of a double holds just the numbers that are rounded to the double. -/
theorem isRoundingOf_iff_holds {x : Binary64} (finite : x.isFinite = true)
    (nonzero : x.isZero = false) (q : ℚ) :
    x.IsRoundingOf q ↔ x.cell.Holds (4 * (x.sign * q * 10 ^ x.cell.places)) := by
  obtain ⟨magnitude, step⟩ := x.magnitude_mul_ten_pow
  have below := Nat.le_of_lt (gap_lt nonzero)
  have scale : (0 : ℚ) < 10 ^ (leastPlaces - x.scale) := by positivity
  have lower := le_iff_of_sub_mul_eq scale
    (a := 4 * x.magnitude) (c := (4 * x.significand * x.decimalStep - x.gap * x.decimalStep : Nat))
    (b := 4 * (x.sign * q) + x.gap * x.step)
    (d := 4 * (x.sign * q * 10 ^ (leastPlaces - x.scale)))
    (by rw [Nat.cast_sub below]; push_cast; rw [mul_assoc 4, ← magnitude, ← step]; ring)
  have upper := le_iff_of_sub_mul_eq scale
    (a := 4 * (x.sign * q)) (c := 4 * (x.sign * q * 10 ^ (leastPlaces - x.scale)))
    (b := 4 * x.magnitude + 2 * x.step)
    (d := (4 * x.significand * x.decimalStep + 2 * x.decimalStep : Nat))
    (by push_cast; rw [mul_assoc 4 (x.significand : ℚ), ← magnitude, ← step]; ring)
  rw [isRoundingOf_iff_near finite nonzero, Near, Cell.Holds, cell_eq, beq_iff_eq, lower.1, lower.2,
    upper.1, upper.2]

end Binary64

end ReadThrough
