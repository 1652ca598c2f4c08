import Mathlib.Algebra.Group.Nat.Defs
import Mathlib.Tactic.Common
import ReadThrough.Number.Binary64

/-!
Rounding finds a double from any quotient near to it.

* `pattern_eq`, `significand_lt`, `le_significand`, `scale_le`: the bits of a double without the
  sign are its significand and its scale, one behind the other.
* `roundHalfEven_eq`: a quotient within a half of a whole number is rounded to it, and one at
  exactly a half if the number is even.
* `Rounds`, `NearestTo`: a quotient, or a decimal, is nearer to a double than to its neighbours, or
  halfway to one of them and the double is the even one of the two.
* `Rounds.nearest`: no double is nearer to such a quotient.
* `ofRatio_eq`: such a quotient is rounded to the double.
-/

namespace ReadThrough.Binary64

/-! ### The bits of a double -/

/-- The sign and the rest of the bits give the double back. -/
lemma ofPattern_pattern (x : Binary64) : ofPattern x.isNegative x.pattern = x := by
  have size := x.bits.toNat_lt
  have bits : x.pattern + (if x.isNegative then Nat.pow 2 63 else 0) = x.bits.toNat := by
    simp only [pattern, isNegative, Nat.pow_eq, decide_eq_true_eq]
    split <;> omega
  rw [ofPattern, bits, UInt64.ofNat_toNat]

lemma pattern_eq (x : Binary64) : x.pattern = x.scale * 2 ^ 52 + x.significand := by
  simp only [scale, significand, Nat.pow_eq]
  split <;> omega

lemma significand_lt (x : Binary64) : x.significand < 2 ^ 53 := by
  simp only [significand, Nat.pow_eq]
  split <;> omega

/-- Only doubles at the bottom of the range have significands without a leading bit. -/
lemma le_significand {x : Binary64} (h : 0 < x.scale) : 2 ^ 52 ≤ x.significand := by
  simp only [scale, significand, Nat.pow_eq] at h ⊢
  split <;> omega

lemma pattern_lt {x : Binary64} (finite : x.isFinite = true) : x.pattern < infinityPattern :=
  of_decide_eq_true finite

lemma pattern_of_isZero {x : Binary64} (zero : x.isZero = true) : x.pattern = 0 :=
  eq_of_beq zero

lemma pattern_ne_zero {x : Binary64} (nonzero : x.isZero = false) : x.pattern ≠ 0 :=
  ne_of_beq_false nonzero

lemma isFinite_of_isZero {x : Binary64} (zero : x.isZero = true) : x.isFinite = true :=
  decide_eq_true (by rw [pattern_of_isZero zero]; decide)

/-- The scale of the greatest finite doubles. -/
def greatestScale : Nat := 2045

lemma scale_le {x : Binary64} (finite : x.isFinite = true) : x.scale ≤ greatestScale := by
  have small : x.pattern < 2047 * 2 ^ 52 := pattern_lt finite
  simp only [scale, greatestScale, Nat.pow_eq]
  omega

/-! ### Rounding to whole numbers -/

/-- A quotient within a half of a whole number is rounded to it, and one at exactly a half if the
number is even. -/
lemma roundHalfEven_eq {num den k : Nat} (low : 2 * (k * den) ≤ 2 * num + den)
    (high : 2 * num ≤ 2 * (k * den) + den)
    (ends : k % 2 = 0 ∨ 2 * (k * den) < 2 * num + den ∧ 2 * num < 2 * (k * den) + den)
    (positive : 0 < den) : roundHalfEven num den = k := by
  have parts := Nat.div_add_mod' num den
  have rest := Nat.mod_lt num positive
  set quotient := num / den
  set left := num % den
  -- the number is the quotient without its fraction or the next one
  have above : quotient ≤ k := by
    by_contra beyond
    have := Nat.mul_le_mul_right den (Nat.lt_of_not_le beyond)
    rw [Nat.succ_mul] at this
    omega
  have below : k ≤ quotient + 1 := by
    by_contra beyond
    have := Nat.mul_le_mul_right den (Nat.lt_of_not_le beyond)
    rw [Nat.succ_mul, Nat.succ_mul] at this
    omega
  rw [roundHalfEven]
  rcases Nat.lt_or_eq_of_le below with near | rfl
  · obtain rfl : k = quotient := by omega
    split_ifs <;> omega
  · rw [Nat.add_one_mul quotient den] at low high ends
    split_ifs <;> omega

/-! ### Rounding to doubles -/

/-- The pattern of the double nearest to a quotient, given the step between the doubles around
it. -/
lemma nearestPattern_eq_of_step {num den step : Nat} (positive : 0 < den)
    (low : step = 0 ∨ 2 ^ 52 * (den * 2 ^ step) ≤ num * 2 ^ leastPlaces)
    (high : num * 2 ^ leastPlaces < 2 ^ 53 * (den * 2 ^ step)) :
    nearestPattern num den = min infinityPattern
      (step * 2 ^ 52 + roundHalfEven (num * 2 ^ leastPlaces) (den * 2 ^ step)) := by
  have found : Nat.log2 (num * 2 ^ leastPlaces / den) - 52 = step := by
    have power : ∀ n, 2 ^ (n + step) * den = 2 ^ n * (den * 2 ^ step) := fun n => by
      rw [Nat.pow_add, Nat.mul_assoc, Nat.mul_comm (2 ^ step)]
    have small : num * 2 ^ leastPlaces / den < 2 ^ (53 + step) := by
      rw [Nat.div_lt_iff_lt_mul positive, power]
      exact high
    rcases low with rfl | low
    · by_cases zero : num * 2 ^ leastPlaces / den = 0
      · rw [zero]
        rfl
      · have := (Nat.log2_lt zero).mpr small
        omega
    · have large : 2 ^ (52 + step) ≤ num * 2 ^ leastPlaces / den := by
        rw [Nat.le_div_iff_mul_le positive, power]
        exact low
      have nonzero : num * 2 ^ leastPlaces / den ≠ 0 := by
        have := Nat.two_pow_pos (52 + step)
        omega
      have upper := (Nat.log2_lt nonzero).mpr small
      have lower := (Nat.le_log2 nonzero).mpr large
      omega
  simp only [nearestPattern, Nat.pow_eq, found]

/-- Whether the step to the next smaller double is half of that to the next greater one. -/
def isNarrow (x : Binary64) : Bool :=
  x.significand == Nat.pow 2 52 && decide (0 < x.scale)

/-- How far below a double the halfway point to the next smaller one lies, in quarters of the step
to the next greater one. -/
def gap (x : Binary64) : Nat :=
  if x.isNarrow then 1 else 2

/-- A quotient is nearer to a double than to its neighbours, or halfway to one of them while the
significand of the double is even. Distances are told in quarters of the step to the next greater
double. -/
structure Rounds (x : Binary64) (num den : Nat) : Prop where
  positive : 0 < den
  low : 4 * (x.significand * (den * 2 ^ x.scale)) ≤
    4 * (num * 2 ^ leastPlaces) + x.gap * (den * 2 ^ x.scale)
  high : 4 * (num * 2 ^ leastPlaces) ≤
    4 * (x.significand * (den * 2 ^ x.scale)) + 2 * (den * 2 ^ x.scale)
  ends : x.significand % 2 = 0 ∨
    4 * (x.significand * (den * 2 ^ x.scale)) <
      4 * (num * 2 ^ leastPlaces) + x.gap * (den * 2 ^ x.scale) ∧
    4 * (num * 2 ^ leastPlaces) <
      4 * (x.significand * (den * 2 ^ x.scale)) + 2 * (den * 2 ^ x.scale)

/-- A double is nearest to the decimal `digits · 10 ^ exponent`. -/
def NearestTo (x : Binary64) (digits : Nat) (exponent : Int) : Prop :=
  x.Rounds (digits * 10 ^ exponent.toNat) (10 ^ (-exponent).toNat)

lemma gap_le (x : Binary64) (d : Nat) : x.gap * d ≤ 2 * d := by
  refine Nat.mul_le_mul_right d ?_
  rw [gap]
  split <;> omega

/-! ### No double is nearer -/

lemma units_eq (x : Binary64) : x.units = x.significand * 2 ^ x.scale := by
  rw [units, Nat.pow_eq]

/-- Doubles of a scale stay below the least one of the next scale, by a step at least. -/
lemma units_add_le_top {x : Binary64} {scale : Nat} (small : x.scale ≤ scale) :
    x.units + 2 ^ scale ≤ 2 ^ 53 * 2 ^ scale := by
  have size : x.significand + 1 ≤ 2 ^ 53 := x.significand_lt
  calc
    x.units + 2 ^ scale = x.significand * 2 ^ x.scale + 2 ^ scale := by rw [units_eq]
    _ ≤ x.significand * 2 ^ scale + 2 ^ scale :=
      Nat.add_le_add_right (Nat.mul_le_mul_left _ (Nat.pow_le_pow_right (by decide) small)) _
    _ = (x.significand + 1) * 2 ^ scale := (Nat.succ_mul ..).symm
    _ ≤ 2 ^ 53 * 2 ^ scale := Nat.mul_le_mul_right _ size

/-- A greater pattern belongs to a double that is greater by a step at least. -/
lemma units_add_le {x y : Binary64} (less : x.pattern < y.pattern) :
    x.units + 2 ^ x.scale ≤ y.units := by
  have size := x.significand_lt
  have size' := y.significand_lt
  rw [pattern_eq, pattern_eq] at less
  rcases Nat.lt_trichotomy x.scale y.scale with lower | same | higher
  · have leading := le_significand (Nat.zero_lt_of_lt lower)
    have twice : 2 ^ (x.scale + 1) = 2 ^ x.scale * 2 := Nat.pow_succ ..
    calc
      x.units + 2 ^ x.scale ≤ 2 ^ 53 * 2 ^ x.scale := units_add_le_top (Nat.le_refl _)
      _ = 2 ^ 52 * 2 ^ (x.scale + 1) := by
        rw [twice]
        omega
      _ ≤ y.significand * 2 ^ y.scale :=
        Nat.mul_le_mul leading (Nat.pow_le_pow_right (by decide) lower)
      _ = y.units := y.units_eq.symm
  · have next : x.significand + 1 ≤ y.significand := by omega
    rw [units_eq, units_eq, ← same, ← Nat.succ_mul]
    exact Nat.mul_le_mul_right _ next
  · have leading := le_significand (Nat.zero_lt_of_lt higher)
    omega

/-- A smaller double is at least as far away as the next smaller one. -/
lemma two_units_add_gap_le {x y : Binary64} (less : y.pattern < x.pattern) :
    2 * y.units + x.gap * 2 ^ x.scale ≤ 2 * x.units := by
  have below := units_add_le less
  have narrowest := x.gap_le (2 ^ x.scale)
  rcases Nat.lt_or_ge y.scale x.scale with lower | same
  · obtain ⟨scale, next⟩ := Nat.exists_eq_succ_of_ne_zero (Nat.ne_of_gt (Nat.zero_lt_of_lt lower))
    have top : y.units + 2 ^ scale ≤ 2 ^ 53 * 2 ^ scale := units_add_le_top (by omega)
    have leading := le_significand (Nat.zero_lt_of_lt lower)
    have twice : 2 ^ x.scale = 2 * 2 ^ scale := by rw [next, Nat.pow_succ, Nat.mul_comm]
    by_cases narrow : x.significand = 2 ^ 52
    · have gap : x.gap = 1 := by simp [Binary64.gap, isNarrow, narrow, next]
      rw [units_eq x, narrow, gap, twice]
      omega
    · have more := Nat.mul_le_mul_right (2 ^ x.scale) (show 2 ^ 52 + 1 ≤ x.significand by omega)
      rw [← units_eq x] at more
      rw [twice] at more narrowest ⊢
      omega
  · have steps : 2 ^ x.scale ≤ 2 ^ y.scale := Nat.pow_le_pow_right (by decide) same
    omega

/-- No double is nearer to a quotient than one that it rounds to. The distances are told in units of
the least positive double, multiplied by the denominator. -/
theorem Rounds.nearest {x : Binary64} {num den : Nat} (h : x.Rounds num den) (y : Binary64) :
    ((num * 2 ^ leastPlaces : Nat) - (den * x.units : Nat) : Int).natAbs ≤
      ((num * 2 ^ leastPlaces : Nat) - (den * y.units : Nat) : Int).natAbs := by
  obtain ⟨-, low, high, -⟩ := h
  have magnitude : x.significand * (den * 2 ^ x.scale) = den * x.units := by
    rw [units_eq, Nat.mul_left_comm]
  rw [magnitude] at low high
  rcases Nat.lt_trichotomy y.pattern x.pattern with less | same | more
  · have apart := Nat.mul_le_mul_left den (two_units_add_gap_le less)
    rw [Nat.mul_add, Nat.mul_left_comm den 2, Nat.mul_left_comm den 2,
      Nat.mul_left_comm den x.gap] at apart
    omega
  · have units : y.units = x.units := by
      simp only [Binary64.units, significand, scale, same]
    exact Nat.le_of_eq (by rw [units])
  · have apart := Nat.mul_le_mul_left den (units_add_le more)
    rw [Nat.mul_add] at apart
    omega

/-! ### What is rounded to a double -/

lemma nearestPattern_eq {x : Binary64} (finite : x.isFinite = true) {num den : Nat}
    (h : x.Rounds num den) : nearestPattern num den = x.pattern := by
  obtain ⟨positive, low, high, ends⟩ := h
  have small := pattern_lt finite
  have size := x.significand_lt
  have gap := x.gap_le (den * 2 ^ x.scale)
  have top := Nat.mul_le_mul_right (den * 2 ^ x.scale) (Nat.le_of_lt_succ size)
  have unit : 0 < den * 2 ^ x.scale := Nat.mul_pos positive (Nat.two_pow_pos _)
  by_cases same : x.scale = 0 ∨ 2 ^ 52 * (den * 2 ^ x.scale) ≤ num * 2 ^ leastPlaces
  · -- the quotient is scaled as the double is
    rw [nearestPattern_eq_of_step positive same (by omega),
      roundHalfEven_eq (k := x.significand) (by omega) (by omega) (by omega) unit, ← pattern_eq]
    exact Nat.min_eq_right (Nat.le_of_lt small)
  · -- the quotient lies just below a power of two, and is rounded up to it
    obtain ⟨scaled, beneath⟩ := not_or.mp same
    have leading := le_significand (Nat.pos_of_ne_zero scaled)
    have power : x.significand = 2 ^ 52 := by
      by_contra other
      have more := Nat.mul_le_mul_right (den * 2 ^ x.scale)
        (show 2 ^ 52 + 1 ≤ x.significand by omega)
      omega
    have narrow : x.gap = 1 := by
      simp [Binary64.gap, isNarrow, power, Nat.pos_of_ne_zero scaled]
    obtain ⟨step, next⟩ := Nat.exists_eq_succ_of_ne_zero scaled
    have twice : den * 2 ^ x.scale = 2 * (den * 2 ^ step) := by
      rw [next, Nat.pow_succ]
      ac_rfl
    rw [power, narrow, twice] at low
    rw [twice] at beneath unit
    have above : 2 ^ 52 * (den * 2 ^ step) ≤ num * 2 ^ leastPlaces := by omega
    rw [nearestPattern_eq_of_step positive (.inr above) (by omega),
      roundHalfEven_eq (k := 2 ^ 53) (by omega) (by omega) (.inl rfl) (by omega)]
    have pattern : x.pattern = step * 2 ^ 52 + 2 ^ 53 := by
      rw [pattern_eq, power, next]
      omega
    rw [← pattern]
    exact Nat.min_eq_right (Nat.le_of_lt small)

/-- A quotient that is nearer to a finite double than to its neighbours is rounded to it. -/
theorem ofRatio_eq {x : Binary64} (finite : x.isFinite = true) {num den : Nat}
    (h : x.Rounds num den) : ofRatio x.isNegative num den = x := by
  rw [ofRatio, nearestPattern_eq finite h, ofPattern_pattern]

end ReadThrough.Binary64
