import Mathlib.Tactic.Common
import ReadThrough.Number.Layout
import ReadThrough.Number.Scaled
import ReadThrough.Proofs.Number.Rounding

/-!
The shortest decimal of a double reads back as the double.

* `Cell.digitCount_spec`: the number of digits of a number.
* `Decimal.Within`: a decimal, counted in quarters of the unit of a cell, belongs to the cell.
  `Cell.within_shortest` says that the shortest decimal does.
* `Binary64.ofDecimal_eq`: of every decimal the nearest double is found, if it is finite.
* `Binary64.nearestTo_shortest`: a double is nearest to its shortest decimal.
-/

namespace ReadThrough

/-! ### Counting digits -/

namespace Cell

lemma digitCount_go {n : Nat} (fuel guess : Nat) (low : ∀ k < guess, 10 ^ k ≤ n)
    (high : n < 10 ^ (guess + fuel)) :
    n < 10 ^ digitCount.go n guess fuel ∧ ∀ k < digitCount.go n guess fuel, 10 ^ k ≤ n := by
  induction fuel generalizing guess with
  | zero => exact ⟨high, low⟩
  | succ fuel ih =>
      rw [digitCount.go]
      simp only [Nat.pow_eq]
      split
      · exact ⟨‹_›, low⟩
      · refine ih (guess + 1) (fun k lt => ?_) (by rwa [Nat.add_assoc, Nat.add_comm 1])
        rcases Nat.lt_or_eq_of_le (Nat.le_of_lt_succ lt) with lt | rfl
        · exact low k lt
        · omega

/-- Powers of ten and of two whose exponents are compared by those of one other pair. -/
lemma ten_pow_le {a b k l : Nat} (bound : 10 ^ a ≤ 2 ^ b) (share : b * k ≤ a * l)
    (positive : b ≠ 0) : 10 ^ k ≤ 2 ^ l := by
  refine (Nat.pow_le_pow_iff_left positive).mp ?_
  calc
    (10 ^ k) ^ b = 10 ^ (b * k) := by rw [← Nat.pow_mul, Nat.mul_comm]
    _ ≤ 10 ^ (a * l) := Nat.pow_le_pow_right (by decide) share
    _ = (10 ^ a) ^ l := Nat.pow_mul ..
    _ ≤ (2 ^ b) ^ l := Nat.pow_le_pow_left bound l
    _ = (2 ^ l) ^ b := by rw [← Nat.pow_mul, ← Nat.pow_mul, Nat.mul_comm]

/-- A number has as many digits as the least power of ten above it says. -/
lemma digitCount_spec {n : Nat} (positive : n ≠ 0) :
    n < 10 ^ digitCount n ∧ ∀ k < digitCount n, 10 ^ k ≤ n := by
  refine digitCount_go _ _ (fun k lt => ?_) ?_
  · calc
      10 ^ k ≤ 10 ^ (Nat.log2 n * 301 / 1000) := Nat.pow_le_pow_right (by decide) (Nat.le_of_lt lt)
      _ ≤ 2 ^ Nat.log2 n :=
        ten_pow_le (a := 301) (b := 1000) (by decide +kernel) (by omega) (by omega)
      _ ≤ n := Nat.log2_self_le positive
  · calc
      n < 2 ^ (Nat.log2 n + 1) := Nat.lt_log2_self
      _ ≤ 10 ^ (Nat.log2 n + 1) := Nat.pow_le_pow_left (by decide) _
      _ ≤ 10 ^ (Nat.log2 n * 301 / 1000 + (Nat.log2 n + 1)) :=
        Nat.pow_le_pow_right (by decide) (by omega)

/-- A decimal below a power of ten, whatever the powers that scale both, has no more digits. -/
lemma digitCount_le {digits up down : Nat} (bound : Nat) (nonzero : digits ≠ 0)
    (below : digits * 10 ^ up < 10 ^ down * 10 ^ bound) :
    digitCount digits + up ≤ down + bound := by
  have count := digitCount_spec nonzero
  have some_digit : digitCount digits ≠ 0 := by
    intro none
    rw [none] at count
    omega
  have power : 10 ^ (digitCount digits - 1 + up) < 10 ^ (down + bound) := by
    calc
      10 ^ (digitCount digits - 1 + up) = 10 ^ (digitCount digits - 1) * 10 ^ up := Nat.pow_add ..
      _ ≤ digits * 10 ^ up := Nat.mul_le_mul_right _ (count.2 _ (by omega))
      _ < 10 ^ down * 10 ^ bound := below
      _ = 10 ^ (down + bound) := (Nat.pow_add ..).symm
  have := (Nat.pow_lt_pow_iff_right (by decide)).mp power
  omega

/-- A decimal that is no smaller than a power of ten has as many digits. -/
lemma lt_digitCount {digits up down : Nat} (bound : Nat) (nonzero : digits ≠ 0)
    (above : 10 ^ down ≤ digits * 10 ^ up * 10 ^ bound) :
    down < digitCount digits + up + bound := by
  have power : 10 ^ down < 10 ^ (digitCount digits + up + bound) := by
    calc
      10 ^ down ≤ digits * 10 ^ up * 10 ^ bound := above
      _ < 10 ^ digitCount digits * 10 ^ up * 10 ^ bound :=
        Nat.mul_lt_mul_of_pos_right (Nat.mul_lt_mul_of_pos_right (digitCount_spec nonzero).1
          (Nat.pow_pos (by decide))) (Nat.pow_pos (by decide))
      _ = 10 ^ (digitCount digits + up + bound) := by rw [Nat.pow_add, Nat.pow_add]
  exact (Nat.pow_lt_pow_iff_right (by decide)).mp power

end Cell

/-! ### The shortest decimal is in the cell -/

namespace Cell

lemma contains_nearer {c : Cell} {tie : Tie} {grid lower : Nat}
    (first : c.contains (lower * grid) = true) (second : c.contains ((lower + 1) * grid) = true) :
    c.contains (c.nearer tie grid lower * grid) = true := by
  rw [nearer]
  split_ifs <;> assumption

lemma contains_nearestMultiple {c : Cell} {tie : Tie} {zeros digits : Nat}
    (found : c.nearestMultiple? tie zeros = some digits) :
    c.contains (digits * (4 * 10 ^ zeros)) = true := by
  simp only [nearestMultiple?, Nat.pow_eq] at found
  split at found <;> simp only [Option.some.injEq, reduceCtorEq] at found <;> subst found
  · exact contains_nearer ‹_› ‹_›
  · assumption
  · assumption

/-- The coarsest multiple belongs to the cell if the centre does. -/
lemma contains_coarsest {c : Cell} (tie : Tie) (whole : 4 ∣ c.centre)
    (centre : c.contains c.centre = true) (zeros : Nat) :
    c.contains ((c.coarsest tie zeros).1 * (4 * 10 ^ (c.coarsest tie zeros).2)) = true := by
  induction zeros with
  | zero => simpa [coarsest, Nat.div_mul_cancel whole] using centre
  | succ zeros ih =>
      rw [coarsest]
      split
      · exact contains_nearestMultiple ‹_›
      · exact ih

end Cell

/-- A decimal of `zeros` places more than a cell has, counted in quarters of the unit of the cell,
belongs to it. -/
def Decimal.Within (d : Decimal) (c : Cell) : Prop :=
  ∃ zeros : Nat, d.exponent = (zeros : Int) - (c.places : Int) ∧
    c.contains (d.digits * (4 * 10 ^ zeros)) = true

/-- The shortest decimal belongs to the cell if the centre does. -/
lemma Cell.within_shortest {c : Cell} (tie : Tie) (whole : 4 ∣ c.centre)
    (centre : c.contains c.centre = true) : (c.shortest tie).Within c := by
  have within := contains_coarsest tie whole centre (digitCount (c.centre / 4) - 1)
  rw [shortest]
  cases found : c.coarsest tie (digitCount (c.centre / 4) - 1) with
  | mk digits zeros =>
      rw [found] at within
      simp only
      split
      · rename_i ten
        obtain rfl : digits = 10 := by simpa using ten
        have same : 1 * (4 * 10 ^ (zeros + 1)) = 10 * (4 * 10 ^ zeros) := by
          rw [Nat.pow_succ]
          omega
        exact ⟨zeros + 1, rfl, same ▸ within⟩
      · exact ⟨zeros, rfl, within⟩

namespace Binary64

/-! ### Decimals in the cell of a double -/

/-- The step between the doubles around a double, in units of the last decimal place of the
double. -/
def decimalStep (x : Binary64) : Nat :=
  2 ^ (x.scale - leastPlaces) * 5 ^ (leastPlaces - x.scale)

lemma decimalStep_pos (x : Binary64) : 0 < x.decimalStep :=
  Nat.mul_pos (Nat.two_pow_pos _) (Nat.pow_pos (by decide))

/-- One step, in binary and in decimal places. -/
lemma step_mul (scale places : Nat) :
    2 ^ (scale - places) * 5 ^ (places - scale) * 2 ^ places =
      2 ^ scale * 10 ^ (places - scale) := by
  rcases Nat.le_total scale places with le | le
  · obtain ⟨more, rfl⟩ := Nat.exists_eq_add_of_le le
    rw [Nat.add_sub_cancel_left, Nat.sub_eq_zero_of_le le, Nat.pow_zero, Nat.one_mul, Nat.pow_add,
      show (10 : Nat) = 2 * 5 from rfl, Nat.mul_pow, Nat.mul_comm, Nat.mul_assoc]
  · obtain ⟨more, rfl⟩ := Nat.exists_eq_add_of_le le
    simp only [Nat.add_sub_cancel_left, Nat.sub_eq_zero_of_le le, Nat.pow_add, Nat.pow_zero,
      Nat.mul_one]
    exact Nat.mul_comm ..

lemma cell_eq (x : Binary64) :
    x.cell =
      { centre := 4 * x.significand * x.decimalStep
        low := 4 * x.significand * x.decimalStep - x.gap * x.decimalStep
        high := 4 * x.significand * x.decimalStep + 2 * x.decimalStep
        closed := x.significand % 2 == 0
        places := leastPlaces - x.scale } := by
  have narrow : (x.significand == Nat.pow 2 52 && decide (0 < x.scale)) = x.isNarrow := rfl
  simp only [cell, Cell.ofBinary, narrow, gap, decimalStep, Nat.pow_eq]
  cases x.isNarrow <;> simp

lemma significand_pos {x : Binary64} (nonzero : x.isZero = false) : 0 < x.significand := by
  have pattern := x.pattern_eq
  have nonzero := pattern_ne_zero nonzero
  by_contra none
  have scale : x.scale = 0 := by
    by_contra scaled
    have := le_significand (Nat.pos_of_ne_zero scaled)
    omega
  rw [scale] at pattern
  omega

/-- The halfway point below a double is above zero. -/
lemma gap_lt {x : Binary64} (nonzero : x.isZero = false) :
    x.gap * x.decimalStep < 4 * x.significand * x.decimalStep := by
  have positive := significand_pos nonzero
  refine Nat.mul_lt_mul_of_pos_right ?_ x.decimalStep_pos
  rw [gap]
  split <;> omega

lemma gap_pos (x : Binary64) : 0 < x.gap * x.decimalStep := by
  refine Nat.mul_pos ?_ x.decimalStep_pos
  rw [gap]
  split <;> omega

/-- What belongs to the cell of a double. -/
lemma contains_cell_iff {x : Binary64} (nonzero : x.isZero = false) (n : Nat) :
    x.cell.contains n = true ↔
      4 * x.significand * x.decimalStep ≤ n + x.gap * x.decimalStep ∧
      n ≤ 4 * x.significand * x.decimalStep + 2 * x.decimalStep ∧
      (x.significand % 2 = 0 ∨
        4 * x.significand * x.decimalStep < n + x.gap * x.decimalStep ∧
        n < 4 * x.significand * x.decimalStep + 2 * x.decimalStep) := by
  have below := gap_lt nonzero
  simp only [Cell.contains, cell_eq, beq_iff_eq]
  split <;> simp only [Bool.and_eq_true, decide_eq_true_eq] <;> omega

lemma within_shortest {x : Binary64} (nonzero : x.isZero = false) (tie : Tie) :
    (x.cell.shortest tie).Within x.cell := by
  refine Cell.within_shortest tie ?_ ?_
  · rw [cell_eq]
    exact Nat.dvd_mul_right_of_dvd (Nat.dvd_mul_right ..) _
  · have := x.gap_pos
    have := x.decimalStep_pos
    rw [contains_cell_iff nonzero]
    simp only [cell_eq]
    omega

/-! ### Reading the decimal back -/

lemma le_iff_of_mul_eq {a b c d f g : Nat} (hf : 0 < f) (hg : 0 < g) (first : a * f = c * g)
    (second : b * f = d * g) : (a ≤ b ↔ c ≤ d) ∧ (a < b ↔ c < d) := by
  rw [← Nat.mul_le_mul_right_iff hf, ← Nat.mul_lt_mul_right hf, first, second,
    Nat.mul_le_mul_right_iff hg, Nat.mul_lt_mul_right hg]
  exact ⟨Iff.rfl, Iff.rfl⟩

/-- A quotient that stands for a decimal in the cell of a double is nearer to the double than to its
neighbours. -/
lemma rounds_of_contains {x : Binary64} (nonzero : x.isZero = false) {num den n : Nat}
    (positive : 0 < den) (contains : x.cell.contains n = true)
    (value : 4 * num * 10 ^ (leastPlaces - x.scale) = n * den) : x.Rounds num den := by
  obtain ⟨low, high, ends⟩ := (contains_cell_iff nonzero n).mp contains
  -- each comparison is multiplied by the denominators of both sides
  have factor : 0 < den * 2 ^ leastPlaces := Nat.mul_pos positive (Nat.two_pow_pos _)
  have ten : 0 < 10 ^ (leastPlaces - x.scale) := Nat.pow_pos (by decide)
  have number : n * (den * 2 ^ leastPlaces) =
      4 * (num * 2 ^ leastPlaces) * 10 ^ (leastPlaces - x.scale) := by
    rw [← Nat.mul_assoc, ← value, Nat.mul_right_comm, Nat.mul_assoc 4]
  have step : x.decimalStep * (den * 2 ^ leastPlaces) =
      den * 2 ^ x.scale * 10 ^ (leastPlaces - x.scale) := by
    rw [Nat.mul_left_comm, decimalStep, step_mul, Nat.mul_assoc]
  have centre : 4 * x.significand * x.decimalStep * (den * 2 ^ leastPlaces) =
      4 * (x.significand * (den * 2 ^ x.scale)) * 10 ^ (leastPlaces - x.scale) := by
    rw [Nat.mul_assoc, step, ← Nat.mul_assoc, Nat.mul_assoc 4]
  have above : ∀ k, k * x.decimalStep * (den * 2 ^ leastPlaces) =
      k * (den * 2 ^ x.scale) * 10 ^ (leastPlaces - x.scale) := fun k => by
    rw [Nat.mul_assoc, step, ← Nat.mul_assoc]
  have lower := le_iff_of_mul_eq factor ten centre
    (show (n + x.gap * x.decimalStep) * _ = (4 * (num * 2 ^ leastPlaces) +
      x.gap * (den * 2 ^ x.scale)) * _ by rw [Nat.add_mul, Nat.add_mul, number, above])
  have upper := le_iff_of_mul_eq factor ten number
    (show (4 * x.significand * x.decimalStep + 2 * x.decimalStep) * _ =
      (4 * (x.significand * (den * 2 ^ x.scale)) + 2 * (den * 2 ^ x.scale)) * _ by
        rw [Nat.add_mul, Nat.add_mul, centre, above])
  refine ⟨positive, lower.1.mp low, upper.1.mp high, ?_⟩
  rw [← lower.2, ← upper.2]
  exact ends

/-- A decimal within the range of doubles is read as a quotient. -/
lemma ofDecimal_eq_ofRatio (negative : Bool) {digits : Nat} {exponent : Int} (nonzero : digits ≠ 0)
    (large : -330 ≤ (Cell.digitCount digits : Int) + exponent)
    (small : (Cell.digitCount digits : Int) + exponent ≤ 310) :
    ofDecimal negative digits exponent =
      ofRatio negative (digits * 10 ^ exponent.toNat) (10 ^ (-exponent).toNat) := by
  cases exponent with
  | ofNat zeros =>
      simp only [ofDecimal, Nat.pow_eq]
      rw [if_neg (by omega), if_neg (by omega)]
      simp
  | negSucc n =>
      simp only [ofDecimal, Nat.pow_eq]
      rw [if_neg (by omega), if_neg (by omega)]
      simp

/-- A quotient that is rounded to a finite double is below every power of ten that is out of
range. -/
lemma Rounds.lt_mul {x : Binary64} (finite : x.isFinite = true) {num den : Nat}
    (h : x.Rounds num den) (bound : Nat)
    (range : 2 ^ 53 * 2 ^ greatestScale ≤ 10 ^ bound * 2 ^ leastPlaces) :
    num < den * 10 ^ bound := by
  have size := Nat.mul_le_mul_right (den * 2 ^ x.scale) (Nat.le_of_lt_succ x.significand_lt)
  have unit : 0 < den * 2 ^ x.scale := Nat.mul_pos h.positive (Nat.two_pow_pos _)
  have below : num * 2 ^ leastPlaces < 2 ^ 53 * (den * 2 ^ x.scale) := by
    have := h.high
    omega
  have step : den * 2 ^ x.scale ≤ den * 2 ^ greatestScale :=
    Nat.mul_le_mul_left den (Nat.pow_le_pow_right (by decide) (scale_le finite))
  refine Nat.lt_of_mul_lt_mul_right (a := 2 ^ leastPlaces) ?_
  calc
    num * 2 ^ leastPlaces < 2 ^ 53 * (den * 2 ^ x.scale) := below
    _ ≤ 2 ^ 53 * (den * 2 ^ greatestScale) := Nat.mul_le_mul_left _ step
    _ = 2 ^ 53 * 2 ^ greatestScale * den := by rw [Nat.mul_left_comm, Nat.mul_comm]
    _ ≤ 10 ^ bound * 2 ^ leastPlaces * den := Nat.mul_le_mul_right den range
    _ = den * 10 ^ bound * 2 ^ leastPlaces := by rw [Nat.mul_comm, Nat.mul_assoc]

/-- A quotient that is rounded to a double other than zero is not below any power of ten that is
rounded to zero. -/
lemma Rounds.le_mul {x : Binary64} (nonzero : x.isZero = false) {num den : Nat}
    (h : x.Rounds num den) (bound : Nat) (range : 2 * 2 ^ leastPlaces ≤ 10 ^ bound) :
    den ≤ num * 10 ^ bound := by
  have size := Nat.mul_le_mul_right (den * 2 ^ x.scale) (significand_pos nonzero)
  have gap := x.gap_le (den * 2 ^ x.scale)
  have above : den * 2 ^ x.scale ≤ 2 * (num * 2 ^ leastPlaces) := by
    have := h.low
    omega
  calc
    den ≤ den * 2 ^ x.scale := Nat.le_mul_of_pos_right den (Nat.two_pow_pos _)
    _ ≤ 2 * (num * 2 ^ leastPlaces) := above
    _ = num * (2 * 2 ^ leastPlaces) := Nat.mul_left_comm ..
    _ ≤ num * 10 ^ bound := Nat.mul_le_mul_left num range

/-- A double other than zero is not nearest to zero. -/
lemma NearestTo.digits_ne_zero {x : Binary64} (nonzero : x.isZero = false) {digits : Nat}
    {exponent : Int} (h : x.NearestTo digits exponent) : digits ≠ 0 := by
  rintro rfl
  have unit : 0 < 10 ^ (-exponent).toNat * 2 ^ x.scale := Nat.mul_pos h.positive (Nat.two_pow_pos _)
  have size := Nat.mul_le_mul_right (10 ^ (-exponent).toNat * 2 ^ x.scale) (significand_pos nonzero)
  have gap := x.gap_le (10 ^ (-exponent).toNat * 2 ^ x.scale)
  have low := h.low
  rw [Nat.zero_mul, Nat.zero_mul] at low
  omega

/-- The finite double nearest to a decimal is found, also by the short cuts for decimals far out of
range. -/
theorem ofDecimal_eq {x : Binary64} (finite : x.isFinite = true) {digits : Nat} {exponent : Int}
    (nearest : x.NearestTo digits exponent) : ofDecimal x.isNegative digits exponent = x := by
  by_cases tiny : digits = 0 ∨ (Cell.digitCount digits : Int) + exponent < -330
  · have zero : x.isZero = true := by
      by_contra other
      have nonzero := Bool.eq_false_iff.mpr other
      have digits := nearest.digits_ne_zero nonzero
      have := Cell.lt_digitCount 330 digits (nearest.le_mul nonzero 330 (by decide +kernel))
      omega
    simp only [ofDecimal]
    rw [if_pos tiny, ← pattern_of_isZero zero, ofPattern_pattern]
  · obtain ⟨nonzero, large⟩ := not_or.mp tiny
    have small := Cell.digitCount_le 310 nonzero (nearest.lt_mul finite 310 (by decide +kernel))
    rw [ofDecimal_eq_ofRatio _ nonzero (by omega) (by omega)]
    exact ofRatio_eq finite nearest

/-- A double other than zero is nearest to the decimals in its cell. -/
lemma nearestTo_of_within {x : Binary64} (nonzero : x.isZero = false) {d : Decimal}
    (within : d.Within x.cell) : x.NearestTo d.digits d.exponent := by
  obtain ⟨zeros, exponent, contains⟩ := within
  have places : d.exponent.toNat + (leastPlaces - x.scale) = zeros + (-d.exponent).toNat := by
    rw [cell_eq] at exponent
    simp only at exponent
    omega
  refine rounds_of_contains nonzero (Nat.pow_pos (by decide)) contains ?_
  calc
    4 * (d.digits * 10 ^ d.exponent.toNat) * 10 ^ (leastPlaces - x.scale)
      = 4 * d.digits * 10 ^ (d.exponent.toNat + (leastPlaces - x.scale)) := by
        rw [← Nat.mul_assoc, Nat.mul_assoc _ (10 ^ d.exponent.toNat), ← Nat.pow_add]
    _ = d.digits * (4 * 10 ^ zeros) * 10 ^ (-d.exponent).toNat := by
        rw [places, Nat.pow_add, ← Nat.mul_assoc, ← Nat.mul_assoc, Nat.mul_comm 4]

/-- A finite double is written by its sign and its shortest decimal, except zero. -/
lemma text_of_isFinite {x : Binary64} (finite : x.isFinite = true) :
    x.text = if x.isZero then ['0'] else x.signText ++ x.cell.text Layout.canonical := by
  have small := pattern_lt finite
  have number : x.isNaN = false := decide_eq_false (Nat.not_lt.mpr (Nat.le_of_lt small))
  have bounded : x.isInfinite = false := beq_false_of_ne (Nat.ne_of_lt small)
  simp only [text, number, bounded, Bool.false_eq_true, if_false]

/-- A double other than zero is nearest to its shortest decimal, whichever of two equally near ones
was taken. -/
theorem nearestTo_shortest {x : Binary64} (nonzero : x.isZero = false) (tie : Tie) :
    x.NearestTo (x.cell.shortest tie).digits (x.cell.shortest tie).exponent :=
  nearestTo_of_within nonzero (within_shortest nonzero tie)

end Binary64

end ReadThrough
