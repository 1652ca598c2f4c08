import ReadThrough.Proofs.Number.Exact

/-!
Of the decimals in a cell none has fewer digits than the shortest one, and none with as many digits
is nearer to the centre.

* `Cell.Proper`: a cell holds its centre, which is whole, and does not hold zero.
* `Cell.Nearest`, `Cell.Proper.nearestMultiple?_spec`: on a grid of multiples of a power of ten the
  nearest number of the cell is found, if the cell holds any.
* `Cell.Coarsest`, `Cell.Proper.coarsest_spec`: the coarsest grid with a number in the cell.
* `Cell.Proper.shortest_spec`, `Cell.Proper.shortest_fewest`: the shortest decimal of a cell does
  not end in a zero, and is compared to all other decimals of the cell.
* `Binary64.isRoundingOf_shortest`, `Binary64.shortest_fewest`: the same of the decimal of a double,
  compared to all decimals that are rounded to the double.
-/

namespace ReadThrough

/-- A number is below a power of ten just if it has no more digits than the exponent says. -/
lemma length_natText_le_iff {n k : Nat} (positive : 0 < k) :
    (natText n).length ≤ k ↔ n < 10 ^ k :=
  Nat.length_toDigits_le_iff (by decide) positive

lemma lt_length_natText {n k : Nat} (large : 10 ^ k ≤ n) : k < (natText n).length := by
  rcases Nat.eq_zero_or_pos k with rfl | positive
  · exact Nat.length_toDigits_pos
  · by_contra short
    exact Nat.not_lt.mpr large ((length_natText_le_iff positive).mp (Nat.le_of_not_lt short))

lemma pow_le_of_lt_length {n k : Nat} (nonzero : n ≠ 0) (long : k < (natText n).length) :
    10 ^ k ≤ n := by
  rcases Nat.eq_zero_or_pos k with rfl | positive
  · exact Nat.pos_of_ne_zero nonzero
  · by_contra small
    exact Nat.not_le.mpr long ((length_natText_le_iff positive).mpr (Nat.lt_of_not_le small))

namespace Cell

variable {c : Cell} {tie : Tie}

/-- A cell holds its centre, which is whole, and does not hold zero. -/
structure Proper (c : Cell) : Prop where
  whole : 4 ∣ c.centre
  holds_centre : c.Holds c.centre
  not_holds_zero : ¬c.Holds 0

/-! ### Multiples of a power of ten -/

/-- A multiple of a power of ten, counted in quarters of the unit. -/
def multiple (zeros n : Nat) : ℚ :=
  (n * (4 * 10 ^ zeros) : Nat)

lemma multiple_le {zeros m n : Nat} (le : m ≤ n) : multiple zeros m ≤ multiple zeros n := by
  unfold multiple
  exact_mod_cast Nat.mul_le_mul_right _ le

/-- The number of the last multiple that is not above the centre. -/
def below (c : Cell) (zeros : Nat) : Nat :=
  c.centre / (4 * 10 ^ zeros)

lemma below_mul_le (c : Cell) (zeros : Nat) : c.below zeros * (4 * 10 ^ zeros) ≤ c.centre :=
  Nat.div_mul_le_self ..

lemma le_above_mul (c : Cell) (zeros : Nat) :
    c.centre ≤ (c.below zeros + 1) * (4 * 10 ^ zeros) :=
  Nat.le_of_lt (Nat.lt_mul_of_div_lt (Nat.lt_succ_self _) (by positivity))

lemma multiple_below_le (c : Cell) (zeros : Nat) : multiple zeros (c.below zeros) ≤ c.centre :=
  Nat.cast_le.mpr (c.below_mul_le zeros)

lemma le_multiple_above (c : Cell) (zeros : Nat) :
    (c.centre : ℚ) ≤ multiple zeros (c.below zeros + 1) :=
  Nat.cast_le.mpr (c.le_above_mul zeros)

/-- If the cell holds a multiple, it holds one of the two around the centre. -/
lemma Proper.holds_around (proper : c.Proper) {zeros n : Nat} (holds : c.Holds (multiple zeros n)) :
    n ≤ c.below zeros ∧ c.Holds (multiple zeros (c.below zeros)) ∨
      c.below zeros < n ∧ c.Holds (multiple zeros (c.below zeros + 1)) := by
  rcases Nat.lt_or_ge (c.below zeros) n with above | below
  · exact .inr ⟨above, proper.holds_centre.between holds (c.le_multiple_above zeros)
      (multiple_le above)⟩
  · exact .inl ⟨below, holds.between proper.holds_centre (multiple_le below)
      (c.multiple_below_le zeros)⟩

/-- Of the two multiples around the centre the nearer one. -/
lemma nearer_spec (c : Cell) (tie : Tie) (zeros : Nat) :
    let n := c.nearer tie (4 * 10 ^ zeros) (c.below zeros)
    (n = c.below zeros ∨ n = c.below zeros + 1) ∧
      |c.centre - multiple zeros n| ≤ |c.centre - multiple zeros (c.below zeros)| ∧
      |c.centre - multiple zeros n| ≤ |c.centre - multiple zeros (c.below zeros + 1)| := by
  have lower := c.below_mul_le zeros
  have upper := c.le_above_mul zeros
  have from_lower : |(c.centre : ℚ) - multiple zeros (c.below zeros)| =
      (c.centre - c.below zeros * (4 * 10 ^ zeros) : Nat) := by
    rw [abs_of_nonneg (sub_nonneg.mpr (c.multiple_below_le zeros)), Nat.cast_sub lower, multiple]
  have from_upper : |(c.centre : ℚ) - multiple zeros (c.below zeros + 1)| =
      ((c.below zeros + 1) * (4 * 10 ^ zeros) - c.centre : Nat) := by
    rw [abs_of_nonpos (sub_nonpos.mpr (c.le_multiple_above zeros)), neg_sub, Nat.cast_sub upper,
      multiple]
  intro n
  have cases : n = c.below zeros ∧ c.centre - c.below zeros * (4 * 10 ^ zeros) ≤
        (c.below zeros + 1) * (4 * 10 ^ zeros) - c.centre ∨
      n = c.below zeros + 1 ∧ (c.below zeros + 1) * (4 * 10 ^ zeros) - c.centre ≤
        c.centre - c.below zeros * (4 * 10 ^ zeros) := by
    simp only [n, nearer]
    split_ifs <;> omega
  rcases cases with ⟨lower_taken, nearer⟩ | ⟨upper_taken, nearer⟩
  · rw [lower_taken, from_lower, from_upper]
    exact ⟨.inl rfl, le_refl _, by exact_mod_cast nearer⟩
  · rw [upper_taken, from_lower, from_upper]
    exact ⟨.inr rfl, by exact_mod_cast nearer, le_refl _⟩

/-- A multiple that belongs to the cell and is nearest to the centre among those that do. -/
structure Nearest (c : Cell) (zeros n : Nat) : Prop where
  around : n = c.below zeros ∨ n = c.below zeros + 1
  holds : c.Holds (multiple zeros n)
  least : ∀ other, c.Holds (multiple zeros other) →
    |c.centre - multiple zeros n| ≤ |c.centre - multiple zeros other|

/-- Multiples below the centre are the nearer the greater they are. -/
lemma dist_below_le {zeros n : Nat} (le : n ≤ c.below zeros) :
    |(c.centre : ℚ) - multiple zeros (c.below zeros)| ≤ |c.centre - multiple zeros n| := by
  have below := c.multiple_below_le zeros
  have further : multiple zeros n ≤ multiple zeros (c.below zeros) := multiple_le le
  rw [abs_of_nonneg (by linarith), abs_of_nonneg (by linarith)]
  linarith

/-- Multiples above the centre are the nearer the smaller they are. -/
lemma dist_above_le {zeros n : Nat} (lt : c.below zeros < n) :
    |(c.centre : ℚ) - multiple zeros (c.below zeros + 1)| ≤ |c.centre - multiple zeros n| := by
  have above := c.le_multiple_above zeros
  have further : multiple zeros (c.below zeros + 1) ≤ multiple zeros n :=
    multiple_le (Nat.succ_le_of_lt lt)
  rw [abs_of_nonpos (by linarith), abs_of_nonpos (by linarith)]
  linarith

/-- The nearest multiple is found if the cell holds any. -/
lemma Proper.nearestMultiple?_spec (proper : c.Proper) (tie : Tie) (zeros : Nat) :
    (c.nearestMultiple? tie zeros).elim (∀ n, ¬c.Holds (multiple zeros n)) (c.Nearest zeros) := by
  have lower : c.contains (c.below zeros * (4 * 10 ^ zeros)) = true ↔
      c.Holds (multiple zeros (c.below zeros)) := holds_natCast.symm
  have upper : c.contains ((c.below zeros + 1) * (4 * 10 ^ zeros)) = true ↔
      c.Holds (multiple zeros (c.below zeros + 1)) := holds_natCast.symm
  simp only [nearestMultiple?]
  split <;> rename_i first second
  · obtain ⟨around, no_farther, no_farther'⟩ := c.nearer_spec tie zeros
    refine ⟨around, ?_, fun n holds => ?_⟩
    · rcases around with same | same
      · exact same ▸ lower.mp first
      · exact same ▸ upper.mp second
    · rcases proper.holds_around holds with ⟨below, -⟩ | ⟨above, -⟩
      · exact no_farther.trans (dist_below_le below)
      · exact no_farther'.trans (dist_above_le above)
  · refine ⟨.inl rfl, lower.mp first, fun n holds => ?_⟩
    rcases proper.holds_around holds with ⟨below, -⟩ | ⟨-, holds⟩
    · exact dist_below_le below
    · exact absurd (upper.mpr holds) (ne_true_of_eq_false second)
  · refine ⟨.inr rfl, upper.mp second, fun n holds => ?_⟩
    rcases proper.holds_around holds with ⟨-, holds⟩ | ⟨above, -⟩
    · exact absurd (lower.mpr holds) (ne_true_of_eq_false first)
    · exact dist_above_le above
  · intro n holds
    rcases proper.holds_around holds with ⟨-, holds⟩ | ⟨-, holds⟩
    · exact absurd (lower.mpr holds) (ne_true_of_eq_false first)
    · exact absurd (upper.mpr holds) (ne_true_of_eq_false second)

/-! ### The coarsest grid -/

/-- On no coarser grid, up to some number of zeros, there is a number of the cell, and on this grid
none is nearer to the centre. -/
structure Coarsest (c : Cell) (most zeros n : Nat) : Prop where
  zeros_le : zeros ≤ most
  nearest : c.Nearest zeros n
  none_coarser : ∀ more, zeros < more → more ≤ most → ∀ other, ¬c.Holds (multiple more other)

lemma Proper.coarsest_spec (proper : c.Proper) (tie : Tie) (most : Nat) :
    c.Coarsest most (c.coarsest tie most).2 (c.coarsest tie most).1 := by
  induction most with
  | zero =>
      have centre : multiple 0 (c.centre / 4) = c.centre := by
        rw [multiple, Nat.pow_zero, Nat.mul_one, Nat.div_mul_cancel proper.whole]
      refine ⟨Nat.le_refl 0, ⟨.inl ?_, ?_, fun other holds => ?_⟩, fun more above within => ?_⟩
      · rw [coarsest, below, Nat.pow_zero, Nat.mul_one]
      · rw [coarsest, centre]
        exact proper.holds_centre
      · rw [coarsest, centre, sub_self, abs_zero]
        exact abs_nonneg _
      · omega
  | succ most ih =>
      have spec := proper.nearestMultiple?_spec tie (most + 1)
      rw [coarsest]
      cases found : c.nearestMultiple? tie (most + 1) with
      | some n =>
          rw [found] at spec
          exact ⟨Nat.le_refl _, spec, fun more above within =>
            absurd above (Nat.not_lt.mpr within)⟩
      | none =>
          rw [found] at spec
          refine ⟨Nat.le_succ_of_le ih.zeros_le, ih.nearest, fun more above within => ?_⟩
          rcases Nat.lt_or_eq_of_le within with lt | rfl
          · exact ih.none_coarser more above (Nat.le_of_lt_succ lt)
          · exact spec

/-! ### The shortest decimal -/

/-- The number of places of the leading digit of the centre before the point. -/
def leadingZeros (c : Cell) : Nat :=
  digitCount (c.centre / 4) - 1

lemma Proper.centre_pos (proper : c.Proper) : 0 < c.centre := by
  refine Nat.pos_of_ne_zero fun zero => proper.not_holds_zero ?_
  have holds := proper.holds_centre
  rwa [zero, Nat.cast_zero] at holds

/-- The centre in whole units, between two powers of ten. -/
lemma Proper.pow_leadingZeros_le (proper : c.Proper) :
    10 ^ c.leadingZeros ≤ c.centre / 4 ∧ c.centre / 4 < 10 ^ (c.leadingZeros + 1) := by
  have nonzero : c.centre / 4 ≠ 0 :=
    Nat.ne_of_gt (Nat.div_pos (Nat.le_of_dvd proper.centre_pos proper.whole) (by decide))
  obtain ⟨above, below⟩ := digitCount_spec nonzero
  have some_digit : digitCount (c.centre / 4) ≠ 0 := by
    intro none
    rw [none] at above
    omega
  rw [leadingZeros, Nat.sub_add_cancel (Nat.pos_of_ne_zero some_digit)]
  exact ⟨below _ (by omega), above⟩

/-- The multiple around the centre has as many digits as are left of the centre. -/
lemma Proper.below_bounds (proper : c.Proper) {zeros : Nat} (le : zeros ≤ c.leadingZeros) :
    10 ^ (c.leadingZeros - zeros) ≤ c.below zeros ∧
      c.below zeros < 10 ^ (c.leadingZeros - zeros + 1) := by
  obtain ⟨low, high⟩ := proper.pow_leadingZeros_le
  have grid : 0 < 10 ^ zeros := by positivity
  rw [below, ← Nat.div_div_eq_div_mul, Nat.le_div_iff_mul_le grid, Nat.div_lt_iff_lt_mul grid,
    ← Nat.pow_add, ← Nat.pow_add, Nat.sub_add_cancel le,
    show c.leadingZeros - zeros + 1 + zeros = c.leadingZeros + 1 by omega]
  exact ⟨low, high⟩

/-- A multiple of a coarser grid is one of each finer grid. -/
lemma multiple_add (zeros more n : Nat) :
    multiple (zeros + more) n = multiple zeros (n * 10 ^ more) := by
  rw [multiple, multiple, Nat.pow_add]
  congr 1
  ring

/-- A decimal without digits beyond a grid is a multiple of it. -/
lemma exists_multiple (n : Nat) {exponent : ℤ} {zeros : Nat} (le : (zeros : ℤ) ≤ exponent) :
    ∃ other, 4 * ((n : ℚ) * 10 ^ exponent) = multiple zeros other := by
  obtain ⟨more, rfl⟩ := Int.le.dest le
  refine ⟨n * 10 ^ more, ?_⟩
  rw [← multiple_add, multiple, ← Nat.cast_add, zpow_natCast]
  push_cast
  ring

/-- What the shortest decimal is made of: the nearest multiple of the coarsest grid, of which ten
times the grid is one digit and not two. -/
lemma Proper.shortest_spec (proper : c.Proper) (tie : Tie) :
    ∃ zeros n, c.Coarsest c.leadingZeros zeros n ∧
      (c.shortest tie).value * 10 ^ c.places = n * 10 ^ zeros ∧
      (natText (c.shortest tie).digits).length ≤ c.leadingZeros - zeros + 1 ∧
      ¬10 ∣ (c.shortest tie).digits := by
  have spec := proper.coarsest_spec tie c.leadingZeros
  rw [shortest, show digitCount (c.centre / 4) - 1 = c.leadingZeros from rfl]
  rcases found : c.coarsest tie c.leadingZeros with ⟨n, zeros⟩
  rw [found] at spec
  simp only at spec ⊢
  have ten : (10 : ℚ) ≠ 0 := by norm_num
  obtain ⟨low, high⟩ := proper.below_bounds spec.zeros_le
  have around := spec.nearest.around
  have most : n ≤ 10 ^ (c.leadingZeros - zeros + 1) := by omega
  -- on a grid that is not the coarsest of all the multiple is not one of the next grid
  have not_ten : zeros < c.leadingZeros → ¬10 ∣ n := by
    rintro coarser ⟨other, rfl⟩
    refine spec.none_coarser (zeros + 1) (Nat.lt_succ_self _) coarser other ?_
    rw [multiple_add, Nat.pow_one, Nat.mul_comm]
    exact spec.nearest.holds
  refine ⟨zeros, n, spec, ?_⟩
  split
  · rename_i is_ten
    obtain rfl : n = 10 := by simpa using is_ten
    have short : (natText 1).length = 1 := rfl
    refine ⟨?_, by simp [short], by simp⟩
    · rw [Decimal.value, zpow_sub₀ ten, zpow_natCast, zpow_natCast]
      field_simp
      push_cast
      ring
  · rename_i not_is_ten
    have not_is_ten : n ≠ 10 := by simpa using not_is_ten
    refine ⟨?_, ?_, ?_⟩
    · rw [Decimal.value, zpow_sub₀ ten, zpow_natCast, zpow_natCast]
      field_simp
    · rw [length_natText_le_iff (Nat.succ_pos _)]
      refine Nat.lt_of_le_of_ne most fun power => ?_
      simp only at power
      rcases Nat.lt_or_eq_of_le spec.zeros_le with coarser | rfl
      · exact not_ten coarser (by rw [power, Nat.pow_succ]; exact Nat.dvd_mul_left ..)
      · exact not_is_ten (by rw [power, Nat.sub_self]; rfl)
    · rcases Nat.lt_or_eq_of_le spec.zeros_le with coarser | rfl
      · exact not_ten coarser
      · rw [Nat.sub_self] at low most
        simp only
        omega

/-- The power of ten at which the centre starts. -/
lemma Proper.multiple_leadingZeros_le (proper : c.Proper) :
    multiple c.leadingZeros 1 ≤ c.centre := by
  have start := proper.pow_leadingZeros_le.1
  rw [multiple]
  exact Nat.cast_le.mpr (by omega)

/-- A number that is no smaller than a power of ten has digits down to its last place. -/
lemma lt_length_of_multiple_le {m zeros : Nat} {exponent : ℤ}
    (above : multiple zeros 1 ≤ 4 * ((m : ℚ) * 10 ^ exponent)) :
    zeros - exponent < (natText m).length := by
  rcases lt_or_ge (zeros : ℤ) exponent with lt | le
  · omega
  · obtain ⟨places, same⟩ := Int.le.dest le
    have power : (10 : ℚ) ^ zeros = 10 ^ places * 10 ^ exponent := by
      rw [← zpow_natCast, ← zpow_natCast, ← zpow_add₀ (by norm_num), ← same, add_comm]
    have digits : 10 ^ places ≤ m := by
      rw [multiple] at above
      push_cast at above
      rw [power] at above
      have unit : (0 : ℚ) < 10 ^ exponent := zpow_pos (by norm_num) exponent
      have scaled : (10 ^ places : ℚ) * 10 ^ exponent ≤ m * 10 ^ exponent := by linarith
      exact_mod_cast (mul_le_mul_iff_of_pos_right unit).mp scaled
    have := lt_length_natText digits
    omega

/-- Of the decimals in a cell none has fewer digits than the shortest one, and none with as many
digits is nearer to the centre. -/
theorem Proper.shortest_fewest (proper : c.Proper) (tie : Tie) {m : Nat} {exponent : ℤ}
    (holds : c.Holds (4 * ((m : ℚ) * 10 ^ exponent))) :
    (natText (c.shortest tie).digits).length ≤ (natText m).length ∧
      ((natText m).length = (natText (c.shortest tie).digits).length →
        |c.centre - 4 * ((c.shortest tie).value * 10 ^ c.places)| ≤
          |c.centre - 4 * ((m : ℚ) * 10 ^ exponent)|) := by
  obtain ⟨zeros, n, spec, value, short, -⟩ := proper.shortest_spec tie
  have taken : 4 * ((c.shortest tie).value * 10 ^ c.places) = multiple zeros n := by
    rw [value, multiple]
    push_cast
    ring
  rw [taken]
  have within := spec.zeros_le
  have some_digit : 0 < (natText m).length := Nat.length_toDigits_pos
  have on_grid : (zeros : ℤ) ≤ exponent →
      |(c.centre : ℚ) - multiple zeros n| ≤ |c.centre - 4 * ((m : ℚ) * 10 ^ exponent)| := by
    intro le
    obtain ⟨other, same⟩ := exists_multiple m le
    rw [same] at holds ⊢
    exact spec.nearest.least other holds
  have start := proper.multiple_leadingZeros_le
  rcases lt_or_ge (4 * ((m : ℚ) * 10 ^ exponent)) (multiple c.leadingZeros 1) with below | above
  · -- the power of ten in between belongs to the cell, so the shortest decimal has one digit
    have holds_start := holds.between proper.holds_centre (le_of_lt below) start
    obtain rfl : zeros = c.leadingZeros := by
      by_contra other
      exact spec.none_coarser _ (by omega) (Nat.le_refl _) 1 holds_start
    refine ⟨by omega, fun _ => (spec.nearest.least 1 holds_start).trans ?_⟩
    rw [abs_of_nonneg (by linarith), abs_of_nonneg (by linarith)]
    linarith
  · have long := lt_length_of_multiple_le above
    rcases lt_trichotomy exponent zeros with finer | same | coarser
    · exact ⟨by omega, fun equal => absurd equal (by omega)⟩
    · exact ⟨by omega, fun _ => on_grid (by omega)⟩
    · obtain rfl : zeros = c.leadingZeros := by
        by_contra other
        have next : ((zeros + 1 : Nat) : ℤ) ≤ exponent := by omega
        obtain ⟨more, same⟩ := exists_multiple m next
        exact spec.none_coarser (zeros + 1) (Nat.lt_succ_self _) (by omega) more (same ▸ holds)
      exact ⟨by omega, fun _ => on_grid (by omega)⟩

end Cell

namespace Binary64

/-! ### Doubles -/

variable {x : Binary64}

lemma proper_cell (nonzero : x.isZero = false) : x.cell.Proper := by
  have centre := contains_cell_iff nonzero x.cell.centre
  have zero := contains_cell_iff nonzero 0
  have low := gap_lt nonzero
  have gap := x.gap_pos
  have step := x.decimalStep_pos
  refine ⟨?_, Cell.holds_natCast.mpr (centre.mpr ?_), fun holds => ?_⟩
  · rw [cell_eq]
    exact Nat.dvd_mul_right_of_dvd (Nat.dvd_mul_right ..) _
  · rw [cell_eq]
    simp only
    omega
  · have := zero.mp (Cell.holds_natCast.mp (by rwa [Nat.cast_zero]))
    omega

/-- Distances from the centre of the cell of a double are distances from the double. -/
lemma abs_centre_sub (x : Binary64) (q : ℚ) :
    |x.cell.centre - 4 * (x.sign * q * 10 ^ x.cell.places)| =
      4 * 10 ^ x.cell.places * |x.value - q| := by
  have centre : (x.cell.centre : ℚ) = 4 * (x.magnitude * 10 ^ x.cell.places) := by
    rw [cell_eq, x.magnitude_mul_ten_pow.1]
    push_cast
    ring
  have scale : (0 : ℚ) ≤ 4 * 10 ^ x.cell.places := by positivity
  have apart : (x.cell.centre - 4 * (x.sign * q * 10 ^ x.cell.places) : ℚ) =
      4 * 10 ^ x.cell.places * (x.sign * (x.value - q)) := by
    rw [mul_sub x.sign, sign_mul_value, centre]
    ring
  rw [apart, abs_mul, abs_sign_mul, abs_of_nonneg scale]

/-- A double is the rounding of its shortest decimal. -/
theorem isRoundingOf_shortest (finite : x.isFinite = true) (nonzero : x.isZero = false)
    (tie : Tie) : x.IsRoundingOf (x.sign * (x.cell.shortest tie).value) := by
  obtain ⟨zeros, n, spec, value, -⟩ := (proper_cell nonzero).shortest_spec tie
  rw [isRoundingOf_iff_holds finite nonzero, ← mul_assoc x.sign, sign_mul_sign, one_mul, value]
  have holds := spec.nearest.holds
  rw [Cell.multiple] at holds
  push_cast at holds
  convert holds using 1
  ring

/-- The shortest decimal of a double does not end in a zero. -/
lemma not_ten_dvd_shortest (nonzero : x.isZero = false) (tie : Tie) :
    ¬10 ∣ (x.cell.shortest tie).digits := by
  obtain ⟨zeros, n, -, -, -, not_ten⟩ := (proper_cell nonzero).shortest_spec tie
  exact not_ten

/-- What is rounded to a double other than zero has the sign of the double. -/
lemma IsRoundingOf.sign_mul_eq_abs {q : ℚ} (h : x.IsRoundingOf q) (nonzero : x.isZero = false) :
    x.sign * q = |q| := by
  have near := (isRoundingOf_iff_near h.finite nonzero q).mp h
  have gap := gap_mul_step_le nonzero
  have magnitude := x.magnitude_nonneg
  rw [← x.abs_sign_mul q, abs_of_nonneg]
  linarith [near.1.1]

/-- Of the decimals that are rounded to a double none has fewer digits than the shortest one, and
none with as many digits is nearer to the double. -/
theorem shortest_fewest (nonzero : x.isZero = false) (tie : Tie) {m k : ℤ}
    (h : x.IsRoundingOf (m * 10 ^ k)) :
    (natText (x.cell.shortest tie).digits).length ≤ (natText m.natAbs).length ∧
      ((natText m.natAbs).length = (natText (x.cell.shortest tie).digits).length →
        |x.value - x.sign * (x.cell.shortest tie).value| ≤ |x.value - m * 10 ^ k|) := by
  have ten : (10 : ℚ) ≠ 0 := by norm_num
  have magnitude : x.sign * (m * 10 ^ k) * 10 ^ x.cell.places =
      (m.natAbs : ℚ) * 10 ^ (k + x.cell.places) := by
    rw [h.sign_mul_eq_abs nonzero, abs_mul, abs_of_pos (zpow_pos (by norm_num : (0 : ℚ) < 10) k),
      zpow_add₀ ten, zpow_natCast, Nat.cast_natAbs, Int.cast_abs, mul_assoc]
  have holds := (isRoundingOf_iff_holds h.finite nonzero _).mp h
  rw [magnitude] at holds
  obtain ⟨fewest, nearest⟩ := (proper_cell nonzero).shortest_fewest tie holds
  refine ⟨fewest, fun equal => ?_⟩
  have scale : (0 : ℚ) < 4 * 10 ^ x.cell.places := by positivity
  have taken : x.sign * (x.sign * (x.cell.shortest tie).value) * 10 ^ x.cell.places =
      (x.cell.shortest tie).value * 10 ^ x.cell.places := by
    rw [← mul_assoc x.sign, sign_mul_sign, one_mul]
  have nearest := nearest equal
  rw [← magnitude, ← taken, abs_centre_sub, abs_centre_sub] at nearest
  exact (mul_le_mul_iff_of_pos_left scale).mp nearest

end Binary64

end ReadThrough
