/-!
Whole numbers as decimal text.

* `natText`: the digits of a number, without leading zeros.
* `intText`: the same with a minus sign for a negative number.
* `ofDigitChars_natText`: the number can be read back.
* `isDigit`, `gatherDigits`: digits read into a word as far as it holds the number;
  `gatherDigits_eq` says that nothing is left exactly when the number fits.
-/

namespace ReadThrough

/-- The decimal digits of a number, without leading zeros. -/
def natText (n : Nat) : List Char :=
  Nat.toDigits 10 n

/-- A whole number, with a minus sign if it is negative. -/
def intText (n : Int) : List Char :=
  if n < 0 then '-' :: natText n.natAbs else natText n.natAbs

/-- The number can be read back from its digits. -/
theorem ofDigitChars_natText (n : Nat) : Nat.ofDigitChars 10 (natText n) 0 = n :=
  Nat.ofDigitChars_toDigits (by decide) (by decide)

/-- Whether a character is an ASCII digit. -/
def isDigit (c : Char) : Bool :=
  decide (48 ≤ c.toNat) && decide (c.toNat ≤ 57)

/-- Appends digits to a word while the word can hold the number; the word, and the digits from the
first on that no longer fits. -/
def gatherDigits (word : UInt64) : List Char → UInt64 × List Char
  | [] => (word, [])
  | c :: rest =>
    let next := Nat.ofDigitChars 10 [c] word.toNat
    if next < Nat.pow 2 64 then gatherDigits (UInt64.ofNat next) rest else (word, c :: rest)

/-- More digits never make a number smaller. -/
theorem le_ofDigitChars (digits : List Char) (n : Nat) : n ≤ Nat.ofDigitChars 10 digits n := by
  induction digits generalizing n with
  | nil => simp
  | cons c rest ih =>
    rw [Nat.ofDigitChars_cons]
    exact Nat.le_trans (by omega) (ih _)

/-- Digits whose number fits a word are gathered to the last. -/
theorem gatherDigits_eq (digits : List Char) (word : UInt64)
    (fits : Nat.ofDigitChars 10 digits word.toNat < Nat.pow 2 64) :
    gatherDigits word digits = (UInt64.ofNat (Nat.ofDigitChars 10 digits word.toNat), []) := by
  induction digits generalizing word with
  | nil => simp [gatherDigits]
  | cons c rest ih =>
    have step : Nat.ofDigitChars 10 (c :: rest) word.toNat =
        Nat.ofDigitChars 10 rest (Nat.ofDigitChars 10 [c] word.toNat) := by
      simp [Nat.ofDigitChars_cons]
    rw [step] at fits ⊢
    have next_fits := Nat.lt_of_le_of_lt (le_ofDigitChars rest _) fits
    have next_eq : (UInt64.ofNat (Nat.ofDigitChars 10 [c] word.toNat)).toNat =
        Nat.ofDigitChars 10 [c] word.toNat := UInt64.toNat_ofNat_of_lt' next_fits
    have gathered := ih (UInt64.ofNat (Nat.ofDigitChars 10 [c] word.toNat)) (by rwa [next_eq])
    rw [gatherDigits, if_pos next_fits, gathered, next_eq]

/-- Of digits whose number does not fit a word some are left. -/
theorem gatherDigits_left (digits : List Char) (word : UInt64)
    (large : Nat.pow 2 64 ≤ Nat.ofDigitChars 10 digits word.toNat) :
    (gatherDigits word digits).2 ≠ [] := by
  induction digits generalizing word with
  | nil =>
    have := word.toNat_lt
    simp at large
    omega
  | cons c rest ih =>
    have step : Nat.ofDigitChars 10 (c :: rest) word.toNat =
        Nat.ofDigitChars 10 rest (Nat.ofDigitChars 10 [c] word.toNat) := by
      simp [Nat.ofDigitChars_cons]
    rw [gatherDigits]
    split
    · rename_i next_fits
      have next_eq : (UInt64.ofNat (Nat.ofDigitChars 10 [c] word.toNat)).toNat =
          Nat.ofDigitChars 10 [c] word.toNat := UInt64.toNat_ofNat_of_lt' next_fits
      exact ih _ (by rwa [next_eq, ← step])
    · simp

end ReadThrough
