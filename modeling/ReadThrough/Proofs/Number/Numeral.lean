import Mathlib.Tactic.Common
import ReadThrough.Number.Layout
import ReadThrough.Proofs.Number.Rounding

/-!
The texts of numbers as parts of longer texts. They are not prefix-free, since `1` begins `12`, so
where a number ends is told by the first character that no number has.

* `isNumeric`, `startsNumber`: the characters of the texts of numbers, and those they start with.
* `IsNumeral`: what all texts of numbers have in common. It holds of the digits of a whole number,
  of a decimal in every layout and of the canonical text of every double (`isNumeral_natText`,
  `isNumeral_intText`, `Decimal.isNumeral_text`, `Binary64.isNumeral_text`).
* `Delimited`: a text in front of which a number ends.
* `IsNumeral.append_inj`: a number's text and the delimited text behind it can be told apart.
-/

namespace ReadThrough

/-- The characters of the texts of numbers, those of `NaN` and `Inf` included. -/
def isNumeric (c : Char) : Bool :=
  c.isDigit || ['+', '-', '.', 'e', 'N', 'a', 'I', 'n', 'f'].contains c

/-- The characters that the texts of numbers start with. -/
def startsNumber (c : Char) : Bool :=
  c.isDigit || ['+', '-', 'N'].contains c

/-- A text of characters of numbers that starts like one. -/
structure IsNumeral (cs : List Char) : Prop where
  starts : ∃ c rest, cs = c :: rest ∧ startsNumber c = true
  numeric : ∀ c ∈ cs, isNumeric c = true

/-- A text in front of which a number ends: it is empty or starts with a character that no number
has. -/
def Delimited (rest : List Char) : Prop :=
  ∀ c ∈ rest.head?, isNumeric c = false

@[simp] lemma delimited_nil : Delimited [] := by
  simp [Delimited]

lemma delimited_cons {c : Char} {rest : List Char} :
    Delimited (c :: rest) ↔ isNumeric c = false := by
  simp [Delimited]

lemma isNumeric_of_isDigit {c : Char} (digit : c.isDigit = true) : isNumeric c = true := by
  simp [isNumeric, digit]

/-! ### Telling a number from what follows it -/

lemma takeWhile_of_delimited {rest : List Char} (delimited : Delimited rest) :
    rest.takeWhile isNumeric = [] := by
  cases rest with
  | nil => rfl
  | cons c rest => rw [List.takeWhile_cons, delimited_cons.mp delimited]; rfl

/-- A number's text is the longest run of characters of numbers in front of a delimited text. -/
lemma IsNumeral.takeWhile_append {cs rest : List Char} (numeral : IsNumeral cs)
    (delimited : Delimited rest) : (cs ++ rest).takeWhile isNumeric = cs := by
  rw [List.takeWhile_append_of_pos numeral.numeric, takeWhile_of_delimited delimited,
    List.append_nil]

/-- A number's text and the delimited text behind it can be told apart. -/
theorem IsNumeral.append_inj {cs ds r₁ r₂ : List Char} (hc : IsNumeral cs) (hd : IsNumeral ds)
    (h₁ : Delimited r₁) (h₂ : Delimited r₂) (h : cs ++ r₁ = ds ++ r₂) : cs = ds ∧ r₁ = r₂ := by
  have run : cs = ds := by
    calc
      cs = (cs ++ r₁).takeWhile isNumeric := (hc.takeWhile_append h₁).symm
      _ = (ds ++ r₂).takeWhile isNumeric := by rw [h]
      _ = ds := hd.takeWhile_append h₂
  subst run
  exact ⟨rfl, List.append_cancel_left h⟩

/-! ### Putting texts of numbers together -/

namespace IsNumeral

/-- More characters of numbers behind a number's text. -/
lemma append {cs ds : List Char} (h : IsNumeral cs) (numeric : ∀ c ∈ ds, isNumeric c = true) :
    IsNumeral (cs ++ ds) := by
  obtain ⟨c, rest, rfl, starts⟩ := h.starts
  refine ⟨⟨c, rest ++ ds, rfl, starts⟩, fun d mem => ?_⟩
  rcases List.mem_append.mp mem with mem | mem
  · exact h.numeric d mem
  · exact numeric d mem

/-- One character that numbers start with in front of a number's text. -/
lemma cons {c : Char} {cs : List Char} (h : IsNumeral cs) (starts : startsNumber c = true)
    (numeric : isNumeric c = true) : IsNumeral (c :: cs) := by
  refine ⟨⟨c, cs, rfl, starts⟩, fun d mem => ?_⟩
  rcases List.mem_cons.mp mem with rfl | mem
  · exact numeric
  · exact h.numeric d mem

lemma take {cs : List Char} (h : IsNumeral cs) {n : Nat} (positive : 0 < n) :
    IsNumeral (cs.take n) := by
  obtain ⟨c, rest, rfl, starts⟩ := h.starts
  obtain ⟨n, rfl⟩ := Nat.exists_eq_succ_of_ne_zero (Nat.ne_of_gt positive)
  exact ⟨⟨c, rest.take n, rfl, starts⟩, fun d mem => h.numeric d (List.mem_of_mem_take mem)⟩

end IsNumeral

/-! ### Whole numbers -/

lemma isDigit_of_mem_natText {n : Nat} {c : Char} (mem : c ∈ natText n) : c.isDigit = true :=
  Nat.isDigit_of_mem_toDigits (by decide) (by decide) mem

lemma numeric_natText (n : Nat) : ∀ c ∈ natText n, isNumeric c = true :=
  fun _ mem => isNumeric_of_isDigit (isDigit_of_mem_natText mem)

lemma isNumeral_natText (n : Nat) : IsNumeral (natText n) := by
  refine ⟨?_, numeric_natText n⟩
  cases digits : natText n with
  | nil => exact absurd digits Nat.toDigits_ne_nil
  | cons c rest =>
      have digit : c.isDigit = true := isDigit_of_mem_natText (n := n) (by simp [digits])
      exact ⟨c, rest, rfl, by simp [startsNumber, digit]⟩

lemma isNumeral_intText (n : Int) : IsNumeral (intText n) := by
  rw [intText]
  split
  · exact (isNumeral_natText n.natAbs).cons rfl rfl
  · exact isNumeral_natText n.natAbs

/-! ### Decimals and doubles -/

lemma numeric_replicate (n : Nat) : ∀ c ∈ List.replicate n '0', isNumeric c = true := by
  intro c mem
  rw [List.eq_of_mem_replicate mem]
  rfl

namespace Decimal

lemma isNumeral_plainText (layout : Layout) (d : Decimal) : IsNumeral (d.plainText layout) := by
  have digits := isNumeral_natText d.digits
  rw [plainText]
  cases d.exponent with
  | ofNat zeros =>
      refine (digits.append (numeric_replicate zeros)).append ?_
      cases layout.pointZero <;> simp [isNumeric]
  | negSucc n =>
      by_cases fits : n + 1 < (natText d.digits).length
      · have whole := digits.take (n := (natText d.digits).length - (n + 1)) (by omega)
        simp only [if_pos fits]
        refine whole.append fun c mem => ?_
        rcases List.mem_cons.mp mem with rfl | mem
        · rfl
        · exact digits.numeric c (List.mem_of_mem_drop mem)
      · simp only [if_neg fits]
        refine ⟨⟨'0', _, rfl, rfl⟩, fun c mem => ?_⟩
        simp only [List.mem_cons, List.mem_append] at mem
        rcases mem with rfl | rfl | mem | mem
        · rfl
        · rfl
        · exact numeric_replicate _ c mem
        · exact digits.numeric c mem

lemma numeric_exponentText (layout : Layout) (e : Int) :
    ∀ c ∈ exponentText layout e, isNumeric c = true := by
  intro c mem
  simp only [exponentText, List.mem_append] at mem
  rcases mem with sign | mem | mem
  · have : c = '-' ∨ c = '+' := by
      split at sign
      · simp_all
      · split at sign <;> simp_all
    rcases this with rfl | rfl <;> rfl
  · exact numeric_replicate _ c mem
  · exact numeric_natText _ c mem

lemma isNumeral_scientificText (layout : Layout) (d : Decimal) :
    IsNumeral (d.scientificText layout) := by
  have digits := isNumeral_natText d.digits
  have tail : ∀ c ∈ 'e' :: exponentText layout d.leading, isNumeric c = true := by
    intro c mem
    rcases List.mem_cons.mp mem with rfl | mem
    · rfl
    · exact numeric_exponentText layout d.leading c mem
  rw [scientificText]
  refine IsNumeral.append ?_ tail
  split
  · rename_i first second rest shape
    rw [shape] at digits
    obtain ⟨c, others, same, starts⟩ := digits.starts
    obtain ⟨rfl, rfl⟩ := List.cons.inj same
    refine ⟨⟨first, _, rfl, starts⟩, fun other mem => ?_⟩
    rcases List.mem_cons.mp mem with rfl | mem
    · exact digits.numeric other (by simp)
    · rcases List.mem_cons.mp mem with rfl | mem
      · rfl
      · exact digits.numeric other (List.mem_cons_of_mem _ mem)
  · exact digits

/-- A decimal in a layout is the text of a number. -/
lemma isNumeral_text (layout : Layout) (d : Decimal) : IsNumeral (d.text layout) := by
  rw [text]
  split
  · exact isNumeral_plainText layout d
  · exact isNumeral_scientificText layout d

end Decimal

lemma Binary64.text_of_isZero {x : Binary64} (zero : x.isZero = true) : x.text = ['0'] := by
  simp [text, isNaN, isInfinite, isZero, pattern_of_isZero zero, infinityPattern]

/-- Doubles that are numerically equal have one text, the two zeros included. -/
lemma Binary64.text_eq_of_sameNumber {x y : Binary64} (h : x.sameNumber y = true) :
    x.text = y.text := by
  simp only [sameNumber, Bool.and_eq_true, Bool.or_eq_true, beq_iff_eq] at h
  rcases h.2 with ⟨hx, hy⟩ | rfl
  · rw [text_of_isZero hx, text_of_isZero hy]
  · rfl

/-- The canonical text of a double is the text of a number, also where it is `NaN` or infinite. -/
lemma Binary64.isNumeral_text (x : Binary64) : IsNumeral x.text := by
  have magnitude : IsNumeral (x.cell.text Layout.canonical) := Decimal.isNumeral_text _ _
  rw [text]
  split_ifs with nan infinite negative zero
  · exact ⟨⟨'N', ['a', 'N'], rfl, rfl⟩, List.all_eq_true.mp rfl⟩
  · exact ⟨⟨'-', ['I', 'n', 'f'], rfl, rfl⟩, List.all_eq_true.mp rfl⟩
  · exact ⟨⟨'+', ['I', 'n', 'f'], rfl, rfl⟩, List.all_eq_true.mp rfl⟩
  · exact ⟨⟨'0', [], rfl, rfl⟩, List.all_eq_true.mp rfl⟩
  · rw [signText]
    cases x.isNegative with
    | true => exact magnitude.cons rfl rfl
    | false => exact magnitude

end ReadThrough
