/-!
Blank characters, and the removal of blanks at both ends of a text.

* `isBlank`: the characters with the Unicode property `White_Space`.
* `trim`: a text without its leading and trailing blanks.
* `isBlankText`: nothing is left after trimming.
-/

namespace ReadThrough.Text

/-- Whether a character has the Unicode property `White_Space`. -/
def isBlank (c : Char) : Bool :=
  let n := c.toNat
  (9 ≤ n && n ≤ 13) || n == 0x20 || n == 0x85 || n == 0xA0 || n == 0x1680 ||
    (0x2000 ≤ n && n ≤ 0x200A) || n == 0x2028 || n == 0x2029 || n == 0x202F ||
    n == 0x205F || n == 0x3000

/-- A text without its trailing blanks. -/
def trimEnd (cs : List Char) : List Char :=
  (cs.reverse.dropWhile isBlank).reverse

/-- A text without its leading and trailing blanks. -/
def trim (cs : List Char) : List Char :=
  trimEnd (cs.dropWhile isBlank)

/-- Whether a text is empty or holds blanks only, so that trimming leaves nothing. -/
def isBlankText (cs : List Char) : Bool :=
  cs.all isBlank

/-- Trimming leaves nothing exactly when every character is blank. -/
theorem trim_eq_nil_iff (cs : List Char) : trim cs = [] ↔ isBlankText cs = true := by
  have ends : ∀ l : List Char, l.dropWhile isBlank = [] ↔ ∀ c ∈ l, isBlank c = true := by
    intro l
    induction l with
    | nil => simp
    | cons c l ih =>
      by_cases h : isBlank c = true
      · simp [h, ih]
      · simp [h]
  have key : ∀ l : List Char, trimEnd l = [] ↔ ∀ c ∈ l, isBlank c = true := by
    intro l
    rw [trimEnd, List.reverse_eq_nil_iff, ends]
    simp
  rw [trim, key, isBlankText, List.all_eq_true]
  refine ⟨fun h => (ends cs).mp ?_, fun h c hc => h c ((List.dropWhile_sublist _).subset hc)⟩
  cases hd : cs.dropWhile isBlank with
  | nil => rfl
  | cons c rest =>
    have hblank := h c (by simp [hd])
    have hfirst := List.head?_dropWhile_not isBlank cs
    simp [hd, hblank] at hfirst

end ReadThrough.Text
