import Mathlib.Tactic.Common
import ReadThrough.Text.Quoted

/-!
Quoted text can be read in one way only.

* `readChar_escape`: the reader gives back a written character, and the text behind it.
* `escape_append_ne_quote`: no written character starts with a quote, so the closing quote is never
  mistaken for one.
* `quoteOnto_flatMap`: a quoted text is put together from its characters.
* `quoteOnto_inj`: a quoted text determines what is quoted and what follows the closing quote.
-/

namespace ReadThrough.Quoted

/-! ### One character -/

lemma hexValue?_digit : ∀ n < 16, hexValue? (Hex.digit n) = some n := by
  decide

lemma readUnicode_digits {n : Nat} (small : n < 32) (rest : List Char) :
    readUnicode ('0' :: '0' :: Hex.digit (n / 16) :: Hex.digit (n % 16) :: rest) =
      some (Char.ofNat n, rest) := by
  have zero : hexValue? '0' = some 0 := rfl
  have high := hexValue?_digit (n / 16) (by omega)
  have low := hexValue?_digit (n % 16) (by omega)
  have number : n / 16 * 16 + n % 16 = n := Nat.div_add_mod' n 16
  have quad : readQuad ('0' :: '0' :: Hex.digit (n / 16) :: Hex.digit (n % 16) :: rest) =
      some (n, rest) := by
    simp [readQuad, zero, high, low, number]
  have first : isHighSurrogate n = false := by
    simp only [isHighSurrogate, Bool.and_eq_false_iff, decide_eq_false_iff_not]
    omega
  have second : isLowSurrogate n = false := by
    simp only [isLowSurrogate, Bool.and_eq_false_iff, decide_eq_false_iff_not]
    omega
  simp [readUnicode, quad, first, second]

/-- A character that stands for itself is read as it is. -/
lemma readChar_plain {c : Char} (plain : c ≠ '\\') (printable : ¬c.toNat < 0x20)
    (rest : List Char) : readChar (c :: rest) = some (c, rest) := by
  have kept : ¬(c = '\\' ∨ c.toNat < 0x20) := not_or.mpr ⟨plain, printable⟩
  unfold readChar
  split
  · rename_i h
    exact absurd (List.cons.inj h).1 plain
  · rename_i h
    exact absurd (List.cons.inj h).1 plain
  · rename_i h
    obtain ⟨rfl, rfl⟩ := List.cons.inj h
    rw [if_neg kept]
  · rename_i h
    exact absurd h (List.cons_ne_nil c rest)

/-- The reader gives back a written character, and the text behind it. -/
theorem readChar_escape (c : Char) (rest : List Char) :
    readChar (escape c ++ rest) = some (c, rest) := by
  rw [escape]
  by_cases quote : c = '"'
  · subst quote
    rfl
  by_cases backslash : c = '\\'
  · subst backslash
    rfl
  by_cases feed : c = '\n'
  · subst feed
    rfl
  by_cases ret : c = '\r'
  · subst ret
    rfl
  by_cases tab : c = '\t'
  · subst tab
    rfl
  by_cases control : c.toNat < 0x20
  · rw [if_neg quote, if_neg backslash, if_neg feed, if_neg ret, if_neg tab, if_pos control]
    show readUnicode ('0' :: '0' :: Hex.digit (c.toNat / 16) :: Hex.digit (c.toNat % 16) :: rest) =
      some (c, rest)
    rw [readUnicode_digits control, Char.ofNat_toNat]
  · rw [if_neg quote, if_neg backslash, if_neg feed, if_neg ret, if_neg tab, if_neg control]
    exact readChar_plain backslash control rest

/-- A written character and the text behind it determine the character and that text. -/
lemma escape_append_inj {c d : Char} {r₁ r₂ : List Char}
    (h : escape c ++ r₁ = escape d ++ r₂) : c = d ∧ r₁ = r₂ := by
  have read : some (c, r₁) = some (d, r₂) := by
    rw [← readChar_escape c r₁, ← readChar_escape d r₂, h]
  simpa using read

/-- No written character starts with a quote. -/
lemma escape_append_ne_quote (c : Char) (r₁ r₂ : List Char) : escape c ++ r₁ ≠ '"' :: r₂ := by
  rw [escape]
  split_ifs <;> simp_all

/-! ### A whole text -/

/-- A quoted text is its characters, each written by itself, between two quotes. -/
lemma quoteOnto_flatMap (cs rest : List Char) :
    quoteOnto cs rest = '"' :: (cs.flatMap escape ++ '"' :: rest) := by
  rw [quoteOnto]
  congr 1
  induction cs with
  | nil => rfl
  | cons c cs ih => rw [List.foldr_cons, ih, List.flatMap_cons, List.append_assoc]

/-- A quoted text determines what is quoted and what follows the closing quote. -/
theorem quoteOnto_inj {cs ds r₁ r₂ : List Char} (h : quoteOnto cs r₁ = quoteOnto ds r₂) :
    cs = ds ∧ r₁ = r₂ := by
  simp only [quoteOnto, List.cons.injEq, true_and] at h
  induction cs generalizing ds with
  | nil =>
      cases ds with
      | nil => exact ⟨rfl, (List.cons.inj h).2⟩
      | cons d ds => exact absurd h.symm (escape_append_ne_quote d _ _)
  | cons c cs ih =>
      cases ds with
      | nil => exact absurd h (escape_append_ne_quote c _ _)
      | cons d ds =>
          obtain ⟨rfl, behind⟩ := escape_append_inj h
          obtain ⟨rfl, rest⟩ := ih behind
          exact ⟨rfl, rest⟩

end ReadThrough.Quoted
