/-!
Text as UTF-8, and the order of its bytes.

* `bytes`: the UTF-8 bytes of a text.
* `bytes_eq_toUTF8`, `bytes_injective`: they are the bytes that the text is stored as, and the text
  can be recovered from them.
* `before`: the lexicographic order of the bytes, unsigned (`before_iff_lt`); `before_or`: of two
  different texts one comes first.
-/

namespace ReadThrough.Utf8

/-- The UTF-8 bytes of a text. -/
def bytes (s : String) : List UInt8 :=
  s.toList.flatMap String.utf8EncodeChar

/-- Whether one list of bytes comes strictly before another in lexicographic order. -/
def bytesBefore : List UInt8 → List UInt8 → Bool
  | _, [] => false
  | [], _ :: _ => true
  | a :: as, b :: bs => a < b || (a == b && bytesBefore as bs)

/-- Whether the bytes of one text come strictly before those of another. -/
def before (s t : String) : Bool :=
  bytesBefore (bytes s) (bytes t)

theorem bytes_eq_toUTF8 (s : String) : bytes s = s.toUTF8.data.toList := by
  have stored : (bytes s).toByteArray = s.toUTF8 := String.utf8Encode_toList
  rw [← stored, List.toList_data_toByteArray]

theorem bytesBefore_iff_lt (as bs : List UInt8) : bytesBefore as bs = true ↔ as < bs := by
  induction as generalizing bs with
  | nil => cases bs <;> simp [bytesBefore]
  | cons a as ih =>
    cases bs with
    | nil => simp [bytesBefore]
    | cons b bs => simp [bytesBefore, List.cons_lt_cons_iff, ih]

/-- The order is the lexicographic one of the bytes that the texts are stored as. -/
theorem before_iff_lt (s t : String) :
    before s t = true ↔ s.toUTF8.data.toList < t.toUTF8.data.toList := by
  rw [before, bytesBefore_iff_lt, bytes_eq_toUTF8, bytes_eq_toUTF8]

theorem bytesBefore_irrefl (as : List UInt8) : bytesBefore as as = false := by
  induction as with
  | nil => rfl
  | cons a as ih => simp [bytesBefore, ih]

theorem bytesBefore_trans {as bs cs : List UInt8} (hab : bytesBefore as bs = true)
    (hbc : bytesBefore bs cs = true) : bytesBefore as cs = true := by
  induction as generalizing bs cs with
  | nil =>
    cases bs with
    | nil => simp [bytesBefore] at hab
    | cons b bs => cases cs <;> simp_all [bytesBefore]
  | cons a as ih =>
    cases bs with
    | nil => simp [bytesBefore] at hab
    | cons b bs =>
      cases cs with
      | nil => simp [bytesBefore] at hbc
      | cons c cs =>
        simp only [bytesBefore, Bool.or_eq_true, decide_eq_true_eq, Bool.and_eq_true,
          beq_iff_eq] at hab hbc ⊢
        rcases hab with hab | ⟨rfl, hab⟩
        · rcases hbc with hbc | ⟨rfl, _⟩
          · exact Or.inl (UInt8.lt_trans hab hbc)
          · exact Or.inl hab
        · rcases hbc with hbc | ⟨rfl, hbc⟩
          · exact Or.inl hbc
          · exact Or.inr ⟨rfl, ih hab hbc⟩

/-- Of two different lists of bytes one comes first. -/
theorem bytesBefore_or (as bs : List UInt8) :
    bytesBefore as bs = true ∨ as = bs ∨ bytesBefore bs as = true := by
  induction as generalizing bs with
  | nil => cases bs <;> simp [bytesBefore]
  | cons a as ih =>
    cases bs with
    | nil => simp [bytesBefore]
    | cons b bs =>
      simp only [bytesBefore, Bool.or_eq_true, decide_eq_true_eq, Bool.and_eq_true, beq_iff_eq,
        List.cons.injEq]
      rcases Nat.lt_trichotomy a.toNat b.toNat with h | h | h
      · exact Or.inl (Or.inl (UInt8.lt_iff_toNat_lt.mpr h))
      · obtain rfl := UInt8.toNat_inj.mp h
        rcases ih bs with h | rfl | h
        · exact Or.inl (Or.inr ⟨rfl, h⟩)
        · exact Or.inr (Or.inl ⟨rfl, rfl⟩)
        · exact Or.inr (Or.inr (Or.inr ⟨rfl, h⟩))
      · exact Or.inr (Or.inr (Or.inl (UInt8.lt_iff_toNat_lt.mpr h)))

/-- A text can be recovered from its bytes. -/
theorem bytes_injective {s t : String} (h : bytes s = bytes t) : s = t := by
  have encoded : s.toList.utf8Encode = t.toList.utf8Encode := congrArg List.toByteArray h
  rw [String.utf8Encode_toList, String.utf8Encode_toList] at encoded
  exact String.toByteArray_inj.mp encoded

theorem before_irrefl (s : String) : before s s = false :=
  bytesBefore_irrefl (bytes s)

theorem before_trans {s t u : String} (hst : before s t = true) (htu : before t u = true) :
    before s u = true :=
  bytesBefore_trans hst htu

/-- Of two different texts one comes first. -/
theorem before_or (s t : String) : before s t = true ∨ s = t ∨ before t s = true := by
  rcases bytesBefore_or (bytes s) (bytes t) with h | h | h
  · exact Or.inl h
  · exact Or.inr (Or.inl (bytes_injective h))
  · exact Or.inr (Or.inr h)

end ReadThrough.Utf8
