import ReadThrough.Key.Derive
import ReadThrough.Proofs.Text.Quoting
import ReadThrough.Proofs.Value.Equivalent

/-!
Canonical text stands for what a value means, no more and no less.

* `Shape`, `shape`: the kind of a value as far as the first character of its text tells it
  (`print_first`).
* `print_inj`: a printed value and the delimited text behind it can be told apart, and the value is
  determined up to equivalence. The delimiter is needed since the text of a number may begin that
  of another.
* `print_arrange_congr`: equivalent values, with their fields in order, are printed alike.
* `encode_eq_iff`: values have one encoding if and only if they are equivalent, and values that are
  equal have one key with every tool.
-/

namespace ReadThrough.Value

/-! ### Numbers and first characters -/

lemma print_number {v : Value} {digits : List Char} (number : v.numberText? = some digits)
    (rest : List Char) : v.print rest = digits ++ rest := by
  cases v <;> simp only [numberText?, Option.some.injEq, reduceCtorEq] at number <;>
    rw [← number, print]

lemma isNumeral_of_numberText? {v : Value} {digits : List Char}
    (number : v.numberText? = some digits) : IsNumeral digits := by
  cases v <;> simp only [numberText?, Option.some.injEq, reduceCtorEq] at number <;>
    rw [← number]
  · exact isNumeral_intText _
  · exact isNumeral_natText _
  · exact Binary64.isNumeral_text _

/-- The kinds of values that the first character of a text tells apart. -/
inductive Shape where
  | null
  | bool (b : Bool)
  | number
  | text
  | list
  | map

/-- The kind of a value. -/
def shape : Value → Shape
  | .null => .null
  | .bool b => .bool b
  | .int _ | .uint _ | .float _ => .number
  | .text _ => .text
  | .list _ => .list
  | .map _ => .map

/-- The kind of the values whose texts start with a character, if there are any. -/
def Shape.ofFirst? (c : Char) : Option Shape :=
  if startsNumber c then some .number
  else match c with
    | 'n' => some .null
    | 't' => some (.bool true)
    | 'f' => some (.bool false)
    | '"' => some .text
    | '[' => some .list
    | '\x7b' => some .map
    | _ => none

lemma shape_number {v : Value} {digits : List Char} (number : v.numberText? = some digits) :
    v.shape = .number := by
  cases v <;> first | rfl | simp [numberText?] at number

/-- The first character of a text tells the kind of the value. -/
lemma print_first (v : Value) (rest : List Char) :
    ∃ c cs, v.print rest = c :: cs ∧ Shape.ofFirst? c = some v.shape := by
  induction v using ind with
  | null => exact ⟨'n', _, rfl, rfl⟩
  | bool b =>
      cases b with
      | true => exact ⟨'t', _, rfl, rfl⟩
      | false => exact ⟨'f', _, rfl, rfl⟩
  | number v digits number =>
      obtain ⟨c, cs, rfl, starts⟩ := (isNumeral_of_numberText? number).starts
      refine ⟨c, cs ++ rest, print_number number rest, ?_⟩
      simp [Shape.ofFirst?, starts, shape_number number]
  | text s => exact ⟨'"', _, rfl, rfl⟩
  | list items => cases items <;> exact ⟨'[', _, rfl, rfl⟩
  | map fields => cases fields <;> exact ⟨'\x7b', _, rfl, rfl⟩

/-- Values with one text are of one kind. -/
lemma shape_eq_of_print_eq {v w : Value} {r₁ r₂ : List Char} (h : v.print r₁ = w.print r₂) :
    v.shape = w.shape := by
  obtain ⟨c, cs, hv, shape_v⟩ := print_first v r₁
  obtain ⟨d, ds, hw, shape_w⟩ := print_first w r₂
  rw [hv, hw] at h
  obtain ⟨rfl, -⟩ := List.cons.inj h
  exact Option.some.inj (shape_v.symm.trans shape_w)

/-- No value's text starts with a closing bracket. -/
lemma print_ne_bracket (v : Value) (r₁ r₂ : List Char) : v.print r₁ ≠ ']' :: r₂ := by
  intro h
  obtain ⟨c, cs, hv, shape_v⟩ := print_first v r₁
  rw [hv] at h
  obtain ⟨rfl, -⟩ := List.cons.inj h
  simp [Shape.ofFirst?, startsNumber, Char.isDigit] at shape_v

/-! ### From the text to the value -/

lemma delimited_printItems (items : List Value) {rest : List Char} (h : Delimited rest) :
    Delimited (printItems items rest) := by
  cases items with
  | nil => exact h
  | cons v items => exact delimited_cons.mpr rfl

lemma delimited_printFields (fields : List (String × Value)) {rest : List Char}
    (h : Delimited rest) : Delimited (printFields fields rest) := by
  cases fields with
  | nil => exact h
  | cons pair fields => exact delimited_cons.mpr rfl

/-- Whether a value is determined by its text in front of every delimited text. -/
def Determined (v : Value) : Prop :=
  ∀ (w : Value) (r₁ r₂ : List Char), Delimited r₁ → Delimited r₂ → v.print r₁ = w.print r₂ →
    Equivalent v w ∧ r₁ = r₂

/-- The items of a list are determined by their texts if each of them is by its own. -/
lemma printItems_inj {as bs : List Value} {r₁ r₂ : List Char} (ih : ∀ v ∈ as, Determined v)
    (h : printItems as (']' :: r₁) = printItems bs (']' :: r₂)) :
    List.Forall₂ Equivalent as bs ∧ r₁ = r₂ := by
  induction as generalizing bs with
  | nil =>
      cases bs with
      | nil => exact ⟨.nil, (List.cons.inj h).2⟩
      | cons w bs => simp [printItems] at h
  | cons v as tail =>
      cases bs with
      | nil => simp [printItems] at h
      | cons w bs =>
          simp only [printItems, List.cons.injEq, true_and] at h
          have head := ih v List.mem_cons_self w _ _
            (delimited_printItems as (delimited_cons.mpr rfl))
            (delimited_printItems bs (delimited_cons.mpr rfl)) h
          obtain ⟨tails, rest⟩ := tail (fun u mem => ih u (List.mem_cons_of_mem _ mem)) head.2
          exact ⟨.cons head.1 tails, rest⟩

/-- The fields of a mapping are determined by their texts if each value is by its own. -/
lemma printFields_inj {as bs : List (String × Value)} {r₁ r₂ : List Char}
    (ih : ∀ pair ∈ as, Determined pair.2)
    (h : printFields as ('\x7d' :: r₁) = printFields bs ('\x7d' :: r₂)) :
    List.Forall₂ (Fields.PairAlike Equivalent) as bs ∧ r₁ = r₂ := by
  induction as generalizing bs with
  | nil =>
      cases bs with
      | nil => exact ⟨.nil, (List.cons.inj h).2⟩
      | cons q bs => simp [printFields] at h
  | cons p as tail =>
      cases bs with
      | nil => simp [printFields] at h
      | cons q bs =>
          obtain ⟨name, v⟩ := p
          obtain ⟨other, w⟩ := q
          simp only [printFields, List.cons.injEq, true_and] at h
          obtain ⟨names, h⟩ := Quoted.quoteOnto_inj h
          have head := ih (name, v) List.mem_cons_self w _ _
            (delimited_printFields as (delimited_cons.mpr rfl))
            (delimited_printFields bs (delimited_cons.mpr rfl)) (List.cons.inj h).2
          obtain ⟨tails, rest⟩ := tail (fun u mem => ih u (List.mem_cons_of_mem _ mem)) head.2
          exact ⟨.cons ⟨String.toList_inj.mp names, head.1⟩ tails, rest⟩

lemma determined_number {v : Value} {digits : List Char}
    (number : v.numberText? = some digits) : Determined v := by
  intro w r₁ r₂ h₁ h₂ h
  have shapes := shape_eq_of_print_eq h
  obtain ⟨others, number'⟩ : ∃ others, w.numberText? = some others := by
    rw [shape_number number] at shapes
    cases w <;> first | exact ⟨_, rfl⟩ | simp [shape] at shapes
  rw [print_number number, print_number number'] at h
  obtain ⟨rfl, rest⟩ := (isNumeral_of_numberText? number).append_inj
    (isNumeral_of_numberText? number') h₁ h₂ h
  exact ⟨.number number number', rest⟩

lemma determined_list {as : List Value} (ih : ∀ v ∈ as, Determined v) :
    Determined (.list as) := by
  intro w r₁ r₂ _ _ h
  have shapes := shape_eq_of_print_eq h
  cases w <;> simp only [shape, reduceCtorEq] at shapes
  rename_i bs
  rw [equivalent_list_iff]
  cases as with
  | nil =>
      cases bs with
      | nil => exact ⟨.nil, by simpa [print] using h⟩
      | cons w bs => exact absurd (List.cons.inj h).2.symm (print_ne_bracket w _ _)
  | cons v as =>
      cases bs with
      | nil => exact absurd (List.cons.inj h).2 (print_ne_bracket v _ _)
      | cons w bs =>
          -- with a comma for the opening bracket these are items like all others
          exact printItems_inj ih (congrArg (',' :: ·) (List.cons.inj h).2)

lemma determined_map {as : List (String × Value)} (ih : ∀ pair ∈ as, Determined pair.2) :
    Determined (.map as) := by
  intro w r₁ r₂ _ _ h
  have shapes := shape_eq_of_print_eq h
  cases w <;> simp only [shape, reduceCtorEq] at shapes
  rename_i bs
  have pairs : List.Forall₂ (Fields.PairAlike Equivalent) as bs ∧ r₁ = r₂ := by
    cases as with
    | nil =>
        cases bs with
        | nil => exact ⟨.nil, by simpa [print] using h⟩
        | cons q bs => simp [print, Quoted.quoteOnto] at h
    | cons p as =>
        cases bs with
        | nil => simp [print, Quoted.quoteOnto] at h
        | cons q bs => exact printFields_inj ih (congrArg (',' :: ·) (List.cons.inj h).2)
  exact ⟨equivalent_map_iff.mpr (Fields.alike_of_forall₂ pairs.1), pairs.2⟩

/-- A printed value and the delimited text behind it can be told apart, and the value is determined
up to equivalence. -/
theorem print_inj (v : Value) : Determined v := by
  induction v using ind with
  | null =>
      intro w r₁ r₂ _ _ h
      have shapes := shape_eq_of_print_eq h
      cases w <;> simp only [shape, reduceCtorEq] at shapes
      exact ⟨.null, by simpa [print] using h⟩
  | bool b =>
      intro w r₁ r₂ _ _ h
      have shapes := shape_eq_of_print_eq h
      cases w <;> simp only [shape, Shape.bool.injEq, reduceCtorEq] at shapes
      subst shapes
      refine ⟨.bool b, ?_⟩
      cases b <;> simpa [print] using h
  | number v digits number => exact determined_number number
  | text s =>
      intro w r₁ r₂ _ _ h
      have shapes := shape_eq_of_print_eq h
      cases w <;> simp only [shape, reduceCtorEq] at shapes
      obtain ⟨same, rest⟩ := Quoted.quoteOnto_inj h
      obtain rfl := String.toList_inj.mp same
      exact ⟨.text s, rest⟩
  | list as ih => exact determined_list ih
  | map as ih => exact determined_map ih

/-! ### From the value to the text -/

/-- Whether two values have one text. -/
def PrintAlike (v w : Value) : Prop :=
  ∀ rest, v.print rest = w.print rest

lemma printItems_congr {as bs : List Value} (h : List.Forall₂ PrintAlike as bs)
    (rest : List Char) : printItems as rest = printItems bs rest := by
  induction h with
  | nil => rfl
  | cons head _ tail => rw [printItems, printItems, tail, head]

lemma printFields_congr {as bs : List (String × Value)}
    (h : List.Forall₂ (Fields.PairAlike PrintAlike) as bs) (rest : List Char) :
    printFields as rest = printFields bs rest := by
  induction h with
  | nil => rfl
  | cons head _ tail => rw [printFields, printFields, tail, head.1, head.2]

lemma printAlike_list {as bs : List Value} (h : List.Forall₂ PrintAlike as bs) :
    PrintAlike (.list as) (.list bs) := by
  intro rest
  cases h with
  | nil => rfl
  | cons head tail => rw [print, print, printItems_congr tail, head]

lemma printAlike_map {as bs : List (String × Value)}
    (h : List.Forall₂ (Fields.PairAlike PrintAlike) as bs) :
    PrintAlike (.map as) (.map bs) := by
  intro rest
  cases h with
  | nil => rfl
  | cons head tail => rw [print, print, printFields_congr tail, head.1, head.2]

/-- Equivalent values, with their fields in order, are printed alike. -/
theorem print_arrange_congr {v w : Value} (h : Equivalent v w) :
    PrintAlike v.arrange w.arrange := by
  induction h with
  | null => exact fun _ => rfl
  | bool b => exact fun _ => rfl
  | number hv hw =>
      intro rest
      rw [arrange_number hv, arrange_number hw, print_number hv, print_number hw]
  | text s => exact fun _ => rfl
  | @list as bs length _ ih =>
      rw [arrange, arrange, arrangeItems_eq, arrangeItems_eq]
      refine printAlike_list ?_
      rw [List.forall₂_map_left_iff, List.forall₂_map_right_iff]
      exact forall₂_iff_getElem?.mpr ⟨length, ih⟩
  | @map as bs names _ ih =>
      rw [arrange, arrange]
      have alike : Fields.Alike (fun a b => PrintAlike a.arrange b.arrange) as bs :=
        Fields.alike_iff.mpr ⟨names, ih⟩
      refine printAlike_map (Fields.Ordered.forall₂ (Fields.ordered_inOrder _)
        (Fields.ordered_inOrder _) fun name => ?_)
      rw [lookup_arranged, lookup_arranged]
      exact Fields.rel_map (alike name)

/-! ### Encodings -/

/-- Equivalent values have one encoding. -/
theorem encode_eq_of_equivalent {v w : Value} (h : Equivalent v w) : v.encode = w.encode := by
  have texts : v.canonicalText = w.canonicalText := print_arrange_congr h []
  rw [encode, encode, texts]

/-- Values with one encoding are equivalent. -/
theorem equivalent_of_encode_eq {v w : Value} (h : v.encode = w.encode) : Equivalent v w := by
  have texts : v.canonicalText = w.canonicalText := String.ofList_inj.mp h
  have arranged : Equivalent v.arrange w.arrange :=
    (print_inj v.arrange w.arrange [] [] delimited_nil delimited_nil texts).1
  exact (equivalent_arrange v).trans (arranged.trans (equivalent_arrange w).symm)

/-- A derived key depends on the input through its encoding alone. -/
lemma standard_congr {v w : Value} (h : v.encode = w.encode) (toolId : String) :
    Keyer.standard toolId v = Keyer.standard toolId w := by
  rw [Keyer.standard, Keyer.standard, Key.derive, Key.derive, Key.digestOf, Key.digestOf, h]

/-- Two values have one encoding, as text and as bytes, if and only if they are equivalent. Values
that are equal have one encoding, and one key with every tool. -/
theorem encode_eq_iff (v w : Value) :
    (v.encode = w.encode ↔ Equivalent v w) ∧
      (Utf8.bytes v.encode = Utf8.bytes w.encode ↔ Equivalent v w) ∧
      (equals v w = true →
        v.encode = w.encode ∧ ∀ toolId, Keyer.standard toolId v = Keyer.standard toolId w) := by
  have law : v.encode = w.encode ↔ Equivalent v w :=
    ⟨equivalent_of_encode_eq, encode_eq_of_equivalent⟩
  refine ⟨law, ?_, fun equal => ?_⟩
  · rw [← law]
    exact ⟨Utf8.bytes_injective, congrArg Utf8.bytes⟩
  · have same : v.encode = w.encode := encode_eq_of_equivalent (equivalent_of_equals equal)
    exact ⟨same, standard_congr same⟩

end ReadThrough.Value
