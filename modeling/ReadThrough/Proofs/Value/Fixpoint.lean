import Mathlib.Data.List.Forall2
import Mathlib.Tactic.Common
import ReadThrough.Proofs.Json.Equality
import ReadThrough.Proofs.Json.Numerals
import ReadThrough.Proofs.Value.Reordering
import ReadThrough.Value.Json

/-!
Canonical text is JSON, and reading it leads back to it.

* `Holds`: the doubles in a value, at any depth; a field that a later one replaces is not part of
  the value.
* `nesting`: how deep lists and mappings are nested.
* `arrange_ind`: induction on arranged values whose doubles are finite.
* `printable_print`: no control character is written.
* `stands_arrange`: a printed value stands for a JSON value equivalent to it and nested as deep.
* `encode_fixpoint`: the statement about encodings.
-/

namespace ReadThrough

namespace Value

/-! ### Parts of values -/

/-- A double that is part of a value. -/
inductive Holds : Value → Binary64 → Prop
  | float (x : Binary64) : Holds (.float x) x
  | item {items : List Value} {v : Value} {x : Binary64} : v ∈ items → Holds v x →
    Holds (.list items) x
  | field {fields : List (String × Value)} {name : String} {v : Value} {x : Binary64} :
    Fields.lookup name fields = some v → Holds v x → Holds (.map fields) x

mutual

/-- How deep lists and mappings are nested. -/
def nesting : Value → Nat
  | .list items => nestingItems items + 1
  | .map fields => nestingFields fields + 1
  | _ => 0
termination_by structural v => v

/-- How deep the items of a list are nested. -/
def nestingItems : List Value → Nat
  | [] => 0
  | v :: rest => max (nesting v) (nestingItems rest)
termination_by structural items => items

/-- How deep the fields of a mapping are nested. -/
def nestingFields : List (String × Value) → Nat
  | [] => 0
  | (_, v) :: rest => max (nesting v) (nestingFields rest)
termination_by structural fields => fields

end

/-- Induction on arranged values whose doubles are finite. -/
theorem arrange_ind {P : Value → Prop} (null : P .null) (bool : ∀ b, P (.bool b))
    (number : ∀ v digits, v.numberText? = some digits →
      (∀ x, v = .float x → x.isFinite = true) → P v)
    (text : ∀ s, P (.text s))
    (list : ∀ items : List Value, (∀ v ∈ items, P v) → P (.list items))
    (map : ∀ fields : List (String × Value), (∀ pair ∈ fields, P pair.2) → P (.map fields))
    (v : Value) (finite : ∀ x, v.Holds x → x.isFinite = true) : P v.arrange := by
  induction v using ind with
  | null => exact null
  | bool b => exact bool b
  | number v digits h =>
      rw [arrange_number h]
      refine number v digits h fun x same => finite x ?_
      rw [same]
      exact .float x
  | text s => exact text s
  | list items ih =>
      rw [arrange, arrangeItems_eq]
      refine list _ fun w mem => ?_
      obtain ⟨v, inside, rfl⟩ := List.mem_map.mp mem
      exact ih v inside fun x held => finite x (.item inside held)
  | map fields ih =>
      rw [arrange]
      refine map _ fun pair mem => ?_
      have counts := (Fields.ordered_inOrder (arrangeFields fields)).lookup_of_mem mem
      rw [lookup_arranged] at counts
      obtain ⟨v, given, same⟩ := Option.map_eq_some_iff.mp counts
      rw [← same]
      exact ih (pair.1, v) (Fields.mem_of_lookup given) fun x held => finite x (.field given held)

/-! ### No control characters -/

/-- Whether a text holds no control character. -/
def Printable (cs : List Char) : Prop :=
  ∀ c ∈ cs, 0x20 ≤ c.toNat

lemma printable_cons {c : Char} {cs : List Char} :
    Printable (c :: cs) ↔ 0x20 ≤ c.toNat ∧ Printable cs := by
  simp [Printable]

lemma printable_append {cs ds : List Char} (h : Printable cs) (h' : Printable ds) :
    Printable (cs ++ ds) := by
  intro c mem
  rcases List.mem_append.mp mem with mem | mem
  · exact h c mem
  · exact h' c mem

lemma printable_escape (c : Char) : Printable (Quoted.escape c) := by
  have digit : ∀ n < 16, 0x20 ≤ (Hex.digit n).toNat := by decide
  have short : ∀ d : Char, 0x20 ≤ d.toNat → Printable ['\\', d] := fun d printable =>
    printable_cons.mpr ⟨by decide, printable_cons.mpr ⟨printable, by simp [Printable]⟩⟩
  rw [Quoted.escape]
  split_ifs with quote backslash feed ret tab control
  · exact short '"' (by decide)
  · exact short '\\' (by decide)
  · exact short 'n' (by decide)
  · exact short 'r' (by decide)
  · exact short 't' (by decide)
  · have high := digit (c.toNat / 16) (by omega)
    have low := digit (c.toNat % 16) (by omega)
    simp only [printable_cons]
    exact ⟨by decide, by decide, by decide, by decide, high, low, by simp [Printable]⟩
  · exact printable_cons.mpr ⟨Nat.le_of_not_lt control, by simp [Printable]⟩

lemma printable_quoteOnto (cs : List Char) {rest : List Char} (h : Printable rest) :
    Printable (Quoted.quoteOnto cs rest) := by
  have body : Printable (cs.flatMap Quoted.escape) := by
    intro c mem
    obtain ⟨d, -, inside⟩ := List.mem_flatMap.mp mem
    exact printable_escape d c inside
  rw [Quoted.quoteOnto_flatMap]
  exact printable_cons.mpr ⟨by decide, printable_append body (printable_cons.mpr ⟨by decide, h⟩)⟩

lemma printable_isNumeral {cs : List Char} (h : IsNumeral cs) : Printable cs := by
  intro c mem
  have numeric := h.numeric c mem
  simp only [isNumeric, Bool.or_eq_true, List.contains_eq_mem, List.mem_cons, List.not_mem_nil,
    or_false, decide_eq_true_eq] at numeric
  rcases numeric with digit | rfl | rfl | rfl | rfl | rfl | rfl | rfl | rfl | rfl
  · rw [← Json.isDigit_eq] at digit
    simp only [isDigit, Bool.and_eq_true, decide_eq_true_eq] at digit
    omega
  all_goals decide

lemma printable_intercalate {parts : List (List Char)} (h : ∀ cs ∈ parts, Printable cs) :
    Printable ([','].intercalate parts) := by
  cases parts with
  | nil => simp [Printable]
  | cons first others =>
      rw [intercalate_comma]
      refine printable_append (h first List.mem_cons_self) fun c mem => ?_
      obtain ⟨cs, among, inside⟩ := List.mem_flatMap.mp mem
      have part := h cs (List.mem_cons_of_mem _ among)
      exact printable_cons.mpr ⟨by decide, part⟩ c inside

/-- No control character is written. -/
theorem printable_print (v : Value) : Printable (v.print []) := by
  induction v using ind with
  | null => simp [Printable, print]
  | bool b => cases b <;> simp [Printable, print]
  | number v digits number =>
      rw [print_number number, List.append_nil]
      exact printable_isNumeral (isNumeral_of_numberText? number)
  | text s => exact printable_quoteOnto s.toList (by simp [Printable])
  | list items ih =>
      rw [print_list fun v _ => separate v]
      refine printable_cons.mpr ⟨by decide, printable_append (printable_intercalate ?_)
        (printable_cons.mpr ⟨by decide, by simp [Printable]⟩)⟩
      intro cs mem
      obtain ⟨v, inside, rfl⟩ := List.mem_map.mp mem
      exact ih v inside
  | map fields ih =>
      rw [print_map fun p _ => separate p.2]
      refine printable_cons.mpr ⟨by decide, printable_append (printable_intercalate ?_)
        (printable_cons.mpr ⟨by decide, by simp [Printable]⟩)⟩
      intro cs mem
      obtain ⟨pair, inside, rfl⟩ := List.mem_map.mp mem
      exact printable_quoteOnto pair.1.toList (printable_cons.mpr ⟨by decide, ih pair inside⟩)

/-! ### The grammar -/

/-- A written character stands for itself. -/
lemma character_escape (c : Char) : Json.Grammar.Character (Quoted.escape c) c := by
  rw [Quoted.escape]
  split_ifs with quote backslash feed ret tab control
  · subst quote
    exact .short (by decide)
  · subst backslash
    exact .short (by decide)
  · subst feed
    exact .short (by decide)
  · subst ret
    exact .short (by decide)
  · subst tab
    exact .short (by decide)
  · have zero : Quoted.hexValue? '0' = some 0 := rfl
    have quad := Json.Grammar.Quad.digits zero zero
      (Quoted.hexValue?_digit (c.toNat / 16) (by omega))
      (Quoted.hexValue?_digit (c.toNat % 16) (by omega))
    have number : ((0 * 16 + 0) * 16 + c.toNat / 16) * 16 + c.toNat % 16 = c.toNat := by omega
    rw [number] at quad
    have character := Json.Grammar.Character.unicode quad (by omega)
    rwa [Char.ofNat_toNat] at character
  · exact .plain (Nat.le_of_not_lt control) quote backslash

lemma characters_escape (cs : List Char) :
    Json.Grammar.Characters (cs.flatMap Quoted.escape) cs := by
  induction cs with
  | nil => exact .nil
  | cons c cs ih => exact .cons (character_escape c) ih

/-- A text in quotes stands for the text. -/
lemma text_quoteOnto (s : String) : Json.Grammar.Text (Quoted.quoteOnto s.toList []) s := by
  have text := Json.Grammar.Text.quoted (characters_escape s.toList)
  rw [String.ofList_toList] at text
  rwa [Quoted.quoteOnto_flatMap]

/-- Parts that are put together with commas between them. -/
lemma listed_intercalate {α : Type} {part : List Char → α → Prop} {texts : List (List Char)}
    {parts : List α} (h : List.Forall₂ part texts parts) (some_part : parts ≠ []) :
    Json.Grammar.Listed part ([','].intercalate texts) parts := by
  induction h with
  | nil => exact absurd rfl some_part
  | @cons cs a texts parts first others ih =>
      cases others with
      | nil =>
          rw [List.intercalate_singleton]
          exact .last first
      | cons second others =>
          have behind := ih (List.cons_ne_nil _ _)
          rw [List.intercalate_cons_cons, List.append_assoc]
          exact .more first behind

lemma memberText_eq (pair : String × Value) :
    memberText pair = Quoted.quoteOnto pair.1.toList [] ++ ':' :: pair.2.print [] :=
  quoteOnto_eq pair.1.toList _

/-- Whether the text of a value stands for a JSON value that is equivalent to it and nested as
deep. -/
def Stands (v : Value) : Prop :=
  ∃ j, Json.Grammar.Value (v.print []) j ∧ Equivalent (ofJson j) v ∧ j.nesting = v.nesting

lemma stands_number {v : Value} {digits : List Char} (number : v.numberText? = some digits)
    (finite : ∀ x, v = .float x → x.isFinite = true) : Stands v := by
  obtain ⟨n, text, same⟩ := Json.standsAlike_of_numberText? number finite
  refine ⟨.number n, ?_, .number same number, ?_⟩
  · rw [print_number number, List.append_nil]
    exact .number text
  · cases v <;> first | rfl | cases number

lemma stands_list {items : List Value} (ih : ∀ v ∈ items, Stands v) : Stands (.list items) := by
  choose! j text equivalent deep using ih
  refine ⟨.array (items.map j), ?_, ?_, ?_⟩
  · have elements : List.Forall₂ Json.Grammar.Element (items.map fun v => v.print [])
        (items.map j) := by
      rw [List.forall₂_map_left_iff, List.forall₂_map_right_iff, List.forall₂_same]
      exact fun v mem => (text v mem).element
    rw [print_list fun v _ => separate v]
    cases items with
    | nil => exact .emptyArray Json.Grammar.blank_nil
    | cons v items => exact .array (listed_intercalate elements (List.cons_ne_nil _ _))
  · rw [ofJson, Json.ofJsonItems_eq, equivalent_list_iff, List.forall₂_map_left_iff,
      List.forall₂_map_left_iff, List.forall₂_same]
    exact equivalent
  · rw [Json.nesting, nesting, Nat.succ_inj]
    clear text equivalent
    induction items with
    | nil => rfl
    | cons v items tail =>
        rw [List.map_cons, Json.nestingItems, nestingItems, deep v List.mem_cons_self,
          tail fun w mem => deep w (List.mem_cons_of_mem _ mem)]

lemma stands_map {fields : List (String × Value)} (ih : ∀ pair ∈ fields, Stands pair.2) :
    Stands (.map fields) := by
  choose! j text equivalent deep using ih
  refine ⟨.object (fields.map fun pair => (pair.1, j pair)), ?_, ?_, ?_⟩
  · have members : List.Forall₂ Json.Grammar.Member (fields.map memberText)
        (fields.map fun pair => (pair.1, j pair)) := by
      rw [List.forall₂_map_left_iff, List.forall₂_map_right_iff, List.forall₂_same]
      intro pair mem
      rw [memberText_eq]
      exact (text_quoteOnto pair.1).member (text pair mem).element
    rw [print_map fun p _ => separate p.2]
    cases fields with
    | nil => exact .emptyObject Json.Grammar.blank_nil
    | cons pair fields => exact .object (listed_intercalate members (List.cons_ne_nil _ _))
  · rw [ofJson, Json.ofJsonMembers_eq, equivalent_map_iff]
    refine Fields.alike_of_forall₂ ?_
    rw [List.forall₂_map_left_iff, List.forall₂_map_left_iff, List.forall₂_same]
    exact fun pair mem => ⟨rfl, equivalent pair mem⟩
  · rw [Json.nesting, nesting, Nat.succ_inj]
    clear text equivalent
    induction fields with
    | nil => rfl
    | cons pair fields tail =>
        rw [List.map_cons, Json.nestingMembers, nestingFields, deep pair List.mem_cons_self,
          tail fun other mem => deep other (List.mem_cons_of_mem _ mem)]

/-- The text of an arranged value whose doubles are finite stands for a JSON value equivalent to
it. -/
theorem stands_arrange (v : Value) (finite : ∀ x, v.Holds x → x.isFinite = true) :
    Stands v.arrange := by
  refine arrange_ind ?_ ?_ (fun v digits => stands_number) ?_ (fun items => stands_list)
    (fun fields => stands_map) v finite
  · exact ⟨.null, .null, .null, rfl⟩
  · intro b
    cases b with
    | true => exact ⟨.bool true, .yes, .bool true, rfl⟩
    | false => exact ⟨.bool false, .no, .bool false, rfl⟩
  · exact fun s => ⟨.text s, .text (text_quoteOnto s), .text s, rfl⟩

/-! ### Encodings -/

/-- The bytes of a text without control characters are none either. -/
lemma le_of_mem_bytes {s : String} (h : Printable s.toList) {b : UInt8}
    (mem : b ∈ Utf8.bytes s) : 0x20 ≤ b.toNat := by
  obtain ⟨c, inside, mem⟩ := List.mem_flatMap.mp mem
  have printable : 0x20 ≤ c.val.toNat := h c inside
  have byte : ∀ n, 0x20 ≤ n → n < 256 → 0x20 ≤ (UInt8.ofNat n).toNat := by
    intro n low high
    rwa [UInt8.toNat_ofNat_of_lt' high]
  simp only [String.utf8EncodeChar] at mem
  split_ifs at mem <;> simp only [List.mem_cons, List.not_mem_nil, or_false] at mem
  · rw [mem]
    exact byte _ printable (by omega)
  · rcases mem with rfl | rfl <;> exact byte _ (by omega) (by omega)
  · rcases mem with rfl | rfl | rfl <;> exact byte _ (by omega) (by omega)
  · rcases mem with rfl | rfl | rfl | rfl <;> exact byte _ (by omega) (by omega)

/-- No byte of an encoding is a control character. The encoding of a value whose doubles are finite
is a JSON text; and whatever reader finds the number that each numeral stands for, and reads values
as deeply nested as this one, reads it as a value that means the same and has the same encoding. -/
theorem encode_fixpoint (v : Value) :
    (∀ b ∈ Utf8.bytes v.encode, 0x20 ≤ b.toNat) ∧
    ((∀ x, v.Holds x → x.isFinite = true) →
      (∃ j, Json.IsTextOf v.encode.toList j ∧ Equivalent (ofJson j) v) ∧
      ∀ read depth, Json.Reads read depth → v.arrange.nesting ≤ depth →
        ∃ k, read v.encode.toList = some k ∧ Equivalent (ofJson k) v ∧
          (ofJson k).encode = v.encode) := by
  have text : v.encode.toList = v.arrange.print [] := String.toList_ofList
  rw [text]
  refine ⟨fun b mem => le_of_mem_bytes ?_ mem, fun finite => ?_⟩
  · rw [text]
    exact printable_print v.arrange
  · obtain ⟨j, written, equivalent, deep⟩ := stands_arrange v finite
    have back : Equivalent (ofJson j) v := equivalent.trans (equivalent_arrange v).symm
    refine ⟨⟨j, written.element, back⟩, fun read depth reads shallow => ?_⟩
    obtain ⟨k, found, same⟩ := reads _ j written.element (deep ▸ shallow)
    have alike : Equivalent (ofJson k) v := (Json.equivalent_of_equals same).trans back
    exact ⟨k, found, alike, encode_eq_of_equivalent alike⟩

/-- A value with numbers of every kind: the greatest word, the least signed one, a tenth, `1e21`,
the least positive double, minus zero, and three as a double. Its names and texts need escapes. -/
def assorted : Value :=
  .map [("\n\"é", .list [.uint 18446744073709551615, .int (-9223372036854775808),
      .float ⟨0x3FB999999999999A⟩, .float ⟨0x444B1AE4D6E2EF50⟩, .float ⟨1⟩,
      .float ⟨0x8000000000000000⟩, .float ⟨0x4008000000000000⟩]),
    ("", .map [("\x7b", .text "\x01\\\t"), ("b", .bool true), ("a", .null)])]

lemma isFinite_of_holds_assorted {x : Binary64} (held : assorted.Holds x) :
    x.isFinite = true := by
  cases held with
  | field found held =>
  have mem := Fields.mem_of_lookup found
  simp only [List.mem_cons, Prod.mk.injEq, List.not_mem_nil, or_false] at mem
  rcases mem with ⟨-, rfl⟩ | ⟨-, rfl⟩
  · cases held with
    | item mem held =>
        simp only [List.mem_cons, List.not_mem_nil, or_false] at mem
        rcases mem with rfl | rfl | rfl | rfl | rfl | rfl | rfl <;> cases held <;> decide
  · cases held with
    | field found held =>
        have mem := Fields.mem_of_lookup found
        simp only [List.mem_cons, Prod.mk.injEq, List.not_mem_nil, or_false] at mem
        rcases mem with ⟨-, rfl⟩ | ⟨-, rfl⟩ | ⟨-, rfl⟩ <;> cases held

/-- The reader that finds the nearest doubles, at its usual depth. -/
theorem encode_fixpoint_assorted :
    (∀ x, assorted.Holds x → x.isFinite = true) ∧
      assorted.arrange.nesting ≤ Json.maxNesting ∧
      ∃ k, Json.parseNested .nearest Json.maxNesting assorted.encode.toList = some k ∧
        Equivalent (ofJson k) assorted ∧ (ofJson k).encode = assorted.encode := by
  have finite : ∀ x, assorted.Holds x → x.isFinite = true := fun _ => isFinite_of_holds_assorted
  have shallow : assorted.arrange.nesting ≤ Json.maxNesting := by decide
  have read := ((encode_fixpoint assorted).2 finite).2 _ _ (Json.reads_parseNested _) shallow
  exact ⟨finite, shallow, read⟩

end Value

end ReadThrough
