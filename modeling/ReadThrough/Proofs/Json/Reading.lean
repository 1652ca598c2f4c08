import Mathlib.Tactic.Common
import ReadThrough.Proofs.Json.Scalars

/-!
The reader reads every JSON text as what it stands for.

* `sequence_listed`, `bracketed_listed`: parts with commas between them are read if each of them is.
* `readsValue_of_value`: a value is read as what it stands for, by induction on the depth up to
  which values are read.
* `parseNested_eq`: so is a whole text.
-/

namespace ReadThrough.Json

/-! ### Parts with commas between them -/

/-- Whether a part is read, whatever ends it, if it is no longer than a limit. White space behind it
may be left. -/
def ReadsPart {α : Type} (limit : Nat) (item : Reader α) (cs : List Char) (a : α) : Prop :=
  ∀ rest, Ends rest → (cs ++ rest).length ≤ limit →
    ∃ left, item (cs ++ rest) = some (a, left) ∧ skipSpace left = skipSpace rest

section Listed

variable {α : Type} {part : List Char → α → Prop} {item : Reader α} {close : Char}
  {cs : List Char} {parts : List α}

/-- Of two parts there is a comma between them. -/
lemma length_listed (h : Grammar.Listed part cs parts) : parts.length ≤ cs.length + 1 := by
  induction h with
  | last _ => exact Nat.le_add_left ..
  | more _ _ ih =>
      rw [List.length_cons, List.length_append, List.length_cons]
      omega

/-- The first of the parts. -/
lemma listed_first (h : Grammar.Listed part cs parts) :
    ∃ ds a rest, part ds a ∧ cs = ds ++ rest := by
  cases h with
  | @last cs a first => exact ⟨cs, a, [], first, (List.append_nil cs).symm⟩
  | @more cs rest a _ first _ => exact ⟨cs, a, ',' :: rest, first, rfl⟩

/-- Parts with commas between them are read if each of them is. -/
lemma sequence_listed {limit : Nat} (closes : close ∈ [']', '\x7d'])
    (h : Grammar.Listed part cs parts)
    (reads : ∀ ds a, part ds a → a ∈ parts → ReadsPart limit item ds a) {rest : List Char}
    (fits : (cs ++ close :: rest).length ≤ limit) {steps : Nat} (enough : parts.length ≤ steps) :
    sequence item close steps (cs ++ close :: rest) = some (parts, rest) := by
  have about : ∀ c ∈ [']', '\x7d'], isSpace c = false ∧ ',' ≠ c ∧ c ∈ endings := by
    simp [isSpace, endings]
  obtain ⟨solid, no_comma, ends⟩ := about close closes
  induction h generalizing steps with
  | @last cs a first =>
      obtain ⟨steps, rfl⟩ := Nat.exists_eq_succ_of_ne_zero (Nat.ne_of_gt enough)
      obtain ⟨left, found, white⟩ := reads cs a first List.mem_cons_self _ (ends_cons ends) fits
      rw [skipSpace_cons solid] at white
      simp only [sequence, found, white, if_true]
  | @more cs ds a others first _ ih =>
      obtain ⟨steps, rfl⟩ := Nat.exists_eq_succ_of_ne_zero
        (Nat.ne_of_gt (Nat.lt_of_lt_of_le (Nat.succ_pos _) enough))
      rw [List.append_assoc, List.cons_append] at fits ⊢
      have shorter : (ds ++ close :: rest).length ≤ limit := by
        rw [List.length_append, List.length_cons] at fits
        omega
      obtain ⟨left, found, white⟩ := reads cs a first List.mem_cons_self _
        (ends_cons (c := ',') (by decide)) fits
      have tail := ih (fun es b mem among => reads es b mem (List.mem_cons_of_mem _ among)) shorter
        (Nat.le_of_succ_le_succ enough)
      rw [skipSpace_cons rfl] at white
      simp only [sequence, found, white, if_neg no_comma, if_true, tail]

/-- Parts between brackets are read if each of them is, and if the first does not look like the
closing bracket. -/
lemma bracketed_listed {mode : Mode} (closes : close ∈ [']', '\x7d'])
    (h : Grammar.Listed part cs parts)
    (reads : ∀ ds a, part ds a → a ∈ parts → ReadsPart mode.limit item ds a)
    (starts : ∀ ds a, part ds a → ∀ rest, ∃ c others,
      skipSpace (ds ++ rest) = c :: others ∧ c ≠ close)
    {rest : List Char} (fits : (cs ++ close :: rest).length ≤ mode.limit) :
    bracketed mode item close (cs ++ close :: rest) = some (parts, rest) := by
  have enough : parts.length ≤ mode.limit := by
    have := length_listed h
    rw [List.length_append, List.length_cons] at fits
    omega
  have found := sequence_listed closes h reads fits enough
  obtain ⟨ds, a, behind, first, rfl⟩ := listed_first h
  rw [List.append_assoc] at found ⊢
  obtain ⟨c, others, white, no_close⟩ := starts ds a first (behind ++ close :: rest)
  simp only [bracketed, white, if_neg no_close, found]

/-- Nothing between brackets but white space. -/
lemma bracketed_blank {mode : Mode} (closes : close ∈ [']', '\x7d']) {blank : List Char}
    (white : Grammar.Blank blank) (rest : List Char) :
    bracketed mode item close (blank ++ close :: rest) = some ([], rest) := by
  have solid : ∀ c ∈ [']', '\x7d'], isSpace c = false := by simp [isSpace]
  rw [bracketed, skipSpace_blank white, skipSpace_cons (solid close closes)]
  simp only [if_true]

end Listed

/-! ### The kinds of values -/

/-- A value that starts with no bracket holds no other values. -/
lemma value_scalar {c : Char} (solid : isSpace c = false) (no_array : c ≠ '[')
    (no_object : c ≠ '\x7b') (mode : Mode) (depth : Nat) (cs : List Char) :
    value mode depth (c :: cs) = scalar mode (c :: cs) := by
  cases depth with
  | zero => rw [value, skipSpace_cons solid]
  | succ depth =>
      rw [value, skipSpace_cons solid]
      split
      · rename_i same
        exact absurd (List.cons.inj same).1 no_array
      · rename_i same
        exact absurd (List.cons.inj same).1 no_object
      · rfl

lemma value_array {mode : Mode} {depth : Nat} {cs rest : List Char} {items : List Json}
    (found : bracketed mode (value mode depth) ']' cs = some (items, rest)) :
    value mode (depth + 1) ('[' :: cs) = some (.array items, rest) := by
  rw [value, skipSpace_cons rfl]
  simp only [found]

lemma value_object {mode : Mode} {depth : Nat} {cs rest : List Char}
    {members : List (String × Json)}
    (found : bracketed mode (member mode (value mode depth)) '\x7d' cs = some (members, rest)) :
    value mode (depth + 1) ('\x7b' :: cs) = some (.object members, rest) := by
  rw [value, skipSpace_cons rfl]
  simp only [found]

lemma value_quoted {mode : Mode} {depth : Nat} {cs rest : List Char} {s : String}
    (found : quoted mode ('"' :: cs) = some (s, rest)) :
    value mode depth ('"' :: cs) = some (.text s, rest) := by
  rw [value_scalar (by decide) (by decide) (by decide), scalar]
  simp only [found]

/-- What starts a number starts nothing else. -/
lemma solid_of_startsNumber {c : Char} (starts : startsNumber c = true) :
    isSpace c = false ∧ c ∉ ['n', 't', 'f', '"', '[', ']', '\x7b', '\x7d'] := by
  have others : ∀ d ∈ [' ', '\t', '\n', '\r', 'n', 't', 'f', '"', '[', ']', '\x7b', '\x7d'],
      startsNumber d = false := by simp [startsNumber]
  have no : ∀ d ∈ [' ', '\t', '\n', '\r', 'n', 't', 'f', '"', '[', ']', '\x7b', '\x7d'], c ≠ d := by
    rintro d mem rfl
    rw [others c mem] at starts
    contradiction
  simp only [List.mem_cons, List.not_mem_nil, or_false, forall_eq_or_imp, forall_eq] at no
  simp [isSpace, no]

/-- A text that starts like a number is read as one. -/
lemma value_numeral {c : Char} (starts : startsNumber c = true) (mode : Mode) (depth : Nat)
    (cs : List Char) : value mode depth (c :: cs) = numeral mode (c :: cs) := by
  obtain ⟨solid, other⟩ := solid_of_startsNumber starts
  simp only [List.mem_cons, List.not_mem_nil, or_false, not_or] at other
  obtain ⟨no_null, no_yes, no_no, no_text, no_array, -, no_object, -⟩ := other
  rw [value_scalar solid no_array no_object, scalar.eq_def]
  split
  · exact absurd (List.cons.inj ‹_›).1 no_null
  · exact absurd (List.cons.inj ‹_›).1 no_yes
  · exact absurd (List.cons.inj ‹_›).1 no_no
  · exact absurd (List.cons.inj ‹_›).1 no_text
  · rfl

/-- White space in front of a value is passed over. -/
lemma value_blank {blank : List Char} (white : Grammar.Blank blank) (mode : Mode) (depth : Nat)
    (cs : List Char) : value mode depth (blank ++ cs) = value mode depth cs := by
  cases depth <;> rw [value, value, skipSpace_blank white]

/-- No value starts with white space or with a closing bracket. -/
lemma value_starts {cs : List Char} {j : Json} (h : Grammar.Value cs j) :
    ∃ c rest, cs = c :: rest ∧ isSpace c = false ∧ c ≠ ']' := by
  cases h with
  | null => exact ⟨'n', _, rfl, rfl, by decide⟩
  | yes => exact ⟨'t', _, rfl, rfl, by decide⟩
  | no => exact ⟨'f', _, rfl, rfl, by decide⟩
  | number number =>
      obtain ⟨n, numeral, -⟩ := number
      obtain ⟨c, rest, rfl, starts⟩ := numeral_starts numeral
      obtain ⟨solid, other⟩ := solid_of_startsNumber starts
      exact ⟨c, rest, rfl, solid, fun close => other (by simp [close])⟩
  | text quoted =>
      cases quoted
      exact ⟨'"', _, rfl, rfl, by decide⟩
  | emptyArray _ => exact ⟨'[', _, rfl, rfl, by decide⟩
  | array _ => exact ⟨'[', _, rfl, rfl, by decide⟩
  | emptyObject _ => exact ⟨'\x7b', _, rfl, rfl, by decide⟩
  | object _ => exact ⟨'\x7b', _, rfl, rfl, by decide⟩

/-! ### Values of bounded nesting -/

lemma nesting_le_items {items : List Json} {j : Json} (mem : j ∈ items) :
    j.nesting ≤ nestingItems items := by
  induction items with
  | nil => cases mem
  | cons k items ih =>
      rw [nestingItems]
      rcases List.mem_cons.mp mem with rfl | mem
      · exact Nat.le_max_left ..
      · exact Nat.le_trans (ih mem) (Nat.le_max_right ..)

lemma nesting_le_members {members : List (String × Json)} {pair : String × Json}
    (mem : pair ∈ members) : pair.2.nesting ≤ nestingMembers members := by
  induction members with
  | nil => cases mem
  | cons other members ih =>
      obtain ⟨name, j⟩ := other
      rw [nestingMembers]
      rcases List.mem_cons.mp mem with rfl | mem
      · exact Nat.le_max_left ..
      · exact Nat.le_trans (ih mem) (Nat.le_max_right ..)

/-- Whether a value is read from a text, whatever ends it. -/
def ReadsValue (mode : Mode) (depth : Nat) (cs : List Char) (j : Json) : Prop :=
  ∀ rest, Ends rest → (cs ++ rest).length ≤ mode.limit →
    value mode depth (cs ++ rest) = some (j, rest)

variable {mode : Mode} {depth : Nat} {cs : List Char} {j : Json}

/-- A value between white space is read if the value is. -/
lemma readsPart_element (h : Grammar.Element cs j)
    (reads : ∀ ds, Grammar.Value ds j → ReadsValue mode depth ds j) :
    ReadsPart mode.limit (value mode depth) cs j := by
  intro rest ends fits
  cases h with
  | @between before ds after _ white written white' =>
      refine ⟨after ++ rest, ?_, skipSpace_blank white' rest⟩
      rw [List.append_assoc, List.append_assoc] at fits ⊢
      rw [value_blank white]
      refine reads ds written _ (ends.blank white') ?_
      rw [List.length_append] at fits
      omega

/-- A member is read if its value is. -/
lemma readsPart_member {pair : String × Json} (h : Grammar.Member cs pair)
    (reads : ∀ ds, Grammar.Value ds pair.2 → ReadsValue mode depth ds pair.2) :
    ReadsPart mode.limit (member mode (value mode depth)) cs pair := by
  intro rest ends fits
  cases h with
  | @pair before name after ds s j white named white' element =>
      simp only [List.append_assoc, List.cons_append] at fits ⊢
      have shorter : (name ++ (after ++ ':' :: (ds ++ rest))).length ≤ mode.limit ∧
          (ds ++ rest).length ≤ mode.limit := by
        simp only [List.length_append, List.length_cons] at fits ⊢
        omega
      have text := quoted_text named shorter.1
      have solid : skipSpace (name ++ (after ++ ':' :: (ds ++ rest))) =
          name ++ (after ++ ':' :: (ds ++ rest)) := by
        cases named
        exact skipSpace_cons rfl _
      obtain ⟨left, found, white_left⟩ := readsPart_element element reads rest ends shorter.2
      refine ⟨left, ?_, white_left⟩
      rw [member, skipSpace_blank white, solid, text]
      simp only [skipSpace_blank white', skipSpace_cons (c := ':') rfl, found]

lemma element_starts (h : Grammar.Element cs j) (rest : List Char) :
    ∃ c others, skipSpace (cs ++ rest) = c :: others ∧ c ≠ ']' := by
  cases h with
  | @between before ds after _ white written _ =>
      obtain ⟨c, others, rfl, solid, no_close⟩ := value_starts written
      refine ⟨c, others ++ (after ++ rest), ?_, no_close⟩
      rw [List.append_assoc, List.append_assoc, skipSpace_blank white]
      exact skipSpace_cons solid _

lemma member_starts {pair : String × Json} (h : Grammar.Member cs pair) (rest : List Char) :
    ∃ c others, skipSpace (cs ++ rest) = c :: others ∧ c ≠ '\x7d' := by
  cases h with
  | @pair before name after ds s j white named _ _ =>
      obtain ⟨others, rfl⟩ : ∃ others, name = '"' :: others := by
        cases named
        exact ⟨_, rfl⟩
      refine ⟨'"', others ++ (after ++ ':' :: ds ++ rest), ?_, by decide⟩
      rw [List.append_assoc, List.append_assoc, skipSpace_blank white]
      exact skipSpace_cons rfl _

/-- A number is read as what it stands for if the double nearest to each numeral is found. -/
lemma readsValue_number (nearest : mode.rounding = .nearest) {n : Number}
    (h : Grammar.Number cs n) : ReadsValue mode depth cs (.number n) := by
  obtain ⟨digits, written, stands⟩ := h
  intro rest ends _
  have found := read_numeral written ends
  obtain ⟨c, others, rfl, starts⟩ := numeral_starts written
  rw [List.cons_append] at found ⊢
  rw [value_numeral starts, numeral, found]
  simp only [nearest, number?_eq stands]

lemma readsValue_text {s : String} (h : Grammar.Text cs s) :
    ReadsValue mode depth cs (.text s) := by
  intro rest _ fits
  have found := quoted_text h fits
  cases h with
  | quoted _ => exact value_quoted found

/-- The elements of an array are read if the values that are nested less deep are. -/
lemma readsValue_array {items : List Json} (h : Grammar.Listed Grammar.Element cs items)
    (shallow : nestingItems items ≤ depth)
    (ih : ∀ ds j, Grammar.Value ds j → j.nesting ≤ depth → ReadsValue mode depth ds j) :
    ReadsValue mode (depth + 1) ('[' :: (cs ++ [']'])) (.array items) := by
  intro rest _ fits
  rw [List.cons_append, List.append_assoc] at fits ⊢
  refine value_array (bracketed_listed (by decide) h (fun ds j element mem => ?_)
    (fun ds j => element_starts) (Nat.le_of_succ_le fits))
  exact readsPart_element element fun es written =>
    ih es j written (Nat.le_trans (nesting_le_items mem) shallow)

/-- The members of an object are read if the values that are nested less deep are. -/
lemma readsValue_object {members : List (String × Json)}
    (h : Grammar.Listed Grammar.Member cs members) (shallow : nestingMembers members ≤ depth)
    (ih : ∀ ds j, Grammar.Value ds j → j.nesting ≤ depth → ReadsValue mode depth ds j) :
    ReadsValue mode (depth + 1) ('\x7b' :: (cs ++ ['\x7d'])) (.object members) := by
  intro rest _ fits
  rw [List.cons_append, List.append_assoc] at fits ⊢
  refine value_object (bracketed_listed (by decide) h (fun ds pair member mem => ?_)
    (fun ds pair => member_starts) (Nat.le_of_succ_le fits))
  exact readsPart_member member fun es written =>
    ih es pair.2 written (Nat.le_trans (nesting_le_members mem) shallow)

/-- A value is read as what it stands for if the double nearest to each numeral is found. -/
theorem readsValue_of_value (nearest : mode.rounding = .nearest) (h : Grammar.Value cs j)
    (shallow : j.nesting ≤ depth) : ReadsValue mode depth cs j := by
  induction depth using Nat.strongRecOn generalizing cs j with
  | ind depth ih =>
  have inside : ∀ n, n + 1 ≤ depth → ∃ d, depth = d + 1 ∧ n ≤ d ∧
      ∀ ds k, Grammar.Value ds k → k.nesting ≤ d → ReadsValue mode d ds k := by
    intro n some_depth
    refine ⟨depth - 1, by omega, by omega, fun ds k written bound => ?_⟩
    exact ih (depth - 1) (by omega) written bound
  cases h with
  | null => exact fun rest _ _ => value_scalar rfl (by decide) (by decide) mode depth _
  | yes => exact fun rest _ _ => value_scalar rfl (by decide) (by decide) mode depth _
  | no => exact fun rest _ _ => value_scalar rfl (by decide) (by decide) mode depth _
  | number number => exact readsValue_number nearest number
  | text quoted => exact readsValue_text quoted
  | emptyArray white =>
      obtain ⟨d, rfl, -, -⟩ := inside 0 shallow
      intro rest _ _
      rw [List.cons_append, List.append_assoc]
      exact value_array (bracketed_blank (by decide) white rest)
  | array listed =>
      obtain ⟨d, rfl, bound, reads⟩ := inside _ shallow
      exact readsValue_array listed bound reads
  | emptyObject white =>
      obtain ⟨d, rfl, -, -⟩ := inside 0 shallow
      intro rest _ _
      rw [List.cons_append, List.append_assoc]
      exact value_object (bracketed_blank (by decide) white rest)
  | object listed =>
      obtain ⟨d, rfl, bound, reads⟩ := inside _ shallow
      exact readsValue_object listed bound reads

/-- A whole text is read as what it stands for if the double nearest to each numeral is found. -/
theorem parseNested_eq (h : IsTextOf cs j) (shallow : j.nesting ≤ depth) :
    parseNested .nearest depth cs = some j := by
  have values : ∀ ds, Grammar.Value ds j → ReadsValue ⟨.nearest, cs.length⟩ depth ds j :=
    fun ds written => readsValue_of_value rfl written shallow
  have element : ReadsPart cs.length (value ⟨.nearest, cs.length⟩ depth) cs j :=
    readsPart_element h values
  obtain ⟨left, found, white⟩ := element [] (fun c none => nomatch none) (by simp)
  rw [List.append_nil] at found
  simp only [parseNested, found, white]
  rfl

end ReadThrough.Json
