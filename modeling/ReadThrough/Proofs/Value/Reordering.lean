import ReadThrough.Proofs.Value.Encoding
import ReadThrough.Value.Convert

/-!
The order in which the fields of a mapping are given never shows in its canonical text.

* `Fields.Reordering`: the same pairs in another order, except that pairs of one name keep theirs.
* `Built`: the ways to build a mapping from pairs, which are field by field, from the list at once,
  and from a table that holds the value that counts for each name.
* `Reordered`: values that differ in how their mappings are built and in the order of the pairs
  given, at any depth, each mapping by itself.
* `encode_list`, `encode_built`: the encoding of a list and of a mapping, put together from those of
  the parts. The members of a mapping stand in order, each name once, with the last value given for
  it.
* `encode_eq_of_reordered`: reordered values have one encoding, and one key with every tool.
-/

namespace ReadThrough

namespace Fields

variable {α : Type}

/-- The same pairs in another order, except that pairs of one name keep theirs. -/
structure Reordering (as bs : List (String × α)) : Prop where
  perm : as.Perm bs
  keeps : ∀ name, as.filter (fun pair => pair.1 == name) = bs.filter (fun pair => pair.1 == name)

/-- Neighbours with different names may change places. -/
lemma Reordering.swap {p q : String × α} (different : p.1 ≠ q.1) (rest : List (String × α)) :
    Reordering (p :: q :: rest) (q :: p :: rest) := by
  refine ⟨.swap q p rest, fun name => ?_⟩
  by_cases first : p.1 = name
  · have second : ¬q.1 = name := fun same => different (first.trans same.symm)
    simp [first, second]
  · simp [List.filter_cons, first]

/-- The value that counts for a name is that of its last pair. -/
lemma lookup_eq_getLast? (name : String) (fields : List (String × α)) :
    lookup name fields = ((fields.filter fun pair => pair.1 == name).getLast?).map Prod.snd := by
  induction fields with
  | nil => rfl
  | cons pair rest ih =>
      rw [lookup_cons, ih, List.filter_cons]
      by_cases same : pair.1 = name
      · rw [if_pos same, if_pos (beq_iff_eq.mpr same), List.getLast?_cons]
        cases (rest.filter fun pair => pair.1 == name).getLast? <;> rfl
      · rw [if_neg same, if_neg (by simpa using same), Option.or_none]

/-- Reordering changes nothing that a name stands for. -/
lemma Reordering.lookup_eq {as bs : List (String × α)} (h : Reordering as bs) (name : String) :
    lookup name as = lookup name bs := by
  rw [lookup_eq_getLast?, lookup_eq_getLast?, h.keeps]

/-- A name stands for something if and only if there is a pair of it. -/
lemma isSome_lookup_iff {name : String} {fields : List (String × α)} :
    (lookup name fields).isSome ↔ name ∈ fields.map Prod.fst := by
  constructor
  · intro found
    obtain ⟨value, found⟩ := Option.isSome_iff_exists.mp found
    exact List.mem_map_of_mem (mem_of_lookup found)
  · intro mem
    by_contra absent
    rw [Option.not_isSome_iff_eq_none, lookup_eq_getLast?, Option.map_eq_none_iff,
      List.getLast?_eq_none_iff, List.filter_eq_nil_iff] at absent
    obtain ⟨pair, given, rfl⟩ := List.mem_map.mp mem
    exact absent pair given (beq_self_eq_true _)

/-- A pair whose value counts for its name is the last pair of that name. -/
lemma getLast?_filter_of_lookup {name : String} {value : α} {fields : List (String × α)}
    (found : lookup name fields = some value) :
    (fields.filter fun pair => pair.1 == name).getLast? = some (name, value) := by
  rw [lookup_eq_getLast?, Option.map_eq_some_iff] at found
  obtain ⟨pair, last, rfl⟩ := found
  have same : pair.1 = name := by
    simpa using (List.mem_filter.mp (List.mem_of_getLast? last)).2
  rw [last, ← same]

/-- In ordered fields every pair counts. -/
lemma Ordered.lookup_of_mem {fields : List (String × α)} (h : Ordered fields)
    {pair : String × α} (mem : pair ∈ fields) : lookup pair.1 fields = some pair.2 := by
  induction fields with
  | nil => simp at mem
  | cons first rest ih =>
      rcases List.mem_cons.mp mem with rfl | mem
      · exact h.lookup_head
      · rw [lookup_cons, ih (List.pairwise_cons.mp h).2 mem, Option.some_or]

/-- Ordered fields have every name once. -/
lemma Ordered.nodup {fields : List (String × α)} (h : Ordered fields) :
    (fields.map Prod.fst).Nodup := by
  refine List.pairwise_map.mpr (h.imp fun {a b} first same => ?_)
  rw [same, Utf8.before_irrefl] at first
  exact Bool.false_ne_true first

/-- Ordered fields are determined by what names stand for. -/
lemma Ordered.ext {as bs : List (String × α)} (ha : Ordered as) (hb : Ordered bs)
    (h : ∀ name, lookup name as = lookup name bs) : as = bs := by
  have alike : Alike Eq as bs := by
    intro name
    rw [h]
    cases lookup name bs with
    | none => exact .none
    | some value => exact .some rfl
  refine List.forall₂_eq_eq_eq ▸ (ha.forall₂ hb alike).imp fun p q pair => ?_
  exact Prod.ext pair.1 pair.2

end Fields

namespace Value

/-! ### Building a mapping -/

/-- The ways to build a mapping from pairs. -/
inductive Built (pairs : List (String × Value)) : Value → Prop where
  /-- Field by field, from the mapping without fields. -/
  | chained : Built pairs (pairs.foldl (fun v pair => v.insert pair.1 pair.2) Value.empty)
  /-- From the list at once. -/
  | collected : Built pairs (Value.ofFields pairs)
  /-- From a table with one element for each name, in whatever order it lists them. -/
  | converted {α : Type} [ToValue α] {table : List (String × α)} :
    (table.map Prod.fst).Nodup →
    (∀ name, (Fields.lookup name table).map toValue = Fields.lookup name pairs) →
    Built pairs (toValue table)

lemma foldl_insert (pairs fields : List (String × Value)) :
    pairs.foldl (fun v pair => Value.insert v pair.1 pair.2) (.map fields) =
      .map (fields ++ pairs) := by
  induction pairs generalizing fields with
  | nil => rw [List.foldl_nil, List.append_nil]
  | cons pair rest ih =>
      rw [List.foldl_cons, insert, ih, List.append_assoc, List.singleton_append]

/-- However a mapping is built, a name stands for what it stands for among the pairs. -/
lemma Built.lookup_eq {pairs : List (String × Value)} {v : Value} (h : Built pairs v) :
    ∃ fields, v = .map fields ∧
      ∀ name, Fields.lookup name fields = Fields.lookup name pairs := by
  cases h with
  | chained => exact ⟨pairs, foldl_insert pairs [], fun _ => rfl⟩
  | collected => exact ⟨pairs, rfl, fun _ => rfl⟩
  | @converted α _ table _ same =>
      exact ⟨_, rfl, fun name => (Fields.lookup_map toValue name table).trans (same name)⟩

/-! ### Reordered values are equivalent -/

/-- Values that differ in how their mappings are built and in the order of the pairs given, at any
depth. First the values of the pairs may be reordered within themselves (`inner`), then the pairs
among each other (`outer`). -/
inductive Reordered : Value → Value → Prop where
  | same (v : Value) : Reordered v v
  | list {as bs : List Value} :
    as.length = bs.length →
    (∀ (i : Nat) (a b : Value), as[i]? = some a → bs[i]? = some b → Reordered a b) →
    Reordered (.list as) (.list bs)
  | mapping {pairs inner outer : List (String × Value)} {v w : Value} :
    pairs.length = inner.length →
    (∀ (i : Nat) (p q : String × Value), pairs[i]? = some p → inner[i]? = some q → p.1 = q.1) →
    (∀ (i : Nat) (p q : String × Value), pairs[i]? = some p → inner[i]? = some q →
      Reordered p.2 q.2) →
    Fields.Reordering inner outer →
    Built pairs v → Built outer w → Reordered v w

/-- Lists of reordered items are reordered. -/
lemma Reordered.items {as bs : List Value} (h : List.Forall₂ Reordered as bs) :
    Reordered (.list as) (.list bs) := by
  obtain ⟨length, related⟩ := forall₂_iff_getElem?.mp h
  exact .list length related

/-- Mappings built from pairs whose values are reordered and which are then reordered themselves. -/
lemma Reordered.fields {pairs inner outer : List (String × Value)} {v w : Value}
    (h : List.Forall₂ (Fields.PairAlike Reordered) pairs inner)
    (reordering : Fields.Reordering inner outer) (hv : Built pairs v) (hw : Built outer w) :
    Reordered v w := by
  obtain ⟨length, alike⟩ := forall₂_iff_getElem?.mp h
  exact .mapping length (fun i p q hp hq => (alike i p q hp hq).1)
    (fun i p q hp hq => (alike i p q hp hq).2) reordering hv hw

lemma equivalent_of_reordered {v w : Value} (h : Reordered v w) : Equivalent v w := by
  induction h with
  | same v => exact .refl v
  | list length _ ih => exact .list length ih
  | @mapping pairs inner outer v w length names _ reordering hv hw ih =>
      obtain ⟨fs, rfl, hf⟩ := hv.lookup_eq
      obtain ⟨gs, rfl, hg⟩ := hw.lookup_eq
      have pairwise : List.Forall₂ (Fields.PairAlike Equivalent) pairs inner := by
        refine forall₂_iff_getElem?.mpr ⟨length, fun i p q hp hq => ?_⟩
        exact ⟨names i p q hp hq, ih i p q hp hq⟩
      refine equivalent_map_iff.mpr fun name => ?_
      rw [hf, hg, ← reordering.lookup_eq]
      exact Fields.alike_of_forall₂ pairwise name

/-! ### Texts put together from texts -/

lemma quoteOnto_eq (cs rest : List Char) :
    Quoted.quoteOnto cs rest = Quoted.quoteOnto cs [] ++ rest := by
  rw [Quoted.quoteOnto_flatMap, Quoted.quoteOnto_flatMap, List.cons_append, List.append_assoc]
  rfl

/-- Whether what follows a value has no influence on its text. -/
def Separate (v : Value) : Prop :=
  ∀ rest, v.print rest = v.print [] ++ rest

/-- A member as it is printed: its name in quotes, a colon, and its value. -/
def memberText (pair : String × Value) : List Char :=
  Quoted.quoteOnto pair.1.toList (':' :: pair.2.print [])

lemma printItems_eq {items : List Value} (separate : ∀ v ∈ items, Separate v)
    (rest : List Char) :
    printItems items rest = items.flatMap (fun v => ',' :: v.print []) ++ rest := by
  induction items with
  | nil => rfl
  | cons v items ih =>
      rw [printItems, separate v List.mem_cons_self,
        ih fun u mem => separate u (List.mem_cons_of_mem _ mem), List.flatMap_cons,
        List.append_assoc, List.cons_append]

lemma print_member {pair : String × Value} (separate : Separate pair.2) (rest : List Char) :
    Quoted.quoteOnto pair.1.toList (':' :: pair.2.print rest) = memberText pair ++ rest := by
  rw [memberText, quoteOnto_eq, quoteOnto_eq _ (':' :: pair.2.print []), separate,
    List.append_assoc, List.cons_append]

lemma printFields_eq {fields : List (String × Value)} (separate : ∀ p ∈ fields, Separate p.2)
    (rest : List Char) :
    printFields fields rest = fields.flatMap (fun p => ',' :: memberText p) ++ rest := by
  induction fields with
  | nil => rfl
  | cons pair fields ih =>
      rw [printFields, print_member (separate pair List.mem_cons_self),
        ih fun p mem => separate p (List.mem_cons_of_mem _ mem), List.flatMap_cons,
        List.append_assoc, List.cons_append]

/-- Texts with commas between them: the first, and a comma in front of each other. -/
lemma intercalate_comma (first : List Char) (others : List (List Char)) :
    [','].intercalate (first :: others) = first ++ others.flatMap (fun cs => ',' :: cs) := by
  induction others generalizing first with
  | nil => simp [List.intercalate]
  | cons second others ih =>
      rw [List.intercalate_cons_cons, ih, List.flatMap_cons, List.append_assoc]
      rfl

lemma print_list {items : List Value} (separate : ∀ v ∈ items, Separate v) (rest : List Char) :
    (Value.list items).print rest =
      '[' :: ([','].intercalate (items.map fun v => v.print []) ++ ']' :: rest) := by
  cases items with
  | nil => rfl
  | cons v items =>
      rw [print, separate v List.mem_cons_self,
        printItems_eq fun u mem => separate u (List.mem_cons_of_mem _ mem), List.map_cons,
        intercalate_comma, List.flatMap_map, List.append_assoc]

lemma print_map {fields : List (String × Value)} (separate : ∀ p ∈ fields, Separate p.2)
    (rest : List Char) :
    (Value.map fields).print rest =
      '\x7b' :: ([','].intercalate (fields.map memberText) ++ '\x7d' :: rest) := by
  cases fields with
  | nil => rfl
  | cons pair fields =>
      rw [print, print_member (separate pair List.mem_cons_self),
        printFields_eq fun p mem => separate p (List.mem_cons_of_mem _ mem), List.map_cons,
        intercalate_comma, List.flatMap_map, List.append_assoc]

/-- What follows a value has no influence on its text. -/
lemma separate (v : Value) : Separate v := by
  induction v using ind with
  | null => exact fun _ => rfl
  | bool b => cases b <;> exact fun _ => rfl
  | number v digits number =>
      intro rest
      rw [print_number number, print_number number, List.append_nil]
  | text s => exact fun rest => quoteOnto_eq _ rest
  | list items ih =>
      intro rest
      rw [print_list ih, print_list ih, List.cons_append, List.append_assoc]
      rfl
  | map fields ih =>
      intro rest
      rw [print_map ih, print_map ih, List.cons_append, List.append_assoc]
      rfl

/-- The text of a list is that of its items, in their order. -/
lemma canonicalText_list (items : List Value) :
    (Value.list items).canonicalText =
      '[' :: ([','].intercalate (items.map canonicalText) ++ [']']) := by
  rw [canonicalText, arrange, arrangeItems_eq, print_list fun v _ => separate v, List.map_map]
  rfl

lemma arrangeFields_eq (fields : List (String × Value)) :
    arrangeFields fields = fields.map fun p => (p.1, p.2.arrange) := by
  induction fields with
  | nil => rfl
  | cons pair rest ih => rw [arrangeFields, ih, List.map_cons]

lemma ordered_arrangeFields {fields : List (String × Value)} (h : Fields.Ordered fields) :
    Fields.Ordered (arrangeFields fields) := by
  rw [arrangeFields_eq]
  exact List.pairwise_map.mpr h

/-- The text of a mapping is that of its members in order. -/
lemma canonicalText_built {pairs : List (String × Value)} {v : Value} (h : Built pairs v) :
    v.canonicalText =
      '\x7b' :: ([','].intercalate ((Fields.inOrder pairs).map fun p =>
        (Value.text p.1).canonicalText ++ ':' :: p.2.canonicalText) ++ ['\x7d']) := by
  obtain ⟨fields, rfl, same⟩ := h.lookup_eq
  have arranged : Fields.inOrder (arrangeFields fields) = arrangeFields (Fields.inOrder pairs) := by
    refine (Fields.ordered_inOrder _).ext (ordered_arrangeFields (Fields.ordered_inOrder _)) ?_
    intro name
    rw [lookup_arranged, lookup_arrangeFields, Fields.lookup_inOrder, same]
  rw [canonicalText, arrange, arranged, print_map fun p _ => separate p.2, arrangeFields_eq,
    List.map_map]
  congr 4
  funext p
  exact quoteOnto_eq p.1.toList _

/-! ### One encoding -/

lemma toList_encode (v : Value) : v.encode.toList = v.canonicalText := String.toList_ofList

/-- The encoding of a list is that of its items, in their order. -/
lemma encode_list (items : List Value) :
    (Value.list items).encode = "[" ++ ",".intercalate (items.map encode) ++ "]" := by
  have parts : (items.map encode).map String.toList = items.map canonicalText := by
    rw [List.map_map]
    exact List.map_congr_left fun v _ => toList_encode v
  rw [← String.toList_inj, toList_encode, canonicalText_list, String.toList_append,
    String.toList_append, String.toList_intercalate, parts]
  rfl

/-- The encoding of a text tells the text. -/
lemma encode_text_inj {s t : String} (h : (Value.text s).encode = (Value.text t).encode) :
    s = t := by
  have quoted : Quoted.quoteOnto s.toList [] = Quoted.quoteOnto t.toList [] :=
    String.ofList_injective h
  exact String.toList_inj.mp (Quoted.quoteOnto_inj quoted).1

/-- A member in the encoding of a mapping: its name as a text, a colon, and the encoding of its
value. -/
lemma toList_encode_member (pair : String × Value) :
    ((Value.text pair.1).encode ++ ":" ++ pair.2.encode).toList =
      (Value.text pair.1).canonicalText ++ ':' :: pair.2.canonicalText := by
  rw [String.toList_append, String.toList_append, toList_encode, toList_encode,
    List.append_assoc]
  rfl

/-- The encoding of a mapping is that of its members in order. -/
lemma encode_built {pairs : List (String × Value)} {v : Value} (h : Built pairs v) :
    v.encode = "\x7b" ++ ",".intercalate ((Fields.inOrder pairs).map fun p =>
      (Value.text p.1).encode ++ ":" ++ p.2.encode) ++ "\x7d" := by
  have parts : ((Fields.inOrder pairs).map fun p =>
      (Value.text p.1).encode ++ ":" ++ p.2.encode).map String.toList =
      (Fields.inOrder pairs).map fun p =>
        (Value.text p.1).canonicalText ++ ':' :: p.2.canonicalText := by
    rw [List.map_map]
    exact List.map_congr_left fun p _ => toList_encode_member p
  rw [← String.toList_inj, toList_encode, canonicalText_built h, String.toList_append,
    String.toList_append, String.toList_intercalate, parts]
  rfl

/-- Values that differ in how their mappings are built and in the order of the pairs given, at any
depth, have one encoding, and one key with every tool. In the encoding of a list the items keep
their order. In the encoding of a mapping, whatever the way it is built, every name that was given
stands once, the names are in increasing order of their bytes, and behind each stands the encoding
of the last value given for it. A name stands as a text, which tells the name. -/
theorem encode_eq_of_reordered {v w : Value} (h : Reordered v w) :
    (v.encode = w.encode ∧ ∀ toolId, ∃ key,
      Keyer.standard toolId v = .ok key ∧ Keyer.standard toolId w = .ok key) ∧
    (∀ items : List Value,
      (Value.list items).encode = "[" ++ ",".intercalate (items.map encode) ++ "]") ∧
    (∀ s t : String, (Value.text s).encode = (Value.text t).encode → s = t) ∧
    ∀ (pairs : List (String × Value)) (u : Value), Built pairs u →
      ∃ members : List (String × Value),
        members.Pairwise (fun p q => p.1.toUTF8.data.toList < q.1.toUTF8.data.toList) ∧
        (members.map Prod.fst).Nodup ∧
        (∀ name, name ∈ members.map Prod.fst ↔ name ∈ pairs.map Prod.fst) ∧
        (∀ p ∈ members, (pairs.filter fun q => q.1 == p.1).getLast? = some p) ∧
        u.encode = "\x7b" ++ ",".intercalate (members.map fun p =>
          (Value.text p.1).encode ++ ":" ++ p.2.encode) ++ "\x7d" := by
  have same : v.encode = w.encode := encode_eq_of_equivalent (equivalent_of_reordered h)
  refine ⟨⟨same, fun toolId => ⟨_, rfl, (standard_congr same toolId).symm⟩⟩, encode_list,
    fun s t => encode_text_inj, fun pairs u built => ?_⟩
  have ordered := Fields.ordered_inOrder pairs
  refine ⟨Fields.inOrder pairs, ordered.imp (Utf8.before_iff_lt _ _).mp, ordered.nodup,
    fun name => ?_, fun p mem => ?_, encode_built built⟩
  · rw [← Fields.isSome_lookup_iff, ← Fields.isSome_lookup_iff, Fields.lookup_inOrder]
  · have counts := ordered.lookup_of_mem mem
    rw [Fields.lookup_inOrder] at counts
    exact Fields.getLast?_filter_of_lookup counts

/-- A mapping in a list in a mapping. Inside, the name that is given twice changes places with the
other one, and a table takes the place of the list of pairs; outside, the fields change places and
are added one by one. -/
theorem encode_eq_of_reordered_nested :
    (ofFields [("k", .list [ofFields [("x", .int 1), ("y", .int 2), ("x", .int 3)]]),
      ("a", .null)]).encode =
    ((Value.empty.insert "a" .null).insert "k"
      (.list [toValue [("y", (2 : Int64)), ("x", (3 : Int64))]])).encode := by
  have within : Reordered (ofFields [("x", .int 1), ("y", .int 2), ("x", .int 3)])
      (toValue [("y", (2 : Int64)), ("x", (3 : Int64))]) := by
    have table : ∀ name, (Fields.lookup name [("y", (2 : Int64)), ("x", (3 : Int64))]).map toValue =
        Fields.lookup name [("y", Value.int 2), ("x", .int 1), ("x", .int 3)] := by
      intro name
      simp only [Fields.lookup]
      split_ifs <;> rfl
    exact .fields (List.forall₂_same.mpr fun p _ => ⟨rfl, .same p.2⟩)
      (.swap (by decide) _) .collected (.converted (by decide) table)
  have values : List.Forall₂ (Fields.PairAlike Reordered)
      [("k", .list [ofFields [("x", .int 1), ("y", .int 2), ("x", .int 3)]]), ("a", .null)]
      [("k", .list [toValue [("y", (2 : Int64)), ("x", (3 : Int64))]]), ("a", .null)] :=
    .cons ⟨rfl, .items (.cons within .nil)⟩ (.cons ⟨rfl, .same .null⟩ .nil)
  exact (encode_eq_of_reordered
    (.fields values (.swap (by decide) []) .collected .chained)).1.1

end Value

end ReadThrough
