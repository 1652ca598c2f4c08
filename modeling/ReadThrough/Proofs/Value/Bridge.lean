import Mathlib.Data.List.Forall2
import Mathlib.Tactic.Common
import ReadThrough.Proofs.Value.Encoding
import ReadThrough.Proofs.Value.Fixpoint
import ReadThrough.Value.Json

/-!
The way from JSON values to values and back.

* `Corresponds`: two values of one shape, whose scalars are related. Mappings have the same names,
  in whatever order, and of several fields with one name the last counts.
* `Signed`: a word that fits the signed range against the signed number of the same value, and every
  other scalar against itself.
* `Json.Same`: two ways to write down one JSON value, which differ in the order of members and in
  members that do not count.
* `toJson?_ofJson`: every JSON value is found again.
* `toJson?_eq_none_iff`: there is no JSON value exactly for a value with a NaN or an infinity.
* `corresponds_of_toJson?`: a value is found again with its words signed where they fit.
* `json_bridge`: all of this, and that the encoding is found again.
-/

namespace ReadThrough

namespace Value

/-! ### Values of one shape -/

/-- Whether a value is neither a list nor a mapping. -/
def isScalar : Value → Bool
  | .list _ => false
  | .map _ => false
  | _ => true

/-- Induction on values with one case for all scalars. -/
@[elab_as_elim]
theorem scalar_ind {P : Value → Prop} (scalar : ∀ v : Value, v.isScalar = true → P v)
    (list : ∀ items : List Value, (∀ v ∈ items, P v) → P (.list items))
    (map : ∀ fields : List (String × Value), (∀ pair ∈ fields, P pair.2) → P (.map fields))
    (v : Value) : P v := by
  induction v using ind with
  | null => exact scalar .null rfl
  | bool b => exact scalar (.bool b) rfl
  | number v digits h => cases v <;> first | exact scalar _ rfl | simp [numberText?] at h
  | text s => exact scalar (.text s) rfl
  | list items ih => exact list items ih
  | map fields ih => exact map fields ih

/-- Two values of one shape: lists with as many items, mappings with the same names, and scalars
that are related. -/
inductive Corresponds (R : Value → Value → Prop) : Value → Value → Prop where
  | scalar {v w : Value} : v.isScalar = true → R v w → Corresponds R v w
  | list {as bs : List Value} :
    as.length = bs.length →
    (∀ (i : Nat) (a b : Value), as[i]? = some a → bs[i]? = some b → Corresponds R a b) →
    Corresponds R (.list as) (.list bs)
  | map {as bs : List (String × Value)} :
    (∀ name, (Fields.lookup name as).isSome = (Fields.lookup name bs).isSome) →
    (∀ name a b, Fields.lookup name as = some a → Fields.lookup name bs = some b →
      Corresponds R a b) →
    Corresponds R (.map as) (.map bs)

namespace Corresponds

variable {R : Value → Value → Prop}

lemma of_items {as bs : List Value} (h : List.Forall₂ (Corresponds R) as bs) :
    Corresponds R (.list as) (.list bs) := by
  obtain ⟨length, items⟩ := forall₂_iff_getElem?.mp h
  exact .list length items

lemma of_fields {as bs : List (String × Value)} (h : Fields.Alike (Corresponds R) as bs) :
    Corresponds R (.map as) (.map bs) := by
  obtain ⟨names, values⟩ := Fields.alike_iff.mp h
  exact .map names values

/-- Values that correspond are equivalent if their scalars are. -/
lemma equivalent {v w : Value} (h : Corresponds R v w)
    (scalars : ∀ a b, R a b → Equivalent a b) : Equivalent v w := by
  induction h with
  | scalar _ related => exact scalars _ _ related
  | list length _ ih => exact .list length ih
  | map names _ ih => exact .map names ih

end Corresponds

/-- A scalar, with the signed number of the same value in place of a word that fits the signed
range. -/
inductive Signed : Value → Value → Prop where
  | fits {n : UInt64} {m : Int64} : m.toInt = n.toNat → Signed (.uint n) (.int m)
  | beyond {n : UInt64} : 2 ^ 63 ≤ n.toNat → Signed (.uint n) (.uint n)
  | other {v : Value} : (∀ n, v ≠ .uint n) → Signed v v

/-- The number of a word, signed if it fits. -/
lemma signed_ofUInt64 (n : UInt64) : Signed (.uint n) (ofUInt64 n) := by
  rw [ofUInt64]
  split
  · rename_i small
    exact .fits (Int64.toInt_ofNat_of_lt small)
  · rename_i large
    exact .beyond (Nat.le_of_not_lt large)

lemma Signed.equivalent {v w : Value} (h : Signed v w) : Equivalent v w := by
  cases h with
  | @fits n m same =>
      have text : intText m.toInt = natText n.toNat := by
        rw [same, intText, if_neg (by omega), Int.natAbs_natCast]
      exact .number rfl (congrArg some text)
  | beyond _ => exact .refl _
  | other _ => exact .refl v

end Value

/-! ### JSON values written down in two ways -/

namespace Json

/-- Whether a JSON value is neither an array nor an object. -/
def isScalar : Json → Bool
  | .array _ => false
  | .object _ => false
  | _ => true

/-- The same JSON value, its members in another order and with others that do not count. -/
inductive Same : Json → Json → Prop where
  | scalar {j : Json} : j.isScalar = true → Same j j
  | array {as bs : List Json} :
    as.length = bs.length →
    (∀ (i : Nat) (a b : Json), as[i]? = some a → bs[i]? = some b → Same a b) →
    Same (.array as) (.array bs)
  | object {as bs : List (String × Json)} :
    (∀ name, (Fields.lookup name as).isSome = (Fields.lookup name bs).isSome) →
    (∀ name a b, Fields.lookup name as = some a → Fields.lookup name bs = some b → Same a b) →
    Same (.object as) (.object bs)

/-- A JSON value is the same with its members in order, each name once. -/
lemma same_arrange (j : Json) : Same j j.arrange := by
  induction j using ind with
  | array items ih =>
      rw [arrange, arrangeItems_eq]
      refine .array (by simp) fun i a b ha hb => ?_
      rw [List.getElem?_map, ha, Option.map_some] at hb
      exact Option.some.inj hb ▸ ih a (List.mem_of_getElem? ha)
  | object members ih =>
      have arranged : ∀ name, Fields.lookup name (Fields.inOrder (arrangeMembers members)) =
          (Fields.lookup name members).map arrange := by
        intro name
        rw [Fields.lookup_inOrder, arrangeMembers_eq, Fields.lookup_map]
      rw [arrange]
      refine .object (fun name => ?_) fun name a b ha hb => ?_
      · rw [arranged, Option.isSome_map]
      · rw [arranged, ha, Option.map_some] at hb
        exact Option.some.inj hb ▸ ih (name, a) (Fields.mem_of_lookup ha)
  | _ => exact .scalar rfl

end Json

/-- Putting fields in order commutes with a change of their values. -/
lemma Fields.inOrder_map {α β : Type} (f : α → β) (fields : List (String × α)) :
    inOrder (fields.map fun pair => (pair.1, f pair.2)) =
      (inOrder fields).map fun pair => (pair.1, f pair.2) := by
  refine (ordered_inOrder _).ext (List.pairwise_map.mpr (ordered_inOrder fields)) fun name => ?_
  rw [lookup_inOrder, lookup_map, lookup_map, lookup_inOrder]

namespace Value

/-! ### Item by item and field by field -/

lemma itemsJson?_eq_some_iff {items : List Value} {js : List Json} :
    itemsJson? items = some js ↔
      List.Forall₂ (fun v j => fieldwiseJson? v = some j) items js := by
  induction items generalizing js with
  | nil => simp [itemsJson?, eq_comm]
  | cons v rest ih =>
      rw [itemsJson?, List.forall₂_cons_left_iff]
      constructor
      · intro h
        split at h
        · rename_i j others head tail
          exact ⟨j, others, head, ih.mp tail, (Option.some.inj h).symm⟩
        · cases h
      · rintro ⟨j, others, head, tail, rfl⟩
        rw [head, ih.mpr tail]

lemma fieldsJson?_eq_some_iff {fields : List (String × Value)} {members : List (String × Json)} :
    fieldsJson? fields = some members ↔
      List.Forall₂ (Fields.PairAlike fun v j => fieldwiseJson? v = some j) fields members := by
  induction fields generalizing members with
  | nil => simp [fieldsJson?, eq_comm]
  | cons pair rest ih =>
      rw [fieldsJson?, List.forall₂_cons_left_iff]
      constructor
      · intro h
        split at h
        · rename_i j others head tail
          exact ⟨(pair.1, j), others, ⟨rfl, head⟩, ih.mp tail, (Option.some.inj h).symm⟩
        · cases h
      · rintro ⟨⟨name, j⟩, others, ⟨rfl, head⟩, tail, rfl⟩
        rw [head, ih.mpr tail]

lemma itemsJson?_eq_none_iff {items : List Value} :
    itemsJson? items = none ↔ ∃ v ∈ items, fieldwiseJson? v = none := by
  induction items with
  | nil => simp [itemsJson?]
  | cons v rest ih =>
      rw [itemsJson?, List.exists_mem_cons_iff, ← ih]
      cases fieldwiseJson? v <;> cases itemsJson? rest <;> simp

lemma fieldsJson?_eq_none_iff {fields : List (String × Value)} :
    fieldsJson? fields = none ↔ ∃ pair ∈ fields, fieldwiseJson? pair.2 = none := by
  induction fields with
  | nil => simp [fieldsJson?]
  | cons pair rest ih =>
      rw [fieldsJson?, List.exists_mem_cons_iff, ← ih]
      cases fieldwiseJson? pair.2 <;> cases fieldsJson? rest <;> simp

/-! ### From JSON values and back -/

/-- The JSON number of a word that fits the signed range. -/
lemma ofInt64_ofNat {n : UInt64} (small : n.toNat < 2 ^ 63) :
    Json.Number.ofInt64 (Int64.ofNat n.toNat) = .natural n := by
  have value : (Int64.ofNat n.toNat).toInt = n.toNat := Int64.toInt_ofNat_of_lt small
  have nonneg : ¬ Int64.ofNat n.toNat < 0 := by
    rw [Int64.lt_iff_toInt_lt, value, Int64.toInt_zero]
    omega
  rw [Json.Number.ofInt64, dif_neg nonneg, value, Int.toNat_natCast, UInt64.ofNat_toNat]

/-- Every JSON number is found again. -/
lemma fieldwiseJson?_ofNumber (n : Json.Number) :
    (ofNumber n).fieldwiseJson? = some (.number n) := by
  cases n with
  | natural n =>
      rw [ofNumber, ofUInt64]
      split
      · rename_i small
        rw [fieldwiseJson?, ofInt64_ofNat small]
      · rfl
  | negative n below => rw [ofNumber, fieldwiseJson?, Json.Number.ofInt64, dif_pos below]
  | real x finite =>
      rw [ofNumber, fieldwiseJson?, Json.Number.ofReal?, dif_pos finite]
      rfl

/-- Every JSON value is found again, member by member. -/
lemma fieldwiseJson?_ofJson (j : Json) : (ofJson j).fieldwiseJson? = some j := by
  induction j using Json.ind with
  | number n => exact fieldwiseJson?_ofNumber n
  | array items ih =>
      have found : itemsJson? (ofJsonItems items) = some items := by
        rw [Json.ofJsonItems_eq, itemsJson?_eq_some_iff, List.forall₂_map_left_iff,
          List.forall₂_same]
        exact ih
      rw [ofJson, fieldwiseJson?, found, Option.map_some]
  | object members ih =>
      have found : fieldsJson? (ofJsonMembers members) = some members := by
        rw [Json.ofJsonMembers_eq, fieldsJson?_eq_some_iff, List.forall₂_map_left_iff,
          List.forall₂_same]
        exact fun pair mem => ⟨rfl, ih pair mem⟩
      rw [ofJson, fieldwiseJson?, found, Option.map_some]
  | _ => rfl

/-- Putting members in order is putting fields in order. -/
lemma arrange_ofJson (j : Json) : (ofJson j).arrange = ofJson j.arrange := by
  induction j using Json.ind with
  | number n =>
      obtain ⟨digits, number⟩ := Json.exists_numberText? n
      exact arrange_number number
  | array items ih =>
      rw [ofJson, arrange, Json.arrange, ofJson, Json.ofJsonItems_eq, Json.ofJsonItems_eq,
        arrangeItems_eq, Json.arrangeItems_eq, List.map_map, List.map_map]
      exact congrArg list (List.map_congr_left ih)
  | object members ih =>
      have each : arrangeFields (ofJsonMembers members) =
          (Json.arrangeMembers members).map fun pair => (pair.1, ofJson pair.2) := by
        rw [Json.ofJsonMembers_eq, arrangeFields_eq, Json.arrangeMembers_eq, List.map_map,
          List.map_map]
        exact List.map_congr_left fun pair mem => congrArg (Prod.mk pair.1) (ih pair mem)
      rw [ofJson, arrange, Json.arrange, ofJson, each, Fields.inOrder_map, Json.ofJsonMembers_eq]
  | _ => rfl

/-- Every JSON value is found again, its members in order. -/
lemma toJson?_ofJson (j : Json) : (ofJson j).toJson? = some j.arrange := by
  rw [toJson?, arrange_ofJson, fieldwiseJson?_ofJson]

/-! ### From values and back -/

lemma arrange_scalar {v : Value} (scalar : v.isScalar = true) : v.arrange = v := by
  cases v <;> first | rfl | cases scalar

lemma toJson?_float_eq_none_iff {x : Binary64} :
    (float x).toJson? = none ↔ x.isFinite = false := by
  rw [toJson?, arrange_scalar rfl, fieldwiseJson?, Option.map_eq_none_iff, Json.Number.ofReal?,
    dite_eq_right_iff, ← Bool.not_eq_true]
  exact forall_congr' fun _ => iff_of_false (Option.some_ne_none _) id

lemma toJson?_list_eq_none_iff {items : List Value} :
    (list items).toJson? = none ↔ ∃ v ∈ items, v.toJson? = none := by
  rw [toJson?, arrange, arrangeItems_eq, fieldwiseJson?, Option.map_eq_none_iff,
    itemsJson?_eq_none_iff]
  simp only [List.mem_map, exists_exists_and_eq_and]
  rfl

lemma toJson?_list_eq_some {items : List Value} {j : Json} (h : (list items).toJson? = some j) :
    ∃ js, j = .array js ∧ List.Forall₂ (fun v j => v.toJson? = some j) items js := by
  rw [toJson?, arrange, arrangeItems_eq, fieldwiseJson?, Option.map_eq_some_iff] at h
  obtain ⟨js, found, rfl⟩ := h
  rw [itemsJson?_eq_some_iff, List.forall₂_map_left_iff] at found
  exact ⟨js, rfl, found⟩

/-- In the arranged fields stand the names, each with the arranged value that counts for it. -/
lemma mem_arranged_iff {fields : List (String × Value)} {pair : String × Value} :
    pair ∈ Fields.inOrder (arrangeFields fields) ↔
      ∃ v, Fields.lookup pair.1 fields = some v ∧ v.arrange = pair.2 := by
  rw [← Option.map_eq_some_iff, ← lookup_arranged]
  exact ⟨(Fields.ordered_inOrder _).lookup_of_mem, Fields.mem_of_lookup⟩

lemma toJson?_map_eq_none_iff {fields : List (String × Value)} :
    (map fields).toJson? = none ↔
      ∃ name v, Fields.lookup name fields = some v ∧ v.toJson? = none := by
  rw [toJson?, arrange, fieldwiseJson?, Option.map_eq_none_iff, fieldsJson?_eq_none_iff]
  constructor
  · rintro ⟨pair, mem, fails⟩
    obtain ⟨v, found, same⟩ := mem_arranged_iff.mp mem
    exact ⟨pair.1, v, found, by rwa [toJson?, same]⟩
  · rintro ⟨name, v, found, fails⟩
    exact ⟨(name, v.arrange), mem_arranged_iff.mpr ⟨v, found, rfl⟩, fails⟩

lemma toJson?_map_eq_some {fields : List (String × Value)} {j : Json}
    (h : (map fields).toJson? = some j) :
    ∃ members, j = .object members ∧
      Fields.Alike (fun v j => v.toJson? = some j) fields members := by
  rw [toJson?, arrange, fieldwiseJson?, Option.map_eq_some_iff] at h
  obtain ⟨members, found, rfl⟩ := h
  refine ⟨members, rfl, fun name => ?_⟩
  have alike := Fields.alike_of_forall₂ (fieldsJson?_eq_some_iff.mp found) name
  rwa [lookup_arranged, Fields.rel_map_left_iff] at alike

/-- There is no JSON value exactly for a value with a NaN or an infinity. -/
lemma toJson?_eq_none_iff (v : Value) :
    v.toJson? = none ↔ ∃ x, v.Holds x ∧ x.isFinite = false := by
  induction v using scalar_ind with
  | scalar v scalar =>
      cases v with
      | float x =>
          rw [toJson?_float_eq_none_iff]
          refine ⟨fun infinite => ⟨x, .float x, infinite⟩, ?_⟩
          rintro ⟨y, held, infinite⟩
          cases held
          exact infinite
      | list items => cases scalar
      | map fields => cases scalar
      | _ =>
          refine ⟨fun h => (Option.some_ne_none _ h).elim, ?_⟩
          rintro ⟨x, held, -⟩
          cases held
  | list items ih =>
      rw [toJson?_list_eq_none_iff]
      constructor
      · rintro ⟨v, mem, fails⟩
        obtain ⟨x, held, infinite⟩ := (ih v mem).mp fails
        exact ⟨x, .item mem held, infinite⟩
      · rintro ⟨x, held, infinite⟩
        cases held with
        | item mem held => exact ⟨_, mem, (ih _ mem).mpr ⟨x, held, infinite⟩⟩
  | map fields ih =>
      have each {name v} (found : Fields.lookup name fields = some v) :=
        ih (name, v) (Fields.mem_of_lookup found)
      rw [toJson?_map_eq_none_iff]
      constructor
      · rintro ⟨name, v, found, fails⟩
        obtain ⟨x, held, infinite⟩ := (each found).mp fails
        exact ⟨x, .field found held, infinite⟩
      · rintro ⟨x, held, infinite⟩
        cases held with
        | field found held => exact ⟨_, _, found, (each found).mpr ⟨x, held, infinite⟩⟩

/-- A signed number is found again, whether its JSON number is negative or not. -/
lemma ofNumber_ofInt64 (n : Int64) : ofNumber (Json.Number.ofInt64 n) = .int n := by
  rw [Json.Number.ofInt64]
  split
  · rfl
  · rename_i nonneg
    rw [Int64.lt_iff_toInt_lt, Int64.toInt_zero] at nonneg
    have bound : n.toInt < 2 ^ 63 := n.toInt_lt
    have small : n.toInt.toNat < 2 ^ 63 := by omega
    have word : (UInt64.ofNat n.toInt.toNat).toNat = n.toInt.toNat :=
      UInt64.toNat_ofNat_of_lt (Nat.lt_trans small (by decide))
    have same : Int64.ofNat n.toInt.toNat = n := by
      rw [← Int64.toInt_inj, Int64.toInt_ofNat_of_lt small]
      omega
    rw [ofNumber, ofUInt64, word, same]
    exact if_pos small

lemma signed_of_toJson? {v : Value} {j : Json} (scalar : v.isScalar = true)
    (h : v.toJson? = some j) : Signed v (ofJson j) := by
  rw [toJson?, arrange_scalar scalar] at h
  cases v with
  | int n =>
      obtain rfl := Option.some.inj h
      rw [ofJson, ofNumber_ofInt64]
      exact .other (by simp)
  | uint n =>
      obtain rfl := Option.some.inj h
      exact signed_ofUInt64 n
  | float x =>
      rw [fieldwiseJson?, Json.Number.ofReal?] at h
      split at h
      · obtain rfl := Option.some.inj h
        exact .other (by simp)
      · cases h
  | list items => cases scalar
  | map fields => cases scalar
  | _ =>
      obtain rfl := Option.some.inj h
      exact .other (by simp)

/-- A value with a JSON value is found again, with its words signed where they fit. -/
lemma corresponds_of_toJson? {v : Value} {j : Json} (h : v.toJson? = some j) :
    Corresponds Signed v (ofJson j) := by
  induction v using scalar_ind generalizing j with
  | scalar v scalar => exact .scalar scalar (signed_of_toJson? scalar h)
  | list items ih =>
      obtain ⟨js, rfl, found⟩ := toJson?_list_eq_some h
      rw [ofJson, Json.ofJsonItems_eq]
      refine .of_items (List.forall₂_map_right_iff.mpr ?_)
      exact ((List.forall₂_and_left _ _).mpr ⟨ih, found⟩).imp fun v j item => item.1 item.2
  | map fields ih =>
      obtain ⟨members, rfl, found⟩ := toJson?_map_eq_some h
      rw [ofJson, Json.ofJsonMembers_eq]
      refine .of_fields (Fields.alike_map_right_iff.mpr ?_)
      exact found.imp fun pair mem j value => ih pair mem value

/-- The way from JSON values to values and back loses nothing. Every JSON value is found again, its
members in order. A value has no JSON value if and only if it holds a NaN or an infinity. Any other
value is found again with each word that fits the signed range as the signed number of the same
value, and nothing else changed, and has the same encoding as before. -/
theorem json_bridge :
    (∀ j, (ofJson j).toJson? = some j.arrange ∧ Json.Same j j.arrange) ∧
      ∀ v : Value, (v.toJson? = none ↔ ∃ x, v.Holds x ∧ x.isFinite = false) ∧
        ∀ j, v.toJson? = some j →
          Corresponds Signed v (ofJson j) ∧ (ofJson j).encode = v.encode := by
  refine ⟨fun j => ⟨toJson?_ofJson j, j.same_arrange⟩, fun v => ⟨toJson?_eq_none_iff v, ?_⟩⟩
  intro j found
  have corresponds := corresponds_of_toJson? found
  have equivalent := corresponds.equivalent fun _ _ => Signed.equivalent
  exact ⟨corresponds, (encode_eq_of_equivalent equivalent).symm⟩

/-- The words around the end of the signed range and the negative zero, in a list in a mapping with
a name that is given twice. -/
theorem json_bridge_boundary :
    let j := Json.object [("a", .array [.number (.natural 0x7fffffffffffffff),
      .number (.natural 0x8000000000000000), .number (.real (.ofPattern true 0) rfl)]),
      ("b", .null)]
    let v := Value.map [("b", .null), ("a", .float .nan),
      ("a", .list [.uint 0x7fffffffffffffff, .uint 0x8000000000000000, .float (.ofPattern true 0)])]
    v.toJson? = some j ∧ (ofJson j).encode = v.encode ∧
      ofJson j = .map [("a", .list [.int 0x7fffffffffffffff, .uint 0x8000000000000000,
        .float (.ofPattern true 0)]), ("b", .null)] := by
  intro j v
  have found : v.toJson? = some j := rfl
  exact ⟨found, ((json_bridge.2 v).2 j found).2, rfl⟩

end Value

end ReadThrough
