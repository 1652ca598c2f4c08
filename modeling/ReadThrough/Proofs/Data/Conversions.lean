import Mathlib.Data.List.Forall2
import Mathlib.Tactic.Common
import ReadThrough.Data
import ReadThrough.Proofs.Data.Visits
import ReadThrough.Proofs.Value.Bridge

/-!
The value of data, and the direct conversions.

* `Value.Part`, `Value.Plain`: the values inside a value, and the scalars that JSON values give.
* `Data.Common`: data made of what the direct conversions know.
* `Data.Direct`: the value that the direct conversions give for what is handed over as data.
* `Data.Direct.becomes`: data becomes that value, with null for a NaN or an infinity.
* `Data.Common.exists_direct`: the direct conversions know all common data.
* `Value.fromSerialize_spec`: when data has a value, and which.
-/

namespace ReadThrough

namespace Value

/-! ### Values found in JSON values -/

/-- The values that are part of a value, at any depth; a field that a later one replaces is not
part of the value. -/
inductive Part : Value → Value → Prop where
  | self (v : Value) : Part v v
  | item {items : List Value} {v part : Value} : v ∈ items → Part v part → Part (.list items) part
  | field {fields : List (String × Value)} {name : String} {v part : Value} :
    Fields.lookup name fields = some v → Part v part → Part (.map fields) part

/-- The scalars that JSON values give: finite doubles, and words beyond the signed range. -/
def Plain (v : Value) : Prop :=
  (∀ x, v = .float x → x.isFinite = true) ∧ ∀ n, v = .uint n → 2 ^ 63 ≤ n.toNat

lemma plain_ofNumber (n : Json.Number) : (ofNumber n).Plain := by
  cases n with
  | natural n =>
      rw [ofNumber, ofUInt64]
      split
      · exact ⟨by simp, by simp⟩
      · rename_i large
        exact ⟨by simp, fun m same => uint.inj same ▸ Nat.le_of_not_lt large⟩
  | negative n below =>
      rw [ofNumber]
      exact ⟨by simp, by simp⟩
  | real x finite =>
      rw [ofNumber]
      exact ⟨fun y same => float.inj same ▸ finite, by simp⟩

lemma Part.eq_of_scalar {v part : Value} (scalar : v.isScalar = true) (h : v.Part part) :
    part = v := by
  cases h with
  | self => rfl
  | item => cases scalar
  | field => cases scalar

lemma isScalar_ofNumber (n : Json.Number) : (ofNumber n).isScalar = true := by
  cases n with
  | natural n =>
      rw [ofNumber, ofUInt64]
      split <;> rfl
  | negative n below => rfl
  | real x finite => rfl

/-- Every part of the value of a JSON value is plain. -/
lemma plain_of_part_ofJson {j : Json} {part : Value} (h : (ofJson j).Part part) : part.Plain := by
  induction j using Json.ind with
  | number n =>
      rw [h.eq_of_scalar (isScalar_ofNumber n)]
      exact plain_ofNumber n
  | array items ih =>
      rw [ofJson, Json.ofJsonItems_eq] at h
      cases h with
      | self => exact ⟨by simp, by simp⟩
      | item mem inside =>
          obtain ⟨j, given, rfl⟩ := List.mem_map.mp mem
          exact ih j given inside
  | object members ih =>
      rw [ofJson, Json.ofJsonMembers_eq] at h
      cases h with
      | self => exact ⟨by simp, by simp⟩
      | field found inside =>
          rw [Fields.lookup_map, Option.map_eq_some_iff] at found
          obtain ⟨j, given, rfl⟩ := found
          exact ih _ (Fields.mem_of_lookup given) inside
  | _ =>
      rw [ofJson] at h
      cases h
      exact ⟨by simp, by simp⟩

/-- A value is the same with its fields in order. -/
lemma corresponds_arrange (v : Value) : Corresponds Eq v v.arrange := by
  induction v using scalar_ind with
  | scalar v scalar =>
      rw [arrange_scalar scalar]
      exact .scalar scalar rfl
  | list items ih =>
      rw [arrange, arrangeItems_eq]
      exact .of_items (List.forall₂_map_right_iff.mpr (List.forall₂_same.mpr ih))
  | map fields ih =>
      rw [arrange]
      refine .of_fields fun name => ?_
      rw [lookup_arranged]
      cases found : Fields.lookup name fields with
      | none => exact .none
      | some v => exact .some (ih (name, v) (Fields.mem_of_lookup found))

/-! ### The direct conversions -/

/-- A scalar, with null in place of a NaN or an infinity. -/
inductive Nulled : Value → Value → Prop where
  | lost {x : Binary64} : x.isFinite = false → Nulled (.float x) .null
  | kept {v : Value} : (∀ x, v = .float x → x.isFinite = true) → Nulled v v

end Value

namespace Data

/-- Data made of booleans, whole numbers of up to 64 bits, floating-point numbers, text, optional
elements, lists and mappings from names. -/
inductive Common : Data → Prop where
  | bool (b : Bool) : Common (.bool b)
  | integer {n : Int} : Fits n → Common (.integer n)
  | single (x : Binary32) : Common (.single x)
  | double (x : Binary64) : Common (.double x)
  | text (s : String) : Common (.text s)
  | absent : Common .absent
  | present {content : Data} : Common content → Common (.present content)
  | sequence {items : List Data} : (∀ d ∈ items, Common d) → Common (.sequence items)
  | mapping {fields : List (String × Data)} : (∀ pair ∈ fields, Common pair.2) →
    Common (.mapping (fields.map fun pair => (.text pair.1, pair.2)))

/-- The value that the direct conversions give for what a program hands to a serializer as data.
The pairs of a mapping may be listed in another order than the serializer meets them. -/
inductive Direct : Data → Value → Prop where
  | bool (b : Bool) : Direct (.bool b) (toValue b)
  | int8 (n : Int8) : Direct (.integer n.toInt) (toValue n)
  | int16 (n : Int16) : Direct (.integer n.toInt) (toValue n)
  | int32 (n : Int32) : Direct (.integer n.toInt) (toValue n)
  | int64 (n : Int64) : Direct (.integer n.toInt) (toValue n)
  | uint8 (n : UInt8) : Direct (.integer n.toNat) (toValue n)
  | uint16 (n : UInt16) : Direct (.integer n.toNat) (toValue n)
  | uint32 (n : UInt32) : Direct (.integer n.toNat) (toValue n)
  | uint64 (n : UInt64) : Direct (.integer n.toNat) (toValue n)
  | single (x : Binary32) : Direct (.single x) (toValue x)
  | double (x : Binary64) : Direct (.double x) (toValue x)
  | text (s : String) : Direct (.text s) (toValue s)
  | absent {α : Type} [ToValue α] : Direct .absent (toValue (none : Option α))
  | present {α : Type} [ToValue α] {content : Data} {a : α} :
    Direct content (toValue a) → Direct (.present content) (toValue (some a))
  | sequence {α : Type} [ToValue α] {items : List Data} {elements : List α} :
    items.length = elements.length →
    (∀ (i : Nat) (d : Data) (a : α), items[i]? = some d → elements[i]? = some a →
      Direct d (toValue a)) →
    Direct (.sequence items) (toValue elements)
  | mapping {α : Type} [ToValue α] {fields : List (String × Data)}
    {pairs listed : List (String × α)} :
    fields.length = pairs.length →
    (∀ (i : Nat) (p : String × Data) (q : String × α), fields[i]? = some p → pairs[i]? = some q →
      p.1 = q.1) →
    (∀ (i : Nat) (p : String × Data) (q : String × α), fields[i]? = some p → pairs[i]? = some q →
      Direct p.2 (toValue q.2)) →
    Fields.Reordering pairs listed →
    Direct (.mapping (fields.map fun pair => (.text pair.1, pair.2))) (toValue listed)

section

variable {α : Type} [ToValue α]

lemma Direct.items {items : List Data} {elements : List α}
    (h : List.Forall₂ (fun d a => Direct d (toValue a)) items elements) :
    Direct (.sequence items) (toValue elements) := by
  obtain ⟨length, each⟩ := forall₂_iff_getElem?.mp h
  exact .sequence length each

lemma Direct.fields {fields : List (String × Data)} {pairs listed : List (String × α)}
    (h : List.Forall₂ (Fields.PairAlike fun d a => Direct d (toValue a)) fields pairs)
    (reordering : Fields.Reordering pairs listed) :
    Direct (.mapping (fields.map fun pair => (.text pair.1, pair.2))) (toValue listed) := by
  obtain ⟨length, each⟩ := forall₂_iff_getElem?.mp h
  exact .mapping length (fun i p q hp hq => (each i p q hp hq).1)
    (fun i p q hp hq => (each i p q hp hq).2) reordering

end

/-- Data becomes a value that differs from another one in the doubles that are not finite. -/
def Becomes (d : Data) (w : Value) : Prop :=
  ∃ j, d.toJson = .ok j ∧ Value.Corresponds Value.Nulled w (Value.ofJson j)

lemma Becomes.scalar {d : Data} {j : Json} {w : Value} (json : d.toJson = .ok j)
    (scalar : w.isScalar = true) (nulled : Value.Nulled w (Value.ofJson j)) : Becomes d w :=
  ⟨j, json, .scalar scalar nulled⟩

lemma ofInt?_toInt (n : Int64) : Json.Number.ofInt? n.toInt = some (Json.Number.ofInt64 n) := by
  have below : n.toInt < 2 ^ 63 := n.toInt_lt
  have above : -2 ^ 63 ≤ n.toInt := n.le_toInt
  have word : ((Nat.pow 2 64 : Nat) : Int) = 2 ^ 64 := rfl
  have signed : ((Nat.pow 2 63 : Nat) : Int) = 2 ^ 63 := rfl
  rw [Json.Number.ofInt?, word, signed, Int64.ofInt_toInt]
  split_ifs with nonneg
  · have negative : ¬n < 0 := by
      rw [Int64.lt_iff_toInt_lt, Int64.toInt_zero]
      omega
    rw [Json.Number.ofInt64, dif_neg negative]
  · omega
  · rfl

lemma ofInt?_toNat (n : UInt64) : Json.Number.ofInt? n.toNat = some (.natural n) := by
  have below : n.toNat < 2 ^ 64 := n.toNat_lt
  have word : ((Nat.pow 2 64 : Nat) : Int) = 2 ^ 64 := rfl
  rw [Json.Number.ofInt?, word, if_pos (by omega), if_pos (by omega), Int.toNat_natCast,
    UInt64.ofNat_toNat]

/-- A whole number of the signed range is signed, whatever the width it is given in. -/
lemma becomes_int {n : Int} {m : Int64} (same : m.toInt = n) : Becomes (.integer n) (.int m) := by
  have json : toJson (.integer n) = .ok (.number (Json.Number.ofInt64 m)) := by
    rw [toJson, ← same, ofInt?_toInt]
  refine .scalar json rfl ?_
  rw [Value.ofJson, Value.ofNumber_ofInt64]
  exact .kept (by simp)

lemma becomes_word (n : UInt64) : Becomes (.integer n.toNat) (Value.ofUInt64 n) := by
  have json : toJson (.integer n.toNat) = .ok (.number (.natural n)) := by
    rw [toJson, ofInt?_toNat]
  refine .scalar json (Value.isScalar_ofNumber (.natural n)) (.kept fun x same => ?_)
  exact (Value.plain_ofNumber (.natural n)).1 x same

lemma nulled_realJson (x : Binary64) : Value.Nulled (.float x) (Value.ofJson (realJson x)) := by
  rw [realJson, Json.Number.ofReal?]
  by_cases finite : x.isFinite = true
  · rw [dif_pos finite]
    exact .kept fun y same => Value.float.inj same ▸ finite
  · rw [dif_neg finite]
    exact .lost (Bool.not_eq_true _ ▸ finite)

section Several

variable {α : Type} [ToValue α]

lemma toJsonItems_of_becomes {items : List Data} {elements : List α}
    (h : List.Forall₂ (fun d a => Becomes d (toValue a)) items elements) :
    ∃ js, toJsonItems items = .ok js ∧
      List.Forall₂ (fun a j => Value.Corresponds Value.Nulled (toValue a) (Value.ofJson j))
        elements js := by
  induction h with
  | nil => exact ⟨[], rfl, .nil⟩
  | cons head _ ih =>
      obtain ⟨j, json, same⟩ := head
      obtain ⟨js, others, rest⟩ := ih
      exact ⟨j :: js, by rw [toJsonItems, json, others]; rfl, .cons same rest⟩

lemma toJsonEntries_of_becomes {fields : List (String × Data)} {pairs : List (String × α)}
    (h : List.Forall₂ (Fields.PairAlike fun d a => Becomes d (toValue a)) fields pairs) :
    ∃ members, toJsonEntries (fields.map fun pair => (.text pair.1, pair.2)) = .ok members ∧
      List.Forall₂ (Fields.PairAlike fun a j =>
        Value.Corresponds Value.Nulled (toValue a) (Value.ofJson j)) pairs members := by
  induction h with
  | nil => exact ⟨[], rfl, .nil⟩
  | @cons p q fields pairs head _ ih =>
      obtain ⟨name, j, json, same⟩ := head
      obtain ⟨members, others, rest⟩ := ih
      refine ⟨(p.1, j) :: members, ?_, .cons ⟨name.symm, same⟩ rest⟩
      rw [List.map_cons, toJsonEntries, fieldName, json, others]
      rfl

lemma becomes_sequence {items : List Data} {elements : List α}
    (h : List.Forall₂ (fun d a => Becomes d (toValue a)) items elements) :
    Becomes (.sequence items) (toValue elements) := by
  obtain ⟨js, json, same⟩ := toJsonItems_of_becomes h
  refine ⟨.array js, by rw [toJson, json]; rfl, ?_⟩
  rw [Value.ofJson, Json.ofJsonItems_eq]
  refine .of_items ?_
  rwa [List.forall₂_map_left_iff, List.forall₂_map_right_iff]

lemma becomes_mapping {fields : List (String × Data)} {pairs listed : List (String × α)}
    (h : List.Forall₂ (Fields.PairAlike fun d a => Becomes d (toValue a)) fields pairs)
    (reordering : Fields.Reordering pairs listed) :
    Becomes (.mapping (fields.map fun pair => (.text pair.1, pair.2))) (toValue listed) := by
  obtain ⟨members, json, same⟩ := toJsonEntries_of_becomes h
  refine ⟨.object members, by rw [toJson, json]; rfl, ?_⟩
  rw [Value.ofJson, Json.ofJsonMembers_eq]
  refine .of_fields (Fields.alike_map_right_iff.mpr fun name => ?_)
  rw [Fields.lookup_map toValue name listed, Fields.rel_map_left_iff, ← reordering.lookup_eq]
  exact Fields.alike_of_forall₂ same name

end Several

/-- What the direct conversions give is found through the serializer, up to doubles that are not
finite. -/
lemma Direct.becomes {d : Data} {w : Value} (h : Direct d w) : Becomes d w := by
  induction h with
  | bool b => exact .scalar rfl rfl (.kept (by simp))
  | int8 n => exact becomes_int n.toInt_toInt64
  | int16 n => exact becomes_int n.toInt_toInt64
  | int32 n => exact becomes_int n.toInt_toInt64
  | int64 n => exact becomes_int rfl
  | uint8 n => exact becomes_int (Int64.toInt_ofNat_of_lt (by have := n.toNat_lt; omega))
  | uint16 n => exact becomes_int (Int64.toInt_ofNat_of_lt (by have := n.toNat_lt; omega))
  | uint32 n => exact becomes_int (Int64.toInt_ofNat_of_lt (by have := n.toNat_lt; omega))
  | uint64 n => exact becomes_word n
  | single x => exact .scalar rfl rfl (nulled_realJson x.widen)
  | double x => exact .scalar rfl rfl (nulled_realJson x)
  | text s => exact .scalar rfl rfl (.kept (by simp))
  | absent => exact .scalar rfl rfl (.kept (by simp))
  | present _ ih =>
      obtain ⟨j, json, same⟩ := ih
      exact ⟨j, json, same⟩
  | sequence length _ ih => exact becomes_sequence (forall₂_iff_getElem?.mpr ⟨length, ih⟩)
  | mapping length names _ reordering ih =>
      refine becomes_mapping (forall₂_iff_getElem?.mpr ⟨length, fun i p q hp hq => ?_⟩) reordering
      exact ⟨names i p q hp hq, ih i p q hp hq⟩

/-- The direct conversions give a value for all common data. -/
lemma Common.exists_direct {d : Data} (h : Common d) : ∃ w, Direct d w := by
  induction h with
  | bool b => exact ⟨_, .bool b⟩
  | @integer n fits =>
      obtain ⟨above, below⟩ := fits
      by_cases signed : n < 2 ^ 63
      · have same : (Int64.ofInt n).toInt = n := Int64.toInt_ofInt_of_le above signed
        have direct := Direct.int64 (Int64.ofInt n)
        rw [same] at direct
        exact ⟨_, direct⟩
      · have same : ((UInt64.ofNat n.toNat).toNat : Int) = n := by
          have word : n.toNat < UInt64.size := by
            rw [UInt64.size]
            omega
          rw [UInt64.toNat_ofNat_of_lt' word]
          omega
        have direct := Direct.uint64 (UInt64.ofNat n.toNat)
        rw [same] at direct
        exact ⟨_, direct⟩
  | single x => exact ⟨_, .single x⟩
  | double x => exact ⟨_, .double x⟩
  | text s => exact ⟨_, .text s⟩
  | absent => exact ⟨_, .absent (α := Value)⟩
  | present _ ih =>
      obtain ⟨w, direct⟩ := ih
      exact ⟨_, .present (α := Value) direct⟩
  | sequence _ ih =>
      obtain ⟨ws, direct⟩ := exists_forall₂ ih
      exact ⟨_, .items (α := Value) direct⟩
  | @mapping fields _ ih =>
      have given : ∀ p ∈ fields, ∃ q : String × Value, Fields.PairAlike Direct p q := by
        intro p mem
        obtain ⟨w, direct⟩ := ih p mem
        exact ⟨(p.1, w), rfl, direct⟩
      obtain ⟨pairs, direct⟩ := exists_forall₂ given
      exact ⟨_, .fields direct ⟨.refl pairs, fun _ => rfl⟩⟩

end Data

/-! ### The value of data -/

namespace Value

lemma fromSerialize_eq_error_iff {d : Data} {e : CacheError} :
    fromSerialize d = .error e ↔
      ∃ fault, d.toJson = .error fault ∧ e = .encoding fault.message := by
  rw [fromSerialize, ofData]
  cases d.toJson <;> simp [Except.map, Except.mapError, eq_comm]

lemma fromSerialize_eq_ok_iff {d : Data} {v : Value} :
    fromSerialize d = .ok v ↔ ∃ j, d.toJson = .ok j ∧ ofJson j = v := by
  rw [fromSerialize, ofData]
  cases d.toJson <;> simp [Except.map, Except.mapError]

/-- What becomes of data. There is an error if and only if some of it refuses, or some whole number
fits no word, or some key gives no name, and the error is that of the first of these that a
serializer comes to. A value holds no NaN, no infinity and no word that fits the signed range; it
has a JSON value, and that gives it back. Common data has a direct conversion, and every direct
conversion of data gives the same value, but for doubles that are not finite, in place of which null
is found. -/
theorem fromSerialize_spec (d : Data) :
    (∀ e, fromSerialize d = .error e ↔ ∃ before visit after fault,
      d.visits = before ++ visit :: after ∧
        (∀ earlier ∈ before, ∀ other, ¬earlier.Faulty other) ∧
        visit.Faulty fault ∧ e = .encoding fault.message) ∧
    ((∃ e, fromSerialize d = .error e) ↔
      (∃ message, .node (.failing message) ∈ d.visits) ∨
      (∃ n, .node (.integer n) ∈ d.visits ∧ ¬Data.Fits n) ∨
      ∃ key, .key key ∈ d.visits ∧ ¬key.IsName) ∧
    (∀ v, fromSerialize d = .ok v →
      (∀ part, v.Part part → part.Plain) ∧
        ∃ j, v.toJson? = some j ∧ Corresponds Eq v (ofJson j)) ∧
    (d.Common → ∃ w, d.Direct w) ∧
    ∀ w, d.Direct w → ∃ v, fromSerialize d = .ok v ∧ Corresponds Nulled w v := by
  refine ⟨fun e => ?_, ?_, fun v success => ?_, Data.Common.exists_direct, fun w direct => ?_⟩
  · rw [fromSerialize_eq_error_iff]
    constructor
    · rintro ⟨fault, failed, rfl⟩
      obtain ⟨before, visit, after, split, sound, faulty⟩ := Data.toJson_eq_error_iff.mp failed
      exact ⟨before, visit, after, fault, split, sound, faulty, rfl⟩
    · rintro ⟨before, visit, after, fault, split, sound, faulty, rfl⟩
      have failed := Data.toJson_eq_error_iff.mpr ⟨before, visit, after, split, sound, faulty⟩
      exact ⟨fault, failed, rfl⟩
  · rw [← Data.exists_error_iff]
    simp only [fromSerialize_eq_error_iff]
    exact ⟨fun ⟨_, fault, failed, _⟩ => ⟨fault, failed⟩, fun ⟨_, failed⟩ => ⟨_, _, failed, rfl⟩⟩
  · -- the value is that of a JSON value, which is found again
    obtain ⟨j, -, rfl⟩ := fromSerialize_eq_ok_iff.mp success
    refine ⟨fun part inside => plain_of_part_ofJson inside, j.arrange, toJson?_ofJson j, ?_⟩
    rw [← arrange_ofJson]
    exact corresponds_arrange (ofJson j)
  · obtain ⟨j, json, same⟩ := direct.becomes
    exact ⟨ofJson j, fromSerialize_eq_ok_iff.mpr ⟨j, json, rfl⟩, same⟩

/-- A table of lists of optional floating-point numbers with a NaN, listed in another order than it
is written in, and data with two faults. -/
theorem fromSerialize_spec_table :
    (∃ v, fromSerialize (.mapping [
        (.text "b", .sequence [.present (.single ⟨0x7fc00000⟩), .absent]),
        (.text "a", .sequence [])]) = .ok v ∧
      Corresponds Nulled
        (toValue [("a", []), ("b", [some (⟨0x7fc00000⟩ : Binary32), none])]) v) ∧
    fromSerialize (.sequence [.integer 0x10000000000000000, .failing "closed"]) =
      .error (.encoding "number out of range") := by
  have floats : Data.Direct (.sequence [.present (.single ⟨0x7fc00000⟩), .absent])
      (toValue [some (⟨0x7fc00000⟩ : Binary32), none]) :=
    .items (.cons (.present (.single _)) (.cons .absent .nil))
  have table : Data.Direct (.mapping ([("b", .sequence [.present (.single ⟨0x7fc00000⟩), .absent]),
      ("a", .sequence [])].map fun pair => (.text pair.1, pair.2)))
      (toValue [("a", []), ("b", [some (⟨0x7fc00000⟩ : Binary32), none])]) :=
    .fields (.cons ⟨rfl, floats⟩ (.cons ⟨rfl, .items .nil⟩ .nil)) (.swap (by decide) [])
  have faulty : Data.Visit.Faulty (.node (.integer 0x10000000000000000)) .numberOutOfRange :=
    .outOfRange fun fits => absurd fits.2 (by decide)
  refine ⟨(fromSerialize_spec _).2.2.2.2 _ table, ((fromSerialize_spec _).1 _).mpr ?_⟩
  refine ⟨[.node _], _, [.node (.failing "closed")], _, rfl, ?_, faulty, rfl⟩
  rintro visit mem fault own
  rw [List.mem_singleton.mp mem] at own
  cases own

end Value

end ReadThrough
