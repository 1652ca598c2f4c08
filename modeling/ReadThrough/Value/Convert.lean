import ReadThrough.Number.Binary32
import ReadThrough.Value.Basic

/-!
Direct conversions into values.

* `ToValue`: the types whose elements are values in one natural way.
* The instances: booleans, whole numbers of up to 64 bits, floating-point numbers, text, lists,
  optional elements and lists of fields.
-/

namespace ReadThrough

/-- The types whose elements are values in one natural way. -/
class ToValue (α : Type) where
  /-- The value of an element. -/
  toValue : α → Value

export ToValue (toValue)

instance : ToValue Value := ⟨id⟩

instance : ToValue Bool := ⟨Value.bool⟩

instance : ToValue Int8 := ⟨fun n => .int n.toInt64⟩

instance : ToValue Int16 := ⟨fun n => .int n.toInt64⟩

instance : ToValue Int32 := ⟨fun n => .int n.toInt64⟩

instance : ToValue Int64 := ⟨Value.int⟩

instance : ToValue UInt8 := ⟨fun n => .int (Int64.ofNat n.toNat)⟩

instance : ToValue UInt16 := ⟨fun n => .int (Int64.ofNat n.toNat)⟩

instance : ToValue UInt32 := ⟨fun n => .int (Int64.ofNat n.toNat)⟩

/-- A word is signed if it fits. -/
instance : ToValue UInt64 := ⟨Value.ofUInt64⟩

instance : ToValue Binary64 := ⟨Value.float⟩

instance : ToValue Binary32 := ⟨fun x => .float x.widen⟩

instance : ToValue String := ⟨Value.text⟩

instance {α : Type} [ToValue α] : ToValue (List α) := ⟨fun items => .list (items.map toValue)⟩

/-- An absent element is null. -/
instance {α : Type} [ToValue α] : ToValue (Option α) :=
  ⟨fun element => match element with
    | some a => toValue a
    | none => .null⟩

/-- Of several fields with one name the last counts. -/
instance {α : Type} [ToValue α] : ToValue (List (String × α)) :=
  ⟨fun fields => .map (fields.map fun (name, a) => (name, toValue a))⟩

end ReadThrough
