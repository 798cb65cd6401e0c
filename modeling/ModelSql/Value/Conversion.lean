import ModelSql.Value.Basic
import ModelSql.Value.Calendar
import ModelSql.Value.Uuid
/-!
# Conversions to SQL values

Integers of every width become integers, single-precision numbers keep their
value, identifiers, dates and times become text, and an absent value becomes
null.
-/

namespace ModelSql

open Decimal Calendar

/-- Types whose values can be bound to a parameter. -/
class ToValue (α : Type) where
  toValue : α → Value

export ToValue (toValue)

instance : ToValue Value := ⟨id⟩

instance : ToValue Bool := ⟨.bool⟩

instance : ToValue Int8 := ⟨fun n => .int n.toInt64⟩

instance : ToValue Int16 := ⟨fun n => .int n.toInt64⟩

instance : ToValue Int32 := ⟨fun n => .int n.toInt64⟩

instance : ToValue Int64 := ⟨.int⟩

instance : ToValue UInt8 := ⟨fun n => .int (Int64.ofNat n.toNat)⟩

instance : ToValue UInt16 := ⟨fun n => .int (Int64.ofNat n.toNat)⟩

instance : ToValue UInt32 := ⟨fun n => .int (Int64.ofNat n.toNat)⟩

instance : ToValue Binary64 := ⟨.float⟩

instance : ToValue Binary32 := ⟨fun x => .float x.widen⟩

instance : ToValue String := ⟨.text⟩

instance : ToValue (List UInt8) := ⟨.blob⟩

instance : ToValue Uuid := ⟨fun u => .text u.toText⟩

instance : ToValue Date := ⟨fun d => .text d.toText⟩

instance : ToValue DateTime := ⟨fun t => .text t.toText⟩

instance : ToValue OffsetDateTime := ⟨fun t => .text t.toText⟩

instance : ToValue UtcDateTime := ⟨fun t => .text t.toText⟩

instance {α : Type} [ToValue α] : ToValue (Option α) where
  toValue
    | some a => toValue a
    | none => .null

end ModelSql
