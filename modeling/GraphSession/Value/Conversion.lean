import GraphSession.Fault.Wording
import GraphSession.Value.Basic

/-!
  Values as members of other types.

  A conversion gives the value's content, or a fault that names the value's type and the type that
  was asked for.  Only integers convert to another type than their own, namely to doubles.
-/

namespace GraphSession

/-- Types that a value may convert to, with the name that faults show. -/
class OfValue (α : Type) where
  target : String
  ofValue? : Value → Option α

instance : OfValue Bool := ⟨"bool", Value.asBool?⟩
instance : OfValue Int64 := ⟨"i64", Value.asInt?⟩
instance : OfValue Float := ⟨"f64", Value.asFloat?⟩
instance : OfValue String := ⟨"String", Value.asString?⟩

/-- The content of a value as a member of `α`. -/
def Value.convert (α : Type) [OfValue α] (value : Value) : Except Fault α :=
  match OfValue.ofValue? value with
  | some a => .ok a
  | none => .error (.cannotConvert value.typeName (OfValue.target α))

end GraphSession
