import GraphSession.Calendar
import GraphSession.Fields

/-!
  Values of query parameters and of records.

  Integers are those of 64 bits and floats are doubles, as the server stores them.  Equality
  follows the doubles: what is not a number differs from itself, and the two zeros are equal.
  Dates and times with an offset are equal when they name the same instant.
-/

namespace GraphSession

/-- A value that a query takes or gives.  The entries of a map are those of a `Fields`: their names
    ascend, which an inductive type cannot say of lists of its own members. -/
inductive Value
  | null
  | boolean (b : Bool)
  | integer (i : Int64)
  | float (x : Float)
  | string (s : String)
  | bytes (bs : List UInt8)
  | list (items : List Value)
  | map (entries : List (String × Value))
  | date (d : Date)
  | localTime (t : TimeOfDay)
  | dateTime (dt : OffsetDateTime)
  | localDateTime (dt : LocalDateTime)
  deriving Inhabited

/-- Query parameters: values by name. -/
abbrev Params := Fields Value

/-- What the server tells about a query or its result, by name. -/
abbrev Metadata := Fields Value

namespace Value

/-- The name of a value's type. -/
def typeName : Value → String
  | null => "Null"
  | boolean _ => "Boolean"
  | integer _ => "Integer"
  | float _ => "Float"
  | string _ => "String"
  | bytes _ => "Bytes"
  | list _ => "List"
  | map _ => "Map"
  | date _ => "Date"
  | localTime _ => "LocalTime"
  | dateTime _ => "DateTime"
  | localDateTime _ => "LocalDateTime"

def isNull : Value → Bool
  | null => true
  | _ => false

def asBool? : Value → Option Bool
  | boolean b => some b
  | _ => none

def asInt? : Value → Option Int64
  | integer i => some i
  | _ => none

/-- The double a value stands for; an integer stands for the double nearest to it. -/
def asFloat? : Value → Option Float
  | float x => some x
  | integer i => some (Float.ofInt i.toInt)
  | _ => none

def asString? : Value → Option String
  | string s => some s
  | _ => none

def asList? : Value → Option (List Value)
  | list items => some items
  | _ => none

def asMap? : Value → Option (Fields Value)
  | map entries => some (.ofList entries)
  | _ => none

mutual

/-- Equality of values. -/
def beq : Value → Value → Bool
  | null, null => true
  | boolean a, boolean b => a == b
  | integer a, integer b => a == b
  | float a, float b => a == b
  | string a, string b => a == b
  | bytes a, bytes b => a == b
  | list a, list b => beqItems a b
  | map a, map b => beqEntries a b
  | date a, date b => a == b
  | localTime a, localTime b => a == b
  | dateTime a, dateTime b => a.instant == b.instant
  | localDateTime a, localDateTime b => a == b
  | _, _ => false

/-- Equality of lists of values, position by position. -/
def beqItems : List Value → List Value → Bool
  | [], [] => true
  | a :: as, b :: bs => beq a b && beqItems as bs
  | _, _ => false

/-- Equality of maps; their names ascend, so equal maps agree position by position. -/
def beqEntries : List (String × Value) → List (String × Value) → Bool
  | [], [] => true
  | (k, a) :: as, (l, b) :: bs => k == l && beq a b && beqEntries as bs
  | _, _ => false

end

instance : BEq Value := ⟨beq⟩

end Value

/-- Types whose members stand for values. -/
class ToValue (α : Type) where
  toValue : α → Value

export ToValue (toValue)

instance : ToValue Value := ⟨id⟩
instance : ToValue Bool := ⟨Value.boolean⟩
instance : ToValue Int64 := ⟨Value.integer⟩
instance : ToValue Int32 := ⟨fun i => .integer i.toInt64⟩
instance : ToValue UInt32 := ⟨fun n => .integer (Int64.ofNat n.toNat)⟩
instance : ToValue Float := ⟨Value.float⟩
instance : ToValue String := ⟨Value.string⟩
instance : ToValue Date := ⟨Value.date⟩
instance : ToValue TimeOfDay := ⟨Value.localTime⟩
instance : ToValue OffsetDateTime := ⟨Value.dateTime⟩
instance : ToValue LocalDateTime := ⟨Value.localDateTime⟩
instance {α : Type} [ToValue α] : ToValue (List α) := ⟨fun items => .list (items.map toValue)⟩
instance {α : Type} [ToValue α] : ToValue (Option α) :=
  ⟨fun | none => .null | some a => toValue a⟩
instance : ToValue Params := ⟨fun params => .map params.entries⟩

end GraphSession
