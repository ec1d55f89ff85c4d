import GraphSession.Value.Conversion
import GraphSession.Value.Text

/-!
  Records.

  A record pairs the keys of its result with the values of one row.  Nothing requires the keys to
  be distinct or the two lists to be equally long: a key means its first position, and a position
  without a value holds nothing.
-/

namespace GraphSession

/-- One row of a result. -/
structure Record where
  keys : List String
  values : List Value
  deriving Inhabited

namespace Record

/-- The number of values. -/
def size (r : Record) : Nat := r.values.length

/-- The value at the first position of a key. -/
def get? (r : Record) (key : String) : Option Value :=
  (r.keys.idxOf? key).bind (r.values[·]?)

/-- The value at a position. -/
def at? (r : Record) (index : Nat) : Option Value := r.values[index]?

/-- The value of a key as a member of `α`; a missing key is a fault. -/
def getAs (α : Type) [OfValue α] (r : Record) (key : String) : Except Fault α :=
  match r.get? key with
  | none => .error (.keyNotFound key)
  | some value => value.convert α

/-- The value of a key as a member of `α`, or nothing when it is missing or null. -/
def getOptional (α : Type) [OfValue α] (r : Record) (key : String) : Except Fault (Option α) :=
  match r.get? key with
  | none | some .null => .ok none
  | some value => (value.convert α).map some

/-- Keys and values as a map; of a repeated key the last value stays. -/
def toMap (r : Record) : Fields Value := Fields.ofList (r.keys.zip r.values)

/-- A record in a message: `<Record name="Alice" age=30>`. -/
def text (r : Record) : String :=
  let cells := (r.keys.zip r.values).map fun (key, value) => " " ++ key ++ "=" ++ value.text
  "<Record" ++ String.join cells ++ ">"

end Record

end GraphSession
