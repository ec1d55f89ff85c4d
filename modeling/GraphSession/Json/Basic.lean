/-!
  JSON documents.

  A number is an integer when it is written without fraction and exponent and lies between
  `-2 ^ 63` and `2 ^ 64`, and a double otherwise.  Maps keep their entries in the order of the text,
  repeated names included.
-/

namespace GraphSession

/-- A JSON document. -/
inductive Json
  | null
  | boolean (b : Bool)
  | integer (i : Int)
  | float (x : Float)
  | string (s : String)
  | list (items : List Json)
  | map (entries : List (String × Json))
  deriving Inhabited

end GraphSession
