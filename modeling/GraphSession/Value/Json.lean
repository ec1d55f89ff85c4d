import GraphSession.Decimal.Layout
import GraphSession.Json.Reader
import GraphSession.Text.Quoted
import GraphSession.Value.Basic

/-!
  Values as JSON.

  JSON has no types for bytes, dates and times: bytes are written as lists of numbers, dates and
  times as strings, and a double that is no finite number as `null`.  Reading picks the first type
  that fits, so a list of integers from 0 to 255, the empty list included, is read as bytes, and a
  string is always a string.
-/

namespace GraphSession.Value

/-- A list of texts between two brackets, with commas. -/
def enclose (opening closing : Char) (parts : List (List Char)) : List Char :=
  opening :: [','].intercalate parts ++ [closing]

mutual

/-- The compact JSON text of a value. -/
def jsonChars : Value → List Char
  | null => "null".toList
  | boolean b => (if b then "true" else "false").toList
  | integer i => (toString i.toInt).toList
  | float x => ((Decimal.json? x).getD "null").toList
  | string s => Text.jsonChars s.toList
  | bytes bs => enclose '[' ']' (bs.map fun b => (toString b.toNat).toList)
  | list items => enclose '[' ']' (itemsJson items)
  | map entries => enclose '\x7b' '\x7d' (entriesJson entries)
  | date d => Text.jsonChars d.text.toList
  | localTime t => Text.jsonChars t.text.toList
  | dateTime dt => Text.jsonChars dt.isoText.toList
  | localDateTime dt => Text.jsonChars (dt.text "T").toList

/-- The items of a list, each as its JSON text. -/
def itemsJson : List Value → List (List Char)
  | [] => []
  | v :: vs => jsonChars v :: itemsJson vs

/-- The entries of a map, each as its JSON text. -/
def entriesJson : List (String × Value) → List (List Char)
  | [] => []
  | (k, v) :: rest => (Text.jsonChars k.toList ++ ':' :: jsonChars v) :: entriesJson rest

end

/-- The compact JSON text of a value, the names of maps in ascending order. -/
def toJsonText (v : Value) : String := String.ofList v.jsonChars

/-- An integer of a JSON text as a byte. -/
def byte? : GraphSession.Json → Option UInt8
  | .integer i => if 0 ≤ i ∧ i ≤ 255 then some (UInt8.ofNat i.toNat) else none
  | _ => none

/-- An integer of a JSON text: an integer of 64 bits if it is one, else the nearest double. -/
def ofInteger (i : Int) : Value :=
  if Int64.minValue.toInt ≤ i ∧ i ≤ Int64.maxValue.toInt then integer (Int64.ofInt i)
  else float (Float.ofInt i)

mutual

/-- The value a JSON document stands for. -/
def ofJson : GraphSession.Json → Value
  | .null => null
  | .boolean b => boolean b
  | .integer i => ofInteger i
  | .float x => float x
  | .string s => string s
  | .list items =>
    match items.mapM byte? with
    | some bs => bytes bs
    | none => list (ofItems items)
  | .map entries => map (Fields.ofList (ofEntries entries)).entries

/-- The values of a list's items. -/
def ofItems : List GraphSession.Json → List Value
  | [] => []
  | j :: js => ofJson j :: ofItems js

/-- The values of a map's entries. -/
def ofEntries : List (String × GraphSession.Json) → List (String × Value)
  | [] => []
  | (k, j) :: rest => (k, ofJson j) :: ofEntries rest

end

/-- The value of a JSON text; `none` when the text is not one. -/
def ofJsonText? (text : String) : Option Value :=
  (GraphSession.Json.parse? text).map ofJson

end GraphSession.Value
