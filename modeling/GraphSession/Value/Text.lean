import GraphSession.Decimal.Layout
import GraphSession.Value.Basic

/-!
  Values in messages.

  Scalars are written out; a text stands between quotes as it is, without any escape.  Bytes, lists
  and maps show their size only.
-/

namespace GraphSession.Value

/-- A value as messages show it. -/
def text : Value → String
  | null => "null"
  | boolean b => if b then "true" else "false"
  | integer i => toString i.toInt
  | float x => Decimal.plain x
  | string s => "\"" ++ s ++ "\""
  | bytes bs => "<" ++ toString bs.length ++ " bytes>"
  | list items => "[" ++ toString items.length ++ " items]"
  | map entries => "\x7b" ++ toString entries.length ++ " entries\x7d"
  | date d => d.text
  | localTime t => t.text
  | dateTime dt => dt.text
  | localDateTime dt => dt.text " "

end GraphSession.Value
