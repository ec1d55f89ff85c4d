/-!
  Quoted text, in the two forms the library writes.

  `debug` is the form of diagnostic texts: double quotes around the text, with quotes, backslashes
  and control characters escaped, everything printable kept as it is.  `json` is the form of a
  JSON string.  Both work character by character, so the text between the quotes is a `flatMap`.
-/

namespace GraphSession.Text

/-- The sixteen digits of a lower-case hexadecimal numeral. -/
def hexDigit (n : Nat) : Char :=
  if n < 10 then Char.ofNat (48 + n) else Char.ofNat (87 + n)

/-- A hexadecimal numeral with at least `width` digits. -/
def hexNumeral (width n : Nat) : List Char :=
  let digits := (Nat.toDigits 16 n)
  List.replicate (width - digits.length) '0' ++ digits

/-- One character of a diagnostic text. -/
def debugChar (c : Char) : List Char :=
  if c = '"' then ['\\', '"']
  else if c = '\\' then ['\\', '\\']
  else if c = '\n' then ['\\', 'n']
  else if c = '\t' then ['\\', 't']
  else if c = '\r' then ['\\', 'r']
  else if c.toNat = 0 then ['\\', '0']
  else if c.toNat < 0x20 || (0x7F ≤ c.toNat && c.toNat < 0xA0) then
    ['\\', 'u', '\x7b'] ++ hexNumeral 1 c.toNat ++ ['\x7d']
  else [c]

/-- A text as diagnostic output shows it. -/
def debug (text : String) : String :=
  String.ofList ('"' :: text.toList.flatMap debugChar ++ ['"'])

/-- One character of a JSON string: quotes and backslashes get a backslash, control characters
    their short escape when JSON has one and four hexadecimal digits otherwise. -/
def jsonChar (c : Char) : List Char :=
  if c = '"' then ['\\', '"']
  else if c = '\\' then ['\\', '\\']
  else if c.toNat = 0x08 then ['\\', 'b']
  else if c.toNat = 0x0C then ['\\', 'f']
  else if c = '\n' then ['\\', 'n']
  else if c = '\r' then ['\\', 'r']
  else if c = '\t' then ['\\', 't']
  else if c.toNat < 0x20 then ['\\', 'u'] ++ hexNumeral 4 c.toNat
  else [c]

/-- The characters of a JSON string, quotes included. -/
def jsonChars (text : List Char) : List Char :=
  '"' :: text.flatMap jsonChar ++ ['"']

/-- A list of texts separated by `separator`. -/
def join (separator : String) (parts : List String) : String :=
  separator.intercalate parts

/-- An optional value in diagnostic output. -/
def debugOption (inner : Option String) : String :=
  match inner with
  | none => "None"
  | some text => "Some(" ++ text ++ ")"

/-- A record of named fields in diagnostic output. -/
def debugRecord (name : String) (fields : List (String × String)) : String :=
  name ++ " \x7b " ++ join ", " (fields.map fun (key, value) => key ++ ": " ++ value) ++ " \x7d"

/-- A set in diagnostic output, its members in the order given. -/
def debugSet (members : List String) : String :=
  "\x7b" ++ join ", " members ++ "\x7d"

/-- A list in diagnostic output. -/
def debugList (members : List String) : String :=
  "[" ++ join ", " members ++ "]"

end GraphSession.Text
