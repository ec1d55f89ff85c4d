import GraphSession.Json.Numeral

/-!
  The tokens of a JSON text.

  The scanner is a state machine over characters: each character moves it to its next state and may
  complete tokens on the way.  Strings are decoded here, escapes and surrogate pairs included, and
  numerals and words are read as soon as a character ends them.
-/

namespace GraphSession.Json

/-- A token: a punctuation mark or a complete scalar. -/
inductive Token
  | openList
  | closeList
  | openMap
  | closeMap
  | comma
  | colon
  | scalar (value : Json)

/-- The digits of a `\u` escape read so far, and the first half of a surrogate pair before it. -/
structure Escape where
  high : Option Nat
  count : Nat
  value : Nat

/-- Where the scanner is.  Texts are collected in reverse. -/
inductive Scan
  | between
  | word (read : List Char)
  | numeral (read : List Char)
  | text (read : List Char)
  | backslash (read : List Char)
  | hex (read : List Char) (escape : Escape)
  /-- Between the two halves of a surrogate pair, before the backslash and before the `u`. -/
  | pairBackslash (read : List Char) (high : Nat)
  | pairMark (read : List Char) (high : Nat)

namespace Scan

/-- The word that a run of letters spells. -/
def word? (cs : List Char) : Option Json :=
  if cs = "null".toList then some .null
  else if cs = "true".toList then some (.boolean true)
  else if cs = "false".toList then some (.boolean false)
  else none

/-- The characters a numeral may be made of. -/
def isNumeralChar (c : Char) : Bool :=
  c.isDigit || c == '-' || c == '+' || c == '.' || c == 'e' || c == 'E'

/-- A character outside all tokens: the token it is, and where the scanner goes. -/
def start? (c : Char) : Option (List Token × Scan) :=
  if c = ' ' || c = '\n' || c = '\t' || c = '\r' then some ([], between)
  else if c = '[' then some ([.openList], between)
  else if c = ']' then some ([.closeList], between)
  else if c = '\x7b' then some ([.openMap], between)
  else if c = '\x7d' then some ([.closeMap], between)
  else if c = ',' then some ([.comma], between)
  else if c = ':' then some ([.colon], between)
  else if c = '"' then some ([], text [])
  else if c.isDigit || c = '-' then some ([], numeral [c])
  else if c.isAlpha then some ([], word [c])
  else none

/-- The character that a one-letter escape stands for. -/
def shortEscape? (c : Char) : Option Char :=
  if c = '"' || c = '\\' || c = '/' then some c
  else if c = 'b' then some (Char.ofNat 0x08)
  else if c = 'f' then some (Char.ofNat 0x0C)
  else if c = 'n' then some '\n'
  else if c = 'r' then some '\r'
  else if c = 't' then some '\t'
  else none

/-- The value of a hexadecimal digit. -/
def hexValue? (c : Char) : Option Nat :=
  if c.isDigit then some (c.toNat - 48)
  else if 'a' ≤ c && c ≤ 'f' then some (c.toNat - 87)
  else if 'A' ≤ c && c ≤ 'F' then some (c.toNat - 55)
  else none

/-- What follows the last digit of a `\u` escape.  The two halves of a surrogate pair make one
    character, and neither half stands alone. -/
def escaped? (read : List Char) (high : Option Nat) (unit : Nat) : Option Scan :=
  match high with
  | none =>
    if 0xD800 ≤ unit && unit < 0xDC00 then some (pairBackslash read unit)
    else if 0xDC00 ≤ unit && unit < 0xE000 then none
    else some (text (Char.ofNat unit :: read))
  | some first =>
    if 0xDC00 ≤ unit && unit < 0xE000 then
      some (text (Char.ofNat (0x10000 + (first - 0xD800) * 0x400 + (unit - 0xDC00)) :: read))
    else none

/-- One character: the tokens it completes and the next state. -/
def step? (state : Scan) (c : Char) : Option (List Token × Scan) :=
  match state with
  | between => start? c
  | word read =>
    if c.isAlpha then some ([], word (c :: read))
    else do
      let value ← word? read.reverse
      let (tokens, next) ← start? c
      some (.scalar value :: tokens, next)
  | numeral read =>
    if isNumeralChar c then some ([], numeral (c :: read))
    else do
      let value ← (← Numeral.ofChars? read.reverse).toJson?
      let (tokens, next) ← start? c
      some (.scalar value :: tokens, next)
  | text read =>
    if c = '"' then some ([.scalar (.string (String.ofList read.reverse))], between)
    else if c = '\\' then some ([], backslash read)
    else if c.toNat < 0x20 then none
    else some ([], text (c :: read))
  | backslash read =>
    if c = 'u' then some ([], hex read ⟨none, 0, 0⟩)
    else (shortEscape? c).map fun e => ([], text (e :: read))
  | hex read escape => do
    let digit ← hexValue? c
    let value := escape.value * 16 + digit
    if escape.count = 3 then (escaped? read escape.high value).map fun next => ([], next)
    else some ([], hex read ⟨escape.high, escape.count + 1, value⟩)
  | pairBackslash read high => if c = '\\' then some ([], pairMark read high) else none
  | pairMark read high => if c = 'u' then some ([], hex read ⟨some high, 0, 0⟩) else none

/-- The end of the text: the token it completes. -/
def finish? : Scan → Option (List Token)
  | between => some []
  | word read => (word? read.reverse).map fun value => [.scalar value]
  | numeral read => do
    let value ← (← Numeral.ofChars? read.reverse).toJson?
    some [.scalar value]
  | _ => none

/-- The tokens of the rest of a text. -/
def run? (state : Scan) : List Char → Option (List Token)
  | [] => state.finish?
  | c :: cs => do
    let (tokens, next) ← state.step? c
    let rest ← run? next cs
    some (tokens ++ rest)

end Scan

/-- The tokens of a text. -/
def tokens? (cs : List Char) : Option (List Token) := Scan.run? .between cs

end GraphSession.Json
