import GraphSession.Json.Basic

/-!
  JSON numerals.

  A numeral has an optional minus sign, a whole part without leading zeros, an optional fraction
  and an optional exponent.  A double is read by scaling: the digits that fit in sixty-four bits
  form a natural, which is rounded to a double and then multiplied or divided by a power of ten.
  That is correctly rounded for numerals of up to fifteen digits and small exponents, and at most
  a few units in the last place away otherwise.  A number too large for a double is refused.
-/

namespace GraphSession.Json

/-- The parts of a numeral, digits only. -/
structure Numeral where
  negative : Bool
  whole : List Char
  fraction : Option (List Char)
  /-- The sign and the digits of the exponent. -/
  exponent : Option (Bool × List Char)

namespace Numeral

/-- The digits in front of a text, which must not be none, and what follows them. -/
def digits? (cs : List Char) : Option (List Char × List Char) :=
  match cs.takeWhile Char.isDigit with
  | [] => none
  | ds => some (ds, cs.dropWhile Char.isDigit)

/-- A sign in front of an exponent: whether it is a minus. -/
def exponentSign : List Char → Bool × List Char
  | '-' :: rest => (true, rest)
  | '+' :: rest => (false, rest)
  | rest => (false, rest)

/-- The parts of a numeral; `none` when the characters are not exactly one. -/
def ofChars? (cs : List Char) : Option Numeral := do
  let (negative, cs) := match cs with
    | '-' :: rest => (true, rest)
    | rest => (false, rest)
  let (whole, cs) ← digits? cs
  -- a zero in front stands alone
  if whole.head? = some '0' && whole.length ≠ 1 then none
  let (fraction, cs) ← match cs with
    | '.' :: rest => (digits? rest).map fun (ds, rest) => (some ds, rest)
    | rest => some (none, rest)
  let (exponent, cs) ← match cs with
    | 'e' :: rest | 'E' :: rest =>
      let (minus, rest) := exponentSign rest
      (digits? rest).map fun (ds, rest) => (some (minus, ds), rest)
    | rest => some (none, rest)
  if cs.isEmpty then some ⟨negative, whole, fraction, exponent⟩ else none

/-- The value of a digit. -/
def digitValue (c : Char) : Nat := c.toNat - 48

/-- The first number that does not fit in sixty-four bits. -/
def significandLimit : Nat := Nat.pow 2 64

/-- Takes digits into the significand while it fits in sixty-four bits; gives it with the digits
    that are left over. -/
def accumulate (significand : Nat) : List Char → Nat × List Char
  | [] => (significand, [])
  | c :: cs =>
    let next := significand * 10 + digitValue c
    if next < significandLimit then accumulate next cs else (significand, c :: cs)

/-- A power of ten as a double. -/
def powerOfTen (n : Nat) : Float := Float.ofScientific 1 false n

/-- The greatest power of ten that is a finite double. -/
def greatestPower : Nat := 308

/-- Divides by `10 ^ n`, in steps when no double is that large. -/
def scaleDown (x : Float) (n : Nat) : Float :=
  if _h : n ≤ greatestPower then x / powerOfTen n
  else if x == 0 then x
  else scaleDown (x / powerOfTen greatestPower) (n - greatestPower)
termination_by n
decreasing_by simp only [greatestPower] at *; omega

/-- `significand · 10 ^ exponent` as a double; `none` when it is too large for one. -/
def scale? (significand : Nat) (exponent : Int) : Option Float :=
  let x := Float.ofNat significand
  if exponent < 0 then some (scaleDown x exponent.natAbs)
  else if exponent.natAbs ≤ greatestPower then
    let y := x * powerOfTen exponent.natAbs
    if y.isInf then none else some y
  else if x == 0 then some x
  else none

/-- The greatest exponent that is added up; longer ones count as out of range at once. -/
def exponentLimit : Nat := Nat.pow 2 31

/-- The double a numeral stands for. -/
def float? (n : Numeral) : Option Float := do
  let (head, dropped) := accumulate 0 n.whole
  let (significand, unread) := match n.fraction with
    | none => (head, [])
    | some ds => accumulate head ds
  let places := match n.fraction with
    | none => 0
    | some ds => ds.length - unread.length
  let start : Int := (dropped.length : Int) - places
  let magnitude ← match n.exponent with
    | none => scale? significand start
    | some (minus, ds) =>
      let power := ds.foldl (fun p c => p * 10 + digitValue c) 0
      if power < exponentLimit then
        scale? significand (if minus then start - power else start + power)
      else if significand = 0 || minus then some 0
      else none
  some (if n.negative then -magnitude else magnitude)

/-- The number a numeral stands for.  A negative zero and whole numbers out of range are doubles. -/
def toJson? (n : Numeral) : Option Json :=
  match n.fraction, n.exponent with
  | none, none =>
    match accumulate 0 n.whole with
    | (magnitude, []) =>
      if !n.negative then some (.integer magnitude)
      else if magnitude = 0 || Nat.pow 2 63 < magnitude then some (.float (-Float.ofNat magnitude))
      else some (.integer (-(magnitude : Int)))
    | _ => n.float?.map .float
  | _, _ => n.float?.map .float

end Numeral

end GraphSession.Json
