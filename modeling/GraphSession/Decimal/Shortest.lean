import GraphSession.Decimal.Dyadic

/-!
  The fewest decimal digits that read back as a given double.

  The reals that round to a double `m · 2 ^ q` form an interval around it; its ends belong to it
  exactly when `m` is even.  For one, two, … seventeen digits the value's two neighbours on that
  decimal grid are tested against the interval.  The first grid with a hit wins, and of two hits
  the nearer one; what happens when both are equally near is a parameter, because printers differ.
  Seventeen digits always hit.
-/

namespace GraphSession

/-- A positive decimal number `digits · 10 ^ exponent`. -/
structure Decimal where
  digits : Nat
  exponent : Int
  deriving DecidableEq, Repr

/-- What a printer does with a value half way between its two best decimals. -/
inductive Tie
  | up
  | even
  deriving DecidableEq, Repr

namespace Decimal

/-- The number of digits of a natural. -/
def digitCount (n : Nat) : Nat :=
  if n < 10 then 1 else digitCount (n / 10) + 1
termination_by n
decreasing_by omega

/-- The exponent `e` with `10 ^ e ≤ a / b < 10 ^ (e + 1)`, for positive `a` and `b`. -/
def leadingExponent (a b : Nat) : Int :=
  if b ≤ a then (digitCount (a / b) : Int) - 1
  else
    -- `b / a` has `j` digits, so `a / b` is at most `10 ^ (1 - j)` and above `10 ^ -j`.
    let j := digitCount (b / a)
    if b = a * Nat.pow 10 (j - 1) then 1 - (j : Int) else -(j : Int)

/-- Three fractions over one denominator: lower end, value and upper end of the interval of
    reals that round to the double, with the flag that tells whether the ends belong to it. -/
structure Interval where
  low : Nat
  value : Nat
  high : Nat
  denominator : Nat
  closed : Bool

/-- The rounding interval of a double.  A double at the bottom of its binade has its lower
    neighbour at half the distance of the upper one, hence the quarter steps. -/
def interval (d : Dyadic) : Interval :=
  let scale := if d.exponent < 0 then 1 else Nat.pow 2 d.exponent.toNat
  let denominator := if d.exponent < 0 then 4 * Nat.pow 2 (-d.exponent).toNat else 4
  { low := (4 * d.mantissa - (if d.atBinade then 1 else 2)) * scale
    value := 4 * d.mantissa * scale
    high := (4 * d.mantissa + 2) * scale
    denominator
    closed := d.mantissa % 2 == 0 }

/-- Whether `digits · 10 ^ exponent` lies in the interval. -/
def Interval.contains (i : Interval) (digits : Nat) (exponent : Int) : Bool :=
  let up := Nat.pow 10 exponent.toNat
  let down := Nat.pow 10 (-exponent).toNat
  let point := digits * up * i.denominator
  if i.closed then i.low * down ≤ point && point ≤ i.high * down
  else i.low * down < point && point < i.high * down

/-- The better of the value's two neighbours on the grid `10 ^ exponent`, if one reads back. -/
def Interval.onGrid? (i : Interval) (tie : Tie) (exponent : Int) : Option Nat :=
  let up := Nat.pow 10 exponent.toNat
  let down := Nat.pow 10 (-exponent).toNat
  let step := up * i.denominator
  let below := i.value * down / step
  let rest := i.value * down % step
  match i.contains below exponent && 0 < below, i.contains (below + 1) exponent with
  | false, false => none
  | true, false => some below
  | false, true => some (below + 1)
  | true, true =>
    if 2 * rest < step then some below
    else if step < 2 * rest then some (below + 1)
    else match tie with
      | .up => some (below + 1)
      | .even => some (below + below % 2)

/-- The least `n` in `[n, n + more]` whose grid has a hit; `lead` is the leading exponent. -/
def search (i : Interval) (tie : Tie) (lead : Int) : Nat → Nat → Decimal
  | n, 0 => ⟨(i.onGrid? tie (lead - n + 1)).getD 0, lead - n + 1⟩
  | n, more + 1 =>
    match i.onGrid? tie (lead - n + 1) with
    | some digits => ⟨digits, lead - n + 1⟩
    | none => search i tie lead (n + 1) more

/-- Trailing zeros move from the digits to the exponent. -/
def strip (d : Decimal) : Decimal :=
  if h : d.digits ≠ 0 ∧ d.digits % 10 = 0 then strip ⟨d.digits / 10, d.exponent + 1⟩ else d
termination_by d.digits
decreasing_by omega

/-- The shortest decimal that reads back as the magnitude of `d`, which is not zero. -/
def shortest (tie : Tie) (d : Dyadic) : Decimal :=
  let i := interval d
  strip (search i tie (leadingExponent i.value i.denominator) 1 16)

end Decimal

end GraphSession
