/-!
  Doubles as exact numbers.

  Every finite double is `± mantissa · 2 ^ exponent` with a natural mantissa.  `Dyadic.ofFloat?`
  reads these parts off the bit pattern, so that printing a double and rounding it to whole
  nanoseconds are integer arithmetic.  Infinities and the value that is not a number have no parts.
-/

namespace GraphSession

/-- A finite double: its sign and the exact value `mantissa · 2 ^ exponent` of its magnitude. -/
structure Dyadic where
  /-- The sign bit; set for `-0` as well. -/
  negative : Bool
  mantissa : Nat
  exponent : Int
  /-- Whether the next smaller double lies only half a step away. -/
  atBinade : Bool
  deriving DecidableEq, Repr

namespace Dyadic

/-- The parts of a bit pattern: sign, eleven exponent bits, fifty-two fraction bits. -/
def ofBits? (bits : Nat) : Option Dyadic :=
  let biased := bits / Nat.pow 2 52 % Nat.pow 2 11
  let fraction := bits % Nat.pow 2 52
  let negative := bits / Nat.pow 2 63 % 2 == 1
  if biased = 2047 then none
  else if biased = 0 then some ⟨negative, fraction, -1074, false⟩
  else
    some ⟨negative, Nat.pow 2 52 + fraction, Int.ofNat biased - 1075, fraction == 0 && biased > 1⟩

/-- The parts of a double; `none` for infinities and for what is not a number. -/
def ofFloat? (x : Float) : Option Dyadic :=
  ofBits? x.toBits.toNat

/-- The magnitude as a fraction of two naturals. -/
def magnitude (d : Dyadic) : Nat × Nat :=
  if d.exponent < 0 then (d.mantissa, Nat.pow 2 (-d.exponent).toNat)
  else (d.mantissa * Nat.pow 2 d.exponent.toNat, 1)

end Dyadic

/-- The quotient of two naturals rounded to the nearest natural, a tie going to the even one. -/
def roundHalfEven (numerator denominator : Nat) : Nat :=
  let quotient := numerator / denominator
  let twice := 2 * (numerator % denominator)
  if twice < denominator then quotient
  else if denominator < twice then quotient + 1
  else quotient + quotient % 2

end GraphSession
