import GraphSession.Decimal.Shortest

/-!
  How a double is written.

  `plain` is the form of messages and of displayed values: every digit written out, never an
  exponent, no fraction for a whole number.  `json` is the form of a number in a JSON text: a
  fraction or an exponent is always there, and numbers below `1e-5` or from `1e16` on have an
  exponent.  Both start from the shortest digits that read back.
-/

namespace GraphSession.Decimal

/-- A positive decimal written out in full: `12`, `0.5`, `1200`. -/
def positional (d : Decimal) : String :=
  let digits := (toString d.digits).toList
  if 0 ≤ d.exponent then
    String.ofList (digits ++ List.replicate d.exponent.toNat '0')
  else
    let places := (-d.exponent).toNat
    if places < digits.length then
      let whole := digits.take (digits.length - places)
      String.ofList (whole ++ '.' :: digits.drop (digits.length - places))
    else
      String.ofList ('0' :: '.' :: List.replicate (places - digits.length) '0' ++ digits)

/-- A positive decimal with one digit before the point and a signed exponent: `1.5e-7`. -/
def scientific (d : Decimal) : String :=
  let digits := (toString d.digits).toList
  let power : Int := d.exponent + digits.length - 1
  let fraction := match digits.drop 1 with
    | [] => []
    | rest => '.' :: rest
  let sign := if power < 0 then "-" else "+"
  String.ofList (digits.take 1 ++ fraction) ++ "e" ++ sign ++ toString power.natAbs

/-- The text of a double that has no digits. -/
def special (x : Float) : String :=
  if x == x then (if x < 0 then "-inf" else "inf") else "NaN"

/-- The sign of a double in front of the text of its magnitude. -/
def signed (d : Dyadic) (magnitude : String) : String :=
  if d.negative then "-" ++ magnitude else magnitude

/-- A double in a message: `0.1`, `-0`, `100000000000000000000`, `inf`, `NaN`. -/
def plain (x : Float) : String :=
  match Dyadic.ofFloat? x with
  | none => special x
  | some d => signed d (if d.mantissa = 0 then "0" else positional (shortest .up d))

/-- A finite double in a JSON text; what is no finite number has no such text. -/
def json? (x : Float) : Option String :=
  (Dyadic.ofFloat? x).map fun d =>
    signed d <|
      if d.mantissa = 0 then "0.0"
      else
        let s := shortest .even d
        let power : Int := s.exponent + digitCount s.digits - 1
        if power < -5 || 16 ≤ power then scientific s
        else if 0 ≤ s.exponent then positional s ++ ".0"
        else positional s

end GraphSession.Decimal
