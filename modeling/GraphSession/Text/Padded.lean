/-!
  Numerals with leading zeros.
-/

namespace GraphSession.Text

/-- A numeral with at least `width` digits. -/
def padded (width n : Nat) : String :=
  let digits := toString n
  String.ofList (List.replicate (width - digits.length) '0') ++ digits

/-- The decimal places of `n / 10 ^ width` without trailing zeros; empty when `n` is zero. -/
def places (width n : Nat) : String :=
  let digits := (padded width n).toList.reverse.dropWhile (· == '0')
  String.ofList digits.reverse

end GraphSession.Text
