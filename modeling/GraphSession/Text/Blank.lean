/-!
  Blank text.

  A character is white space when it has the Unicode property `White_Space`; a text is blank when
  it holds nothing else.  The property is a closed table of twenty-five code points, and it is
  wider than the four characters of `Char.isWhitespace`.
-/

namespace GraphSession.Text

/-- The ranges of code points with the property `White_Space`, both ends included. -/
def whiteSpaceRanges : List (Nat × Nat) :=
  [(0x09, 0x0D), (0x20, 0x20), (0x85, 0x85), (0xA0, 0xA0), (0x1680, 0x1680), (0x2000, 0x200A),
   (0x2028, 0x2029), (0x202F, 0x202F), (0x205F, 0x205F), (0x3000, 0x3000)]

/-- A character is white space when its code point lies in one of the ranges. -/
def isWhiteSpace (c : Char) : Bool :=
  whiteSpaceRanges.any fun (low, high) => low ≤ c.toNat && c.toNat ≤ high

/-- A text is blank when trimming it leaves nothing. -/
def isBlank (text : String) : Bool :=
  text.toList.all isWhiteSpace

end GraphSession.Text
