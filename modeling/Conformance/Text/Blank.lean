/-!
White space and letter case of keywords.

Keywords in options and environment settings are read without the blanks
around them and without regard to the case of Latin letters. Blanks are the
characters of the Unicode property White_Space.
-/

namespace Conformance.Text

/-- The code points of the Unicode property White_Space, as closed ranges. -/
def blankRanges : List (Nat × Nat) :=
  [(0x9, 0xd), (0x20, 0x20), (0x85, 0x85), (0xa0, 0xa0), (0x1680, 0x1680), (0x2000, 0x200a),
    (0x2028, 0x2029), (0x202f, 0x202f), (0x205f, 0x205f), (0x3000, 0x3000)]

/-- Whether a character is white space. -/
def isBlank (c : Char) : Bool :=
  blankRanges.any fun range => decide (range.1 ≤ c.toNat) && decide (c.toNat ≤ range.2)

/-- The text without the blanks at its two ends. -/
def trim (s : String) : String :=
  String.ofList ((s.toList.dropWhile isBlank).reverse.dropWhile isBlank).reverse

/-- The text with the letters A to Z in lower case and all else as it is. -/
def lowerLatin (s : String) : String :=
  String.ofList (s.toList.map Char.toLower)

/-- The form in which a keyword is compared. No keyword of this library has a
letter that is the lower case of anything but its own Latin capital, so
lowering A to Z is all that a comparison needs. -/
def keyword (s : String) : String :=
  lowerLatin (trim s)

end Conformance.Text
