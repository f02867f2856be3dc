/-!
# Comparing text with ASCII names

White space is that of the Unicode property `White_Space`, which `Moorland.Text.trim` removes at
both ends.

Lower case matters here only where a text is compared with a name written in ASCII. Among all
characters only the letters `A` to `Z` and the Kelvin sign have a lower case that is ASCII; the
lower case of any other character has a character outside ASCII in it. So
`Moorland.Text.foldCase` changes just those, and a folded text equals an ASCII name exactly when
its full lower case does.
-/

namespace Moorland.Text

/-- The characters of the property `White_Space`, as ranges of code points. -/
def whiteSpaceRanges : List (Nat × Nat) :=
  [(0x9, 0xD), (0x20, 0x20), (0x85, 0x85), (0xA0, 0xA0), (0x1680, 0x1680), (0x2000, 0x200A),
    (0x2028, 0x2029), (0x202F, 0x202F), (0x205F, 0x205F), (0x3000, 0x3000)]

/-- The character is white space. -/
def isWhiteSpace (c : Char) : Bool :=
  whiteSpaceRanges.any fun (low, high) => low ≤ c.toNat && c.toNat ≤ high

/-- The text without white space at its end. -/
def trimEnd (s : List Char) : List Char := (s.reverse.dropWhile isWhiteSpace).reverse

/-- **The text without white space at its ends.** -/
def trim (s : List Char) : List Char := trimEnd (s.dropWhile isWhiteSpace)

/-- **Lower case where it is ASCII**: the letters `A` to `Z` and the Kelvin sign. -/
def foldCase (c : Char) : Char := if c = '\u212A' then 'k' else c.toLower

end Moorland.Text
