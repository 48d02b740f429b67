import PropTable.Text.Ranges

/-!
White space, and the text that is left when it is removed from both ends.
-/

namespace PropTable
namespace Text

/-- White space: the characters with the Unicode property of that name, and the four
information separators U+001C to U+001F. -/
def blankRanges : Ranges :=
  [(0x0009, 0x000D), (0x001C, 0x0020), (0x0085, 0x0085), (0x00A0, 0x00A0), (0x1680, 0x1680),
   (0x2000, 0x200A), (0x2028, 0x2029), (0x202F, 0x202F), (0x205F, 0x205F), (0x3000, 0x3000)]

def isBlank (c : Char) : Bool := blankRanges.contains c.toNat

def trimStart (cs : List Char) : List Char := cs.dropWhile isBlank

def trimEnd (cs : List Char) : List Char := (cs.reverse.dropWhile isBlank).reverse

/-- The text without the blanks at its two ends; those inside it stay. -/
def trim (cs : List Char) : List Char := trimEnd (trimStart cs)

/-- The text `s` without the blanks at its two ends. -/
def trimmed (s : String) : String := String.ofList (trim s.toList)

end Text
end PropTable
