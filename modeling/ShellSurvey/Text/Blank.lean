import ShellSurvey.Text.Split

/-!
# Blanks

The blank characters of Unicode text: what `trim` removes at both ends and what separates
`words`. Byte strings have a smaller set of their own, `isBlankByte`, which holds the ASCII
blanks only.
-/

namespace ShellSurvey.Text

/-- The blank characters: tab to carriage return, the four information separators, space,
next line, and the space, line and paragraph separators of Unicode. -/
def isBlank (c : Char) : Bool :=
  let n := c.toNat
  (0x09 ≤ n && n ≤ 0x0D) || (0x1C ≤ n && n ≤ 0x20) || n == 0x85 || n == 0xA0 || n == 0x1680 ||
    (0x2000 ≤ n && n ≤ 0x200A) || n == 0x2028 || n == 0x2029 || n == 0x202F || n == 0x205F ||
    n == 0x3000

/-- The blank bytes: tab to carriage return, and space. -/
def isBlankByte (b : UInt8) : Bool :=
  (0x09 ≤ b && b ≤ 0x0D) || b == 0x20

/-- The text without the blanks at its front. -/
def trimFront (cs : List Char) : List Char :=
  cs.dropWhile isBlank

/-- The text without the blanks at its back. -/
def trimBack (cs : List Char) : List Char :=
  (cs.reverse.dropWhile isBlank).reverse

/-- The text without the blanks at both ends. -/
def trim (cs : List Char) : List Char :=
  trimBack (trimFront cs)

/-- The maximal runs of characters that are not blank, in order. -/
def words (cs : List Char) : List (List Char) :=
  (splitWhere isBlank cs).filter (fun word => !word.isEmpty)

end ShellSurvey.Text
