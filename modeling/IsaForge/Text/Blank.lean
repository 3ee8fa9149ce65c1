/-!
Blank characters and the two ways a description is cut at them: `trim` removes blanks at both ends of a text, and
`lines` splits a text at line feeds. A carriage return right before a line feed belongs to the line end; anywhere else
it is an ordinary character.
-/

namespace IsaForge.Text

/-- The characters with the Unicode property White_Space. -/
def isBlank (c : Char) : Bool :=
  let n := c.toNat
  (0x09 ≤ n && n ≤ 0x0D) || n == 0x20 || n == 0x85 || n == 0xA0 || n == 0x1680 ||
    (0x2000 ≤ n && n ≤ 0x200A) || n == 0x2028 || n == 0x2029 || n == 0x202F || n == 0x205F || n == 0x3000

/-- The characters of a text without the blanks at its end. -/
def trimRight (cs : List Char) : List Char :=
  (cs.reverse.dropWhile isBlank).reverse

/-- The characters of a text without the blanks at its two ends. -/
def trimChars (cs : List Char) : List Char :=
  trimRight (cs.dropWhile isBlank)

/-- A text without the blanks at its two ends. -/
def trim (s : String) : String :=
  String.ofList (trimChars s.toList)

/-- Close a line whose characters were collected in reverse: one carriage return before the line end is dropped. -/
def closeLine : List Char → List Char
  | '\r' :: rest => rest.reverse
  | line => line.reverse

/-- Split at line feeds, where `line` holds the characters of the current line in reverse. Text after the last line
feed is a line only if it is not empty, and keeps a carriage return at its end. -/
def splitLines (line : List Char) : List Char → List (List Char)
  | [] => if line.isEmpty then [] else [line.reverse]
  | '\n' :: rest => closeLine line :: splitLines [] rest
  | c :: rest => splitLines (c :: line) rest

/-- The lines of a text. -/
def lines (s : String) : List String :=
  (splitLines [] s.toList).map String.ofList

end IsaForge.Text
