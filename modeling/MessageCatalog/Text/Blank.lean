/-!
# Blank characters

The white space of Unicode, and the removal of blanks at the two ends of a text. Texts are lists of characters here: a string is
taken apart once at the edge of the library and put together once.
-/

namespace MessageCatalog.Text

/-- White space as Unicode has it: the five ASCII controls from tab to carriage return, the space, and the wider blanks. The
zero-width space and the byte order mark are no white space. -/
def isBlank (c : Char) : Bool :=
  let n := c.toNat
  (0x0009 ≤ n && n ≤ 0x000D) || n == 0x0020 || n == 0x0085 || n == 0x00A0 || n == 0x1680 ||
    (0x2000 ≤ n && n ≤ 0x200A) || n == 0x2028 || n == 0x2029 || n == 0x202F || n == 0x205F || n == 0x3000

/-- The text without the blanks at its end. -/
def trimEnd (cs : List Char) : List Char :=
  (cs.reverse.dropWhile isBlank).reverse

/-- The text without the blanks at its two ends. -/
def trim (cs : List Char) : List Char :=
  trimEnd (cs.dropWhile isBlank)

/-- The part of a line in front of its first `//`. -/
def beforeComment : List Char → List Char
  | [] => []
  | c :: rest => if c = '/' ∧ rest.head? = some '/' then [] else c :: beforeComment rest

/-- The lines of a text: a line feed ends a line, and nothing after the last line feed is no line. -/
def lines : List Char → List (List Char)
  | [] => []
  | c :: rest =>
    if c = '\n' then [] :: lines rest
    else match lines rest with
      | [] => [[c]]
      | line :: others => (c :: line) :: others

end MessageCatalog.Text
