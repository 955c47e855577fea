import MessageCatalog.Text.Blank

/-!
# Significant lines

A template is read line by line. Comments and the blanks at the ends of a line do not count, and a line that is empty without them
is left out; the others keep their number in the source.
-/

namespace MessageCatalog

/-- A line of a template: its text and its number in the source, counted from 1. -/
structure SourceLine where
  number : Nat
  text : String
  deriving DecidableEq, Repr, Inhabited

namespace SourceLine

/-- Whether the line is a lone opening brace. -/
def isOpening (l : SourceLine) : Bool :=
  l.text == "\x7b"

/-- Whether the line is a lone closing brace. -/
def isClosing (l : SourceLine) : Bool :=
  l.text == "\x7d"

/-- Whether the line is a lone brace. -/
def isBrace (l : SourceLine) : Bool :=
  l.isOpening || l.isClosing

/-- Whether the line starts with a brace, as a field line does. -/
def startsWithBrace (l : SourceLine) : Bool :=
  l.text.toList.head? == some '{'

end SourceLine

/-- What counts of a line: the part in front of the comment, without blanks at its ends. -/
def significantText (line : List Char) : List Char :=
  Text.trim (Text.beforeComment line)

/-- The significant lines among some lines, the first of which has the given number. -/
def significantFrom (number : Nat) : List (List Char) → List SourceLine
  | [] => []
  | line :: rest =>
    let text := significantText line
    if text.isEmpty then significantFrom (number + 1) rest
    else ⟨number, String.ofList text⟩ :: significantFrom (number + 1) rest

/-- The significant lines of a source in order. -/
def significantLines (source : String) : List SourceLine :=
  significantFrom 1 (Text.lines source.toList)

end MessageCatalog
