import MessageCatalog.Error
import MessageCatalog.Source.Line

/-!
# Message regions

The lines behind the version line are cut into regions, one per message. Only lines that are a lone brace open and close: a field
line in braces is content like any other. The outermost braces delimit a region; braces inside belong to its lines.
-/

namespace MessageCatalog

/-- The lines of one message, without the braces around them, and the number of the line of its opening brace. -/
structure Region where
  openLine : Nat
  lines : List SourceLine
  deriving DecidableEq, Repr, Inhabited

/-- Where a line stands: between regions, or in a region that was opened on a line, at some depth of further open braces. -/
inductive RegionState where
  | between
  | within (openLine : Nat) (collected : List SourceLine) (depth : Nat)
  deriving DecidableEq, Repr, Inhabited

/-- Cuts lines into regions. The lines collected of an open region stand in reverse. -/
def segmentFrom : RegionState → List SourceLine → Except Error (List Region)
  | .between, [] => .ok []
  | .within openLine _ _, [] => .error (.located openLine .neverClosed)
  | .between, l :: rest =>
    if l.isOpening then segmentFrom (.within l.number [] 0) rest
    else if l.isClosing then .error (.located l.number .nothingToClose)
    else .error (.located l.number (.outsideRegion l.text))
  | .within openLine collected depth, l :: rest =>
    if l.isOpening then segmentFrom (.within openLine (l :: collected) (depth + 1)) rest
    else if l.isClosing then
      match depth with
      | 0 => (segmentFrom .between rest).map (⟨openLine, collected.reverse⟩ :: ·)
      | d + 1 => segmentFrom (.within openLine (l :: collected) d) rest
    else segmentFrom (.within openLine (l :: collected) depth) rest

/-- The regions of the lines of a template. -/
def segment (lines : List SourceLine) : Except Error (List Region) :=
  segmentFrom .between lines

end MessageCatalog
