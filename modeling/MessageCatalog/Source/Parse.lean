import MessageCatalog.Source.Entry
import MessageCatalog.Source.Region
import MessageCatalog.Uniqueness

/-!
# Reading a template

A region becomes a message: its first line is the header, and of the later lines those that are lone braces say nothing, those
that start with a brace are fields and the others head blocks. A field belongs to the block whose header stands before it.
-/

namespace MessageCatalog

/-- Block headers, each with the field lines up to the next header, behind the field lines that no header precedes. -/
structure BlockGroups where
  orphans : List SourceLine
  groups : List (SourceLine × List SourceLine)
  deriving DecidableEq, Repr, Inhabited

/-- Groups the lines of a region behind its header by block. -/
def groupBlocks : List SourceLine → BlockGroups
  | [] => ⟨[], []⟩
  | l :: rest =>
    let later := groupBlocks rest
    if l.isBrace then later
    else if l.startsWithBrace then ⟨l :: later.orphans, later.groups⟩
    else ⟨[], (l, later.orphans) :: later.groups⟩

/-- The block that a header and its field lines declare in a message. -/
def readBlock (message : String) (group : SourceLine × List SourceLine) : Except Error Block := do
  let block ← group.1.toBlock message
  let fields ← group.2.mapM SourceLine.toField
  return { block with fields }

/-- The message that a region declares. -/
def Region.toMessage (region : Region) : Except Error Message :=
  match region.lines with
  | [] => .error (.located region.openLine .emptyRegion)
  | header :: body => do
    let message ← header.toMessage
    let grouped := groupBlocks body
    match grouped.orphans with
    | orphan :: _ => .error (.located orphan.number .fieldBeforeBlock)
    | [] =>
      let blocks ← grouped.groups.mapM (readBlock message.name)
      return { message with blocks }

/-- The messages that the lines behind the version line declare. -/
def readMessages (lines : List SourceLine) : Except Error (List Message) := do
  let regions ← segment lines
  regions.mapM Region.toMessage

/-- The version line of a source and the lines behind it. -/
structure Normalized where
  version : SourceLine
  lines : List SourceLine
  deriving DecidableEq, Repr, Inhabited

/-- The significant lines of a source, the first of which is its version line. -/
def normalize (source : String) : Except Error Normalized :=
  match significantLines source with
  | [] => .error (.located 0 .emptyTemplate)
  | version :: lines => .ok ⟨version, lines⟩

/-- The template that a source declares. -/
def parse (source : String) : Except Error Template := do
  let normalized ← normalize source
  let messages ← readMessages normalized.lines
  let template : Template := ⟨Scan.versionTag normalized.version.text, messages⟩
  template.checkUnique
  return template

end MessageCatalog
