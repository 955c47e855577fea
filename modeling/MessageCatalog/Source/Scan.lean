import MessageCatalog.Text.Numeral

/-!
# Scanning a line

A line is read part by part from the left. Spaces and tabs between parts are skipped. A part is an identifier, a numeral
or a run of characters; an optional part that is not there is passed over. When a part that has to be there is not, the
scan stops and reports the place and everything that could have stood there, the optional parts passed over at that
place included.
-/

namespace MessageCatalog

/-- What a scan may look for at a place in a line. -/
inductive Expectation where
  | ending
  | ident
  | number
  | token
  deriving DecidableEq, Repr, Inhabited

namespace Expectation

/-- The word for the expectation in error reports. -/
def name : Expectation → String
  | ending => "EOI"
  | ident => "ident"
  | number => "number"
  | token => "token"

/-- All expectations, in the order in which reports list them. -/
def all : List Expectation :=
  [ending, ident, number, token]

/-- Some expectations in the order of reports, each once. -/
def sorted (expected : List Expectation) : List Expectation :=
  all.filter expected.contains

/-- A list of alternatives in words: `A`, `A or B`, `A, B, or C`. -/
def alternatives : List String → String
  | [] => ""
  | [a] => a
  | [a, b] => a ++ " or " ++ b
  | names => String.intercalate ", " names.dropLast ++ ", or " ++ (names.getLast?.getD "")

/-- The expectations in words. -/
def describe (expected : List Expectation) : String :=
  alternatives ((sorted expected).map name)

end Expectation

/-- Why a scan stopped: the number of characters in front of the place, and what was looked for there. -/
structure Mismatch where
  offset : Nat
  expected : List Expectation
  deriving DecidableEq, Repr, Inhabited

/-- The column of the place in a text, counted from 1 in characters since the last line feed. -/
def Mismatch.column (m : Mismatch) (text : String) : Nat :=
  ((text.toList.take m.offset).reverse.takeWhile (· != '\n')).length + 1

namespace Scan

/-- The blanks that separate parts of a line. -/
def isSpace (c : Char) : Bool :=
  c = ' ' || c = '\t'

/-- Whether an identifier of a template may start with the character. -/
def isIdentStart (c : Char) : Bool :=
  c.isAlpha || c = '_'

/-- Whether an identifier of a template may go on with the character. -/
def isIdentPart (c : Char) : Bool :=
  c.isAlphanum || c = '_'

/-- Whether an identifier or a numeral may end in front of a text: at a space, a tab, a closing brace or the end. -/
def atBoundary : List Char → Bool
  | [] => true
  | c :: _ => isSpace c || c = '}'

/-- A part found at the front of a text, and the text behind it. -/
abbrev Found := List Char × List Char

/-- Keeps what was found only if it ends at a boundary. -/
def bounded (found : Found) : Option Found :=
  if atBoundary found.2 then some found else none

/-- The non-empty row of characters of a class at the front of a text. -/
def row? (inClass : Char → Bool) (text : List Char) : Option Found :=
  if (text.takeWhile inClass).isEmpty then none else some (text.takeWhile inClass, text.dropWhile inClass)

/-- The identifier at the front of a text. -/
def ident? : List Char → Option Found
  | [] => none
  | c :: rest => if isIdentStart c then bounded (c :: rest.takeWhile isIdentPart, rest.dropWhile isIdentPart) else none

/-- The hexadecimal numeral at the front of a text, whatever follows. -/
def hexadecimal? : List Char → Option Found
  | '0' :: mark :: rest =>
    if mark = 'x' ∨ mark = 'X' then (row? Numeral.isHexadecimal rest).map fun found => ('0' :: mark :: found.1, found.2) else none
  | _ => none

/-- The numeral at the front of a text: hexadecimal if it is one, decimal otherwise. -/
def number? (text : List Char) : Option Found :=
  match hexadecimal? text with
  | some found => bounded found
  | none => (row? Numeral.isDecimal text).bind bounded

/-- The run of characters up to the next space or tab. -/
def token? (text : List Char) : Option Found :=
  row? (fun c => !isSpace c) text

/-- Where a scan stands: the text to come, the number of characters behind, and the optional parts that were looked for at this
very place and are not there. -/
structure Cursor where
  rest : List Char
  offset : Nat
  missed : List Expectation
  deriving DecidableEq, Repr, Inhabited

end Scan

/-- A computation that reads a line from the left. -/
abbrev Scan (α : Type) := StateT Scan.Cursor (Except Mismatch) α

namespace Scan

/-- The cursor behind the spaces and tabs at its place. -/
def Cursor.skip (c : Cursor) : Cursor :=
  if (c.rest.takeWhile isSpace).isEmpty then c
  else ⟨c.rest.dropWhile isSpace, c.offset + (c.rest.takeWhile isSpace).length, []⟩

/-- Looks for a part behind the blanks. A part that is not there is noted as missed, and the cursor stays. -/
def optional (expected : Expectation) (part? : List Char → Option Found) : Scan (Option String) := fun cursor =>
  let c := cursor.skip
  match part? c.rest with
  | some found => .ok (some (String.ofList found.1), ⟨found.2, c.offset + found.1.length, []⟩)
  | none => .ok (none, { c with missed := c.missed ++ [expected] })

/-- Looks for a part that has to be there. -/
def require (expected : Expectation) (part? : List Char → Option Found) : Scan String := do
  match ← optional expected part? with
  | some text => return text
  | none => fun c => .error ⟨c.offset, c.missed⟩

/-- An identifier that has to be there. -/
def ident : Scan String := require .ident ident?

/-- A numeral that has to be there. -/
def number : Scan String := require .number number?

/-- A run of characters that has to be there. -/
def token : Scan String := require .token token?

/-- The end of the line, behind blanks. -/
def ending : Scan Unit := fun cursor =>
  let c := cursor.skip
  if c.rest.isEmpty then .ok ((), c) else .error ⟨c.offset, c.missed ++ [.ending]⟩

/-- The opening brace of a field line. -/
def openingBrace : Scan Unit := fun cursor =>
  let c := cursor.skip
  match c.rest with
  | '{' :: rest => .ok ((), ⟨rest, c.offset + 1, []⟩)
  | _ => .error ⟨c.offset, c.missed⟩

/-- Reads a whole text. -/
def read {α : Type} (scan : Scan α) (text : String) : Except Mismatch α :=
  (scan.run ⟨text.toList, 0, []⟩).map (·.1)

end Scan

/-- The parts of a message header as they are written. -/
structure MessageParts where
  name : String
  frequency : String
  id : String
  trust : String
  encoding : String
  deprecation : Option String
  deriving DecidableEq, Repr, Inhabited

/-- The parts of a block header as they are written. -/
structure BlockParts where
  name : String
  quantity : String
  count : Option String
  deriving DecidableEq, Repr, Inhabited

/-- The parts of a field line as they are written. The flag, in practice the closing brace, has no meaning. -/
structure FieldParts where
  name : String
  type : String
  count : Option String
  flag : Option String
  deriving DecidableEq, Repr, Inhabited

namespace Scan

/-- A message header: name, frequency, id, trust and encoding, and at most one word more. -/
def messageHeader : Scan MessageParts := do
  let name ← ident
  let frequency ← ident
  let id ← number
  let trust ← token
  let encoding ← token
  let deprecation ← optional .token token?
  ending
  return ⟨name, frequency, id, trust, encoding, deprecation⟩

/-- A block header: name, quantity, and perhaps a count. -/
def blockHeader : Scan BlockParts := do
  let name ← ident
  let quantity ← ident
  let count ← optional .number number?
  ending
  return ⟨name, quantity, count⟩

/-- A field line: a brace, name, type, perhaps a count, and perhaps a flag. -/
def fieldLine : Scan FieldParts := do
  openingBrace
  let name ← ident
  let type ← ident
  let count ← optional .number number?
  let flag ← optional .token token?
  ending
  return ⟨name, type, count, flag⟩

/-- Whether a text starts with the word `version` in any ASCII case and a blank behind it. -/
def startsWithVersion (text : List Char) : Bool :=
  (text.take 7).map Char.toLower == "version".toList && (text.drop 7).head?.any isSpace

/-- The version tag of a version line: all of it behind the word `version`, if the line starts with it. -/
def versionTag (text : String) : String :=
  let line := text.toList.dropWhile isSpace
  String.ofList (if startsWithVersion line then (line.drop 7).dropWhile isSpace else line)

end Scan

end MessageCatalog
