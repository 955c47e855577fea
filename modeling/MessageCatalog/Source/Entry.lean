import MessageCatalog.Error
import MessageCatalog.Naming
import MessageCatalog.Source.Line
import MessageCatalog.Template

/-!
# Headers and fields

Each line of a message region declares one thing: a message, a block or a field. A line is scanned into its parts, and the parts
are checked in a fixed order, so that a line with several faults has one error.
-/

namespace MessageCatalog

/-- Scans a line of some kind. -/
def SourceLine.scan {α : Type} (l : SourceLine) (kind : LineKind) (scan : Scan α) : Except Error α :=
  match scan.read l.text with
  | .ok parts => .ok parts
  | .error mismatch => .error (.located l.number (.malformed kind l.text mismatch))

/-- The message a header declares from its parts, still without blocks. -/
def MessageParts.toMessage (parts : MessageParts) (line : Nat) : Except Error Message :=
  if Naming.isReserved parts.name then .error (.located line (.reservedName parts.name))
  else match Frequency.ofName? parts.frequency with
  | none => .error (.located line (.unsupportedFrequency parts.name parts.frequency))
  | some frequency => match Numeral.read parts.id.toList with
    | none => .error (.located line (.idOutOfRange parts.id))
    | some id =>
      if id < frequency.minId then .error (.located line (.idTooSmall parts.id frequency))
      else if frequency.maxId < id then .error (.located line (.idTooLarge parts.id frequency))
      else .ok ⟨parts.name, frequency, id, parts.trust, parts.encoding, parts.deprecation, [], line⟩

/-- The message a header line declares, still without blocks. -/
def SourceLine.toMessage (l : SourceLine) : Except Error Message := do
  let parts ← l.scan .messageHeader Scan.messageHeader
  parts.toMessage l.number

/-- The words for quantities, read in any ASCII case. -/
inductive QuantityWord where
  | single
  | multiple
  | varying
  deriving DecidableEq, Repr, Inhabited

/-- The quantity a word names. -/
def QuantityWord.ofName? (word : String) : Option QuantityWord :=
  match String.ofList (word.toList.map Char.toLower) with
  | "single" => some single
  | "multiple" => some multiple
  | "variable" => some varying
  | _ => none

/-- The number an optional numeral stands for; an error when there is one out of range. -/
def optionalNumber (numeral : Option String) (fault : String → Error) : Except Error (Option Nat) :=
  match numeral with
  | none => .ok none
  | some text => match Numeral.read text.toList with
    | none => .error (fault text)
    | some n => .ok (some n)

/-- The quantity a block header declares by a word and perhaps a count. -/
def BlockParts.toQuantity (parts : BlockParts) (count : Option Nat) (line : Nat) : Except Error Quantity :=
  match QuantityWord.ofName? parts.quantity, count with
  | none, _ => .error (.located line (.unsupportedQuantity parts.name parts.quantity))
  | some .single, none => .ok .single
  | some .varying, none => .ok .varying
  | some .multiple, none => .error (.located line (.missingRepeatCount parts.name))
  | some .multiple, some n =>
    if maxRepeatCount < n then .error (.located line (.tooManyRepeats parts.name n))
    else if n = 0 then .error (.located line (.missingRepeatCount parts.name))
    else .ok (.multiple n)
  | some _, some _ => .error (.located line (.needlessRepeatCount parts.quantity parts.name))

/-- The block a header line declares in a message, still without fields. -/
def SourceLine.toBlock (l : SourceLine) (message : String) : Except Error Block := do
  let parts ← l.scan .blockHeader Scan.blockHeader
  let count ← optionalNumber parts.count fun numeral => .located l.number (.repeatCountOutOfRange numeral)
  let quantity ← parts.toQuantity count l.number
  return ⟨parts.name, quantity, [], message, l.number⟩

/-- Checks the size of a fixed field; other types have none to check. -/
def checkFixedSize (field : String) (line : Nat) : FieldType → Except Error Unit
  | .fixed size =>
    if size = 0 then .error (.located line (.emptyFixedField field))
    else if maxFixedSize < size then .error (.located line (.fixedFieldTooLong field size))
    else .ok ()
  | _ => .ok ()

/-- The field a line declares. -/
def SourceLine.toField (l : SourceLine) : Except Error Field := do
  let parts ← l.scan .fieldLine Scan.fieldLine
  let count ← optionalNumber parts.count fun numeral => .located l.number (.fieldCountOutOfRange numeral)
  match FieldType.ofTag? parts.type (count.getD 0) with
  | none => .error (.located l.number (.unknownType parts.type parts.name))
  | some type =>
    checkFixedSize parts.name l.number type
    return ⟨parts.name, type, l.number⟩

end MessageCatalog
