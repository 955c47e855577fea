import MessageCatalog.Text.Numeral
import MessageCatalog.Wire.Value

/-!
# Decoding

Bytes are read from a source that delivers some bytes and then fails. A read that needs more than the source has takes
what there is and fails with the fault of the source, and the error names the place of what was being read.
-/

namespace MessageCatalog.Wire

/-- Why a source delivers no more. -/
inductive SourceFault where
  | ended
  | broken (reason : String)
  deriving DecidableEq, Repr, Inhabited

/-- The fault in words. -/
def SourceFault.message : SourceFault → String
  | ended => "failed to fill whole buffer"
  | broken reason => reason

/-- A source: the bytes it still delivers, and how it fails behind them. -/
structure Source where
  pending : Bytes
  fault : SourceFault
  deriving DecidableEq, Repr, Inhabited

/-- Why a message cannot be read. -/
inductive ReadError where
  /-- The source failed inside a block or field. -/
  | field (place : String) (fault : SourceFault)
  /-- The source failed inside the identifier. -/
  | source (fault : SourceFault)
  | unknownNumber (number : Nat)
  /-- The message has no codec. -/
  | unsupported (message : String)
  deriving DecidableEq, Repr, Inhabited

/-- The error in words. -/
def ReadError.message : ReadError → String
  | field place fault => s!"reading `{place}`: {fault.message}"
  | source fault => s!"IO: {fault.message}"
  | unknownNumber number => s!"unknown message number {Numeral.hex number}"
  | unsupported message => s!"message `{message}` is not supported by this build"

/-- The place that was being read when the source failed. -/
def ReadError.field? : ReadError → Option String
  | field place _ => some place
  | _ => none

/-- A computation that takes bytes from a source and may fail with its fault. -/
abbrev Take (α : Type) := EStateM SourceFault Source α

/-- A computation that reads a part of a message from a source. -/
abbrev Decoder (α : Type) := EStateM ReadError Source α

/-- Takes a number of bytes. No bytes can always be taken. -/
def take (count : Nat) : Take Bytes := fun s =>
  let front := s.pending.take count
  if front.length = count then .ok front { s with pending := s.pending.drop count }
  else .error s.fault { s with pending := [] }

/-- Takes a little-endian number of some bytes. -/
def takeNumber (width : Nat) : Take Nat := do
  return ofLittleEndian (← take width)

/-- Takes some little-endian numbers one after the other. -/
def takeNumbers (width : Nat) : (count : Nat) → Take (List Nat)
  | 0 => return []
  | count + 1 => do
    let n ← takeNumber width
    let rest ← takeNumbers width count
    return n :: rest

/-- Takes a value of a layout. A quaternion has its imaginary parts on the wire and comes with the real part one; a truth value
is true for the byte 1 alone. -/
def takeValue : Layout → Take FieldValue
  | .unsigned width => do
    return .unsigned (← takeNumber width)
  | .signed width => do
    return .signed (ofTwosComplement width (← takeNumber width))
  | .words width count => do
    return .words (← takeNumbers width count)
  | .rotation => do
    let i ← takeNumber 4
    let j ← takeNumber 4
    let k ← takeNumber 4
    return .rotation ⟨oneBits, UInt32.ofNat i, UInt32.ofNat j, UInt32.ofNat k⟩
  | .flag => do
    return .flag ((← takeNumber 1) == 1)
  | .counted width => do
    let length ← takeNumber width.size
    return .bytes (← take length)
  | .raw size => do
    return .bytes (← take size)

/-- Takes something at a place, which a failure names. -/
def within {α : Type} (place : String) (taking : Take α) : Decoder α := fun s =>
  match taking s with
  | .ok a rest => .ok a rest
  | .error fault rest => .error (.field place fault) rest

/-- Reads a number of things one after the other. -/
def decodeMany {α : Type} (decoder : Decoder α) : (count : Nat) → Decoder (List α)
  | 0 => return []
  | count + 1 => do
    let a ← decoder
    let rest ← decodeMany decoder count
    return a :: rest

/-- Reads the values of some fields of a block. -/
def decodeFields (b : Block) : List Field → Decoder Record
  | [] => return []
  | f :: fields => do
    let v ← within (b.fieldPath f) (takeValue f.type.layout)
    let values ← decodeFields b fields
    return v :: values

/-- Reads the records of a block. -/
def decodeBlock (b : Block) : Decoder (List Record) :=
  match b.quantity with
  | .single => decodeMany (decodeFields b b.fields) 1
  | .multiple count => decodeMany (decodeFields b b.fields) count
  | .varying => do
    let count ← within b.path (takeNumber 1)
    decodeMany (decodeFields b b.fields) count

/-- Reads the body of a message, behind its identifier. -/
def decodeBlocks : List Block → Decoder Body
  | [] => return []
  | b :: blocks => do
    let records ← decodeBlock b
    let body ← decodeBlocks blocks
    return records :: body

/-- Takes an identifier and returns its number. A byte other than 0xFF is a number by itself; behind one 0xFF stands one
byte more, behind two stand two. -/
def takeMessageNumber : Take Nat := do
  let first ← takeNumber 1
  if first ≠ 0xFF then return first
  let second ← takeNumber 1
  if second ≠ 0xFF then return 0xFF00 + second
  let rest ← take 2
  return 0xFFFF0000 + bigEndian rest

end MessageCatalog.Wire
