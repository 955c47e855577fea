import MessageCatalog.FieldType
import MessageCatalog.Frequency

/-!
# Templates

A template is a version tag and a list of messages; a message is a header and a list of blocks; a block is a repeated group of
fields. Every part keeps the line of the source it was declared on.
-/

namespace MessageCatalog

/-- A field of a block. -/
structure Field where
  name : String
  type : FieldType
  line : Nat
  deriving DecidableEq, Repr, Inhabited

/-- How often the records of a block stand in a message: once, a declared number of times, or as often as a count says that is
sent along. -/
inductive Quantity where
  | single
  | multiple (count : Nat)
  | varying
  deriving DecidableEq, Repr, Inhabited

/-- A named group of fields. The block keeps the name of the message it belongs to. -/
structure Block where
  name : String
  quantity : Quantity
  fields : List Field
  message : String
  line : Nat
  deriving DecidableEq, Repr, Inhabited

/-- A message of the protocol. -/
structure Message where
  name : String
  frequency : Frequency
  id : Nat
  trust : String
  encoding : String
  deprecation : Option String
  blocks : List Block
  line : Nat
  deriving DecidableEq, Repr, Inhabited

/-- A version tag and the messages in the order of their declaration. -/
structure Template where
  version : String
  messages : List Message
  deriving DecidableEq, Repr, Inhabited

/-- The largest number of bytes a size is counted to. -/
def maxSize : Nat := UInt64.size - 1

/-- Addition that stays at the largest size instead of going beyond it. -/
def addSizes (a b : Nat) : Nat :=
  min (a + b) maxSize

/-- Multiplication that stays at the largest size instead of going beyond it. -/
def scaleSize (a n : Nat) : Nat :=
  min (a * n) maxSize

namespace Block

/-- The number of records a multiple block declares. -/
def repeatCount? (b : Block) : Option Nat :=
  match b.quantity with
  | .multiple n => some n
  | _ => none

/-- The least number of bytes of one record. -/
def fixedSize (b : Block) : Nat :=
  b.fields.foldl (fun acc f => addSizes acc f.type.minSize) 0

/-- The place of a block in error reports: its message and its name. -/
def path (b : Block) : String :=
  b.message ++ "." ++ b.name

/-- The place of a field of the block in error reports. -/
def fieldPath (b : Block) (f : Field) : String :=
  b.message ++ "." ++ b.name ++ "." ++ f.name

/-- The least number of bytes of all records of the block with their count. -/
def minSize (b : Block) : Nat :=
  match b.quantity with
  | .single => b.fixedSize
  | .multiple n => scaleSize b.fixedSize n
  | .varying => 1

end Block

namespace Message

/-- The bytes in front of the message on the wire. -/
def identifier (m : Message) : List UInt8 :=
  m.frequency.identifier m.id

/-- The identifier read as a big-endian number: what tells messages apart on the wire. -/
def number (m : Message) : Nat :=
  bigEndian m.identifier

/-- The fields of the message, block by block. -/
def fields (m : Message) : List Field :=
  m.blocks.flatMap (·.fields)

/-- The number of fields in all blocks. -/
def fieldCount (m : Message) : Nat :=
  m.fields.length

/-- The least number of bytes of the message with its identifier. -/
def sizeHint (m : Message) : Nat :=
  addSizes (m.blocks.foldl (fun acc b => addSizes acc b.minSize) 0) m.identifier.length

/-- The first tag among those of its fields that is disabled: one that there is no codec for. -/
def disabledTag? (disabled : List String) (m : Message) : Option String :=
  (m.fields.map (·.type.tag)).find? disabled.contains

end Message

/-- The first message of the name. -/
def Template.message? (t : Template) (name : String) : Option Message :=
  t.messages.find? (·.name == name)

end MessageCatalog
