import MessageCatalog.Wire.Value

/-!
# Encoding

A message is written as its identifier and its blocks, a block of varying length behind the count of its records, and the fields
of every record in order. Encoding stops at the first value that the wire cannot hold; what stands before it has been written.
-/

namespace MessageCatalog.Wire

/-- Why a message cannot be written. -/
inductive WriteError where
  /-- The sink takes no more. -/
  | sinkFull
  | tooManyRecords (block : String) (count : Nat)
  | variableTooLong (field : String) (length max : Nat)
  | degenerateQuaternion (field : String)
  /-- The message has no codec. -/
  | unsupported (message : String)
  /-- A value that is not of its declared type. -/
  | illTyped (place : String)
  deriving DecidableEq, Repr, Inhabited

/-- The error in words. -/
def WriteError.message : WriteError → String
  | sinkFull => "IO: failed to write whole buffer"
  | tooManyRecords block count => s!"variable block `{block}` has {count} records, at most 255 fit the count byte"
  | variableTooLong field length max =>
    s!"variable field `{field}` is {length} bytes long, the length prefix allows {max}"
  | degenerateQuaternion field => s!"quaternion field `{field}` has zero norm and cannot be normalized"
  | unsupported message => s!"message `{message}` is not supported by this build"
  | illTyped place => s!"value of `{place}` is not of its declared type"

/-- What an encoder has written, and why it stopped if it did. -/
structure Emission where
  bytes : Bytes
  fault : Option WriteError
  deriving DecidableEq, Repr, Inhabited

namespace Emission

/-- Some bytes written without a fault. -/
def wrote (bytes : Bytes) : Emission := ⟨bytes, none⟩

/-- A stop before anything was written. -/
def stopped (error : WriteError) : Emission := ⟨[], some error⟩

/-- One emission and then another, unless the first one stopped. -/
def andThen (first second : Emission) : Emission :=
  match first.fault with
  | some _ => first
  | none => ⟨first.bytes ++ second.bytes, second.fault⟩

instance : Append Emission := ⟨andThen⟩

/-- Emissions one after the other up to the first stop. -/
def sequence : List Emission → Emission
  | [] => wrote []
  | e :: rest => e ++ sequence rest

/-- All bytes of an emission without a fault. -/
def toExcept (e : Emission) : Except WriteError Bytes :=
  match e.fault with
  | some error => .error error
  | none => .ok e.bytes

end Emission

/-- Writes a value of a layout. The place is that of the field. -/
def encodeValue (place : String) : Layout → FieldValue → Emission
  | .unsigned width, .unsigned n => .wrote (littleEndian width n)
  | .signed width, .signed z => .wrote (littleEndian width (toTwosComplement width z))
  | .words width _, .words patterns => .wrote (patterns.flatMap (littleEndian width))
  | .rotation, .rotation q =>
    match q.normalize? with
    | some unit => .wrote ([unit.i, unit.j, unit.k].flatMap fun part => littleEndian 4 part.toNat)
    | none => .stopped (.degenerateQuaternion place)
  | .flag, .flag b => .wrote [if b then 1 else 0]
  | .counted width, .bytes content =>
    if content.length ≤ width.maxLength then .wrote (littleEndian width.size content.length ++ content)
    else .stopped (.variableTooLong place content.length width.maxLength)
  | .raw _, .bytes content => .wrote content
  | _, _ => .stopped (.illTyped place)

/-- Writes the values of some fields of a block. -/
def encodeFields (b : Block) : List Field → Record → Emission
  | [], [] => .wrote []
  | f :: fields, v :: values => encodeValue (b.fieldPath f) f.type.layout v ++ encodeFields b fields values
  | _, _ => .stopped (.illTyped b.path)

/-- The largest number of records of a block of varying length. -/
def maxRecords : Nat := 255

/-- Writes the records of a block. -/
def encodeBlock (b : Block) (records : List Record) : Emission :=
  let body := Emission.sequence (records.map (encodeFields b b.fields))
  match b.quantity with
  | .varying =>
    if records.length ≤ maxRecords then .wrote [UInt8.ofNat records.length] ++ body
    else .stopped (.tooManyRecords b.path records.length)
  | _ => body

/-- Writes the blocks of a message. -/
def encodeBlocks (message : String) : List Block → Body → Emission
  | [], [] => .wrote []
  | b :: blocks, records :: body => encodeBlock b records ++ encodeBlocks message blocks body
  | _, _ => .stopped (.illTyped message)

/-- Writes a message of some body. -/
def encodeMessage (m : Message) (body : Body) : Emission :=
  .wrote m.identifier ++ encodeBlocks m.name m.blocks body

/-- What a buffer holds when a message has been encoded onto it, and the error if that failed. -/
def encodeOnto (buffer : Bytes) (m : Message) (body : Body) : Bytes × Option WriteError :=
  let e := encodeMessage m body
  (buffer ++ e.bytes, e.fault)

/-- The bytes of a message of some body. -/
def toBytes (m : Message) (body : Body) : Except WriteError Bytes :=
  (encodeMessage m body).toExcept

end MessageCatalog.Wire
