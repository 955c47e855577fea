import MessageCatalog.Proofs.Code.BlockCodecs

/-!
# The codecs of messages in generated code

The record type of a message holds its blocks, and its codec has the constants of the message, a function that writes it
and one that reads it. All their tokens are recognized. How a block is written and read has to go with the type that
holds its records. The codecs of the record types of blocks are left open in a run: if they are those of the blocks, the
message is written as its encoding, and what is read is its body.
-/

namespace MessageCatalog

open Wire (Body Decoder Emission Record)

/-- A field of the record type of a message: the type of its records, and how many there are. -/
structure HeldBlock where
  name : String
  type : String
  quantity : Quantity
  deriving DecidableEq, Repr

/-- The constants of the codec of a message. -/
structure MessageConstants where
  name : String
  number : Nat
  frequency : String
  identifier : List Nat
  deriving DecidableEq, Repr

/-- A statement that writes a block. -/
inductive BlockWrite where
  /-- Writes the one record that is held. -/
  | one (field : String)
  /-- Writes every record that is held. -/
  | each (field : String)
  /-- Fails for records that are too many, and names their place; otherwise writes their number and every one of them. -/
  | counted (field place : String)
  deriving DecidableEq, Repr

/-- How the records of a block are read. -/
inductive RecordReads where
  | one
  | array (count : Nat)
  /-- Reads a number, and as many records. A failure in the number names the place. -/
  | counted (place : String)
  deriving DecidableEq, Repr

/-- What reads a block: the field it is for, the type of its records, and how they are read. -/
structure BlockRead where
  field : String
  type : String
  records : RecordReads
  deriving DecidableEq, Repr

/-- The codec of a message. -/
structure MessageCodec where
  constants : MessageConstants
  /-- The number of bytes that the buffer is given room for. -/
  reserved : Nat
  writes : List BlockWrite
  reads : List BlockRead
  deriving DecidableEq, Repr

/-- The records that a field holds, and what the codec of their type writes for one of them. -/
structure HeldRecords where
  records : List Record
  encode : Record → Emission

/-- What all records of a field are written as. -/
def HeldRecords.encodeAll (h : HeldRecords) : Emission :=
  .sequence (h.records.map h.encode)

/-- What a statement writes for the records that some fields hold. -/
def BlockWrite.run (held : String → Option HeldRecords) : BlockWrite → Option Emission
  | one field => do
    let h ← held field
    if h.records.length = 1 then some h.encodeAll else none
  | each field => do
    return (← held field).encodeAll
  | counted field place => do
    let h ← held field
    if h.records.length ≤ Wire.maxRecords then return .wrote [UInt8.ofNat h.records.length] ++ h.encodeAll
    else return .stopped (.tooManyRecords place h.records.length)

/-- What statements write one after the other. -/
def runBlockWrites (held : String → Option HeldRecords) : List BlockWrite → Option Emission
  | [] => some (.wrote [])
  | statement :: rest => do
    return (← statement.run held) ++ (← runBlockWrites held rest)

/-- The records that are read, if those of a type are read in some way. -/
def BlockRead.run (readers : String → Decoder Record) (read : BlockRead) : Decoder (List Record) :=
  match read.records with
  | .one => Wire.decodeMany (readers read.type) 1
  | .array count => Wire.decodeMany (readers read.type) count
  | .counted place => do
    let count ← Wire.within place (Wire.takeNumber 1)
    Wire.decodeMany (readers read.type) count

/-- The blocks that are read one after the other. -/
def runBlockReads (readers : String → Decoder Record) : List BlockRead → Decoder Body
  | [] => return []
  | read :: rest => do
    let records ← read.run readers
    let body ← runBlockReads readers rest
    return records :: body

/-- What a codec writes: the identifier and the blocks. -/
def MessageCodec.encode? (codec : MessageCodec) (held : String → Option HeldRecords) : Option Emission := do
  return .wrote (codec.constants.identifier.map UInt8.ofNat) ++ (← runBlockWrites held codec.writes)

/-- Whether a codec is that of a message whose blocks have record types of some names. It has the constants of the
message, and as soon as the record types have the codecs of the blocks, it writes every body of the message as its
encoding and reads such bodies. -/
structure MessageCodec.Realizes (codec : MessageCodec) (typeName : Block → String) (m : Message) : Prop where
  constants : codec.constants = ⟨m.name, m.number, m.frequency.name, m.identifier.map UInt8.toNat⟩
  reserved : codec.reserved = m.sizeHint
  writes : ∀ (held : String → Option HeldRecords) (body : Body), Wire.BodyFits m.blocks body →
    List.Forall₂ (fun b records => held b.name = some ⟨records, Wire.encodeFields b b.fields⟩) m.blocks body →
    codec.encode? held = some (Wire.encodeMessage m body)
  names : codec.reads.map (·.field) = m.blocks.map (·.name)
  reads : ∀ readers : String → Decoder Record, (∀ b ∈ m.blocks, readers (typeName b) = Wire.decodeFields b b.fields) →
    runBlockReads readers codec.reads = Wire.decodeBlocks m.blocks

/-- The field of the record type of a message that holds a block. -/
def HeldBlock.of (g : Generator) (b : Block) : HeldBlock :=
  ⟨b.name, g.blockTypeName b, b.quantity⟩

/-- The statement that writes a block. -/
def BlockWrite.of (b : Block) : BlockWrite :=
  match b.quantity with
  | .single => .one b.name
  | .multiple _ => .each b.name
  | .varying => .counted b.name b.path

/-- What reads a block. -/
def BlockRead.of (g : Generator) (b : Block) : BlockRead :=
  ⟨b.name, g.blockTypeName b, match b.quantity with
    | .single => .one
    | .multiple count => .array count
    | .varying => .counted b.path⟩

namespace Recognizer

open Code (of word paren bracket brace)

/-- Takes pieces of code with commas between them. -/
def separated (r : Recognizer α) : Recognizer (List α) :=
  (do
    let first ← r
    let rest ← many do
      expect (word ",")
      r
    return first :: rest) <|>
  pure []

/-- Takes the type and the number of an array of records. -/
def arrayType : Recognizer (String × Nat) := do
  let type ← name .type
  expect (word ";")
  return (type, ← number)

/-- Takes a type that holds records: their own type, an array or a vector. -/
def holdingType : Recognizer (String × Quantity) :=
  (do
    return (← name .type, .single)) <|>
  (do
    let (type, count) ← inside .bracket arrayType
    return (type, .multiple count)) <|>
  (do
    expect (of "Vec <")
    let type ← name .type
    expect (word ">")
    return (type, .varying))

/-- Takes a field of the record type of a message. -/
def heldBlock : Recognizer HeldBlock := do
  expect (word "pub")
  let field ← name .field
  expect (word ":")
  let (type, quantity) ← holdingType
  expect (word ",")
  return ⟨field, type, quantity⟩

/-- Takes the constants of the codec of a message. -/
def constants (runtime : Code) : Recognizer MessageConstants := do
  expect (of "const NAME : & 'static str =")
  let name ← literal
  expect (word ";" ++ of "const NUMBER : u32 =")
  let n ← number
  expect (word ";" ++ of "const FREQUENCY :" ++ runtime ++ of ":: Frequency =" ++ runtime ++ of ":: Frequency ::")
  let frequency ← atom
  expect (word ";" ++ of "const ID_BYTES : & 'static" ++ bracket (word "u8") ++ of "= &")
  let identifier ← inside .bracket (separated number)
  expect (word ";")
  return ⟨name, n, frequency, identifier⟩

/-- Takes the arguments that write the record of a field. -/
def recordArguments : Recognizer String := do
  expect (word "&")
  let field ← selfField
  expect (of ", buffer")
  return field

/-- Takes the statement that writes the record of a field. -/
def writeOne (runtime : Code) : Recognizer String := do
  expect (runtime ++ of ":: Block :: encode")
  let field ← inside .paren recordArguments
  expect (of "? ;")
  return field

/-- Takes the loop that writes every record of a field. -/
def writeEach (runtime : Code) : Recognizer String := do
  expect (of "for record in &")
  let field ← selfField
  inside .brace (expect (runtime ++ of ":: Block :: encode" ++ paren (of "record , buffer") ++ of "? ;"))
  return field

/-- Takes the number of records of a field. -/
def recordCount : Recognizer String := do
  let field ← selfField
  expect (of ". len" ++ paren [])
  return field

/-- Takes the place of a block and the number of records of a field in an error. -/
def tooManyFields : Recognizer (String × String) := do
  expect (of "block :")
  let place ← literal
  expect (of ", count :")
  let field ← recordCount
  expect (word ",")
  return (place, field)

/-- Takes a function that gives the error for records that are too many. -/
def tooMany (runtime : Code) : Recognizer (String × String) := do
  expect (of "| _ |" ++ runtime ++ of ":: WriteError :: TooManyRecords")
  inside .brace tooManyFields

/-- Takes the statements that write the number of records of a field and all of them. The number that is tested,
reported and written is that of the field whose records are written. -/
def writeCounted (runtime : Code) : Recognizer BlockWrite := do
  expect (of "let count = u8 :: try_from")
  let counted ← inside .paren recordCount
  expect (of ". map_err")
  let (place, reported) ← inside .paren (tooMany runtime)
  expect (of "? ;" ++ of "buffer . push" ++ paren (word "count") ++ word ";")
  let field ← writeEach runtime
  if counted = field ∧ reported = field then return .counted field place else failure

/-- Takes the statement that writes a block, by the type that holds its records. -/
def blockWrite (runtime : Code) (h : HeldBlock) : Recognizer BlockWrite :=
  match h.quantity with
  | .single => do
    return .one (← writeOne runtime)
  | .multiple _ => do
    return .each (← writeEach runtime)
  | .varying => writeCounted runtime

/-- Takes an expression that reads a record of a type. -/
def readRecord (runtime : Code) : Recognizer String := do
  expect (word "<")
  let type ← name .type
  expect (word "as" ++ runtime ++ of ":: Block > :: read_from" ++ paren (word "source") ++ word "?")
  return type

/-- Takes an expression that reads an array of records of a type. -/
def readRecords (runtime : Code) : Recognizer (String × Nat) := do
  expect (runtime ++ of ":: read_records :: < _ ,")
  let type ← name .type
  expect (word ",")
  let count ← number
  expect (word ">" ++ paren (word "source") ++ word "?")
  return (type, count)

/-- Takes the statement that reads a record and keeps it. -/
def keepRecord (runtime : Code) : Recognizer String := do
  expect (of "records . push")
  let type ← inside .paren (readRecord runtime)
  expect (word ";")
  return type

/-- Takes the statements that read a number, and as many records of a type. -/
def readCountedRecords (runtime : Code) : Recognizer (String × String) := do
  expect (of "let count =")
  let (place, w) ← readAt runtime takeWord
  expect (word ";" ++ of "let mut records = Vec :: with_capacity" ++ paren (of "usize :: from" ++ paren (word "count")) ++
    word ";" ++ of "for _ in 0 .. count")
  let type ← inside .brace (keepRecord runtime)
  expect (word "records")
  if w = ⟨.unsigned, 1⟩ then return (place, type) else failure

/-- Takes what reads a block, by the type that holds its records. -/
def blockReads (runtime : Code) (h : HeldBlock) : Recognizer (String × RecordReads) :=
  match h.quantity with
  | .single => do
    return (← readRecord runtime, .one)
  | .multiple _ => do
    let (type, count) ← readRecords runtime
    return (type, .array count)
  | .varying => do
    let (place, type) ← inside .brace (readCountedRecords runtime)
    return (type, .counted place)

/-- Takes what reads a field of the record type of a message. -/
def blockRead (runtime : Code) (h : HeldBlock) : Recognizer BlockRead := do
  let field ← name .field
  expect (word ":")
  let (type, records) ← blockReads runtime h
  expect (word ",")
  return ⟨field, type, records⟩

/-- Takes the statements that write a message, with the number of bytes that they make room for. -/
def messageWrites (runtime : Code) (held : List HeldBlock) : Recognizer (Nat × List BlockWrite) := do
  expect (of "buffer . reserve")
  let reserved ← inside .paren number
  expect (word ";" ++ of "buffer . extend_from_slice" ++ paren (of "Self :: ID_BYTES") ++ word ";")
  return (reserved, ← held.mapM (blockWrite runtime))

/-- Takes the codec of a message, for a record type with some fields. -/
def messageCodec (runtime : Code) (held : List HeldBlock) : Recognizer MessageCodec := do
  let constants ← constants runtime
  let (buffer, reserved, writes) ← encodeFunction runtime (messageWrites runtime held)
  let (source, reads) ← readFunction runtime (held.mapM (blockRead runtime))
  if buffer = "buffer" ∧ source = (if reads.isEmpty then "_source" else "source") then return ⟨constants, reserved, writes, reads⟩
  else failure

/-! ### The code that is generated -/

/-- Pieces of code for the items of a list are taken one after the other. -/
theorem takes_mapM {ι : Type} {r : ι → Recognizer α} {items : List ι} {code : ι → Code} {a : ι → α}
    (h : ∀ item ∈ items, Takes (r item) (code item) (a item)) : Takes (items.mapM r) (Code.all items code) (items.map a) := by
  induction items with
  | nil => exact fun rest => rfl
  | cons item items ih =>
    obtain ⟨hitem, hitems⟩ := List.forall_mem_cons.mp h
    intro rest
    rw [List.mapM_cons, Code.all, List.flatMap_cons, List.append_assoc]
    simp [hitem _, show items.mapM r (List.flatMap code items ++ rest) = _ from ih hitems rest]

/-- Pieces of code with commas between them are a first one, and others with a comma in front. -/
theorem commaSeparated_cons (first : Code) (rest : List Code) :
    Code.commaSeparated (first :: rest) = first ++ Code.all rest fun code => word "," ++ code := by
  induction rest generalizing first with
  | nil => simp [Code.commaSeparated, Code.all]
  | cons second rest ih => simp [Code.commaSeparated, ih second, Code.all]

/-- Numbers with commas between them are recognized one by one. -/
theorem whole?_separated (numbers : List Nat) :
    whole? (separated number) (Code.commaSeparated (numbers.map Code.number)) = some numbers := by
  cases numbers with
  | nil => rfl
  | cons n numbers =>
    have hrest : TakesMany (do expect (word ","); number)
        (Code.all numbers fun n => word "," ++ Code.number n) (numbers.map id) :=
      takesMany_all (fun n _ rest => by simp) fun _ _ => by simp [word]
    have hall := hrest.many_eq (show (do expect (word ","); number : Recognizer Nat) [] = none from rfl)
    rw [List.append_nil, List.map_id] at hall
    apply whole?_of_eq
    rw [List.map_cons, commaSeparated_cons, Code.all, List.flatMap_map]
    simp [separated, show many _ (List.flatMap _ numbers) = _ from hall]

variable (g : Generator)

/-- The constants of a message are recognized. -/
theorem takes_constants (m : Message) : Takes (constants g.runtime) (g.messageConstants m)
    ⟨m.name, m.number, m.frequency.name, m.identifier.map UInt8.toNat⟩ := by
  have hidentifier : whole? (separated number) (Code.commaSeparated (m.identifier.map fun byte => Code.number byte.toNat)) =
      some (m.identifier.map UInt8.toNat) := by
    rw [← whole?_separated, List.map_map]
    rfl
  intro rest
  simp [constants, Generator.messageConstants, Generator.path, hidentifier]

/-- The type that holds the records of a block is recognized with the quantity of the block. -/
theorem takes_heldBlock (b : Block) :
    Takes heldBlock (word "pub" ++ Code.fieldWord b.name ++ word ":" ++ g.blockFieldType b ++ word ",")
    (.of g b) := by
  have htype : Takes holdingType (g.blockFieldType b) (g.blockTypeName b, b.quantity) := by
    intro rest
    cases hquantity : b.quantity with
    | single => simp [holdingType, Generator.blockFieldType, hquantity]
    | multiple count =>
      have hname (rest : Code) (body : Code) : name .type (bracket body ++ rest) = none := rfl
      have harray : whole? arrayType (Code.typeWord (g.blockTypeName b) ++ (word ";" ++ Code.number count)) =
          some (g.blockTypeName b, count) := by
        apply whole?_of_eq
        simp [arrayType]
      simp [holdingType, Generator.blockFieldType, hquantity, hname, harray]
    | varying =>
      have hname (rest : Code) : name .type (of "Vec <" ++ rest) = none := rfl
      have hgroup (rest : Code) : inside .bracket arrayType (of "Vec <" ++ rest) = none := rfl
      simp [holdingType, Generator.blockFieldType, hquantity, hname, hgroup]
  intro rest
  simp [heldBlock, htype _, HeldBlock.of]

/-- The loop that writes the records of a field is recognized. -/
theorem takes_writeEach (field : String) :
    Takes (writeEach g.runtime) (g.writeRecords (of "self ." ++ Code.fieldWord field)) field := by
  have hrecord : whole? (expect (g.runtime ++ of ":: Block :: encode" ++ paren (of "record , buffer") ++ of "? ;"))
      (g.path ":: Block :: encode" ++ paren (of "record , buffer") ++ of "? ;") = some () :=
    whole?_of_eq (expect_self _)
  intro rest
  rw [Generator.writeRecords, writeEach]
  simp only [List.append_assoc, bind_apply, expect_append, Option.bind_some, selfField, name_fieldWord, inside_brace]
  simp only [List.append_assoc] at hrecord
  simp only [hrecord]
  rfl

/-- The statements that write a block are recognized with the field that holds it, and its place if they count its records. -/
theorem takes_blockWrite (b : Block) : Takes (blockWrite g.runtime (.of g b)) (g.writeBlock b) (.of b) := by
  intro rest
  unfold HeldBlock.of BlockWrite.of
  cases hquantity : b.quantity with
  | single =>
    have hrecord : whole? recordArguments (word "&" ++ (of "self ." ++ (Code.fieldWord b.name ++ of ", buffer"))) =
        some b.name := by
      apply whole?_of_eq
      simp [recordArguments, selfField]
    simp [blockWrite, writeOne, Generator.writeBlock, Generator.path, hquantity, hrecord]
  | multiple count =>
    simp [blockWrite, Generator.writeBlock, hquantity, takes_writeEach g b.name _]
  | varying =>
    have hcount : Takes recordCount (of "self ." ++ (Code.fieldWord b.name ++ (of ". len" ++ paren []))) b.name := by
      intro rest
      simp [recordCount, selfField]
    -- the error stands in groups, so it is recognized from the inside out
    have hfields : whole? tooManyFields (of "block :" ++ (Code.literal b.path ++ (of ", count :" ++
        (of "self ." ++ (Code.fieldWord b.name ++ (of ". len" ++ (paren [] ++ word ","))))))) = some (b.path, b.name) := by
      apply whole?_of_eq
      simp [tooManyFields, recordCount, selfField]
    have herror : whole? (tooMany g.runtime) (of "| _ |" ++ (g.runtime ++ (of ":: WriteError :: TooManyRecords" ++
        brace (of "block :" ++ (Code.literal b.path ++ (of ", count :" ++
        (of "self ." ++ (Code.fieldWord b.name ++ (of ". len" ++ (paren [] ++ word ",")))))))))) = some (b.path, b.name) := by
      apply whole?_of_eq
      simp [tooMany, hfields]
    simp [blockWrite, writeCounted, Generator.writeBlock, Generator.path, hquantity, hcount.whole?_eq, herror,
      takes_writeEach g b.name _]

/-- An expression that reads a record of a block is recognized with its type. -/
theorem takes_readRecord (b : Block) : Takes (readRecord g.runtime) (g.readRecord b) (g.blockTypeName b) := by
  intro rest
  simp [readRecord, Generator.readRecord, Generator.path]

/-- What reads a block is recognized with the type of its records, and the place of their number if that is read. -/
theorem takes_blockRead (b : Block) : Takes (blockRead g.runtime (.of g b))
    (Code.fieldWord b.name ++ word ":" ++ g.readBlock b ++ word ",") (.of g b) := by
  intro rest
  unfold HeldBlock.of BlockRead.of
  cases hquantity : b.quantity with
  | single => simp [blockRead, blockReads, Generator.readBlock, hquantity, takes_readRecord g b _]
  | multiple count => simp [blockRead, blockReads, readRecords, Generator.readBlock, Generator.path, hquantity]
  | varying =>
    have hcount := takes_readAt g b.path (takes_takeWord_byte (show of "read_u8" = word "read_u8" from rfl)
      (show _ = some ⟨.unsigned, 1⟩ from rfl) rfl)
    have hkeep : whole? (keepRecord g.runtime) (of "records . push" ++ (paren (g.readRecord b) ++ word ";")) =
        some (g.blockTypeName b) := by
      apply whole?_of_eq
      simp [keepRecord, (takes_readRecord g b).whole?_eq]
    have hbody : whole? (readCountedRecords g.runtime)
        (of "let count =" ++ (g.readAt b.path (Generator.take "read_u8") ++ (word ";" ++
          (of "let mut records = Vec :: with_capacity" ++ (paren (of "usize :: from" ++ paren (word "count")) ++
            (word ";" ++ (of "for _ in 0 .. count" ++
              (brace (of "records . push" ++ (paren (g.readRecord b) ++ word ";")) ++ word "records")))))))) =
        some (b.path, g.blockTypeName b) := by
      apply whole?_of_eq
      simp [readCountedRecords, hcount _, hkeep]
    simp [blockRead, blockReads, Generator.readBlock, hquantity, hbody]

end Recognizer

/-- Whether code has the record type of a message and a codec of it, all of which is recognized and is that of the message. -/
def Code.HasMessageCodec (code : Code) (g : Generator) (m : Message) : Prop :=
  ∃ fields held body codec, code.Has (of "pub struct" ++ typeWord m.name) fields ∧
    Recognizer.whole? (.many .heldBlock) fields = some held ∧
    code.Has (word "impl" ++ g.path ":: Message for" ++ typeWord m.name) body ∧
    Recognizer.whole? (.messageCodec g.runtime held) body = some codec ∧ codec.Realizes g.blockTypeName m

/-! ## What the codec of a message does -/

/-- The statement for a block writes the encoding of its records. -/
theorem BlockWrite.run_of {held : String → Option HeldRecords} {b : Block} {records : List Record}
    (hfits : Wire.BlockFits b records) (hheld : held b.name = some ⟨records, Wire.encodeFields b b.fields⟩) :
    (BlockWrite.of b).run held = some (Wire.encodeBlock b records) := by
  unfold BlockWrite.of Wire.encodeBlock
  have hrecords := hfits.1
  cases hquantity : b.quantity with
  | single =>
    rw [hquantity] at hrecords
    simp [BlockWrite.run, hheld, HeldRecords.encodeAll, show records.length = 1 from hrecords]
  | multiple count => simp [BlockWrite.run, hheld, HeldRecords.encodeAll]
  | varying =>
    by_cases hmany : records.length ≤ Wire.maxRecords
    · simp [BlockWrite.run, hheld, HeldRecords.encodeAll, hmany]
    · simp [BlockWrite.run, hheld, hmany]

/-- The statements for blocks write the encoding of a body. -/
theorem runBlockWrites_map {held : String → Option HeldRecords} (message : String) {blocks : List Block} {body : Body}
    (hfits : Wire.BodyFits blocks body)
    (hheld : List.Forall₂ (fun b records => held b.name = some ⟨records, Wire.encodeFields b b.fields⟩) blocks body) :
    runBlockWrites held (blocks.map BlockWrite.of) = some (Wire.encodeBlocks message blocks body) := by
  induction hheld with
  | nil => rfl
  | cons hb _ ih =>
    rw [List.map_cons, runBlockWrites, BlockWrite.run_of hfits.1 hb, ih hfits.2, Wire.encodeBlocks]
    rfl

/-- What reads a block reads its records. -/
theorem BlockRead.run_of (g : Generator) {readers : String → Decoder Record} {b : Block}
    (hreader : readers (g.blockTypeName b) = Wire.decodeFields b b.fields) :
    (BlockRead.of g b).run readers = Wire.decodeBlock b := by
  unfold BlockRead.of BlockRead.run Wire.decodeBlock
  cases b.quantity <;> simp [hreader]

/-- What reads blocks reads a body of them. -/
theorem runBlockReads_map (g : Generator) {readers : String → Decoder Record} {blocks : List Block}
    (hreaders : ∀ b ∈ blocks, readers (g.blockTypeName b) = Wire.decodeFields b b.fields) :
    runBlockReads readers (blocks.map (BlockRead.of g)) = Wire.decodeBlocks blocks := by
  induction blocks with
  | nil => rfl
  | cons b blocks ih =>
    obtain ⟨hb, hblocks⟩ := List.forall_mem_cons.mp hreaders
    rw [List.map_cons, runBlockReads, BlockRead.run_of g hb, ih hblocks, Wire.decodeBlocks]

namespace Generator

open Code (of word paren brace)
open Recognizer (Takes whole? many heldBlock messageCodec messageWrites)

variable (g : Generator) (m : Message)

/-- The fields of the record type of a message hold its blocks. -/
theorem holds_blocks : whole? (many heldBlock) (Code.all m.blocks fun b =>
    word "pub" ++ Code.fieldWord b.name ++ word ":" ++ g.blockFieldType b ++ word ",") = some (m.blocks.map (HeldBlock.of g)) :=
  (Recognizer.takesMany_all (fun b _ => Recognizer.takes_heldBlock g b) fun _ _ => by simp [word]).whole?_eq rfl

/-- What is generated for a message is a codec of it. -/
theorem realizes_message : ∃ codec, whole? (messageCodec g.runtime (m.blocks.map (HeldBlock.of g)))
    (g.messageConstants m ++ g.messageEncode m ++ g.messageRead m) = some codec ∧ codec.Realizes g.blockTypeName m := by
  have hwrites : Takes ((m.blocks.map (HeldBlock.of g)).mapM (.blockWrite g.runtime)) (Code.all m.blocks g.writeBlock)
      (m.blocks.map BlockWrite.of) := by
    rw [List.mapM_map]
    exact Recognizer.takes_mapM fun b _ => Recognizer.takes_blockWrite g b
  have hreads : Takes ((m.blocks.map (HeldBlock.of g)).mapM (.blockRead g.runtime)) (Code.all m.blocks fun b =>
      Code.fieldWord b.name ++ word ":" ++ g.readBlock b ++ word ",") (m.blocks.map (BlockRead.of g)) := by
    rw [List.mapM_map]
    exact Recognizer.takes_mapM fun b _ => Recognizer.takes_blockRead g b
  have hnumber : whole? .number (Code.number m.sizeHint) = some m.sizeHint := Recognizer.whole?_of_eq (Recognizer.number_self _)
  have hbody (rest : Code) : messageWrites g.runtime (m.blocks.map (HeldBlock.of g))
      (of "buffer . reserve" ++ paren (Code.number m.sizeHint) ++ word ";" ++ putBytes (of "Self :: ID_BYTES") ++
        Code.all m.blocks g.writeBlock ++ rest) =
      some ((m.sizeHint, m.blocks.map BlockWrite.of), rest) := by
    -- `hwrites` is about the blocks as they are held, which `List.mapM_map` would turn into those of the message
    simp [messageWrites, putBytes, hnumber, hwrites _, -List.mapM_map]
  have hencode : Takes (.encodeFunction g.runtime (messageWrites g.runtime (m.blocks.map (HeldBlock.of g)))) (g.messageEncode m)
      ("buffer", m.sizeHint, m.blocks.map BlockWrite.of) :=
    Recognizer.takes_encodeFunction g _ (hbody _)
  have hread : Takes (.readFunction g.runtime ((m.blocks.map (HeldBlock.of g)).mapM (.blockRead g.runtime))) (g.messageRead m)
      (if m.blocks.isEmpty then "_source" else "source", m.blocks.map (BlockRead.of g)) :=
    Recognizer.takes_readFunction g _ hreads.whole?_eq
  have hcodec : Takes (messageCodec g.runtime (m.blocks.map (HeldBlock.of g)))
      (g.messageConstants m ++ g.messageEncode m ++ g.messageRead m)
      ⟨⟨m.name, m.number, m.frequency.name, m.identifier.map UInt8.toNat⟩, m.sizeHint, m.blocks.map BlockWrite.of,
        m.blocks.map (BlockRead.of g)⟩ := by
    intro rest
    rw [List.append_assoc, List.append_assoc]
    simp only [messageCodec, Recognizer.bind_apply, Recognizer.takes_constants g m _, hencode _, hread _, Option.bind_some,
      List.isEmpty_map, true_and, if_true]
    rfl
  refine ⟨_, hcodec.whole?_eq, rfl, rfl, fun held body hfits hheld => ?_, ?_,
    fun readers hreaders => runBlockReads_map g hreaders⟩
  · have hidentifier : (m.identifier.map UInt8.toNat).map UInt8.ofNat = m.identifier := by
      simp [Function.comp_def]
    rw [MessageCodec.encode?, runBlockWrites_map m.name hfits hheld, hidentifier]
    rfl
  · rw [List.map_map]
    rfl

variable {m}

/-- Where an outline has a message and its codec, so has its code. -/
theorem hasMessageCodec_outlineCode {outline : Outline} (hrecord : .messageRecord m ∈ outline.items)
    (hcodec : .messageCodec m ∈ outline.items) : (g.outlineCode outline).HasMessageCodec g m := by
  obtain ⟨codec, hwhole, hrealizes⟩ := g.realizes_message m
  refine ⟨_, _, _, codec, g.has_outlineCode hrecord (Code.Has.of_suffix ?_ _), g.holds_blocks m,
    g.has_outlineCode hcodec (Code.Has.of_suffix (List.suffix_refl _) _), hwhole, hrealizes⟩
  simp only [List.suffix_append_self_iff, List.suffix_append]

end Generator

end MessageCatalog
