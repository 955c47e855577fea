import MessageCatalog.Proofs.Code.ReadExpressions

/-!
# The codecs of blocks in generated code

The codec of a block has a function that writes a record and one that reads it. All their tokens are recognized. What
the first one writes for a record is its encoding, and what the second one reads is a record of the block.
-/

namespace MessageCatalog

open Wire (Decoder Emission FieldValue Record)

/-- What reads a field: its name, the place that a failure names, and the expression that reads its value. -/
structure FieldRead where
  name : String
  place : String
  expression : ReadExpression
  deriving DecidableEq, Repr

/-- The values that fields are read as, one after the other. -/
def runReads : List FieldRead → Decoder Record
  | [] => return []
  | read :: rest => do
    let v ← Wire.within read.place read.expression.run
    let values ← runReads rest
    return v :: values

/-- The codec of a block: the statements that write a record, and what reads its fields. -/
structure BlockCodec where
  writes : List WriteStatement
  reads : List FieldRead
  deriving DecidableEq, Repr

/-- Whether a codec is that of a block: it writes every record of the block as its encoding, whatever else the values of
fields are, and reads the fields of the block by their names. -/
structure BlockCodec.Realizes (codec : BlockCodec) (b : Block) : Prop where
  writes : ∀ (values : String → Option FieldValue) (r : Record), Wire.RecordFits b.fields r →
    List.Forall₂ (fun f v => values f.name = some v) b.fields r →
      runWrites values codec.writes = some (Wire.encodeFields b b.fields r)
  names : codec.reads.map (·.name) = b.fields.map (·.name)
  reads : runReads codec.reads = Wire.decodeFields b b.fields

namespace Recognizer

open Code (of word paren brace)

/-- Takes a parameter of a type, and gives its name. -/
def parameter (before type : Code) : Recognizer String := do
  expect before
  let name ← atom
  expect type
  return name

/-- Takes a body that succeeds behind what a recognizer takes. -/
def succeeding (r : Recognizer α) : Recognizer α := do
  let a ← r
  expect (word "Ok" ++ paren (paren []))
  return a

/-- Takes the function that encodes, with the name of its buffer. -/
def encodeFunction (runtime : Code) (r : Recognizer α) : Recognizer (String × α) := do
  expect (of "fn encode")
  let buffer ← inside .paren (parameter (of "& self ,") (of ": & mut Vec < u8 >"))
  expect (of "-> Result <" ++ paren [] ++ word "," ++ runtime ++ of ":: WriteError >")
  let a ← inside .brace (succeeding r)
  return (buffer, a)

/-- Takes a record with fields that a recognizer takes. -/
def ownRecord (r : Recognizer α) : Recognizer α := do
  expect (word "Self")
  inside .brace r

/-- Takes a success with a record. -/
def readBody (r : Recognizer α) : Recognizer α := do
  expect (word "Ok")
  inside .paren (ownRecord r)

/-- Takes the function that reads, with the name of its source. -/
def readFunction (runtime : Code) (r : Recognizer α) : Recognizer (String × α) := do
  expect (of "fn read_from" ++ of "< R : :: std :: io :: Read + ? Sized >")
  let source ← inside .paren (parameter [] (of ": & mut R"))
  expect (of "-> Result < Self ," ++ runtime ++ of ":: ReadError >")
  let a ← inside .brace (readBody r)
  return (source, a)

/-- Takes what is read at a place. -/
def placed (r : Recognizer α) : Recognizer (String × α) := do
  expect (of "source ,")
  let place ← literal
  expect (of ", | source |")
  let a ← r
  return (place, a)

/-- Takes a call of the support code that names a place if the reading fails. -/
def readAt (runtime : Code) (r : Recognizer α) : Recognizer (String × α) := do
  expect (runtime ++ of ":: read_field")
  let read ← inside .paren (placed r)
  expect (word "?")
  return read

/-- Takes what reads a field. -/
def fieldRead (runtime : Code) : Recognizer FieldRead := do
  let field ← name .field
  expect (word ":")
  let (place, e) ← readAt runtime (readExpression runtime)
  expect (word ",")
  return ⟨field, place, e⟩

/-- Takes the functions of a codec of a block. A parameter that is not used is marked so. -/
def blockCodec (runtime : Code) : Recognizer BlockCodec := do
  let (buffer, writes) ← encodeFunction runtime (many (writeStatement runtime))
  let (source, reads) ← readFunction runtime (many (fieldRead runtime))
  if buffer = (if writes.isEmpty then "_buffer" else "buffer") ∧ source = (if reads.isEmpty then "_source" else "source")
  then return ⟨writes, reads⟩ else failure

/-! ### The functions that are generated -/

variable (g : Generator) {α : Type} {r : Recognizer α} {code : Code} {a : α}

/-- A parameter is recognized by its name. -/
theorem whole?_parameter (before type : Code) (name : String) :
    whole? (parameter before type) (before ++ (word name ++ type)) = some name := by
  apply whole?_of_eq
  simp [parameter]

/-- The function that encodes is recognized with its buffer and its body. -/
theorem takes_encodeFunction (buffer : String)
    (hbody : r (code ++ (word "Ok" ++ paren (paren []))) = some (a, word "Ok" ++ paren (paren []))) :
    Takes (encodeFunction g.runtime r) (g.encodeFunction buffer code) (buffer, a) := by
  have hsucceeding : whole? (succeeding r) (code ++ (word "Ok" ++ paren (paren []))) = some a := by
    apply whole?_of_eq
    simp [succeeding, hbody]
  intro rest
  simp [encodeFunction, Generator.encodeFunction, Generator.path, whole?_parameter, hsucceeding]

/-- The function that reads is recognized with its source and its fields. -/
theorem takes_readFunction (isEmpty : Bool) (hbody : whole? r code = some a) :
    Takes (readFunction g.runtime r) (g.readFunction isEmpty code) (if isEmpty then "_source" else "source", a) := by
  have hrecord : whole? (ownRecord r) (word "Self" ++ brace code) = some a := by
    apply whole?_of_eq
    simp [ownRecord, hbody]
  have hread : whole? (readBody r) (word "Ok" ++ paren (word "Self" ++ brace code)) = some a := by
    apply whole?_of_eq
    simp [readBody, hrecord]
  have hsource (name : String) : whole? (parameter [] (of ": & mut R")) (word name ++ of ": & mut R") = some name :=
    whole?_parameter [] _ name
  intro rest
  simp [readFunction, Generator.readFunction, Generator.sourceBound, Generator.path, hsource, hread]

/-- What is read at a place is recognized with the place. -/
theorem takes_readAt (place : String) (hread : Takes r code a) : Takes (readAt g.runtime r) (g.readAt place code) (place, a) := by
  have hplaced : whole? (placed r) (of "source ," ++ (Code.literal place ++ (of ", | source |" ++ code))) = some (place, a) := by
    have hcode := hread []
    rw [List.append_nil] at hcode
    apply whole?_of_eq
    simp [placed, hcode]
  intro rest
  simp [readAt, Generator.readAt, Generator.path, hplaced]

/-- What reads a field is recognized with its name and its place. -/
theorem takes_fieldRead (field place : String) {e : ReadExpression} (hread : Takes (readExpression g.runtime) code e) :
    Takes (fieldRead g.runtime) (Code.fieldWord field ++ word ":" ++ g.readAt place code ++ word ",") ⟨field, place, e⟩ := by
  intro rest
  simp [fieldRead, takes_readAt g place hread _]

end Recognizer

/-- Whether code has a codec of the record type of a block, all of which is recognized and is that of the block. -/
def Code.HasBlockCodec (code : Code) (g : Generator) (b : Block) : Prop :=
  ∃ body codec, code.Has (word "impl" ++ g.path ":: Block for" ++ typeWord (g.blockTypeName b)) body ∧
    Recognizer.whole? (.blockCodec g.runtime) body = some codec ∧ codec.Realizes b

/-! ## What the codec of a block does -/

namespace Generator

open Code (of word paren brace)
open Recognizer (TakesMany whole? writeStatement fieldRead blockCodec)

variable (g : Generator) (b : Block)

/-- The statements that write fields write their values as the fields are encoded. -/
theorem writes_fields (fields : List Field) : ∃ statements,
    TakesMany (writeStatement g.runtime) (Code.all fields (g.writeField b)) statements ∧ statements.isEmpty = fields.isEmpty ∧
      ∀ values r, Wire.RecordFits fields r → List.Forall₂ (fun f v => values f.name = some v) fields r →
        runWrites values statements = some (Wire.encodeFields b fields r) := by
  -- recognition and run go through the fields together, as the statements of a field are only known to exist
  induction fields with
  | nil =>
    refine ⟨[], Recognizer.takesMany_nil _, rfl, fun values r _ hvalues => ?_⟩
    cases hvalues
    rfl
  | cons f fields ih =>
    obtain ⟨first, htakesFirst, hfirst, hrunFirst⟩ := g.writes_field b f
    obtain ⟨rest, htakesRest, _, hrunRest⟩ := ih
    refine ⟨first ++ rest, htakesFirst.append htakesRest, ?_, fun values r hr hvalues => ?_⟩
    · simp [hfirst]
    · cases hvalues with
      | cons hv hvalues => exact runWrites_append (hrunFirst values _ hr.1 hv) (hrunRest values _ hr.2 hvalues)

/-- What reads fields reads them by their names and places as they are decoded. -/
theorem reads_fields (fields : List Field) : ∃ reads : List FieldRead,
    TakesMany (fieldRead g.runtime) (Code.all fields fun f => Code.fieldWord f.name ++ word ":" ++
      g.readAt (b.fieldPath f) (g.readValue f.type) ++ word ",") reads ∧
      reads.map (·.name) = fields.map (·.name) ∧ runReads reads = Wire.decodeFields b fields := by
  induction fields with
  | nil => exact ⟨[], Recognizer.takesMany_nil _, rfl, rfl⟩
  | cons f fields ih =>
    obtain ⟨e, htakes, hrun⟩ := g.reads_value f.type
    obtain ⟨rest, htakesRest, hnames, hrunRest⟩ := ih
    have hread := Recognizer.takes_fieldRead g f.name (b.fieldPath f) htakes
    refine ⟨⟨f.name, b.fieldPath f, e⟩ :: rest, hread.cons (by simp [word]) htakesRest, ?_, ?_⟩
    · rw [List.map_cons, List.map_cons, hnames]
    · rw [runReads, Wire.decodeFields, hrun, hrunRest]

/-- The functions that are generated for a block are a codec of it. -/
theorem realizes_block :
    ∃ codec, whole? (blockCodec g.runtime) (g.blockEncode b ++ g.blockRead b) = some codec ∧ codec.Realizes b := by
  obtain ⟨writes, htakesWrites, hempty, hwrites⟩ := g.writes_fields b b.fields
  obtain ⟨reads, htakesReads, hnames, hreads⟩ := g.reads_fields b b.fields
  have hencode : Recognizer.Takes (.encodeFunction g.runtime (.many (writeStatement g.runtime))) (g.blockEncode b)
      (if b.fields.isEmpty then "_buffer" else "buffer", writes) :=
    Recognizer.takes_encodeFunction g _ (htakesWrites.many_eq rfl)
  have hread : Recognizer.Takes (.readFunction g.runtime (.many (fieldRead g.runtime))) (g.blockRead b)
      (if b.fields.isEmpty then "_source" else "source", reads) :=
    Recognizer.takes_readFunction g _ (htakesReads.whole?_eq rfl)
  have hnone : reads.isEmpty = b.fields.isEmpty := by
    rw [← List.isEmpty_map, hnames, List.isEmpty_map]
  have hcodec : Recognizer.Takes (blockCodec g.runtime) (g.blockEncode b ++ g.blockRead b) ⟨writes, reads⟩ := by
    intro rest
    rw [List.append_assoc]
    simp only [blockCodec, Recognizer.bind_apply, hencode _, hread _, Option.bind_some, hempty, hnone, and_self, if_true]
    rfl
  exact ⟨⟨writes, reads⟩, hcodec.whole?_eq, hwrites, hnames, hreads⟩

variable {b} {outline : Outline}

/-- What is in the code of a part is in the code of an outline with that part. -/
theorem has_outlineCode {item : Item} (hitem : item ∈ outline.items) {head body : Code} (h : (g.itemCode item).Has head body) :
    (g.outlineCode outline).Has head body :=
  ((((Code.Has.all hitem h).append_left _).append_right _).append_right _).append_right _

/-- Where an outline has the codec of a block, so has its code. -/
theorem hasBlockCodec_outlineCode (hitem : .blockCodec b ∈ outline.items) :
    (g.outlineCode outline).HasBlockCodec g b := by
  obtain ⟨codec, hcodec, hrealizes⟩ := g.realizes_block b
  exact ⟨_, codec, g.has_outlineCode hitem (Code.Has.of_suffix (List.suffix_refl _) _), hcodec, hrealizes⟩

end Generator

end MessageCatalog
