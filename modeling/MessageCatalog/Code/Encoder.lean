import MessageCatalog.Code.Record

/-!
# Writer code

The functions that append a record or a message to a buffer: the fields little-endian in the order of their declaration.
-/

namespace MessageCatalog

open Code (of word fieldWord literal number paren brace all)

namespace Generator

/-- A call that writes a value to the buffer by a method and passes a failure on. -/
def put (method : String) (value : Code) : Code :=
  of "buffer ." ++ of method ++ paren value ++ of "? ;"

/-- A call that appends bytes to the buffer. -/
def putBytes (bytes : Code) : Code :=
  of "buffer . extend_from_slice" ++ paren bytes ++ word ";"

/-- Calls that write the parts of a value one after the other. -/
def putParts (method : String) (value : Code) (parts : List String) : Code :=
  all parts fun part => put method (value ++ word "." ++ word part)

/-- The function that encodes, with a body in front of its success. -/
def encodeFunction (g : Generator) (buffer : String) (body : Code) : Code :=
  of "fn encode" ++ paren (of "& self ," ++ word buffer ++ of ": & mut Vec < u8 >") ++ of "-> Result <" ++ paren [] ++
    word "," ++ g.path ":: WriteError >" ++ brace (body ++ word "Ok" ++ paren (paren []))

/-- The method that writes the length of a variable field. -/
def putLength : PrefixWidth → Code
  | .one => put "write_u8" (of "len as u8")
  | .two => put "write_u16 :: < LittleEndian >" (of "len as u16")

/-- The statements that write a field of a block. -/
def writeField (g : Generator) (b : Block) (f : Field) : Code :=
  let value := of "self ." ++ fieldWord f.name
  match f.type with
  | .u8 => put "write_u8" value
  | .u16 => put "write_u16 :: < LittleEndian >" value
  | .u32 => put "write_u32 :: < LittleEndian >" value
  | .u64 => put "write_u64 :: < LittleEndian >" value
  | .s8 => put "write_i8" value
  | .s16 => put "write_i16 :: < LittleEndian >" value
  | .s32 => put "write_i32 :: < LittleEndian >" value
  | .s64 => put "write_i64 :: < LittleEndian >" value
  | .f32 => put "write_f32 :: < LittleEndian >" value
  | .f64 => put "write_f64 :: < LittleEndian >" value
  | .ipPort => put "write_u16 :: < LittleEndian >" value
  | .bool => put "write_u8" (value ++ of "as u8")
  | .uuid => putBytes (value ++ of ". as_bytes" ++ paren [])
  | .ipAddress => putBytes (word "&" ++ value ++ of ". octets" ++ paren [])
  | .fixed _ => putBytes (word "&" ++ value)
  | .vector3 => putParts "write_f32 :: < LittleEndian >" value ["x", "y", "z"]
  | .vector3d => putParts "write_f64 :: < LittleEndian >" value ["x", "y", "z"]
  | .vector4 => putParts "write_f32 :: < LittleEndian >" value ["x", "y", "z", "w"]
  | .quaternion =>
    brace (of "let normed =" ++ value ++ of ". normalize" ++ paren [] ++ of ". ok_or" ++
      paren (g.path ":: WriteError :: DegenerateQuaternion" ++ brace (of "field :" ++ literal (b.fieldPath f))) ++ of "? ;" ++
      putParts "write_f32 :: < LittleEndian >" (word "normed") ["i", "j", "k"])
  | .varying width =>
    brace (of "let len =" ++ value ++ of ". len" ++ paren [] ++ word ";" ++
      of "if len >" ++ number width.maxLength ++ brace (of "return Err" ++
        paren (g.path ":: WriteError :: VariableTooLong" ++
          brace (of "field :" ++ literal (b.fieldPath f) ++ of ", len , max :" ++ number width.maxLength ++ word ",")) ++
        word ";") ++
      putLength width ++ putBytes (word "&" ++ value))

/-- The function that encodes a record of a block. -/
def blockEncode (g : Generator) (b : Block) : Code :=
  g.encodeFunction (if b.fields.isEmpty then "_buffer" else "buffer") (all b.fields (g.writeField b))

/-- The statements that write every record of a block that is held in a field. -/
def writeRecords (g : Generator) (held : Code) : Code :=
  of "for record in &" ++ held ++ brace (g.path ":: Block :: encode" ++ paren (of "record , buffer") ++ of "? ;")

/-- The statements that write a block of a message. -/
def writeBlock (g : Generator) (b : Block) : Code :=
  let held := of "self ." ++ fieldWord b.name
  match b.quantity with
  | .single => g.path ":: Block :: encode" ++ paren (word "&" ++ held ++ of ", buffer") ++ of "? ;"
  | .multiple _ => g.writeRecords held
  | .varying =>
    of "let count = u8 :: try_from" ++ paren (held ++ of ". len" ++ paren []) ++ of ". map_err" ++
      paren (of "| _ |" ++ g.path ":: WriteError :: TooManyRecords" ++
        brace (of "block :" ++ literal b.path ++ of ", count :" ++ held ++ of ". len" ++ paren [] ++ word ",")) ++ of "? ;" ++
      of "buffer . push" ++ paren (word "count") ++ word ";" ++ g.writeRecords held

/-- The function that encodes a message. -/
def messageEncode (g : Generator) (m : Message) : Code :=
  g.encodeFunction "buffer" (of "buffer . reserve" ++ paren (number m.sizeHint) ++ word ";" ++
    putBytes (of "Self :: ID_BYTES") ++ all m.blocks g.writeBlock)

end Generator

end MessageCatalog
