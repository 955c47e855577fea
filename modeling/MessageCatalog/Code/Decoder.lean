import MessageCatalog.Code.Record

/-!
# Reader code

The functions that read a record or a message from a source, field by field. A failure names the place of what was being read.
-/

namespace MessageCatalog

open Code (of word typeWord fieldWord literal number paren bracket brace all)

namespace Generator

/-- The bounds of a source that bytes are read from. -/
def sourceBound : Code :=
  of "< R : :: std :: io :: Read + ? Sized >"

/-- The function that reads the fields of a record type in order. -/
def readFunction (g : Generator) (isEmpty : Bool) (reads : Code) : Code :=
  of "fn read_from" ++ sourceBound ++ paren (word (if isEmpty then "_source" else "source") ++ of ": & mut R") ++
    of "-> Result < Self ," ++ g.path ":: ReadError >" ++ brace (word "Ok" ++ paren (word "Self" ++ brace reads))

/-- An expression that reads a word by a method. -/
def take (method : String) : Code :=
  of "source ." ++ of method ++ paren []

/-- An expression that reads some words by a method and gives them to a constructor. -/
def takeParts (constructor : Code) (method : String) (count : Nat) : Code :=
  word "Ok" ++ paren (constructor ++ paren (all (List.replicate count ()) fun _ => take method ++ of "? ,"))

/-- An expression that fills an array of bytes and makes a value of it. -/
def takeArray (array : String) (size : Nat) (value : Code) : Code :=
  brace (of "let mut" ++ word array ++ word "=" ++ bracket (of "0u8 ;" ++ number size) ++ word ";" ++
    of "source . read_exact" ++ paren (of "& mut" ++ word array) ++ of "? ;" ++ word "Ok" ++ paren value)

/-- An expression that reads the length of a variable field. -/
def takeLength : PrefixWidth → Code
  | .one => of "usize :: from" ++ paren (take "read_u8" ++ word "?")
  | .two => of "usize :: from" ++ paren (take "read_u16 :: < LittleEndian >" ++ word "?")

/-- The expression that reads a value of a field type. -/
def readValue (g : Generator) : FieldType → Code
  | .u8 => take "read_u8"
  | .u16 => take "read_u16 :: < LittleEndian >"
  | .u32 => take "read_u32 :: < LittleEndian >"
  | .u64 => take "read_u64 :: < LittleEndian >"
  | .s8 => take "read_i8"
  | .s16 => take "read_i16 :: < LittleEndian >"
  | .s32 => take "read_i32 :: < LittleEndian >"
  | .s64 => take "read_i64 :: < LittleEndian >"
  | .f32 => take "read_f32 :: < LittleEndian >"
  | .f64 => take "read_f64 :: < LittleEndian >"
  | .ipPort => take "read_u16 :: < LittleEndian >"
  | .bool => word "Ok" ++ paren (take "read_u8" ++ of "? == 1")
  | .uuid => takeArray "bytes" 16 (g.path ":: Uuid :: from_bytes" ++ paren (word "bytes"))
  | .ipAddress => takeArray "octets" 4 (g.path ":: Ipv4Addr :: from" ++ paren (word "octets"))
  | .fixed size => takeArray "bytes" size (word "bytes")
  | .vector3 => takeParts (g.path ":: Vector3 :: new") "read_f32 :: < LittleEndian >" 3
  | .vector3d => takeParts (g.path ":: Vector3 :: new") "read_f64 :: < LittleEndian >" 3
  | .vector4 => takeParts (g.path ":: Vector4 :: new") "read_f32 :: < LittleEndian >" 4
  | .quaternion =>
    brace (all ["i", "j", "k"]
        (fun part => of "let" ++ word part ++ word "=" ++ take "read_f32 :: < LittleEndian >" ++ of "? ;") ++
      word "Ok" ++ paren (g.path ":: Quaternion :: from_parts" ++ paren (of "1.0 , i , j , k")))
  | .varying width =>
    brace (of "let len =" ++ takeLength width ++ word ";" ++
      of "let mut bytes = vec !" ++ bracket (of "0u8 ; len") ++ word ";" ++
      of "source . read_exact" ++ paren (of "& mut bytes") ++ of "? ;" ++ word "Ok" ++ paren (word "bytes"))

/-- An expression that reads something and names its place in a failure. -/
def readAt (g : Generator) (place : String) (read : Code) : Code :=
  g.path ":: read_field" ++ paren (of "source ," ++ literal place ++ of ", | source |" ++ read) ++ word "?"

/-- The function that reads a record of a block. -/
def blockRead (g : Generator) (b : Block) : Code :=
  g.readFunction b.fields.isEmpty (all b.fields fun f =>
    fieldWord f.name ++ word ":" ++ g.readAt (b.fieldPath f) (g.readValue f.type) ++ word ",")

/-- The expression that reads one record of a block. -/
def readRecord (g : Generator) (b : Block) : Code :=
  word "<" ++ typeWord (g.blockTypeName b) ++ word "as" ++ g.path ":: Block > :: read_from" ++ paren (word "source") ++ word "?"

/-- The expression that reads the records of a block. -/
def readBlock (g : Generator) (b : Block) : Code :=
  match b.quantity with
  | .single => g.readRecord b
  | .multiple count =>
    g.path ":: read_records :: < _ ," ++ typeWord (g.blockTypeName b) ++ word "," ++ number count ++ word ">" ++
      paren (word "source") ++ word "?"
  | .varying =>
    brace (of "let count =" ++ g.readAt b.path (take "read_u8") ++ word ";" ++
      of "let mut records = Vec :: with_capacity" ++ paren (of "usize :: from" ++ paren (word "count")) ++ word ";" ++
      of "for _ in 0 .. count" ++ brace (of "records . push" ++ paren (g.readRecord b) ++ word ";") ++ word "records")

/-- The function that reads a message behind its identifier. -/
def messageRead (g : Generator) (m : Message) : Code :=
  g.readFunction m.blocks.isEmpty (all m.blocks fun b =>
    fieldWord b.name ++ word ":" ++ g.readBlock b ++ word ",")

end Generator

end MessageCatalog
