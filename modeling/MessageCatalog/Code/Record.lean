import MessageCatalog.Code.Config

/-!
# Record types

Every block becomes a record type with a field per template field, and every message one with a field per block.
-/

namespace MessageCatalog

open Code (of word typeWord fieldWord literal number paren bracket brace all docOf attr commaSeparated)

/-- The type of the target language that holds values of a field type. -/
def FieldType.code (g : Generator) : FieldType → Code
  | .u8 => word "u8"
  | .u16 => word "u16"
  | .u32 => word "u32"
  | .u64 => word "u64"
  | .s8 => word "i8"
  | .s16 => word "i16"
  | .s32 => word "i32"
  | .s64 => word "i64"
  | .f32 => word "f32"
  | .f64 => word "f64"
  | .uuid => g.path ":: Uuid"
  | .ipAddress => g.path ":: Ipv4Addr"
  | .ipPort => g.path ":: IpPort"
  | .vector3 => g.path ":: Vector3 < f32 >"
  | .vector3d => g.path ":: Vector3 < f64 >"
  | .vector4 => g.path ":: Vector4 < f32 >"
  | .quaternion => g.path ":: Quaternion < f32 >"
  | .bool => word "bool"
  | .varying _ => of "Vec < u8 >"
  | .fixed size => bracket (of "u8 ;" ++ number size)

namespace Generator

/-- The traits every record type has. -/
def derives : Code :=
  attr "derive" (of "Clone , Debug , PartialEq")

/-- The record type of a block. -/
def blockRecord (g : Generator) (b : Block) : Code :=
  docOf s!" `{b.name}` block of `{b.message}`." ++ attr "allow" (word "non_camel_case_types") ++ derives ++
    of "pub struct" ++ typeWord (g.blockTypeName b) ++ brace (all b.fields fun f =>
      docOf s!" `{f.name}`: {f.type.tag}" ++ word "pub" ++ fieldWord f.name ++ word ":" ++ f.type.code g ++ word ",")

/-- The type that holds the records of a block: one, an array of them, or a vector of them. -/
def blockFieldType (g : Generator) (b : Block) : Code :=
  match b.quantity with
  | .single => typeWord (g.blockTypeName b)
  | .multiple count => bracket (typeWord (g.blockTypeName b) ++ word ";" ++ number count)
  | .varying => of "Vec <" ++ typeWord (g.blockTypeName b) ++ word ">"

/-- What the documentation of a message type says. -/
def messageSummary (m : Message) : String :=
  let id := Numeral.hex m.id
  let number := Numeral.hex m.number
  let deprecation := match m.deprecation with
    | some tag => s!" Deprecation: {tag}."
    | none => ""
  s!" `{m.name}`: {m.frequency.name} frequency, id {id} (number {number}), {m.trust}, {m.encoding}." ++ deprecation

/-- The record type of a message. -/
def messageRecord (g : Generator) (m : Message) : Code :=
  docOf (messageSummary m) ++ derives ++ of "pub struct" ++ typeWord m.name ++ brace (all m.blocks fun b =>
    word "pub" ++ fieldWord b.name ++ word ":" ++ g.blockFieldType b ++ word ",")

/-- The constants of a message type: name, number, frequency class and identifier. -/
def messageConstants (g : Generator) (m : Message) : Code :=
  of "const NAME : & 'static str =" ++ literal m.name ++ word ";" ++
    of "const NUMBER : u32 =" ++ number m.number ++ word ";" ++
    of "const FREQUENCY :" ++ g.path ":: Frequency =" ++ g.path ":: Frequency ::" ++ word m.frequency.name ++ word ";" ++
    of "const ID_BYTES : & 'static" ++ bracket (word "u8") ++ of "= &" ++
    bracket (commaSeparated (m.identifier.map fun byte => number byte.toNat)) ++ word ";"

end Generator

end MessageCatalog
