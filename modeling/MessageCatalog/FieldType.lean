/-!
# Field types

The types a template may give to a field, with the tag each is declared by, and the shape each has on the wire. Twenty tags share
seven shapes: a codec works on the shape, a declaration names the tag.
-/

namespace MessageCatalog

/-- The width of the length in front of a variable field. -/
inductive PrefixWidth where
  | one
  | two
  deriving DecidableEq, Repr, Inhabited

namespace PrefixWidth

/-- The count 2 selects two bytes; any other count, and none, selects one. -/
def ofCount (count : Nat) : PrefixWidth :=
  if count = 2 then two else one

/-- The number of bytes the length takes. -/
def size : PrefixWidth → Nat
  | one => 1
  | two => 2

/-- The longest content whose length fits. -/
def maxLength : PrefixWidth → Nat
  | one => 255
  | two => 65535

end PrefixWidth

/-- The type of a field. -/
inductive FieldType where
  | u8
  | u16
  | u32
  | u64
  | s8
  | s16
  | s32
  | s64
  | f32
  | f64
  | uuid
  | ipAddress
  | ipPort
  | vector3
  | vector3d
  | vector4
  | quaternion
  | bool
  | varying (width : PrefixWidth)
  | fixed (size : Nat)
  deriving DecidableEq, Repr, Inhabited

/-- The shape of a field on the wire. Numbers are little-endian throughout. -/
inductive Layout where
  /-- An unsigned number of some bytes. -/
  | unsigned (bytes : Nat)
  /-- A number in two's complement of some bytes. -/
  | signed (bytes : Nat)
  /-- Some floating-point words of some bytes each, kept as bit patterns. -/
  | words (bytes count : Nat)
  /-- A unit quaternion: its three imaginary parts. -/
  | rotation
  /-- A truth value in one byte. -/
  | flag
  /-- Bytes behind their length. -/
  | counted (width : PrefixWidth)
  /-- Bytes of a declared number. -/
  | raw (size : Nat)
  deriving DecidableEq, Repr

/-- The number of bytes a shape takes, `none` when the value decides. -/
def Layout.size? : Layout → Option Nat
  | unsigned bytes => some bytes
  | signed bytes => some bytes
  | words bytes count => some (bytes * count)
  | rotation => some 12
  | flag => some 1
  | counted _ => none
  | raw size => some size

namespace FieldType

/-- The type a tag declares. The count that follows the tag, 0 when there is none, sizes a fixed field and selects the length
width of a variable one; other types ignore it. -/
def ofTag? (tag : String) (count : Nat) : Option FieldType :=
  match tag with
  | "U8" => some u8
  | "U16" => some u16
  | "U32" => some u32
  | "U64" => some u64
  | "S8" => some s8
  | "S16" => some s16
  | "S32" => some s32
  | "S64" => some s64
  | "F32" => some f32
  | "F64" => some f64
  | "LLUUID" => some uuid
  | "IPADDR" => some ipAddress
  | "IPPORT" => some ipPort
  | "LLVector3" => some vector3
  | "LLVector3d" => some vector3d
  | "LLVector4" => some vector4
  | "LLQuaternion" => some quaternion
  | "BOOL" => some bool
  | "Variable" => some (varying (PrefixWidth.ofCount count))
  | "Fixed" => some (fixed count)
  | _ => none

/-- The tag that declares the type. -/
def tag : FieldType → String
  | u8 => "U8"
  | u16 => "U16"
  | u32 => "U32"
  | u64 => "U64"
  | s8 => "S8"
  | s16 => "S16"
  | s32 => "S32"
  | s64 => "S64"
  | f32 => "F32"
  | f64 => "F64"
  | uuid => "LLUUID"
  | ipAddress => "IPADDR"
  | ipPort => "IPPORT"
  | vector3 => "LLVector3"
  | vector3d => "LLVector3d"
  | vector4 => "LLVector4"
  | quaternion => "LLQuaternion"
  | bool => "BOOL"
  | varying _ => "Variable"
  | fixed _ => "Fixed"

/-- The shape of the type on the wire. -/
def layout : FieldType → Layout
  | u8 => .unsigned 1
  | u16 => .unsigned 2
  | u32 => .unsigned 4
  | u64 => .unsigned 8
  | s8 => .signed 1
  | s16 => .signed 2
  | s32 => .signed 4
  | s64 => .signed 8
  | f32 => .words 4 1
  | f64 => .words 8 1
  | uuid => .raw 16
  | ipAddress => .raw 4
  | ipPort => .unsigned 2
  | vector3 => .words 4 3
  | vector3d => .words 8 3
  | vector4 => .words 4 4
  | quaternion => .rotation
  | bool => .flag
  | varying width => .counted width
  | fixed size => .raw size

/-- The number of bytes a field of the type takes, `none` for a variable field. -/
def wireSize? : FieldType → Option Nat
  | u8 | s8 | bool => some 1
  | u16 | s16 | ipPort => some 2
  | u32 | s32 | f32 | ipAddress => some 4
  | u64 | s64 | f64 => some 8
  | uuid => some 16
  | vector3 | quaternion => some 12
  | vector4 => some 16
  | vector3d => some 24
  | fixed size => some size
  | varying _ => none

/-- A field takes as many bytes as its shape on the wire. -/
theorem wireSize?_eq (type : FieldType) : type.wireSize? = type.layout.size? := by
  cases type <;> rfl

/-- The number of bytes of the length in front of the field, 0 for every type but the variable one. -/
def prefixSize : FieldType → Nat
  | varying width => width.size
  | _ => 0

/-- The least number of bytes a field of the type takes. -/
def minSize (type : FieldType) : Nat :=
  type.wireSize?.getD type.prefixSize

end FieldType

end MessageCatalog
