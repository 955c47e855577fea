import MessageCatalog.Template
import MessageCatalog.Wire.Bytes
import MessageCatalog.Wire.Quaternion

/-!
# Message values

The value of a field has the shape of its layout. A record is a list of field values, a block a list of records, and the body of a
message a list of blocks. `Fits` says when a value is of its declared type.
-/

namespace MessageCatalog.Wire

/-- The value of a field. Floating-point numbers are bit patterns. -/
inductive FieldValue where
  | unsigned (n : Nat)
  | signed (z : Int)
  | words (patterns : List Nat)
  | rotation (q : Quaternion)
  | flag (b : Bool)
  | bytes (content : Bytes)
  deriving DecidableEq, Repr, Inhabited

/-- The values of the fields of a block, in the order of declaration. -/
abbrev Record := List FieldValue

/-- The records of the blocks of a message, in the order of declaration. -/
abbrev Body := List (List Record)

/-- A message value: the name of the message and its body. -/
structure MessageValue where
  name : String
  body : Body
  deriving DecidableEq, Repr, Inhabited

/-- Whether some words are as many as there should be, each below a bound. -/
def AreWords (bound count : Nat) (patterns : List Nat) : Prop :=
  patterns.length = count ∧ ∀ p ∈ patterns, p < bound

/-- Whether a value is one of a type. -/
def FieldValue.Fits (type : FieldType) (value : FieldValue) : Prop :=
  match type, value with
  | .u8, .unsigned n => n < 0x100
  | .u16, .unsigned n => n < 0x10000
  | .u32, .unsigned n => n < 0x100000000
  | .u64, .unsigned n => n < 0x10000000000000000
  | .ipPort, .unsigned n => n < 0x10000
  | .s8, .signed z => -0x80 ≤ z ∧ z ≤ 0x7F
  | .s16, .signed z => -0x8000 ≤ z ∧ z ≤ 0x7FFF
  | .s32, .signed z => -0x80000000 ≤ z ∧ z ≤ 0x7FFFFFFF
  | .s64, .signed z => -0x8000000000000000 ≤ z ∧ z ≤ 0x7FFFFFFFFFFFFFFF
  | .f32, .words patterns => AreWords 0x100000000 1 patterns
  | .f64, .words patterns => AreWords 0x10000000000000000 1 patterns
  | .vector3, .words patterns => AreWords 0x100000000 3 patterns
  | .vector3d, .words patterns => AreWords 0x10000000000000000 3 patterns
  | .vector4, .words patterns => AreWords 0x100000000 4 patterns
  | .quaternion, .rotation _ => True
  | .bool, .flag _ => True
  | .varying _, .bytes _ => True
  | .uuid, .bytes content => content.length = 16
  | .ipAddress, .bytes content => content.length = 4
  | .fixed size, .bytes content => content.length = size
  | _, _ => False

/-- Whether a value is in the range of a layout. -/
def FieldValue.FitsLayout (layout : Layout) (value : FieldValue) : Prop :=
  match layout, value with
  | .unsigned width, .unsigned n => n < span width
  | .signed width, .signed z => -(span width : Int) ≤ 2 * z ∧ 2 * z < span width
  | .words width count, .words patterns => AreWords (span width) count patterns
  | .rotation, .rotation _ => True
  | .flag, .flag _ => True
  | .counted _, .bytes _ => True
  | .raw size, .bytes content => content.length = size
  | _, _ => False

/-- A value is one of a type if it is in the range of the layout of the type. -/
theorem FieldValue.fits_iff (type : FieldType) (v : FieldValue) : v.Fits type ↔ v.FitsLayout type.layout := by
  have hspans : span 1 = 0x100 ∧ span 2 = 0x10000 ∧ span 4 = 0x100000000 ∧ span 8 = 0x10000000000000000 := by decide
  obtain ⟨hone, htwo, hfour, height⟩ := hspans
  cases type <;> cases v <;>
    simp only [Fits, FitsLayout, FieldType.layout, hone, htwo, hfour, height]
  -- What is left are the ranges of the signed types, which a layout gives for twice the number.
  all_goals omega

theorem FieldValue.Fits.layout {type : FieldType} {v : FieldValue} (h : v.Fits type) : v.FitsLayout type.layout :=
  (fits_iff type v).mp h

/-- Whether a record has a value for every field, each of its type. -/
def RecordFits : List Field → Record → Prop
  | [], [] => True
  | f :: fields, v :: values => v.Fits f.type ∧ RecordFits fields values
  | _, _ => False

/-- Whether a quantity allows a number of records. -/
def AllowsRecords : Quantity → Nat → Prop
  | .single, n => n = 1
  | .multiple count, n => n = count
  | .varying, _ => True

/-- Whether records are those of a block. -/
def BlockFits (b : Block) (records : List Record) : Prop :=
  AllowsRecords b.quantity records.length ∧ ∀ r ∈ records, RecordFits b.fields r

/-- Whether a body has the records of every block. -/
def BodyFits : List Block → Body → Prop
  | [], [] => True
  | b :: blocks, records :: body => BlockFits b records ∧ BodyFits blocks body
  | _, _ => False

/-! ## Equality of values as numbers -/

/-- The number of bits of a floating-point word behind its exponent. -/
def fractionBits (width : Nat) : Nat :=
  if width = 4 then 23 else 52

/-- A floating-point word without its sign. -/
def magnitude (width pattern : Nat) : Nat :=
  pattern % Nat.pow 2 (8 * width - 1)

/-- The pattern of positive infinity. -/
def infinityPattern (width : Nat) : Nat :=
  Nat.pow 2 (8 * width - 1) - Nat.pow 2 (fractionBits width)

/-- Whether a floating-point word is not a number. -/
def isNaNPattern (width pattern : Nat) : Bool :=
  infinityPattern width < magnitude width pattern

/-- Whether two floating-point words are equal as numbers: what is not a number differs from everything, and the two zeros are
equal. -/
def samePattern (width a b : Nat) : Bool :=
  !isNaNPattern width a && !isNaNPattern width b && (a == b || (magnitude width a == 0 && magnitude width b == 0))

/-- Whether two lists agree element by element. -/
def agree {α : Type} (same : α → α → Bool) : List α → List α → Bool
  | [], [] => true
  | a :: as, b :: bs => same a b && agree same as bs
  | _, _ => false

/-- Whether two quaternions are equal as numbers. -/
def Quaternion.same (p q : Quaternion) : Bool :=
  agree (fun a b => samePattern 4 a.toNat b.toNat) [p.w, p.i, p.j, p.k] [q.w, q.i, q.j, q.k]

/-- Whether two values of a layout are equal as numbers. -/
def FieldValue.same (layout : Layout) : FieldValue → FieldValue → Bool
  | .words as, .words bs =>
    match layout with
    | .words width _ => agree (samePattern width) as bs
    | _ => as == bs
  | .rotation p, .rotation q => p.same q
  | a, b => a == b

/-- Whether two records of some fields are equal as numbers. -/
def sameRecord : List Field → Record → Record → Bool
  | [], [], [] => true
  | f :: fields, a :: as, b :: bs => FieldValue.same f.type.layout a b && sameRecord fields as bs
  | _, _, _ => false

/-- Whether two bodies of some blocks are equal as numbers. -/
def sameBody : List Block → Body → Body → Bool
  | [], [], [] => true
  | b :: blocks, p :: ps, q :: qs => agree (sameRecord b.fields) p q && sameBody blocks ps qs
  | _, _, _ => false

/-- Whether two values of a message are equal as numbers. -/
def MessageValue.same (m : Message) (v w : MessageValue) : Bool :=
  v.name == w.name && sameBody m.blocks v.body w.body

end MessageCatalog.Wire
