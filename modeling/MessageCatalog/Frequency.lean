/-!
# Frequency classes

Every message belongs to a frequency class. The class fixes how its declared id becomes the identifier bytes in front of the
message on the wire: classes of frequent messages spend fewer bytes on it.
-/

namespace MessageCatalog

/-- How often a message is sent, and with that the layout of its identifier. -/
inductive Frequency where
  | high
  | medium
  | low
  | fixed
  deriving DecidableEq, Repr, Inhabited

/-- A row of bytes read as a big-endian number. -/
def bigEndian (bytes : List UInt8) : Nat :=
  bytes.foldl (fun acc b => acc * 256 + b.toNat) 0

namespace Frequency

/-- The class as it is written in texts. -/
def name : Frequency → String
  | high => "High"
  | medium => "Medium"
  | low => "Low"
  | fixed => "Fixed"

/-- The class a word names, in any mixture of ASCII upper and lower case. -/
def ofName? (word : String) : Option Frequency :=
  match String.ofList (word.toList.map Char.toLower) with
  | "high" => some high
  | "medium" => some medium
  | "low" => some low
  | "fixed" => some fixed
  | _ => none

/-- What is said of a word that names no class. -/
def unknownName (word : String) : String := s!"unknown frequency class: {word}"

/-- The largest id of the class. The byte 0xFF is the marker that a longer identifier follows, so no High or Medium id has it. -/
def maxId : Frequency → Nat
  | high => 0xFE
  | medium => 0xFE
  | low => 0xFFFF
  | fixed => 0xFFFFFFFF

/-- The smallest id of the class. A Fixed identifier is read behind two markers, so its upper half is 0xFFFF. -/
def minId : Frequency → Nat
  | fixed => 0xFFFF0000
  | _ => 0

/-- The identifier bytes of an id: one byte, one behind a marker, two behind two markers, or the four bytes of the id itself. -/
def identifier : Frequency → Nat → List UInt8
  | high, id => [UInt8.ofNat id]
  | medium, id => [0xFF, UInt8.ofNat id]
  | low, id => [0xFF, 0xFF, UInt8.ofNat (id / 0x100), UInt8.ofNat id]
  | fixed, id => [UInt8.ofNat (id / 0x1000000), UInt8.ofNat (id / 0x10000), UInt8.ofNat (id / 0x100), UInt8.ofNat id]

/-- Whether a template may declare the id in the class. -/
def Declarable (f : Frequency) (id : Nat) : Prop :=
  f.minId ≤ id ∧ id ≤ f.maxId

instance (f : Frequency) (id : Nat) : Decidable (f.Declarable id) :=
  inferInstanceAs (Decidable (_ ∧ _))

end Frequency

end MessageCatalog
