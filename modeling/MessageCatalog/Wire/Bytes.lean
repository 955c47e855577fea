/-!
# Little-endian numbers

Numbers as rows of bytes of a fixed width, the lowest byte first.
-/

namespace MessageCatalog.Wire

/-- A row of bytes. -/
abbrev Bytes := List UInt8

/-- The lowest bytes of a number, the lowest first. -/
def littleEndian : (width : Nat) → Nat → Bytes
  | 0, _ => []
  | width + 1, n => UInt8.ofNat n :: littleEndian width (n / 256)

/-- The number that a row of bytes stands for, the lowest byte first. -/
def ofLittleEndian : Bytes → Nat
  | [] => 0
  | b :: rest => b.toNat + 256 * ofLittleEndian rest

/-- The number of values of some bytes. -/
def span (width : Nat) : Nat := Nat.pow 256 width

/-- A number as the pattern of its two's complement in some bytes. -/
def toTwosComplement (width : Nat) (z : Int) : Nat :=
  (z % (span width : Int)).toNat

/-- The number that a pattern of some bytes stands for in two's complement. -/
def ofTwosComplement (width : Nat) (n : Nat) : Int :=
  if 2 * n < span width then n else (n : Int) - span width

end MessageCatalog.Wire
