/-!
# Numerals

Reading decimal and hexadecimal numerals of any length, exactly or by the arithmetic of a 32-bit word up to its limit, and writing
hexadecimal ones.
-/

namespace MessageCatalog.Numeral

/-- The value of a hexadecimal digit of either case. -/
def digit? (c : Char) : Option Nat :=
  if '0' ≤ c ∧ c ≤ '9' then some (c.toNat - '0'.toNat)
  else if 'a' ≤ c ∧ c ≤ 'f' then some (c.toNat - 'a'.toNat + 10)
  else if 'A' ≤ c ∧ c ≤ 'F' then some (c.toNat - 'A'.toNat + 10)
  else none

/-- Whether a character is a decimal digit. -/
def isDecimal (c : Char) : Bool :=
  '0' ≤ c && c ≤ '9'

/-- Whether a character is a hexadecimal digit. -/
def isHexadecimal (c : Char) : Bool :=
  (digit? c).isSome

/-- The positional value of the digits in the base, put behind what was read so far; `none` at a character that is no digit. -/
def valueFrom (base acc : Nat) : List Char → Option Nat
  | [] => some acc
  | c :: rest =>
    match digit? c with
    | some d => if d < base then valueFrom base (acc * base + d) rest else none
    | none => none

/-- The positional value of a non-empty row of digits. -/
def value (base : Nat) (digits : List Char) : Option Nat :=
  if digits.isEmpty then none else valueFrom base 0 digits

/-- The number of values of a 32-bit word. -/
def wordLimit : Nat := UInt32.size

/-- The product of two words, if a word holds it. -/
def mulWord? (a b : UInt32) : Option UInt32 :=
  if a.toNat * b.toNat < wordLimit then some (a * b) else none

/-- The sum of two words, if a word holds it. -/
def addWord? (a b : UInt32) : Option UInt32 :=
  if a.toNat + b.toNat < wordLimit then some (a + b) else none

/-- The word that the digits in the base make behind what was read so far. The product and the sum are checked at every
digit: reading stops where a word no longer holds the number, and also at a character that is no digit. -/
def wordFrom (base acc : UInt32) : List Char → Option UInt32
  | [] => some acc
  | c :: rest =>
    match digit? c with
    | some d =>
      if d < base.toNat then ((mulWord? acc base).bind (addWord? · (UInt32.ofNat d))).bind (wordFrom base · rest) else none
    | none => none

/-- The word of a non-empty row of digits. -/
def word (base : UInt32) (digits : List Char) : Option UInt32 :=
  if digits.isEmpty then none else wordFrom base 0 digits

/-- The number a numeral stands for, hexadecimal after `0x` or `0X` and decimal otherwise; `none` when it does not fit a 32-bit
word, whatever the number of digits. -/
def read (numeral : List Char) : Option Nat :=
  let number := match numeral with
    | '0' :: 'x' :: digits => word 16 digits
    | '0' :: 'X' :: digits => word 16 digits
    | digits => word 10 digits
  number.map UInt32.toNat

/-- The hexadecimal digits of a number in lower case, without leading zeros. -/
def hexDigits (n : Nat) : String :=
  String.ofList (Nat.toDigits 16 n)

/-- A number in hexadecimal behind `0x`. -/
def hex (n : Nat) : String :=
  "0x" ++ hexDigits n

/-- A number in hexadecimal behind `0x`, filled with zeros to eight digits. -/
def hexWord (n : Nat) : String :=
  let digits := Nat.toDigits 16 n
  "0x" ++ String.ofList (List.replicate (8 - digits.length) '0' ++ digits)

end MessageCatalog.Numeral
