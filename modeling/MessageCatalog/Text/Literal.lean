import MessageCatalog.Text.Numeral
import MessageCatalog.Text.Visible

/-!
# Quoted texts

A text written as a string literal of the target language. A quote, a backslash and the common controls are written behind
a backslash, and every other character that does not show by itself as its code point, so that the literal is one line and ends
at its closing quote.
-/

namespace MessageCatalog.Text

/-- Whether a digit behind `\0` would read as a part of the escape in other languages. -/
def isOctal (c : Char) : Bool :=
  '0' ≤ c && c ≤ '7'

/-- How a character is written inside quotes. Only the null character looks at the one that follows: in front of an octal digit
it takes the longer form. -/
def escapeChar (c : Char) (next : Option Char) : List Char :=
  if c.toNat = 0 then if next.any isOctal then ['\\', 'x', '0', '0'] else ['\\', '0']
  else if c = '\t' then ['\\', 't']
  else if c = '\r' then ['\\', 'r']
  else if c = '\n' then ['\\', 'n']
  else if c = '\\' then ['\\', '\\']
  else if c = '"' then ['\\', '"']
  else if isVisible c then [c]
  else ['\\', 'u', '{'] ++ Nat.toDigits 16 c.toNat ++ ['}']

/-- A text as it is written inside quotes. -/
def escape : List Char → List Char
  | [] => []
  | c :: rest => escapeChar c rest.head? ++ escape rest

/-- A text as a string literal. -/
def quote (text : String) : String :=
  String.ofList ('"' :: escape text.toList ++ ['"'])

end MessageCatalog.Text
