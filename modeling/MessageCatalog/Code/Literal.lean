import MessageCatalog.Text.Letters
import MessageCatalog.Text.Numeral

/-!
# Literals at the front of a text

The literals of the target language: strings, byte strings, strings that end in a null byte, each also raw; characters and bytes;
whole and floating-point numbers. Every function returns what follows the literal, or `none` when there is none.
-/

namespace MessageCatalog.Code

/-- The identifier at the front of a text, and what follows it. -/
def identifier? : List Char → Option (List Char × List Char)
  | [] => none
  | c :: rest =>
    if Text.isIdentifierStart c then
      some (c :: rest.takeWhile Text.isIdentifierPart, rest.dropWhile Text.isIdentifierPart)
    else none

/-- What follows the word that may stand right behind a literal. -/
def afterSuffix (text : List Char) : List Char :=
  match identifier? text with
  | some found => found.2
  | none => text

/-- What a kind of quoted text allows. -/
structure QuoteRules where
  /-- Characters beyond ASCII. -/
  wide : Bool
  /-- Escapes of two hexadecimal digits from `\x80` on. -/
  wideHex : Bool
  /-- Escapes of a code point. -/
  codePoints : Bool
  /-- The null character. -/
  null : Bool
  deriving DecidableEq, Repr, Inhabited

/-- Plain strings. -/
def QuoteRules.plain : QuoteRules := ⟨true, false, true, true⟩

/-- Byte strings. -/
def QuoteRules.bytes : QuoteRules := ⟨false, true, false, true⟩

/-- Strings that end in a null byte. -/
def QuoteRules.nullEnded : QuoteRules := ⟨true, true, true, false⟩

/-- Whether a character may stand for itself. -/
def QuoteRules.admits (rules : QuoteRules) (c : Char) : Bool :=
  (rules.wide || c.toNat < 0x80) && (rules.null || c.toNat ≠ 0)

/-- Where a walk through a quoted text stands: at a plain place, or inside an escape or a line end. -/
inductive QuoteState where
  | plain
  | escape
  | hexHigh
  | hexLow (high : Nat)
  | codeOpening
  | code (digits value : Nat)
  | lineFeed
  deriving DecidableEq, Repr, Inhabited

/-- Whether a number is a code point of a character that the rules admit. -/
def QuoteRules.admitsCode (rules : QuoteRules) (value : Nat) : Bool :=
  (value < 0xD800 || (0xDFFF < value && value < 0x110000)) && (rules.null || value ≠ 0)

/-- The place behind one more character; `none` where the character may not stand. A carriage return needs a line feed. -/
def QuoteRules.step (rules : QuoteRules) : QuoteState → Char → Option QuoteState
  | .plain, c =>
    if c = '\\' then some .escape
    else if c = '\r' then some .lineFeed
    else if rules.admits c then some .plain
    else none
  | .escape, c =>
    if c = 'x' then some .hexHigh
    else if c = 'u' then if rules.codePoints then some .codeOpening else none
    else if c = '0' then if rules.null then some .plain else none
    else if c = '\r' then some .lineFeed
    else if ['n', 'r', 't', '\\', '\'', '"', '\n'].contains c then some .plain
    else none
  | .hexHigh, c =>
    match Numeral.digit? c with
    | some d => if d < 8 || rules.wideHex then some (.hexLow d) else none
    | none => none
  | .hexLow high, c =>
    match Numeral.digit? c with
    | some d => if rules.null || high ≠ 0 || d ≠ 0 then some .plain else none
    | none => none
  | .codeOpening, c => if c = '{' then some (.code 0 0) else none
  | .code digits value, c =>
    match Numeral.digit? c with
    | some d => if digits = 6 then none else some (.code (digits + 1) (value * 16 + d))
    | none =>
      if digits = 0 then none
      else if c = '_' then some (.code digits value)
      else if c = '}' then if rules.admitsCode value then some .plain else none
      else none
  | .lineFeed, c => if c = '\n' then some .plain else none

/-- What follows the closing quote of a text, from a place inside it. -/
def QuoteRules.afterQuoted (rules : QuoteRules) : QuoteState → List Char → Option (List Char)
  | _, [] => none
  | state, c :: rest =>
    if state = .plain ∧ c = '"' then some rest
    else match rules.step state c with
      | some next => rules.afterQuoted next rest
      | none => none

/-- What follows a raw text that a quote and some number signs close. -/
def QuoteRules.afterRaw (rules : QuoteRules) (signs : Nat) : List Char → Option (List Char)
  | [] => none
  | '"' :: rest =>
    if rest.take signs = List.replicate signs '#' then some (rest.drop signs) else rules.afterRaw signs rest
  | '\r' :: '\n' :: rest => rules.afterRaw signs rest
  | c :: rest => if c = '\r' || !rules.admits c then none else rules.afterRaw signs rest

/-- What follows a raw text behind its letters: number signs, at most 255, and a quote. -/
def QuoteRules.afterRawOpening (rules : QuoteRules) (text : List Char) : Option (List Char) :=
  let signs := (text.takeWhile (· = '#')).length
  match text.dropWhile (· = '#') with
  | '"' :: rest => if signs ≤ 255 then rules.afterRaw signs rest else none
  | _ => none

/-- What follows a string of any kind. -/
def afterString? : List Char → Option (List Char)
  | '"' :: rest => QuoteRules.plain.afterQuoted .plain rest
  | 'r' :: rest => QuoteRules.plain.afterRawOpening rest
  | 'b' :: '"' :: rest => QuoteRules.bytes.afterQuoted .plain rest
  | 'b' :: 'r' :: rest => QuoteRules.bytes.afterRawOpening rest
  | 'c' :: '"' :: rest => QuoteRules.nullEnded.afterQuoted .plain rest
  | 'c' :: 'r' :: rest => QuoteRules.nullEnded.afterRawOpening rest
  | _ => none

/-- What follows an escape, from a place inside it. -/
def QuoteRules.afterEscape (rules : QuoteRules) : QuoteState → List Char → Option (List Char)
  | _, [] => none
  | state, c :: rest =>
    match rules.step state c with
    | some .plain => some rest
    | some next => rules.afterEscape next rest
    | none => none

/-- What follows the character of a character literal and its closing quote. A line end cannot be escaped here. -/
def QuoteRules.afterCharacter (rules : QuoteRules) (text : List Char) : Option (List Char) :=
  let behind := match text with
    | '\\' :: '\n' :: _ => none
    | '\\' :: '\r' :: _ => none
    | '\\' :: rest => rules.afterEscape .escape rest
    | c :: rest => if rules.wide || c.toNat < 0x80 then some rest else none
    | [] => none
  match behind with
  | some ('\'' :: rest) => some rest
  | _ => none

/-- What follows a character or a byte. -/
def afterCharacter? : List Char → Option (List Char)
  | '\'' :: rest => QuoteRules.plain.afterCharacter rest
  | 'b' :: '\'' :: rest => QuoteRules.bytes.afterCharacter rest
  | _ => none

/-- What follows a number: a word may stand right behind it, a digit or mark of another script may not. -/
def afterNumber (text : List Char) : Option (List Char) :=
  match text with
  | [] => some []
  | c :: _ =>
    if Text.isIdentifierStart c then some (afterSuffix text)
    else if Text.isIdentifierPart c then none
    else some text

/-- The digits of a floating-point number up to its exponent. -/
structure Mantissa where
  hasPoint : Bool
  hasExponent : Bool
  rest : List Char
  deriving DecidableEq, Repr, Inhabited

/-- The rest of a mantissa. A point that another point or a letter follows belongs to no number. -/
def mantissa? (hasPoint : Bool) : List Char → Option Mantissa
  | [] => some ⟨hasPoint, false, []⟩
  | c :: rest =>
    if Numeral.isDecimal c || c = '_' then mantissa? hasPoint rest
    else if c = '.' && !hasPoint then
      if rest.head?.any fun d => d = '.' || Text.isIdentifierStart d then none else mantissa? true rest
    else some ⟨hasPoint, c = 'e' || c = 'E', c :: rest⟩

/-- What follows the digits of an exponent; `none` if there are no digits or two signs. -/
def afterExponent (signed valued : Bool) : List Char → Option (List Char)
  | [] => if valued then some [] else none
  | c :: rest =>
    if c = '+' || c = '-' then
      if valued then some (c :: rest) else if signed then none else afterExponent true valued rest
    else if Numeral.isDecimal c then afterExponent signed true rest
    else if c = '_' then afterExponent signed valued rest
    else if valued then some (c :: rest)
    else none

/-- What follows a floating-point number. An exponent without digits is none, and the letter then belongs to a word behind it. -/
def afterFloat? : List Char → Option (List Char)
  | [] => none
  | c :: text =>
    if !Numeral.isDecimal c then none
    else do
      let m ← mantissa? false text
      let rest ←
        if m.hasExponent then
          match afterExponent false false m.rest.tail with
          | some rest => some rest
          | none => if m.hasPoint then some m.rest else none
        else if m.hasPoint then some m.rest
        else none
      afterNumber rest

/-- What follows a row of digits in a base. A digit too large for the base is an error, a letter too large ends the row. -/
def afterDigits (base : Nat) (isEmpty : Bool) : List Char → Option (List Char)
  | [] => if isEmpty then none else some []
  | c :: rest =>
    if c = '_' then if isEmpty && base = 10 then none else afterDigits base isEmpty rest
    else match Numeral.digit? c with
      | some d =>
        if d < base then afterDigits base false rest
        else if Numeral.isDecimal c || isEmpty then none
        else some (c :: rest)
      | none => if isEmpty then none else some (c :: rest)

/-- What follows a whole number, decimal or behind the mark of another base. -/
def afterInteger? (text : List Char) : Option (List Char) := do
  let rest ← match text with
    | '0' :: 'x' :: digits => afterDigits 16 true digits
    | '0' :: 'o' :: digits => afterDigits 8 true digits
    | '0' :: 'b' :: digits => afterDigits 2 true digits
    | digits => afterDigits 10 true digits
  afterNumber rest

/-- What follows a literal of any kind. -/
def afterLiteral? (text : List Char) : Option (List Char) :=
  ((afterString? text).map afterSuffix) <|> ((afterCharacter? text).map afterSuffix) <|> afterFloat? text <|> afterInteger? text

end MessageCatalog.Code
