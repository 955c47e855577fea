import MessageCatalog.Code.Literal
import MessageCatalog.Code.Token
import MessageCatalog.Naming
import MessageCatalog.Text.Blank

/-!
# Reading code

A text of the target language is read into tokens: blanks and comments separate, a comment that documents becomes an
attribute, and brackets have to match.
-/

namespace MessageCatalog.Code

/-- What stands at one place of a text: a bracket, or tokens. -/
inductive Lexeme where
  | opening (delimiter : Delimiter)
  | closing (delimiter : Delimiter)
  | tokens (code : Code)
  deriving Inhabited

/-- What follows a comment that may hold comments, from a place inside it at some depth. -/
def afterComment (depth : Nat) : List Char → Option (List Char)
  | '/' :: '*' :: rest => afterComment (depth + 1) rest
  | '*' :: '/' :: rest => if depth ≤ 1 then some rest else afterComment (depth - 1) rest
  | _ :: rest => afterComment depth rest
  | [] => none

/-- Whether a comment documents something: it opens with three strokes or two stars, and not with more, or with an exclamation
mark. -/
def isDocumentation (text : List Char) : Bool :=
  match text with
  | '/' :: '/' :: '!' :: _ => true
  | '/' :: '*' :: '!' :: _ => true
  | '/' :: '/' :: '/' :: rest => rest.head? != some '/'
  | '/' :: '*' :: '*' :: rest => rest.head? != some '*' && rest.head? != some '/'
  | _ => false

/-- The text up to the end of the line, without a carriage return in front of it. -/
def lineText (text : List Char) : List Char :=
  let line := text.takeWhile (· ≠ '\n')
  if line.length < text.length && line.getLast? = some '\r' then line.dropLast else line

/-- Whether every carriage return is followed by a line feed. -/
def hasLineEnds : List Char → Bool
  | [] => true
  | c :: rest => (c ≠ '\r' || rest.head? == some '\n') && hasLineEnds rest

/-- Whether a character separates tokens. The two direction marks do as well as blanks. -/
def separates (c : Char) : Bool :=
  Text.isBlank c || c.toNat = 0x200E || c.toNat = 0x200F

/-- What follows a blank or a comment at the front of a text. -/
def afterSeparator? (text : List Char) : Option (List Char) :=
  match text with
  | [] => none
  | c :: rest =>
    if separates c then some rest
    else if isDocumentation text then none
    else match text with
      | '/' :: '/' :: line => some (line.dropWhile (· ≠ '\n'))
      | '/' :: '*' :: _ => afterComment 0 text
      | _ => none

/-- The attribute that a documenting comment stands for; `inner` ones document what they stand in. -/
def documentation (inner : Bool) (content : List Char) : Code :=
  word "#" ++ (if inner then word "!" else []) ++ bracket (of "doc =" ++ literal (String.ofList content))

/-- A documenting comment at the front of a text, as its attribute, and what follows it. -/
def documentation? (text : List Char) : Option (Code × List Char) :=
  if !isDocumentation text then none
  else match text with
    | '/' :: '/' :: kind :: line =>
      let content := lineText line
      if hasLineEnds content then some (documentation (kind = '!') content, line.drop content.length) else none
    | '/' :: '*' :: kind :: inside =>
      match afterComment 0 text with
      | some rest =>
        let content := inside.take (inside.length - rest.length - 2)
        if hasLineEnds content then some (documentation (kind = '!') content, rest) else none
      | none => none
    | _ => none

/-- The punctuation characters. -/
def isMark (c : Char) : Bool :=
  "~!@#$%^&*-=+|;:,<.>/?'".toList.contains c

/-- The punctuation character at the front of a text. The stroke of a comment is none. -/
def mark? : List Char → Option (Char × List Char)
  | '/' :: '/' :: _ => none
  | '/' :: '*' :: _ => none
  | c :: rest => if isMark c then some (c, rest) else none
  | [] => none

/-- The identifier at the front of a text, a raw one included, and what follows it. -/
def anyIdentifier? (text : List Char) : Option (String × List Char) :=
  match text with
  | 'r' :: '#' :: raw =>
    match identifier? raw with
    | some found =>
      let name := String.ofList found.1
      if Naming.pathWords.contains name then none else some ("r#" ++ name, found.2)
    | none => none
  | _ => (identifier? text).map fun found => (String.ofList found.1, found.2)

/-- Whether a quote at the front of a text opens a lifetime: an identifier follows, and no second quote. -/
def opensLifetime (text : List Char) : Bool :=
  match anyIdentifier? text with
  | some (_, '\'' :: _) => false
  | some (_, '#' :: _) => text.take 2 == ['r', '#']
  | some _ => true
  | none => false

/-- The openings of strings and bytes, at which no identifier starts. -/
def literalOpenings : List String :=
  ["r\"", "r#\"", "r##", "b\"", "b'", "br\"", "br#", "c\"", "cr\"", "cr#"]

/-- Whether a text opens like a string or a byte. -/
def opensLiteral (text : List Char) : Bool :=
  literalOpenings.any fun opening => opening.toList.isPrefixOf text

/-- The token at the front of a text that is no bracket, and what follows it. -/
def leaf? (text : List Char) : Option (Token × List Char) :=
  match afterLiteral? text with
  | some rest => some (.atom (String.ofList (text.take (text.length - rest.length))), rest)
  | none => match mark? text with
    | some (c, rest) =>
      if c = '\'' then if opensLifetime rest then some (.mark c true, rest) else none
      else some (.mark c (mark? rest).isSome, rest)
    | none =>
      if opensLiteral text then none
      else (anyIdentifier? text).map fun found => (.atom found.1, found.2)

/-- The token that stands for code that could not be read. It is written like a comment in round brackets. -/
def errorToken : String := "(/*ERROR*/)"

/-- What stands at the front of a text without blanks there, and what follows it. -/
def lexeme? (text : List Char) : Option (Lexeme × List Char) :=
  match documentation? text with
  | some (code, rest) => some (.tokens code, rest)
  | none =>
    if errorToken.toList.isPrefixOf text then some (.tokens (word errorToken), text.drop errorToken.length)
    else match text with
    | '(' :: rest => some (.opening .paren, rest)
    | '[' :: rest => some (.opening .bracket, rest)
    | '{' :: rest => some (.opening .brace, rest)
    | ')' :: rest => some (.closing .paren, rest)
    | ']' :: rest => some (.closing .bracket, rest)
    | '}' :: rest => some (.closing .brace, rest)
    | _ => (leaf? text).map fun found => (.tokens [found.1], found.2)

/-- The lexemes of a text. Every step leaves a shorter rest. -/
def lexemes? (text : List Char) : Option (List Lexeme) :=
  if text.isEmpty then some []
  else match afterSeparator? text with
    | some rest => if rest.length < text.length then lexemes? rest else none
    | none => match lexeme? text with
      | some (lexeme, rest) => if rest.length < text.length then (lexemes? rest).map (lexeme :: ·) else none
      | none => none
termination_by text.length

/-- Gathers lexemes into groups. The open groups stand innermost first, each with the tokens in front of it in reverse. -/
def gather : List (Delimiter × Code) → Code → List Lexeme → Option Code
  | [], done, [] => some done.reverse
  | _ :: _, _, [] => none
  | outer, done, .tokens code :: rest => gather outer (code.reverse ++ done) rest
  | outer, done, .opening delimiter :: rest => gather ((delimiter, done) :: outer) [] rest
  | [], _, .closing _ :: _ => none
  | (delimiter, before) :: outer, done, .closing closed :: rest =>
    if delimiter = closed then gather outer (.group delimiter done.reverse :: before) rest else none

/-- The code that a text spells, if it does. A byte order mark at the front does not count. -/
def read? (text : String) : Option Code :=
  let body := match text.toList with
    | c :: rest => if c.toNat = 0xFEFF then rest else c :: rest
    | [] => []
  (lexemes? body).bind (gather [] [])

end MessageCatalog.Code
