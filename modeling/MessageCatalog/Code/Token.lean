import MessageCatalog.Naming
import MessageCatalog.Text.Literal

/-!
# Code as tokens

Generated code is a list of tokens, and a token may be a group of tokens in delimiters. One function writes code as
text: one blank between tokens, none behind a mark that is joined to its successor, and none inside round and square
brackets.
-/

namespace MessageCatalog

/-- The delimiters of a group. -/
inductive Delimiter where
  | paren
  | bracket
  | brace
  deriving DecidableEq, Repr, Inhabited

/-- The text that opens a group. -/
def Delimiter.opening : Delimiter → String
  | paren => "("
  | bracket => "["
  | brace => "\x7b "

/-- The text that closes a group. A closing brace has a blank before it, for which an empty group has one already. -/
def Delimiter.closing : Delimiter → (isEmpty : Bool) → String
  | paren, _ => ")"
  | bracket, _ => "]"
  | brace, true => "\x7d"
  | brace, false => " \x7d"

/-- A token of the target language. -/
inductive Token where
  /-- A word, a number or an operator, as it is written. -/
  | atom (text : String)
  /-- The identifier that a name becomes. -/
  | name (use : Naming.NameUse) (text : String)
  /-- A punctuation character; a joined one stands right before its successor. -/
  | mark (char : Char) (joined : Bool)
  /-- The string literal of a text. -/
  | literal (content : String)
  /-- The raw string literal of a text that has no quote. -/
  | rawLiteral (content : String)
  /-- Tokens in delimiters. -/
  | group (delimiter : Delimiter) (body : List Token)
  deriving Inhabited

/-- Code is a list of tokens. -/
abbrev Code := List Token

/-- Whether the token stands right before its successor. -/
def Token.joinsNext : Token → Bool
  | mark _ joined => joined
  | _ => false

mutual

/-- The pieces of text a token is written as. -/
def Token.pieces : Token → List String
  | .atom text => [text]
  | .name use text => [use.spelling text]
  | .mark char _ => [String.singleton char]
  | .literal content => [Text.quote content]
  | .rawLiteral content => ["r\"", content, "\""]
  | .group delimiter body => delimiter.opening :: (Code.pieces body ++ [delimiter.closing body.isEmpty])

/-- The pieces of text that code is written as, blanks included. -/
def Code.pieces : List Token → List String
  | [] => []
  | token :: rest => token.pieces ++ (if rest.isEmpty || token.joinsNext then [] else [" "]) ++ Code.pieces rest

end

namespace Code

/-- Code as text. -/
def render (code : Code) : String :=
  String.join (pieces code)

/-- The code of a text in which single blanks separate the tokens. -/
def of (text : String) : Code :=
  (text.toList.splitOn ' ').map fun word => .atom (String.ofList word)

/-- The code of one word. -/
def word (text : String) : Code := [.atom text]

/-- The name of a type as code. -/
def typeWord (name : String) : Code := [.name .type name]

/-- The name of a field, made from a template name, as code. -/
def fieldWord (name : String) : Code := [.name .field name]

/-- The code of a number. -/
def number (n : Nat) : Code := [.atom (toString n)]

/-- The string literal of a text as code. -/
def literal (content : String) : Code := [.literal content]

/-- Code in round brackets. -/
def paren (body : Code) : Code := [.group .paren body]

/-- Code in square brackets. -/
def bracket (body : Code) : Code := [.group .bracket body]

/-- Code in braces. -/
def brace (body : Code) : Code := [.group .brace body]

/-- Several pieces of code one after the other. -/
def all {α : Type} (items : List α) (code : α → Code) : Code :=
  items.flatMap code

/-- Several pieces of code with commas between them. -/
def commaSeparated : List Code → Code
  | [] => []
  | [last] => last
  | first :: rest => first ++ word "," ++ commaSeparated rest

/-- An attribute that documents what follows, from a text of the library. -/
def doc (text : String) : Code :=
  word "#" ++ bracket (of "doc =" ++ [.rawLiteral text])

/-- An attribute that documents what follows, from a text of the template. -/
def docOf (text : String) : Code :=
  word "#" ++ bracket (of "doc =" ++ literal text)

/-- An attribute with arguments. -/
def attr (name : String) (arguments : Code) : Code :=
  word "#" ++ bracket (word name ++ paren arguments)

end Code

end MessageCatalog
