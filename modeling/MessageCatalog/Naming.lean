import MessageCatalog.Text.Letters

/-!
# Names in generated code

Template names become names of the generated code: message and block names make type names, block and field names make field names
in snake case. A word the target language keeps for itself gets a trailing underscore as a field name, and a type may not take
a name that the generated text uses for something else.
-/

namespace MessageCatalog.Naming

/-- The words of the target language that no field or message may have as its name. -/
def reservedWords : List String :=
  ["_", "abstract", "as", "async", "await", "become", "box", "break", "const", "continue", "crate", "do", "dyn", "else", "enum",
   "extern", "false", "final", "fn", "for", "gen", "if", "impl", "in", "let", "loop", "macro", "match", "mod", "move", "mut",
   "override", "priv", "pub", "ref", "return", "self", "Self", "static", "struct", "super", "trait", "true", "try", "type",
   "typeof", "union", "unsafe", "unsized", "use", "virtual", "where", "while", "yield"]

/-- The names the generated text uses without a path. A generated type of such a name would take its place. -/
def scopeNames : List String :=
  ["Vec", "Result", "Option", "Ok", "Err", "Some", "None", "From", "Self", "LittleEndian", "ReadBytesExt", "WriteBytesExt",
   "MessageType", "MessageInstance", "bool", "char", "str", "u8", "u16", "u32", "u64", "u128", "usize", "i8", "i16", "i32", "i64",
   "i128", "isize", "f32", "f64"]

/-- Whether a name is a reserved word. -/
def isReserved (name : String) : Bool :=
  reservedWords.contains name

/-- Whether a type of the name would take the place of a name in use. -/
def shadowsScope (name : String) : Bool :=
  scopeNames.contains name

/-- Whether an upper-case letter between two neighbours begins a word: it follows a lower-case letter or a digit, or it is the
last of a row of upper-case letters that a lower-case one follows. -/
def beginsWord (before : Option Char) (c : Char) (after : Option Char) : Bool :=
  c.isUpper && match before with
    | none => false
    | some b => b.isLower || b.isDigit || (b.isUpper && after.any Char.isLower)

/-- Snake case of a name whose part up to `before` is done. -/
def snakeFrom (before : Option Char) : List Char → List Char
  | [] => []
  | c :: rest =>
    if c = '-' then '_' :: snakeFrom (some c) rest
    else if beginsWord before c rest.head? then '_' :: c.toLower :: snakeFrom (some c) rest
    else c.toLower :: snakeFrom (some c) rest

/-- A name in snake case: an underscore in front of every word but the first, hyphens as underscores, ASCII letters in lower case.
`AgentID` becomes `agent_id`, and `IDBlock` becomes `id_block`. -/
def snakeCase (name : String) : String :=
  String.ofList (snakeFrom none name.toList)

/-- The field name made from a template name. -/
def fieldName (name : String) : String :=
  let snake := snakeCase name
  if isReserved snake then snake ++ "_" else snake

/-- The type name of a block's record. -/
def blockTypeName (message block separator : String) : String :=
  message ++ separator ++ block

/-- Whether a text can stand inside an identifier: ASCII letters, digits and underscores. -/
def isFragment (text : String) : Bool :=
  text.toList.all fun c => c.isAlphanum || c = '_'

/-- Whether a text is an identifier: a letter or an underscore, then letters, digits and underscores. -/
def isPlainIdentifier (text : List Char) : Bool :=
  match text with
  | [] => false
  | c :: rest => Text.isIdentifierStart c && rest.all Text.isIdentifierPart

/-- The words that stay reserved even behind the mark of a raw identifier. -/
def pathWords : List String :=
  ["_", "super", "self", "Self", "crate"]

/-- Whether a name can be written where an identifier is expected, a raw identifier included. -/
def isIdentifier (name : String) : Bool :=
  match name.toList with
  | 'r' :: '#' :: raw => isPlainIdentifier raw && !pathWords.contains (String.ofList raw)
  | plain => isPlainIdentifier plain

/-- The name as an identifier, if it is one. -/
def typeIdentifier? (name : String) : Option String :=
  if isIdentifier name then some name else none

/-- The field name made from a template name as an identifier, if it is one. -/
def fieldIdentifier? (name : String) : Option String :=
  typeIdentifier? (fieldName name)

/-- What a template name stands for in generated code. -/
inductive NameUse where
  | type
  | field
  deriving DecidableEq, Repr, Inhabited

/-- How a name is written: that of a type as it is, that of a field in snake case. -/
def NameUse.spelling : NameUse → String → String
  | type, name => name
  | field, name => fieldName name

/-- The identifier that a name becomes. Code with a name that becomes none cannot be produced. -/
def NameUse.identifier? : NameUse → String → Option String
  | type, name => typeIdentifier? name
  | field, name => fieldIdentifier? name

end MessageCatalog.Naming
