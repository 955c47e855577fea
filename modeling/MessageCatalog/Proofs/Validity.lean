import MessageCatalog.Error
import MessageCatalog.Naming
import MessageCatalog.Template
import MessageCatalog.Text.Blank

/-!
# Valid templates

What is promised of a template that was read from a source, and what is asked of one that is to be written as a source:
names are names, words and the version tag can stand on a line, ids, counts and sizes are in range, a block knows its
message, and nothing is declared twice. Lines of the source have no part in it.
-/

namespace MessageCatalog

/-- A name: a letter or an underscore, and then letters, digits and underscores, all of them ASCII. -/
def IsName (name : String) : Prop :=
  ∃ c rest, name.toList = c :: rest ∧ (c.isAlpha = true ∨ c = '_') ∧ ∀ d ∈ rest, d.isAlphanum = true ∨ d = '_'

/-- Whether a text ends in no blank. -/
def EndsVisibly (text : List Char) : Prop :=
  ∀ c ∈ text.getLast?, Text.isBlank c = false

/-- Whether a text has no `//`, at which a comment would start. -/
def HasNoComment (text : List Char) : Prop :=
  ¬['/', '/'] <:+: text

/-- A version tag: a text on one line, without a comment, that starts with neither a space nor a tab and ends in no blank. -/
structure IsVersion (tag : String) : Prop where
  nonempty : tag.toList ≠ []
  oneLine : '\n' ∉ tag.toList
  noComment : HasNoComment tag.toList
  startsTight : ∀ c ∈ tag.toList.head?, c ≠ ' ' ∧ c ≠ '\t'
  endsVisibly : EndsVisibly tag.toList

/-- A word: a text without spaces, tabs and line feeds, and without a comment. -/
structure IsWord (word : String) : Prop where
  nonempty : word.toList ≠ []
  unbroken : ∀ c ∈ word.toList, c ≠ ' ' ∧ c ≠ '\t' ∧ c ≠ '\n'
  noComment : HasNoComment word.toList

/-- A field: it has a name, and bytes of a declared number are neither none nor too many. -/
structure Field.Valid (f : Field) : Prop where
  name : IsName f.name
  size : ∀ size, f.type = .fixed size → 1 ≤ size ∧ size ≤ 65535

/-- A block of a message: it has a name, knows its message, and repeats neither zero nor too many times. -/
structure Block.Valid (message : String) (b : Block) : Prop where
  name : IsName b.name
  owner : b.message = message
  count : ∀ count, b.quantity = .multiple count → 1 ≤ count ∧ count ≤ 255
  fields : ∀ f ∈ b.fields, f.Valid

/-- The last word of the header of a message. -/
def Message.lastWord (m : Message) : String :=
  m.deprecation.getD m.encoding

/-- A message: it has a name that is no reserved word and an id of its class, and the words of its header are words, the last of
which ends in no blank. -/
structure Message.Valid (m : Message) : Prop where
  name : IsName m.name
  notReserved : Naming.isReserved m.name = false
  id : m.frequency.Declarable m.id
  trust : IsWord m.trust
  encoding : IsWord m.encoding
  deprecation : ∀ word ∈ m.deprecation, IsWord word
  endsVisibly : EndsVisibly m.lastWord.toList
  blocks : ∀ b ∈ m.blocks, b.Valid m.name

/-- Nothing is declared twice: names and numbers of messages are distinct, and so are the field names made from the blocks of
a message and from the fields of a block. -/
structure Template.Distinct (t : Template) : Prop where
  names : (t.messages.map (·.name)).Nodup
  numbers : (t.messages.map (·.number)).Nodup
  blocks : ∀ m ∈ t.messages, (m.blocks.map fun b => Naming.fieldName b.name).Nodup
  fields : ∀ m ∈ t.messages, ∀ b ∈ m.blocks, (b.fields.map fun f => Naming.fieldName f.name).Nodup

/-- A valid template. -/
structure Template.Valid (t : Template) : Prop where
  version : IsVersion t.version
  messages : ∀ m ∈ t.messages, m.Valid
  distinct : t.Distinct

/-! ## Lines of a template -/

/-- The lines that a block is declared on: that of its header, and then those of its fields. -/
def Block.declarationLines (b : Block) : List Nat :=
  b.line :: b.fields.map (·.line)

/-- The lines that a message is declared on: that of its header, and then those of its blocks. -/
def Message.declarationLines (m : Message) : List Nat :=
  m.line :: m.blocks.flatMap Block.declarationLines

/-- The lines that the parts of a template are declared on, in the order of declaration. -/
def Template.declarationLines (t : Template) : List Nat :=
  t.messages.flatMap Message.declarationLines

end MessageCatalog
