import MessageCatalog.Proofs.Source.Entries
import MessageCatalog.Proofs.Source.Spelling

/-!
# How a template is written

The layout of a template on the lines of a source. A line holds the parts of one declaration, with gaps of spaces and
tabs between them; braces stand on lines of their own around a message and around each of its blocks. Numbers and
keywords may be spelt in any way, every line may be indented and followed by a comment, and between lines there may be
lines with nothing or with comments only. The relations here say what is a way of writing a template, without a word on
how it is read.
-/

namespace MessageCatalog

/-! ## Parts on a line -/

/-- A run of spaces and tabs. -/
def IsRun (run : List Char) : Prop :=
  ∀ c ∈ run, c = ' ' ∨ c = '\t'

/-- A gap between the parts of a line. -/
def IsGap (gap : List Char) : Prop :=
  gap ≠ [] ∧ IsRun gap

/-- A text made of some parts, each behind a gap, and then an ending. -/
inductive Follows (ending : List Char) : List (List Char) → List Char → Prop where
  | nil : Follows ending [] ending
  | cons {gap part rest : List Char} {parts : List (List Char)} (hgap : IsGap gap) (hrest : Follows ending parts rest) :
    Follows ending (part :: parts) (gap ++ part ++ rest)

/-- The part that writes an optional count. -/
inductive SpellsCount : Option Nat → List (List Char) → Prop where
  | none : SpellsCount none []
  | some {n : Nat} {numeral : List Char} (h : Numeral.Spells n numeral) : SpellsCount (some n) [numeral]

/-- The version line: the keyword and the tag. -/
def WritesVersion (tag : String) (text : List Char) : Prop :=
  ∃ keyword gap, SpellsWord "version" keyword ∧ IsGap gap ∧ text = keyword ++ gap ++ tag.toList

/-- The header of a message: name, class, id, trust and encoding, and the deprecation if there is one. -/
def WritesMessage (m : Message) (text : List Char) : Prop :=
  ∃ frequency id rest, SpellsWord m.frequency.name frequency ∧ Numeral.Spells m.id id ∧
    Follows [] ([frequency, id, m.trust.toList, m.encoding.toList] ++ (m.deprecation.map String.toList).toList) rest ∧
    text = m.name.toList ++ rest

/-- The keyword of a quantity. -/
def QuantityWord.keyword : QuantityWord → String
  | .single => "Single"
  | .multiple => "Multiple"
  | .varying => "Variable"

/-- The header of a block: name and quantity, and the count of a multiple block. -/
def WritesBlockHeader (b : Block) (text : List Char) : Prop :=
  ∃ quantity count rest, SpellsWord b.quantity.word.keyword quantity ∧ SpellsCount b.quantity.count? count ∧
    Follows [] (quantity :: count) rest ∧ text = b.name.toList ++ rest

/-- Whether a type is declared by its tag and perhaps a count. A fixed field has its size as the count, and the count 2
makes the length of a variable field two bytes wide; with other types a count, of a word, says nothing. -/
def FieldType.DeclaredBy (type : FieldType) (count : Option Nat) : Prop :=
  (∀ n ∈ count, n < 2 ^ 32) ∧
    match type with
    | .fixed size => count = some size
    | .varying .two => count = some 2
    | .varying .one => count ≠ some 2
    | _ => True

/-- A field: in braces, its name, the tag of its type, and perhaps a count. -/
def WritesField (f : Field) (text : List Char) : Prop :=
  ∃ count numeral lead rest trail, f.type.DeclaredBy count ∧ SpellsCount count numeral ∧ IsRun lead ∧ IsRun trail ∧
    Follows (trail ++ ['}']) (f.type.tag.toList :: numeral) rest ∧ text = '{' :: lead ++ f.name.toList ++ rest

/-! ## Lines of a template -/

/-- The lines of a block: its header and its fields, in braces. -/
inductive WritesBlock (b : Block) : List SourceLine → Prop where
  | intro {opening header closing : SourceLine} {fields : List SourceLine} (hopening : opening.text = "\x7b")
    (hheader : WritesBlockHeader b header.text.toList)
    (hfields : List.Forall₂ (fun f l => WritesField f l.text.toList) b.fields fields) (hclosing : closing.text = "\x7d") :
    WritesBlock b (opening :: header :: fields ++ [closing])

/-- The lines of a message: its header and its blocks, in braces. -/
inductive WritesRegion (m : Message) : List SourceLine → Prop where
  | intro {opening header closing : SourceLine} {blocks : List (List SourceLine)} (hopening : opening.text = "\x7b")
    (hheader : WritesMessage m header.text.toList) (hblocks : List.Forall₂ WritesBlock m.blocks blocks)
    (hclosing : closing.text = "\x7d") : WritesRegion m (opening :: header :: blocks.flatten ++ [closing])

/-- The lines of a template: the version line and its messages. -/
inductive WritesTemplate (t : Template) : List SourceLine → Prop where
  | intro {version : SourceLine} {regions : List (List SourceLine)} (hversion : WritesVersion t.version version.text.toList)
    (hregions : List.Forall₂ WritesRegion t.messages regions) : WritesTemplate t (version :: regions.flatten)

/-! ## Lines of a source -/

/-- A comment, or nothing. -/
def IsComment (comment : List Char) : Prop :=
  comment = [] ∨ ∃ remark, comment = '/' :: '/' :: remark ∧ '\n' ∉ remark

/-- White space that ends no line. -/
def IsBlankRun (blanks : List Char) : Prop :=
  ∀ c ∈ blanks, Text.isBlank c = true ∧ c ≠ '\n'

/-- A line of a source that holds a text: behind white space and in front of white space and perhaps a comment. Behind a
slash a comment starts only when there is a blank between them. -/
def HoldsText (text line : List Char) : Prop :=
  ∃ lead trail comment, IsBlankRun lead ∧ IsBlankRun trail ∧ IsComment comment ∧
    (comment ≠ [] → (text ++ trail).getLast? ≠ some '/') ∧ line = lead ++ text ++ trail ++ comment

/-- The lines of a source, from a number on, with some lines placed on them in order; the others hold nothing. -/
inductive Places : Nat → List (List Char) → List SourceLine → Prop where
  | nil {number : Nat} : Places number [] []
  | skip {number : Nat} {line : List Char} {lines : List (List Char)} {placed : List SourceLine} (hline : HoldsText [] line)
    (hlines : Places (number + 1) lines placed) : Places number (line :: lines) placed
  | place {number : Nat} {text : String} {line : List Char} {lines : List (List Char)} {placed : List SourceLine}
    (hline : HoldsText text.toList line) (hlines : Places (number + 1) lines placed) :
    Places number (line :: lines) (⟨number, text⟩ :: placed)

/-- The lines that declare something: those behind the version line that are no lone braces. -/
def declaringLines (placed : List SourceLine) : List SourceLine :=
  placed.tail.filter fun l => !l.isBrace

/-! ## Templates without their lines -/

/-- The field without its line. -/
def Field.unnumbered (f : Field) : Field :=
  { f with line := 0 }

/-- The block without the lines of its header and its fields. -/
def Block.unnumbered (b : Block) : Block :=
  { b with fields := b.fields.map Field.unnumbered, line := 0 }

/-- The message without the lines of its header and its blocks. -/
def Message.unnumbered (m : Message) : Message :=
  { m with blocks := m.blocks.map Block.unnumbered, line := 0 }

/-- The template without the lines of its messages. -/
def Template.unnumbered (t : Template) : Template :=
  { t with messages := t.messages.map Message.unnumbered }

end MessageCatalog
