import MessageCatalog.Proofs.Code.Reading

/-!
# The words of generated code

The words that generated code has from the library are fixed texts, and each of them is quiet: it opens neither a
literal nor a comment. So all words of the code are, as long as those of the path to the support code are, which the
configuration brings along.
-/

namespace MessageCatalog

namespace Code

/-- Whether the words of a text with blanks in it are quiet. -/
def areQuietWords (text : List Char) : Bool :=
  (text.splitOn ' ').all isQuietText

/-- Whether a text can be read from its raw literal. -/
def isRawText (text : List Char) : Bool :=
  text.all fun c => c ≠ '"' && c ≠ '\r'

/-- A test of a text is a test of the characters it is spelled with. -/
theorem holds_ofList {holds : List Char → Bool} {chars : List Char} (h : holds chars = true) :
    holds (String.ofList chars).toList = true := by
  rw [String.toList_ofList, h]

@[simp] theorem isQuiet_nil : IsQuiet [] := List.forall_mem_nil _

/-- Two pieces of code are quiet if each is. -/
@[simp] theorem isQuiet_append {a b : Code} : IsQuiet (a ++ b) ↔ IsQuiet a ∧ IsQuiet b := by
  rw [IsQuiet, leaves_append, List.forall_mem_append]
  rfl

/-- The code of a text is quiet if the words of the text are. -/
@[simp] theorem isQuiet_of {text : String} (h : areQuietWords text.toList = true) : IsQuiet (of text) := by
  rw [IsQuiet, leaves_of, of, List.forall_mem_map]
  intro word hword
  rw [Token.isQuiet, String.toList_ofList]
  exact List.all_eq_true.mp h word hword

/-- The code of a quiet word is quiet. -/
@[simp] theorem isQuiet_word {text : String} (h : isQuietText text.toList = true) :
    IsQuiet (word text) := List.forall_mem_singleton.mpr h

/-- A literal is quiet, whatever is in it, since it is written with its quotes. -/
@[simp] theorem isQuiet_literal (content : String) : IsQuiet (literal content) := List.forall_mem_singleton.mpr rfl

/-- The name of a type is quiet. -/
@[simp] theorem isQuiet_typeWord (name : String) : IsQuiet (typeWord name) := List.forall_mem_singleton.mpr rfl

/-- The name of a field is quiet. -/
@[simp] theorem isQuiet_fieldWord (name : String) : IsQuiet (fieldWord name) := List.forall_mem_singleton.mpr rfl

/-- A number is quiet, as it has digits only. -/
@[simp] theorem isQuiet_number (n : Nat) : IsQuiet (number n) := by
  have hdigits : (toString n).toList = Nat.toDigits 10 n := Nat.toList_repr
  refine List.forall_mem_singleton.mpr (isQuietText_of_isCalm fun c hc => ?_)
  exact isCalmChar_of rfl (@Numeral.isDecimal_of_mem_decimal 0 n c (hdigits ▸ hc))

/-- Code in brackets is quiet if the code between them is. -/
theorem isQuiet_group {delimiter : Delimiter} {body : Code} : IsQuiet [.group delimiter body] ↔ IsQuiet body := by
  rw [IsQuiet, leaves_group]
  rfl

@[simp] theorem isQuiet_paren {body : Code} : IsQuiet (paren body) ↔ IsQuiet body := isQuiet_group

@[simp] theorem isQuiet_bracket {body : Code} : IsQuiet (bracket body) ↔ IsQuiet body := isQuiet_group

@[simp] theorem isQuiet_brace {body : Code} : IsQuiet (brace body) ↔ IsQuiet body := isQuiet_group

/-- The code of a list is quiet if that of every item is. -/
@[simp] theorem isQuiet_all {α : Type} {items : List α} {code : α → Code} :
    IsQuiet (all items code) ↔ ∀ item ∈ items, IsQuiet (code item) := by
  induction items with
  | nil => simp [all]
  | cons item items ih => rw [all, List.flatMap_cons, isQuiet_append, List.forall_mem_cons, ← ih, all]

/-- Pieces of code with commas between them are quiet if each is. -/
@[simp] theorem isQuiet_commaSeparated {codes : List Code} : IsQuiet (commaSeparated codes) ↔ ∀ code ∈ codes, IsQuiet code := by
  have hcomma : IsQuiet (word ",") := isQuiet_word (holds_ofList rfl)
  fun_induction commaSeparated codes with
  | case1 => simp
  | case2 last => simp
  | case3 first rest _ ih => simp [ih, hcomma]

/-- The sign in front of an attribute is quiet. -/
theorem isQuiet_sign : IsQuiet (word "#") := isQuiet_word (holds_ofList rfl)

/-- The words in front of a documentation are quiet. -/
theorem isQuiet_docWords : IsQuiet (of "doc =") := isQuiet_of (holds_ofList rfl)

/-- A documentation from the library is quiet if its text can be read from its raw literal. -/
@[simp] theorem isQuiet_doc {text : String} (h : isRawText text.toList = true) : IsQuiet (doc text) := by
  have hraw : IsQuiet [.rawLiteral text] := List.forall_mem_singleton.mpr h
  simp [doc, hraw, isQuiet_sign, isQuiet_docWords]

/-- A documentation from the template is quiet, whatever its text is. -/
@[simp] theorem isQuiet_docOf (text : String) : IsQuiet (docOf text) := by
  simp [docOf, isQuiet_sign, isQuiet_docWords]

/-- An attribute is quiet if its name and its arguments are. -/
@[simp] theorem isQuiet_attr {name : String} {arguments : Code} :
    IsQuiet (attr name arguments) ↔ IsQuiet (word name) ∧ IsQuiet arguments := by
  simp [attr, isQuiet_sign]

end Code

namespace Generator

open Code (of word fieldWord IsQuiet isQuiet_append isQuiet_of isQuiet_word holds_ofList)

variable {g : Generator}

/-- The traits of record types are quiet. -/
theorem isQuiet_derives : IsQuiet derives := by
  simp (disch := exact holds_ofList rfl) [derives]

/-- The bounds of a source are quiet. -/
theorem isQuiet_sourceBound : IsQuiet sourceBound := by
  simp (disch := exact holds_ofList rfl) [sourceBound]

/-- The type that holds the records of a block is quiet. -/
theorem isQuiet_blockFieldType (b : Block) : IsQuiet (g.blockFieldType b) := by
  unfold blockFieldType
  cases b.quantity <;> simp (disch := exact holds_ofList rfl)

/-- The record type of a message is quiet. -/
theorem isQuiet_messageRecord (m : Message) : IsQuiet (g.messageRecord m) := by
  simp (disch := exact holds_ofList rfl) [messageRecord, isQuiet_derives, isQuiet_blockFieldType]

/-- The name of a frequency class is quiet. -/
theorem isQuiet_frequency (frequency : Frequency) : IsQuiet (word frequency.name) := by
  cases frequency <;> exact isQuiet_word (holds_ofList rfl)

/-- A call that writes is quiet if its method and what it writes are. -/
theorem isQuiet_put {method : String} {value : Code} : IsQuiet (put method value) ↔ IsQuiet (of method) ∧ IsQuiet value := by
  simp (disch := exact holds_ofList rfl) [put]

/-- A call that appends bytes is quiet if what it appends is. -/
theorem isQuiet_putBytes {bytes : Code} : IsQuiet (putBytes bytes) ↔ IsQuiet bytes := by
  simp (disch := exact holds_ofList rfl) [putBytes]

/-- Calls that write parts are quiet if their method, the value and the names of the parts are. -/
theorem isQuiet_putParts {method : String} {value : Code} {parts : List String} : IsQuiet (putParts method value parts) ↔
    ∀ part ∈ parts, IsQuiet (of method) ∧ IsQuiet value ∧ IsQuiet (word part) := by
  simp (disch := exact holds_ofList rfl) [putParts, isQuiet_put]

/-- The call that writes a length is quiet. -/
theorem isQuiet_putLength (width : PrefixWidth) : IsQuiet (putLength width) := by
  cases width <;> simp (disch := exact holds_ofList rfl) [putLength, isQuiet_put]

/-- A call that reads is quiet if its method is. -/
theorem isQuiet_take {method : String} : IsQuiet (take method) ↔ IsQuiet (of method) := by
  simp (disch := exact holds_ofList rfl) [take]

/-- An expression that fills an array is quiet if the name of the array and what is made of it are. -/
theorem isQuiet_takeArray {array : String} {value : Code} {size : Nat} :
    IsQuiet (takeArray array size value) ↔ IsQuiet (word array) ∧ IsQuiet value := by
  simp (disch := exact holds_ofList rfl) [takeArray]

/-- The expression that reads a length is quiet. -/
theorem isQuiet_takeLength (width : PrefixWidth) : IsQuiet (takeLength width) := by
  cases width <;> simp (disch := exact holds_ofList rfl) [takeLength, isQuiet_take]

/-- The kind of a message is quiet. -/
theorem isQuiet_kindOf (m : Message) : IsQuiet (kindOf m) := by
  simp (disch := exact holds_ofList rfl) [kindOf]

/-- The variant of a message is quiet. -/
theorem isQuiet_instanceOf (m : Message) : IsQuiet (instanceOf m) := by
  simp (disch := exact holds_ofList rfl) [instanceOf]

/-- A function of kinds is quiet if its name, its type and all its values are. -/
theorem isQuiet_kindFunction {name : String} {type : Code} {messages : List Message} {value : Message → Code} :
    IsQuiet (kindFunction name type messages value) ↔ IsQuiet (word name) ∧ IsQuiet type ∧ ∀ m ∈ messages, IsQuiet (value m) := by
  simp (disch := exact holds_ofList rfl) [kindFunction, isQuiet_kindOf]

section Parts

variable (hg : IsQuiet g.runtime)
include hg

/-- A path into the support code is quiet if what stands behind the path of the configuration is. -/
theorem isQuiet_path {rest : String} (h : Code.areQuietWords rest.toList = true) : IsQuiet (g.path rest) := by
  rw [path, isQuiet_append]
  exact ⟨hg, isQuiet_of h⟩

/-- The type of the values of a field is quiet. -/
theorem isQuiet_typeCode (type : FieldType) : IsQuiet (type.code g) := by
  cases type <;> simp (disch := exact holds_ofList rfl) [FieldType.code, isQuiet_path hg]

/-- The function that encodes is quiet if the name of its buffer and its body are. -/
theorem isQuiet_encodeFunction {buffer : String} {body : Code} (hbuffer : IsQuiet (word buffer)) (hbody : IsQuiet body) :
    IsQuiet (g.encodeFunction buffer body) := by
  simp (disch := exact holds_ofList rfl) [encodeFunction, isQuiet_path hg, hbuffer, hbody]

/-- The function that reads is quiet if what it reads is. -/
theorem isQuiet_readFunction {reads : Code} (h : IsQuiet reads) (isEmpty : Bool) : IsQuiet (g.readFunction isEmpty reads) := by
  cases isEmpty <;> simp (disch := exact holds_ofList rfl) [readFunction, isQuiet_sourceBound, isQuiet_path hg, h]

/-- What is read at a place is quiet, whatever the place is, if the reading is. -/
theorem isQuiet_readAt {read : Code} {place : String} : IsQuiet (g.readAt place read) ↔ IsQuiet read := by
  simp (disch := exact holds_ofList rfl) [readAt, isQuiet_path hg]

/-- The statements that write a field are quiet. -/
theorem isQuiet_writeField (b : Block) (f : Field) : IsQuiet (g.writeField b f) := by
  unfold writeField
  cases f.type <;>
    simp (disch := exact holds_ofList rfl) [isQuiet_put, isQuiet_putBytes, isQuiet_putParts, isQuiet_putLength, isQuiet_path hg]

/-- The expression that reads a field is quiet. -/
theorem isQuiet_readValue (type : FieldType) : IsQuiet (g.readValue type) := by
  cases type <;>
    simp (disch := exact holds_ofList rfl) [readValue, isQuiet_take, isQuiet_takeArray, isQuiet_takeLength, takeParts,
      isQuiet_path hg]

/-- The loop that writes records is quiet if what holds them is. -/
theorem isQuiet_writeRecords {held : Code} : IsQuiet (g.writeRecords held) ↔ IsQuiet held := by
  simp (disch := exact holds_ofList rfl) [writeRecords, isQuiet_path hg]

/-- The statements that write a block are quiet. -/
theorem isQuiet_writeBlock (b : Block) : IsQuiet (g.writeBlock b) := by
  unfold writeBlock
  cases b.quantity <;> simp (disch := exact holds_ofList rfl) [isQuiet_writeRecords hg, isQuiet_path hg]

/-- The expression that reads a record is quiet. -/
theorem isQuiet_readRecord (b : Block) : IsQuiet (g.readRecord b) := by
  simp (disch := exact holds_ofList rfl) [readRecord, isQuiet_path hg]

/-- The expression that reads a block is quiet. -/
theorem isQuiet_readBlock (b : Block) : IsQuiet (g.readBlock b) := by
  unfold readBlock
  cases b.quantity <;>
    simp (disch := exact holds_ofList rfl) [isQuiet_readRecord hg, isQuiet_readAt hg, isQuiet_take, isQuiet_path hg]

/-- The record type of a block is quiet. -/
theorem isQuiet_blockRecord (b : Block) : IsQuiet (g.blockRecord b) := by
  simp (disch := exact holds_ofList rfl) [blockRecord, isQuiet_derives, isQuiet_typeCode hg]

/-- The codec of a block is quiet. -/
theorem isQuiet_blockCodec (b : Block) : IsQuiet (g.itemCode (.blockCodec b)) := by
  have hencode : IsQuiet (g.blockEncode b) := by
    refine isQuiet_encodeFunction hg ?_ (Code.isQuiet_all.mpr fun f _ => isQuiet_writeField hg b f)
    cases b.fields.isEmpty <;> exact isQuiet_word (holds_ofList rfl)
  have hread : IsQuiet (g.blockRead b) := by
    refine isQuiet_readFunction hg (Code.isQuiet_all.mpr fun f _ => ?_) _
    simp (disch := exact holds_ofList rfl) [isQuiet_readAt hg, isQuiet_readValue hg]
  simp (disch := exact holds_ofList rfl) [itemCode, isQuiet_path hg, hencode, hread]

/-- The codec of a message is quiet. -/
theorem isQuiet_messageCodec (m : Message) : IsQuiet (g.itemCode (.messageCodec m)) := by
  have hconstants : IsQuiet (g.messageConstants m) := by
    simp (disch := exact holds_ofList rfl) [messageConstants, isQuiet_path hg, isQuiet_frequency]
  have hencode : IsQuiet (g.messageEncode m) := by
    refine isQuiet_encodeFunction hg (isQuiet_word (holds_ofList rfl)) ?_
    simp (disch := exact holds_ofList rfl) [isQuiet_putBytes, isQuiet_writeBlock hg]
  have hread : IsQuiet (g.messageRead m) := by
    refine isQuiet_readFunction hg (Code.isQuiet_all.mpr fun b _ => ?_) _
    simp (disch := exact holds_ofList rfl) [isQuiet_readBlock hg]
  simp (disch := exact holds_ofList rfl) [itemCode, isQuiet_path hg, hconstants, hencode, hread]

/-- Every part of the generated code is quiet. -/
theorem isQuiet_itemCode (item : Item) : IsQuiet (g.itemCode item) := by
  cases item with
  | blockRecord b => exact isQuiet_blockRecord hg b
  | blockCodec b => exact isQuiet_blockCodec hg b
  | messageRecord m => exact isQuiet_messageRecord m
  | messageCodec m => exact isQuiet_messageCodec hg m

/-- The enumeration of messages is quiet. -/
theorem isQuiet_kinds (messages : List Message) : IsQuiet (g.kinds messages) := by
  simp (disch := exact holds_ofList rfl) [kinds, isQuiet_kindFunction, isQuiet_kindOf, isQuiet_path hg, isQuiet_frequency]

/-- An arm that writes is quiet. -/
theorem isQuiet_writeArm (arm : Arm) : IsQuiet (g.writeArm arm) := by
  unfold writeArm
  split <;> simp (disch := exact holds_ofList rfl) [isQuiet_instanceOf, isQuiet_path hg]

/-- An arm that reads is quiet. -/
theorem isQuiet_readArm (arm : Arm) : IsQuiet (g.readArm arm) := by
  unfold readArm
  split <;> simp (disch := exact holds_ofList rfl) [isQuiet_instanceOf, isQuiet_path hg]

/-- The type of message values is quiet. -/
theorem isQuiet_instances (arms : List Arm) : IsQuiet (g.instances arms) := by
  have hsink : IsQuiet (word (if arms = [] then "_sink" else "sink")) := by
    split <;> exact isQuiet_word (holds_ofList rfl)
  simp (disch := exact holds_ofList rfl) [instances, isQuiet_derives, isQuiet_sourceBound, isQuiet_instanceOf,
    isQuiet_kindOf, isQuiet_writeArm hg, isQuiet_path hg, hsink]

/-- The function that reads the message of a number is quiet. -/
theorem isQuiet_dispatch (arms : List Arm) : IsQuiet (g.dispatch arms) := by
  have hsource : IsQuiet (word (if arms = [] then "_source" else "source")) := by
    split <;> exact isQuiet_word (holds_ofList rfl)
  simp (disch := exact holds_ofList rfl) [dispatch, isQuiet_sourceBound, isQuiet_readArm hg, isQuiet_path hg, hsource]

/-- The words of the code of a template are quiet if those of the path to the support code are. -/
theorem isQuiet_outlineCode (outline : Outline) : IsQuiet (g.outlineCode outline) := by
  simp (disch := exact holds_ofList rfl) [outlineCode, isQuiet_path hg, isQuiet_itemCode hg, isQuiet_kinds hg,
    isQuiet_instances hg, isQuiet_dispatch hg]

end Parts

end Generator

end MessageCatalog
