import MessageCatalog.Code.Generate
import MessageCatalog.Proofs.Code.Leaves
import MessageCatalog.Proofs.Naming

/-!
# The names in generated code

Generated code takes names from the template and from nowhere else: code that is read from a text, such as the path to
the support code, has no names of its own. If the names of the template are names, and its blocks know their messages,
every name in the code of the template is one, and so becomes an identifier.
-/

namespace MessageCatalog

open Naming (NameUse)

mutual

/-- The names in a token, each with what it stands for. -/
def Token.names : Token → List (NameUse × String)
  | .name use text => [(use, text)]
  | .group _ body => Code.names body
  | _ => []

/-- The names in code, those in its groups included. -/
def Code.names : List Token → List (NameUse × String)
  | [] => []
  | token :: rest => token.names ++ Code.names rest

end

namespace Code

/-- The names in two pieces of code are those of the first one and then those of the second one. -/
@[simp] theorem names_append (a b : Code) : names (a ++ b) = names a ++ names b := by
  induction a with
  | nil => rfl
  | cons token a ih => rw [List.cons_append, names, names, ih, List.append_assoc]

/-- The names in a group are those in its body. -/
@[simp] theorem names_group (delimiter : Delimiter) (body : Code) : names [.group delimiter body] = names body := by
  simp [names, Token.names]

/-- The names in the code of a list are those of its items in order. -/
theorem names_flatMap {α : Type} (items : List α) (code : α → Code) :
    names (items.flatMap code) = items.flatMap fun item => names (code item) := by
  induction items with
  | nil => rfl
  | cons item items ih => rw [List.flatMap_cons, names_append, ih, List.flatMap_cons]

/-! ## Code that is read from a text -/

/-- Whether no token has a name. -/
def IsNameless (code : Code) : Prop :=
  ∀ token ∈ code, token.names = []

/-- Code has no names if none of its tokens has. -/
theorem names_eq_nil_iff {code : Code} : names code = [] ↔ IsNameless code := by
  induction code with
  | nil => simp [names, IsNameless]
  | cons token code ih =>
    rw [names, List.append_eq_nil_iff, ih, IsNameless, IsNameless, List.forall_mem_cons]

/-- The code of a text has no names. -/
theorem isNameless_of (text : String) : IsNameless (of text) := by
  intro token htoken
  obtain ⟨word, -, rfl⟩ := List.mem_map.mp htoken
  rfl

end Code

mutual

/-- The names in a token are those of its tokens that are no groups. -/
theorem Token.names_eq_leaves (token : Token) : token.names = token.leaves.flatMap Token.names :=
  match token with
  | .atom _ => rfl
  | .name _ _ => rfl
  | .mark _ _ => rfl
  | .literal _ => rfl
  | .rawLiteral _ => rfl
  | .group _ body => Code.names_eq_leaves body

/-- The names in code are those of its tokens that are no groups. -/
theorem Code.names_eq_leaves (code : List Token) : Code.names code = (Code.leaves code).flatMap Token.names :=
  match code with
  | [] => rfl
  | token :: rest => by
    rw [Code.names, Code.leaves, List.flatMap_append, token.names_eq_leaves, Code.names_eq_leaves rest]

end

namespace Code

/-- Code that is read from a text has no names. -/
theorem names_of_read? {text : String} {code : Code} (h : read? text = some code) : names code = [] := by
  rw [names_eq_leaves, List.flatMap_eq_nil_iff]
  intro leaf hleaf
  have hlexed := isLexed_of_read? h leaf hleaf
  cases leaf with
  | atom text => rfl
  | mark char joined => rfl
  | literal content => rfl
  | _ => cases hlexed

/-! ## Code all of whose names are names of the template language -/

/-- Whether every name in the code is one that a template can declare. -/
def IsNamed (code : Code) : Prop :=
  ∀ named ∈ names code, IsName named.2

/-- Where there are no names, all of them are names of the template language. -/
theorem IsNameless.isNamed {code : Code} (h : IsNameless code) : IsNamed code := by
  rw [IsNamed, names_eq_nil_iff.mpr h]
  exact List.forall_mem_nil _

@[simp] theorem isNamed_nil : IsNamed [] := List.forall_mem_nil _

/-- Two pieces of code have such names only if each has. -/
@[simp] theorem isNamed_append {a b : Code} : IsNamed (a ++ b) ↔ IsNamed a ∧ IsNamed b := by
  rw [IsNamed, names_append, List.forall_mem_append]
  rfl

/-- The code of a text has no names, so no others. -/
@[simp] theorem isNamed_of (text : String) : IsNamed (of text) := (isNameless_of text).isNamed

@[simp] theorem isNamed_word (text : String) : IsNamed (word text) := List.forall_mem_nil _

@[simp] theorem isNamed_number (n : Nat) : IsNamed (number n) := List.forall_mem_nil _

@[simp] theorem isNamed_literal (content : String) : IsNamed (literal content) := List.forall_mem_nil _

/-- The name of a type is one that a template can declare, if its text is. -/
@[simp] theorem isNamed_typeWord {name : String} : IsNamed (typeWord name) ↔ IsName name :=
  List.forall_mem_singleton

/-- The name of a field is one that a template can declare, if its text is. -/
@[simp] theorem isNamed_fieldWord {name : String} : IsNamed (fieldWord name) ↔ IsName name :=
  List.forall_mem_singleton

/-- What is in brackets has such names only if the code between them has. -/
theorem isNamed_group {delimiter : Delimiter} {body : Code} : IsNamed [.group delimiter body] ↔ IsNamed body := by
  rw [IsNamed, names_group]
  rfl

@[simp] theorem isNamed_paren {body : Code} : IsNamed (paren body) ↔ IsNamed body := isNamed_group

@[simp] theorem isNamed_bracket {body : Code} : IsNamed (bracket body) ↔ IsNamed body := isNamed_group

@[simp] theorem isNamed_brace {body : Code} : IsNamed (brace body) ↔ IsNamed body := isNamed_group

/-- The code of a list has such names only if that of every item has. -/
@[simp] theorem isNamed_all {α : Type} {items : List α} {code : α → Code} :
    IsNamed (all items code) ↔ ∀ item ∈ items, IsNamed (code item) := by
  simp only [IsNamed, all, names_flatMap, List.mem_flatMap]
  constructor
  · intro h item hitem named hnamed
    exact h named ⟨item, hitem, hnamed⟩
  · rintro h named ⟨item, hitem, hnamed⟩
    exact h item hitem named hnamed

/-- Pieces of code with commas between them have such names only if each has. -/
@[simp] theorem isNamed_commaSeparated {codes : List Code} : IsNamed (commaSeparated codes) ↔ ∀ code ∈ codes, IsNamed code := by
  fun_induction commaSeparated codes with
  | case1 => simp
  | case2 last => simp
  | case3 first rest _ ih => simp [ih]

/-- A documentation from the library has no names. -/
@[simp] theorem isNamed_doc (text : String) : IsNamed (doc text) := by
  have hraw : IsNamed [.rawLiteral text] := List.forall_mem_nil _
  simp [doc, hraw]

/-- A documentation from the template is a literal and has no names. -/
@[simp] theorem isNamed_docOf (text : String) : IsNamed (docOf text) := by
  simp [docOf]

/-- An attribute has the names of its arguments. -/
@[simp] theorem isNamed_attr {name : String} {arguments : Code} : IsNamed (attr name arguments) ↔ IsNamed arguments := by
  simp [attr]

end Code

/-! ## The names in the code of a template -/

open Code (IsNamed isNamed_append isNamed_of)

/-- What generated code relies on in a generator: nothing in the path to the support code depends on the template, and
the separator can stand in a name. -/
structure Generator.Sound (g : Generator) : Prop where
  runtime : Code.names g.runtime = []
  separator : Naming.isFragment g.config.separator = true

/-- A configuration that passes its check is kept, with its path as code. -/
theorem Config.of_toGenerator {config : Config} {g : Generator} (h : config.toGenerator = .ok g) :
    ∃ runtime, Code.read? (String.ofList (Text.trim config.runtimePath.toList)) = some runtime ∧
      Naming.isFragment config.separator = true ∧ g = ⟨config, runtime⟩ := by
  unfold Config.toGenerator at h
  simp only at h
  split at h
  · cases h
  split at h
  · cases h
  · rename_i runtime hruntime
    split at h
    · rename_i hseparator
      exact ⟨runtime, hruntime, hseparator, (Except.ok.inj h).symm⟩
    · cases h

/-- A configuration that passes the check has a path without names and a separator that can stand in a name. -/
theorem Config.sound_of_toGenerator {config : Config} {g : Generator} (h : config.toGenerator = .ok g) : g.Sound := by
  obtain ⟨runtime, hruntime, hseparator, rfl⟩ := Config.of_toGenerator h
  exact ⟨Code.names_of_read? hruntime, hseparator⟩

/-- The parts of the code of a message are made from it and its blocks. -/
theorem Message.of_mem_items {m : Message} {hasCodec : Bool} {item : Item} (h : item ∈ m.items hasCodec) :
    (∃ b ∈ m.blocks, item = .blockRecord b ∨ item = .blockCodec b) ∨ item = .messageRecord m ∨ item = .messageCodec m := by
  rcases List.mem_append.mp h with h | h
  · obtain ⟨b, hb, h⟩ := List.mem_flatMap.mp h
    refine .inl ⟨b, hb, ?_⟩
    cases hasCodec <;> simp_all
  · refine .inr ?_
    cases hasCodec <;> simp_all

namespace Generator

variable {g : Generator}

/-- A path into the support code has no names. -/
@[simp] theorem Sound.isNamed_path (hg : g.Sound) (rest : String) : IsNamed (g.path rest) := by
  have hruntime : IsNamed g.runtime := (Code.names_eq_nil_iff.mp hg.runtime).isNamed
  rw [path, isNamed_append]
  exact ⟨hruntime, isNamed_of rest⟩

/-- What the code of a block takes from the template. -/
structure BlockNamed (g : Generator) (b : Block) : Prop where
  type : IsName (g.blockTypeName b)
  name : IsName b.name
  fields : ∀ f ∈ b.fields, IsName f.name

/-- What the code of a message takes from the template. -/
structure MessageNamed (g : Generator) (m : Message) : Prop where
  name : IsName m.name
  blocks : ∀ b ∈ m.blocks, g.BlockNamed b

/-- A valid block has a type name and field names that are names. -/
theorem Sound.blockNamed (hg : g.Sound) {message : String} (hmessage : IsName message) {b : Block} (hb : b.Valid message) :
    g.BlockNamed b where
  type := by
    rw [blockTypeName, hb.owner]
    exact Naming.isName_blockTypeName hmessage hb.name hg.separator
  name := hb.name
  fields := fun f hf => (hb.fields f hf).name

/-- A valid message has a name, and blocks that are named. -/
theorem Sound.messageNamed (hg : g.Sound) {m : Message} (hm : m.Valid) : g.MessageNamed m where
  name := hm.name
  blocks := fun b hb => hg.blockNamed hm.name (hm.blocks b hb)

/-- The type that holds the records of a block is named by its record type alone. -/
theorem isNamed_blockFieldType {b : Block} (hb : g.BlockNamed b) : IsNamed (g.blockFieldType b) := by
  have htype := hb.type
  unfold blockFieldType
  cases b.quantity <;> simp [htype]

/-- The record type of a message has the names of the message and its blocks. -/
theorem isNamed_messageRecord {m : Message} (hm : g.MessageNamed m) : IsNamed (g.messageRecord m) := by
  have hname := hm.name
  have hblocks : ∀ b ∈ m.blocks, IsName b.name ∧ IsNamed (g.blockFieldType b) :=
    fun b hb => ⟨(hm.blocks b hb).name, isNamed_blockFieldType (hm.blocks b hb)⟩
  simp +contextual [messageRecord, derives, hname, hblocks]

/-- The kind of a message has the name of the message. -/
theorem isNamed_kindOf {m : Message} (h : IsName m.name) : IsNamed (kindOf m) := by
  simp [kindOf, h]

/-- The variant of a message has the name of the message. -/
theorem isNamed_instanceOf {m : Message} (h : IsName m.name) : IsNamed (instanceOf m) := by
  simp [instanceOf, h]

/-- A function of kinds has the names of the messages, its type and its values. -/
theorem isNamed_kindFunction {name : String} {type : Code} {messages : List Message} {value : Message → Code}
    (hmessages : ∀ m ∈ messages, IsName m.name) (htype : IsNamed type) (hvalue : ∀ m ∈ messages, IsNamed (value m)) :
    IsNamed (kindFunction name type messages value) := by
  have harms : ∀ m ∈ messages, IsNamed (kindOf m) ∧ IsNamed (value m) :=
    fun m hm => ⟨isNamed_kindOf (hmessages m hm), hvalue m hm⟩
  simp +contextual [kindFunction, htype, harms]

section Parts

variable (hg : g.Sound)
include hg

/-- The type of the values of a field has no names. -/
theorem Sound.isNamed_typeCode (type : FieldType) : IsNamed (type.code g) := by
  cases type <;> simp [FieldType.code, hg]

/-- The function that encodes has the names of its body. -/
theorem Sound.isNamed_encodeFunction {buffer : String} {body : Code} (h : IsNamed body) :
    IsNamed (g.encodeFunction buffer body) := by
  simp [encodeFunction, hg, h]

/-- The function that reads has the names of what it reads. -/
theorem Sound.isNamed_readFunction {isEmpty : Bool} {reads : Code} (h : IsNamed reads) :
    IsNamed (g.readFunction isEmpty reads) := by
  simp [readFunction, sourceBound, hg, h]

/-- The statements that write a field have the name of the field. -/
theorem Sound.isNamed_writeField (b : Block) {f : Field} (hf : IsName f.name) : IsNamed (g.writeField b f) := by
  unfold writeField
  cases f.type with
  | varying width => cases width <;> simp [put, putBytes, putLength, hg, hf]
  | _ => simp [put, putBytes, putParts, hg, hf]

/-- The expression that reads a value has no names. -/
theorem Sound.isNamed_readValue (type : FieldType) : IsNamed (g.readValue type) := by
  cases type with
  | varying width => cases width <;> simp [readValue, take, takeLength]
  | _ => simp [readValue, take, takeArray, takeParts, hg]

/-- What is read at a place has the names of the reading, as the place is a literal. -/
theorem Sound.isNamed_readAt (place : String) {read : Code} (h : IsNamed read) : IsNamed (g.readAt place read) := by
  simp [readAt, hg, h]

/-- The statements that write a block have the name of the block. -/
theorem Sound.isNamed_writeBlock {b : Block} (hb : g.BlockNamed b) : IsNamed (g.writeBlock b) := by
  have hname := hb.name
  unfold writeBlock
  cases b.quantity <;> simp [writeRecords, hg, hname]

/-- The expression that reads a block has the name of its record type. -/
theorem Sound.isNamed_readBlock {b : Block} (hb : g.BlockNamed b) : IsNamed (g.readBlock b) := by
  have htype := hb.type
  have hrecord : IsNamed (g.readRecord b) := by simp [readRecord, hg, htype]
  have hcount : IsNamed (take "read_u8") := by simp [take]
  unfold readBlock
  cases b.quantity <;> simp [hrecord, hg.isNamed_readAt _ hcount, hg, htype]

/-- The record type of a block has its own name and those of the fields. -/
theorem Sound.isNamed_blockRecord {b : Block} (hb : g.BlockNamed b) : IsNamed (g.blockRecord b) := by
  have htype := hb.type
  have hfields := hb.fields
  simp +contextual [blockRecord, derives, htype, hfields, hg.isNamed_typeCode]

/-- The codec of a block has the names of the block and its fields. -/
theorem Sound.isNamed_blockCodec {b : Block} (hb : g.BlockNamed b) : IsNamed (g.itemCode (.blockCodec b)) := by
  have hencode : IsNamed (g.blockEncode b) :=
    hg.isNamed_encodeFunction (Code.isNamed_all.mpr fun f hf => hg.isNamed_writeField b (hb.fields f hf))
  have hread : IsNamed (g.blockRead b) := by
    refine hg.isNamed_readFunction (Code.isNamed_all.mpr fun f hf => ?_)
    have hname := hb.fields f hf
    simp [hname, hg.isNamed_readAt _ (hg.isNamed_readValue f.type)]
  have htype := hb.type
  simp [itemCode, hg, htype, hencode, hread]

/-- The codec of a message has the names of the message and its blocks. -/
theorem Sound.isNamed_messageCodec {m : Message} (hm : g.MessageNamed m) : IsNamed (g.itemCode (.messageCodec m)) := by
  have hconstants : IsNamed (g.messageConstants m) := by simp [messageConstants, hg]
  have hencode : IsNamed (g.messageEncode m) := by
    have hblocks : IsNamed (Code.all m.blocks g.writeBlock) :=
      Code.isNamed_all.mpr fun b hb => hg.isNamed_writeBlock (hm.blocks b hb)
    refine hg.isNamed_encodeFunction ?_
    simp only [isNamed_append]
    simp [putBytes, hblocks, -Code.isNamed_all]
  have hread : IsNamed (g.messageRead m) := by
    refine hg.isNamed_readFunction (Code.isNamed_all.mpr fun b hb => ?_)
    have hname := (hm.blocks b hb).name
    simp [hname, hg.isNamed_readBlock (hm.blocks b hb)]
  have hname := hm.name
  simp [itemCode, hg, hname, hconstants, hencode, hread]

/-! ### What speaks of all messages -/

/-- The enumeration of messages has the names of the messages. -/
theorem Sound.isNamed_kinds {messages : List Message} (h : ∀ m ∈ messages, IsName m.name) : IsNamed (g.kinds messages) := by
  have hkinds : ∀ m ∈ messages, IsNamed (kindOf m) := fun m hm => isNamed_kindOf (h m hm)
  have hfunction (name : String) (type : Code) (value : Message → Code) (htype : IsNamed type)
      (hvalue : ∀ m ∈ messages, IsNamed (value m)) : IsNamed (kindFunction name type messages value) :=
    isNamed_kindFunction h htype hvalue
  simp +contextual [kinds, hfunction, hkinds, h, hg]

/-- An arm that writes has the name of its message. -/
theorem Sound.isNamed_writeArm {arm : Arm} (h : IsName arm.message.name) : IsNamed (g.writeArm arm) := by
  unfold writeArm
  split <;> simp [isNamed_instanceOf h, hg]

/-- An arm that reads has the name of its message. -/
theorem Sound.isNamed_readArm {arm : Arm} (h : IsName arm.message.name) : IsNamed (g.readArm arm) := by
  unfold readArm
  split <;> simp [isNamed_instanceOf h, h, hg]

/-- The type of message values has the names of the messages. -/
theorem Sound.isNamed_instances {arms : List Arm} (h : ∀ arm ∈ arms, IsName arm.message.name) : IsNamed (g.instances arms) := by
  have hparts : ∀ arm ∈ arms, IsNamed (instanceOf arm.message) ∧ IsNamed (kindOf arm.message) ∧ IsNamed (g.writeArm arm) :=
    fun arm harm => ⟨isNamed_instanceOf (h arm harm), isNamed_kindOf (h arm harm), hg.isNamed_writeArm (h arm harm)⟩
  simp +contextual [instances, derives, sourceBound, hparts, h, hg]

/-- The function that reads the message of a number has the names of the messages. -/
theorem Sound.isNamed_dispatch {arms : List Arm} (h : ∀ arm ∈ arms, IsName arm.message.name) : IsNamed (g.dispatch arms) := by
  have harms : ∀ arm ∈ arms, IsNamed (g.readArm arm) := fun arm harm => hg.isNamed_readArm (h arm harm)
  simp +contextual [dispatch, sourceBound, harms, hg]

/-! ### The whole code -/

/-- All parts of a message have names that a template can declare. -/
theorem Sound.isNamed_items {m : Message} (hm : g.MessageNamed m) (hasCodec : Bool) :
    ∀ item ∈ m.items hasCodec, IsNamed (g.itemCode item) := by
  intro item hitem
  rcases Message.of_mem_items hitem with ⟨b, hb, rfl | rfl⟩ | rfl | rfl
  · exact hg.isNamed_blockRecord (hm.blocks b hb)
  · exact hg.isNamed_blockCodec (hm.blocks b hb)
  · exact isNamed_messageRecord hm
  · exact hg.isNamed_messageCodec hm

/-- Every name in the code of a template is one: nothing but names of the template, and of its messages and blocks with
the separator between them, is written as an identifier that depends on the template. -/
theorem Sound.isNamed_outlineCode {t : Template} (ht : t.Valid) (disabled : List String) :
    IsNamed (g.outlineCode (t.outline disabled)) := by
  have hitems : ∀ item ∈ (t.outline disabled).items, IsNamed (g.itemCode item) := by
    intro item hitem
    obtain ⟨m, hm, hitem⟩ := List.mem_flatMap.mp hitem
    exact hg.isNamed_items (hg.messageNamed (ht.messages m hm)) _ item hitem
  have harms : ∀ arm ∈ (t.outline disabled).arms, IsName arm.message.name := by
    intro arm harm
    obtain ⟨m, hm, rfl⟩ := List.mem_map.mp harm
    exact (ht.messages m hm).name
  have hmessages : ∀ m ∈ (t.outline disabled).arms.map (·.message), IsName m.name := by
    intro m hm
    obtain ⟨arm, harm, rfl⟩ := List.mem_map.mp hm
    exact harms arm harm
  have hall := Code.isNamed_all.mpr hitems
  simp only [outlineCode, isNamed_append]
  simp [hall, hg, hg.isNamed_kinds hmessages, hg.isNamed_instances harms, hg.isNamed_dispatch harms, -Code.isNamed_all]

end Parts

end Generator

end MessageCatalog
