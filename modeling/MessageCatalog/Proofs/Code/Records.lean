import MessageCatalog.Proofs.Code.Names

/-!
# The record types in generated code

The record types that code declares are read back from its tokens, each with the names of its fields. The code of a
template declares one for every block and one for every message, and nothing else in it looks like one, whatever the
path to the support code is.
-/

namespace MessageCatalog

/-- A record type as code declares it: its name, and the names of its fields in order. -/
structure RecordType where
  name : String
  fields : List String
  deriving DecidableEq, Repr, Inhabited

namespace Code

/-- What is found at the places of code in order, from what is found at the front of code. -/
def scan {α : Type} (front? : Code → Option α) : Code → List α
  | [] => []
  | token :: rest => (front? (token :: rest)).toList ++ scan front? rest

/-- The name of the field that is declared at the front of code. -/
def fieldFront? : Code → Option String
  | .atom keyword :: .name .field name :: _ => if keyword = "pub" then some (Naming.fieldName name) else none
  | _ => none

/-- The record type that is declared at the front of code. -/
def recordFront? : Code → Option RecordType
  | .atom keyword :: .name .type name :: .group .brace body :: _ =>
    if keyword = "struct" then some ⟨name, scan fieldFront? body⟩ else none
  | _ => none

/-- What stands behind a keyword at the front of code: the name of a type, and the code in braces behind that. -/
def typeFront? (keyword : String) : Code → Option (String × Code)
  | .atom text :: .name .type name :: .group .brace body :: _ => if text = keyword then some (name, body) else none
  | _ => none

/-- The record types that code declares. -/
def recordTypes (code : Code) : List RecordType :=
  scan recordFront? code

/-! ## Scanning code piece by piece -/

/-- Whether no name stands in code outside its groups. -/
def IsUnnamed (code : Code) : Prop :=
  ∀ token ∈ code, ∀ use text, token ≠ .name use text

/-- Whether code opens with a word, at which no declaration goes on. -/
def Opens (code : Code) : Prop :=
  ∃ text rest, code = .atom text :: rest

/-- Whether what is found at the front of code ends before the next word. -/
def EndsAtWords {α : Type} (front? : Code → Option α) : Prop :=
  ∀ a b : Code, a ≠ [] → Opens b → front? (a ++ b) = front? a

/-- What a scan for declarations relies on: a declaration has a name, and ends before the next word. -/
structure FindsNames {α : Type} (front? : Code → Option α) : Prop where
  plain : ∀ {code : Code}, IsUnnamed code → front? code = none
  append : EndsAtWords front?

/-- A field is found by its name, and ends before the next word. -/
theorem findsNames_fieldFront? : FindsNames fieldFront? where
  plain := by
    intro code h
    unfold fieldFront?
    split
    · rename_i name _
      exact absurd rfl (h _ (List.mem_cons_of_mem _ List.mem_cons_self) .field name)
    · rfl
  append := by
    rintro a b ha ⟨text, rest, rfl⟩
    match a, ha with
    | [_], _ => simp [fieldFront?]
    | first :: second :: _, _ =>
      cases first with
      | atom keyword =>
        cases second with
        | name use name => cases use <;> rfl
        | _ => rfl
      | _ => rfl

/-- The declaration of a type is found by its name, and ends before the next word. -/
theorem findsNames_typeFront? (keyword : String) : FindsNames (typeFront? keyword) where
  plain := by
    intro code h
    unfold typeFront?
    split
    · rename_i name _ _
      exact absurd rfl (h _ (List.mem_cons_of_mem _ List.mem_cons_self) .type name)
    · rfl
  append := by
    rintro a b ha ⟨text, rest, rfl⟩
    match a, ha with
    | [_], _ => simp [typeFront?]
    | [_, _], _ => simp [typeFront?]
    | first :: second :: third :: _, _ =>
      cases first with
      | atom text =>
        cases second with
        | name use name =>
          cases third with
          | group delimiter body => cases use <;> cases delimiter <;> rfl
          | _ => cases use <;> rfl
        | _ => rfl
      | _ => rfl

/-- What is made of what is found is found as well. -/
theorem FindsNames.map {α β : Type} {front? : Code → Option α} (h : FindsNames front?) (f : α → β) :
    FindsNames fun code => (front? code).map f where
  plain := by
    intro code hcode
    rw [h.plain hcode]
    rfl
  append := by
    intro a b ha hb
    exact congrArg (Option.map f) (h.append a b ha hb)

/-- A record type is declared by its keyword. -/
theorem recordFront?_eq :
    recordFront? = fun code => (typeFront? "struct" code).map fun found => ⟨found.1, scan fieldFront? found.2⟩ := by
  funext code
  unfold recordFront? typeFront?
  split
  · split <;> rfl
  · rfl

/-- A record type is found by its name, and ends before the next word. -/
theorem findsNames_recordFront? : FindsNames recordFront? :=
  recordFront?_eq ▸ (findsNames_typeFront? "struct").map _

section Scan

variable {α : Type} {front? : Code → Option α}

/-- A scan of two pieces of code finds what is in each, if the second one opens with a word. -/
theorem EndsAtWords.scan_append (hfront : EndsAtWords front?) {a b : Code} (hb : Opens b) :
    scan front? (a ++ b) = scan front? a ++ scan front? b := by
  induction a with
  | nil => rfl
  | cons token a ih =>
    have hhere : front? (token :: (a ++ b)) = front? (token :: a) := hfront _ _ (List.cons_ne_nil token a) hb
    rw [List.cons_append, scan, scan, ih, hhere, List.append_assoc]

/-- A scan of the code of a list, behind other code, finds what is in the code of each item. -/
theorem EndsAtWords.scan_append_all (hfront : EndsAtWords front?) {β : Type} {items : List β} {code : β → Code}
    (h : ∀ item ∈ items, Opens (code item)) (a : Code) :
    scan front? (a ++ all items code) = scan front? a ++ items.flatMap fun item => scan front? (code item) := by
  induction items generalizing a with
  | nil => simp [all]
  | cons item items ih =>
    obtain ⟨hitem, hitems⟩ := List.forall_mem_cons.mp h
    calc scan front? (a ++ all (item :: items) code)
        = scan front? ((a ++ code item) ++ all items code) := by rw [all, List.flatMap_cons, ← List.append_assoc, all]
      _ = scan front? (a ++ code item) ++ items.flatMap fun item => scan front? (code item) := ih hitems _
      _ = _ := by rw [hfront.scan_append hitem, List.append_assoc, List.flatMap_cons]

variable (hfront : FindsNames front?)
include hfront

/-- Where there is no name, nothing is found. -/
theorem FindsNames.scan_plain {code : Code} (h : IsUnnamed code) : scan front? code = [] := by
  induction code with
  | nil => rfl
  | cons token code ih =>
    rw [scan, hfront.plain h, ih fun t ht => h t (List.mem_cons_of_mem token ht)]
    rfl

/-- A scan of two pieces of code finds what is in each, if the second one opens with a word. -/
theorem FindsNames.scan_append {a b : Code} (hb : Opens b) : scan front? (a ++ b) = scan front? a ++ scan front? b :=
  hfront.append.scan_append hb

/-- A scan of the code of a list finds what is in the code of each item. -/
theorem FindsNames.scan_all {β : Type} {items : List β} {code : β → Code} (h : ∀ item ∈ items, Opens (code item)) :
    scan front? (all items code) = items.flatMap fun item => scan front? (code item) :=
  hfront.append.scan_append_all h []

end Scan

/-! ## Pieces of code without a name -/

/-- Code without names at any depth has no names at its surface. -/
theorem IsNameless.isUnnamed {code : Code} (h : IsNameless code) : IsUnnamed code := by
  rintro token htoken use text rfl
  exact absurd (h _ htoken) (List.cons_ne_nil _ _)

/-- Two pieces of code have no names at their surface if neither has. -/
@[simp] theorem isUnnamed_append {a b : Code} : IsUnnamed (a ++ b) ↔ IsUnnamed a ∧ IsUnnamed b :=
  List.forall_mem_append

/-- The code of a text has no names. -/
@[simp] theorem isUnnamed_of (text : String) : IsUnnamed (of text) := (isNameless_of text).isUnnamed

@[simp] theorem isUnnamed_word (text : String) : IsUnnamed (word text) := List.forall_mem_singleton.mpr nofun

@[simp] theorem isUnnamed_literal (content : String) : IsUnnamed (literal content) := List.forall_mem_singleton.mpr nofun

@[simp] theorem isUnnamed_paren (body : Code) : IsUnnamed (paren body) := List.forall_mem_singleton.mpr nofun

@[simp] theorem isUnnamed_bracket (body : Code) : IsUnnamed (bracket body) := List.forall_mem_singleton.mpr nofun

@[simp] theorem isUnnamed_brace (body : Code) : IsUnnamed (brace body) := List.forall_mem_singleton.mpr nofun

/-- A documentation from the library has no names at its surface. -/
@[simp] theorem isUnnamed_doc (text : String) : IsUnnamed (doc text) := by
  simp [doc]

/-- A documentation from the template has no names at its surface. -/
@[simp] theorem isUnnamed_docOf (text : String) : IsUnnamed (docOf text) := by
  simp [docOf]

/-- An attribute has no names at its surface, as its arguments are in brackets. -/
@[simp] theorem isUnnamed_attr (name : String) (arguments : Code) : IsUnnamed (attr name arguments) := by
  simp [attr]

/-! ## Pieces of code that open with a word -/

/-- Code that opens with a word does so with more code behind it. -/
theorem Opens.append {a : Code} (h : Opens a) (b : Code) : Opens (a ++ b) := by
  obtain ⟨text, rest, rfl⟩ := h
  exact ⟨text, rest ++ b, rfl⟩

theorem opens_word (text : String) : Opens (word text) := ⟨text, [], rfl⟩

/-- The code of a text opens with a word. -/
theorem opens_of (text : String) : Opens (of text) := by
  cases hwords : text.toList.splitOn ' ' with
  | nil => exact absurd hwords (List.splitOn_ne_nil _ _)
  | cons first later => exact ⟨String.ofList first, later.map fun word => .atom (String.ofList word), by rw [of, hwords]; rfl⟩

theorem opens_doc (text : String) : Opens (doc text) := (opens_word "#").append _

theorem opens_docOf (text : String) : Opens (docOf text) := (opens_word "#").append _

/-! ## Declarations -/

/-- A declared field is found, if nothing behind it is. -/
theorem scan_field {front rest : Code} {name : String} (hfront : IsUnnamed front) (hrest : scan fieldFront? rest = []) :
    scan fieldFront? (front ++ word "pub" ++ fieldWord name ++ rest) = [Naming.fieldName name] := by
  have hfield : scan fieldFront? (word "pub" ++ (fieldWord name ++ rest)) = [Naming.fieldName name] := by
    simp [word, fieldWord, scan, fieldFront?, hrest]
  rw [List.append_assoc, List.append_assoc, findsNames_fieldFront?.scan_append ((opens_word "pub").append _),
    findsNames_fieldFront?.scan_plain hfront, hfield]
  rfl

/-- To scan for what is made of something is to scan for it and make that of it. -/
theorem scan_map {α β : Type} (front? : Code → Option α) (f : α → β) (code : Code) :
    scan (fun code => (front? code).map f) code = (scan front? code).map f := by
  induction code with
  | nil => rfl
  | cons token code ih =>
    rw [scan, scan, ih, List.map_append]
    cases front? (token :: code) <;> rfl

/-- A type is found behind its keyword, and behind no other word. -/
theorem scan_typed {front : Code} (hfront : IsUnnamed front) (keyword text name : String) (body : Code) :
    scan (typeFront? keyword) (front ++ word text ++ typeWord name ++ brace body) =
      if text = keyword then [(name, body)] else [] := by
  have hfinds := findsNames_typeFront? keyword
  have htyped : scan (typeFront? keyword) (word text ++ (typeWord name ++ brace body)) =
      if text = keyword then [(name, body)] else [] := by
    by_cases htext : text = keyword <;> simp [word, typeWord, brace, scan, typeFront?, htext]
  rw [List.append_assoc, List.append_assoc, hfinds.scan_append ((opens_word text).append _), hfinds.scan_plain hfront, htyped]
  rfl

/-- A record type is found behind its keyword. -/
theorem scan_struct {front : Code} (hfront : IsUnnamed front) (keyword name : String) (body : Code) :
    scan (typeFront? keyword) (front ++ of "pub struct" ++ typeWord name ++ brace body) =
      if "struct" = keyword then [(name, body)] else [] := by
  have hkeyword : of "pub struct" = word "pub" ++ word "struct" := rfl
  have hunnamed : IsUnnamed (front ++ word "pub") := by simp [hfront]
  rw [hkeyword, ← List.append_assoc front, scan_typed hunnamed]

/-- The record types in code are the declarations behind the keyword of structures, with the fields in their bodies. -/
theorem recordTypes_eq (code : Code) :
    recordTypes code = (scan (typeFront? "struct") code).map fun found => ⟨found.1, scan fieldFront? found.2⟩ := by
  rw [recordTypes, recordFront?_eq, scan_map]

/-- A declared record type is found. -/
theorem recordTypes_record {front : Code} (hfront : IsUnnamed front) (name : String) (body : Code) :
    recordTypes (front ++ of "pub struct" ++ typeWord name ++ brace body) = [⟨name, scan fieldFront? body⟩] := by
  rw [recordTypes_eq, scan_struct hfront]
  rfl

end Code

/-! ## The record types of a template -/

/-- The record type of a message, with a field for each block. -/
def Message.recordType (m : Message) : RecordType :=
  ⟨m.name, m.blocks.map fun b => Naming.fieldName b.name⟩

namespace Generator

open Code (IsUnnamed scan fieldFront? findsNames_fieldFront? typeFront? of word opens_word opens_of opens_doc opens_docOf)

variable {g : Generator}

/-- The record type of a block, with a field for each field of it. -/
def blockRecordType (g : Generator) (b : Block) : RecordType :=
  ⟨g.blockTypeName b, b.fields.map fun f => Naming.fieldName f.name⟩

/-- The record types of a template: those of the blocks of a message, then its own. -/
def recordTypes (g : Generator) (t : Template) : List RecordType :=
  t.messages.flatMap fun m => m.blocks.map g.blockRecordType ++ [m.recordType]

/-- No field is declared in the type of one. -/
theorem scan_blockFieldType (g : Generator) (b : Block) : scan fieldFront? (word ":" ++ g.blockFieldType b ++ word ",") = [] := by
  unfold blockFieldType
  cases b.quantity <;> rfl

/-- The record type of a message is found with its name and a field for each block. -/
theorem recordTypes_messageRecord (g : Generator) (m : Message) :
    Code.recordTypes (g.itemCode (.messageRecord m)) = [m.recordType] := by
  have hblocks : scan fieldFront? (Code.all m.blocks fun b =>
      word "pub" ++ Code.fieldWord b.name ++ word ":" ++ g.blockFieldType b ++ word ",") =
        m.blocks.map fun b => Naming.fieldName b.name := by
    rw [findsNames_fieldFront?.scan_all fun b _ => by simp only [List.append_assoc]; exact (opens_word _).append _,
      List.map_eq_flatMap]
    refine List.flatMap_congr fun b _ => ?_
    simpa only [List.append_assoc, List.nil_append] using
      Code.scan_field (List.forall_mem_nil _) (g.scan_blockFieldType b)
  rw [itemCode, messageRecord, Code.recordTypes_record (by simp [derives]), hblocks]
  rfl

section Parts

variable (hg : g.Sound)
include hg

/-- A path into the support code has no names. -/
@[simp] theorem Sound.isUnnamed_path (rest : String) : IsUnnamed (g.path rest) := by
  have hruntime : IsUnnamed g.runtime := (Code.names_eq_nil_iff.mp hg.runtime).isUnnamed
  simp [path, hruntime]

/-- The type of the values of a field has no names at its surface. -/
theorem Sound.isUnnamed_typeCode (type : FieldType) : IsUnnamed (type.code g) := by
  cases type <;> simp [FieldType.code, hg]

/-- The record type of a block is found with its name and its fields. -/
theorem Sound.recordTypes_blockRecord (b : Block) : Code.recordTypes (g.itemCode (.blockRecord b)) = [g.blockRecordType b] := by
  have hfields : scan fieldFront? (Code.all b.fields fun f =>
      Code.docOf s!" `{f.name}`: {f.type.tag}" ++ word "pub" ++ Code.fieldWord f.name ++ word ":" ++ f.type.code g ++ word ",") =
        b.fields.map fun f => Naming.fieldName f.name := by
    rw [findsNames_fieldFront?.scan_all fun f _ => by simp only [List.append_assoc]; exact (opens_docOf _).append _,
      List.map_eq_flatMap]
    refine List.flatMap_congr fun f _ => ?_
    have hrest : IsUnnamed (word ":" ++ (f.type.code g ++ word ",")) := by simp [hg.isUnnamed_typeCode]
    simpa only [List.append_assoc] using
      Code.scan_field (Code.isUnnamed_docOf _) (findsNames_fieldFront?.scan_plain hrest)
  rw [itemCode, blockRecord, Code.recordTypes_record (by simp [derives]), hfields]
  rfl

/-- What a type has from the support code is found behind the keyword for that. -/
theorem Sound.scan_impl {support front : String} (hfront : of support = of front ++ word "for") (keyword name : String)
    (body : Code) :
    scan (typeFront? keyword) (word "impl" ++ g.path support ++ Code.typeWord name ++ Code.brace body) =
      if "for" = keyword then [(name, body)] else [] := by
  have hpath : g.path support = g.path front ++ word "for" := by
    rw [path, path, hfront, List.append_assoc]
  rw [hpath, ← List.append_assoc (word "impl")]
  exact Code.scan_typed (by simp [hg]) keyword "for" name body

/-- The codec of a block is found behind the keyword of codecs, and behind no other. -/
theorem Sound.scan_blockCodec (keyword : String) (b : Block) : scan (typeFront? keyword) (g.itemCode (.blockCodec b)) =
    if "for" = keyword then [(g.blockTypeName b, g.blockEncode b ++ g.blockRead b)] else [] :=
  hg.scan_impl (show of ":: Block for" = of ":: Block" ++ word "for" from rfl) keyword _ _

/-- The codec of a message is found behind the keyword of codecs, and behind no other. -/
theorem Sound.scan_messageCodec (keyword : String) (m : Message) : scan (typeFront? keyword) (g.itemCode (.messageCodec m)) =
    if "for" = keyword then [(m.name, g.messageConstants m ++ g.messageEncode m ++ g.messageRead m)] else [] :=
  hg.scan_impl (show of ":: Message for" = of ":: Message" ++ word "for" from rfl) keyword _ _

/-- A codec of a type is no declaration of it. -/
theorem Sound.recordTypes_blockCodec (b : Block) : Code.recordTypes (g.itemCode (.blockCodec b)) = [] := by
  rw [Code.recordTypes_eq, hg.scan_blockCodec]
  rfl

/-- The codec of a message declares no record type. -/
theorem Sound.recordTypes_messageCodec (m : Message) : Code.recordTypes (g.itemCode (.messageCodec m)) = [] := by
  rw [Code.recordTypes_eq, hg.scan_messageCodec]
  rfl

/-- The parts of a message declare the record types of its blocks and its own, with codecs or without. -/
theorem Sound.recordTypes_items (m : Message) (hasCodec : Bool) :
    (m.items hasCodec).flatMap (fun item => Code.recordTypes (g.itemCode item)) =
      m.blocks.map g.blockRecordType ++ [m.recordType] := by
  cases hasCodec <;>
    simp [Message.items, List.flatMap_assoc, hg.recordTypes_blockRecord, hg.recordTypes_blockCodec, hg.recordTypes_messageCodec,
      recordTypes_messageRecord, List.map_eq_flatMap]

/-- The function that reads the message of a number has no names at its surface. -/
theorem Sound.isUnnamed_dispatch (arms : List Arm) : IsUnnamed (g.dispatch arms) := by
  simp [dispatch, sourceBound, hg]

end Parts

/-- Every part of the generated code opens with a word. -/
theorem opens_itemCode (g : Generator) (item : Item) : Code.Opens (g.itemCode item) := by
  cases item with
  | blockRecord b =>
    simp only [itemCode, blockRecord, List.append_assoc]
    exact (opens_docOf _).append _
  | messageRecord m =>
    simp only [itemCode, messageRecord, List.append_assoc]
    exact (opens_docOf _).append _
  | blockCodec b | messageCodec m =>
    simp only [itemCode, List.append_assoc]
    exact (opens_word _).append _

/-- The enumeration of messages has no names at its surface. -/
theorem isUnnamed_kinds (g : Generator) (messages : List Message) : IsUnnamed (g.kinds messages) := by
  simp [kinds]

/-- Nothing is declared among the instances, if a type in angle brackets is no declaration. -/
theorem scan_instances {α : Type} {front? : Code → Option α} (hfront : Code.FindsNames front?)
    (htype : ∀ name, scan front? (of "impl From <" ++ Code.typeWord name) = []) (g : Generator) (arms : List Arm) :
    scan front? (g.instances arms) = [] := by
  unfold instances
  rw [hfront.append.scan_append_all, hfront.scan_plain (by simp [derives])]
  · rw [List.nil_append, List.flatMap_eq_nil_iff]
    intro arm _
    rw [List.append_assoc, hfront.scan_append ((opens_of _).append _), htype, hfront.scan_plain (by simp)]
    rfl
  · intro arm _
    simp only [List.append_assoc]
    exact (opens_of _).append _

/-- The enumeration of messages opens with a word. -/
theorem opens_kinds (g : Generator) (messages : List Message) : Code.Opens (g.kinds messages) := by
  simp only [kinds, List.append_assoc]
  exact (opens_doc _).append _

/-- The type of message values opens with a word. -/
theorem opens_instances (g : Generator) (arms : List Arm) : Code.Opens (g.instances arms) := by
  simp only [instances, List.append_assoc]
  exact (opens_doc _).append _

/-- The function that reads the message of a number opens with a word. -/
theorem opens_dispatch (g : Generator) (arms : List Arm) : Code.Opens (g.dispatch arms) := by
  simp only [dispatch, List.append_assoc]
  exact (opens_doc _).append _

/-- What the code of an outline declares is declared in its parts. -/
theorem Sound.scan_outlineCode {α : Type} {front? : Code → Option α} (hfront : Code.FindsNames front?)
    (htype : ∀ name, scan front? (of "impl From <" ++ Code.typeWord name) = []) (hg : g.Sound) (outline : Outline) :
    scan front? (g.outlineCode outline) = outline.items.flatMap fun item => scan front? (g.itemCode item) := by
  unfold outlineCode
  rw [hfront.scan_append (g.opens_dispatch _), hfront.scan_append (g.opens_instances _), hfront.scan_append (g.opens_kinds _),
    hfront.append.scan_append_all fun item _ => g.opens_itemCode item]
  rw [hfront.scan_plain (hg.isUnnamed_dispatch _), scan_instances hfront htype, hfront.scan_plain (isUnnamed_kinds g _),
    hfront.scan_plain (by simp [hg])]
  rw [List.nil_append, List.append_nil, List.append_nil, List.append_nil]

/-- The code of a template declares the record types of the template, in order. -/
theorem Sound.recordTypes_outlineCode (hg : g.Sound) (t : Template) (disabled : List String) :
    Code.recordTypes (g.outlineCode (t.outline disabled)) = g.recordTypes t := by
  rw [Code.recordTypes, hg.scan_outlineCode Code.findsNames_recordFront? fun name => rfl]
  rw [recordTypes, Template.outline, List.flatMap_assoc]
  exact List.flatMap_congr fun m _ => hg.recordTypes_items m _

end Generator

end MessageCatalog
