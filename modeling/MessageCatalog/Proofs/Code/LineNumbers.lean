import MessageCatalog.Proofs.Code.TypeNames
import MessageCatalog.Proofs.Source.Renumbering

/-!
# Code without line numbers

Generated code says nothing of the lines of the template. It is the same for a template at other lines, part by part,
and so is everything else that a run of the generator gives; only an error moves with the line it stands at. Together
with the reading of lines by other numbers this makes the result of a run depend on the texts of the significant lines
alone.
-/

namespace MessageCatalog

variable {ρ : Nat → Nat}

/-! ## Parts of the code -/

/-- The code of what is made of a list is made item by item. -/
theorem Code.all_map {α β : Type} (items : List α) (f : α → β) (code : β → Code) :
    Code.all (items.map f) code = Code.all items fun a => code (f a) :=
  List.flatMap_map f code items

/-- The size that is reserved for a message does not depend on its lines. -/
theorem Message.sizeHint_renumber (m : Message) : (m.renumber ρ).sizeHint = m.sizeHint := by
  have hfixed : ∀ b : Block, (b.renumber ρ).fixedSize = b.fixedSize := fun b => List.foldl_map
  have hmin : ∀ b : Block, (b.renumber ρ).minSize = b.minSize := by
    intro b
    unfold Block.minSize
    rw [hfixed b]
    rfl
  have hblocks : (m.renumber ρ).blocks.foldl (fun acc b => addSizes acc b.minSize) 0 =
      m.blocks.foldl (fun acc b => addSizes acc (b.renumber ρ).minSize) 0 := List.foldl_map
  unfold Message.sizeHint
  rw [hblocks]
  simp only [hmin]
  rfl

namespace Generator

variable (g : Generator)

/-- The record type of a block does not depend on lines. -/
theorem blockRecord_renumber (b : Block) : g.blockRecord (b.renumber ρ) = g.blockRecord b := by
  unfold blockRecord
  rw [Block.renumber, Code.all_map]
  rfl

/-- The function that writes a record does not depend on lines. -/
theorem blockEncode_renumber (b : Block) : g.blockEncode (b.renumber ρ) = g.blockEncode b := by
  unfold blockEncode
  rw [Block.renumber, Code.all_map, List.isEmpty_map]
  rfl

/-- The function that reads a record does not depend on lines. -/
theorem blockRead_renumber (b : Block) : g.blockRead (b.renumber ρ) = g.blockRead b := by
  unfold blockRead
  rw [Block.renumber, Code.all_map, List.isEmpty_map]
  rfl

/-- The record type of a message does not depend on lines. -/
theorem messageRecord_renumber (m : Message) : g.messageRecord (m.renumber ρ) = g.messageRecord m := by
  unfold messageRecord
  rw [Message.renumber, Code.all_map]
  rfl

/-- The function that writes a message does not depend on lines. -/
theorem messageEncode_renumber (m : Message) : g.messageEncode (m.renumber ρ) = g.messageEncode m := by
  unfold messageEncode
  rw [m.sizeHint_renumber, Message.renumber, Code.all_map]
  rfl

/-- The function that reads a message does not depend on lines. -/
theorem messageRead_renumber (m : Message) : g.messageRead (m.renumber ρ) = g.messageRead m := by
  unfold messageRead
  rw [Message.renumber, Code.all_map, List.isEmpty_map]
  rfl

end Generator

/-! ## The outline -/

/-- The part of a template at other lines. -/
def Item.renumber (ρ : Nat → Nat) : Item → Item
  | .blockRecord b => .blockRecord (b.renumber ρ)
  | .blockCodec b => .blockCodec (b.renumber ρ)
  | .messageRecord m => .messageRecord (m.renumber ρ)
  | .messageCodec m => .messageCodec (m.renumber ρ)

/-- The arm of a message at other lines. -/
def Arm.renumber (ρ : Nat → Nat) (arm : Arm) : Arm :=
  { arm with message := arm.message.renumber ρ }

/-- No part of the code depends on lines. -/
theorem Generator.itemCode_renumber (g : Generator) (item : Item) : g.itemCode (item.renumber ρ) = g.itemCode item := by
  cases item with
  | blockRecord b => exact g.blockRecord_renumber b
  | blockCodec b =>
    simp only [Item.renumber, itemCode, g.blockEncode_renumber, g.blockRead_renumber]
    rfl
  | messageRecord m => exact g.messageRecord_renumber m
  | messageCodec m =>
    simp only [Item.renumber, itemCode, g.messageEncode_renumber, g.messageRead_renumber]
    rfl

/-- The parts of a message at other lines are its parts at those lines. -/
theorem Message.items_renumber (m : Message) (hasCodec : Bool) :
    (m.renumber ρ).items hasCodec = (m.items hasCodec).map (Item.renumber ρ) := by
  unfold Message.items
  rw [List.map_append, List.map_flatMap, Message.renumber, List.flatMap_map]
  cases hasCodec <;> rfl

/-- A message has the same types at other lines. -/
theorem Message.disabledTag?_renumber (m : Message) (disabled : List String) :
    (m.renumber ρ).disabledTag? disabled = m.disabledTag? disabled := by
  have hfields : (m.renumber ρ).fields = m.fields.map (Field.renumber ρ) := by
    unfold Message.fields
    rw [List.map_flatMap, Message.renumber, List.flatMap_map]
    rfl
  unfold Message.disabledTag?
  rw [hfields, List.map_map]
  rfl

/-- The diagnostics do not depend on lines. -/
theorem Template.diagnostics_renumber (t : Template) (disabled : List String) :
    (t.renumber ρ).diagnostics disabled = t.diagnostics disabled := by
  unfold Template.diagnostics
  rw [Template.renumber, List.filterMap_map]
  refine congrArg (List.filterMap · t.messages) (funext fun m => ?_)
  rw [Function.comp_apply, m.disabledTag?_renumber]
  rfl

/-- The parts of a template at other lines are its parts at those lines. -/
theorem Template.items_renumber (t : Template) (disabled : List String) :
    ((t.renumber ρ).outline disabled).items = (t.outline disabled).items.map (Item.renumber ρ) := by
  unfold Template.outline
  dsimp only
  rw [List.map_flatMap, Template.renumber, List.flatMap_map]
  refine congrArg (List.flatMap · t.messages) (funext fun m => ?_)
  rw [m.disabledTag?_renumber, m.items_renumber]

/-- The arms of a template at other lines are its arms at those lines. -/
theorem Template.arms_renumber (t : Template) (disabled : List String) :
    ((t.renumber ρ).outline disabled).arms = (t.outline disabled).arms.map (Arm.renumber ρ) := by
  unfold Template.outline armsSkipping
  dsimp only
  rw [t.diagnostics_renumber, Template.renumber, List.map_map, List.map_map]
  rfl

namespace Generator

variable (g : Generator)

/-- The enumeration of messages does not depend on lines. -/
theorem kinds_renumber (messages : List Message) : g.kinds (messages.map (Message.renumber ρ)) = g.kinds messages := by
  unfold kinds kindFunction
  simp only [Code.all_map, List.map_map]
  rfl

/-- The type of message values does not depend on lines. -/
theorem instances_renumber (arms : List Arm) : g.instances (arms.map (Arm.renumber ρ)) = g.instances arms := by
  unfold instances
  simp only [Code.all_map, List.isEmpty_map]
  rfl

/-- The function that reads the message of a number does not depend on lines. -/
theorem dispatch_renumber (arms : List Arm) : g.dispatch (arms.map (Arm.renumber ρ)) = g.dispatch arms := by
  unfold dispatch
  simp only [Code.all_map, List.isEmpty_map]
  rfl

/-- The code of a template is that of the template at other lines. -/
theorem outlineCode_renumber (t : Template) (disabled : List String) :
    g.outlineCode ((t.renumber ρ).outline disabled) = g.outlineCode (t.outline disabled) := by
  have hmessages : ((t.renumber ρ).outline disabled).arms.map (·.message) =
      ((t.outline disabled).arms.map (·.message)).map (Message.renumber ρ) := by
    rw [t.arms_renumber, List.map_map, List.map_map]
    rfl
  have hversion : ((t.renumber ρ).outline disabled).version = (t.outline disabled).version := rfl
  unfold outlineCode
  rw [hmessages, hversion, t.items_renumber, t.arms_renumber, Code.all_map, g.kinds_renumber, g.instances_renumber,
    g.dispatch_renumber]
  simp only [g.itemCode_renumber]

end Generator

/-! ## Type names -/

/-- The type name of a part at another line. -/
def TypeName.renumber (ρ : Nat → Nat) (t : TypeName) : TypeName :=
  { t with line := ρ t.line }

/-- The type names of a template at other lines are its type names at those lines. -/
theorem Generator.typeNames_renumber (g : Generator) (t : Template) :
    g.typeNames (t.renumber ρ) = (g.typeNames t).map (TypeName.renumber ρ) := by
  unfold typeNames
  rw [List.map_flatMap, Template.renumber, List.flatMap_map]
  refine congrArg (List.flatMap · t.messages) (funext fun m => ?_)
  unfold messageTypeNames
  rw [List.map_cons, List.map_map, Message.renumber, List.map_map]
  rfl

/-- The check of type names carries lines along. -/
theorem checkTypeNames_renumber (seen names : List TypeName) :
    checkTypeNames (seen.map (TypeName.renumber ρ)) (names.map (TypeName.renumber ρ)) =
      renumbered ρ id (checkTypeNames seen names) := by
  induction names generalizing seen with
  | nil => rfl
  | cons t rest ih =>
    have hseen : (seen.map (TypeName.renumber ρ)).find? (·.name == (t.renumber ρ).name) =
        (seen.find? (·.name == t.name)).map (TypeName.renumber ρ) := List.find?_map
    have hname : (t.renumber ρ).name = t.name := rfl
    rw [List.map_cons, checkTypeNames, checkTypeNames, hseen, hname]
    split
    · rfl
    · cases seen.find? (·.name == t.name) with
      | some earlier => rfl
      | none => exact ih (t :: seen)

/-! ## Runs of the generator -/

/-- Generating for a template at other lines gives the same code, or an error at those lines. -/
theorem Generator.generate_renumber (g : Generator) (t : Template) :
    g.generate (t.renumber ρ) = renumbered ρ id (g.generate t) := by
  have hcheck : checkTypeNames [] (g.typeNames (t.renumber ρ)) = renumbered ρ id (checkTypeNames [] (g.typeNames t)) := by
    rw [g.typeNames_renumber]
    exact checkTypeNames_renumber [] _
  refine renumbered_bind hcheck fun _ => ?_
  have hcount : (t.renumber ρ).messages.length = t.messages.length := List.length_map _
  have hdiagnostics : ((t.renumber ρ).outline g.config.disabled).diagnostics = (t.outline g.config.disabled).diagnostics :=
    t.diagnostics_renumber _
  dsimp only
  rw [hcount, hdiagnostics, g.outlineCode_renumber]
  rfl

/-- What is wrong with a configuration is at no line. -/
theorem Config.toGenerator_renumber (config : Config) : config.toGenerator = renumbered ρ id config.toGenerator := by
  unfold Config.toGenerator
  dsimp only
  split
  · rfl
  · split
    · rfl
    · split <;> rfl

/-- A source whose significant lines are those of another one by other numbers gives the same code, or the same error at the other
number. -/
theorem generate_renumber {source source' : String} (hne : significantLines source ≠ [])
    (h : significantLines source' = (significantLines source).map (SourceLine.renumber ρ)) (config : Config) :
    generate source' config = renumbered ρ id (generate source config) := by
  refine renumbered_bind config.toGenerator_renumber fun generator => ?_
  exact renumbered_bind (parse_renumber hne h) fun t => generator.generate_renumber t

/-- An error of a run at a line is at a significant line of the source. -/
theorem line_mem_of_generate_error {source : String} {config : Config} {e : Error} (hne : significantLines source ≠ [])
    (h : generate source config = .error e) : ∀ n ∈ e.line?, n ∈ lineNumbers source := by
  -- the source is itself by a numbering that moves all other lines, so the error is at none of those
  have hrun := generate_renumber hne (significantLines_movesOthers source) config
  rw [h] at hrun
  have hself : e = e.renumber (movesOthers source) := Except.error.inj hrun
  intro n hn
  cases e with
  | located line issue =>
    obtain rfl : line = n := by simpa [Error.line?] using hn
    have hline : line = movesOthers source line := (Error.located.inj hself).1
    by_contra hmem
    rw [movesOthers, if_neg hmem] at hline
    omega
  | duplicate clash => cases hn
  | config fault => cases hn
  | file fault => cases hn

/-- The result of a run depends on the layout of the source only through line numbers. Two sources whose significant
lines have the same texts give the same code, diagnostics and counts, from the same template at the corresponding lines,
or the same error at the corresponding line. And edits of the layout leave the texts of the significant lines. -/
theorem generate_depends_on_texts :
    (∀ source source' : String, ∀ config : Config, significantTexts source ≠ [] →
      significantTexts source' = significantTexts source →
      (lineNumbers source).map (correspondingLine source source') = lineNumbers source' ∧
        ((∃ out t, generate source config = .ok out ∧ generate source' config = .ok out ∧ parse source = .ok t ∧
            parse source' = .ok (t.renumber (correspondingLine source source')) ∧
              ∀ n ∈ t.declarationLines, n ∈ lineNumbers source) ∨
          ∃ e, generate source config = .error e ∧
            generate source' config = .error (e.renumber (correspondingLine source source')) ∧
            ∀ n ∈ e.line?, n ∈ lineNumbers source)) ∧
      ∀ source source' : String, Relation.EqvGen LayoutEdit source.toList source'.toList →
        significantTexts source' = significantTexts source := by
  refine ⟨?_, fun source source' h => significantTexts_of_edits h⟩
  intro source source' config htexts hsame
  have hne : significantLines source ≠ [] := by
    intro hnil
    exact htexts (by rw [significantTexts, hnil, List.map_nil])
  have hlines := significantLines_correspond hsame
  have hrun := generate_renumber hne hlines config
  have hparse := parse_renumber hne hlines
  refine ⟨?_, ?_⟩
  · rw [lineNumbers, lineNumbers, hlines, List.map_map, List.map_map]
    rfl
  · cases hout : generate source config with
    | error e =>
      rw [hout] at hrun
      exact .inr ⟨e, rfl, hrun, line_mem_of_generate_error hne hout⟩
    | ok out =>
      rw [hout] at hrun
      obtain ⟨g, -, hg⟩ := except_bind_eq_ok_iff.mp hout
      obtain ⟨t, ht, -⟩ := except_bind_eq_ok_iff.mp hg
      rw [ht] at hparse
      have hdeclared : ∀ n ∈ t.declarationLines, n ∈ lineNumbers source := by
        intro n hn
        have hmem := (parse_declarationLines ht).subset hn
        rw [List.map_tail] at hmem
        exact List.mem_of_mem_tail hmem
      exact .inl ⟨out, t, rfl, hrun, ht, hparse, hdeclared⟩

/-- The text of the small catalog with a line more in front of it and one more behind it. -/
def relaidText : List Char :=
  '\t' :: '/' :: '/' :: " moved\r".toList ++ '\n' :: ['\n'].intercalate sampleLines ++ '\n' :: ' ' :: '/' :: '/' :: " end".toList

def relaidSource : String :=
  String.ofList relaidText

/-- The small catalog one line further down. -/
def relaidTemplate : Template :=
  sampleTemplate.renumber (· + 1)

/-- The small source and the one laid out anew differ by edits of the layout. -/
theorem relaidSource_edits : Relation.EqvGen LayoutEdit sampleSource.toList relaidSource.toList := by
  have hfront : IsIdle ('\t' :: '/' :: '/' :: " moved\r".toList) :=
    ⟨['\t'], _, by simp [IsBlankRun, Text.isBlank], .inr ⟨_, rfl, by decide +kernel⟩, rfl⟩
  have hback : IsIdle (' ' :: '/' :: '/' :: " end".toList) :=
    ⟨[' '], _, by simp [IsBlankRun, Text.isBlank], .inr ⟨_, rfl, by decide +kernel⟩, rfl⟩
  have hinsert := @LayoutEdit.insert [] _ (['\n'].intercalate sampleLines) (.inl rfl) hfront
  rw [sampleSource, relaidSource, String.toList_ofList, String.toList_ofList]
  exact .trans _ _ _ (.rel _ _ hinsert) (.rel _ _ (.append hback))

/-- The same code is generated for the small source when it is laid out anew. -/
theorem generate_depends_on_texts_sample : significantTexts sampleSource ≠ [] ∧
    Relation.EqvGen LayoutEdit sampleSource.toList relaidSource.toList ∧ ∃ out, generate sampleSource {} = .ok out ∧
      generate relaidSource {} = .ok out ∧ parse relaidSource = .ok relaidTemplate := by
  have hlines : significantLines sampleSource = significantFrom 1 (Text.lines (['\n'].intercalate sampleLines)) := by
    rw [significantLines, sampleSource, String.toList_ofList]
  have hlines' : significantLines relaidSource = significantFrom 1 (Text.lines relaidText) := by
    rw [significantLines, relaidSource, String.toList_ofList]
  have hne : significantTexts sampleSource ≠ [] := by
    rw [significantTexts, hlines]
    decide +kernel
  have htemplate : sampleTemplate.renumber (correspondingLine sampleSource relaidSource) = relaidTemplate := by
    unfold correspondingLine lineNumbers
    rw [hlines, hlines']
    decide +kernel
  have htexts := generate_depends_on_texts.2 _ _ relaidSource_edits
  obtain ⟨-, ⟨out, t, hout, hout', ht, ht', -⟩ | ⟨e, herror, -⟩⟩ := generate_depends_on_texts.1 _ _ {} hne htexts
  · obtain rfl : t = sampleTemplate := Except.ok.inj (ht.symm.trans parse_sampleSource)
    rw [htemplate] at ht'
    exact ⟨hne, relaidSource_edits, out, hout, hout', ht'⟩
  · obtain ⟨runtime, out, -, hout⟩ := generate_sampleSource
    rw [hout] at herror
    cases herror

end MessageCatalog
