import MessageCatalog.Proofs.Code.MessageCodecs
import MessageCatalog.Proofs.Code.Records
import MessageCatalog.Proofs.Code.Surface
import MessageCatalog.Proofs.Code.TypeNames

/-!
# Which messages have a codec

A message has no codec if one of its fields has a disabled type. The generator decides this twice: message by message
where it writes the codecs, and by the names in the diagnostics where it writes what speaks of all messages. The names
of messages are distinct, so both come to the same. What is generated and how a catalog behaves then agree on every
message: the functions on all messages do what the catalog does, and the messages that they hand on have codecs that
write and read them as the catalog does.
-/

namespace MessageCatalog

/-! ## Disabled types -/

namespace Message

/-- Whether a field of the message has a disabled type. -/
def UsesDisabled (disabled : List String) (m : Message) : Prop :=
  ∃ f ∈ m.fields, f.type.tag ∈ disabled

instance (disabled : List String) (m : Message) : Decidable (m.UsesDisabled disabled) :=
  inferInstanceAs (Decidable (∃ f ∈ m.fields, f.type.tag ∈ disabled))

/-- Whether a tag is disabled and is that of a field behind fields that are not disabled. -/
def FirstDisabled (disabled : List String) (m : Message) (tag : String) : Prop :=
  tag ∈ disabled ∧ ∃ before f after, m.fields = before ++ f :: after ∧ f.type.tag = tag ∧ ∀ f' ∈ before, f'.type.tag ∉ disabled

/-- No disabled type is found exactly if none is used. -/
theorem disabledTag?_eq_none_iff {disabled : List String} {m : Message} :
    m.disabledTag? disabled = none ↔ ¬m.UsesDisabled disabled := by
  simp [disabledTag?, UsesDisabled]

/-- The disabled type that is found is the first one that is used. -/
theorem firstDisabled_of_disabledTag? {disabled : List String} {m : Message} {tag : String}
    (h : m.disabledTag? disabled = some tag) : m.FirstDisabled disabled tag := by
  rw [disabledTag?, List.find?_map, Option.map_eq_some_iff] at h
  obtain ⟨f, hf, rfl⟩ := h
  obtain ⟨hdisabled, before, after, hfields, hbefore⟩ := List.find?_eq_some_iff_append.mp hf
  refine ⟨List.contains_iff_mem.mp hdisabled, before, f, after, hfields, rfl, fun f' hf' hmem => ?_⟩
  have hfree := hbefore f' hf'
  rw [Function.comp_apply, List.contains_iff_mem.mpr hmem] at hfree
  cases hfree

end Message

namespace Template

variable (t : Template) (disabled : List String)

/-- The arms of the messages of a template, with a codec for those without a disabled type. -/
def arms : List Arm :=
  t.messages.map fun m => ⟨m, !decide (m.UsesDisabled disabled)⟩

/-- There is a diagnostic for each message with a disabled type, in order, with its first one. -/
theorem forall₂_diagnostics : List.Forall₂ (fun m d => d.message = m.name ∧ m.FirstDisabled disabled d.tag)
    (t.messages.filter (·.UsesDisabled disabled)) (t.diagnostics disabled) := by
  unfold diagnostics
  induction t.messages with
  | nil => exact .nil
  | cons m messages ih =>
    cases htag : m.disabledTag? disabled with
    | none =>
      have huses := Message.disabledTag?_eq_none_iff.mp htag
      simpa [List.filter_cons, huses, htag] using ih
    | some tag =>
      have huses : m.UsesDisabled disabled := by
        by_contra hfree
        rw [Message.disabledTag?_eq_none_iff.mpr hfree] at htag
        cases htag
      simpa [List.filter_cons, huses, htag] using ⟨Message.firstDisabled_of_disabledTag? htag, ih⟩

variable {t disabled}

/-- A diagnostic with the name of a message is about that message. -/
theorem mem_diagnostics_iff (hnames : (t.messages.map (·.name)).Nodup) {m : Message} (hm : m ∈ t.messages) :
    m.name ∈ (t.diagnostics disabled).map (·.message) ↔ m.UsesDisabled disabled := by
  have huses : m.UsesDisabled disabled ↔ ∃ tag, m.disabledTag? disabled = some tag := by
    rw [← Option.ne_none_iff_exists', Ne, Message.disabledTag?_eq_none_iff, not_not]
  simp only [huses, diagnostics, List.mem_map, List.mem_filterMap, Option.map_eq_some_iff]
  constructor
  · rintro ⟨-, ⟨m', hm', tag, htag, rfl⟩, hname⟩
    obtain rfl := List.inj_on_of_nodup_map hnames hm' hm hname
    exact ⟨tag, htag⟩
  · rintro ⟨tag, htag⟩
    exact ⟨_, ⟨m, hm, tag, htag, rfl⟩, rfl⟩

/-- The arms say of each message what its codecs do. -/
theorem arms_outline (hnames : (t.messages.map (·.name)).Nodup) : (t.outline disabled).arms = t.arms disabled := by
  refine List.map_congr_left fun m hm => ?_
  have hskipped : ((t.diagnostics disabled).map (·.message)).contains m.name = decide (m.UsesDisabled disabled) := by
    rw [Bool.eq_iff_iff, List.contains_iff_mem, mem_diagnostics_iff hnames hm, decide_eq_true_iff]
  rw [hskipped]

end Template

/-! ## The types with a codec -/

/-- The types that code has a codec for. -/
def Code.codecTypes (code : Code) : List String :=
  (scan (typeFront? "for") code).map (·.1)

namespace Generator.Sound

variable {g : Generator} (hg : g.Sound) {t : Template} {disabled : List String}
include hg

/-- Without codecs a message has none, and with them one for each block and one for itself. -/
theorem codecTypes_items (m : Message) (hasCodec : Bool) :
    (m.items hasCodec).flatMap (fun item => Code.codecTypes (g.itemCode item)) =
      if hasCodec then m.blocks.map g.blockTypeName ++ [m.name] else [] := by
  have hblock (b : Block) : Code.codecTypes (g.itemCode (.blockRecord b)) = [] := by
    rw [Code.codecTypes, itemCode, blockRecord, Code.scan_struct (by simp [derives])]
    rfl
  have hmessage : Code.codecTypes (g.itemCode (.messageRecord m)) = [] := by
    rw [Code.codecTypes, itemCode, messageRecord, Code.scan_struct (by simp [derives])]
    rfl
  have hblockCodec (b : Block) : Code.codecTypes (g.itemCode (.blockCodec b)) = [g.blockTypeName b] := by
    rw [Code.codecTypes, hg.scan_blockCodec]
    rfl
  have hmessageCodec : Code.codecTypes (g.itemCode (.messageCodec m)) = [m.name] := by
    rw [Code.codecTypes, hg.scan_messageCodec]
    rfl
  cases hasCodec <;>
    simp [Message.items, List.flatMap_assoc, hblock, hmessage, hblockCodec, hmessageCodec, List.map_eq_flatMap]

/-- The types with a codec are those of the parts, in order. -/
theorem codecTypes_outlineCode (outline : Outline) :
    Code.codecTypes (g.outlineCode outline) = outline.items.flatMap fun item => Code.codecTypes (g.itemCode item) := by
  rw [Code.codecTypes, hg.scan_outlineCode (Code.findsNames_typeFront? "for") fun name => rfl, List.map_flatMap]
  rfl

/-- The types with a codec are those of the messages without a disabled type. -/
theorem mem_codecTypes_iff (hclear : NamesClear (g.typeNames t)) {m : Message} (hm : m ∈ t.messages) {name : String}
    (hname : name ∈ m.blocks.map g.blockTypeName ++ [m.name]) :
    name ∈ Code.codecTypes (g.outlineCode (t.outline disabled)) ↔ ¬m.UsesDisabled disabled := by
  have hnodup : (t.messages.flatMap fun m => m.name :: m.blocks.map g.blockTypeName).Nodup := by
    have hnames := hclear.1
    simpa [typeNames, messageTypeNames, List.map_flatMap, Function.comp_def] using hnames
  have htypes : Code.codecTypes (g.outlineCode (t.outline disabled)) = t.messages.flatMap fun m =>
      if (m.disabledTag? disabled).isNone then m.blocks.map g.blockTypeName ++ [m.name] else [] := by
    rw [hg.codecTypes_outlineCode, Template.outline, List.flatMap_assoc]
    exact List.flatMap_congr fun m _ => hg.codecTypes_items m _
  rw [htypes, List.mem_flatMap, ← Message.disabledTag?_eq_none_iff]
  constructor
  · rintro ⟨m', hm', hmem⟩
    split at hmem
    · rename_i hnone
      -- no two messages share a type name, so the codec is one of this message
      obtain rfl : m' = m := eq_of_nodup_flatMap hnodup hm' hm (by simpa [or_comm] using hmem) (by simpa [or_comm] using hname)
      exact Option.isNone_iff_eq_none.mp hnone
    · cases hmem
  · intro hnone
    exact ⟨m, hm, by simpa [hnone] using hname⟩

end Generator.Sound

/-! ## What is generated -/

/-- Whether all that is generated about a message goes with whether it has a codec: the diagnostics, the codecs of its
types, and the arms for its number and its variant. The codecs that there are do what the message and its blocks say. -/
structure CodecsAgree (g : Generator) (out : Generated) (s : Surface) (m : Message) (available : Prop) : Prop where
  diagnostics : (∀ d ∈ out.diagnostics, d.message ≠ m.name) ↔ available
  messageCodec : m.name ∈ Code.codecTypes out.code ↔ available
  blockCodecs : ∀ b ∈ m.blocks, g.blockTypeName b ∈ Code.codecTypes out.code ↔ available
  messageRealized : available → out.code.HasMessageCodec g m
  blocksRealized : available → ∀ b ∈ m.blocks, out.code.HasBlockCodec g b
  kind : ∀ kind, ⟨some m.number, kind⟩ ∈ s.kinds ↔ kind = some m.name
  reading : ∀ act, ⟨some m.number, act⟩ ∈ s.reads ↔ available ∧ act = .read m.name m.name ∨ ¬available ∧ act = .refuse m.name
  writing : ∀ act, ⟨m.name, act⟩ ∈ s.writes ↔ available ∧ act = .handOn ∨ ¬available ∧ act = .refuse m.name

/-- What a message that can be written and read has among the parts of an outline. -/
theorem Template.mem_items_outline {t : Template} {disabled : List String} {m : Message} (hm : m ∈ t.messages)
    (hfree : ¬m.UsesDisabled disabled) :
    .messageRecord m ∈ (t.outline disabled).items ∧ .messageCodec m ∈ (t.outline disabled).items ∧
      ∀ b ∈ m.blocks, .blockCodec b ∈ (t.outline disabled).items := by
  have hitems {item : Item} (hitem : item ∈ m.items true) : item ∈ (t.outline disabled).items := by
    refine List.mem_flatMap.mpr ⟨m, hm, ?_⟩
    rwa [Message.disabledTag?_eq_none_iff.mpr hfree]
  refine ⟨hitems ?_, hitems ?_, fun b hb => hitems ?_⟩
  · simp [Message.items]
  · simp [Message.items]
  · exact List.mem_append_left _ (List.mem_flatMap.mpr ⟨b, hb, by simp⟩)

namespace Template

variable {t : Template} {disabled : List String} {m : Message}

/-- A number of a message has one kind, that of the message. -/
theorem mem_kinds_iff (hdistinct : t.Distinct) (hm : m ∈ t.messages) (kind : Option String) :
    ⟨some m.number, kind⟩ ∈ (Surface.ofArms (t.arms disabled)).kinds ↔ kind = some m.name := by
  simp only [Surface.ofArms, arms, List.map_map, List.mem_append, List.mem_singleton]
  rw [or_iff_left (by simp), mem_map_iff_of_key hdistinct.numbers hm fun m' h => Option.some.inj (congrArg KindArm.number h)]
  simp [eq_comm]

/-- A number of a message has one arm that reads, which hands on or refuses the message. -/
theorem mem_reads_iff (hdistinct : t.Distinct) (hm : m ∈ t.messages) (act : ReadAct) :
    ⟨some m.number, act⟩ ∈ (Surface.ofArms (t.arms disabled)).reads ↔
      ¬m.UsesDisabled disabled ∧ act = .read m.name m.name ∨ ¬¬m.UsesDisabled disabled ∧ act = .refuse m.name := by
  simp only [Surface.ofArms, arms, List.map_map, List.mem_append, List.mem_singleton]
  rw [or_iff_left (by simp), mem_map_iff_of_key hdistinct.numbers hm fun m' h => Option.some.inj (congrArg ReadArm.number h)]
  by_cases huses : m.UsesDisabled disabled
  · simpa [huses] using eq_comm
  · simpa [huses] using eq_comm

/-- A variant has one arm that writes, which hands on or refuses its message. -/
theorem mem_writes_iff (hdistinct : t.Distinct) (hm : m ∈ t.messages) (act : WriteAct) :
    ⟨m.name, act⟩ ∈ (Surface.ofArms (t.arms disabled)).writes ↔
      ¬m.UsesDisabled disabled ∧ act = .handOn ∨ ¬¬m.UsesDisabled disabled ∧ act = .refuse m.name := by
  simp only [Surface.ofArms, arms, List.map_map]
  rw [mem_map_iff_of_key hdistinct.names hm fun m' h => congrArg WriteArm.variant h]
  by_cases huses : m.UsesDisabled disabled
  · simpa [huses] using eq_comm
  · simpa [huses] using eq_comm

end Template

/-! ## How a catalog behaves -/

namespace Wire

/-- Whether a catalog tells its messages apart by their numbers, reads those without a disabled type, and touches
neither the source nor the sink for the others. -/
structure Catalog.Consistent (c : Catalog) : Prop where
  ofNumber?_eq_some : ∀ n m, c.ofNumber? n = some m ↔ m ∈ c.template.messages ∧ m.number = n
  ofNumber?_eq_none : ∀ n, c.ofNumber? n = none ↔ ∀ m ∈ c.template.messages, m.number ≠ n
  reads : ∀ m ∈ c.template.messages, ¬m.UsesDisabled c.disabled →
    c.dispatch m.number = do return ⟨m.name, ← decodeBlocks m.blocks⟩
  refuses : ∀ m ∈ c.template.messages, m.UsesDisabled c.disabled → ∀ s, c.dispatch m.number s = .error (.unsupported m.name) s
  rejects : ∀ n, (∀ m ∈ c.template.messages, m.number ≠ n) → ∀ s, c.dispatch n s = .error (.unknownNumber n) s
  writesNothing : ∀ m ∈ c.template.messages, m.UsesDisabled c.disabled → ∀ body sink,
    c.write m body sink = ⟨[], [], some (.unsupported m.name)⟩

/-- A message has a codec exactly if it uses no disabled type. -/
theorem hasCodec_eq_true_iff {c : Catalog} {m : Message} : c.hasCodec m = true ↔ ¬m.UsesDisabled c.disabled := by
  rw [Catalog.hasCodec, Option.isNone_iff_eq_none, Message.disabledTag?_eq_none_iff]

/-- The arms of a template are those of its catalog. -/
theorem Catalog.arms_eq (c : Catalog) : c.template.arms c.disabled = c.template.messages.map fun m => ⟨m, c.hasCodec m⟩ := by
  refine List.map_congr_left fun m _ => ?_
  have hcodec : (!decide (m.UsesDisabled c.disabled)) = c.hasCodec m := by
    rw [Bool.eq_iff_iff, hasCodec_eq_true_iff]
    simp
  rw [hcodec]

/-- The catalog of a distinct template is consistent. -/
theorem consistent_of_distinct {c : Catalog} (hdistinct : c.template.Distinct) : c.Consistent := by
  have hskipped {m : Message} (huses : m.UsesDisabled c.disabled) : c.hasCodec m = false := by
    rw [← Bool.not_eq_true, hasCodec_eq_true_iff, not_not]
    exact huses
  have hnone (n : Nat) : c.ofNumber? n = none ↔ ∀ m ∈ c.template.messages, m.number ≠ n := by
    simp [Catalog.ofNumber?]
  refine ⟨fun n m => ⟨fun h => ?_, ?_⟩, hnone, fun m hm huses => ?_, fun m hm huses s => ?_, fun n hn s => ?_,
    fun m _ huses body sink => ?_⟩
  · exact ⟨List.mem_of_find?_eq_some h, by simpa using List.find?_some h⟩
  · rintro ⟨hm, rfl⟩
    exact ofNumber?_number hdistinct hm
  · exact dispatch_eq (ofNumber?_number hdistinct hm) (hasCodec_eq_true_iff.mpr huses)
  · exact dispatch_unsupported (ofNumber?_number hdistinct hm) (hskipped huses) s
  · exact dispatch_unknown ((hnone n).mpr hn) s
  · simp [Catalog.write, hskipped huses]

end Wire

end MessageCatalog
