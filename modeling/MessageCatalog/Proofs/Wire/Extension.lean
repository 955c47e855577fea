import MessageCatalog.Proofs.Source.Soundness
import MessageCatalog.Proofs.Wire.Dispatch
import MessageCatalog.Proofs.Wire.Failures

/-!
# Catalogs that grow

A template extends another one when it has all messages of it, up to the words of their headers and the lines they are
declared on, in any order and among any others. What is read with a template is then read alike with one that extends
it: an identifier leads to the same message, since no two messages of a template have the same number, and what reads
the body of a message depends on that message alone. Only numbers that were unknown can become known.
-/

namespace MessageCatalog

/-! ## Messages with the same codec -/

/-- Fields that are read alike. -/
structure Field.SameCodec (f f' : Field) : Prop where
  name : f.name = f'.name
  type : f.type = f'.type

/-- Blocks that are read alike, if their messages have the same name. -/
structure Block.SameCodec (b b' : Block) : Prop where
  name : b.name = b'.name
  quantity : b.quantity = b'.quantity
  fields : List.Forall₂ Field.SameCodec b.fields b'.fields

/-- Messages that are read alike: what they may differ in is the words of their headers, and the lines of all their parts. -/
structure Message.SameCodec (m m' : Message) : Prop where
  name : m.name = m'.name
  frequency : m.frequency = m'.frequency
  id : m.id = m'.id
  blocks : List.Forall₂ Block.SameCodec m.blocks m'.blocks

/-- Whether a template has all messages of another one. -/
def Template.Extends (t' t : Template) : Prop :=
  ∀ m ∈ t.messages, ∃ m' ∈ t'.messages, m.SameCodec m'

/-- Messages with the same codec have one number. -/
theorem Message.SameCodec.number {m m' : Message} (h : m.SameCodec m') : m.number = m'.number := by
  rw [Message.number, Message.number, Message.identifier, Message.identifier, h.frequency, h.id]

/-- Blocks with the same codec have fields of the same types. -/
theorem Block.SameCodec.tags {b b' : Block} (h : b.SameCodec b') :
    b.fields.map (·.type.tag) = b'.fields.map (·.type.tag) := by
  have htypes := h.fields
  generalize b.fields = fields, b'.fields = fields' at htypes
  induction htypes with
  | nil => rfl
  | cons hf _ ih => rw [List.map_cons, List.map_cons, hf.type, ih]

/-- Messages with the same codec use the same disabled types. -/
theorem Message.SameCodec.disabledTag? {m m' : Message} (h : m.SameCodec m') (disabled : List String) :
    m.disabledTag? disabled = m'.disabledTag? disabled := by
  have hblocks := h.blocks
  have htags : m.fields.map (·.type.tag) = m'.fields.map (·.type.tag) := by
    unfold Message.fields
    generalize m.blocks = blocks, m'.blocks = blocks' at hblocks
    induction hblocks with
    | nil => rfl
    | cons hb _ ih => rw [List.flatMap_cons, List.flatMap_cons, List.map_append, List.map_append, hb.tags, ih]
  rw [Message.disabledTag?, Message.disabledTag?, htags]

namespace Wire

/-! ## Bodies that are read alike -/

/-- Records of the same fields at the same place are read alike. -/
theorem decodeFields_congr {b b' : Block} (hpath : b.path = b'.path) {fields fields' : List Field}
    (h : List.Forall₂ Field.SameCodec fields fields') : decodeFields b fields = decodeFields b' fields' := by
  induction h with
  | nil => rfl
  | @cons f f' fields fields' hf _ ih =>
    have hplace : b.fieldPath f = b'.fieldPath f' := by
      change b.path ++ "." ++ f.name = b'.path ++ "." ++ f'.name
      rw [hpath, hf.name]
    rw [decodeFields, decodeFields, hplace, hf.type, ih]

/-- Blocks with the same codec are read alike. -/
theorem decodeBlock_congr {b b' : Block} (howner : b.message = b'.message) (h : b.SameCodec b') :
    decodeBlock b = decodeBlock b' := by
  have hpath : b.path = b'.path := by rw [Block.path, Block.path, howner, h.name]
  unfold decodeBlock
  rw [h.quantity, hpath, decodeFields_congr hpath h.fields]

/-- Bodies of blocks with the same codec are read alike. -/
theorem decodeBlocks_congr {message : String} {blocks blocks' : List Block} (h : List.Forall₂ Block.SameCodec blocks blocks')
    (howner : ∀ b ∈ blocks, b.message = message) (howner' : ∀ b ∈ blocks', b.message = message) :
    decodeBlocks blocks = decodeBlocks blocks' := by
  induction h with
  | nil => rfl
  | cons hb _ ih =>
    rw [List.forall_mem_cons] at howner howner'
    rw [decodeBlocks, decodeBlocks, decodeBlock_congr (howner.1.trans howner'.1.symm) hb, ih howner.2 howner'.2]

/-! ## Numbers under two catalogs -/

/-- Only a number that no message has is unknown. -/
theorem ofNumber?_of_dispatch_unknown {c : Catalog} {number n : Nat} {s s' : Source}
    (h : c.dispatch number s = .error (.unknownNumber n) s') : c.ofNumber? number = none := by
  rcases dispatch_eq_error h with ⟨hnone, -⟩ | ⟨m, -, -, he⟩ | ⟨m, -, -, hbody⟩
  · exact hnone
  · cases he
  · obtain ⟨site, -, fault, he, -⟩ := failsAt_of_decodeBlocks hbody
    cases he

section Extension

variable {t t' : Template} (hvalid : t.Valid) (hvalid' : t'.Valid) (hextends : t'.Extends t) (disabled : List String)
include hvalid' hextends

/-- A number that is known stays known, for a message that is read alike. -/
theorem ofNumber?_of_extends {number : Nat} {m : Message} (h : Catalog.ofNumber? ⟨t, disabled⟩ number = some m) :
    ∃ m' ∈ t'.messages, Catalog.ofNumber? ⟨t', disabled⟩ number = some m' ∧ m.SameCodec m' := by
  obtain ⟨m', hm', hsame⟩ := hextends m (List.mem_of_find?_eq_some h)
  obtain rfl : m.number = number := by simpa using List.find?_some h
  rw [hsame.number]
  exact ⟨m', hm', ofNumber?_number (c := ⟨t', disabled⟩) hvalid'.distinct hm', hsame⟩

include hvalid

/-- A number that is known leads to the same. -/
theorem dispatch_of_extends {number : Nat} {m : Message} (h : Catalog.ofNumber? ⟨t, disabled⟩ number = some m) :
    Catalog.dispatch ⟨t', disabled⟩ number = Catalog.dispatch ⟨t, disabled⟩ number := by
  obtain ⟨m', hm', hfound, hsame⟩ := ofNumber?_of_extends hvalid' hextends disabled h
  have hm : m ∈ t.messages := List.mem_of_find?_eq_some h
  have hcodec : Catalog.hasCodec ⟨t', disabled⟩ m' = Catalog.hasCodec ⟨t, disabled⟩ m := by
    rw [Catalog.hasCodec, Catalog.hasCodec, hsame.disabledTag?]
  have hbody : decodeBlocks m.blocks = decodeBlocks m'.blocks :=
    decodeBlocks_congr hsame.blocks (fun b hb => ((hvalid.messages m hm).blocks b hb).owner)
      fun b hb => (((hvalid'.messages m' hm').blocks b hb).owner).trans hsame.name.symm
  simp only [Catalog.dispatch, h, hfound, hcodec, hbody, hsame.name]

/-- Reading goes alike with both templates, but for a number that is unknown with the smaller one. -/
theorem read_of_extends (s : Source) :
    Catalog.read ⟨t', disabled⟩ s = Catalog.read ⟨t, disabled⟩ s ∨
      ∃ number rest, takeMessageNumber s = .ok number rest ∧
        Catalog.read ⟨t, disabled⟩ s = .error (.unknownNumber number) rest := by
  unfold Catalog.read
  cases hnumber : takeMessageNumber s with
  | error fault rest => exact .inl rfl
  | ok number rest =>
    cases hfound : Catalog.ofNumber? ⟨t, disabled⟩ number with
    | none => exact .inr ⟨number, rest, rfl, dispatch_unknown hfound rest⟩
    | some m =>
      have hsame := dispatch_of_extends hvalid hvalid' hextends disabled hfound
      exact .inl (congrFun hsame rest)

end Extension

/-- With a template that extends another one, both read from sources, every message is read as with the other one, every
failure but that of an unknown number is the same, and a number that is still unknown was unknown before. What is left
of the source is the same, too. -/
theorem read_under_extension {source source' : String} {t t' : Template} (hparse : parse source = .ok t)
    (hparse' : parse source' = .ok t') (hextends : t'.Extends t) (disabled : List String) (s : Source) :
    (∀ v rest, Catalog.read ⟨t, disabled⟩ s = .ok v rest → Catalog.read ⟨t', disabled⟩ s = .ok v rest) ∧
      (∀ e rest, Catalog.read ⟨t, disabled⟩ s = .error e rest → (∀ number, e ≠ .unknownNumber number) →
        Catalog.read ⟨t', disabled⟩ s = .error e rest) ∧
      ∀ number rest, Catalog.read ⟨t', disabled⟩ s = .error (.unknownNumber number) rest →
        Catalog.read ⟨t, disabled⟩ s = .error (.unknownNumber number) rest := by
  rcases read_of_extends (parse_valid hparse) (parse_valid hparse') hextends disabled s with
    hsame | ⟨number, rest, hnumber, hunknown⟩
  · rw [hsame]
    exact ⟨fun v rest h => h, fun e rest h _ => h, fun number rest h => h⟩
  · refine ⟨fun v rest' h => ?_, fun e rest' h hknown => ?_, fun n rest' h => ?_⟩
    · rw [hunknown] at h
      cases h
    · rw [hunknown] at h
      cases h
      exact absurd rfl (hknown number)
    · -- an unknown number comes from the identifier alone, which is the same for both
      have hdispatch : Catalog.dispatch ⟨t', disabled⟩ number rest = .error (.unknownNumber n) rest' := by
        rw [Catalog.read, hnumber] at h
        exact h
      rw [dispatch_unknown (ofNumber?_of_dispatch_unknown hdispatch) rest] at hdispatch
      rw [hunknown]
      exact hdispatch

/-- The lines of a source with the two messages of the small catalog in the other order, with other words, behind a third one. -/
def widerLines : List (List Char) :=
  ["version 2.1", "\x7b", "Halt High 2 Trusted Unencoded", "\x7d", "\x7b", "Ping Low 7 Trusted Zerocoded", "\x7b",
    "Flags Variable", "\x7b Seen BOOL \x7d", "\x7b Data Fixed 2 \x7d", "\x7d", "\x7d", "\x7b",
    "Move High 1 NotTrusted Unencoded", "\x7b", "Body Multiple 2", "\x7b Turn LLQuaternion \x7d",
    "\x7b Text Variable \x7d", "\x7d", "\x7d"].map String.toList

def widerSource : String :=
  String.ofList (['\n'].intercalate widerLines)

/-- What that source declares. -/
def widerTemplate : Template :=
  ⟨"2.1", [
    ⟨"Halt", .high, 2, "Trusted", "Unencoded", none, [], 3⟩,
    ⟨"Ping", .low, 7, "Trusted", "Zerocoded", none,
      [⟨"Flags", .varying, [⟨"Seen", .bool, 9⟩, ⟨"Data", .fixed 2, 10⟩], "Ping", 8⟩], 6⟩,
    ⟨"Move", .high, 1, "NotTrusted", "Unencoded", none,
      [⟨"Body", .multiple 2, [⟨"Turn", .quaternion, 17⟩, ⟨"Text", .varying .one, 18⟩], "Move", 16⟩], 14⟩]⟩

theorem parse_widerSource : parse widerSource = .ok widerTemplate := by
  rw [parse, normalize, widerSource, significantLines_ofList_intercalate (by decide +kernel)]
  decide +kernel

theorem extends_widerTemplate : widerTemplate.Extends sampleTemplate := by
  intro m hm
  rcases List.mem_cons.mp hm with rfl | hm
  · exact ⟨_, List.mem_of_getElem? (i := 2) rfl,
      rfl, rfl, rfl, .cons ⟨rfl, rfl, .cons ⟨rfl, rfl⟩ (.cons ⟨rfl, rfl⟩ .nil)⟩ .nil⟩
  · obtain rfl := List.mem_singleton.mp hm
    exact ⟨_, List.mem_of_getElem? (i := 1) rfl,
      rfl, rfl, rfl, .cons ⟨rfl, rfl, .cons ⟨rfl, rfl⟩ (.cons ⟨rfl, rfl⟩ .nil)⟩ .nil⟩

/-- A message is read and one is cut off as before, and a number that was unknown is known. -/
theorem read_under_extension_sample : widerTemplate.Extends sampleTemplate ∧
    Catalog.read ⟨widerTemplate, []⟩ ⟨[0xFF, 0xFF, 0, 7, 1, 1, 10, 11, 9], .ended⟩ =
      .ok ⟨"Ping", [[[.flag true, .bytes [10, 11]]]]⟩ ⟨[9], .ended⟩ ∧
    Catalog.read ⟨widerTemplate, []⟩ ⟨[0xFF, 0xFF, 0, 7, 1, 1, 10], .ended⟩ =
      .error (.field "Ping.Flags.Data" .ended) ⟨[], .ended⟩ ∧
    Catalog.read ⟨sampleTemplate, []⟩ ⟨[2], .ended⟩ = .error (.unknownNumber 2) ⟨[], .ended⟩ ∧
    Catalog.read ⟨widerTemplate, []⟩ ⟨[2], .ended⟩ = .ok ⟨"Halt", []⟩ ⟨[], .ended⟩ := by
  have hread (s : Source) := read_under_extension parse_sampleSource parse_widerSource extends_widerTemplate [] s
  exact ⟨extends_widerTemplate, (hread _).1 _ _ rfl, (hread _).2.1 _ _ rfl nofun, rfl, rfl⟩

end Wire

end MessageCatalog
