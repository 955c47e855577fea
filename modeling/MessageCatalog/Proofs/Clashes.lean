import Mathlib.Data.List.Induction
import MessageCatalog.Proofs.Uniqueness

/-!
# The first clash

The uniqueness check is three loops inside each other, each with what it has seen. Here a template is one row of parts
in the order of declaration: the name and the number of a message, and then its blocks, each in front of its fields. A
part may not repeat an earlier one of its scope (`Part.mark`), and going through the row (`checkParts`) is the same as
the three loops. So the check passes exactly the templates without a repetition, and reports the first part that is one.
-/

namespace MessageCatalog

/-! ## Parts of a template -/

/-- What is compared with what: the names of messages, their numbers, the blocks of a message and the fields of a block.
Messages and blocks are told apart by their places. -/
inductive Scope where
  | messageNames
  | messageNumbers
  | blocks (message : Nat)
  | fields (message block : Nat)
  deriving DecidableEq, Repr

/-- What a part is compared by. -/
inductive Key where
  | name (text : String)
  | number (value : Nat)
  deriving DecidableEq, Repr

/-- A part of a template that may not come twice, with the places and the parts it stands in. -/
inductive Part where
  | messageName (m : Message)
  | messageNumber (m : Message)
  | block (place : Nat) (m : Message) (b : Block)
  | field (place blockPlace : Nat) (m : Message) (b : Block) (f : Field)
  deriving DecidableEq, Repr

namespace Part

/-- The message that the part belongs to. -/
def message : Part → Message
  | messageName m => m
  | messageNumber m => m
  | block _ m _ => m
  | field _ _ m _ _ => m

/-- The scope of a part, and what it is compared by there: the names of blocks and fields by the field names they become. -/
def mark : Part → Scope × Key
  | messageName m => (.messageNames, .name m.name)
  | messageNumber m => (.messageNumbers, .number m.number)
  | block place _ b => (.blocks place, .name (Naming.fieldName b.name))
  | field place blockPlace _ _ f => (.fields place blockPlace, .name (Naming.fieldName f.name))

/-- How the clash of a part with an earlier one is reported. -/
def clash (p earlier : Part) : Clash :=
  match p with
  | messageName m => .messageName m.name
  | messageNumber m => .messageNumber m.number earlier.message.name m.name
  | block _ m b => .block m.name b.name
  | field _ _ m b f => .field m.name b.name f.name

/-- The message whose number the part is. -/
def numbered? : Part → Option Message
  | messageNumber m => some m
  | _ => none

/-- A message name must differ from those of all messages. -/
@[simp] theorem mark_messageName (m : Message) : (messageName m).mark = (.messageNames, .name m.name) := rfl

/-- A message number must differ from those of all messages. -/
@[simp] theorem mark_messageNumber (m : Message) : (messageNumber m).mark = (.messageNumbers, .number m.number) := rfl

/-- The field name of a block must differ within its message. -/
@[simp] theorem mark_block (place : Nat) (m : Message) (b : Block) :
    (block place m b).mark = (.blocks place, .name (Naming.fieldName b.name)) := rfl

/-- The field name of a field must differ within its block. -/
@[simp] theorem mark_field (place blockPlace : Nat) (m : Message) (b : Block) (f : Field) :
    (field place blockPlace m b f).mark = (.fields place blockPlace, .name (Naming.fieldName f.name)) := rfl

/-- The part for the number of a message leads back to the message. -/
theorem numbered?_messageNumber (m : Message) : (messageNumber m).numbered? = some m := rfl

end Part

/-- The parts of some blocks of a message, each in front of its fields. -/
def blockParts (place : Nat) (m : Message) (blockPlace : Nat) : List Block → List Part
  | [] => []
  | b :: rest => .block place m b :: b.fields.map (.field place blockPlace m b) ++ blockParts place m (blockPlace + 1) rest

/-- The parts of a message: its name, its number, and its blocks. -/
def Message.parts (m : Message) (place : Nat) : List Part :=
  .messageName m :: .messageNumber m :: blockParts place m 0 m.blocks

/-- The parts of some messages, the first of which has the given place. -/
def partsFrom (place : Nat) : List Message → List Part
  | [] => []
  | m :: rest => m.parts place ++ partsFrom (place + 1) rest

/-- The parts of a template in the order of their declaration. -/
def Template.parts (t : Template) : List Part :=
  partsFrom 0 t.messages

/-- The clash of the first part of a template that repeats an earlier one of its scope. -/
def Template.FirstClash (t : Template) (clash : Clash) : Prop :=
  ∃ before bad after earlier, t.parts = before ++ bad :: after ∧ (before.map Part.mark).Nodup ∧
    earlier ∈ before ∧ earlier.mark = bad.mark ∧ clash = bad.clash earlier

/-! ## Going through a row of parts -/

/-- Checks parts behind those that were seen, the last of them first. -/
def checkParts (seen : List Part) : List Part → Except Error Unit
  | [] => .ok ()
  | p :: rest =>
    match seen.find? (·.mark == p.mark) with
    | some earlier => .error (.duplicate (p.clash earlier))
    | none => checkParts (p :: seen) rest

/-- No part before has the mark of this one exactly if its mark is new. -/
theorem find?_mark_eq_none_iff {seen : List Part} {p : Part} :
    seen.find? (·.mark == p.mark) = none ↔ p.mark ∉ seen.map Part.mark := by
  simp [List.find?_eq_none, List.mem_map]

/-- A part with a new mark is passed and remembered. -/
theorem checkParts_of_new {seen rest : List Part} {p : Part} (h : p.mark ∉ seen.map Part.mark) :
    checkParts seen (p :: rest) = checkParts (p :: seen) rest := by
  rw [checkParts, find?_mark_eq_none_iff.mpr h]

/-- A part that repeats one is reported, with the last one that it repeats. -/
theorem checkParts_of_seen {seen rest : List Part} {p : Part} (h : p.mark ∈ seen.map Part.mark) :
    ∃ earlier, seen.find? (·.mark == p.mark) = some earlier ∧
      checkParts seen (p :: rest) = .error (.duplicate (p.clash earlier)) := by
  cases hfind : seen.find? (·.mark == p.mark) with
  | none => exact absurd h (find?_mark_eq_none_iff.mp hfind)
  | some earlier =>
    refine ⟨earlier, rfl, ?_⟩
    rw [checkParts, hfind]

/-- The parts of one row are checked before those of the next. -/
theorem checkParts_append (seen first rest : List Part) :
    checkParts seen (first ++ rest) = (checkParts seen first).bind fun _ => checkParts (first.reverse ++ seen) rest := by
  induction first generalizing seen with
  | nil => rfl
  | cons p first ih =>
    rw [List.cons_append]
    by_cases hp : p.mark ∈ seen.map Part.mark
    · obtain ⟨earlier, hfind, hcheck⟩ := @checkParts_of_seen seen first p hp
      rw [hcheck, checkParts, hfind]
      rfl
    · rw [checkParts_of_new hp, checkParts_of_new hp, ih, List.reverse_cons, List.append_assoc, List.singleton_append]

/-- Parts whose marks all differ pass the check. -/
theorem checkParts_of_nodup {parts : List Part} (h : (parts.map Part.mark).Nodup) : checkParts [] parts = .ok () := by
  induction parts using List.reverseRecOn with
  | nil => rfl
  | append_singleton parts last ih =>
    rw [List.map_append, List.nodup_append] at h
    obtain ⟨hparts, -, hnew⟩ := h
    have hlast : last.mark ∉ parts.reverse.map Part.mark := by
      intro hmem
      rw [List.map_reverse, List.mem_reverse] at hmem
      exact hnew _ hmem _ List.mem_cons_self rfl
    rw [checkParts_append, ih hparts, List.append_nil]
    exact checkParts_of_new hlast

/-- Behind parts that are distinct the first repetition is reported, with the one part that it repeats. -/
theorem checkParts_of_repetition {before after : List Part} {bad earlier : Part} (hdistinct : (before.map Part.mark).Nodup)
    (hearlier : earlier ∈ before) (hmark : earlier.mark = bad.mark) :
    checkParts [] (before ++ bad :: after) = .error (.duplicate (bad.clash earlier)) := by
  have hreverse : (before.reverse.map Part.mark).Nodup := by
    rw [List.map_reverse, List.nodup_reverse]
    exact hdistinct
  have hfind : before.reverse.find? (·.mark == bad.mark) = some earlier := by
    rw [← hmark]
    exact find?_key_eq_some hreverse (List.mem_reverse.mpr hearlier)
  rw [checkParts_append, checkParts_of_nodup hdistinct, List.append_nil]
  change checkParts before.reverse (bad :: after) = _
  rw [checkParts, hfind]

/-- Parts are distinct, or one of them is the first repetition. -/
theorem nodup_or_repetition (parts : List Part) : (parts.map Part.mark).Nodup ∨
    ∃ before bad after earlier, parts = before ++ bad :: after ∧ (before.map Part.mark).Nodup ∧
      earlier ∈ before ∧ earlier.mark = bad.mark := by
  induction parts using List.reverseRecOn with
  | nil => exact .inl List.nodup_nil
  | append_singleton parts last ih =>
    rcases ih with hdistinct | ⟨before, bad, after, earlier, rfl, hdistinct, hearlier, hmark⟩
    · by_cases hseen : last.mark ∈ parts.map Part.mark
      · obtain ⟨earlier, hearlier, hmark⟩ := List.mem_map.mp hseen
        exact .inr ⟨parts, last, [], earlier, rfl, hdistinct, hearlier, hmark⟩
      · left
        rw [List.map_append, List.nodup_append]
        refine ⟨hdistinct, List.nodup_singleton _, ?_⟩
        rintro mark hmem other hother rfl
        rw [List.map_singleton, List.mem_singleton] at hother
        exact hseen (hother ▸ hmem)
    · exact .inr ⟨before, bad, after ++ [last], earlier, by simp, hdistinct, hearlier, hmark⟩

/-! ## The three loops -/

/-- The field loop goes through the parts of the fields, if it has seen what was seen in their scope. -/
theorem checkParts_fields {place blockPlace : Nat} {m : Message} {b : Block} {fields : List Field} {seen : List Part}
    {names : List String} (hseen : ∀ name, (Scope.fields place blockPlace, Key.name name) ∈ seen.map Part.mark ↔ name ∈ names) :
    checkParts seen (fields.map (.field place blockPlace m b)) = checkFields m.name b.name names fields := by
  induction fields generalizing seen names with
  | nil => rfl
  | cons f fields ih =>
    rw [List.map_cons, checkFields]
    have hmark : (Part.field place blockPlace m b f).mark ∈ seen.map Part.mark ↔
        names.contains (Naming.fieldName f.name) = true := by
      rw [List.contains_iff_mem]
      exact hseen _
    by_cases hf : names.contains (Naming.fieldName f.name) = true
    · obtain ⟨earlier, -, hcheck⟩ := checkParts_of_seen (hmark.mpr hf)
      rw [hcheck, if_pos hf]
      rfl
    · rw [checkParts_of_new (mt hmark.mp hf), if_neg hf]
      refine ih fun name => ?_
      rw [List.map_cons, List.mem_cons, List.mem_cons, hseen]
      simp

/-- The parts of blocks are blocks of the message, or fields of blocks from the given place on. -/
theorem scope_of_mem_blockParts {place : Nat} {m : Message} {blockPlace : Nat} {blocks : List Block} {p : Part}
    (h : p ∈ blockParts place m blockPlace blocks) :
    (∃ key, p.mark = (.blocks place, key)) ∨ ∃ k key, blockPlace ≤ k ∧ p.mark = (.fields place k, key) := by
  induction blocks generalizing blockPlace with
  | nil => cases h
  | cons b rest ih =>
    rw [blockParts, List.mem_append, List.mem_cons] at h
    rcases h with (rfl | h) | h
    · exact .inl ⟨_, rfl⟩
    · obtain ⟨f, -, rfl⟩ := List.mem_map.mp h
      exact .inr ⟨blockPlace, _, Nat.le_refl _, rfl⟩
    · rcases ih h with hblock | ⟨k, key, hk, hfield⟩
      · exact .inl hblock
      · exact .inr ⟨k, key, Nat.le_of_succ_le hk, hfield⟩

/-- The block loop goes through the parts of the blocks, if it has seen what was seen in their scope, and nothing was
seen in the scopes of their fields. -/
theorem checkParts_blocks {place : Nat} {m : Message} {blockPlace : Nat} {blocks : List Block} {seen : List Part}
    {names : List String} (hseen : ∀ name, (Scope.blocks place, Key.name name) ∈ seen.map Part.mark ↔ name ∈ names)
    (hfields : ∀ k key, blockPlace ≤ k → (Scope.fields place k, key) ∉ seen.map Part.mark) :
    checkParts seen (blockParts place m blockPlace blocks) = checkBlocks m.name names blocks := by
  induction blocks generalizing blockPlace seen names with
  | nil => rfl
  | cons b rest ih =>
    rw [blockParts, List.cons_append, checkBlocks]
    have hmark : (Part.block place m b).mark ∈ seen.map Part.mark ↔ names.contains (Naming.fieldName b.name) = true := by
      rw [List.contains_iff_mem]
      exact hseen _
    by_cases hb : names.contains (Naming.fieldName b.name) = true
    · obtain ⟨earlier, -, hcheck⟩ := checkParts_of_seen (hmark.mpr hb)
      rw [hcheck, if_pos hb]
      rfl
    · have hempty : ∀ name, (Scope.fields place blockPlace, Key.name name) ∈ (Part.block place m b :: seen).map Part.mark ↔
          name ∈ ([] : List String) := by
        intro name
        have hnew := hfields blockPlace (.name name) (Nat.le_refl _)
        simpa using hnew
      rw [checkParts_of_new (mt hmark.mp hb), if_neg hb, checkParts_append, checkParts_fields hempty]
      cases checkFields m.name b.name [] b.fields with
      | error e => rfl
      | ok u =>
        refine ih (fun name => ?_) fun k key hk hmem => ?_
        · simp [hseen]
        · obtain ⟨p, hp, hscope⟩ := List.mem_map.mp hmem
          rcases List.mem_append.mp hp with hp | hp
          · obtain ⟨f, -, rfl⟩ := List.mem_map.mp (List.mem_reverse.mp hp)
            obtain ⟨-, rfl⟩ := Scope.fields.inj (Prod.mk.inj hscope).1
            omega
          · rcases List.mem_cons.mp hp with rfl | hp
            · simp at hscope
            · exact hfields k key (Nat.le_of_succ_le hk) (List.mem_map.mpr ⟨p, hp, hscope⟩)

/-- What the message loop keeps of the parts that were seen: the messages, and that no scope of a later message has any part. -/
structure SeenUpTo (place : Nat) (done : List Message) (seen : List Part) : Prop where
  names : ∀ name, (Scope.messageNames, Key.name name) ∈ seen.map Part.mark ↔ name ∈ done.map (·.name)
  numbers : seen.filterMap Part.numbered? = done
  blocks : ∀ k key, place ≤ k → (Scope.blocks k, key) ∉ seen.map Part.mark
  fields : ∀ k j key, place ≤ k → (Scope.fields k j, key) ∉ seen.map Part.mark

/-- The number of a message is looked up among the numbers that were seen. -/
theorem find?_messageNumber (seen : List Part) (m : Message) : seen.find? (·.mark == (Part.messageNumber m).mark) =
    ((seen.filterMap Part.numbered?).find? (·.number == m.number)).map .messageNumber := by
  induction seen with
  | nil => rfl
  | cons p seen ih =>
    rw [List.find?_cons, List.filterMap_cons]
    cases p with
    | messageNumber earlier =>
      have hmark : ((Part.messageNumber earlier).mark == (Part.messageNumber m).mark) = (earlier.number == m.number) := by
        rw [Bool.eq_iff_iff]
        simp
      rw [hmark, Part.numbered?, List.find?_cons]
      cases earlier.number == m.number with
      | true => rfl
      | false => exact ih
    | _ => exact ih

/-- No part of a block is a message number. -/
theorem numbered?_blockParts (place : Nat) (m : Message) (blockPlace : Nat) (blocks : List Block) :
    (blockParts place m blockPlace blocks).filterMap Part.numbered? = [] := by
  rw [List.filterMap_eq_nil_iff]
  intro p hp
  have hscope := scope_of_mem_blockParts hp
  cases p with
  | messageNumber => simp at hscope
  | _ => rfl

/-- The parts of a message have one message number, its own. -/
theorem numbered?_parts (m : Message) (place : Nat) : (m.parts place).filterMap Part.numbered? = [m] := by
  rw [Message.parts, List.filterMap_cons_none rfl, List.filterMap_cons_some (Part.numbered?_messageNumber m),
    numbered?_blockParts]

/-- The loop goes on with what was seen of a message. -/
theorem SeenUpTo.behind {place : Nat} {done : List Message} {seen : List Part} (h : SeenUpTo place done seen) (m : Message) :
    SeenUpTo (place + 1) (m :: done) ((m.parts place).reverse ++ seen) := by
  have hmem (mark : Scope × Key) : mark ∈ ((m.parts place).reverse ++ seen).map Part.mark ↔
      mark ∈ (m.parts place).map Part.mark ∨ mark ∈ seen.map Part.mark := by
    rw [List.map_append, List.mem_append, List.map_reverse, List.mem_reverse]
  have hown (mark : Scope × Key) (hmark : mark ∈ (m.parts place).map Part.mark) :
      mark = (.messageNames, .name m.name) ∨ mark = (.messageNumbers, .number m.number) ∨
        (∃ key, mark = (.blocks place, key)) ∨ ∃ k key, mark = (.fields place k, key) := by
    obtain ⟨p, hp, rfl⟩ := List.mem_map.mp hmark
    rcases List.mem_cons.mp hp with rfl | hp
    · exact .inl rfl
    rcases List.mem_cons.mp hp with rfl | hp
    · exact .inr (.inl rfl)
    rcases scope_of_mem_blockParts hp with hblock | ⟨k, key, -, hfield⟩
    · exact .inr (.inr (.inl hblock))
    · exact .inr (.inr (.inr ⟨k, key, hfield⟩))
  refine ⟨fun name => ?_, ?_, fun k key hk hmark => ?_, fun k j key hk hmark => ?_⟩
  · rw [hmem, h.names, List.map_cons, List.mem_cons]
    refine or_congr_left ⟨fun hmark => ?_, ?_⟩
    · simpa using hown _ hmark
    · rintro rfl
      exact List.mem_cons_self
  · rw [List.filterMap_append, List.filterMap_reverse, h.numbers, numbered?_parts, List.reverse_singleton, List.singleton_append]
  · rcases (hmem _).mp hmark with hmark | hmark
    · have hplace : k = place := by simpa using hown _ hmark
      omega
    · exact h.blocks k key (Nat.le_of_succ_le hk) hmark
  · rcases (hmem _).mp hmark with hmark | hmark
    · have hplace : k = place := by simpa using hown _ hmark
      omega
    · exact h.fields k j key (Nat.le_of_succ_le hk) hmark

/-- The message loop goes through the parts of the messages. -/
theorem checkParts_messages {place : Nat} {messages done : List Message} {seen : List Part} (h : SeenUpTo place done seen) :
    checkParts seen (partsFrom place messages) = checkMessages done messages := by
  induction messages generalizing place done seen with
  | nil => rfl
  | cons m rest ih =>
    have hbehind := h.behind m
    rw [partsFrom, checkMessages]
    have hname : (Part.messageName m).mark ∈ seen.map Part.mark ↔ done.any (·.name == m.name) = true := by
      rw [Part.mark, h.names]
      simp
    by_cases hm : done.any (·.name == m.name) = true
    · obtain ⟨earlier, -, hcheck⟩ := checkParts_of_seen (hname.mpr hm)
      rw [Message.parts, List.cons_append, hcheck, if_pos hm]
      rfl
    rw [if_neg hm, checkParts_append, Message.parts, checkParts_of_new (mt hname.mp hm), checkParts]
    have hfind : (Part.messageName m :: seen).find? (·.mark == (Part.messageNumber m).mark) =
        (done.find? (·.number == m.number)).map .messageNumber := by
      rw [find?_messageNumber, List.filterMap_cons_none rfl, h.numbers]
    rw [hfind]
    cases done.find? (·.number == m.number) with
    | some earlier => rfl
    | none =>
      have hblocks : checkParts (.messageNumber m :: .messageName m :: seen) (blockParts place m 0 m.blocks) =
          checkBlocks m.name [] m.blocks := by
        refine checkParts_blocks (fun name => ?_) fun k key _ => ?_
        · have hnew := h.blocks place (.name name) (Nat.le_refl _)
          simpa using hnew
        · have hnew := h.fields place k key (Nat.le_refl _)
          simpa using hnew
      simp only [Option.map_none, hblocks]
      cases checkBlocks m.name [] m.blocks with
      | error e => rfl
      | ok u => exact ih hbehind

/-- The check goes through the parts of a template. -/
theorem checkUnique_eq_checkParts (t : Template) : t.checkUnique = checkParts [] t.parts := by
  have hnothing : SeenUpTo 0 [] [] := ⟨by simp, rfl, by simp, by simp⟩
  exact (checkParts_messages hnothing).symm

/-! ## What is reported -/

/-- A template fails with its first clash. -/
theorem checkUnique_of_firstClash {t : Template} {clash : Clash} (h : t.FirstClash clash) :
    t.checkUnique = .error (.duplicate clash) := by
  obtain ⟨before, bad, after, earlier, hparts, hdistinct, hearlier, hmark, rfl⟩ := h
  rw [checkUnique_eq_checkParts, hparts, checkParts_of_repetition hdistinct hearlier hmark]

/-- A template fails exactly with its first clash. -/
theorem checkUnique_eq_error_iff {t : Template} {e : Error} :
    t.checkUnique = .error e ↔ ∃ clash, t.FirstClash clash ∧ e = .duplicate clash := by
  constructor
  · intro h
    rcases nodup_or_repetition t.parts with hdistinct | ⟨before, bad, after, earlier, hparts, hdistinct, hearlier, hmark⟩
    · rw [checkUnique_eq_checkParts, checkParts_of_nodup hdistinct] at h
      cases h
    · have hclash : t.FirstClash (bad.clash earlier) := ⟨before, bad, after, earlier, hparts, hdistinct, hearlier, hmark, rfl⟩
      rw [checkUnique_of_firstClash hclash] at h
      exact ⟨_, hclash, (Except.error.inj h).symm⟩
  · rintro ⟨clash, hclash, rfl⟩
    exact checkUnique_of_firstClash hclash

/-- The parts of messages have the message numbers of these messages, in order. -/
theorem numbered?_partsFrom (place : Nat) (messages : List Message) :
    (partsFrom place messages).filterMap Part.numbered? = messages := by
  induction messages generalizing place with
  | nil => rfl
  | cons m rest ih =>
    rw [partsFrom, List.filterMap_append, ih, numbered?_parts, List.singleton_append]

/-- A clash of numbers is one of a message with the only one in front of it that has the number. -/
theorem Template.FirstClash.of_messageNumber {t : Template} {number : Nat} {earlier later : String}
    (h : t.FirstClash (.messageNumber number earlier later)) :
    ∃ before m after other, t.messages = before ++ m :: after ∧ other ∈ before ∧ other.number = number ∧ m.number = number ∧
      (∀ a ∈ before, a.number = number → a = other) ∧ other.name = earlier ∧ m.name = later := by
  obtain ⟨before, bad, after, first, hparts, hdistinct, hfirst, hmark, hclash⟩ := h
  cases bad with
  | messageNumber m =>
    cases first with
    | messageNumber other =>
      obtain ⟨rfl, rfl, rfl⟩ : number = m.number ∧ earlier = other.name ∧ later = m.name := by
        simpa [Part.clash, Part.message] using hclash
      have hnumber : other.number = m.number := by simpa using hmark
      have hmessages := congrArg (List.filterMap Part.numbered?) hparts
      rw [Template.parts, numbered?_partsFrom, List.filterMap_append,
        List.filterMap_cons_some (Part.numbered?_messageNumber m)] at hmessages
      refine ⟨_, m, _, other, hmessages, List.mem_filterMap.mpr ⟨_, hfirst, rfl⟩, hnumber, rfl, fun a ha hsame => ?_, rfl, rfl⟩
      obtain ⟨p, hp, hpa⟩ := List.mem_filterMap.mp ha
      cases p with
      | messageNumber a' =>
        obtain rfl : a' = a := by simpa [Part.numbered?] using hpa
        have heq : (Part.messageNumber a').mark = (Part.messageNumber other).mark := by simp [hsame, hnumber]
        simpa using List.inj_on_of_nodup_map hdistinct hp hfirst heq
      | _ => cases hpa
    | _ => simp at hmark
  | _ => simp [Part.clash] at hclash

/-- The check passes exactly the templates that declare nothing twice, and otherwise reports the first part that repeats
an earlier one of its scope. For a number, the report names the only message in front that has it, and the one at
hand. -/
theorem checkUnique_reports_first_clash (t : Template) :
    (t.checkUnique = .ok () ↔ t.Distinct) ∧
      (∀ e, t.checkUnique = .error e ↔ ∃ clash, t.FirstClash clash ∧ e = .duplicate clash) ∧
      ∀ number earlier later, t.checkUnique = .error (.duplicate (.messageNumber number earlier later)) →
        (Error.duplicate (.messageNumber number earlier later)).message =
            "duplicate " ++ ("message number: " ++ Numeral.hexWord number ++ " (" ++ earlier ++ " and " ++ later ++ ")") ∧
          ∃ before m after other, t.messages = before ++ m :: after ∧ other ∈ before ∧ other.number = number ∧ m.number = number ∧
            (∀ a ∈ before, a.number = number → a = other) ∧ other.name = earlier ∧ m.name = later := by
  refine ⟨checkUnique_eq_ok_iff, fun e => checkUnique_eq_error_iff, fun number earlier later h => ⟨?_, ?_⟩⟩
  · rfl
  · obtain ⟨clash, hclash, he⟩ := checkUnique_eq_error_iff.mp h
    obtain rfl := Error.duplicate.inj he
    exact hclash.of_messageNumber

end MessageCatalog
