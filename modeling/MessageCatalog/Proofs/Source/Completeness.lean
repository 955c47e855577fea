import MessageCatalog.Proofs.Source.Soundness
import MessageCatalog.Proofs.Source.Writing

/-!
# What is written is read

A valid template is read from every source that it is written on, whatever the spelling of its numbers and keywords and
whatever stands around and between its lines. The lines that were placed on the source are its significant lines; braces
in pairs keep a region together, and the lines of each block are grouped behind its header.
-/

namespace MessageCatalog

/-! ## Significant lines -/

/-- Blanks end no line and start no comment. -/
theorem IsBlankRun.not_mem {blanks : List Char} (h : IsBlankRun blanks) : '\n' ∉ blanks ∧ '/' ∉ blanks :=
  ⟨fun hc => (h _ hc).2 rfl, fun hc => absurd (h _ hc).1 (by decide)⟩

/-- The text that a line holds is what counts of it. -/
theorem HoldsText.significantText {text line : List Char} (h : HoldsText text line) (hcomment : HasNoComment text)
    (hstart : ∀ c ∈ text.head?, Text.isBlank c = false) (hend : EndsVisibly text) : significantText line = text := by
  obtain ⟨lead, trail, comment, hlead, htrail, hc, hslash, rfl⟩ := h
  have hfront : HasNoComment (lead ++ text ++ trail) := by
    rw [List.append_assoc]
    refine hasNoComment_append_of_front hlead.not_mem.2 (hcomment.append (hasNoComment_of_not_mem htrail.not_mem.2) ?_)
    exact fun hhead => htrail.not_mem.2 (List.mem_of_head? hhead)
  have hbefore : Text.beforeComment (lead ++ text ++ trail ++ comment) = lead ++ text ++ trail := by
    rcases hc with rfl | ⟨remark, rfl, -⟩
    · rw [List.append_nil, Text.beforeComment_eq_self hfront]
    · -- a slash in front of the comment would make it start one character earlier
      refine Text.beforeComment_append hfront fun hlast => ?_
      rw [List.append_assoc] at hlast
      by_cases hempty : text ++ trail = []
      · rw [hempty, List.append_nil] at hlast
        exact hlead.not_mem.2 (List.mem_of_getLast? hlast)
      · rw [List.getLast?_append_of_ne_nil _ hempty] at hlast
        exact hslash (by simp) hlast
  rw [MessageCatalog.significantText, hbefore]
  exact Text.trim_append (fun c hc => (hlead c hc).1) hstart hend fun c hc => (htrail c hc).1

/-- A line that holds a text of one line is one line. -/
theorem HoldsText.newline_not_mem {text line : List Char} (h : HoldsText text line) (htext : '\n' ∉ text) : '\n' ∉ line := by
  obtain ⟨lead, trail, comment, hlead, htrail, hc, -, rfl⟩ := h
  have hcomment : '\n' ∉ comment := by
    rcases hc with rfl | ⟨remark, rfl, hremark⟩
    · simp
    · simpa using hremark
  simp [hlead.not_mem.1, htext, htrail.not_mem.1, hcomment]

/-- The lines that were placed on a source are its significant lines. -/
theorem Places.significantFrom_eq {number : Nat} {lines : List (List Char)} {placed : List SourceLine}
    (h : Places number lines placed) (htexts : ∀ l ∈ placed, IsLineText l.text.toList) :
    significantFrom number lines = placed ∧ ∀ line ∈ lines, '\n' ∉ line := by
  induction h with
  | nil => exact ⟨rfl, by simp⟩
  | @skip number line lines placed hline _ ih =>
    obtain ⟨ihlines, ihnewline⟩ := ih htexts
    have htext : MessageCatalog.significantText line = [] :=
      hline.significantText hasNoComment_nil (by simp) (by simp [EndsVisibly])
    refine ⟨?_, List.forall_mem_cons.mpr ⟨hline.newline_not_mem (by simp), ihnewline⟩⟩
    rw [significantFrom]
    simp only [htext, List.isEmpty_nil, if_true, ihlines]
  | @place number text line lines placed hline _ ih =>
    obtain ⟨hthis, hothers⟩ := List.forall_mem_cons.mp htexts
    obtain ⟨ihlines, ihnewline⟩ := ih hothers
    have htext := hline.significantText hthis.noComment hthis.startsVisibly hthis.endsVisibly
    refine ⟨?_, List.forall_mem_cons.mpr ⟨hline.newline_not_mem hthis.oneLine, ihnewline⟩⟩
    rw [significantFrom]
    simp only [htext, List.isEmpty_iff, hthis.nonempty, if_false, ihlines, String.ofList_toList]

/-! ## Kinds of lines -/

/-- A line opens a pair if it is an opening brace. -/
theorem isOpening_iff {l : SourceLine} : l.isOpening = true ↔ l.text = "\x7b" := by
  simp [SourceLine.isOpening]

/-- A line closes a pair if it is a closing brace. -/
theorem isClosing_iff {l : SourceLine} : l.isClosing = true ↔ l.text = "\x7d" := by
  simp [SourceLine.isClosing]

/-- A line is no brace if it is neither of the two. -/
theorem isBrace_eq_false_iff {l : SourceLine} : l.isBrace = false ↔ l.text.toList ≠ ['{'] ∧ l.text.toList ≠ ['}'] := by
  have htext : ∀ text : String, l.text = text ↔ l.text.toList = text.toList := fun text => String.toList_inj.symm
  simp only [SourceLine.isBrace, SourceLine.isOpening, SourceLine.isClosing, Bool.or_eq_false_iff, beq_eq_false_iff_ne,
    ne_eq, htext]
  rfl

/-- An opening brace is a brace. -/
theorem isBrace_of_opening {l : SourceLine} (h : l.text = "\x7b") : l.isBrace = true := by
  rw [SourceLine.isBrace, isOpening_iff.mpr h, Bool.true_or]

/-- A closing brace is a brace. -/
theorem isBrace_of_closing {l : SourceLine} (h : l.text = "\x7d") : l.isBrace = true := by
  rw [SourceLine.isBrace, isClosing_iff.mpr h, Bool.or_true]

/-- A header starts with a name, so it is no brace and no field. -/
theorem isHeader_of_name {l : SourceLine} {name : String} {rest : List Char} (hname : IsName name)
    (h : l.text.toList = name.toList ++ rest) : l.isBrace = false ∧ l.startsWithBrace = false := by
  obtain ⟨c, tail, hlist, hc, -⟩ := hname
  rw [hlist, List.cons_append] at h
  have hbrace : c ≠ '{' ∧ c ≠ '}' := by
    constructor <;> rintro rfl <;> exact absurd hc (by decide)
  rw [isBrace_eq_false_iff, SourceLine.startsWithBrace, h]
  simp [hbrace]

/-- A line that writes a message header is no brace. -/
theorem WritesMessage.isBrace_eq_false {l : SourceLine} {m : Message} (hm : m.Valid) (h : WritesMessage m l.text.toList) :
    l.isBrace = false := by
  obtain ⟨frequency, id, rest, -, -, -, htext⟩ := h
  exact (isHeader_of_name hm.name htext).1

/-- A field starts with a brace but is more than that. -/
theorem isField_of_writes {l : SourceLine} {f : Field} (hf : f.Valid) (h : WritesField f l.text.toList) :
    l.isBrace = false ∧ l.startsWithBrace = true := by
  obtain ⟨count, numeral, lead, rest, trail, -, -, -, -, -, htext⟩ := h
  rw [isBrace_eq_false_iff, SourceLine.startsWithBrace, htext]
  simp [hf.name.ne_nil]

/-! ## Braces in pairs -/

section Steps

variable {l : SourceLine} {rest collected : List SourceLine} {openLine depth : Nat}

/-- An opening brace inside of a region goes one level down. -/
theorem segmentFrom_opening (h : l.text = "\x7b") : segmentFrom (.within openLine collected depth) (l :: rest) =
    segmentFrom (.within openLine (l :: collected) (depth + 1)) rest := by
  rw [segmentFrom.eq_def]
  exact if_pos (isOpening_iff.mpr h)

/-- A closing brace opens nothing. -/
theorem isOpening_eq_false_of_closing (h : l.text = "\x7d") : ¬l.isOpening = true := by
  rw [isOpening_iff, h]
  decide

/-- A closing brace inside of a pair goes one level up. -/
theorem segmentFrom_closing (h : l.text = "\x7d") : segmentFrom (.within openLine collected (depth + 1)) (l :: rest) =
    segmentFrom (.within openLine (l :: collected) depth) rest := by
  rw [segmentFrom, if_neg (isOpening_eq_false_of_closing h), if_pos (isClosing_iff.mpr h)]

/-- A line that is no brace is collected. -/
theorem segmentFrom_content (h : l.isBrace = false) : segmentFrom (.within openLine collected depth) (l :: rest) =
    segmentFrom (.within openLine (l :: collected) depth) rest := by
  obtain ⟨hopening, hclosing⟩ := Bool.or_eq_false_iff.mp h
  rw [segmentFrom.eq_def]
  simp only [hopening, hclosing, Bool.false_eq_true, if_false]

end Steps

/-- Lines whose braces are in pairs: inside a region they are collected as they stand. -/
def Balanced (lines : List SourceLine) : Prop :=
  ∀ openLine collected depth rest, segmentFrom (.within openLine collected depth) (lines ++ rest) =
    segmentFrom (.within openLine (lines.reverse ++ collected) depth) rest

theorem balanced_nil : Balanced [] :=
  fun _ _ _ _ => rfl

/-- Two balanced stretches of lines are balanced together. -/
theorem Balanced.append {lines lines' : List SourceLine} (h : Balanced lines) (h' : Balanced lines') :
    Balanced (lines ++ lines') := by
  intro openLine collected depth rest
  rw [List.append_assoc, h, h', List.reverse_append, List.append_assoc]

/-- A line that is no brace leaves lines balanced. -/
theorem Balanced.cons {l : SourceLine} {lines : List SourceLine} (hl : l.isBrace = false) (h : Balanced lines) :
    Balanced (l :: lines) := by
  intro openLine collected depth rest
  rw [List.cons_append, segmentFrom_content hl, h, List.reverse_cons, List.append_assoc, List.singleton_append]

/-- A pair of braces around lines in balance. -/
theorem Balanced.braced {opening closing : SourceLine} {lines : List SourceLine} (ho : opening.text = "\x7b")
    (hc : closing.text = "\x7d") (h : Balanced lines) : Balanced (opening :: lines ++ [closing]) := by
  intro openLine collected depth rest
  rw [List.append_assoc, List.cons_append, segmentFrom_opening ho, h, List.singleton_append, segmentFrom_closing hc]
  simp

/-- Lines without braces are balanced. -/
theorem balanced_content {lines : List SourceLine} (h : ∀ l ∈ lines, l.isBrace = false) : Balanced lines := by
  induction lines with
  | nil => exact balanced_nil
  | cons l lines ih =>
    obtain ⟨hl, hlines⟩ := List.forall_mem_cons.mp h
    exact (ih hlines).cons hl

/-- Lines in balance between the braces of a region are the lines of the region. -/
theorem segmentFrom_region {opening closing : SourceLine} {lines : List SourceLine} (ho : opening.text = "\x7b")
    (hc : closing.text = "\x7d") (h : Balanced lines) (rest : List SourceLine) :
    segmentFrom .between (opening :: lines ++ [closing] ++ rest) =
      (segmentFrom .between rest).map (⟨opening.number, lines⟩ :: ·) := by
  rw [List.append_assoc, List.cons_append, segmentFrom, if_pos (isOpening_iff.mpr ho), h, List.singleton_append, segmentFrom,
    if_neg (isOpening_eq_false_of_closing hc), if_pos (isClosing_iff.mpr hc)]
  simp

/-! ## Blocks and their fields -/

/-- The lines of a group write a block: the first its header, the others its fields. -/
def WritesGroup (b : Block) (group : SourceLine × List SourceLine) : Prop :=
  WritesBlockHeader b group.1.text.toList ∧ List.Forall₂ (fun f l => WritesField f l.text.toList) b.fields group.2

/-- Fields stand in front of the block they belong to until its header is found. -/
theorem groupBlocks_fields {fields : List SourceLine} (h : ∀ l ∈ fields, l.isBrace = false ∧ l.startsWithBrace = true)
    (rest : List SourceLine) :
    groupBlocks (fields ++ rest) = ⟨fields ++ (groupBlocks rest).orphans, (groupBlocks rest).groups⟩ := by
  induction fields with
  | nil => rfl
  | cons l fields ih =>
    obtain ⟨⟨hbrace, hfield⟩, hfields⟩ := List.forall_mem_cons.mp h
    rw [List.cons_append, groupBlocks, if_neg (by simp [hbrace]), if_pos hfield, ih hfields]
    rfl

/-- What the lines of a block are: braces around a header and fields. -/
theorem WritesBlock.kinds {message : String} {b : Block} {header : SourceLine} {fields : List SourceLine} (hb : b.Valid message)
    (hheader : WritesBlockHeader b header.text.toList)
    (hfields : List.Forall₂ (fun f l => WritesField f l.text.toList) b.fields fields) :
    (header.isBrace = false ∧ header.startsWithBrace = false) ∧ ∀ l ∈ fields, l.isBrace = false ∧ l.startsWithBrace = true := by
  obtain ⟨quantity, count, rest, -, -, -, htext⟩ := hheader
  exact ⟨isHeader_of_name hb.name htext, forall_mem_of_forall₂ hfields fun f hf l hl => isField_of_writes (hb.fields f hf) hl⟩

/-- The lines of blocks are balanced. -/
theorem balanced_blocks {message : String} {blocks : List Block} {lines : List (List SourceLine)}
    (hvalid : ∀ b ∈ blocks, b.Valid message) (h : List.Forall₂ WritesBlock blocks lines) : Balanced lines.flatten := by
  induction h with
  | nil => exact balanced_nil
  | @cons b block blocks lines hblock _ ih =>
    obtain ⟨hb, hothers⟩ := List.forall_mem_cons.mp hvalid
    obtain ⟨hopening, hheader, hfields, hclosing⟩ := hblock
    obtain ⟨⟨hbrace, -⟩, hkinds⟩ := WritesBlock.kinds hb hheader hfields
    have hcontent := (balanced_content fun l hl => (hkinds l hl).1).cons hbrace
    exact (hcontent.braced hopening hclosing).append (ih hothers)

/-- The lines of blocks are grouped by block, and the groups hold all lines but the braces. -/
theorem groupBlocks_blocks {message : String} {blocks : List Block} {lines : List (List SourceLine)}
    (hvalid : ∀ b ∈ blocks, b.Valid message) (h : List.Forall₂ WritesBlock blocks lines) :
    (groupBlocks lines.flatten).orphans = [] ∧ List.Forall₂ WritesGroup blocks (groupBlocks lines.flatten).groups ∧
      (groupBlocks lines.flatten).groups.flatMap (fun group => group.1 :: group.2) =
        lines.flatten.filter fun l => !l.isBrace := by
  induction h with
  | nil => exact ⟨rfl, .nil, rfl⟩
  | @cons b block blocks lines hblock _ ih =>
    obtain ⟨hb, hothers⟩ := List.forall_mem_cons.mp hvalid
    obtain ⟨horphans, hgroups, hlines⟩ := ih hothers
    obtain @⟨opening, header, closing, fields, hopening, hheader, hfields, hclosing⟩ := hblock
    obtain ⟨⟨hbrace, hstart⟩, hkinds⟩ := WritesBlock.kinds hb hheader hfields
    have ho := isBrace_of_opening hopening
    have hc := isBrace_of_closing hclosing
    -- the orphans of what follows are none, so the fields in front of the header are its own
    have hrest : groupBlocks (closing :: lines.flatten) = groupBlocks lines.flatten := by rw [groupBlocks, if_pos hc]
    have hgrouped : groupBlocks ((opening :: header :: fields ++ [closing]) :: lines).flatten =
        ⟨[], (header, fields) :: (groupBlocks lines.flatten).groups⟩ := by
      rw [List.flatten_cons, List.append_assoc, List.singleton_append, List.cons_append, List.cons_append, groupBlocks, if_pos ho,
        groupBlocks, if_neg (by simp [hbrace]), if_neg (by simp [hstart]), groupBlocks_fields hkinds, hrest, horphans,
        List.append_nil]
    have hfilter : fields.filter (fun l => !l.isBrace) = fields := List.filter_eq_self.mpr fun l hl => by simp [(hkinds l hl).1]
    rw [hgrouped]
    refine ⟨rfl, .cons ⟨hheader, hfields⟩ hgroups, ?_⟩
    simp [hlines, ho, hc, hbrace, hfilter]

/-! ## Reading blocks and messages -/

/-- Reading a list whose elements are read up to their lines. -/
theorem mapM_up_to_lines {ε α β κ : Type} {read : β → Except ε α} {key : α → κ} {linesOf : α → List Nat} {placesOf : β → List Nat}
    {as : List α} {bs : List β}
    (h : List.Forall₂ (fun a b => ∃ a', read b = .ok a' ∧ key a' = key a ∧ linesOf a' = placesOf b) as bs) :
    ∃ as', bs.mapM read = .ok as' ∧ as'.map key = as.map key ∧ as'.flatMap linesOf = bs.flatMap placesOf := by
  induction h with
  | nil => exact ⟨[], rfl, rfl, rfl⟩
  | @cons a b as bs hab _ ih =>
    obtain ⟨a', hread, hkey, hlines⟩ := hab
    obtain ⟨as', hreads, hkeys, hrest⟩ := ih
    refine ⟨a' :: as', mapM_eq_ok_iff.mpr (.cons hread (mapM_eq_ok_iff.mp hreads)), ?_, ?_⟩
    · rw [List.map_cons, List.map_cons, hkey, hkeys]
    · rw [List.flatMap_cons, List.flatMap_cons, hlines, hrest]

/-- The group of lines that writes a block is read as the block, with the lines of the group. -/
theorem readBlock_of_writes {message : String} {b : Block} {group : SourceLine × List SourceLine} (hb : b.Valid message)
    (h : WritesGroup b group) : ∃ b', readBlock message group = .ok b' ∧ b'.unnumbered = b.unnumbered ∧
      b'.declarationLines = (group.1 :: group.2).map (·.number) := by
  obtain ⟨hheader, hfields⟩ := h
  have hboth := (List.forall₂_and_left b.fields group.2).mpr ⟨hb.fields, hfields⟩
  have hread : List.Forall₂
      (fun f l => ∃ f', SourceLine.toField l = .ok f' ∧ f'.unnumbered = f.unnumbered ∧ [f'.line] = [l.number])
      b.fields group.2 :=
    hboth.imp fun f l hf => ⟨_, SourceLine.toField_of_writes hf.1 hf.2, rfl, rfl⟩
  obtain ⟨fields, hfieldsRead, hkeys, hlines⟩ := mapM_up_to_lines hread
  refine ⟨{ b with fields, line := group.1.number }, ?_, ?_, ?_⟩
  · exact except_bind_eq_ok_iff.mpr ⟨_, SourceLine.toBlock_of_writes hb hheader,
      except_bind_eq_ok_iff.mpr ⟨fields, hfieldsRead, rfl⟩⟩
  · simp only [Block.unnumbered, hkeys]
  · rw [← List.map_eq_flatMap, ← List.map_eq_flatMap] at hlines
    rw [List.map_cons, ← hlines]
    rfl

/-- The region that writes a message is read as the message, with its lines. -/
theorem Region.toMessage_of_writes {m : Message} {header : SourceLine} {blocks : List (List SourceLine)} (hm : m.Valid)
    (hheader : WritesMessage m header.text.toList) (hblocks : List.Forall₂ WritesBlock m.blocks blocks) (openLine : Nat) :
    ∃ m', Region.toMessage ⟨openLine, header :: blocks.flatten⟩ = .ok m' ∧ m'.unnumbered = m.unnumbered ∧
      m'.declarationLines = ((header :: blocks.flatten).filter fun l => !l.isBrace).map (·.number) := by
  obtain ⟨horphans, hgroups, hlines⟩ := groupBlocks_blocks hm.blocks hblocks
  have hbrace := hheader.isBrace_eq_false hm
  have hboth := (List.forall₂_and_left m.blocks _).mpr ⟨hm.blocks, hgroups⟩
  have hblock : List.Forall₂ (fun b group => ∃ b', readBlock m.name group = .ok b' ∧ b'.unnumbered = b.unnumbered ∧
      b'.declarationLines = (group.1 :: group.2).map (·.number)) m.blocks (groupBlocks blocks.flatten).groups :=
    hboth.imp fun b group hb => readBlock_of_writes hb.1 hb.2
  obtain ⟨blocks', hread, hkeys, hplaces⟩ := mapM_up_to_lines hblock
  refine ⟨{ m with blocks := blocks', line := header.number }, ?_, ?_, ?_⟩
  · refine except_bind_eq_ok_iff.mpr ⟨_, SourceLine.toMessage_of_writes hm hheader, ?_⟩
    simp only [horphans]
    exact except_bind_eq_ok_iff.mpr ⟨blocks', hread, rfl⟩
  · simp only [Message.unnumbered, hkeys]
  · rw [← List.map_flatMap, hlines] at hplaces
    simp only [Message.declarationLines, hplaces, List.filter_cons, hbrace, Bool.not_false, if_true, List.map_cons]

/-- The regions of messages that are written one behind the other. -/
theorem segment_of_writes {messages : List Message} {regions : List (List SourceLine)} (hvalid : ∀ m ∈ messages, m.Valid)
    (h : List.Forall₂ WritesRegion messages regions) :
    ∃ cut, segmentFrom .between regions.flatten = .ok cut ∧
      List.Forall₂ (fun m region => ∃ m', region.toMessage = .ok m' ∧ m'.unnumbered = m.unnumbered ∧
        m'.declarationLines = (region.lines.filter fun l => !l.isBrace).map (·.number)) messages cut ∧
      cut.flatMap (fun region => region.lines.filter fun l => !l.isBrace) = regions.flatten.filter fun l => !l.isBrace := by
  induction h with
  | nil => exact ⟨[], rfl, .nil, rfl⟩
  | @cons m region messages regions hregion _ ih =>
    obtain ⟨hm, hothers⟩ := List.forall_mem_cons.mp hvalid
    obtain ⟨cut, hcut, hmessages, hlines⟩ := ih hothers
    obtain @⟨opening, header, closing, blocks, hopening, hheader, hblocks, hclosing⟩ := hregion
    have hbrace := hheader.isBrace_eq_false hm
    have hbalanced := (balanced_blocks hm.blocks hblocks).cons hbrace
    refine ⟨⟨opening.number, header :: blocks.flatten⟩ :: cut, ?_,
      .cons (Region.toMessage_of_writes hm hheader hblocks _) hmessages, ?_⟩
    · rw [List.flatten_cons, segmentFrom_region hopening hclosing hbalanced, hcut]
      rfl
    · simp [hlines, isBrace_of_opening hopening, isBrace_of_closing hclosing, hbrace]

/-- The regions that write messages are read as the messages, with their lines. -/
theorem readMessages_of_writes {messages : List Message} {regions : List (List SourceLine)} (hvalid : ∀ m ∈ messages, m.Valid)
    (h : List.Forall₂ WritesRegion messages regions) :
    ∃ messages', readMessages regions.flatten = .ok messages' ∧
      messages'.map Message.unnumbered = messages.map Message.unnumbered ∧
      messages'.flatMap Message.declarationLines = (regions.flatten.filter fun l => !l.isBrace).map (·.number) := by
  obtain ⟨cut, hcut, hmessages, hlines⟩ := segment_of_writes hvalid h
  obtain ⟨messages', hread, hkeys, hplaces⟩ := mapM_up_to_lines hmessages
  refine ⟨messages', except_bind_eq_ok_iff.mpr ⟨cut, hcut, hread⟩, hkeys, ?_⟩
  rw [hplaces, ← List.map_flatMap, hlines]

/-! ## Templates -/

/-- The lines of a template have no part in what is declared twice. -/
theorem distinct_unnumbered_iff {t : Template} : t.unnumbered.Distinct ↔ t.Distinct := by
  have hnames : t.unnumbered.messages.map (·.name) = t.messages.map (·.name) := List.map_map
  have hnumbers : t.unnumbered.messages.map (·.number) = t.messages.map (·.number) := List.map_map
  have hblocks : ∀ m : Message, m.unnumbered.blocks.map (fun b => Naming.fieldName b.name) =
      m.blocks.map fun b => Naming.fieldName b.name := fun m => List.map_map
  have hfields : ∀ b : Block, b.unnumbered.fields.map (fun f => Naming.fieldName f.name) =
      b.fields.map fun f => Naming.fieldName f.name := fun b => List.map_map
  constructor
  · rintro ⟨h1, h2, h3, h4⟩
    refine ⟨hnames ▸ h1, hnumbers ▸ h2, fun m hm => ?_, fun m hm b hb => ?_⟩
    · exact hblocks m ▸ h3 m.unnumbered (List.mem_map_of_mem hm)
    · exact hfields b ▸ h4 m.unnumbered (List.mem_map_of_mem hm) b.unnumbered (List.mem_map_of_mem hb)
  · rintro ⟨h1, h2, h3, h4⟩
    refine ⟨hnames ▸ h1, hnumbers ▸ h2, ?_, ?_⟩
    · intro m' hm'
      obtain ⟨m, hm, rfl⟩ := List.mem_map.mp hm'
      exact hblocks m ▸ h3 m hm
    · intro m' hm' b' hb'
      obtain ⟨m, hm, rfl⟩ := List.mem_map.mp hm'
      obtain ⟨b, hb, rfl⟩ := List.mem_map.mp hb'
      exact hfields b ▸ h4 m hm b hb

/-! The texts that write a template are those of significant lines. -/

/-- A brace is the text of a line. -/
theorem isLineText_brace {text : String} (h : text = "\x7b" ∨ text = "\x7d") : IsLineText text.toList := by
  rcases h with rfl | rfl
  all_goals
    exact ⟨by decide, by decide, hasNoComment_of_not_mem (by decide), by simp [Text.isBlank], by simp [EndsVisibly, Text.isBlank]⟩

/-- All lines that write a block are texts of lines. -/
theorem WritesBlock.isLineText {message : String} {b : Block} {lines : List SourceLine} (hb : b.Valid message)
    (h : WritesBlock b lines) : ∀ l ∈ lines, IsLineText l.text.toList := by
  obtain @⟨opening, header, closing, fields, hopening, hheader, hfields, hclosing⟩ := h
  have htexts : ∀ l ∈ fields, IsLineText l.text.toList :=
    forall_mem_of_forall₂ hfields fun f hf l hl => hl.isLineText (hb.fields f hf)
  rw [List.cons_append, List.cons_append, List.forall_mem_cons, List.forall_mem_cons, List.forall_mem_append,
    List.forall_mem_singleton]
  exact ⟨isLineText_brace (.inl hopening), hheader.isLineText hb, htexts, isLineText_brace (.inr hclosing)⟩

/-- All lines that write a message are texts of lines. -/
theorem WritesRegion.isLineText {m : Message} {lines : List SourceLine} (hm : m.Valid) (h : WritesRegion m lines) :
    ∀ l ∈ lines, IsLineText l.text.toList := by
  obtain @⟨opening, header, closing, blocks, hopening, hheader, hblocks, hclosing⟩ := h
  have htexts : ∀ lines ∈ blocks, ∀ l ∈ lines, IsLineText l.text.toList :=
    forall_mem_of_forall₂ hblocks fun b hb lines hlines => hlines.isLineText (hm.blocks b hb)
  rw [List.cons_append, List.cons_append, List.forall_mem_cons, List.forall_mem_cons, List.forall_mem_append,
    List.forall_mem_singleton, List.forall_mem_flatten]
  exact ⟨isLineText_brace (.inl hopening), hheader.isLineText hm, htexts, isLineText_brace (.inr hclosing)⟩

/-- All lines that write a template are texts of lines. -/
theorem WritesTemplate.isLineText {t : Template} {placed : List SourceLine} (ht : t.Valid) (h : WritesTemplate t placed) :
    ∀ l ∈ placed, IsLineText l.text.toList := by
  obtain @⟨version, regions, hversion, hregions⟩ := h
  have htexts : ∀ lines ∈ regions, ∀ l ∈ lines, IsLineText l.text.toList :=
    forall_mem_of_forall₂ hregions fun m hm lines hlines => hlines.isLineText (ht.messages m hm)
  rw [List.forall_mem_cons, List.forall_mem_flatten]
  exact ⟨hversion.isLineText ht.version, htexts⟩

/-- A valid template is read from every source that it is written on, with the lines that it stands on there. -/
theorem parse_of_writes {t : Template} (ht : t.Valid) {placed : List SourceLine} (hplaced : WritesTemplate t placed)
    {lines : List (List Char)} (hlines : Places 1 lines placed) :
    ∃ t', parse (String.ofList (['\n'].intercalate lines)) = .ok t' ∧ t'.unnumbered = t.unnumbered ∧
      t'.declarationLines = (declaringLines placed).map (·.number) := by
  obtain ⟨hsignificant, hnewlines⟩ := hlines.significantFrom_eq (hplaced.isLineText ht)
  obtain @⟨version, regions, hversion, hregions⟩ := hplaced
  obtain ⟨messages, hmessages, hkeys, hdeclared⟩ := readMessages_of_writes ht.messages hregions
  have hsame : (⟨t.version, messages⟩ : Template).unnumbered = t.unnumbered := by simp only [Template.unnumbered, hkeys]
  refine ⟨⟨t.version, messages⟩, ?_, hsame, hdeclared⟩
  refine parse_eq_ok_iff.mpr ⟨version, regions.flatten, ?_, hmessages, ?_, ?_⟩
  · rw [significantLines_ofList_intercalate hnewlines, hsignificant]
  · exact (versionTag_of_writes ht.version hversion).symm
  · rw [← distinct_unnumbered_iff, hsame, distinct_unnumbered_iff]
    exact ht.distinct

/-- A template without lines. -/
def smallTemplate : Template :=
  ⟨"2.0", [⟨"Ping", .high, 10, "A/", "B", none, [⟨"Body", .multiple 2, [⟨"Id", .varying .two, 0⟩], "Ping", 0⟩], 0⟩]⟩

/-- Lines that write the template, with the spellings and comments that a source may have. -/
def smallLines : List (List Char) :=
  ["// catalog", "VERSION  2.0", "\x7b // open", "\tPing hIgH 0x0A A/ B// first", "", "\x7b", " Body Multiple 002",
    "\x7bId\tVariable 2 \x7d", "\x7d", "\x7d"].map String.toList

/-- The lines with what the source declares. -/
def smallPlaced : List SourceLine :=
  [⟨2, "VERSION  2.0"⟩, ⟨3, "\x7b"⟩, ⟨4, "Ping hIgH 0x0A A/ B"⟩, ⟨6, "\x7b"⟩, ⟨7, "Body Multiple 002"⟩,
    ⟨8, "\x7bId\tVariable 2 \x7d"⟩, ⟨9, "\x7d"⟩, ⟨10, "\x7d"⟩]

/-- The lines of the small source have their places. -/
theorem places_smallLines : Places 1 smallLines smallPlaced := by
  have hblank : IsBlankRun [] := by simp [IsBlankRun]
  have hspace : IsBlankRun [' '] := by simp [IsBlankRun, Text.isBlank]
  have htab : IsBlankRun ['\t'] := by simp [IsBlankRun, Text.isBlank]
  refine .skip ⟨[], [], "// catalog".toList, hblank, hblank, .inr ⟨" catalog".toList, rfl, by decide⟩, by decide, rfl⟩ ?_
  refine .place ⟨[], [], [], hblank, hblank, .inl rfl, by simp, by decide +kernel⟩ ?_
  refine .place ⟨[], [' '], "// open".toList, hblank, hspace, .inr ⟨" open".toList, rfl, by decide⟩, by decide, by decide⟩ ?_
  refine .place ⟨['\t'], [], "// first".toList, htab, hblank, .inr ⟨" first".toList, rfl, by decide⟩, by decide, by decide⟩ ?_
  refine .skip ⟨[], [], [], hblank, hblank, .inl rfl, by simp, by decide⟩ ?_
  refine .place ⟨[], [], [], hblank, hblank, .inl rfl, by simp, by decide⟩ ?_
  refine .place ⟨[' '], [], [], hspace, hblank, .inl rfl, by simp, by decide⟩ ?_
  refine .place ⟨[], [], [], hblank, hblank, .inl rfl, by simp, by decide⟩ ?_
  refine .place ⟨[], [], [], hblank, hblank, .inl rfl, by simp, by decide⟩ ?_
  refine .place ⟨[], [], [], hblank, hblank, .inl rfl, by simp, by decide⟩ ?_
  exact .nil

/-- The lines of the small source write its template. -/
theorem writes_smallTemplate : WritesTemplate smallTemplate smallPlaced := by
  have hgap : IsGap [' '] := by simp [IsGap, IsRun]
  have htab : IsGap ['\t'] := by simp [IsGap, IsRun]
  have hversion : WritesVersion "2.0" "VERSION  2.0".toList :=
    ⟨"VERSION".toList, [' ', ' '], by unfold SpellsWord; decide, by simp [IsGap, IsRun], by decide⟩
  have hmessage : WritesMessage ⟨"Ping", .high, 10, "A/", "B", none,
    [⟨"Body", .multiple 2, [⟨"Id", .varying .two, 0⟩], "Ping", 0⟩], 0⟩
      "Ping hIgH 0x0A A/ B".toList :=
    ⟨"hIgH".toList, "0x0A".toList, _, by unfold SpellsWord; decide, ⟨1, .inr ⟨'x', ['0', 'A'], by decide, .inl rfl, by decide⟩⟩,
      .cons hgap (.cons hgap (.cons hgap (.cons hgap .nil))), by decide⟩
  have hblock : WritesBlockHeader ⟨"Body", .multiple 2, [⟨"Id", .varying .two, 0⟩], "Ping", 0⟩ "Body Multiple 002".toList :=
    ⟨"Multiple".toList, ["002".toList], _, by unfold SpellsWord; decide, .some ⟨2, .inl (by decide)⟩,
      .cons hgap (.cons hgap .nil), by decide⟩
  have hfield : WritesField ⟨"Id", .varying .two, 0⟩ "\x7bId\tVariable 2 \x7d".toList :=
    ⟨some 2, ["2".toList], [], _, [' '], ⟨by simp, rfl⟩, .some ⟨0, .inl (by decide)⟩, by simp [IsRun], hgap.2,
      .cons htab (.cons hgap .nil), by decide⟩
  exact @WritesTemplate.intro smallTemplate ⟨2, "VERSION  2.0"⟩ [smallPlaced.tail] hversion
    (.cons (@WritesRegion.intro _ ⟨3, "\x7b"⟩ ⟨4, _⟩ ⟨10, "\x7d"⟩ [(smallPlaced.drop 3).take 4] rfl hmessage
      (.cons (@WritesBlock.intro _ ⟨6, "\x7b"⟩ ⟨7, _⟩ ⟨9, "\x7d"⟩ [⟨8, _⟩] rfl hblock (.cons hfield .nil) rfl) .nil) rfl) .nil)

/-- The small template is valid. -/
theorem valid_smallTemplate : smallTemplate.Valid where
  version := ⟨by decide, by decide, hasNoComment_of_not_mem (by decide), by simp [smallTemplate],
    by simp [smallTemplate, EndsVisibly, Text.isBlank]⟩
  messages := by
    have hfield : (⟨"Id", .varying .two, 0⟩ : Field).Valid := ⟨isName_of_all (by decide) (by decide), by simp⟩
    have hblock : (⟨"Body", .multiple 2, [⟨"Id", .varying .two, 0⟩], "Ping", 0⟩ : Block).Valid "Ping" :=
      ⟨isName_of_all (by decide) (by decide), rfl, by simp, by simpa using hfield⟩
    rw [smallTemplate, List.forall_mem_singleton]
    exact ⟨isName_of_all (by decide) (by decide), by decide +kernel, by decide,
      ⟨by decide, by simp, by unfold HasNoComment; decide⟩, ⟨by decide, by simp, hasNoComment_of_not_mem (by decide)⟩, by simp,
      by simp [Message.lastWord, EndsVisibly, Text.isBlank], by simpa using hblock⟩
  distinct := checkUnique_eq_ok_iff.mp (by decide +kernel)

/-- The small source is read as its template, with the lines that declare something. -/
theorem parse_of_writes_small : smallTemplate.Valid ∧ WritesTemplate smallTemplate smallPlaced ∧ Places 1 smallLines smallPlaced ∧
    ∃ t', parse (String.ofList (['\n'].intercalate smallLines)) = .ok t' ∧ t'.unnumbered = smallTemplate.unnumbered ∧
      t'.declarationLines = [4, 7, 8] :=
  ⟨valid_smallTemplate, writes_smallTemplate, places_smallLines,
    parse_of_writes valid_smallTemplate writes_smallTemplate places_smallLines⟩

end MessageCatalog
