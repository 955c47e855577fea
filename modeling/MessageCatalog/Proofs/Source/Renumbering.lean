import MessageCatalog.Proofs.Source.Relayout

/-!
# Lines by other numbers

The numbers of lines are carried along and never looked at: if the lines of a template are given other numbers, the same
is read, at the new numbers, and the same error is reported, at the new number. `renumbered` says this of one step, and
each function that reads lines is such a step. Sources whose significant lines have the same texts are one source by two
numberings.
-/

namespace MessageCatalog

/-! ## Numbers -/

section Renumber

variable (ρ : Nat → Nat)

/-- The line by another number. -/
def SourceLine.renumber (l : SourceLine) : SourceLine :=
  { l with number := ρ l.number }

/-- The region with other numbers of lines. -/
def Region.renumber (region : Region) : Region :=
  ⟨ρ region.openLine, region.lines.map (SourceLine.renumber ρ)⟩

/-- The place with other numbers of lines. -/
def RegionState.renumber : RegionState → RegionState
  | .between => .between
  | .within openLine collected depth => .within (ρ openLine) (collected.map (SourceLine.renumber ρ)) depth

/-- The groups with other numbers of lines. -/
def BlockGroups.renumber (grouped : BlockGroups) : BlockGroups :=
  ⟨grouped.orphans.map (SourceLine.renumber ρ),
    grouped.groups.map fun group => (group.1.renumber ρ, group.2.map (SourceLine.renumber ρ))⟩

/-- The field at another line. -/
def Field.renumber (f : Field) : Field :=
  { f with line := ρ f.line }

/-- The block at another line, and its fields. -/
def Block.renumber (b : Block) : Block :=
  { b with fields := b.fields.map (Field.renumber ρ), line := ρ b.line }

/-- The message at another line, and its blocks. -/
def Message.renumber (m : Message) : Message :=
  { m with blocks := m.blocks.map (Block.renumber ρ), line := ρ m.line }

/-- The template with its messages at other lines. -/
def Template.renumber (t : Template) : Template :=
  { t with messages := t.messages.map (Message.renumber ρ) }

/-- The error at another line, if it is one at a line. -/
def Error.renumber : Error → Error
  | .located line issue => .located (ρ line) issue
  | .duplicate clash => .duplicate clash
  | .config fault => .config fault
  | .file fault => .file fault

/-- A result by other numbers of lines: what was found is changed as given, and an error stands at another line. -/
def renumbered {α : Type} (change : α → α) : Except Error α → Except Error α
  | .ok a => .ok (change a)
  | .error e => .error (e.renumber ρ)

end Renumber

variable {ρ : Nat → Nat} {α β : Type}

/-- Steps that keep to other numbers do so one behind the other. -/
theorem renumbered_bind {change : α → α} {change' : β → β} {x y : Except Error α} {next next' : α → Except Error β}
    (hx : y = renumbered ρ change x) (hnext : ∀ a, next' (change a) = renumbered ρ change' (next a)) :
    y >>= next' = renumbered ρ change' (x >>= next) := by
  subst hx
  cases x with
  | ok a => exact hnext a
  | error e => rfl

/-- What is made of an outcome changes its numbers with the outcome. -/
theorem renumbered_map {change : α → α} {change' : β → β} {f f' : α → β} {x y : Except Error α} (hx : y = renumbered ρ change x)
    (hf : ∀ a, f' (change a) = change' (f a)) : y.map f' = renumbered ρ change' (x.map f) := by
  subst hx
  cases x with
  | ok a => exact congrArg Except.ok (hf a)
  | error e => rfl

/-- A step that keeps to other numbers does so on every element of a list. -/
theorem renumbered_mapM {γ : Type} {move : γ → γ} {change : α → α} {read : γ → Except Error α}
    (h : ∀ c, read (move c) = renumbered ρ change (read c)) (cs : List γ) :
    (cs.map move).mapM read = renumbered ρ (List.map change) (cs.mapM read) := by
  induction cs with
  | nil => rfl
  | cons c cs ih =>
    rw [List.map_cons, List.mapM_cons, List.mapM_cons]
    exact renumbered_bind (h c) fun a => renumbered_bind ih fun as => rfl

/-! ## Regions -/

@[simp] theorem SourceLine.text_renumber (l : SourceLine) : (l.renumber ρ).text = l.text :=
  rfl

@[simp] theorem SourceLine.isOpening_renumber (l : SourceLine) : (l.renumber ρ).isOpening = l.isOpening :=
  rfl

@[simp] theorem SourceLine.isClosing_renumber (l : SourceLine) : (l.renumber ρ).isClosing = l.isClosing :=
  rfl

@[simp] theorem SourceLine.isBrace_renumber (l : SourceLine) : (l.renumber ρ).isBrace = l.isBrace :=
  rfl

@[simp] theorem SourceLine.startsWithBrace_renumber (l : SourceLine) : (l.renumber ρ).startsWithBrace = l.startsWithBrace :=
  rfl

/-- Lines are cut into regions by their texts. -/
theorem segmentFrom_renumber (state : RegionState) (lines : List SourceLine) :
    segmentFrom (state.renumber ρ) (lines.map (SourceLine.renumber ρ)) =
      renumbered ρ (List.map (Region.renumber ρ)) (segmentFrom state lines) := by
  induction lines generalizing state with
  | nil => cases state <;> rfl
  | cons l rest ih =>
    rw [List.map_cons]
    cases state with
    | between =>
      rw [RegionState.renumber, segmentFrom, segmentFrom, SourceLine.isOpening_renumber, SourceLine.isClosing_renumber]
      cases l.isOpening with
      | true => exact ih (.within l.number [] 0)
      | false => cases l.isClosing <;> rfl
    | within openLine collected depth =>
      rw [RegionState.renumber, segmentFrom.eq_def, segmentFrom.eq_def (.within openLine collected depth)]
      dsimp only
      rw [SourceLine.isOpening_renumber, SourceLine.isClosing_renumber]
      cases l.isOpening with
      | true => exact ih (.within openLine (l :: collected) (depth + 1))
      | false =>
        cases l.isClosing with
        | false => exact ih (.within openLine (l :: collected) depth)
        | true =>
          cases depth with
          | succ depth => exact ih (.within openLine (l :: collected) depth)
          | zero =>
            have hregion : (⟨ρ openLine, (collected.map (SourceLine.renumber ρ)).reverse⟩ : Region) =
                Region.renumber ρ ⟨openLine, collected.reverse⟩ := by
              rw [Region.renumber, List.map_reverse]
            exact renumbered_map (ih .between) fun regions => congrArg (· :: regions.map (Region.renumber ρ)) hregion

/-! ## Headers and fields -/

/-- A line with another number is read alike, and a mismatch names that number. -/
theorem SourceLine.scan_renumber (l : SourceLine) (kind : LineKind) (scan : Scan α) :
    (l.renumber ρ).scan kind scan = renumbered ρ id (l.scan kind scan) := by
  unfold SourceLine.scan
  rw [text_renumber]
  cases scan.read l.text <;> rfl

/-- The parts of a message header at another line make the message of that line, or its error. -/
theorem MessageParts.toMessage_renumber (parts : MessageParts) (line : Nat) :
    parts.toMessage (ρ line) = renumbered ρ (Message.renumber ρ) (parts.toMessage line) := by
  unfold MessageParts.toMessage
  split
  · rfl
  · split
    · rfl
    · split
      · rfl
      · split
        · rfl
        · split <;> rfl

/-- A message header with another number is the same message at that line. -/
theorem SourceLine.toMessage_renumber (l : SourceLine) :
    (l.renumber ρ).toMessage = renumbered ρ (Message.renumber ρ) l.toMessage :=
  renumbered_bind (l.scan_renumber _ _) fun parts => parts.toMessage_renumber l.number

/-- A numeral at another line is the same number, or an error at that line. -/
theorem optionalNumber_renumber (numeral : Option String) (issue : String → Issue) (line : Nat) :
    optionalNumber numeral (fun text => .located (ρ line) (issue text)) =
      renumbered ρ id (optionalNumber numeral fun text => .located line (issue text)) := by
  unfold optionalNumber
  split
  · rfl
  · split <;> rfl

/-- The quantity of a block at another line is the same, or an error at that line. -/
theorem BlockParts.toQuantity_renumber (parts : BlockParts) (count : Option Nat) (line : Nat) :
    parts.toQuantity count (ρ line) = renumbered ρ id (parts.toQuantity count line) := by
  unfold BlockParts.toQuantity
  split
  · rfl
  · rfl
  · rfl
  · rfl
  · split
    · rfl
    · split <;> rfl
  · rfl

/-- A block header with another number is the same block at that line. -/
theorem SourceLine.toBlock_renumber (l : SourceLine) (message : String) :
    (l.renumber ρ).toBlock message = renumbered ρ (Block.renumber ρ) (l.toBlock message) := by
  refine renumbered_bind (l.scan_renumber _ _) fun parts => ?_
  refine renumbered_bind (optionalNumber_renumber _ _ l.number) fun count => ?_
  exact renumbered_bind (parts.toQuantity_renumber count l.number) fun quantity => rfl

/-- The size of a field at another line passes as before, or is an error at that line. -/
theorem checkFixedSize_renumber (field : String) (line : Nat) (type : FieldType) :
    checkFixedSize field (ρ line) type = renumbered ρ id (checkFixedSize field line type) := by
  unfold checkFixedSize
  split
  · split
    · rfl
    · split <;> rfl
  · rfl

/-- A field with another number is the same field at that line. -/
theorem SourceLine.toField_renumber (l : SourceLine) : (l.renumber ρ).toField = renumbered ρ (Field.renumber ρ) l.toField := by
  refine renumbered_bind (l.scan_renumber _ _) fun parts => ?_
  refine renumbered_bind (optionalNumber_renumber _ _ l.number) fun count => ?_
  dsimp only [id]
  split
  · rfl
  · exact renumbered_bind (checkFixedSize_renumber parts.name l.number _) fun _ => rfl

/-! ## Messages -/

/-- Lines with other numbers are grouped in the same way. -/
theorem groupBlocks_renumber (lines : List SourceLine) :
    groupBlocks (lines.map (SourceLine.renumber ρ)) = (groupBlocks lines).renumber ρ := by
  induction lines with
  | nil => rfl
  | cons l rest ih =>
    rw [List.map_cons, groupBlocks, groupBlocks, SourceLine.isBrace_renumber, SourceLine.startsWithBrace_renumber, ih]
    split
    · rfl
    · split <;> rfl

/-- A group of lines with other numbers is the same block at those lines. -/
theorem readBlock_renumber (message : String) (group : SourceLine × List SourceLine) :
    readBlock message (group.1.renumber ρ, group.2.map (SourceLine.renumber ρ)) =
      renumbered ρ (Block.renumber ρ) (readBlock message group) := by
  refine renumbered_bind (group.1.toBlock_renumber message) fun block => ?_
  exact renumbered_bind (renumbered_mapM SourceLine.toField_renumber group.2) fun fields => rfl

/-- A region with other numbers is the same message at those lines. -/
theorem Region.toMessage_renumber (region : Region) :
    (region.renumber ρ).toMessage = renumbered ρ (Message.renumber ρ) region.toMessage := by
  obtain ⟨openLine, lines⟩ := region
  cases lines with
  | nil => rfl
  | cons header body =>
    refine renumbered_bind header.toMessage_renumber fun message => ?_
    dsimp only
    rw [groupBlocks_renumber]
    cases horphans : (groupBlocks body).orphans with
    | cons orphan rest =>
      simp only [BlockGroups.renumber, horphans, List.map_cons]
      rfl
    | nil =>
      simp only [BlockGroups.renumber, horphans, List.map_nil]
      exact renumbered_bind (renumbered_mapM (readBlock_renumber message.name) _) fun blocks => rfl

/-- Messages are read from lines by other numbers at the other numbers. -/
theorem readMessages_renumber (lines : List SourceLine) :
    readMessages (lines.map (SourceLine.renumber ρ)) = renumbered ρ (List.map (Message.renumber ρ)) (readMessages lines) :=
  renumbered_bind (segmentFrom_renumber .between lines) fun regions => renumbered_mapM Region.toMessage_renumber regions

/-! ## Templates -/

/-- Fields at other lines are told apart in the same way. -/
theorem checkFields_renumber (message block : String) (seen : List String) (fields : List Field) :
    checkFields message block seen (fields.map (Field.renumber ρ)) = renumbered ρ id (checkFields message block seen fields) := by
  induction fields generalizing seen with
  | nil => rfl
  | cons f rest ih =>
    simp only [List.map_cons, checkFields, Field.renumber]
    split
    · rfl
    · exact ih _

/-- Blocks at other lines are told apart in the same way. -/
theorem checkBlocks_renumber (message : String) (seen : List String) (blocks : List Block) :
    checkBlocks message seen (blocks.map (Block.renumber ρ)) = renumbered ρ id (checkBlocks message seen blocks) := by
  induction blocks generalizing seen with
  | nil => rfl
  | cons b rest ih =>
    simp only [List.map_cons, checkBlocks, Block.renumber, checkFields_renumber]
    split
    · rfl
    · cases checkFields message b.name [] b.fields with
      | error e => rfl
      | ok u => exact ih _

/-- Messages at other lines are told apart in the same way. -/
theorem checkMessages_renumber (seen messages : List Message) :
    checkMessages (seen.map (Message.renumber ρ)) (messages.map (Message.renumber ρ)) =
      renumbered ρ id (checkMessages seen messages) := by
  induction messages generalizing seen with
  | nil => rfl
  | cons m rest ih =>
    have hname : (seen.map (Message.renumber ρ)).any (·.name == (m.renumber ρ).name) = seen.any (·.name == m.name) := List.any_map
    have hnumber : (seen.map (Message.renumber ρ)).find? (·.number == (m.renumber ρ).number) =
        (seen.find? (·.number == m.number)).map (Message.renumber ρ) := List.find?_map
    rw [List.map_cons, checkMessages, checkMessages, hname, hnumber]
    split
    · rfl
    · cases seen.find? (·.number == m.number) with
      | some earlier => rfl
      | none =>
        have hblocks : checkBlocks (m.renumber ρ).name [] (m.renumber ρ).blocks = _ := checkBlocks_renumber m.name [] m.blocks
        simp only [Option.map_none, hblocks]
        cases checkBlocks m.name [] m.blocks with
        | error e => rfl
        | ok u => exact ih (m :: seen)

/-- A template at other lines passes the check for things declared twice as before, or fails at those lines. -/
theorem Template.checkUnique_renumber (t : Template) : (t.renumber ρ).checkUnique = renumbered ρ id t.checkUnique :=
  checkMessages_renumber [] t.messages

/-- A source whose significant lines are those of another one by other numbers declares the same template at the other numbers. -/
theorem parse_renumber {source source' : String} (hne : significantLines source ≠ [])
    (h : significantLines source' = (significantLines source).map (SourceLine.renumber ρ)) :
    parse source' = renumbered ρ (Template.renumber ρ) (parse source) := by
  unfold parse normalize
  rw [h]
  cases hlines : significantLines source with
  | nil => exact absurd hlines hne
  | cons version lines =>
    change (readMessages (lines.map (SourceLine.renumber ρ)) >>= _) = renumbered ρ _ (readMessages lines >>= _)
    refine renumbered_bind (readMessages_renumber lines) fun messages => ?_
    exact renumbered_bind (Template.checkUnique_renumber ⟨_, messages⟩) fun _ => rfl

/-! ## Corresponding lines -/

/-- The numbers of the significant lines of a source in order. -/
def lineNumbers (source : String) : List Nat :=
  (significantLines source).map (·.number)

/-- The number in the second source of the significant line that has its place where the one of the number has it in the first. -/
def correspondingLine (source source' : String) (number : Nat) : Nat :=
  (lineNumbers source').getD ((lineNumbers source).idxOf number) 0

/-- No two lines that count have one number. -/
theorem lineNumbers_nodup (source : String) : (lineNumbers source).Nodup := by
  refine List.pairwise_map.mpr ((significantLines_pairwise source).imp fun {a b} h => ?_)
  exact Nat.ne_of_lt h

/-- Lines at the same place correspond. -/
theorem map_correspondingLine {source source' : String} (h : (lineNumbers source').length = (lineNumbers source).length) :
    (lineNumbers source).map (correspondingLine source source') = lineNumbers source' := by
  refine List.ext_getElem (by rw [List.length_map, h]) fun i hi hi' => ?_
  rw [List.length_map] at hi
  rw [List.getElem_map, correspondingLine, (lineNumbers_nodup source).idxOf_getElem i hi, List.getD_eq_getElem?_getD,
    List.getElem?_eq_getElem hi', Option.getD_some]

/-- Significant lines with the same texts are the same but for their numbers. -/
theorem significantLines_correspond {source source' : String} (h : significantTexts source' = significantTexts source) :
    significantLines source' = (significantLines source).map (SourceLine.renumber (correspondingLine source source')) := by
  have hlength : (significantLines source').length = (significantLines source).length := by
    simpa [significantTexts] using congrArg List.length h
  have hnumbers : (lineNumbers source).map (correspondingLine source source') = lineNumbers source' :=
    map_correspondingLine (by simpa [lineNumbers] using hlength)
  refine List.ext_getElem (by rw [List.length_map, hlength]) fun i hi hi' => ?_
  rw [List.length_map] at hi'
  have hnumber : (significantLines source')[i].number = correspondingLine source source' (significantLines source)[i].number := by
    have hplace := congrArg (fun numbers : List Nat => numbers[i]?) hnumbers
    simpa [lineNumbers, hi, hi'] using hplace.symm
  have htext : (significantLines source')[i].text = (significantLines source)[i].text := by
    have hplace := congrArg (fun texts : List String => texts[i]?) h
    simpa [significantTexts, hi, hi'] using hplace
  rw [List.getElem_map, SourceLine.renumber, ← hnumber, ← htext]

/-- A numbering that leaves the lines of a source and moves all others. -/
def movesOthers (source : String) (number : Nat) : Nat :=
  if number ∈ lineNumbers source then number else number + 1

/-- Numbers that no line has can be changed without a change of any line. -/
theorem significantLines_movesOthers (source : String) :
    significantLines source = (significantLines source).map (SourceLine.renumber (movesOthers source)) := by
  have hself : ∀ l ∈ significantLines source, l.renumber (movesOthers source) = l := by
    intro l hl
    have hmem : l.number ∈ lineNumbers source := List.mem_map_of_mem hl
    rw [SourceLine.renumber, movesOthers, if_pos hmem]
  exact ((List.map_congr_left hself).trans (List.map_id' _)).symm

end MessageCatalog
