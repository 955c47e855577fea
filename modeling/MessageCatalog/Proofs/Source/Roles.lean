import MessageCatalog.Proofs.Source.Completeness

/-!
# What each line of a region says

A line has a role in its region: the first is the header of the message, and of the later ones a lone brace says
nothing, a line that starts with a brace is a field, and any other heads a block. A region then declares a message: each
block header opens a block, and each field belongs to the block whose header is the last one before it. What is declared
is what is read, and lone braces have no part in it.
-/

namespace MessageCatalog

open scoped List

/-! ## Roles -/

/-- The role of a line behind the first of its region. -/
def SourceLine.innerRole (l : SourceLine) : Option LineKind :=
  if l.isBrace then none else if l.startsWithBrace then some .fieldLine else some .blockHeader

/-- The lines of a region with their roles. The first is the header of the message whatever it looks like. -/
def Region.roles (region : Region) : List (Option LineKind × SourceLine) :=
  match region.lines with
  | [] => []
  | header :: body => (some .messageHeader, header) :: body.map fun l => (l.innerRole, l)

/-- Whether a line is right by itself in a role, or what is wrong with it. A line without a role is always right. -/
def SourceLine.checkAs (l : SourceLine) : Option LineKind → Except Error Unit
  | none => .ok ()
  | some .messageHeader => l.toMessage.map fun _ => ()
  | some .blockHeader => (l.toBlock "").map fun _ => ()
  | some .fieldLine => l.toField.map fun _ => ()

/-- Whether a block is headed among some lines. -/
def IsHeaded (roles : List (Option LineKind × SourceLine)) : Prop :=
  ∃ p ∈ roles, p.1 = some .blockHeader

/-- Every line is right in its role, and before each field a block is headed. -/
structure RolesMet (roles : List (Option LineKind × SourceLine)) : Prop where
  valid : ∀ p ∈ roles, p.2.checkAs p.1 = .ok ()
  headed : ∀ front l, front ++ [(some .fieldLine, l)] <+: roles → IsHeaded front

/-- A region that declares a message: it is not empty, and its lines meet their roles. -/
structure Region.Clear (region : Region) : Prop where
  nonempty : region.lines ≠ []
  met : RolesMet region.roles

/-- The error of a line in its role behind other lines of its region: a field with no block before it, or a line that is wrong. -/
inductive LineOffends (before : List (Option LineKind × SourceLine)) : Option LineKind × SourceLine → Error → Prop where
  | orphan {l : SourceLine} (h : ¬IsHeaded before) : LineOffends before (some .fieldLine, l) (.located l.number .fieldBeforeBlock)
  | invalid {role : Option LineKind} {l : SourceLine} {e : Error} (hplace : role = some .fieldLine → IsHeaded before)
    (h : l.checkAs role = .error e) : LineOffends before (role, l) e

/-- The error of a region: that of its first line that offends, or, if it has no lines, one at its opening line. -/
inductive Region.Offends (region : Region) : Error → Prop where
  | empty (h : region.lines = []) : region.Offends (.located region.openLine .emptyRegion)
  | line {before after : List (Option LineKind × SourceLine)} {p : Option LineKind × SourceLine} {e : Error}
    (hroles : region.roles = before ++ p :: after) (hbefore : RolesMet before) (h : LineOffends before p e) : region.Offends e

/-- The error of the first region that offends. -/
def FirstRegionOffence (regions : List Region) (e : Error) : Prop :=
  ∃ before region after, regions = before ++ region :: after ∧ (∀ r ∈ before, r.Clear) ∧ region.Offends e

/-! ## What a region declares -/

/-- A block header and lines up to the next one. -/
structure IsBlockRun (run : SourceLine × List SourceLine) : Prop where
  isHeader : run.1.innerRole = some .blockHeader
  noHeader : ∀ l ∈ run.2, l.innerRole ≠ some .blockHeader

/-- A header and the lines behind it declare a block: the fields among the lines are the fields of the block, in order. -/
structure DeclaresBlock (message : String) (run : SourceLine × List SourceLine) (b : Block) : Prop extends IsBlockRun run where
  header : run.1.toBlock message = .ok { b with fields := [] }
  fields : List.Forall₂ (fun l f => l.toField = .ok f) (run.2.filter fun l => l.innerRole = some .fieldLine) b.fields

/-- A region declares a message: its first line is the header, nothing is said before the first block header, and from
there on each block header and the lines behind it declare one block. -/
def Region.Declares (region : Region) (m : Message) : Prop :=
  ∃ header lead runs, region.lines = header :: lead ++ runs.flatMap (fun run => run.1 :: run.2) ∧
    header.toMessage = .ok { m with blocks := [] } ∧ (∀ l ∈ lead, l.innerRole = none) ∧
    List.Forall₂ (DeclaresBlock m.name) runs m.blocks

/-- Two regions that differ only in the lone braces behind their first lines. -/
def Region.SameButBraces (region region' : Region) : Prop :=
  region.openLine = region'.openLine ∧ region.lines.head? = region'.lines.head? ∧
    region.lines.tail.filter (fun l => !l.isBrace) = region'.lines.tail.filter fun l => !l.isBrace

/-! ## Grouping by role -/

section Grouping

variable {l : SourceLine} {rest : List SourceLine}

/-- A line behind the first says nothing, is a field or heads a block. -/
theorem innerRole_cases (l : SourceLine) :
    l.innerRole = none ∨ l.innerRole = some .fieldLine ∨ l.innerRole = some .blockHeader := by
  unfold SourceLine.innerRole
  split
  · exact .inl rfl
  · split
    · exact .inr (.inl rfl)
    · exact .inr (.inr rfl)

/-- A line without a role is left out of the groups. -/
theorem groupBlocks_of_none (h : l.innerRole = none) : groupBlocks (l :: rest) = groupBlocks rest := by
  unfold SourceLine.innerRole at h
  split at h
  · rename_i hbrace
    rw [groupBlocks, if_pos hbrace]
  split at h <;> cases h

/-- A field line belongs to the header in front of it. -/
theorem groupBlocks_of_field (h : l.innerRole = some .fieldLine) :
    groupBlocks (l :: rest) = ⟨l :: (groupBlocks rest).orphans, (groupBlocks rest).groups⟩ := by
  unfold SourceLine.innerRole at h
  split at h
  · cases h
  split at h
  · rename_i hbrace hstart
    rw [groupBlocks, if_neg hbrace, if_pos hstart]
  · cases h

/-- A block header starts a group. -/
theorem groupBlocks_of_header (h : l.innerRole = some .blockHeader) :
    groupBlocks (l :: rest) = ⟨[], (l, (groupBlocks rest).orphans) :: (groupBlocks rest).groups⟩ := by
  unfold SourceLine.innerRole at h
  split at h
  · cases h
  split at h
  · cases h
  · rename_i hbrace hstart
    rw [groupBlocks, if_neg hbrace, if_neg hstart]

end Grouping

/-- In front of a block header only the fields count. -/
theorem groupBlocks_append {lead : List SourceLine} (h : ∀ l ∈ lead, l.innerRole ≠ some .blockHeader) (rest : List SourceLine) :
    groupBlocks (lead ++ rest) =
      ⟨lead.filter (fun l => l.innerRole = some .fieldLine) ++ (groupBlocks rest).orphans, (groupBlocks rest).groups⟩ := by
  induction lead with
  | nil => rfl
  | cons l lead ih =>
    obtain ⟨hl, hlead⟩ := List.forall_mem_cons.mp h
    rcases innerRole_cases l with hrole | hrole | hrole
    · simp [groupBlocks_of_none hrole, ih hlead, hrole]
    · simp [groupBlocks_of_field hrole, ih hlead, hrole]
    · exact absurd hrole hl

/-- Each block header is grouped with the fields before the next one. -/
theorem groupBlocks_runs {runs : List (SourceLine × List SourceLine)}
    (h : ∀ run ∈ runs, IsBlockRun run) :
    groupBlocks (runs.flatMap fun run => run.1 :: run.2) =
      ⟨[], runs.map fun run => (run.1, run.2.filter fun l => l.innerRole = some .fieldLine)⟩ := by
  induction runs with
  | nil => rfl
  | cons run runs ih =>
    obtain ⟨hrun, hruns⟩ := List.forall_mem_cons.mp h
    rw [List.flatMap_cons, List.cons_append, groupBlocks_of_header hrun.isHeader, groupBlocks_append hrun.noHeader,
      ih hruns, List.append_nil, List.map_cons]

/-- The lines of a region behind the first fall apart at the block headers. -/
theorem exists_runs (body : List SourceLine) : ∃ (lead : List SourceLine) (runs : List (SourceLine × List SourceLine)),
    body = lead ++ runs.flatMap (fun run => run.1 :: run.2) ∧ (∀ l ∈ lead, l.innerRole ≠ some .blockHeader) ∧
      ∀ run ∈ runs, IsBlockRun run := by
  induction body with
  | nil => exact ⟨[], [], rfl, by simp, by simp⟩
  | cons l body ih =>
    obtain ⟨lead, runs, rfl, hlead, hruns⟩ := ih
    by_cases hl : l.innerRole = some .blockHeader
    · exact ⟨[], (l, lead) :: runs, rfl, by simp, List.forall_mem_cons.mpr ⟨⟨hl, hlead⟩, hruns⟩⟩
    · exact ⟨l :: lead, runs, rfl, List.forall_mem_cons.mpr ⟨hl, hlead⟩, hruns⟩

/-- Braces do not matter for the groups. -/
theorem groupBlocks_filter (body : List SourceLine) : groupBlocks (body.filter fun l => !l.isBrace) = groupBlocks body := by
  induction body with
  | nil => rfl
  | cons l body ih =>
    cases hbrace : l.isBrace with
    | true => rw [List.filter_cons_of_neg (by simp [hbrace]), ih, groupBlocks, if_pos hbrace]
    | false => rw [List.filter_cons_of_pos (by simp [hbrace]), groupBlocks, groupBlocks, ih]

/-! ## What is declared when all goes well -/

/-- A group is read as a block if its header and all its fields are read. -/
theorem readBlock_eq_ok_iff {message : String} {group : SourceLine × List SourceLine} {b : Block} :
    readBlock message group = .ok b ↔
      group.1.toBlock message = .ok { b with fields := [] } ∧ List.Forall₂ (fun l f => l.toField = .ok f) group.2 b.fields := by
  unfold readBlock
  simp only [except_bind_eq_ok_iff, mapM_eq_ok_iff]
  constructor
  · rintro ⟨head, hhead, fields, hfields, hb⟩
    obtain rfl := Except.ok.inj hb
    have hempty := (SourceLine.toBlock_valid hhead).2.1
    refine ⟨?_, hfields⟩
    rw [hhead, ← hempty]
  · rintro ⟨hhead, hfields⟩
    exact ⟨_, hhead, b.fields, hfields, rfl⟩

/-- A message header declares no blocks. -/
theorem SourceLine.blocks_of_toMessage {l : SourceLine} {m : Message} (h : l.toMessage = .ok m) : m.blocks = [] := by
  obtain ⟨parts, -, hparts⟩ := SourceLine.toMessage_eq_ok_iff.mp h
  rw [(MessageParts.toMessage_eq_ok_iff.mp hparts).2.2.2.2]

/-- The blocks of a message are declared by the runs of lines from each block header to the next. -/
theorem mapM_readBlock_eq_ok_iff {message : String} {runs : List (SourceLine × List SourceLine)} {blocks : List Block}
    (hruns : ∀ run ∈ runs, IsBlockRun run) :
    (runs.map fun run => (run.1, run.2.filter fun l => l.innerRole = some .fieldLine)).mapM (readBlock message) = .ok blocks ↔
      List.Forall₂ (DeclaresBlock message) runs blocks := by
  rw [mapM_eq_ok_iff, List.forall₂_map_left_iff]
  simp only [readBlock_eq_ok_iff]
  constructor
  · intro h
    have hboth := (List.forall₂_and_left runs blocks).mpr ⟨hruns, h⟩
    exact hboth.imp fun run b hb => ⟨hb.1, hb.2.1, hb.2.2⟩
  · intro h
    exact h.imp fun run b hb => ⟨hb.header, hb.fields⟩

/-- A region is read as what it declares. -/
theorem Region.toMessage_eq_ok_iff {region : Region} {m : Message} : region.toMessage = .ok m ↔ region.Declares m := by
  constructor
  · intro h
    unfold Region.toMessage at h
    split at h
    · cases h
    rename_i header body hregion
    obtain ⟨lead, runs, rfl, hlead, hruns⟩ := exists_runs body
    obtain ⟨head, hhead, h⟩ := except_bind_eq_ok_iff.mp h
    simp only [groupBlocks_append hlead, groupBlocks_runs hruns, List.append_nil] at h
    split at h
    · cases h
    rename_i horphans
    obtain ⟨blocks, hblocks, h⟩ := except_bind_eq_ok_iff.mp h
    obtain rfl := Except.ok.inj h
    have hempty := SourceLine.blocks_of_toMessage hhead
    refine ⟨header, lead, runs, hregion, ?_, ?_, (mapM_readBlock_eq_ok_iff hruns).mp hblocks⟩
    · rw [hhead, ← hempty]
    · -- no header and no field is left among the lines before the first block
      intro l hl
      have hfield := List.filter_eq_nil_iff.mp horphans l hl
      rcases innerRole_cases l with hrole | hrole | hrole
      · exact hrole
      · exact absurd hrole (by simpa using hfield)
      · exact absurd hrole (hlead l hl)
  · rintro ⟨header, lead, runs, hregion, hheader, hlead, hblocks⟩
    have hruns : ∀ run ∈ runs, IsBlockRun run :=
      forall_mem_of_forall₂ (@List.Forall₂.flip _ _ (flip (DeclaresBlock m.name)) _ _ hblocks) fun _ _ _ hrun => hrun.toIsBlockRun
    have hplain : ∀ l ∈ lead, l.innerRole ≠ some .blockHeader := fun l hl => by simp [hlead l hl]
    have horphans : lead.filter (fun l => l.innerRole = some .fieldLine) = [] :=
      List.filter_eq_nil_iff.mpr fun l hl => by simp [hlead l hl]
    unfold Region.toMessage
    rw [hregion]
    refine except_bind_eq_ok_iff.mpr ⟨_, hheader, ?_⟩
    simp only [List.append_eq, groupBlocks_append hplain, groupBlocks_runs hruns, horphans, List.append_nil]
    exact except_bind_eq_ok_iff.mpr ⟨m.blocks, (mapM_readBlock_eq_ok_iff hruns).mpr hblocks, rfl⟩

end MessageCatalog
