import MessageCatalog.Proofs.Source.Roles

/-!
# Regions line by line

Messages are read as if line by line in the order of the source. `Message.addLine` is one step of such a reading: a
block header opens a block and a field goes to the last one. Reading a region by blocks and reading it step by step are
the same, also where they fail, so each line counts by itself in its role, and the first line that offends is the one to
blame.
-/

namespace MessageCatalog

open scoped List

/-! ## Reading line by line -/

/-- A message with one line more: a block header opens a block, and a field goes to the last one. -/
def Message.addLine (m : Message) (l : SourceLine) : Except Error Message :=
  match l.innerRole with
  | none => .ok m
  | some .fieldLine =>
    match m.blocks.getLast? with
    | none => .error (.located l.number .fieldBeforeBlock)
    | some b => do
      let f ← l.toField
      return { m with blocks := m.blocks.dropLast ++ [{ b with fields := b.fields ++ [f] }] }
  | some _ => do
    let b ← l.toBlock m.name
    return { m with blocks := m.blocks ++ [b] }

section AddLine

variable {l : SourceLine}

/-- A line without a role leaves the message as it is. -/
theorem Message.addLine_of_none (m : Message) (h : l.innerRole = none) : m.addLine l = pure m := by
  rw [addLine, h]
  rfl

/-- A block header adds a block without fields. -/
theorem Message.addLine_of_header (m : Message) (h : l.innerRole = some .blockHeader) :
    m.addLine l = l.toBlock m.name >>= fun b => pure { m with blocks := m.blocks ++ [b] } := by
  rw [addLine, h]

/-- A field line in front of all blocks is an error at its line. -/
theorem Message.addLine_of_orphan {m : Message} (h : l.innerRole = some .fieldLine) (hm : m.blocks = []) :
    m.addLine l = .error (.located l.number .fieldBeforeBlock) := by
  rw [addLine, h, hm]
  rfl

/-- A field line adds a field to the last block. -/
theorem Message.addLine_of_field {m : Message} {front : List Block} {b : Block} (h : l.innerRole = some .fieldLine)
    (hm : m.blocks = front ++ [b]) :
    m.addLine l = l.toField >>= fun f => pure { m with blocks := front ++ [{ b with fields := b.fields ++ [f] }] } := by
  simp [addLine, h, hm]

end AddLine

/-- Line by line behind a block header: fields go to its block up to the next header, and then block by block. -/
theorem foldlM_addLine_of_block (m : Message) (front : List Block) (b : Block) (body : List SourceLine) :
    body.foldlM Message.addLine { m with blocks := front ++ [b] } = (do
      let fields ← (groupBlocks body).orphans.mapM SourceLine.toField
      let blocks ← (groupBlocks body).groups.mapM (readBlock m.name)
      return { m with blocks := front ++ [{ b with fields := b.fields ++ fields }] ++ blocks }) := by
  induction body generalizing front b with
  | nil => simp [groupBlocks]
  | cons l body ih =>
    rw [List.foldlM_cons]
    rcases innerRole_cases l with hrole | hrole | hrole
    · rw [Message.addLine_of_none _ hrole, pure_bind, ih, groupBlocks_of_none hrole]
    · rw [Message.addLine_of_field hrole rfl, groupBlocks_of_field hrole]
      simp [ih]
    · rw [Message.addLine_of_header _ hrole, groupBlocks_of_header hrole]
      simp only [bind_assoc, pure_bind, List.mapM_nil, List.mapM_cons, readBlock]
      refine except_bind_congr fun head hhead => ?_
      have hempty := (SourceLine.toBlock_valid hhead).2.1
      have hnext := ih (front ++ [b]) head
      simp only [hempty, List.nil_append] at hnext
      rw [hnext]
      simp

/-- Line by line in front of the first block header: a field there has no block to go to. -/
theorem foldlM_addLine_of_nil {m : Message} (hm : m.blocks = []) (body : List SourceLine) :
    body.foldlM Message.addLine m =
      match (groupBlocks body).orphans with
      | orphan :: _ => .error (.located orphan.number .fieldBeforeBlock)
      | [] => (groupBlocks body).groups.mapM (readBlock m.name) >>= fun blocks => pure { m with blocks } := by
  induction body with
  | nil => simp [groupBlocks, ← hm]
  | cons l body ih =>
    rw [List.foldlM_cons]
    rcases innerRole_cases l with hrole | hrole | hrole
    · rw [Message.addLine_of_none _ hrole, pure_bind, ih, groupBlocks_of_none hrole]
    · rw [Message.addLine_of_orphan hrole hm, groupBlocks_of_field hrole]
      rfl
    · rw [Message.addLine_of_header _ hrole, groupBlocks_of_header hrole]
      simp only [bind_assoc, pure_bind, List.mapM_cons, readBlock]
      refine except_bind_congr fun head hhead => ?_
      have hempty := (SourceLine.toBlock_valid hhead).2.1
      have hnext := foldlM_addLine_of_block m [] head body
      simp only [hempty, List.nil_append] at hnext
      rw [hm, List.nil_append, hnext]
      simp

/-- A region is read line by line behind its header. -/
theorem Region.toMessage_eq_foldlM (openLine : Nat) (header : SourceLine) (body : List SourceLine) :
    Region.toMessage ⟨openLine, header :: body⟩ = header.toMessage >>= fun m => body.foldlM Message.addLine m :=
  except_bind_congr fun _ hm => (foldlM_addLine_of_nil (SourceLine.blocks_of_toMessage hm) body).symm

/-! ## One line more -/

/-- A block header is right or wrong in every message alike. -/
theorem SourceLine.toBlock_check (l : SourceLine) (message : String) :
    (l.toBlock message).map (fun _ => ()) = l.checkAs (some .blockHeader) := by
  change (l.toBlock message).map (fun _ => ()) = (l.toBlock "").map fun _ => ()
  unfold SourceLine.toBlock
  cases l.scan .blockHeader Scan.blockHeader with
  | error e => rfl
  | ok parts =>
    simp only [bind, Except.bind]
    cases optionalNumber parts.count fun numeral => .located l.number (.repeatCountOutOfRange numeral) with
    | error e => rfl
    | ok count => exact (map_bind_pure (parts.toQuantity count l.number) _).trans (map_bind_pure _ _).symm

/-- A line that is no field without a block adds to a message exactly if it is right in its role. -/
theorem Message.addLine_check {m : Message} {l : SourceLine} (h : l.innerRole = some .fieldLine → m.blocks ≠ []) :
    (m.addLine l).map (fun _ => ()) = l.checkAs l.innerRole := by
  rcases innerRole_cases l with hrole | hrole | hrole
  · rw [addLine_of_none m hrole, hrole]
    rfl
  · obtain ⟨front, b, hm⟩ := (List.eq_nil_or_concat' m.blocks).resolve_left (h hrole)
    rw [addLine_of_field hrole hm, map_bind_pure, hrole]
    rfl
  · rw [addLine_of_header m hrole, map_bind_pure, l.toBlock_check, hrole]

/-- A message has a block exactly if it had one or the line heads one. -/
theorem Message.blocks_of_addLine {m m' : Message} {l : SourceLine} (h : m.addLine l = .ok m') :
    m'.blocks ≠ [] ↔ m.blocks ≠ [] ∨ l.innerRole = some .blockHeader := by
  rcases innerRole_cases l with hrole | hrole | hrole
  · rw [addLine_of_none m hrole] at h
    obtain rfl := Except.ok.inj h
    simp [hrole]
  · rcases List.eq_nil_or_concat' m.blocks with hm | ⟨front, b, hm⟩
    · rw [addLine_of_orphan hrole hm] at h
      cases h
    · rw [addLine_of_field hrole hm] at h
      obtain ⟨f, -, hf⟩ := except_bind_eq_ok_iff.mp h
      obtain rfl := Except.ok.inj hf
      simp [hm]
  · rw [addLine_of_header m hrole] at h
    obtain ⟨b, -, hb⟩ := except_bind_eq_ok_iff.mp h
    obtain rfl := Except.ok.inj hb
    simp [hrole]

/-! ## Line after line -/

/-- Lines have a block header if the last one is one or those before have one. -/
theorem isHeaded_concat_iff {roles : List (Option LineKind × SourceLine)} {p : Option LineKind × SourceLine} :
    IsHeaded (roles ++ [p]) ↔ IsHeaded roles ∨ p.1 = some .blockHeader := by
  simp [IsHeaded, or_and_right, exists_or]

/-- No lines meet their roles. -/
theorem rolesMet_nil : RolesMet [] where
  valid := by simp
  headed := by simp

/-- One line more meets its role if it has the form of it and is no field line in front of all headers. -/
theorem rolesMet_concat_iff {roles : List (Option LineKind × SourceLine)} {role : Option LineKind} {l : SourceLine} :
    RolesMet (roles ++ [(role, l)]) ↔
      RolesMet roles ∧ l.checkAs role = .ok () ∧ (role = some .fieldLine → IsHeaded roles) := by
  constructor
  · intro h
    obtain ⟨hroles, hl⟩ := List.forall_mem_append.mp h.valid
    refine ⟨⟨hroles, fun front l' hf => h.headed front l' (hf.trans (List.prefix_append _ _))⟩, hl (role, l) (by simp), ?_⟩
    rintro rfl
    exact h.headed roles l (List.prefix_refl _)
  · rintro ⟨hroles, hcheck, hhead⟩
    refine ⟨List.forall_mem_append.mpr ⟨hroles.valid, by simpa using hcheck⟩, ?_⟩
    intro front l' hf
    rcases List.prefix_concat_iff.mp hf with he | hf
    · obtain ⟨rfl, hlast⟩ := List.append_inj' he rfl
      simp only [List.cons.injEq, Prod.mk.injEq, and_true] at hlast
      exact hhead hlast.1.symm
    · exact hroles.headed front l' hf

/-- Lines meet their roles, or one of them is the first to offend. -/
theorem rolesMet_or_offends (roles : List (Option LineKind × SourceLine)) :
    RolesMet roles ∨ ∃ before p after e, roles = before ++ p :: after ∧ RolesMet before ∧ LineOffends before p e := by
  induction roles using List.reverseRecOn with
  | nil => exact .inl rolesMet_nil
  | append_singleton roles p ih =>
    obtain ⟨role, l⟩ := p
    rcases ih with hmet | ⟨before, p, after, e, rfl, hmet, hp⟩
    · by_cases hplace : role = some .fieldLine → IsHeaded roles
      · cases hcheck : l.checkAs role with
        | ok u => exact .inl (rolesMet_concat_iff.mpr ⟨hmet, hcheck, hplace⟩)
        | error e => exact .inr ⟨roles, (role, l), [], e, rfl, hmet, .invalid hplace hcheck⟩
      · obtain ⟨rfl, horphan⟩ := Classical.not_imp.mp hplace
        exact .inr ⟨roles, _, [], _, rfl, hmet, .orphan horphan⟩
    · exact .inr ⟨before, p, after ++ [(role, l)], e, by simp, hmet, hp⟩

/-- A line that offends is refused with its error. -/
theorem Message.addLine_of_offends {m : Message} {l : SourceLine} {before : List (Option LineKind × SourceLine)} {e : Error}
    (hblocks : m.blocks ≠ [] ↔ IsHeaded before) (h : LineOffends before (l.innerRole, l) e) : m.addLine l = .error e := by
  generalize hp : (l.innerRole, l) = p at h
  cases h with
  | orphan horphan =>
    obtain ⟨hrole, rfl⟩ := Prod.mk.inj hp
    exact addLine_of_orphan hrole (by_contra fun hm => horphan (hblocks.mp hm))
  | invalid hplace hcheck =>
    obtain ⟨rfl, rfl⟩ := Prod.mk.inj hp
    rw [← addLine_check fun hrole => hblocks.mpr (hplace hrole)] at hcheck
    exact except_map_eq_error_iff.mp hcheck

/-- Lines that meet their roles are read, and a block is there when one was headed. -/
theorem foldlM_addLine_of_met {header : SourceLine} {m : Message} (hheader : header.toMessage = .ok m) {body : List SourceLine}
    (h : RolesMet ((some .messageHeader, header) :: body.map fun l => (l.innerRole, l))) :
    ∃ m', body.foldlM Message.addLine m = .ok m' ∧
      (m'.blocks ≠ [] ↔ IsHeaded ((some .messageHeader, header) :: body.map fun l => (l.innerRole, l))) := by
  induction body using List.reverseRecOn with
  | nil => exact ⟨m, rfl, by simp [SourceLine.blocks_of_toMessage hheader, IsHeaded]⟩
  | append_singleton body l ih =>
    rw [List.map_append, List.map_singleton, ← List.cons_append] at h ⊢
    obtain ⟨hmet, hcheck, hplace⟩ := rolesMet_concat_iff.mp h
    obtain ⟨m', hrun, hblocks⟩ := ih hmet
    rw [← Message.addLine_check fun hrole => hblocks.mpr (hplace hrole)] at hcheck
    obtain ⟨m'', hstep⟩ := except_map_eq_ok_iff.mp hcheck
    refine ⟨m'', ?_, ?_⟩
    · rw [List.foldlM_append]
      exact except_bind_eq_ok_iff.mpr ⟨m', hrun, except_bind_eq_ok_iff.mpr ⟨m'', hstep, rfl⟩⟩
    · rw [Message.blocks_of_addLine hstep, hblocks, isHeaded_concat_iff]

/-! ## Regions -/

/-- A clear region is read as a message. -/
theorem Region.Clear.toMessage {region : Region} (h : region.Clear) : ∃ m, region.toMessage = .ok m := by
  obtain ⟨openLine, lines⟩ := region
  cases lines with
  | nil => exact absurd rfl h.nonempty
  | cons header body =>
    obtain ⟨m, hm⟩ := except_map_eq_ok_iff.mp (h.met.valid (some .messageHeader, header) List.mem_cons_self)
    obtain ⟨m', hrun, -⟩ := foldlM_addLine_of_met hm h.met
    exact ⟨m', by rw [Region.toMessage_eq_foldlM]; exact except_bind_eq_ok_iff.mpr ⟨m, hm, hrun⟩⟩

/-- A region with an offence fails with it. -/
theorem Region.Offends.toMessage {region : Region} {e : Error} (h : region.Offends e) : region.toMessage = .error e := by
  obtain ⟨openLine, lines⟩ := region
  cases h with
  | empty h =>
    obtain rfl : lines = [] := h
    rfl
  | @line before after p _ hroles hbefore hp =>
    cases lines with
    | nil => simp [Region.roles] at hroles
    | cons header body =>
      rw [Region.toMessage_eq_foldlM]
      cases before with
      | nil =>
        obtain ⟨rfl, -⟩ := List.cons.inj hroles
        cases hp with
        | invalid _ hcheck =>
          exact except_bind_of_error (except_map_eq_error_iff.mp hcheck)
      | cons q before =>
        obtain ⟨rfl, hbody⟩ := List.cons.inj hroles
        obtain ⟨front, back, rfl, rfl, hback⟩ := List.map_eq_append_iff.mp hbody
        obtain ⟨l, after', rfl, rfl, -⟩ := List.map_eq_cons_iff.mp hback
        obtain ⟨m, hm⟩ := except_map_eq_ok_iff.mp (hbefore.valid _ List.mem_cons_self)
        obtain ⟨m', hrun, hblocks⟩ := foldlM_addLine_of_met hm hbefore
        rw [except_bind_of_ok hm, List.foldlM_append, except_bind_of_ok hrun, List.foldlM_cons]
        exact except_bind_of_error (Message.addLine_of_offends hblocks hp)

/-- A region is clear or has an offence. -/
theorem Region.clear_or_offends (region : Region) : region.Clear ∨ ∃ e, region.Offends e := by
  by_cases hempty : region.lines = []
  · exact .inr ⟨_, .empty hempty⟩
  · rcases rolesMet_or_offends region.roles with hmet | ⟨before, p, after, e, hroles, hbefore, hp⟩
    · exact .inl ⟨hempty, hmet⟩
    · exact .inr ⟨e, .line hroles hbefore hp⟩

/-- A region is read as a message exactly if it is clear. -/
theorem Region.toMessage_isOk_iff {region : Region} : (∃ m, region.toMessage = .ok m) ↔ region.Clear := by
  refine ⟨fun ⟨m, hm⟩ => ?_, Region.Clear.toMessage⟩
  rcases region.clear_or_offends with hclear | ⟨e, he⟩
  · exact hclear
  · cases hm.symm.trans he.toMessage

/-- A region fails exactly with its offence. -/
theorem Region.toMessage_eq_error_iff {region : Region} {e : Error} : region.toMessage = .error e ↔ region.Offends e := by
  refine ⟨fun h => ?_, Region.Offends.toMessage⟩
  rcases region.clear_or_offends with hclear | ⟨e', he'⟩
  · obtain ⟨m, hm⟩ := hclear.toMessage
    cases hm.symm.trans h
  · obtain rfl := Except.error.inj (he'.toMessage.symm.trans h)
    exact he'

/-- Regions that differ only in lone braces declare the same. -/
theorem Region.SameButBraces.toMessage {region region' : Region} (h : region.SameButBraces region') :
    region'.toMessage = region.toMessage := by
  obtain ⟨openLine, lines⟩ := region
  obtain ⟨openLine', lines'⟩ := region'
  obtain ⟨hopen, hhead, htail⟩ := h
  cases lines with
  | nil =>
    obtain rfl : lines' = [] := List.head?_eq_none_iff.mp hhead.symm
    obtain rfl : openLine = openLine' := hopen
    rfl
  | cons header body =>
    cases lines' with
    | nil => cases hhead
    | cons header' body' =>
      obtain rfl : header = header' := Option.some.inj hhead
      have hgroups : groupBlocks body' = groupBlocks body := by
        rw [← groupBlocks_filter body', ← groupBlocks_filter body]
        exact congrArg groupBlocks htail.symm
      simp only [Region.toMessage, hgroups]

/-- The messages of a source are those of its regions. -/
theorem readMessages_eq_mapM {lines : List SourceLine} {regions : List Region} (h : segment lines = .ok regions) :
    readMessages lines = regions.mapM Region.toMessage :=
  except_bind_of_ok h

/-- Where lines can be cut into regions, messages are read from them exactly if no region is empty, every line is right
in its role and every field stands behind a block header. Each region then declares its message. Otherwise the error is
that of the first line that offends, and lone braces behind the first line of a region never matter. -/
theorem readMessages_line_by_line {lines : List SourceLine} {regions : List Region} (h : segment lines = .ok regions) :
    ((∃ messages, readMessages lines = .ok messages) ↔ ∀ region ∈ regions, region.Clear) ∧
      (∀ messages, readMessages lines = .ok messages ↔ List.Forall₂ Region.Declares regions messages) ∧
      (∀ e, readMessages lines = .error e ↔ FirstRegionOffence regions e) ∧
      ∀ lines' regions', segment lines' = .ok regions' → List.Forall₂ Region.SameButBraces regions regions' →
        readMessages lines' = readMessages lines := by
  rw [readMessages_eq_mapM h]
  refine ⟨?_, ?_, ?_, ?_⟩
  · simp only [mapM_isOk_iff, Region.toMessage_isOk_iff]
  · intro messages
    simp only [mapM_eq_ok_iff, Region.toMessage_eq_ok_iff]
  · intro e
    simp only [mapM_eq_error_iff, Region.toMessage_eq_error_iff, Region.toMessage_isOk_iff, FirstRegionOffence]
  · intro lines' regions' h' hsame
    rw [readMessages_eq_mapM h']
    exact mapM_congr_of_forall₂ (hsame.imp fun _ _ hregion => hregion.toMessage)

/-- Two messages, the second of which has a field in front of all blocks. -/
def roleLines : List SourceLine :=
  [⟨2, "\x7b"⟩, ⟨3, "Ping High 1 T E"⟩, ⟨4, "\x7b"⟩, ⟨5, "Body Single"⟩, ⟨6, "\x7b Id U8 \x7d"⟩, ⟨7, "\x7d"⟩, ⟨8, "\x7d"⟩,
    ⟨9, "\x7b"⟩, ⟨10, "Pong High 2 T E"⟩, ⟨11, "\x7b Id U8 \x7d"⟩, ⟨12, "\x7d"⟩]

/-- The regions of the lines. -/
def roleRegions : List Region :=
  [⟨2, (roleLines.drop 1).take 5⟩, ⟨9, (roleLines.drop 8).take 2⟩]

/-- Of two regions the first one declares a message, and a field line in front of all blocks is the offence of the second one.
-/
theorem readMessages_line_by_line_sample : segment roleLines = .ok roleRegions ∧
    FirstRegionOffence roleRegions (.located 11 .fieldBeforeBlock) ∧
    readMessages ((roleLines.eraseIdx 5).eraseIdx 2) = readMessages roleLines ∧
    List.Forall₂ Region.Declares (roleRegions.take 1)
      [⟨"Ping", .high, 1, "T", "E", none, [⟨"Body", .single, [⟨"Id", .u8, 6⟩], "Ping", 5⟩], 3⟩] := by
  have hcut : segment roleLines = .ok roleRegions := by decide +kernel
  obtain ⟨-, -, hoffence, hbraces⟩ := readMessages_line_by_line hcut
  obtain ⟨-, hdeclares, -, -⟩ := readMessages_line_by_line
    (show segment (roleLines.take 7) = .ok (roleRegions.take 1) by decide +kernel)
  have hbare : segment ((roleLines.eraseIdx 5).eraseIdx 2) =
      .ok [⟨2, [⟨3, "Ping High 1 T E"⟩, ⟨5, "Body Single"⟩, ⟨6, "\x7b Id U8 \x7d"⟩]⟩,
        ⟨9, (roleLines.drop 8).take 2⟩] := by decide +kernel
  refine ⟨hcut, (hoffence _).mp (by decide +kernel), hbraces _ _ hbare ?_, (hdeclares _).mp (by decide +kernel)⟩
  exact .cons ⟨rfl, rfl, by decide +kernel⟩ (.cons ⟨rfl, rfl, rfl⟩ .nil)

end MessageCatalog
