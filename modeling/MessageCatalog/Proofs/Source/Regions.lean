import MessageCatalog.Proofs.Source.Entries
import MessageCatalog.Source.Parse

/-!
# What regions and groups are made of

Cutting lines into regions and grouping the lines of a region by block leave lines out, the lone braces, but keep the order of the
others. So what is declared stands in the order of the source.
-/

namespace MessageCatalog

open scoped List

/-! ## Regions -/

/-- The lines that were collected of an open region, in order. -/
def RegionState.collectedLines : RegionState → List SourceLine
  | .between => []
  | .within _ collected _ => collected.reverse

/-- The lines of the regions are collected lines and lines to come, in order. -/
theorem segmentFrom_sublist {state : RegionState} {lines : List SourceLine} {regions : List Region}
    (h : segmentFrom state lines = .ok regions) : regions.flatMap (·.lines) <+ state.collectedLines ++ lines := by
  fun_induction segmentFrom state lines generalizing regions with
  | case1 =>
    obtain rfl := Except.ok.inj h
    simp
  | case2 => cases h
  | case3 l rest hopen ih => exact (ih h).cons l
  | case4 => cases h
  | case5 => cases h
  | case6 openLine collected depth l rest hopen ih => simpa [RegionState.collectedLines] using ih h
  | case7 openLine collected l rest hopen hclose ih =>
    -- the region ends: what was collected is its lines, and nothing is collected of the next
    cases hrest : segmentFrom .between rest with
    | error e => simp [hrest, Except.map] at h
    | ok later =>
      obtain rfl : ⟨openLine, collected.reverse⟩ :: later = regions := by simpa [hrest, Except.map] using h
      exact (List.Sublist.refl _).append ((ih hrest).cons l)
  | case8 openLine collected l rest hopen hclose depth ih => simpa [RegionState.collectedLines] using ih h
  | case9 openLine collected depth l rest hopen hclose ih => simpa [RegionState.collectedLines] using ih h

/-- Groups are made of the lines of a region, in order. -/
theorem groupBlocks_sublist (lines : List SourceLine) :
    (groupBlocks lines).orphans ++ (groupBlocks lines).groups.flatMap (fun group => group.1 :: group.2) <+ lines := by
  induction lines with
  | nil => simp [groupBlocks]
  | cons l rest ih =>
    rw [groupBlocks]
    split
    · exact ih.cons l
    split
    · exact ih.cons_cons l
    · rw [List.nil_append, List.flatMap_cons, List.cons_append]
      exact ih.cons_cons l

/-! ## Blocks, messages and their lines -/

/-- A block is valid, and it is declared on the lines of its group. -/
theorem readBlock_valid {message : String} {group : SourceLine × List SourceLine} {b : Block}
    (h : readBlock message group = .ok b) :
    b.Valid message ∧ b.declarationLines = (group.1 :: group.2).map (·.number) := by
  unfold readBlock at h
  obtain ⟨header, hheader, h⟩ := except_bind_eq_ok_iff.mp h
  obtain ⟨fields, hfields, h⟩ := except_bind_eq_ok_iff.mp h
  obtain rfl := Except.ok.inj h
  obtain ⟨hvalid, -, hline⟩ := SourceLine.toBlock_valid hheader
  have hread : List.Forall₂ (fun l f => f.Valid ∧ l.number = f.line) group.2 fields :=
    (mapM_eq_ok_iff.mp hfields).imp fun l f hf => ⟨(SourceLine.toField_valid hf).1, (SourceLine.toField_valid hf).2.symm⟩
  have hlines : group.2.map (·.number) = fields.map (·.line) := by
    rw [← List.forall₂_eq_eq_eq, List.forall₂_map_left_iff, List.forall₂_map_right_iff]
    exact hread.imp fun _ _ hf => hf.2
  refine ⟨⟨hvalid.name, hvalid.owner, hvalid.count, forall_mem_of_forall₂ hread fun _ _ _ hf => hf.1⟩, ?_⟩
  rw [List.map_cons, hlines, ← hline]
  rfl

/-- A message that is read from significant lines is valid, and it is declared on some of them, in order. -/
theorem Region.toMessage_valid {region : Region} {m : Message} (hlines : ∀ l ∈ region.lines, IsLineText l.text.toList)
    (h : region.toMessage = .ok m) : m.Valid ∧ m.declarationLines <+ region.lines.map (·.number) := by
  unfold Region.toMessage at h
  split at h
  · cases h
  rename_i header body hregion
  rw [hregion] at hlines ⊢
  obtain ⟨message, hmessage, h⟩ := except_bind_eq_ok_iff.mp h
  simp only at h
  split at h
  · cases h
  rename_i horphans
  obtain ⟨blocks, hblocks, h⟩ := except_bind_eq_ok_iff.mp h
  obtain rfl := Except.ok.inj h
  obtain ⟨hvalid, -, hline⟩ := SourceLine.toMessage_valid (hlines header (by simp)) hmessage
  have hread := (mapM_eq_ok_iff.mp hblocks).imp fun _ _ hb => readBlock_valid hb
  refine ⟨⟨hvalid.name, hvalid.notReserved, hvalid.id, hvalid.trust, hvalid.encoding, hvalid.deprecation, hvalid.endsVisibly,
    forall_mem_of_forall₂ hread fun _ _ _ hb => hb.1⟩, ?_⟩
  have hgroups := groupBlocks_sublist body
  rw [horphans, List.nil_append] at hgroups
  have hsub : blocks.flatMap Block.declarationLines <+
      (groupBlocks body).groups.flatMap fun group => (group.1 :: group.2).map (·.number) :=
    flatMap_sublist_of_forall₂ (hread.imp fun _ _ hb => hb.2 ▸ List.Sublist.refl _)
  rw [← List.map_flatMap] at hsub
  rw [List.map_cons, ← hline]
  exact (hsub.trans (hgroups.map _)).cons_cons _

/-- Messages that are read from significant lines are valid, and they are declared on some of them, in order. -/
theorem readMessages_valid {lines : List SourceLine} {messages : List Message} (hlines : ∀ l ∈ lines, IsLineText l.text.toList)
    (h : readMessages lines = .ok messages) :
    (∀ m ∈ messages, m.Valid) ∧ messages.flatMap Message.declarationLines <+ lines.map (·.number) := by
  obtain ⟨regions, hregions, h⟩ := except_bind_eq_ok_iff.mp h
  have hsub : regions.flatMap (·.lines) <+ lines := segmentFrom_sublist hregions
  have hread : List.Forall₂ (fun region m => m.Valid ∧ m.declarationLines <+ region.lines.map (·.number)) regions messages := by
    have hregion : ∀ region ∈ regions, ∀ l ∈ region.lines, IsLineText l.text.toList := fun region hr l hl =>
      hlines l (hsub.subset (List.mem_flatMap.mpr ⟨region, hr, hl⟩))
    have hboth := (List.forall₂_and_left regions messages).mpr ⟨hregion, mapM_eq_ok_iff.mp h⟩
    exact hboth.imp fun region m hm => Region.toMessage_valid hm.1 hm.2
  refine ⟨forall_mem_of_forall₂ hread fun _ _ _ hm => hm.1, ?_⟩
  have hnumbers := flatMap_sublist_of_forall₂ (hread.imp fun _ _ hm => hm.2)
  rw [← List.map_flatMap] at hnumbers
  exact hnumbers.trans (hsub.map _)

end MessageCatalog
