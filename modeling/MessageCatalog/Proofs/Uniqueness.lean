import MessageCatalog.Proofs.Sequences
import MessageCatalog.Proofs.Validity
import MessageCatalog.Uniqueness

/-!
# The uniqueness check

The check passes exactly the templates that declare nothing twice. Each of its loops carries what it has seen, so each
statement is about a list behind another one: no key is repeated in the list, and none was seen before it
(`FreshBehind`).
-/

namespace MessageCatalog

/-- No two elements of the list have the same key, and none has a key that was seen. -/
def FreshBehind {α β : Type} (key : α → β) (seen : List β) (elements : List α) : Prop :=
  (elements.map key).Nodup ∧ ∀ a ∈ elements, key a ∉ seen

/-- There is nothing to repeat among no items. -/
theorem freshBehind_nil {α β : Type} (key : α → β) (seen : List β) : FreshBehind key seen [] := by
  simp [FreshBehind]

/-- With nothing seen, what counts is that the keys are distinct. -/
theorem freshBehind_nothing_iff {α β : Type} {key : α → β} {elements : List α} :
    FreshBehind key [] elements ↔ (elements.map key).Nodup := by
  simp [FreshBehind]

/-- One step of a loop that carries the keys it has seen. -/
theorem freshBehind_cons_iff {α β : Type} {key : α → β} {seen : List β} {a : α} {elements : List α} :
    FreshBehind key seen (a :: elements) ↔ key a ∉ seen ∧ FreshBehind key (key a :: seen) elements := by
  unfold FreshBehind
  simp only [List.map_cons, List.nodup_cons, List.mem_map, List.mem_cons, not_exists, not_and, not_or]
  constructor
  · rintro ⟨⟨hnew, hnodup⟩, hseen⟩
    exact ⟨hseen a (Or.inl rfl), hnodup, fun b hb => ⟨hnew b hb, hseen b (Or.inr hb)⟩⟩
  · rintro ⟨ha, hnodup, hseen⟩
    refine ⟨⟨fun b hb => (hseen b hb).1, hnodup⟩, ?_⟩
    rintro b (rfl | hb)
    · exact ha
    · exact (hseen b hb).2

/-! ## The three loops -/

/-- Fields pass if their field names are fresh. -/
theorem checkFields_eq_ok_iff {message block : String} {seen : List String} {fields : List Field} :
    checkFields message block seen fields = .ok () ↔ FreshBehind (fun f => Naming.fieldName f.name) seen fields := by
  induction fields generalizing seen with
  | nil => simp [checkFields, freshBehind_nil]
  | cons f fields ih =>
    rw [freshBehind_cons_iff, ← ih]
    by_cases hf : Naming.fieldName f.name ∈ seen <;> simp [checkFields, hf]

/-- Blocks pass if their field names are fresh and those of the fields of each block differ. -/
theorem checkBlocks_eq_ok_iff {message : String} {seen : List String} {blocks : List Block} :
    checkBlocks message seen blocks = .ok () ↔ FreshBehind (fun b => Naming.fieldName b.name) seen blocks ∧
      ∀ b ∈ blocks, (b.fields.map fun f => Naming.fieldName f.name).Nodup := by
  induction blocks generalizing seen with
  | nil => simp [checkBlocks, freshBehind_nil]
  | cons b blocks ih =>
    have hstep : checkBlocks message seen (b :: blocks) = .ok () ↔ Naming.fieldName b.name ∉ seen ∧
        checkFields message b.name [] b.fields = .ok () ∧
          checkBlocks message (Naming.fieldName b.name :: seen) blocks = .ok () := by
      by_cases hb : Naming.fieldName b.name ∈ seen
      · simp [checkBlocks, hb]
      · cases hf : checkFields message b.name [] b.fields <;> simp [checkBlocks, hb, hf]
    rw [hstep, freshBehind_cons_iff, checkFields_eq_ok_iff, freshBehind_nothing_iff, ih, List.forall_mem_cons]
    constructor
    · rintro ⟨hb, hfields, hfresh, hrest⟩
      exact ⟨⟨hb, hfresh⟩, hfields, hrest⟩
    · rintro ⟨⟨hb, hfresh⟩, hfields, hrest⟩
      exact ⟨hb, hfields, hfresh, hrest⟩

/-- What the check asks of the blocks of a message. -/
def Message.BlocksDistinct (m : Message) : Prop :=
  (m.blocks.map fun b => Naming.fieldName b.name).Nodup ∧
    ∀ b ∈ m.blocks, (b.fields.map fun f => Naming.fieldName f.name).Nodup

/-- The blocks of a message pass if they are distinct. -/
theorem checkBlocks_message_eq_ok_iff {m : Message} : checkBlocks m.name [] m.blocks = .ok () ↔ m.BlocksDistinct := by
  rw [checkBlocks_eq_ok_iff, freshBehind_nothing_iff, Message.BlocksDistinct]

/-- Messages pass if their names and numbers are fresh and the blocks of each are distinct. -/
theorem checkMessages_eq_ok_iff {seen messages : List Message} :
    checkMessages seen messages = .ok () ↔ FreshBehind (·.name) (seen.map (·.name)) messages ∧
      FreshBehind (·.number) (seen.map (·.number)) messages ∧ ∀ m ∈ messages, m.BlocksDistinct := by
  induction messages generalizing seen with
  | nil => simp [checkMessages, freshBehind_nil]
  | cons m messages ih =>
    have hstep : checkMessages seen (m :: messages) = .ok () ↔ m.name ∉ seen.map (·.name) ∧
        m.number ∉ seen.map (·.number) ∧ checkBlocks m.name [] m.blocks = .ok () ∧
          checkMessages (m :: seen) messages = .ok () := by
      have hany : seen.any (·.name == m.name) = true ↔ m.name ∈ seen.map (·.name) := by
        simp
      rw [checkMessages]
      by_cases hname : m.name ∈ seen.map (·.name)
      · rw [if_pos (hany.mpr hname)]
        simp only [reduceCtorEq, hname, not_true_eq_false, false_and]
      · rw [if_neg (mt hany.mp hname)]
        cases hfind : seen.find? (·.number == m.number) with
        | some earlier =>
          have hmem : m.number ∈ seen.map (·.number) := List.mem_map.mpr
            ⟨earlier, List.mem_of_find?_eq_some hfind, by simpa using List.find?_some hfind⟩
          simp only [reduceCtorEq, hmem, not_true_eq_false, false_and, and_false]
        | none =>
          have hnumber : m.number ∉ seen.map (·.number) := by
            simpa using List.find?_eq_none.mp hfind
          cases hb : checkBlocks m.name [] m.blocks <;> simp [hname, hnumber]
    rw [hstep, freshBehind_cons_iff, freshBehind_cons_iff, checkBlocks_message_eq_ok_iff, ih, List.forall_mem_cons]
    constructor
    · rintro ⟨hname, hnumber, hblocks, hnames, hnumbers, hrest⟩
      exact ⟨⟨hname, hnames⟩, ⟨hnumber, hnumbers⟩, hblocks, hrest⟩
    · rintro ⟨⟨hname, hnames⟩, ⟨hnumber, hnumbers⟩, hblocks, hrest⟩
      exact ⟨hname, hnumber, hblocks, hnames, hnumbers, hrest⟩

/-- The check passes exactly the templates that declare nothing twice. -/
theorem checkUnique_eq_ok_iff {t : Template} : t.checkUnique = .ok () ↔ t.Distinct := by
  rw [Template.checkUnique, checkMessages_eq_ok_iff]
  simp only [List.map_nil, freshBehind_nothing_iff]
  constructor
  · rintro ⟨hnames, hnumbers, hblocks⟩
    exact ⟨hnames, hnumbers, fun m hm => (hblocks m hm).1, fun m hm => (hblocks m hm).2⟩
  · rintro ⟨hnames, hnumbers, hblocks, hfields⟩
    exact ⟨hnames, hnumbers, fun m hm => ⟨hblocks m hm, hfields m hm⟩⟩

end MessageCatalog
