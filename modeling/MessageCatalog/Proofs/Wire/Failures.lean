import MessageCatalog.Proofs.Sites
import MessageCatalog.Proofs.Wire.Reading

/-!
# Where reading fails

Reading a body fails at a site of its message: everything in front of the site is read, and what stands there is not
(`FailsAt`). Records, blocks and bodies are read element by element, so it is said once where reading something for each
of some elements fails (`decodeEach_eq_error`). Main statement: the error of a body that is not read has the path of the
site where reading failed.
-/

namespace MessageCatalog.Wire

variable {α β : Type}

/-- Takes the number of the records of a block: it is declared, or it stands in front of them. -/
def takeCount : Quantity → Take Nat
  | .single => return 1
  | .multiple count => return count
  | .varying => takeNumber 1

/-- Where reading a body from a source fails. In front of the site all blocks, all records of the block and all fields
of the record are read. Then the count of the records cannot be taken, or the value of the field. -/
inductive FailsAt (m : Message) (s : Source) (fault : SourceFault) (left : Source) : Site → Prop where
  | count {before after : List Block} {b : Block} {body : Body} {s₁ : Source} (hblocks : m.blocks = before ++ b :: after)
      (hbefore : decodeBlocks before s = .ok body s₁) (hfails : takeCount b.quantity s₁ = .error fault left) :
      FailsAt m s fault left (.block m b)
  | value {before after : List Block} {b : Block} {body : Body} {s₁ s₂ s₃ s₄ : Source} {count index : Nat} {records : List Record}
      {front back : List Field} {f : Field} {values : Record} (hblocks : m.blocks = before ++ b :: after)
      (hbefore : decodeBlocks before s = .ok body s₁) (hcount : takeCount b.quantity s₁ = .ok count s₂) (hindex : index < count)
      (hrecords : decodeMany (decodeFields b b.fields) index s₂ = .ok records s₃) (hfields : b.fields = front ++ f :: back)
      (hfront : decodeFields b front s₃ = .ok values s₄) (hfails : takeValue f.type.layout s₄ = .error fault left) :
      FailsAt m s fault left (.field m b f)

/-- Reads something for each of some elements. -/
def decodeEach (decoder : α → Decoder β) : List α → Decoder (List β)
  | [] => return []
  | a :: rest => do
    let b ← decoder a
    let bs ← decodeEach decoder rest
    return b :: bs

/-- A record is read field by field. -/
theorem decodeFields_eq_each (b : Block) (fields : List Field) :
    decodeFields b fields = decodeEach (fun f => within (b.fieldPath f) (takeValue f.type.layout)) fields := by
  induction fields with
  | nil => rfl
  | cons f fields ih => rw [decodeFields, decodeEach, ih]

/-- A number of things are read one by one. -/
theorem decodeMany_eq_each (decoder : Decoder α) (count : Nat) :
    decodeMany decoder count = decodeEach (fun _ => decoder) (List.replicate count ()) := by
  induction count with
  | zero => rfl
  | succ count ih => rw [decodeMany, List.replicate_succ, decodeEach, ih]

/-- A body is read block by block. -/
theorem decodeBlocks_eq_each (blocks : List Block) : decodeBlocks blocks = decodeEach decodeBlock blocks := by
  induction blocks with
  | nil => rfl
  | cons b blocks ih => rw [decodeBlocks, decodeEach, ih]

/-- Of a block first the count is read and then that many records. -/
theorem decodeBlock_eq (b : Block) :
    decodeBlock b = within b.path (takeCount b.quantity) >>= decodeMany (decodeFields b b.fields) := by
  unfold decodeBlock
  cases b.quantity <;> rfl

/-- A failure at a place is a fault of the source there. -/
theorem within_eq_error_iff {place : String} {taking : Take α} {s s' : Source} {e : ReadError} :
    within place taking s = .error e s' ↔ ∃ fault, taking s = .error fault s' ∧ e = .field place fault := by
  unfold within
  cases taking s with
  | ok a rest => simp
  | error fault rest => simp [and_comm, eq_comm]

/-- Reading something for each element fails at one of them, when it has read something for each in front of it. -/
theorem decodeEach_eq_error {decoder : α → Decoder β} {elements : List α} {s s' : Source} {e : ReadError}
    (h : decodeEach decoder elements s = .error e s') :
    ∃ before a after bs s₁, elements = before ++ a :: after ∧ decodeEach decoder before s = .ok bs s₁ ∧
      decoder a s₁ = .error e s' := by
  induction elements generalizing s with
  | nil => cases h
  | cons a elements ih =>
    rcases bind_eq_error_iff.mp h with hfirst | ⟨b, s₁, hb, hrest⟩
    · exact ⟨[], a, elements, [], s, rfl, rfl, hfirst⟩
    · rcases bind_eq_error_iff.mp hrest with hlater | ⟨bs, s₂, -, hpure⟩
      · obtain ⟨before, a', after, bs, s₂, rfl, hbefore, hfails⟩ := ih hlater
        exact ⟨a :: before, a', after, b :: bs, s₂, rfl,
          bind_eq_ok_iff.mpr ⟨b, s₁, hb, bind_eq_ok_iff.mpr ⟨bs, s₂, hbefore, rfl⟩⟩, hfails⟩
      · cases hpure

/-- Reading a number of things fails at one of them, behind those that were read. -/
theorem decodeMany_eq_error {decoder : Decoder α} {count : Nat} {s s' : Source} {e : ReadError}
    (h : decodeMany decoder count s = .error e s') :
    ∃ index < count, ∃ values s₁, decodeMany decoder index s = .ok values s₁ ∧ decoder s₁ = .error e s' := by
  rw [decodeMany_eq_each] at h
  obtain ⟨before, _, after, values, s₁, hsplit, hbefore, hfails⟩ := decodeEach_eq_error h
  obtain ⟨hlength, hreplicate, -⟩ := List.append_eq_replicate_iff.mp hsplit.symm
  rw [hreplicate, ← decodeMany_eq_each] at hbefore
  exact ⟨before.length, by rw [List.length_cons] at hlength; omega, values, s₁, hbefore, hfails⟩

/-- A body that is not read fails at a site of its message, and the error has the path of the site. -/
theorem failsAt_of_decodeBlocks {m : Message} {s s' : Source} {e : ReadError} (h : decodeBlocks m.blocks s = .error e s') :
    ∃ site ∈ m.sites, ∃ fault, e = .field site.path fault ∧ FailsAt m s fault s' site := by
  rw [decodeBlocks_eq_each] at h
  obtain ⟨before, b, after, body, s₁, hblocks, hbefore, hblock⟩ := decodeEach_eq_error h
  rw [← decodeBlocks_eq_each] at hbefore
  have hb : b ∈ m.blocks := hblocks ▸ List.mem_append_right before List.mem_cons_self
  rw [decodeBlock_eq] at hblock
  rcases bind_eq_error_iff.mp hblock with hcount | ⟨count, s₂, hcount, hmany⟩
  · obtain ⟨fault, hfails, rfl⟩ := within_eq_error_iff.mp hcount
    exact ⟨.block m b, Message.mem_sites_iff.mpr ⟨b, hb, .inl rfl⟩, fault, rfl, .count hblocks hbefore hfails⟩
  · obtain ⟨index, hindex, records, s₃, hrecords, hrecord⟩ := decodeMany_eq_error hmany
    rw [decodeFields_eq_each] at hrecord
    obtain ⟨front, f, back, values, s₄, hfields, hfront, hvalue⟩ := decodeEach_eq_error hrecord
    rw [← decodeFields_eq_each] at hfront
    obtain ⟨fault, hfails, rfl⟩ := within_eq_error_iff.mp hvalue
    have hf : f ∈ b.fields := hfields ▸ List.mem_append_right front List.mem_cons_self
    rw [within_eq, failingAs_eq_ok_iff] at hcount
    exact ⟨.field m b f, Message.mem_sites_iff.mpr ⟨b, hb, .inr ⟨f, hf, rfl⟩⟩, fault, rfl,
      .value hblocks hbefore hcount hindex hrecords hfields hfront hfails⟩

end MessageCatalog.Wire
