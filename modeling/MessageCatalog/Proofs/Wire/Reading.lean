import MessageCatalog.Wire.Catalog

/-!
# Exact reads

A read is exact when it takes some bytes and nothing else: what stands behind them stays, and neither it nor the way the
source fails later has a part in the result (`Reads`). A computation is framed when it succeeds in no other way
(`Framed`). Both pass through sequences, so every reader of the wire format is framed, and an exact read of a sequence
falls apart into exact reads of its parts.
-/

namespace MessageCatalog.Wire

variable {ε α β : Type}

/-- The computation takes exactly the bytes and returns the value, whatever stands behind them. -/
def Reads (reader : EStateM ε Source α) (bytes : Bytes) (a : α) : Prop :=
  ∀ (tail : Bytes) (fault : SourceFault), reader ⟨bytes ++ tail, fault⟩ = .ok a ⟨tail, fault⟩

/-- Every success of the computation is an exact read of the bytes in front of what it leaves. -/
def Framed (reader : EStateM ε Source α) : Prop :=
  ∀ (s s' : Source) (a : α), reader s = .ok a s' → ∃ bytes, s = ⟨bytes ++ s'.pending, s'.fault⟩ ∧ Reads reader bytes a

/-! ## Sequences -/

/-- A sequence succeeds when its first part does and the second does with what that returned. -/
theorem bind_eq_ok_iff {reader : EStateM ε Source α} {next : α → EStateM ε Source β} {s s'' : Source} {b : β} :
    (reader >>= next) s = .ok b s'' ↔ ∃ a s', reader s = .ok a s' ∧ next a s' = .ok b s'' := by
  change EStateM.bind reader next s = .ok b s'' ↔ _
  unfold EStateM.bind
  cases reader s with
  | ok a s' =>
    refine ⟨fun h => ⟨a, s', rfl, h⟩, ?_⟩
    rintro ⟨a', s₁, he, h⟩
    obtain ⟨rfl, rfl⟩ : a = a' ∧ s' = s₁ := by simpa using he
    exact h
  | error fault s' => simp

/-- A sequence fails when its first part does, or the second does with what the first returned. -/
theorem bind_eq_error_iff {reader : EStateM ε Source α} {next : α → EStateM ε Source β} {s s'' : Source} {e : ε} :
    (reader >>= next) s = .error e s'' ↔
      reader s = .error e s'' ∨ ∃ a s', reader s = .ok a s' ∧ next a s' = .error e s'' := by
  change EStateM.bind reader next s = .error e s'' ↔ _
  unfold EStateM.bind
  cases reader s with
  | ok a s' =>
    simp only [reduceCtorEq, false_or]
    refine ⟨fun h => ⟨a, s', rfl, h⟩, ?_⟩
    rintro ⟨a', s₁, he, h⟩
    obtain ⟨rfl, rfl⟩ : a = a' ∧ s' = s₁ := by simpa using he
    exact h
  | error fault s' => simp

/-- What is known is read of no bytes. -/
theorem reads_pure (a : α) : Reads (pure a : EStateM ε Source α) [] a := by
  intro tail fault
  rfl

/-- What is known does not depend on the bytes behind. -/
theorem framed_pure (a : α) : Framed (pure a : EStateM ε Source α) := by
  intro s s' b h
  obtain ⟨rfl, rfl⟩ : a = b ∧ s = s' := by simpa [pure, EStateM.pure] using h
  exact ⟨[], rfl, reads_pure a⟩

/-- What fails at once is framed, as it never succeeds. -/
theorem framed_throw (e : ε) : Framed (throw e : EStateM ε Source α) := by
  intro s s' a h
  cases h

/-- What fails at once reads nothing. -/
theorem not_reads_throw (e : ε) {bytes : Bytes} {a : α} : ¬Reads (throw e : EStateM ε Source α) bytes a := by
  intro h
  cases h [] .ended

/-- A value that is returned without reading was read from no bytes. -/
theorem reads_pure_iff {a b : α} {bytes : Bytes} :
    Reads (pure a : EStateM ε Source α) bytes b ↔ bytes = [] ∧ b = a := by
  constructor
  · intro h
    have hrun : (.ok a ⟨bytes ++ [], .ended⟩ : EStateM.Result ε Source α) = .ok b ⟨[], .ended⟩ := h [] .ended
    simp only [List.append_nil, EStateM.Result.ok.injEq, Source.mk.injEq, and_true] at hrun
    exact ⟨hrun.2, hrun.1.symm⟩
  · rintro ⟨rfl, rfl⟩
    exact reads_pure b

/-- Exact reads in sequence are an exact read of the bytes one behind the other. -/
theorem Reads.bind {reader : EStateM ε Source α} {next : α → EStateM ε Source β} {front back : Bytes} {a : α} {b : β}
    (h : Reads reader front a) (h' : Reads (next a) back b) : Reads (reader >>= next) (front ++ back) b := by
  intro tail fault
  rw [List.append_assoc]
  exact bind_eq_ok_iff.mpr ⟨a, ⟨back ++ tail, fault⟩, h _ _, h' _ _⟩

/-- What is done to the value of an exact read does not read. -/
theorem Reads.map {reader : EStateM ε Source α} {bytes : Bytes} {a : α} (h : Reads reader bytes a) (f : α → β) :
    Reads (do return f (← reader)) bytes (f a) := by
  have hseq : Reads (reader >>= fun a => pure (f a)) (bytes ++ []) (f a) := h.bind (reads_pure (f a))
  rwa [List.append_nil] at hseq

/-- One reader and then another do not depend on the bytes behind if neither does. -/
theorem Framed.bind {reader : EStateM ε Source α} {next : α → EStateM ε Source β} (h : Framed reader)
    (h' : ∀ a, Framed (next a)) : Framed (reader >>= next) := by
  intro s s'' b hrun
  obtain ⟨a, s', h1, h2⟩ := bind_eq_ok_iff.mp hrun
  obtain ⟨front, rfl, hfront⟩ := h s s' a h1
  obtain ⟨back, rfl, hback⟩ := h' a s' s'' b h2
  exact ⟨front ++ back, by simp, hfront.bind hback⟩

/-- What is made of what is read does not depend on the bytes behind if the reading does not. -/
theorem Framed.map {reader : EStateM ε Source α} (h : Framed reader) (f : α → β) : Framed (do return f (← reader)) :=
  h.bind fun a => framed_pure (f a)

/-- An exact read of a sequence of framed computations falls apart into exact reads of its two parts. -/
theorem Reads.of_bind {reader : EStateM ε Source α} {next : α → EStateM ε Source β} {bytes : Bytes} {b : β}
    (h : Framed reader) (h' : ∀ a, Framed (next a)) (hr : Reads (reader >>= next) bytes b) :
    ∃ a front back, bytes = front ++ back ∧ Reads reader front a ∧ Reads (next a) back b := by
  obtain ⟨a, s', h1, h2⟩ := bind_eq_ok_iff.mp (hr [] .ended)
  obtain ⟨front, hs, hfront⟩ := h _ s' a h1
  obtain ⟨back, rfl, hback⟩ := h' a s' _ b h2
  simp only [List.append_nil, Source.mk.injEq, and_true] at hs
  exact ⟨a, front, back, hs, hfront, hback⟩

/-- An exact read of a framed computation with something done to its value. -/
theorem Reads.of_map {reader : EStateM ε Source α} {f : α → β} {bytes : Bytes} {b : β} (h : Framed reader)
    (hr : Reads (do return f (← reader)) bytes b) : ∃ a, Reads reader bytes a ∧ b = f a := by
  obtain ⟨a, front, back, rfl, hfront, hback⟩ := hr.of_bind h fun a => framed_pure (f a)
  obtain ⟨rfl, rfl⟩ := reads_pure_iff.mp hback
  exact ⟨a, by rwa [List.append_nil], rfl⟩

/-! ## Bytes and numbers -/

/-- As many bytes as are asked for are taken. -/
theorem reads_take {count : Nat} {bytes : Bytes} (h : bytes.length = count) : Reads (take count) bytes bytes := by
  intro tail fault
  subst h
  simp [take]

/-- Taking bytes does not depend on the bytes behind. -/
theorem framed_take (count : Nat) : Framed (take count) := by
  intro s s' front h
  simp only [take] at h
  split at h
  · rename_i hlen
    obtain ⟨rfl, rfl⟩ : s.pending.take count = front ∧ { s with pending := s.pending.drop count } = s' := by
      simpa using h
    exact ⟨s.pending.take count, by simp, reads_take hlen⟩
  · cases h

/-- Bytes are taken as they are, and in their number. -/
theorem reads_take_iff {count : Nat} {bytes front : Bytes} :
    Reads (take count) bytes front ↔ bytes.length = count ∧ front = bytes := by
  constructor
  · intro h
    have hrun := h [] .ended
    simp only [take, List.append_nil] at hrun
    split at hrun
    · rename_i hlen
      simp only [EStateM.Result.ok.injEq, Source.mk.injEq, List.drop_eq_nil_iff, and_true] at hrun
      rw [List.take_of_length_le hrun.2] at hlen hrun
      exact ⟨hlen, hrun.1.symm⟩
    · cases hrun
  · rintro ⟨hlen, rfl⟩
    exact reads_take hlen

/-- Taking a number does not depend on the bytes behind. -/
theorem framed_takeNumber (width : Nat) : Framed (takeNumber width) :=
  (framed_take width).map ofLittleEndian

/-- A number is read from a row of its width, which it is the number of. -/
theorem reads_takeNumber_iff {width n : Nat} {bytes : Bytes} :
    Reads (takeNumber width) bytes n ↔ bytes.length = width ∧ n = ofLittleEndian bytes := by
  constructor
  · intro h
    obtain ⟨front, hfront, rfl⟩ := h.of_map (framed_take width)
    obtain ⟨hlen, rfl⟩ := reads_take_iff.mp hfront
    exact ⟨hlen, rfl⟩
  · rintro ⟨hlen, rfl⟩
    exact (reads_take hlen).map ofLittleEndian

/-- Taking numbers does not depend on the bytes behind. -/
theorem framed_takeNumbers (width count : Nat) : Framed (takeNumbers width count) := by
  induction count with
  | zero => exact framed_pure []
  | succ count ih => exact (framed_takeNumber width).bind fun n => ih.map (n :: ·)

/-- Taking a value does not depend on the bytes behind. -/
theorem framed_takeValue (layout : Layout) : Framed (takeValue layout) := by
  cases layout with
  | unsigned width => exact (framed_takeNumber width).map _
  | signed width => exact (framed_takeNumber width).map _
  | words width count => exact (framed_takeNumbers width count).map _
  | rotation =>
    exact (framed_takeNumber 4).bind fun i => (framed_takeNumber 4).bind fun j => (framed_takeNumber 4).map _
  | flag => exact (framed_takeNumber 1).map _
  | counted width => exact (framed_takeNumber width.size).bind fun length => (framed_take length).map _
  | raw size => exact (framed_take size).map _

/-! ## Records, blocks and bodies -/

/-- Takes something, and reports a fault of the source as an error of the message. -/
def failingAs (report : SourceFault → ReadError) (taking : Take α) : Decoder α := fun s =>
  match taking s with
  | .ok a rest => .ok a rest
  | .error fault rest => .error (report fault) rest

/-- How a failure is reported does not matter for a success. -/
theorem failingAs_eq_ok_iff {report : SourceFault → ReadError} {taking : Take α} {s s' : Source} {a : α} :
    failingAs report taking s = .ok a s' ↔ taking s = .ok a s' := by
  unfold failingAs
  cases taking s <;> simp

/-- How a failure is reported does not matter for what is read. -/
theorem reads_failingAs_iff {report : SourceFault → ReadError} {taking : Take α} {bytes : Bytes} {a : α} :
    Reads (failingAs report taking) bytes a ↔ Reads taking bytes a :=
  forall_congr' fun _ => forall_congr' fun _ => failingAs_eq_ok_iff

/-- How a failure is reported does not matter for whether a reading depends on the bytes behind. -/
theorem framed_failingAs (report : SourceFault → ReadError) {taking : Take α} (h : Framed taking) :
    Framed (failingAs report taking) := by
  intro s s' a hrun
  obtain ⟨bytes, hs, hbytes⟩ := h s s' a (failingAs_eq_ok_iff.mp hrun)
  exact ⟨bytes, hs, reads_failingAs_iff.mpr hbytes⟩

/-- At a place, a fault of the source is reported with the place. -/
theorem within_eq (place : String) (taking : Take α) : within place taking = failingAs (.field place) taking := by
  funext s
  unfold within failingAs
  cases taking s <;> rfl

/-- What is read at a place is what is read. -/
theorem reads_within_iff {place : String} {taking : Take α} {bytes : Bytes} {a : α} :
    Reads (within place taking) bytes a ↔ Reads taking bytes a :=
  within_eq place taking ▸ reads_failingAs_iff

/-- Reading at a place does not depend on the bytes behind if the reading does not. -/
theorem framed_within (place : String) {taking : Take α} (h : Framed taking) : Framed (within place taking) :=
  within_eq place taking ▸ framed_failingAs _ h

/-- Reading a number of things does not depend on the bytes behind if reading one does not. -/
theorem framed_decodeMany {decoder : Decoder α} (h : Framed decoder) (count : Nat) : Framed (decodeMany decoder count) := by
  induction count with
  | zero => exact framed_pure []
  | succ count ih => exact h.bind fun a => ih.map (a :: ·)

/-- Reading a record does not depend on the bytes behind. -/
theorem framed_decodeFields (b : Block) (fields : List Field) : Framed (decodeFields b fields) := by
  induction fields with
  | nil => exact framed_pure []
  | cons f fields ih => exact (framed_within _ (framed_takeValue _)).bind fun v => ih.map (v :: ·)

/-- Reading a block does not depend on the bytes behind. -/
theorem framed_decodeBlock (b : Block) : Framed (decodeBlock b) := by
  have hrecord := framed_decodeFields b b.fields
  unfold decodeBlock
  split
  · exact framed_decodeMany hrecord 1
  · exact framed_decodeMany hrecord _
  · exact (framed_within _ (framed_takeNumber 1)).bind fun count => framed_decodeMany hrecord count

/-- Reading a body does not depend on the bytes behind. -/
theorem framed_decodeBlocks (blocks : List Block) : Framed (decodeBlocks blocks) := by
  induction blocks with
  | nil => exact framed_pure []
  | cons b blocks ih => exact (framed_decodeBlock b).bind fun records => ih.map (records :: ·)

end MessageCatalog.Wire
