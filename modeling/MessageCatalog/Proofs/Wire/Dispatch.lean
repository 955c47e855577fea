import MessageCatalog.Proofs.Uniqueness
import MessageCatalog.Proofs.Wire.Identifier

/-!
# Which message is read

A catalog reads an identifier and then the body of the message that it names. In a valid template the numbers of
messages are distinct and each is the number of one row of bytes only, so a message is read exactly from its identifier
with a body of it behind.
-/

namespace MessageCatalog.Wire

variable {c : Catalog}

/-- A message is found by its number. -/
theorem ofNumber?_number (hdistinct : c.template.Distinct) {m : Message} (hm : m ∈ c.template.messages) :
    c.ofNumber? m.number = some m :=
  find?_key_eq_some hdistinct.numbers hm

/-- The body of a message with a codec is read behind its number. -/
theorem dispatch_eq {number : Nat} {m : Message} (hm : c.ofNumber? number = some m) (hcodec : c.hasCodec m = true) :
    c.dispatch number = do return ⟨m.name, ← decodeBlocks m.blocks⟩ := by
  simp only [Catalog.dispatch, hm, hcodec, if_true]

/-- A number of no message is refused before anything more is read. -/
theorem dispatch_unknown {number : Nat} (h : c.ofNumber? number = none) (s : Source) :
    c.dispatch number s = .error (.unknownNumber number) s := by
  simp only [Catalog.dispatch, h]
  rfl

/-- A message without a codec is refused before anything more is read. -/
theorem dispatch_unsupported {number : Nat} {m : Message} (hm : c.ofNumber? number = some m)
    (hcodec : c.hasCodec m = false) (s : Source) : c.dispatch number s = .error (.unsupported m.name) s := by
  simp only [Catalog.dispatch, hm, hcodec]
  rfl

/-- What a number leads to fails in three ways: no message has the number, its message has no codec, or the body is not read. -/
theorem dispatch_eq_error {number : Nat} {s s' : Source} {e : ReadError} (h : c.dispatch number s = .error e s') :
    (c.ofNumber? number = none ∧ e = .unknownNumber number) ∨
      (∃ m, c.ofNumber? number = some m ∧ c.hasCodec m = false ∧ e = .unsupported m.name) ∨
      ∃ m, c.ofNumber? number = some m ∧ c.hasCodec m = true ∧ decodeBlocks m.blocks s = .error e s' := by
  cases hm : c.ofNumber? number with
  | none =>
    rw [dispatch_unknown hm] at h
    cases h
    exact .inl ⟨rfl, rfl⟩
  | some m =>
    cases hcodec : c.hasCodec m with
    | false =>
      rw [dispatch_unsupported hm hcodec] at h
      cases h
      exact .inr (.inl ⟨m, rfl, hcodec, rfl⟩)
    | true =>
      rw [dispatch_eq hm hcodec] at h
      rcases bind_eq_error_iff.mp h with hbody | ⟨body, s₁, -, hpure⟩
      · exact .inr (.inr ⟨m, rfl, hcodec, hbody⟩)
      · cases hpure

/-- Reading the message of a number does not depend on the bytes behind. -/
theorem framed_dispatch (number : Nat) : Framed (c.dispatch number) := by
  unfold Catalog.dispatch
  split
  · exact framed_throw _
  split
  · exact (framed_decodeBlocks _).map _
  · exact framed_throw _

/-- What a number leads to is the body of the message that has it, if that has a codec. -/
theorem reads_dispatch_iff {number : Nat} {bytes : Bytes} {v : MessageValue} :
    Reads (c.dispatch number) bytes v ↔ ∃ m body, c.ofNumber? number = some m ∧ c.hasCodec m = true ∧
      Reads (decodeBlocks m.blocks) bytes body ∧ v = ⟨m.name, body⟩ := by
  constructor
  · intro h
    cases hm : c.ofNumber? number with
    | none =>
      simp only [Catalog.dispatch, hm] at h
      exact absurd h (not_reads_throw _)
    | some m =>
      cases hcodec : c.hasCodec m with
      | false =>
        simp only [Catalog.dispatch, hm, hcodec, Bool.false_eq_true, if_false] at h
        exact absurd h (not_reads_throw _)
      | true =>
        rw [dispatch_eq hm hcodec] at h
        obtain ⟨body, hbody, hv⟩ := h.of_map (framed_decodeBlocks m.blocks)
        exact ⟨m, body, rfl, hcodec, hbody, hv⟩
  · rintro ⟨m, body, hm, hcodec, hbody, rfl⟩
    rw [dispatch_eq hm hcodec]
    exact hbody.map _

/-- Reading a message is reading a number and then what it leads to. -/
theorem read_eq_bind : c.read = failingAs .source takeMessageNumber >>= c.dispatch := by
  funext s
  change _ = EStateM.bind _ _ s
  unfold Catalog.read EStateM.bind failingAs
  cases takeMessageNumber s <;> rfl

/-- Reading a message does not depend on the bytes behind. -/
theorem framed_read : Framed c.read := by
  rw [read_eq_bind]
  exact (framed_failingAs _ framed_takeMessageNumber).bind framed_dispatch

/-- In a valid template a message is read from its identifier and bytes of its body, and from nothing else. -/
theorem reads_read_iff (hvalid : c.template.Valid) {bytes : Bytes} {v : MessageValue} :
    Reads c.read bytes v ↔ ∃ m ∈ c.template.messages, c.hasCodec m = true ∧ ∃ rest body,
      bytes = m.identifier ++ rest ∧ Reads (decodeBlocks m.blocks) rest body ∧ v = ⟨m.name, body⟩ := by
  rw [read_eq_bind]
  constructor
  · intro h
    obtain ⟨number, front, rest, rfl, hnumber, hdispatch⟩ :=
      h.of_bind (framed_failingAs _ framed_takeMessageNumber) framed_dispatch
    obtain ⟨m, body, hfound, hcodec, hbody, hv⟩ := reads_dispatch_iff.mp hdispatch
    have hm := List.mem_of_find?_eq_some hfound
    obtain rfl : m.number = number := by simpa using List.find?_some hfound
    have hfront := eq_identifier_of_reads (hvalid.messages m hm).id (reads_failingAs_iff.mp hnumber)
    exact ⟨m, hm, hcodec, rest, body, by rw [hfront], hbody, hv⟩
  · rintro ⟨m, hm, hcodec, rest, body, rfl, hbody, hv⟩
    have hnumber : Reads (failingAs .source takeMessageNumber) m.identifier m.number :=
      reads_failingAs_iff.mpr (reads_identifier (hvalid.messages m hm).id)
    exact hnumber.bind (reads_dispatch_iff.mpr ⟨m, body, ofNumber?_number hvalid.distinct hm, hcodec, hbody, hv⟩)

end MessageCatalog.Wire
