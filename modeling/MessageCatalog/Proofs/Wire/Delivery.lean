import MessageCatalog.Proofs.Wire.RoundTrip

/-!
# What a sink takes of a message

A message is encoded as a whole before anything is handed to the sink, so a message that cannot be encoded does not
reach it. The bytes of any other message are handed over call by call (`Hands`): each call takes a piece of those that
are left, and one that takes nothing is the last. In whatever pieces a sink takes them, it gets the bytes in front up to
its limit, and all of them exactly if it takes something by a call and has no smaller limit.
-/

namespace MessageCatalog.Wire

/-! ## Calls to a sink -/

/-- Bytes are handed to a sink call by call. Each call takes a piece of what is left, no longer than the sink takes by a
call and in all; only a sink that takes nothing by a call, or nothing more in all, may take nothing, and there is no
call behind such a one. The last argument tells whether all bytes were taken. -/
inductive Hands : Sink → Bytes → List Bytes → Bool → Prop where
  | done {s : Sink} : Hands s [] [] true
  | refused {s : Sink} {left : Bytes} (hleft : left ≠ []) (hfull : s.chunk = some 0 ∨ s.limit = some 0) : Hands s left [[]] false
  | took {s : Sink} {piece left : Bytes} {pieces : List Bytes} {complete : Bool} (hpiece : piece ≠ [])
      (hchunk : ∀ chunk ∈ s.chunk, piece.length ≤ chunk) (hlimit : ∀ limit ∈ s.limit, piece.length ≤ limit)
      (hrest : Hands (s.afterTaking piece.length) left pieces complete) : Hands s (piece ++ left) (piece :: pieces) complete

namespace Sink

/-- The sink takes something by a call, and a number of bytes in all. -/
def Admits (s : Sink) (count : Nat) : Prop :=
  (∀ chunk ∈ s.chunk, 0 < chunk) ∧ ∀ limit ∈ s.limit, count ≤ limit

/-- How many bytes the sink takes when a number of them is handed to it: none if it takes nothing by a call, and those
up to its limit otherwise. -/
def capacity (s : Sink) (count : Nat) : Nat :=
  if s.chunk = some 0 then 0
  else match s.limit with
  | none => count
  | some limit => min limit count

/-- A sink takes no more than it is offered. -/
theorem capacity_le (s : Sink) (count : Nat) : s.capacity count ≤ count := by
  unfold capacity
  split
  · exact Nat.zero_le count
  · split
    · exact Nat.le_refl count
    · exact Nat.min_le_right _ _

/-- A sink that takes no bytes at a time or at all takes none. -/
theorem capacity_of_full {s : Sink} (h : s.chunk = some 0 ∨ s.limit = some 0) (count : Nat) : s.capacity count = 0 := by
  unfold capacity
  rcases h with hchunk | hlimit
  · rw [if_pos hchunk]
  · simp [hlimit]

/-- A sink takes all that it is offered exactly if it admits that many. -/
theorem capacity_eq_iff {s : Sink} {count : Nat} (h : 0 < count) : s.capacity count = count ↔ s.Admits count := by
  unfold capacity Admits
  constructor
  · intro hcount
    split at hcount
    · omega
    · rename_i hchunk
      refine ⟨fun chunk hc => Nat.pos_of_ne_zero fun h0 => hchunk (h0 ▸ hc), fun limit hl => ?_⟩
      rw [Option.mem_def.mp hl] at hcount
      simp only at hcount
      omega
  · rintro ⟨hchunk, hlimit⟩
    have hne : s.chunk ≠ some 0 := fun h0 => Nat.lt_irrefl 0 (hchunk 0 h0)
    rw [if_neg hne]
    cases hl : s.limit with
    | none => rfl
    | some limit => exact Nat.min_eq_right (hlimit limit hl)

/-- What is left of the capacity when a piece was taken. -/
theorem capacity_afterTaking {s : Sink} {taken : Nat} (htaken : 0 < taken) (hchunk : ∀ chunk ∈ s.chunk, taken ≤ chunk)
    (hlimit : ∀ limit ∈ s.limit, taken ≤ limit) (count : Nat) :
    s.capacity (taken + count) = taken + (s.afterTaking taken).capacity count := by
  have hne : s.chunk ≠ some 0 := by
    intro h0
    have := hchunk 0 h0
    omega
  unfold capacity afterTaking
  rw [if_neg hne, if_neg hne]
  cases hl : s.limit with
  | none => rfl
  | some limit =>
    have := hlimit limit hl
    simp only [Option.map_some]
    omega

end Sink

/-- In whatever pieces a sink takes the bytes, together they are those in front up to its capacity. -/
theorem Hands.flatten_eq {s : Sink} {bytes : Bytes} {pieces : List Bytes} {complete : Bool} (h : Hands s bytes pieces complete) :
    pieces.flatten = bytes.take (s.capacity bytes.length) := by
  induction h with
  | done => simp
  | refused _ hfull => simp [Sink.capacity_of_full hfull]
  | @took s piece left pieces complete hpiece hchunk hlimit _ ih =>
    rw [List.flatten_cons, ih, List.length_append, Sink.capacity_afterTaking (List.length_pos_iff.mpr hpiece) hchunk hlimit,
      List.take_length_add_append]

/-- All bytes were taken exactly if there is capacity for all of them. -/
theorem Hands.complete_iff {s : Sink} {bytes : Bytes} {pieces : List Bytes} {complete : Bool}
    (h : Hands s bytes pieces complete) : complete = true ↔ s.capacity bytes.length = bytes.length := by
  induction h with
  | done => simp [Nat.le_zero.mp (Sink.capacity_le _ 0)]
  | refused hleft hfull =>
    have hpos := List.length_pos_iff.mpr hleft
    rw [Sink.capacity_of_full hfull]
    simp only [Bool.false_eq_true, false_iff]
    omega
  | @took s piece left pieces complete hpiece hchunk hlimit _ ih =>
    rw [ih, List.length_append, Sink.capacity_afterTaking (List.length_pos_iff.mpr hpiece) hchunk hlimit]
    omega

/-! ## The calls that are made -/

/-- What a sink takes at a time is the front of what it is offered. -/
theorem Sink.front_isPrefix (s : Sink) (bytes : Bytes) : s.front bytes <+: bytes := by
  unfold Sink.front
  split
  · exact List.prefix_refl _
  · exact List.take_prefix _ _
  · exact List.take_prefix _ _
  · exact List.take_prefix _ _

/-- A call takes as many bytes as there are, as the sink takes by a call, and as are left of its limit. -/
theorem Sink.length_front (s : Sink) (bytes : Bytes) :
    (s.front bytes).length = min (min (s.chunk.getD bytes.length) (s.limit.getD bytes.length)) bytes.length := by
  obtain ⟨chunk, limit⟩ := s
  cases chunk <;> cases limit <;> simp only [Sink.front, List.length_take, Option.getD_none, Option.getD_some] <;> omega

/-- What a sink takes at a time keeps to its limits. -/
theorem Sink.length_front_le (s : Sink) (bytes : Bytes) :
    (∀ chunk ∈ s.chunk, (s.front bytes).length ≤ chunk) ∧ ∀ limit ∈ s.limit, (s.front bytes).length ≤ limit := by
  rw [s.length_front bytes]
  constructor
  · intro chunk hchunk
    rw [Option.mem_def.mp hchunk, Option.getD_some]
    omega
  · intro limit hlimit
    rw [Option.mem_def.mp hlimit, Option.getD_some]
    omega

/-- A call takes nothing of some bytes only if the sink takes nothing by a call or has nothing left of its limit. -/
theorem Sink.full_of_front_eq_nil {s : Sink} {bytes : Bytes} (hbytes : bytes ≠ []) (h : s.front bytes = []) :
    s.chunk = some 0 ∨ s.limit = some 0 := by
  have hpos := List.length_pos_iff.mpr hbytes
  have hlength := s.length_front bytes
  rw [h, List.length_nil] at hlength
  have hzero : s.chunk.getD bytes.length = 0 ∨ s.limit.getD bytes.length = 0 := by omega
  have hsome : ∀ bound : Option Nat, bound.getD bytes.length = 0 → bound = some 0 := by
    intro bound hbound
    cases bound with
    | none => exact absurd hbound (Nat.ne_of_gt hpos)
    | some n => exact congrArg some hbound
  rcases hzero with hchunk | hlimit
  · exact .inl (hsome _ hchunk)
  · exact .inr (hsome _ hlimit)

/-- The calls that are made hand the bytes over in the pieces that the sink takes. -/
theorem hands_deliver (s : Sink) (bytes : Bytes) :
    ∃ pieces, Hands s bytes pieces (s.deliver bytes).complete ∧ (s.deliver bytes).calls = pieces.map List.length := by
  fun_induction Sink.deliver s bytes with
  | case1 s bytes hempty =>
    obtain rfl := List.isEmpty_iff.mp hempty
    exact ⟨[], .done, rfl⟩
  | case2 s bytes hne count hzero =>
    have hbytes : bytes ≠ [] := fun h => hne (List.isEmpty_iff.mpr h)
    exact ⟨[[]], .refused hbytes (Sink.full_of_front_eq_nil hbytes (List.length_eq_zero_iff.mp hzero)), rfl⟩
  | case3 s bytes hne count hcount rest ih =>
    obtain ⟨pieces, hhands, hcalls⟩ := ih
    obtain ⟨hchunk, hlimit⟩ := s.length_front_le bytes
    have hpiece : s.front bytes ≠ [] := fun h => hcount (List.length_eq_zero_iff.mpr h)
    have hsplit : s.front bytes ++ bytes.drop count = bytes := List.prefix_iff_eq_append.mp (s.front_isPrefix bytes)
    refine ⟨s.front bytes :: pieces, ?_, by rw [List.map_cons, hcalls]⟩
    have htook : Hands s (s.front bytes ++ bytes.drop count) (s.front bytes :: pieces) rest.complete :=
      .took hpiece hchunk hlimit hhands
    rwa [hsplit] at htook

/-- The lengths of the pieces add up to that of the whole. -/
theorem foldl_lengths (pieces : List Bytes) (start : Nat) :
    (pieces.map List.length).foldl (· + ·) start = start + pieces.flatten.length := by
  induction pieces generalizing start with
  | nil => rfl
  | cons piece pieces ih => rw [List.map_cons, List.foldl_cons, ih, List.flatten_cons, List.length_append, Nat.add_assoc]

/-! ## Writing a message -/

namespace Catalog

variable (c : Catalog) {m : Message} {body : Body}

/-- A message without a codec is refused, and the sink is not called. -/
theorem write_of_noCodec (h : c.hasCodec m = false) (sink : Sink) :
    c.write m body sink = ⟨[], [], some (.unsupported m.name)⟩ := by
  simp [write, h]

/-- A message that cannot be encoded fails as the encoding does, and the sink is not called. -/
theorem write_of_error (h : c.hasCodec m = true) {error : WriteError} (he : toBytes m body = .error error) (sink : Sink) :
    c.write m body sink = ⟨[], [], some error⟩ := by
  simp [write, writeMessage, h, he]

/-- A message with bytes is handed to the sink, which gets those up to its capacity. -/
theorem write_of_ok (h : c.hasCodec m = true) {bytes : Bytes} (he : toBytes m body = .ok bytes) (sink : Sink) :
    ∃ pieces, Hands sink bytes pieces (c.write m body sink).error.isNone ∧
      (c.write m body sink).calls = pieces.map List.length ∧ (c.write m body sink).bytes = pieces.flatten ∧
      ∀ error ∈ (c.write m body sink).error, error = .sinkFull := by
  obtain ⟨pieces, hhands, hcalls⟩ := hands_deliver sink bytes
  have hwrite : c.write m body sink = ⟨(sink.deliver bytes).calls, bytes.take ((sink.deliver bytes).calls.foldl (· + ·) 0),
      if (sink.deliver bytes).complete then none else some .sinkFull⟩ := by
    simp only [write, writeMessage, h, if_true, he]
  refine ⟨pieces, ?_, by rw [hwrite, hcalls], ?_, ?_⟩
  · cases hcomplete : (sink.deliver bytes).complete <;> simpa [hwrite, hcomplete] using hhands
  · have htaken := hhands.flatten_eq
    rw [hwrite, hcalls, foldl_lengths, Nat.zero_add, htaken, List.length_take, Nat.min_eq_left (Sink.capacity_le _ _)]
  · rw [hwrite]
    intro error herror
    cases hcomplete : (sink.deliver bytes).complete <;> simp_all

end Catalog

/-- What comes of handing bytes to a sink: the bytes it took, in the calls that were made or in any other pieces that it
may take them in; they are the bytes in front, and all of them exactly if there is no error and exactly if the sink
admits all; otherwise there is an error of the sink, and it took the bytes up to its capacity. -/
structure Delivered (sink : Sink) (bytes : Bytes) (w : Written) : Prop where
  byCalls : ∃ pieces, Hands sink bytes pieces w.error.isNone ∧ w.calls = pieces.map List.length ∧ w.bytes = pieces.flatten
  inAnyPieces : ∀ pieces complete, Hands sink bytes pieces complete → pieces.flatten = w.bytes ∧ complete = w.error.isNone
  isPrefix : w.bytes <+: bytes
  error_eq_none_iff : w.error = none ↔ w.bytes = bytes
  bytes_eq_iff : w.bytes = bytes ↔ sink.Admits bytes.length
  otherwise : ¬sink.Admits bytes.length → w.error = some .sinkFull ∧ w.bytes = bytes.take (sink.capacity bytes.length)

/-- A message has at least one byte. -/
theorem length_toBytes_pos {m : Message} {body : Body} {bytes : Bytes} (he : toBytes m body = .ok bytes) : 0 < bytes.length := by
  obtain ⟨rest, -, rfl⟩ := toBytes_eq_ok_iff.mp he
  have hidentifier : 0 < m.identifier.length := by
    unfold Message.identifier
    cases m.frequency <;> exact Nat.succ_pos _
  rw [List.length_append]
  omega

/-- A message that is encoded is delivered in calls to the sink. -/
theorem Catalog.delivered_write (c : Catalog) {m : Message} {body : Body} (h : c.hasCodec m = true) {bytes : Bytes}
    (he : toBytes m body = .ok bytes) (sink : Sink) : Delivered sink bytes (c.write m body sink) := by
  obtain ⟨pieces, hhands, hcalls, hbytes, herror⟩ := c.write_of_ok h he sink
  generalize c.write m body sink = w at hhands hcalls hbytes herror ⊢
  have hadmits := Sink.capacity_eq_iff (s := sink) (length_toBytes_pos he)
  have hcomplete := hhands.complete_iff
  have htaken : w.bytes = bytes.take (sink.capacity bytes.length) := hbytes.trans hhands.flatten_eq
  have hall : w.bytes = bytes ↔ sink.capacity bytes.length = bytes.length := by
    have hle := sink.capacity_le bytes.length
    rw [htaken, List.take_eq_self_iff]
    omega
  refine ⟨⟨pieces, hhands, hcalls, hbytes⟩, ?_, htaken ▸ List.take_prefix _ _, ?_, hall.trans hadmits, ?_⟩
  · intro pieces' complete' hhands'
    refine ⟨by rw [hhands'.flatten_eq, htaken], ?_⟩
    rw [Bool.eq_iff_iff, hhands'.complete_iff, hcomplete]
  · rw [hall, ← hcomplete, Option.isNone_iff_eq_none]
  · intro hnot
    refine ⟨?_, htaken⟩
    cases hfault : w.error with
    | none =>
      rw [← hadmits, ← hcomplete, hfault] at hnot
      exact absurd rfl hnot
    | some error => rw [herror error hfault]

/-- Writing to a sink delivers the front of a message, and nothing of one that cannot be encoded. A message without a
codec and one that cannot be encoded make no call to the sink, and the error says so. Any other message is handed to it
call by call: it gets the front of the bytes of the message, and all of them exactly if the message is written without
an error. -/
theorem write_delivers_front (c : Catalog) (m : Message) (body : Body) (sink : Sink) :
    (c.hasCodec m = false → c.write m body sink = ⟨[], [], some (.unsupported m.name)⟩) ∧
    (c.hasCodec m = true → ∀ error, toBytes m body = .error error → c.write m body sink = ⟨[], [], some error⟩) ∧
    (c.hasCodec m = true → ∀ bytes, toBytes m body = .ok bytes → Delivered sink bytes (c.write m body sink)) :=
  ⟨fun h => c.write_of_noCodec h sink, fun h _ he => c.write_of_error h he sink, fun h _ he => c.delivered_write h he sink⟩

/-- A sink of ten bytes gets the first ten bytes of a message, and none of a message without a codec. -/
theorem write_delivers_front_sample : Catalog.hasCodec ⟨sampleTemplate, []⟩ sampleMove = true ∧
    toBytes sampleMove sampleBody = .ok sampleBytes ∧ ¬Sink.Admits ⟨some 3, some 10⟩ sampleBytes.length ∧
    (Catalog.write ⟨sampleTemplate, []⟩ sampleMove sampleBody ⟨some 3, some 10⟩).bytes = sampleBytes.take 10 ∧
    Catalog.hasCodec ⟨sampleTemplate, ["LLQuaternion"]⟩ sampleMove = false ∧
    Catalog.write ⟨sampleTemplate, ["LLQuaternion"]⟩ sampleMove sampleBody .unlimited = ⟨[], [], some (.unsupported "Move")⟩ := by
  have hcodec : Catalog.hasCodec ⟨sampleTemplate, []⟩ sampleMove = true := by decide +kernel
  have hnone : Catalog.hasCodec ⟨sampleTemplate, ["LLQuaternion"]⟩ sampleMove = false := by decide +kernel
  have hfull : ¬Sink.Admits ⟨some 3, some 10⟩ sampleBytes.length := fun h => absurd (h.2 10 rfl) (by decide)
  have hdelivered :=
    (write_delivers_front ⟨sampleTemplate, []⟩ sampleMove sampleBody ⟨some 3, some 10⟩).2.2 hcodec _ toBytes_sampleBody
  exact ⟨hcodec, toBytes_sampleBody, hfull, (hdelivered.otherwise hfull).2, hnone,
    (write_delivers_front ⟨sampleTemplate, ["LLQuaternion"]⟩ sampleMove sampleBody .unlimited).1 hnone⟩

end MessageCatalog.Wire
