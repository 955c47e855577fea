import MessageCatalog.Proofs.Wire.Canonical

/-!
# Sources that fail inside a message

A source that fails before the end of a message makes the read fail there: all that it delivered is taken, and the error
names what the next byte would have belonged to. Which bytes belong to what is said by stretches, one for the count of a
block of varying length and one for each field of each record, in the order of the wire; their lengths depend on the
value that the whole message is read as.
-/

namespace MessageCatalog.Wire

variable {ε α β : Type}

/-! ## Stretches -/

/-- Bytes of a message that stand together: the place they belong to, and their number. -/
structure Stretch where
  place : String
  length : Nat
  deriving DecidableEq, Repr

/-- The number of bytes of some stretches. -/
def totalLength : List Stretch → Nat
  | [] => 0
  | s :: rest => s.length + totalLength rest

/-- The place that the byte at an offset belongs to. -/
def placeAt : List Stretch → Nat → Option String
  | [], _ => none
  | s :: rest, offset => if offset < s.length then some s.place else placeAt rest (offset - s.length)

/-- The stretches of a record at a place: one for each field, the length in front of a variable one included. -/
def recordStretches (place : String) : List Field → Record → List Stretch
  | f :: fields, v :: values => ⟨place ++ "." ++ f.name, valueLength f.type.layout v⟩ :: recordStretches place fields values
  | _, _ => []

/-- The stretches of the records of a block: if their count is sent along, it belongs to the block. -/
def blockStretches (message : String) (b : Block) (records : List Record) : List Stretch :=
  let place := message ++ "." ++ b.name
  match b.quantity with
  | .varying => ⟨place, 1⟩ :: records.flatMap (recordStretches place b.fields)
  | _ => records.flatMap (recordStretches place b.fields)

/-- The stretches of the body of a message. -/
def bodyStretches (message : String) : List Block → Body → List Stretch
  | b :: blocks, records :: body => blockStretches message b records ++ bodyStretches message blocks body
  | _, _ => []

/-- The lengths of two rows of stretches add up. -/
theorem totalLength_append (s s' : List Stretch) : totalLength (s ++ s') = totalLength s + totalLength s' := by
  induction s with
  | nil => simp [totalLength]
  | cons a s ih => simp [totalLength, ih, Nat.add_assoc]

/-- An offset inside the first stretches has its place there. -/
theorem placeAt_append_of_lt {s s' : List Stretch} {k : Nat} (h : k < totalLength s) : placeAt (s ++ s') k = placeAt s k := by
  induction s generalizing k with
  | nil => simp [totalLength] at h
  | cons a s ih =>
    simp only [List.cons_append, placeAt]
    by_cases ha : k < a.length
    · rw [if_pos ha, if_pos ha]
    · rw [if_neg ha, if_neg ha, ih (by simp only [totalLength] at h; omega)]

/-- An offset behind the first stretches has its place in those that follow. -/
theorem placeAt_append_of_le {s s' : List Stretch} {k : Nat} (h : totalLength s ≤ k) :
    placeAt (s ++ s') k = placeAt s' (k - totalLength s) := by
  induction s generalizing k with
  | nil => simp [totalLength]
  | cons a s ih =>
    simp only [totalLength] at h ⊢
    rw [List.cons_append, placeAt, if_neg (by omega), ih (by omega), Nat.sub_sub]

/-! ## Failing inside the bytes of an exact read -/

/-- A sequence fails as its first part does. -/
theorem bind_of_error {reader : EStateM ε Source α} (next : α → EStateM ε Source β) {s s' : Source} {e : ε}
    (h : reader s = .error e s') : (reader >>= next) s = .error e s' := by
  change EStateM.bind reader next s = _
  rw [EStateM.bind, h]

/-- A sequence goes on behind the bytes that its first part reads. -/
theorem bind_of_reads {reader : EStateM ε Source α} (next : α → EStateM ε Source β) {front : Bytes} {a : α}
    (h : Reads reader front a) (tail : Bytes) (fault : SourceFault) :
    (reader >>= next) ⟨front ++ tail, fault⟩ = next a ⟨tail, fault⟩ := by
  change EStateM.bind reader next _ = _
  rw [EStateM.bind, h]

/-- The computation fails with the fault of the source when that fails anywhere inside the bytes, and it has taken all
there was. -/
def Stops (taking : Take α) (bytes : Bytes) : Prop :=
  ∀ k < bytes.length, ∀ fault, taking ⟨bytes.take k, fault⟩ = .error fault ⟨[], fault⟩

/-- The computation stops inside the bytes of each of its exact reads. -/
def Strict (taking : Take α) : Prop :=
  ∀ (bytes : Bytes) (a : α), Reads taking bytes a → Stops taking bytes

/-- A sequence stops inside its bytes if both parts stop inside theirs. -/
theorem Stops.bind {taking : Take α} {next : α → Take β} {front back : Bytes} {a : α} (hr : Reads taking front a)
    (h : Stops taking front) (h' : Stops (next a) back) : Stops (taking >>= next) (front ++ back) := by
  intro k hk fault
  by_cases hfront : k < front.length
  · rw [List.take_append_of_le_length (Nat.le_of_lt hfront)]
    exact bind_of_error next (h k hfront fault)
  · rw [List.take_append, List.take_of_length_le (Nat.le_of_not_lt hfront), bind_of_reads next hr]
    rw [List.length_append] at hk
    exact h' (k - front.length) (by omega) fault

/-- There is nothing to stop inside of where nothing is taken. -/
theorem strict_pure (a : α) : Strict (pure a : Take α) := by
  intro bytes b h k hk
  obtain ⟨rfl, -⟩ := reads_pure_iff.mp h
  cases hk

/-- A sequence of strict readers is strict. -/
theorem Strict.bind {taking : Take α} {next : α → Take β} (hf : Framed taking) (hf' : ∀ a, Framed (next a)) (h : Strict taking)
    (h' : ∀ a, Strict (next a)) : Strict (taking >>= next) := by
  intro bytes b hr
  obtain ⟨a, front, back, rfl, hfront, hback⟩ := hr.of_bind hf hf'
  exact (h front a hfront).bind hfront (h' a back b hback)

/-- What is made of what a strict reader takes is taken strictly. -/
theorem Strict.map {taking : Take α} (hf : Framed taking) (h : Strict taking) (f : α → β) : Strict (do return f (← taking)) :=
  Strict.bind hf (fun a => framed_pure (f a)) h fun a => strict_pure (f a)

/-- Taking bytes is strict. -/
theorem strict_take (count : Nat) : Strict (take count) := by
  intro bytes front h k hk fault
  obtain ⟨rfl, -⟩ := reads_take_iff.mp h
  have hshort : ¬((bytes.take k).take bytes.length).length = bytes.length := by
    rw [List.length_take, List.length_take]
    omega
  rw [take, if_neg hshort]

/-- Taking a number is strict. -/
theorem strict_takeNumber (width : Nat) : Strict (takeNumber width) :=
  (strict_take width).map (framed_take width) ofLittleEndian

/-- Taking numbers is strict. -/
theorem strict_takeNumbers (width count : Nat) : Strict (takeNumbers width count) := by
  induction count with
  | zero => exact strict_pure []
  | succ count ih =>
    exact (strict_takeNumber width).bind (framed_takeNumber width) (fun n => (framed_takeNumbers width count).map (n :: ·))
      fun n => ih.map (framed_takeNumbers width count) (n :: ·)

/-- A value stops inside its bytes, also between the parts that it is read in. -/
theorem strict_takeValue (layout : Layout) : Strict (takeValue layout) := by
  cases layout with
  | unsigned width => exact (strict_takeNumber width).map (framed_takeNumber width) _
  | signed width => exact (strict_takeNumber width).map (framed_takeNumber width) _
  | words width count => exact (strict_takeNumbers width count).map (framed_takeNumbers width count) _
  | rotation =>
    have hf := framed_takeNumber 4
    have hs := strict_takeNumber 4
    exact hs.bind hf (fun i => hf.bind fun j => hf.map _) fun i => hs.bind hf (fun j => hf.map _) fun j => hs.map hf _
  | flag => exact (strict_takeNumber 1).map (framed_takeNumber 1) _
  | counted width =>
    exact (strict_takeNumber width.size).bind (framed_takeNumber width.size) (fun length => (framed_take length).map _)
      fun length => (strict_take length).map (framed_take length) _
  | raw size => exact (strict_take size).map (framed_take size) _

/-- Taking more behind a marker is strict if taking more is. -/
theorem strict_atMarker {next : Take Nat} (h : Strict next) (n value : Nat) : Strict (if n ≠ 0xFF then pure value else next) := by
  split
  · exact strict_pure _
  · exact h

/-- An identifier stops inside its bytes, also behind a marker. -/
theorem strict_takeMessageNumber : Strict takeMessageNumber := by
  have hone := framed_takeNumber 1
  have htwo : Strict takeBehindTwoMarkers := (strict_take 2).map (framed_take 2) _
  have hbehind : Strict takeBehindMarker :=
    (strict_takeNumber 1).bind hone (fun second => framed_atMarker framed_takeBehindTwoMarkers second (0xFF00 + second))
      fun second => strict_atMarker htwo second (0xFF00 + second)
  exact (strict_takeNumber 1).bind hone (fun first => framed_atMarker framed_takeBehindMarker first first)
    fun first => strict_atMarker hbehind first first

/-! ## The place that is named -/

/-- When the source fails anywhere inside the bytes, so does the computation: it names the place of the byte that did
not come, and it has taken all there was. -/
structure Blames (decoder : Decoder α) (bytes : Bytes) (stretches : List Stretch) : Prop where
  length : totalLength stretches = bytes.length
  fails : ∀ k < bytes.length, ∀ fault, ∃ place, placeAt stretches k = some place ∧
    decoder ⟨bytes.take k, fault⟩ = .error (.field place fault) ⟨[], fault⟩

/-- Where nothing is taken there is no place to name. -/
theorem blames_pure (a : α) : Blames (pure a : Decoder α) [] [] where
  length := rfl
  fails := fun _ hk => by cases hk

/-- A sequence names the places of its first part and then those of its second part. -/
theorem Blames.bind {decoder : Decoder α} {next : α → Decoder β} {front back : Bytes} {a : α} {s s' : List Stretch}
    (hr : Reads decoder front a) (h : Blames decoder front s) (h' : Blames (next a) back s') :
    Blames (decoder >>= next) (front ++ back) (s ++ s') where
  length := by rw [totalLength_append, List.length_append, h.length, h'.length]
  fails := by
    intro k hk fault
    by_cases hfront : k < front.length
    · obtain ⟨place, hplace, herror⟩ := h.fails k hfront fault
      rw [List.take_append_of_le_length (Nat.le_of_lt hfront), placeAt_append_of_lt (by rwa [h.length])]
      exact ⟨place, hplace, bind_of_error next herror⟩
    · rw [List.length_append] at hk
      obtain ⟨place, hplace, herror⟩ := h'.fails (k - front.length) (by omega) fault
      rw [List.take_append, List.take_of_length_le (Nat.le_of_not_lt hfront), bind_of_reads next hr,
        placeAt_append_of_le (by rw [h.length]; exact Nat.le_of_not_lt hfront), h.length]
      exact ⟨place, hplace, herror⟩

/-- What is made of what is read names the places of the reading. -/
theorem Blames.map {decoder : Decoder α} {bytes : Bytes} {a : α} {s : List Stretch} (hr : Reads decoder bytes a)
    (h : Blames decoder bytes s) (f : α → β) : Blames (do return f (← decoder)) bytes s := by
  have hseq : Blames (decoder >>= fun a => pure (f a)) (bytes ++ []) (s ++ []) := h.bind hr (blames_pure (f a))
  rwa [List.append_nil, List.append_nil] at hseq

/-- All bytes of what is read at a place belong to the place. -/
theorem blames_within (place : String) {taking : Take α} {bytes : Bytes} (h : Stops taking bytes) :
    Blames (within place taking) bytes [⟨place, bytes.length⟩] where
  length := rfl
  fails := by
    intro k hk fault
    refine ⟨place, if_pos hk, ?_⟩
    rw [within, h k hk fault]

/-- A value is read from as many bytes as it takes. -/
theorem length_of_reads_value {layout : Layout} {bytes : Bytes} {v : FieldValue} (h : Reads (takeValue layout) bytes v) :
    bytes.length = valueLength layout v := by
  by_cases hlayout : layout = .rotation
  · subst hlayout
    have hf := framed_takeNumber 4
    obtain ⟨i, p, rest, rfl, hi, hrest⟩ := h.of_bind hf fun i => hf.bind fun j => hf.map _
    obtain ⟨j, q, rest, rfl, hj, hrest⟩ := hrest.of_bind hf fun j => hf.map _
    obtain ⟨k, hk, rfl⟩ := hrest.of_map hf
    simp [(reads_takeNumber_iff.mp hi).1, (reads_takeNumber_iff.mp hj).1, (reads_takeNumber_iff.mp hk).1, valueLength,
      Layout.size?]
  · have hmask := (@rewrites_value "" _ _ _ hlayout h).2.length
    rw [← hmask, valueMask, List.length_replicate]

/-! ## Records, blocks and bodies -/

/-- A record names the field that its source fails in. -/
theorem blames_fields {b : Block} {fields : List Field} {bytes : Bytes} {r : Record} (h : Reads (decodeFields b fields) bytes r) :
    Blames (decodeFields b fields) bytes (recordStretches b.path fields r) := by
  induction fields generalizing bytes r with
  | nil =>
    obtain ⟨rfl, rfl⟩ := reads_pure_iff.mp h
    exact blames_pure []
  | cons f fields ih =>
    obtain ⟨v, front, back, rfl, hv, hback⟩ := h.of_bind (framed_within _ (framed_takeValue f.type.layout)) fun v =>
      (framed_decodeFields b fields).map _
    obtain ⟨values, hvalues, rfl⟩ := hback.of_map (framed_decodeFields b fields)
    have hvalue := reads_within_iff.mp hv
    have hfirst := blames_within (b.fieldPath f) (strict_takeValue _ front v hvalue)
    rw [length_of_reads_value hvalue] at hfirst
    exact hfirst.bind hv ((ih hvalues).map hvalues (v :: ·))

/-- Records one behind the other name the field that their source fails in. -/
theorem blames_records {b : Block} {count : Nat} {bytes : Bytes} {records : List Record}
    (h : Reads (decodeMany (decodeFields b b.fields) count) bytes records) :
    Blames (decodeMany (decodeFields b b.fields) count) bytes (records.flatMap (recordStretches b.path b.fields)) := by
  have hframed := framed_decodeFields b b.fields
  induction count generalizing bytes records with
  | zero =>
    obtain ⟨rfl, rfl⟩ := reads_pure_iff.mp h
    exact blames_pure []
  | succ count ih =>
    obtain ⟨r, front, back, rfl, hr, hback⟩ := h.of_bind hframed fun r => (framed_decodeMany hframed count).map _
    obtain ⟨rest, hrest, rfl⟩ := hback.of_map (framed_decodeMany hframed count)
    exact (blames_fields hr).bind hr ((ih hrest).map hrest (r :: ·))

/-- A block names itself where its source fails at the count of its records, and else the field that it fails in. -/
theorem blames_block {b : Block} {bytes : Bytes} {records : List Record} (h : Reads (decodeBlock b) bytes records) :
    Blames (decodeBlock b) bytes (blockStretches b.message b records) := by
  have hframed := framed_decodeFields b b.fields
  unfold decodeBlock at h ⊢
  unfold blockStretches
  cases hq : b.quantity with
  | single =>
    simp only [hq] at h ⊢
    exact blames_records h
  | multiple count =>
    simp only [hq] at h ⊢
    exact blames_records h
  | varying =>
    simp only [hq] at h ⊢
    obtain ⟨count, front, back, rfl, hcount, hback⟩ :=
      h.of_bind (framed_within _ (framed_takeNumber 1)) (framed_decodeMany hframed)
    have hnumber := reads_within_iff.mp hcount
    have hfirst := blames_within b.path (strict_takeNumber 1 front count hnumber)
    rw [(reads_takeNumber_iff.mp hnumber).1] at hfirst
    exact hfirst.bind hcount (blames_records hback)

/-- A body names the block or field that its source fails in. -/
theorem blames_blocks {message : String} {blocks : List Block} (howner : ∀ b ∈ blocks, b.message = message) {bytes : Bytes}
    {body : Body} (h : Reads (decodeBlocks blocks) bytes body) :
    Blames (decodeBlocks blocks) bytes (bodyStretches message blocks body) := by
  induction blocks generalizing bytes body with
  | nil =>
    obtain ⟨rfl, rfl⟩ := reads_pure_iff.mp h
    exact blames_pure []
  | cons b blocks ih =>
    obtain ⟨records, front, back, rfl, hrecords, hback⟩ := h.of_bind (framed_decodeBlock b) fun records =>
      (framed_decodeBlocks blocks).map _
    obtain ⟨rest, hrest, rfl⟩ := hback.of_map (framed_decodeBlocks blocks)
    have hblock := blames_block hrecords
    rw [howner b (by simp)] at hblock
    exact hblock.bind hrecords ((ih (fun b' hb' => howner b' (List.mem_cons_of_mem b hb')) hrest).map hrest (records :: ·))

/-! ## Messages -/

/-- A message fails inside its identifier with the fault of the source alone. -/
theorem read_inside_identifier {c : Catalog} {front : Bytes} {number k : Nat} (h : Reads takeMessageNumber front number)
    (hk : k < front.length) (tail : Bytes) (fault : SourceFault) :
    c.read ⟨(front ++ tail).take k, fault⟩ = .error (.source fault) ⟨[], fault⟩ := by
  rw [List.take_append_of_le_length (Nat.le_of_lt hk), Catalog.read, strict_takeMessageNumber front number h k hk fault]

/-- A message fails behind its identifier as its body does. -/
theorem read_behind_identifier {c : Catalog} {m : Message} (hid : m.frequency.Declarable m.id)
    (hm : c.ofNumber? m.number = some m) (hcodec : c.hasCodec m = true) {s s' : Source} {e : ReadError}
    (he : decodeBlocks m.blocks s = .error e s') :
    c.read ⟨m.identifier ++ s.pending, s.fault⟩ = .error e s' := by
  have hnumber : Reads (failingAs .source takeMessageNumber) m.identifier m.number :=
    reads_failingAs_iff.mpr (reads_identifier hid)
  rw [read_eq_bind, bind_of_reads c.dispatch hnumber, dispatch_eq hm hcodec]
  exact bind_of_error _ he

/-- Bytes that are read as a message, of a template that was read from a source, are read so with anything behind them,
which is left. If only some of them come before the source fails, the read fails when it has taken them: with the fault
alone inside the identifier, and behind it with the place of the byte that did not come. -/
theorem read_take_eq_error {source : String} {t : Template} (hparse : parse source = .ok t) (disabled : List String)
    {bytes : Bytes} {fault : SourceFault} {v : MessageValue}
    (hread : Catalog.read ⟨t, disabled⟩ ⟨bytes, fault⟩ = .ok v ⟨[], fault⟩) :
    ∃ m, t.message? v.name = some m ∧ m.identifier <+: bytes ∧
      bytes.length = m.identifier.length + totalLength (bodyStretches m.name m.blocks v.body) ∧
      (∀ tail fault, Catalog.read ⟨t, disabled⟩ ⟨bytes ++ tail, fault⟩ = .ok v ⟨tail, fault⟩) ∧
      ∀ k < bytes.length, ∀ fault,
        if k < m.identifier.length then
          Catalog.read ⟨t, disabled⟩ ⟨bytes.take k, fault⟩ = .error (.source fault) ⟨[], fault⟩
        else ∃ place, placeAt (bodyStretches m.name m.blocks v.body) (k - m.identifier.length) = some place ∧
          Catalog.read ⟨t, disabled⟩ ⟨bytes.take k, fault⟩ = .error (.field place fault) ⟨[], fault⟩ := by
  have hvalid : (Catalog.mk t disabled).template.Valid := parse_valid hparse
  obtain ⟨whole, hs, hreads⟩ := framed_read _ _ v hread
  obtain rfl : bytes = whole := by simpa using congrArg Source.pending hs
  obtain ⟨m, hm, hcodec, rest, body, rfl, hbody, rfl⟩ := (reads_read_iff hvalid).mp hreads
  have hmessage := hvalid.messages m hm
  have hblames := blames_blocks (fun b hb => (hmessage.blocks b hb).owner) hbody
  refine ⟨m, find?_key_eq_some hvalid.distinct.names hm, List.prefix_append _ _, ?_, hreads, ?_⟩
  · rw [List.length_append, hblames.length]
  intro k hk fault
  split
  · rename_i hfront
    exact read_inside_identifier (reads_identifier hmessage.id) hfront rest fault
  · rename_i hfront
    rw [List.length_append] at hk
    obtain ⟨place, hplace, herror⟩ := hblames.fails (k - m.identifier.length) (by omega) fault
    refine ⟨place, hplace, ?_⟩
    rw [List.take_append, List.take_of_length_le (Nat.le_of_not_lt hfront)]
    exact read_behind_identifier hmessage.id (ofNumber?_number hvalid.distinct hm) hcodec herror

/-- The bytes of two records fail behind their count, in a field of the second record, and inside the identifier. -/
theorem read_take_eq_error_sample :
    Catalog.read ⟨sampleTemplate, []⟩ ⟨samplePingBytes, .ended⟩ = .ok samplePingValue ⟨[], .ended⟩ ∧
      Catalog.read ⟨sampleTemplate, []⟩ ⟨[0xFF, 0xFF, 0], .ended⟩ = .error (.source .ended) ⟨[], .ended⟩ ∧
      Catalog.read ⟨sampleTemplate, []⟩ ⟨[0xFF, 0xFF, 0, 7], .ended⟩ = .error (.field "Ping.Flags" .ended) ⟨[], .ended⟩ ∧
      Catalog.read ⟨sampleTemplate, []⟩ ⟨[0xFF, 0xFF, 0, 7, 2, 1, 10, 11, 5, 12], .broken "gone"⟩ =
        .error (.field "Ping.Flags.Data" (.broken "gone")) ⟨[], .broken "gone"⟩ := by
  have hread : Catalog.read ⟨sampleTemplate, []⟩ ⟨samplePingBytes, .ended⟩ = .ok samplePingValue ⟨[], .ended⟩ := rfl
  obtain ⟨m, hm, -, -, -, h⟩ := read_take_eq_error parse_sampleSource [] hread
  obtain rfl : samplePing = m := Option.some.inj ((show sampleTemplate.message? "Ping" = some samplePing by decide).symm.trans hm)
  obtain ⟨place, hplace, hcount⟩ := h 4 (by decide) .ended
  obtain ⟨place', hplace', hfield⟩ := h 10 (by decide) (.broken "gone")
  obtain rfl : "Ping.Flags" = place := Option.some.inj (Eq.trans (by decide) hplace)
  obtain rfl : "Ping.Flags.Data" = place' := Option.some.inj (Eq.trans (by decide) hplace')
  exact ⟨hread, h 3 (by decide) .ended, hcount, hfield⟩

end MessageCatalog.Wire
