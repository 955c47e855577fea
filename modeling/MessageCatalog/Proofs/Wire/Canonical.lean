import MessageCatalog.Proofs.Wire.RoundTrip

/-!
# What is read is written back

Bytes that were read as a message without quaternions are the bytes that the message is written as, but for the bytes of
truth values: each byte but 1 is read as false, which is written as 0. A mask tells which bytes these are, and
`Rewrites` that a value is written as the bytes it was read from with them in order. It holds of sequences when it holds
of their parts, so it goes up from values to messages.
-/

namespace MessageCatalog.Wire

/-! ## Bytes in order -/

/-- The bytes with those that the mask marks replaced: by 1 if they are 1, and by 0 otherwise. -/
def canonical (mask : List Bool) (bytes : Bytes) : Bytes :=
  List.zipWith (fun isFlag b => if isFlag then (if b = 1 then 1 else 0) else b) mask bytes

/-- The bytes that the mask marks. -/
def marked (mask : List Bool) (bytes : Bytes) : Bytes :=
  ((mask.zip bytes).filter (·.1)).map (·.2)

/-- Bytes are in order when every marked byte is 0 or 1. -/
theorem canonical_eq_self_iff {mask : List Bool} {bytes : Bytes} (h : mask.length = bytes.length) :
    canonical mask bytes = bytes ↔ ∀ b ∈ marked mask bytes, b = 0 ∨ b = 1 := by
  induction mask generalizing bytes with
  | nil =>
    obtain rfl := List.length_eq_zero_iff.mp h.symm
    simp [canonical, marked]
  | cons isFlag mask ih =>
    cases bytes with
    | nil => cases h
    | cons b bytes =>
      have hrest := ih (Nat.succ.inj h)
      cases isFlag with
      | false =>
        have hcanonical : canonical (false :: mask) (b :: bytes) = b :: canonical mask bytes := rfl
        have hmarked : marked (false :: mask) (b :: bytes) = marked mask bytes := rfl
        rw [hcanonical, hmarked, ← hrest, List.cons.injEq, and_iff_right rfl]
      | true =>
        have hcanonical : canonical (true :: mask) (b :: bytes) = (if b = 1 then 1 else 0) :: canonical mask bytes := rfl
        have hmarked : marked (true :: mask) (b :: bytes) = b :: marked mask bytes := rfl
        have hbyte : (if b = 1 then 1 else 0) = b ↔ b = 0 ∨ b = 1 := by grind
        rw [hcanonical, hmarked, List.forall_mem_cons, ← hrest, List.cons.injEq, hbyte]

/-- The emission writes the bytes, of which the mask marks some, with those in order. -/
structure Rewrites (mask : List Bool) (bytes : Bytes) (e : Emission) : Prop where
  length : mask.length = bytes.length
  wrote : e = .wrote (canonical mask bytes)

/-- Bytes in a row are rewritten as they are one by one. -/
theorem Rewrites.append {mask mask' : List Bool} {p q : Bytes} {e e' : Emission} (h : Rewrites mask p e)
    (h' : Rewrites mask' q e') : Rewrites (mask ++ mask') (p ++ q) (e ++ e') where
  length := by rw [List.length_append, List.length_append, h.length, h'.length]
  wrote := by rw [h.wrote, h'.wrote, Emission.wrote_append, canonical, canonical, canonical, List.zipWith_append h.length]

/-- Bytes of which none is marked are written as they are. -/
theorem rewrites_unmarked {n : Nat} {bytes : Bytes} (h : bytes.length = n) :
    Rewrites (List.replicate n false) bytes (.wrote bytes) where
  length := by rw [List.length_replicate, h]
  wrote := by
    subst h
    congr 1
    induction bytes with
    | nil => rfl
    | cons b bytes ih =>
      simp only [canonical, List.length_cons, List.replicate_succ, List.zipWith_cons_cons, Bool.false_eq_true, if_false] at ih ⊢
      rw [← ih]

/-! ## Values -/

/-- The number of bytes a value of a layout takes. -/
def valueLength (layout : Layout) (v : FieldValue) : Nat :=
  match layout, v with
  | .counted width, .bytes content => width.size + content.length
  | layout, _ => layout.size?.getD 0

/-- The mask of a value: its bytes are marked if it is a truth value. -/
def valueMask (layout : Layout) (v : FieldValue) : List Bool :=
  List.replicate (valueLength layout v) (layout = .flag)

/-- Numbers that were read are of their width and number, and their rows are the bytes they were read from. -/
theorem numbers_of_reads {width count : Nat} {bytes : Bytes} {patterns : List Nat}
    (h : Reads (takeNumbers width count) bytes patterns) :
    patterns.length = count ∧ (∀ p ∈ patterns, p < span width) ∧ bytes = patterns.flatMap (littleEndian width) := by
  induction count generalizing bytes patterns with
  | zero =>
    obtain ⟨rfl, rfl⟩ := reads_pure_iff.mp h
    simp
  | succ count ih =>
    obtain ⟨n, front, back, rfl, hn, hback⟩ := h.of_bind (framed_takeNumber width) fun n => (framed_takeNumbers width count).map _
    obtain ⟨rest, hrest, rfl⟩ := hback.of_map (framed_takeNumbers width count)
    obtain ⟨rfl, rfl⟩ := reads_takeNumber_iff.mp hn
    obtain ⟨rfl, hspan, rfl⟩ := ih hrest
    refine ⟨rfl, ?_, ?_⟩
    · rw [List.forall_mem_cons]
      exact ⟨ofLittleEndian_lt_span front, hspan⟩
    · rw [List.flatMap_cons, littleEndian_ofLittleEndian]

/-- A value that was read is of its layout, and it is written as the bytes it was read from, in order. -/
theorem rewrites_value {place : String} {layout : Layout} {bytes : Bytes} {v : FieldValue} (hlayout : layout ≠ .rotation)
    (h : Reads (takeValue layout) bytes v) :
    v.FitsLayout layout ∧ Rewrites (valueMask layout v) bytes (encodeValue place layout v) := by
  cases layout with
  | unsigned width =>
    obtain ⟨n, hn, rfl⟩ := h.of_map (framed_takeNumber width)
    obtain ⟨rfl, rfl⟩ := reads_takeNumber_iff.mp hn
    refine ⟨ofLittleEndian_lt_span bytes, ?_⟩
    simp only [encodeValue, littleEndian_ofLittleEndian]
    exact rewrites_unmarked rfl
  | signed width =>
    obtain ⟨n, hn, rfl⟩ := h.of_map (framed_takeNumber width)
    obtain ⟨rfl, rfl⟩ := reads_takeNumber_iff.mp hn
    refine ⟨ofTwosComplement_inSignedRange (ofLittleEndian_lt_span bytes), ?_⟩
    simp only [encodeValue, toTwosComplement_ofTwosComplement (ofLittleEndian_lt_span bytes), littleEndian_ofLittleEndian]
    exact rewrites_unmarked rfl
  | words width count =>
    obtain ⟨patterns, hpatterns, rfl⟩ := h.of_map (framed_takeNumbers width count)
    obtain ⟨rfl, hspan, rfl⟩ := numbers_of_reads hpatterns
    refine ⟨⟨rfl, hspan⟩, rewrites_unmarked ?_⟩
    simp [List.length_flatMap, valueLength, Layout.size?, Nat.mul_comm]
  | rotation => exact absurd rfl hlayout
  | flag =>
    obtain ⟨n, hn, rfl⟩ := h.of_map (framed_takeNumber 1)
    obtain ⟨b, rfl, rfl⟩ := reads_byte_iff.mp hn
    refine ⟨trivial, rfl, ?_⟩
    -- the one place where something is lost: each byte but 1 is false
    have hb : (b.toNat == 1) = decide (b = 1) := by
      rw [Bool.eq_iff_iff, beq_iff_eq, decide_eq_true_eq, ← UInt8.toNat_inj]
      rfl
    simp only [encodeValue, hb]
    by_cases h1 : b = 1 <;> simp [h1, canonical, valueMask, valueLength, Layout.size?]
  | counted width =>
    obtain ⟨n, front, back, rfl, hn, hback⟩ := h.of_bind (framed_takeNumber width.size) fun n => (framed_take n).map _
    obtain ⟨content, hcontent, rfl⟩ := hback.of_map (framed_take n)
    obtain ⟨hlen, rfl⟩ := reads_take_iff.mp hcontent
    obtain ⟨hwidth, rfl⟩ := reads_takeNumber_iff.mp hn
    -- a length that was read fits its bytes, so it is never too long to be written
    have hmax : content.length ≤ width.maxLength := by
      have hlt := ofLittleEndian_lt_span front
      rw [hwidth] at hlt
      rw [hlen]
      exact lt_span_size_iff.mp hlt
    refine ⟨trivial, ?_⟩
    rw [encodeValue_counted, if_pos hmax]
    rw [hlen, ← hwidth, littleEndian_ofLittleEndian]
    refine rewrites_unmarked ?_
    rw [List.length_append, hwidth]
    rfl
  | raw size =>
    obtain ⟨content, hcontent, rfl⟩ := h.of_map (framed_take size)
    obtain ⟨hlen, rfl⟩ := reads_take_iff.mp hcontent
    exact ⟨hlen, rewrites_unmarked hlen⟩

/-! ## Records, blocks and bodies -/

/-- The mask of a record. -/
def recordMask : List Field → Record → List Bool
  | f :: fields, v :: values => valueMask f.type.layout v ++ recordMask fields values
  | _, _ => []

/-- The mask of the records of a block: their count, if it is sent along, is not marked. -/
def blockMask (b : Block) (records : List Record) : List Bool :=
  match b.quantity with
  | .varying => false :: records.flatMap (recordMask b.fields)
  | _ => records.flatMap (recordMask b.fields)

/-- The mask of a body. -/
def bodyMask : List Block → Body → List Bool
  | b :: blocks, records :: body => blockMask b records ++ bodyMask blocks body
  | _, _ => []

/-- The mask of a message: it marks the bytes of its truth values, none of them in its identifier. -/
def messageMask (m : Message) (body : Body) : List Bool :=
  List.replicate m.identifier.length false ++ bodyMask m.blocks body

/-- Whether none of the fields is a quaternion. -/
def NoQuaternion (fields : List Field) : Prop :=
  ∀ f ∈ fields, f.type ≠ .quaternion

/-- Only a quaternion is written as a rotation. -/
theorem layout_ne_rotation {type : FieldType} (h : type ≠ .quaternion) : type.layout ≠ .rotation := by
  cases type <;> simp_all [FieldType.layout]

/-- A record that was read is written as the bytes it was read from, in order. -/
theorem rewrites_fields {b : Block} {fields : List Field} {bytes : Bytes} {r : Record} (hno : NoQuaternion fields)
    (h : Reads (decodeFields b fields) bytes r) :
    RecordFits fields r ∧ Rewrites (recordMask fields r) bytes (encodeFields b fields r) := by
  induction fields generalizing bytes r with
  | nil =>
    obtain ⟨rfl, rfl⟩ := reads_pure_iff.mp h
    exact ⟨trivial, rfl, rfl⟩
  | cons f fields ih =>
    obtain ⟨v, front, back, rfl, hv, hback⟩ := h.of_bind (framed_within _ (framed_takeValue f.type.layout)) fun v =>
      (framed_decodeFields b fields).map _
    obtain ⟨values, hvalues, rfl⟩ := hback.of_map (framed_decodeFields b fields)
    obtain ⟨hfits, hvalue⟩ := rewrites_value (layout_ne_rotation (hno f (by simp))) (reads_within_iff.mp hv)
    obtain ⟨hrestFits, hrest⟩ := ih (fun g hg => hno g (List.mem_cons_of_mem f hg)) hvalues
    exact ⟨⟨(FieldValue.fits_iff f.type v).mpr hfits, hrestFits⟩, hvalue.append hrest⟩

/-- Records that were read are written as the bytes they were read from, in order. -/
theorem rewrites_records {b : Block} {count : Nat} {bytes : Bytes} {records : List Record} (hno : NoQuaternion b.fields)
    (h : Reads (decodeMany (decodeFields b b.fields) count) bytes records) :
    records.length = count ∧ (∀ r ∈ records, RecordFits b.fields r) ∧ Rewrites (records.flatMap (recordMask b.fields)) bytes
      (Emission.sequence (records.map (encodeFields b b.fields))) := by
  have hframed := framed_decodeFields b b.fields
  induction count generalizing bytes records with
  | zero =>
    obtain ⟨rfl, rfl⟩ := reads_pure_iff.mp h
    exact ⟨rfl, by simp, rfl, rfl⟩
  | succ count ih =>
    obtain ⟨r, front, back, rfl, hr, hback⟩ := h.of_bind hframed fun r => (framed_decodeMany hframed count).map _
    obtain ⟨rest, hrest, rfl⟩ := hback.of_map (framed_decodeMany hframed count)
    obtain ⟨hfits, hrecord⟩ := rewrites_fields hno hr
    obtain ⟨rfl, hrestFits, hrest⟩ := ih hrest
    exact ⟨rfl, List.forall_mem_cons.mpr ⟨hfits, hrestFits⟩, hrecord.append hrest⟩

/-- The records of a block that were read are written as the bytes they were read from, in order. -/
theorem rewrites_block {b : Block} {bytes : Bytes} {records : List Record} (hno : NoQuaternion b.fields)
    (h : Reads (decodeBlock b) bytes records) :
    BlockFits b records ∧ Rewrites (blockMask b records) bytes (encodeBlock b records) := by
  have hframed := framed_decodeFields b b.fields
  unfold decodeBlock at h
  unfold BlockFits blockMask encodeBlock
  cases hq : b.quantity with
  | single =>
    simp only [hq] at h ⊢
    obtain ⟨hcount, hfits, hrecords⟩ := rewrites_records hno h
    exact ⟨⟨hcount, hfits⟩, hrecords⟩
  | multiple count =>
    simp only [hq] at h ⊢
    obtain ⟨hcount, hfits, hrecords⟩ := rewrites_records hno h
    exact ⟨⟨hcount, hfits⟩, hrecords⟩
  | varying =>
    simp only [hq] at h ⊢
    obtain ⟨count, front, back, rfl, hcount, hback⟩ :=
      h.of_bind (framed_within _ (framed_takeNumber 1)) (framed_decodeMany hframed)
    obtain ⟨byte, rfl, rfl⟩ := reads_byte_iff.mp (reads_within_iff.mp hcount)
    obtain ⟨hlen, hfits, hrecords⟩ := rewrites_records hno hback
    have hmax : records.length ≤ maxRecords := by
      rw [hlen]
      exact Nat.le_of_lt_succ byte.toNat_lt
    refine ⟨⟨trivial, hfits⟩, ?_⟩
    rw [if_pos hmax, hlen, UInt8.ofNat_toNat]
    exact (rewrites_unmarked (n := 1) rfl).append hrecords

/-- A body that was read is written as the bytes it was read from, in order. -/
theorem rewrites_blocks {message : String} {blocks : List Block} {bytes : Bytes} {body : Body}
    (hno : ∀ b ∈ blocks, NoQuaternion b.fields) (h : Reads (decodeBlocks blocks) bytes body) :
    BodyFits blocks body ∧ Rewrites (bodyMask blocks body) bytes (encodeBlocks message blocks body) := by
  induction blocks generalizing bytes body with
  | nil =>
    obtain ⟨rfl, rfl⟩ := reads_pure_iff.mp h
    exact ⟨trivial, rfl, rfl⟩
  | cons b blocks ih =>
    obtain ⟨records, front, back, rfl, hrecords, hback⟩ := h.of_bind (framed_decodeBlock b) fun records =>
      (framed_decodeBlocks blocks).map _
    obtain ⟨rest, hrest, rfl⟩ := hback.of_map (framed_decodeBlocks blocks)
    obtain ⟨hfits, hblock⟩ := rewrites_block (hno b (by simp)) hrecords
    obtain ⟨hrestFits, hrest⟩ := ih (fun b' hb' => hno b' (List.mem_cons_of_mem b hb')) hrest
    exact ⟨⟨hfits, hrestFits⟩, hblock.append hrest⟩

/-! ## Without quaternions all that is sent arrives -/

/-- A value that is no rotation arrives as it was sent. -/
theorem received_eq_self {layout : Layout} {v : FieldValue} (hlayout : layout ≠ .rotation) (hfits : v.FitsLayout layout) :
    v.received = v := by
  cases v with
  | rotation q => cases layout <;> simp [FieldValue.FitsLayout] at hfits hlayout
  | _ => rfl

/-- A record without quaternions arrives as it was sent. -/
theorem receivedRecord_eq_self {fields : List Field} {r : Record} (hno : NoQuaternion fields) (hfits : RecordFits fields r) :
    receivedRecord r = r := by
  induction fields generalizing r with
  | nil =>
    cases r with
    | nil => rfl
    | cons v values => exact hfits.elim
  | cons f fields ih =>
    cases r with
    | nil => exact hfits.elim
    | cons v values =>
      have hvalue := received_eq_self (layout_ne_rotation (hno f (by simp))) hfits.1.layout
      have hrest := ih (fun g hg => hno g (List.mem_cons_of_mem f hg)) hfits.2
      exact congrArg₂ List.cons hvalue hrest

/-- A body without quaternions arrives as it was sent. -/
theorem receivedBody_eq_self {blocks : List Block} {body : Body} (hno : ∀ b ∈ blocks, NoQuaternion b.fields)
    (hfits : BodyFits blocks body) : receivedBody body = body := by
  induction blocks generalizing body with
  | nil =>
    cases body with
    | nil => rfl
    | cons records body => exact hfits.elim
  | cons b blocks ih =>
    cases body with
    | nil => exact hfits.elim
    | cons records body =>
      have hrecords : records.map receivedRecord = records :=
        (List.map_congr_left fun r hr => receivedRecord_eq_self (hno b (by simp)) (hfits.1.2 r hr)).trans (List.map_id records)
      have hrest := ih (fun b' hb' => hno b' (List.mem_cons_of_mem b hb')) hfits.2
      exact congrArg₂ List.cons hrecords hrest

/-! ## Messages -/

/-- A message without quaternions that was read from some bytes is written as these bytes, in order, and read back from them. -/
theorem rewrites_message {c : Catalog} (hvalid : c.template.Valid) {m : Message} (hm : m ∈ c.template.messages)
    (hcodec : c.hasCodec m = true) (hno : NoQuaternion m.fields) {rest : Bytes} {body : Body}
    (h : Reads (decodeBlocks m.blocks) rest body) :
    Rewrites (messageMask m body) (m.identifier ++ rest) (encodeMessage m body) ∧
      Reads c.read (canonical (messageMask m body) (m.identifier ++ rest)) ⟨m.name, body⟩ := by
  have hblocks : ∀ b ∈ m.blocks, NoQuaternion b.fields := fun b hb f hf => hno f (List.mem_flatMap.mpr ⟨b, hb, hf⟩)
  obtain ⟨hfits, hbody⟩ : BodyFits m.blocks body ∧ Rewrites (bodyMask m.blocks body) rest (encodeBlocks m.name m.blocks body) :=
    rewrites_blocks hblocks h
  have hmessage : Rewrites (messageMask m body) (m.identifier ++ rest) (encodeMessage m body) :=
    (rewrites_unmarked rfl).append hbody
  refine ⟨hmessage, ?_⟩
  have hbytes : toBytes m body = .ok (canonical (messageMask m body) (m.identifier ++ rest)) :=
    Emission.toExcept_eq_ok_iff.mpr hmessage.wrote
  have hread := reads_toBytes hvalid hm hcodec hfits hbytes
  rwa [receivedBody_eq_self hblocks hfits] at hread

/-- Whatever is read as a message without quaternions, of a template that was read from a source, can be written again.
It is written as the bytes that it was read from with those of truth values in order, so these are the same bytes
exactly when each byte of a truth value was 0 or 1, and it is read back from them. -/
theorem toBytes_of_read {source : String} {t : Template} (hparse : parse source = .ok t) (disabled : List String)
    {s s' : Source} {v : MessageValue} (hread : Catalog.read ⟨t, disabled⟩ s = .ok v s') :
    ∃ m, t.message? v.name = some m ∧ ∃ bytes, s = ⟨bytes ++ s'.pending, s'.fault⟩ ∧ (NoQuaternion m.fields →
      ∃ bytes', toBytes m v.body = .ok bytes' ∧ bytes'.length = bytes.length ∧
        (messageMask m v.body).length = bytes.length ∧ bytes' = canonical (messageMask m v.body) bytes ∧
        (bytes' = bytes ↔ ∀ b ∈ marked (messageMask m v.body) bytes, b = 0 ∨ b = 1) ∧
        ∀ tail fault, Catalog.read ⟨t, disabled⟩ ⟨bytes' ++ tail, fault⟩ = .ok v ⟨tail, fault⟩) := by
  have hvalid : (Catalog.mk t disabled).template.Valid := parse_valid hparse
  obtain ⟨bytes, hs, hreads⟩ := framed_read s s' v hread
  obtain ⟨m, hm, hcodec, rest, body, rfl, hbody, rfl⟩ := (reads_read_iff hvalid).mp hreads
  refine ⟨m, find?_key_eq_some hvalid.distinct.names hm, m.identifier ++ rest, hs, fun hno => ?_⟩
  obtain ⟨hmessage, hback⟩ := rewrites_message hvalid hm hcodec hno hbody
  refine ⟨_, Emission.toExcept_eq_ok_iff.mpr hmessage.wrote, ?_, hmessage.length, rfl,
    canonical_eq_self_iff hmessage.length, hback⟩
  rw [canonical, List.length_zipWith, hmessage.length, Nat.min_self]

/-- Two records with the truth values 1 and 5. -/
def samplePingBytes : Bytes :=
  [0xFF, 0xFF, 0, 7, 2, 1, 10, 11, 5, 12, 13]

def samplePingValue : MessageValue :=
  ⟨"Ping", [[[.flag true, .bytes [10, 11]], [.flag false, .bytes [12, 13]]]]⟩

theorem toBytes_of_read_sample :
    Catalog.read ⟨sampleTemplate, []⟩ ⟨samplePingBytes ++ [9], .ended⟩ = .ok samplePingValue ⟨[9], .ended⟩ ∧
      toBytes samplePing samplePingValue.body = .ok [0xFF, 0xFF, 0, 7, 2, 1, 10, 11, 0, 12, 13] := by
  have hread : Catalog.read ⟨sampleTemplate, []⟩ ⟨samplePingBytes ++ [9], .ended⟩ = .ok samplePingValue ⟨[9], .ended⟩ := rfl
  obtain ⟨m, hm, bytes, hs, h⟩ := toBytes_of_read parse_sampleSource [] hread
  obtain rfl : samplePing = m := Option.some.inj ((show sampleTemplate.message? "Ping" = some samplePing by decide).symm.trans hm)
  obtain rfl : samplePingBytes = bytes := List.append_cancel_right (congrArg Source.pending hs)
  obtain ⟨bytes', he, -, -, rfl, -, -⟩ := h (by simp [NoQuaternion, samplePing, Message.fields])
  exact ⟨hread, he⟩

end MessageCatalog.Wire
