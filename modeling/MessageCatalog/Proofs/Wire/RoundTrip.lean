import MessageCatalog.Proofs.Source.Soundness
import MessageCatalog.Proofs.Wire.Dispatch
import MessageCatalog.Proofs.Wire.Writing

/-!
# What is written is read back

The bytes of a message value are read as that value again, up to the one loss of the format: of a quaternion only the
imaginary parts of its unit quaternion travel, and the reader sets the real part to one (`received`). The bytes are read
exactly, so what stands behind them is left. The proof follows the format: values, records, blocks, bodies, and the
identifier in front.
-/

namespace MessageCatalog.Wire

/-- The quaternion that arrives when one is sent: the imaginary parts of its unit quaternion, with the real part one. A quaternion
without a unit quaternion is never sent. -/
def Quaternion.received (q : Quaternion) : Quaternion :=
  match q.normalize? with
  | some unit => ⟨oneBits, unit.i, unit.j, unit.k⟩
  | none => q

/-- The value that arrives when one is sent. -/
def FieldValue.received : FieldValue → FieldValue
  | .rotation q => .rotation q.received
  | v => v

/-- The record that arrives when one is sent. -/
def receivedRecord (r : Record) : Record :=
  r.map FieldValue.received

/-- The body that arrives when one is sent. -/
def receivedBody (body : Body) : Body :=
  body.map fun records => records.map receivedRecord

/-! ## Values -/

/-- A number of the width is read back from its row. -/
theorem reads_littleEndian {width n : Nat} (h : n < span width) : Reads (takeNumber width) (littleEndian width n) n :=
  reads_takeNumber_iff.mpr ⟨length_littleEndian width n, (ofLittleEndian_littleEndian h).symm⟩

/-- Numbers of a width are read back from their rows one behind the other. -/
theorem reads_takeNumbers {width : Nat} {patterns : List Nat} (h : ∀ p ∈ patterns, p < span width) :
    Reads (takeNumbers width patterns.length) (patterns.flatMap (littleEndian width)) patterns := by
  induction patterns with
  | nil => exact reads_pure []
  | cons p patterns ih =>
    have hrest := ih fun q hq => h q (List.mem_cons_of_mem p hq)
    rw [List.flatMap_cons]
    exact (reads_littleEndian (h p (by simp))).bind (hrest.map (p :: ·))

/-- The lengths that fit the width of a length are those up to the longest allowed. -/
theorem lt_span_size_iff {width : PrefixWidth} {n : Nat} : n < span width.size ↔ n ≤ width.maxLength := by
  have hspan : span width.size = width.maxLength + 1 := by cases width <;> rfl
  rw [hspan, Nat.lt_succ_iff]

/-- A part of a quaternion is read back from its row. -/
theorem reads_part (part : UInt32) : Reads (takeNumber 4) (littleEndian 4 part.toNat) part.toNat :=
  reads_littleEndian part.toNat_lt

/-- The value of a field is read back from its bytes. -/
theorem reads_encodeValue {place : String} {layout : Layout} {v : FieldValue} {bytes : Bytes} (hfits : v.FitsLayout layout)
    (he : encodeValue place layout v = .wrote bytes) : Reads (takeValue layout) bytes v.received := by
  cases layout with
  | unsigned width =>
    cases v <;> simp only [FieldValue.FitsLayout] at hfits
    rename_i n
    obtain rfl := Emission.wrote_inj.mp he
    exact (reads_littleEndian hfits).map _
  | signed width =>
    cases v <;> simp only [FieldValue.FitsLayout] at hfits
    rename_i z
    obtain rfl := Emission.wrote_inj.mp he
    have hread := (reads_littleEndian (toTwosComplement_lt_span width z)).map
      fun n => FieldValue.signed (ofTwosComplement width n)
    rw [ofTwosComplement_toTwosComplement hfits] at hread
    exact hread
  | words width count =>
    cases v <;> simp only [FieldValue.FitsLayout] at hfits
    rename_i patterns
    obtain ⟨rfl, hpatterns⟩ := hfits
    obtain rfl := Emission.wrote_inj.mp he
    exact (reads_takeNumbers hpatterns).map _
  | rotation =>
    cases v <;> simp only [FieldValue.FitsLayout] at hfits
    rename_i q
    rw [encodeValue_rotation] at he
    cases hunit : q.normalize? with
    | none => simp [hunit] at he
    | some unit =>
      simp only [hunit, Emission.wrote_inj, List.flatMap_cons, List.flatMap_nil] at he
      subst he
      have hread : Reads (takeValue .rotation) _ _ := (reads_part unit.i).bind ((reads_part unit.j).bind
        ((reads_part unit.k).bind (reads_pure _)))
      simpa only [UInt32.ofNat_toNat, FieldValue.received, Quaternion.received, hunit] using hread
  | flag =>
    cases v <;> simp only [FieldValue.FitsLayout] at hfits
    rename_i b
    obtain rfl := Emission.wrote_inj.mp he
    have hread := (reads_byte_iff.mpr ⟨if b then 1 else 0, rfl, rfl⟩).map fun n => FieldValue.flag (n == 1)
    cases b <;> exact hread
  | counted width =>
    cases v <;> simp only [FieldValue.FitsLayout] at hfits
    rename_i content
    rw [encodeValue_counted] at he
    split at he
    · rename_i hlen
      obtain rfl := Emission.wrote_inj.mp he
      exact (reads_littleEndian (lt_span_size_iff.mpr hlen)).bind ((reads_take rfl).map _)
    · cases he
  | raw size =>
    cases v <;> simp only [FieldValue.FitsLayout] at hfits
    rename_i content
    obtain rfl := Emission.wrote_inj.mp he
    exact (reads_take hfits).map _

/-! ## Records, blocks and bodies -/

/-- A record is read back from its bytes. -/
theorem reads_encodeFields {b : Block} {fields : List Field} {r : Record} {bytes : Bytes} (hfits : RecordFits fields r)
    (he : encodeFields b fields r = .wrote bytes) : Reads (decodeFields b fields) bytes (receivedRecord r) := by
  induction fields generalizing r bytes with
  | nil =>
    cases r with
    | nil =>
      obtain rfl := Emission.wrote_inj.mp he
      exact reads_pure []
    | cons v values => exact hfits.elim
  | cons f fields ih =>
    cases r with
    | nil => exact hfits.elim
    | cons v values =>
      obtain ⟨p, q, hp, hq, rfl⟩ := Emission.append_eq_wrote_iff.mp he
      have hvalue := reads_encodeValue hfits.1.layout hp
      exact (reads_within_iff.mpr hvalue).bind ((ih hfits.2 hq).map (v.received :: ·))

/-- Records one behind the other are read back from their bytes. -/
theorem reads_records {b : Block} {records : List Record} {bytes : Bytes} (hfits : ∀ r ∈ records, RecordFits b.fields r)
    (he : Emission.sequence (records.map (encodeFields b b.fields)) = .wrote bytes) :
    Reads (decodeMany (decodeFields b b.fields) records.length) bytes (records.map receivedRecord) := by
  induction records generalizing bytes with
  | nil =>
    obtain rfl := Emission.wrote_inj.mp he
    exact reads_pure []
  | cons r records ih =>
    obtain ⟨p, q, hp, hq, rfl⟩ := Emission.append_eq_wrote_iff.mp he
    have hrest := ih (fun r' hr' => hfits r' (List.mem_cons_of_mem r hr')) hq
    exact (reads_encodeFields (hfits r (by simp)) hp).bind (hrest.map (receivedRecord r :: ·))

/-- A count that one byte holds is read back from it. -/
theorem reads_count {n : Nat} (h : n ≤ maxRecords) : Reads (takeNumber 1) [UInt8.ofNat n] n := by
  refine reads_byte_iff.mpr ⟨UInt8.ofNat n, rfl, ?_⟩
  rw [UInt8.toNat_ofNat', Nat.mod_eq_of_lt (by simp only [maxRecords] at h; omega)]

/-- The records of a block are read back from its bytes. -/
theorem reads_encodeBlock {b : Block} {records : List Record} {bytes : Bytes} (hfits : BlockFits b records)
    (he : encodeBlock b records = .wrote bytes) : Reads (decodeBlock b) bytes (records.map receivedRecord) := by
  obtain ⟨hcount, hrecords⟩ := hfits
  unfold encodeBlock at he
  unfold decodeBlock
  cases hq : b.quantity with
  | single =>
    simp only [hq, AllowsRecords] at he hcount ⊢
    rw [← hcount]
    exact reads_records hrecords he
  | multiple count =>
    simp only [hq, AllowsRecords] at he hcount ⊢
    rw [← hcount]
    exact reads_records hrecords he
  | varying =>
    simp only [hq] at he ⊢
    split at he
    · rename_i hmax
      obtain ⟨p, q, hp, hbody, rfl⟩ := Emission.append_eq_wrote_iff.mp he
      obtain rfl := Emission.wrote_inj.mp hp
      exact (reads_within_iff.mpr (reads_count hmax)).bind (reads_records hrecords hbody)
    · cases he

/-- The body of a message is read back from its bytes. -/
theorem reads_encodeBlocks {message : String} {blocks : List Block} {body : Body} {bytes : Bytes}
    (hfits : BodyFits blocks body) (he : encodeBlocks message blocks body = .wrote bytes) :
    Reads (decodeBlocks blocks) bytes (receivedBody body) := by
  induction blocks generalizing body bytes with
  | nil =>
    cases body with
    | nil =>
      obtain rfl := Emission.wrote_inj.mp he
      exact reads_pure []
    | cons records body => exact hfits.elim
  | cons b blocks ih =>
    cases body with
    | nil => exact hfits.elim
    | cons records body =>
      obtain ⟨p, q, hp, hq, rfl⟩ := Emission.append_eq_wrote_iff.mp he
      exact (reads_encodeBlock hfits.1 hp).bind ((ih hfits.2 hq).map (records.map receivedRecord :: ·))

/-! ## Messages -/

/-- The bytes of a message of a valid template are read back as the message. -/
theorem reads_toBytes {c : Catalog} (hvalid : c.template.Valid) {m : Message} (hm : m ∈ c.template.messages)
    (hcodec : c.hasCodec m = true) {body : Body} (hfits : BodyFits m.blocks body) {bytes : Bytes}
    (he : toBytes m body = .ok bytes) :
    Reads c.read bytes ⟨m.name, receivedBody body⟩ := by
  obtain ⟨rest, hrest, rfl⟩ := toBytes_eq_ok_iff.mp he
  exact (reads_read_iff hvalid).mpr ⟨m, hm, hcodec, rest, _, rfl, reads_encodeBlocks hfits hrest, rfl⟩

/-- Whatever a message of a template that was read from a source is written as is read back as the value that arrives, and what
stands behind its bytes is left. -/
theorem read_append_of_toBytes {source : String} {t : Template} (hparse : parse source = .ok t) (disabled : List String)
    {m : Message} (hm : m ∈ t.messages) (hcodec : Catalog.hasCodec ⟨t, disabled⟩ m = true) {body : Body}
    (hfits : BodyFits m.blocks body) {bytes : Bytes} (he : toBytes m body = .ok bytes) (tail : Bytes) (fault : SourceFault) :
    Catalog.read ⟨t, disabled⟩ ⟨bytes ++ tail, fault⟩ = .ok ⟨m.name, receivedBody body⟩ ⟨tail, fault⟩ := by
  have hvalid : (Catalog.mk t disabled).template.Valid := parse_valid hparse
  exact reads_toBytes hvalid hm hcodec hfits he tail fault

/-- A body with two quaternions that are no unit quaternions. -/
def sampleBody : Body :=
  [[[.rotation ⟨0, 0x40400000, 0x40800000, 0⟩, .bytes [7]], [.rotation ⟨0, 0x40000000, 0, 0⟩, .bytes []]]]

/-- The bytes of the message with that body. -/
def sampleBytes : Bytes :=
  [1, 154, 153, 25, 63, 205, 204, 76, 63, 0, 0, 0, 0, 1, 7, 0, 0, 128, 63, 0, 0, 0, 0, 0, 0, 0, 0, 0]

theorem fits_sampleBody : BodyFits sampleMove.blocks sampleBody := by
  simp [BodyFits, BlockFits, AllowsRecords, RecordFits, FieldValue.Fits, sampleMove, sampleBody]

theorem toBytes_sampleBody : toBytes sampleMove sampleBody = .ok sampleBytes := by
  decide +kernel

/-- What arrives of that body. -/
def sampleReceived : Body :=
  [[[.rotation ⟨oneBits, 0x3F19999A, 0x3F4CCCCD, 0⟩, .bytes [7]], [.rotation ⟨oneBits, oneBits, 0, 0⟩, .bytes []]]]

theorem read_append_of_toBytes_sample : BodyFits sampleMove.blocks sampleBody ∧ toBytes sampleMove sampleBody = .ok sampleBytes ∧
    Catalog.read ⟨sampleTemplate, []⟩ ⟨sampleBytes ++ [9], .ended⟩ = .ok ⟨"Move", sampleReceived⟩ ⟨[9], .ended⟩ := by
  refine ⟨fits_sampleBody, toBytes_sampleBody, ?_⟩
  have hreceived : receivedBody sampleBody = sampleReceived := by decide +kernel
  rw [← hreceived]
  exact read_append_of_toBytes parse_sampleSource [] (by simp [sampleTemplate]) (by decide +kernel) fits_sampleBody
    toBytes_sampleBody [9] .ended

end MessageCatalog.Wire
