import MessageCatalog.Proofs.Wire.Truncation

/-!
# The least length of a message

The size that a template gives for a message is the least number of bytes that any of its values takes on the wire, cut
off at the largest size that is counted to. Each field takes the bytes of its type, a variable one those of its length
and its content, so the length of a message is a sum over its fields (`messageLength`). The sum is least with empty
contents and no records in blocks of varying length, and the message of such a body can always be written. Sizes that
saturate anywhere on the way saturate in the end.
-/

namespace MessageCatalog.Wire

variable {α : Type}

/-- The sum of the sizes of some things, without a bound. -/
def totalSize (size : α → Nat) : List α → Nat
  | [] => 0
  | a :: rest => size a + totalSize size rest

/-! ## Saturation -/

/-- Adding to a size that is cut off at the limit is adding and cutting off. -/
theorem addSizes_eq (a b : Nat) : addSizes (min maxSize a) b = min maxSize (a + b) := by
  unfold addSizes
  omega

/-- A size that is cut off at the limit adds as much as the size itself. -/
theorem addSizes_saturated (a b : Nat) : addSizes a (min maxSize b) = addSizes a b := by
  unfold addSizes
  omega

/-- A sum that saturates at every step is the exact sum, saturated once. -/
theorem foldl_addSizes (size : α → Nat) (as : List α) (start : Nat) :
    as.foldl (fun acc a => addSizes acc (size a)) (min maxSize start) = min maxSize (start + totalSize size as) := by
  induction as generalizing start with
  | nil => rfl
  | cons a as ih => rw [List.foldl_cons, addSizes_eq, ih, totalSize, Nat.add_assoc]

/-- Sizes that are added up step by step are their sum, cut off at the limit. -/
theorem foldl_addSizes_zero (size : α → Nat) (as : List α) :
    as.foldl (fun acc a => addSizes acc (size a)) 0 = min maxSize (totalSize size as) := by
  have hfold := foldl_addSizes size as 0
  rwa [Nat.min_zero, Nat.zero_add] at hfold

/-- A saturated size, scaled and saturated again, is the exact product, saturated once. -/
theorem scaleSize_saturated (a n : Nat) : scaleSize (min maxSize a) n = min maxSize (n * a) := by
  unfold scaleSize
  rw [Nat.mul_comm n a]
  rcases Nat.eq_zero_or_pos n with rfl | hn
  · simp
  rcases Nat.le_total a maxSize with ha | ha
  · rw [Nat.min_eq_right ha, Nat.min_comm]
  · have hmax : maxSize ≤ maxSize * n := Nat.le_mul_of_pos_right maxSize hn
    have hexact : maxSize * n ≤ a * n := Nat.mul_le_mul_right n ha
    rw [Nat.min_eq_left ha]
    omega

/-- The least number of bytes of a record of some fields, without a bound. -/
def leastRecordLength (fields : List Field) : Nat :=
  totalSize (fun f => f.type.wireSize?.getD f.type.prefixSize) fields

/-- The least number of bytes of the records of a block with their count, without a bound. -/
def leastBlockLength (b : Block) : Nat :=
  match b.quantity with
  | .single => leastRecordLength b.fields
  | .multiple count => count * leastRecordLength b.fields
  | .varying => 1

/-- The least number of bytes of a message with its identifier, without a bound. -/
def leastMessageLength (m : Message) : Nat :=
  totalSize leastBlockLength m.blocks + m.identifier.length

/-- The size of a record is the least length of one, cut off at the limit. -/
theorem fixedSize_eq (b : Block) : b.fixedSize = min maxSize (leastRecordLength b.fields) :=
  foldl_addSizes_zero (fun f : Field => f.type.minSize) b.fields

/-- The size of a block is the least length of its records, cut off at the limit. -/
theorem minSize_eq (b : Block) : b.minSize = min maxSize (leastBlockLength b) := by
  unfold Block.minSize leastBlockLength
  cases b.quantity with
  | single => exact fixedSize_eq b
  | multiple count => simp only [fixedSize_eq, scaleSize_saturated]
  | varying => rfl

/-- The size of a message is its exact least length, saturated once. -/
theorem sizeHint_eq (m : Message) : m.sizeHint = min maxSize (leastMessageLength m) := by
  have hblocks : (fun acc (b : Block) => addSizes acc b.minSize) = fun acc b => addSizes acc (leastBlockLength b) := by
    funext acc b
    rw [minSize_eq, addSizes_saturated]
  rw [Message.sizeHint, hblocks, foldl_addSizes_zero, addSizes_eq, leastMessageLength]

/-! ## The length of a message that is written -/

/-- The number of bytes of the content of a value. -/
def FieldValue.contentLength : FieldValue → Nat
  | .bytes content => content.length
  | _ => 0

/-- The number of bytes of a field of a type: those of the type, or those of a length and the content. -/
def fieldLength (type : FieldType) (v : FieldValue) : Nat :=
  type.wireSize?.getD (type.prefixSize + v.contentLength)

/-- The number of bytes of a record: those of its fields. -/
def recordLength : List Field → Record → Nat
  | f :: fields, v :: values => fieldLength f.type v + recordLength fields values
  | _, _ => 0

/-- The number of bytes of the records of a block, with one for their count if that is sent along. -/
def blockLength (b : Block) (records : List Record) : Nat :=
  match b.quantity with
  | .varying => 1 + totalSize (recordLength b.fields) records
  | _ => totalSize (recordLength b.fields) records

/-- The number of bytes of the body of a message: those of its blocks. -/
def bodyLength : List Block → Body → Nat
  | b :: blocks, records :: body => blockLength b records + bodyLength blocks body
  | _, _ => 0

/-- The number of bytes of a message: those of its body, and its identifier. -/
def messageLength (m : Message) (body : Body) : Nat :=
  bodyLength m.blocks body + m.identifier.length

/-- A value that is received has the length of its field type. -/
theorem valueLength_layout {type : FieldType} {v : FieldValue} (hfits : v.Fits type) :
    valueLength type.layout v.received = fieldLength type v := by
  cases type with
  | varying width =>
    cases v with
    | bytes content => rfl
    | _ => exact hfits.elim
  | _ => rfl

/-- A field is written in as many bytes as its type says. -/
theorem length_encodeValue {place : String} {type : FieldType} {v : FieldValue} {bytes : Bytes} (hfits : v.Fits type)
    (he : encodeValue place type.layout v = .wrote bytes) : bytes.length = fieldLength type v := by
  rw [length_of_reads_value (reads_encodeValue hfits.layout he), valueLength_layout hfits]

/-- What is written for a record has the length of the record. -/
theorem length_encodeFields {b : Block} {fields : List Field} {r : Record} {bytes : Bytes} (hfits : RecordFits fields r)
    (he : encodeFields b fields r = .wrote bytes) : bytes.length = recordLength fields r := by
  induction fields generalizing r bytes with
  | nil =>
    cases r with
    | nil =>
      obtain rfl := Emission.wrote_inj.mp he
      rfl
    | cons v values => exact hfits.elim
  | cons f fields ih =>
    cases r with
    | nil => exact hfits.elim
    | cons v values =>
      obtain ⟨p, q, hp, hq, rfl⟩ := Emission.append_eq_wrote_iff.mp he
      rw [List.length_append, length_encodeValue hfits.1 hp, ih hfits.2 hq, recordLength]

/-- What is written for records has the length of all of them. -/
theorem length_encodeRecords {b : Block} {records : List Record} {bytes : Bytes} (hfits : ∀ r ∈ records, RecordFits b.fields r)
    (he : Emission.sequence (records.map (encodeFields b b.fields)) = .wrote bytes) :
    bytes.length = totalSize (recordLength b.fields) records := by
  induction records generalizing bytes with
  | nil =>
    obtain rfl := Emission.wrote_inj.mp he
    rfl
  | cons r records ih =>
    rw [List.forall_mem_cons] at hfits
    obtain ⟨p, q, hp, hq, rfl⟩ := Emission.append_eq_wrote_iff.mp he
    rw [List.length_append, length_encodeFields hfits.1 hp, ih hfits.2 hq, totalSize]

/-- What is written for a block has the length of its records and their count. -/
theorem length_encodeBlock {b : Block} {records : List Record} {bytes : Bytes} (hfits : BlockFits b records)
    (he : encodeBlock b records = .wrote bytes) : bytes.length = blockLength b records := by
  unfold encodeBlock at he
  unfold blockLength
  cases hq : b.quantity with
  | single =>
    simp only [hq] at he
    exact length_encodeRecords hfits.2 he
  | multiple count =>
    simp only [hq] at he
    exact length_encodeRecords hfits.2 he
  | varying =>
    simp only [hq] at he
    split at he
    · obtain ⟨p, q, hp, hrecords, rfl⟩ := Emission.append_eq_wrote_iff.mp he
      obtain rfl := Emission.wrote_inj.mp hp
      rw [List.length_append, length_encodeRecords hfits.2 hrecords, List.length_singleton]
    · cases he

/-- What is written for a body has the length of its blocks. -/
theorem length_encodeBlocks {message : String} {blocks : List Block} {body : Body} {bytes : Bytes} (hfits : BodyFits blocks body)
    (he : encodeBlocks message blocks body = .wrote bytes) : bytes.length = bodyLength blocks body := by
  induction blocks generalizing body bytes with
  | nil =>
    cases body with
    | nil =>
      obtain rfl := Emission.wrote_inj.mp he
      rfl
    | cons records body => exact hfits.elim
  | cons b blocks ih =>
    cases body with
    | nil => exact hfits.elim
    | cons records body =>
      obtain ⟨p, q, hp, hq, rfl⟩ := Emission.append_eq_wrote_iff.mp he
      rw [List.length_append, length_encodeBlock hfits.1 hp, ih hfits.2 hq, bodyLength]

/-- A message is written in as many bytes as its fields, its counts and its identifier take. -/
theorem length_toBytes {m : Message} {body : Body} {bytes : Bytes} (hfits : BodyFits m.blocks body)
    (he : toBytes m body = .ok bytes) : bytes.length = messageLength m body := by
  obtain ⟨rest, hrest, rfl⟩ := toBytes_eq_ok_iff.mp he
  rw [List.length_append, length_encodeBlocks hfits hrest, messageLength, Nat.add_comm]

/-! ## No message is shorter -/

/-- No value of a field type is shorter than its size, or its length prefix. -/
theorem le_fieldLength (type : FieldType) (v : FieldValue) : type.wireSize?.getD type.prefixSize ≤ fieldLength type v := by
  unfold fieldLength
  cases type.wireSize? with
  | some size => exact Nat.le_refl size
  | none => exact Nat.le_add_right _ _

/-- No record is shorter than the least one. -/
theorem le_recordLength {fields : List Field} {r : Record} (hfits : RecordFits fields r) :
    leastRecordLength fields ≤ recordLength fields r := by
  induction fields generalizing r with
  | nil => exact Nat.zero_le _
  | cons f fields ih =>
    cases r with
    | nil => exact hfits.elim
    | cons v values => exact Nat.add_le_add (le_fieldLength f.type v) (ih hfits.2)

/-- Things of which each has a size take that size as often as there are things. -/
theorem mul_le_totalSize {size : α → Nat} {least : Nat} {as : List α} (h : ∀ a ∈ as, least ≤ size a) :
    as.length * least ≤ totalSize size as := by
  induction as with
  | nil => simp [totalSize]
  | cons a as ih =>
    rw [List.forall_mem_cons] at h
    have hrest := ih h.2
    rw [List.length_cons, Nat.succ_mul, totalSize]
    omega

/-- No block is shorter than the least one. -/
theorem le_blockLength {b : Block} {records : List Record} (hfits : BlockFits b records) :
    leastBlockLength b ≤ blockLength b records := by
  obtain ⟨hcount, hrecords⟩ := hfits
  have htotal := mul_le_totalSize fun r hr => le_recordLength (hrecords r hr)
  unfold leastBlockLength blockLength
  cases hq : b.quantity with
  | single =>
    simp only [hq, AllowsRecords] at hcount
    rwa [hcount, Nat.one_mul] at htotal
  | multiple count =>
    simp only [hq, AllowsRecords] at hcount
    rwa [hcount] at htotal
  | varying => exact Nat.le_add_right _ _

/-- No body is shorter than the least one. -/
theorem le_bodyLength {blocks : List Block} {body : Body} (hfits : BodyFits blocks body) :
    totalSize leastBlockLength blocks ≤ bodyLength blocks body := by
  induction blocks generalizing body with
  | nil => exact Nat.zero_le _
  | cons b blocks ih =>
    cases body with
    | nil => exact hfits.elim
    | cons records body => exact Nat.add_le_add (le_blockLength hfits.1) (ih hfits.2)

/-- No message is shorter than the least one. -/
theorem le_messageLength {m : Message} {body : Body} (hfits : BodyFits m.blocks body) :
    leastMessageLength m ≤ messageLength m body :=
  Nat.add_le_add_right (le_bodyLength hfits) _

/-! ## A message that is as short -/

/-- A value of a layout without content, if the layout allows that, and with zeros otherwise. -/
def leastValue : Layout → FieldValue
  | .unsigned _ => .unsigned 0
  | .signed _ => .signed 0
  | .words _ count => .words (List.replicate count 0)
  | .rotation => .rotation .identity
  | .flag => .flag false
  | .counted _ => .bytes []
  | .raw size => .bytes (List.replicate size 0)

/-- A record of such values. -/
def leastRecord (fields : List Field) : Record :=
  fields.map fun f => leastValue f.type.layout

/-- As few such records as a block can have. -/
def leastRecords (b : Block) : List Record :=
  match b.quantity with
  | .single => [leastRecord b.fields]
  | .multiple count => List.replicate count (leastRecord b.fields)
  | .varying => []

/-- The body of such records. -/
def leastBody (blocks : List Block) : Body :=
  blocks.map leastRecords

/-- The least value of a layout is one of the layout. -/
theorem fits_leastValue (layout : Layout) : (leastValue layout).FitsLayout layout := by
  cases layout with
  | unsigned width => exact span_pos width
  | signed width =>
    have hpos := span_pos width
    simp only [leastValue, FieldValue.FitsLayout]
    omega
  | words width count =>
    refine ⟨List.length_replicate, fun p hp => ?_⟩
    rw [List.eq_of_mem_replicate hp]
    exact span_pos width
  | rotation => trivial
  | flag => trivial
  | counted width => trivial
  | raw size => exact List.length_replicate

/-- The least record is one of the fields. -/
theorem fits_leastRecord (fields : List Field) : RecordFits fields (leastRecord fields) := by
  induction fields with
  | nil => trivial
  | cons f fields ih => exact ⟨(FieldValue.fits_iff f.type _).mpr (fits_leastValue f.type.layout), ih⟩

/-- All records among the fewest are the same. -/
theorem eq_of_mem_leastRecords {b : Block} {r : Record} (hr : r ∈ leastRecords b) : r = leastRecord b.fields := by
  unfold leastRecords at hr
  cases hq : b.quantity with
  | single => simpa [hq] using hr
  | multiple count =>
    simp only [hq] at hr
    exact List.eq_of_mem_replicate hr
  | varying => simp [hq] at hr

/-- The least records are some of the block. -/
theorem fits_leastRecords (b : Block) : BlockFits b (leastRecords b) := by
  refine ⟨?_, fun r hr => ?_⟩
  · unfold leastRecords
    cases b.quantity with
    | single => rfl
    | multiple count => exact List.length_replicate
    | varying => trivial
  · rw [eq_of_mem_leastRecords hr]
    exact fits_leastRecord b.fields

/-- The least body is one of the blocks. -/
theorem fits_leastBody (blocks : List Block) : BodyFits blocks (leastBody blocks) := by
  induction blocks with
  | nil => trivial
  | cons b blocks ih => exact ⟨fits_leastRecords b, ih⟩

/-- The emission has no fault. -/
def Emission.Succeeds (e : Emission) : Prop :=
  ∃ bytes, e = .wrote bytes

/-- Two emissions in sequence succeed if both do. -/
theorem Emission.Succeeds.append {e e' : Emission} (h : e.Succeeds) (h' : e'.Succeeds) : (e ++ e').Succeeds := by
  obtain ⟨p, rfl⟩ := h
  obtain ⟨q, rfl⟩ := h'
  exact ⟨p ++ q, rfl⟩

/-- Emissions in sequence succeed if all do. -/
theorem Emission.succeeds_sequence {es : List Emission} (h : ∀ e ∈ es, e.Succeeds) : (sequence es).Succeeds := by
  induction es with
  | nil => exact ⟨[], rfl⟩
  | cons e es ih =>
    rw [List.forall_mem_cons] at h
    exact h.1.append (ih h.2)

/-- The quaternion of no rotation has a unit quaternion. -/
theorem identity_normalizes : ∃ unit, Quaternion.identity.normalize? = some unit :=
  Option.isSome_iff_exists.mp (by decide +kernel)

/-- The least value can be written. -/
theorem succeeds_leastValue (place : String) (layout : Layout) : (encodeValue place layout (leastValue layout)).Succeeds := by
  cases layout with
  | rotation =>
    obtain ⟨unit, hunit⟩ := identity_normalizes
    rw [leastValue, encodeValue_rotation, hunit]
    exact ⟨_, rfl⟩
  | counted width =>
    rw [leastValue, encodeValue_counted, List.length_nil, if_pos (Nat.zero_le _)]
    exact ⟨_, rfl⟩
  | _ => exact ⟨_, rfl⟩

/-- The least record can be written. -/
theorem succeeds_leastRecord (b : Block) (fields : List Field) : (encodeFields b fields (leastRecord fields)).Succeeds := by
  induction fields with
  | nil => exact ⟨[], rfl⟩
  | cons f fields ih => exact (succeeds_leastValue _ f.type.layout).append ih

/-- The least records can be written. -/
theorem succeeds_leastRecords (b : Block) : (encodeBlock b (leastRecords b)).Succeeds := by
  have hrecords : (Emission.sequence ((leastRecords b).map (encodeFields b b.fields))).Succeeds := by
    refine Emission.succeeds_sequence fun e he => ?_
    obtain ⟨r, hr, rfl⟩ := List.mem_map.mp he
    rw [eq_of_mem_leastRecords hr]
    exact succeeds_leastRecord b b.fields
  unfold encodeBlock
  cases hq : b.quantity with
  | single => exact hrecords
  | multiple count => exact hrecords
  | varying =>
    have hcount : (leastRecords b).length ≤ maxRecords := by simp [leastRecords, hq]
    simp only [if_pos hcount]
    exact .append ⟨_, rfl⟩ hrecords

/-- The least body can be written. -/
theorem succeeds_leastBody (message : String) (blocks : List Block) :
    (encodeBlocks message blocks (leastBody blocks)).Succeeds := by
  induction blocks with
  | nil => exact ⟨[], rfl⟩
  | cons b blocks ih => exact (succeeds_leastRecords b).append ih

/-- The least record has the least length. -/
theorem recordLength_leastRecord (fields : List Field) : recordLength fields (leastRecord fields) = leastRecordLength fields := by
  have hfield : ∀ type : FieldType, fieldLength type (leastValue type.layout) = type.wireSize?.getD type.prefixSize := by
    intro type
    cases type <;> rfl
  induction fields with
  | nil => rfl
  | cons f fields ih =>
    simp only [leastRecord, List.map_cons, recordLength, hfield] at ih ⊢
    rw [ih]
    rfl

/-- Equal elements have as many times the size of one. -/
theorem totalSize_replicate (size : α → Nat) (count : Nat) (a : α) :
    totalSize size (List.replicate count a) = count * size a := by
  induction count with
  | zero => simp [totalSize]
  | succ count ih => rw [List.replicate_succ, totalSize, ih, Nat.succ_mul, Nat.add_comm]

/-- The least records have the least length. -/
theorem blockLength_leastRecords (b : Block) : blockLength b (leastRecords b) = leastBlockLength b := by
  unfold blockLength leastRecords leastBlockLength
  cases b.quantity with
  | single => simp only [totalSize, recordLength_leastRecord, Nat.add_zero]
  | multiple count => simp only [totalSize_replicate, recordLength_leastRecord]
  | varying => rfl

/-- The least body has the least length. -/
theorem bodyLength_leastBody (blocks : List Block) :
    bodyLength blocks (leastBody blocks) = totalSize leastBlockLength blocks := by
  induction blocks with
  | nil => rfl
  | cons b blocks ih =>
    simp only [leastBody, List.map_cons, bodyLength, blockLength_leastRecords] at ih ⊢
    rw [ih, totalSize]

/-- A number of bytes is the least that a message is written in: no value takes fewer, and some value takes as many. -/
structure IsLeastLength (m : Message) (least : Nat) : Prop where
  le_length : ∀ body bytes, BodyFits m.blocks body → toBytes m body = .ok bytes → least ≤ bytes.length
  reached : ∃ body bytes, BodyFits m.blocks body ∧ toBytes m body = .ok bytes ∧ bytes.length = least

/-- The least length is reached by a message, and no message is shorter. -/
theorem isLeastLength_leastMessageLength (m : Message) : IsLeastLength m (leastMessageLength m) where
  le_length := by
    intro body bytes hfits he
    rw [length_toBytes hfits he]
    exact le_messageLength hfits
  reached := by
    have hfits := fits_leastBody m.blocks
    obtain ⟨rest, hrest⟩ := succeeds_leastBody m.name m.blocks
    have he : toBytes m (leastBody m.blocks) = .ok (m.identifier ++ rest) := toBytes_eq_ok_iff.mpr ⟨rest, hrest, rfl⟩
    refine ⟨_, _, hfits, he, ?_⟩
    rw [length_toBytes hfits he, messageLength, bodyLength_leastBody, leastMessageLength]

/-- The size that is given for a message is the least number of bytes that it is written in, or the largest size if that
is more. The size of a record is the sum of the sizes of its fields, saturated likewise. Every message is written in the
bytes of its fields, its counts and its identifier, and a field in those of its type, or of its length and its
content. -/
theorem sizeHint_is_least_length (m : Message) :
    (∃ least, IsLeastLength m least ∧ m.sizeHint = min maxSize least) ∧
    (∀ b : Block, b.fixedSize = min maxSize (totalSize (fun f => f.type.wireSize?.getD f.type.prefixSize) b.fields)) ∧
    (∀ body bytes, BodyFits m.blocks body → toBytes m body = .ok bytes → bytes.length = messageLength m body) ∧
    ∀ (place : String) (type : FieldType) (v : FieldValue) (bytes : Bytes), v.Fits type →
      encodeValue place type.layout v = .wrote bytes → bytes.length = type.wireSize?.getD (type.prefixSize + v.contentLength) :=
  ⟨⟨leastMessageLength m, isLeastLength_leastMessageLength m, sizeHint_eq m⟩, fixedSize_eq, fun _ _ => length_toBytes,
    fun _ _ _ _ => length_encodeValue⟩

/-- The moving message of the small catalog has at least 27 bytes, and its sample body has the length that it declares. -/
theorem sizeHint_is_least_length_sample : sampleMove.sizeHint = 27 ∧ IsLeastLength sampleMove 27 ∧
    BodyFits sampleMove.blocks sampleBody ∧ sampleBytes.length = messageLength sampleMove sampleBody := by
  obtain ⟨⟨least, hleast, hhint⟩, -, hlength, -⟩ := sizeHint_is_least_length sampleMove
  have hsize : sampleMove.sizeHint = 27 := by decide +kernel
  obtain rfl : least = 27 := by
    rw [hsize, maxSize] at hhint
    have hbound : 27 < UInt64.size - 1 := by decide
    omega
  exact ⟨hsize, hleast, fits_sampleBody, hlength _ _ fits_sampleBody toBytes_sampleBody⟩

end MessageCatalog.Wire
