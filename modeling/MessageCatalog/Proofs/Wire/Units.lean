import MessageCatalog.Proofs.Wire.RoundTrip

/-!
# Where encoding stops

A message is written unit by unit: its identifier, and for every block the count of its records, if that is sent along,
and the fields of each record. A unit is written as a whole or not at all, and one that the wire cannot hold is bad.
Encoding writes the units up to the first bad one and fails with the error of that one, whatever the buffer held before.
-/

namespace MessageCatalog.Wire

/-! ## Units -/

/-- A unit of a message. Counts and fields know the place that an error names. -/
inductive WireUnit where
  | identifier (bytes : Bytes)
  | count (place : String) (records : Nat)
  | field (place : String) (layout : Layout) (value : FieldValue)
  deriving DecidableEq, Repr

/-- The bytes of a value of a layout, if the wire can hold it. -/
def valueBytes (layout : Layout) (value : FieldValue) : Bytes :=
  match layout, value with
  | .unsigned width, .unsigned n => littleEndian width n
  | .signed width, .signed z => littleEndian width (toTwosComplement width z)
  | .words width _, .words patterns => patterns.flatMap (littleEndian width)
  | .rotation, .rotation q => [q.received.i, q.received.j, q.received.k].flatMap fun part => littleEndian 4 part.toNat
  | .flag, .flag b => [if b then 1 else 0]
  | .counted width, .bytes content => littleEndian width.size content.length ++ content
  | .raw _, .bytes content => content
  | _, _ => []

namespace WireUnit

/-- The bytes of a unit, if the wire can hold it. -/
def bytes : WireUnit → Bytes
  | identifier bytes => bytes
  | count _ records => [UInt8.ofNat records]
  | field _ layout value => valueBytes layout value

/-- What makes a unit bad, and the error that says so: a count that one byte does not hold, a length that its width does
not hold, and a quaternion without a unit quaternion. -/
inductive Bad : WireUnit → WriteError → Prop where
  | tooManyRecords {place : String} {records : Nat} (h : 255 < records) :
      Bad (count place records) (.tooManyRecords place records)
  | variableTooLong {place : String} {width : PrefixWidth} {content : Bytes} (h : width.maxLength < content.length) :
      Bad (field place (.counted width) (.bytes content)) (.variableTooLong place content.length width.maxLength)
  | degenerateQuaternion {place : String} {q : Quaternion} (h : q.normalize? = none) :
      Bad (field place .rotation (.rotation q)) (.degenerateQuaternion place)

/-- Whether the wire can hold a unit. -/
def Good (u : WireUnit) : Prop :=
  ∀ error, ¬u.Bad error

end WireUnit

/-- The units of a record of a block: its fields in order. -/
def recordUnits (place : String) : List Field → Record → List WireUnit
  | f :: fields, v :: values => .field (place ++ "." ++ f.name) f.type.layout v :: recordUnits place fields values
  | _, _ => []

/-- The units of the records of a block. -/
def blockUnits (message : String) (b : Block) (records : List Record) : List WireUnit :=
  let place := message ++ "." ++ b.name
  match b.quantity with
  | .varying => .count place records.length :: records.flatMap (recordUnits place b.fields)
  | _ => records.flatMap (recordUnits place b.fields)

/-- The units of the body of a message. -/
def bodyUnits (message : String) : List Block → Body → List WireUnit
  | b :: blocks, records :: body => blockUnits message b records ++ bodyUnits message blocks body
  | _, _ => []

/-- The units of a message in the order of the wire. -/
def messageUnits (m : Message) (body : Body) : List WireUnit :=
  .identifier m.identifier :: bodyUnits m.name m.blocks body

/-- What comes of writing units: all bytes without an error, or the bytes in front of the first bad unit with its error. -/
inductive UnitsOutcome (units : List WireUnit) : Bytes → Option WriteError → Prop where
  | complete (h : ∀ u ∈ units, u.Good) : UnitsOutcome units (units.flatMap WireUnit.bytes) none
  | stopped {before after : List WireUnit} {bad : WireUnit} {error : WriteError} (hunits : units = before ++ bad :: after)
      (hbefore : ∀ u ∈ before, u.Good) (hbad : bad.Bad error) : UnitsOutcome units (before.flatMap WireUnit.bytes) (some error)

/-! ## Emissions in sequence -/

namespace Emission

/-- Nothing is written behind a stop. -/
theorem wrote_append_stopped (p : Bytes) (error : WriteError) (e : Emission) :
    wrote p ++ (stopped error ++ e) = ⟨p, some error⟩ := by
  change andThen (wrote p) (andThen (stopped error) e) = _
  simp [andThen, wrote, stopped]

/-- Emissions in sequence may be split anywhere. -/
theorem sequence_append (es es' : List Emission) : sequence (es ++ es') = sequence es ++ sequence es' := by
  induction es with
  | nil => rfl
  | cons e es ih => rw [List.cons_append, sequence, sequence, ih, append_assoc]

end Emission

/-! ## Writing a unit -/

namespace WireUnit

/-- What writes a unit. -/
def emission : WireUnit → Emission
  | identifier bytes => .wrote bytes
  | count place records =>
    if records ≤ maxRecords then .wrote [UInt8.ofNat records] else .stopped (.tooManyRecords place records)
  | field place layout value => encodeValue place layout value

/-- Whether the value of a field is of its type. -/
def Fits : WireUnit → Prop
  | field _ layout value => value.FitsLayout layout
  | _ => True

/-- A bad unit stops before any of its bytes, with its error. -/
theorem Bad.emission {u : WireUnit} {error : WriteError} (h : u.Bad error) : u.emission = .stopped error := by
  cases h with
  | tooManyRecords h => exact if_neg (Nat.not_le.mpr h)
  | variableTooLong h => exact if_neg (Nat.not_le.mpr h)
  | degenerateQuaternion h => simp [WireUnit.emission, encodeValue, h]

/-- Every other unit is written with all its bytes. -/
theorem Good.emission {u : WireUnit} (h : u.Good) (hfits : u.Fits) : u.emission = .wrote u.bytes := by
  cases u with
  | identifier bytes => rfl
  | count place records =>
    have hcount : records ≤ maxRecords := Nat.not_lt.mp fun hmany => h _ (.tooManyRecords hmany)
    exact if_pos hcount
  | field place layout value =>
    cases layout with
    | unsigned width =>
      cases value with
      | unsigned n => rfl
      | _ => exact hfits.elim
    | signed width =>
      cases value with
      | signed z => rfl
      | _ => exact hfits.elim
    | words width count =>
      cases value with
      | words patterns => rfl
      | _ => exact hfits.elim
    | flag =>
      cases value with
      | flag b => rfl
      | _ => exact hfits.elim
    | raw size =>
      cases value with
      | bytes content => rfl
      | _ => exact hfits.elim
    | rotation =>
      cases value with
      | rotation q =>
        cases hunit : q.normalize? with
        | none => exact absurd (.degenerateQuaternion hunit) (h _)
        | some unit => simp [WireUnit.emission, encodeValue, bytes, valueBytes, Quaternion.received, hunit]
      | _ => exact hfits.elim
    | counted width =>
      cases value with
      | bytes content =>
        have hlength : content.length ≤ width.maxLength := Nat.not_lt.mp fun hlong => h _ (.variableTooLong hlong)
        exact if_pos hlength
      | _ => exact hfits.elim

/-- Good units are written with all their bytes, one behind the other. -/
theorem sequence_good {units : List WireUnit} (hfits : ∀ u ∈ units, u.Fits) (hgood : ∀ u ∈ units, u.Good) :
    Emission.sequence (units.map WireUnit.emission) = .wrote (units.flatMap bytes) := by
  induction units with
  | nil => rfl
  | cons u units ih =>
    rw [List.forall_mem_cons] at hfits hgood
    rw [List.map_cons, Emission.sequence, hgood.1.emission hfits.1, ih hfits.2 hgood.2, List.flatMap_cons, Emission.wrote_append]

/-- The units in front of a bad one are written, and nothing else is. -/
theorem sequence_bad {before : List WireUnit} {bad : WireUnit} {error : WriteError} (after : List WireUnit)
    (hfits : ∀ u ∈ before, u.Fits) (hgood : ∀ u ∈ before, u.Good) (hbad : bad.Bad error) :
    Emission.sequence ((before ++ bad :: after).map WireUnit.emission) = ⟨before.flatMap bytes, some error⟩ := by
  rw [List.map_append, Emission.sequence_append, sequence_good hfits hgood, List.map_cons, Emission.sequence, hbad.emission,
    Emission.wrote_append_stopped]

/-- All units are good, or one of them is the first that is bad. -/
theorem good_or_first_bad (units : List WireUnit) : (∀ u ∈ units, u.Good) ∨
    ∃ before bad after error, units = before ++ bad :: after ∧ (∀ u ∈ before, u.Good) ∧ bad.Bad error := by
  induction units with
  | nil => exact .inl (List.forall_mem_nil _)
  | cons u units ih =>
    by_cases hu : u.Good
    · rcases ih with hgood | ⟨before, bad, after, error, rfl, hbefore, hbad⟩
      · exact .inl (List.forall_mem_cons.mpr ⟨hu, hgood⟩)
      · exact .inr ⟨u :: before, bad, after, error, rfl, List.forall_mem_cons.mpr ⟨hu, hbefore⟩, hbad⟩
    · obtain ⟨error, hbad⟩ : ∃ error, u.Bad error := by simpa [Good] using hu
      exact .inr ⟨[], u, units, error, rfl, List.forall_mem_nil _, hbad⟩

end WireUnit

/-! ## A message is written unit by unit -/

open WireUnit (emission)

/-- A record is written unit by unit. -/
theorem encodeFields_eq {b : Block} {fields : List Field} {r : Record} (hfits : RecordFits fields r) :
    encodeFields b fields r = .sequence ((recordUnits b.path fields r).map emission) := by
  induction fields generalizing r with
  | nil =>
    cases r with
    | nil => rfl
    | cons v values => exact hfits.elim
  | cons f fields ih =>
    cases r with
    | nil => exact hfits.elim
    | cons v values => rw [encodeFields, ih hfits.2]; rfl

/-- The records of a block are written unit by unit. -/
theorem encodeRecords_eq {b : Block} {records : List Record} (hfits : ∀ r ∈ records, RecordFits b.fields r) :
    Emission.sequence (records.map (encodeFields b b.fields)) =
      .sequence ((records.flatMap (recordUnits b.path b.fields)).map emission) := by
  induction records with
  | nil => rfl
  | cons r records ih =>
    rw [List.forall_mem_cons] at hfits
    rw [List.map_cons, Emission.sequence, encodeFields_eq hfits.1, ih hfits.2, List.flatMap_cons, List.map_append,
      Emission.sequence_append]

/-- A block is written unit by unit. -/
theorem encodeBlock_eq {b : Block} {records : List Record} (hfits : BlockFits b records) :
    encodeBlock b records = .sequence ((blockUnits b.message b records).map emission) := by
  have hrecords := encodeRecords_eq hfits.2
  unfold encodeBlock blockUnits
  cases b.quantity with
  | single => exact hrecords
  | multiple count => exact hrecords
  | varying =>
    simp only [hrecords, List.map_cons, Emission.sequence, emission]
    split
    · rfl
    -- a count that is too large stops, so the records behind it do not matter
    · rfl

/-- A body is written unit by unit. -/
theorem encodeBlocks_eq {message : String} {blocks : List Block} {body : Body} (howner : ∀ b ∈ blocks, b.message = message)
    (hfits : BodyFits blocks body) :
    encodeBlocks message blocks body = .sequence ((bodyUnits message blocks body).map emission) := by
  induction blocks generalizing body with
  | nil =>
    cases body with
    | nil => rfl
    | cons records body => exact hfits.elim
  | cons b blocks ih =>
    cases body with
    | nil => exact hfits.elim
    | cons records body =>
      rw [List.forall_mem_cons] at howner
      rw [encodeBlocks, encodeBlock_eq hfits.1, howner.1, ih howner.2 hfits.2, bodyUnits, List.map_append,
        Emission.sequence_append]

/-- A message is written unit by unit. -/
theorem encodeMessage_eq {m : Message} (hvalid : m.Valid) {body : Body} (hfits : BodyFits m.blocks body) :
    encodeMessage m body = .sequence ((messageUnits m body).map emission) := by
  rw [encodeMessage, encodeBlocks_eq (fun b hb => (hvalid.blocks b hb).owner) hfits]
  rfl

/-! ## The units of a fitting body fit -/

/-- The units of a record that fits do. -/
theorem fits_recordUnits {place : String} {fields : List Field} {r : Record} (hfits : RecordFits fields r) :
    ∀ u ∈ recordUnits place fields r, u.Fits := by
  induction fields generalizing r with
  | nil => exact List.forall_mem_nil _
  | cons f fields ih =>
    cases r with
    | nil => exact List.forall_mem_nil _
    | cons v values => exact List.forall_mem_cons.mpr ⟨hfits.1.layout, ih hfits.2⟩

/-- The units of a block that fits do. -/
theorem fits_blockUnits {message : String} {b : Block} {records : List Record} (hfits : BlockFits b records) :
    ∀ u ∈ blockUnits message b records, u.Fits := by
  have hrecords : ∀ u ∈ records.flatMap (recordUnits (message ++ "." ++ b.name) b.fields), u.Fits := by
    intro u hu
    obtain ⟨r, hr, hu⟩ := List.mem_flatMap.mp hu
    exact fits_recordUnits (hfits.2 r hr) u hu
  unfold blockUnits
  cases b.quantity with
  | single => exact hrecords
  | multiple count => exact hrecords
  | varying => exact List.forall_mem_cons.mpr ⟨trivial, hrecords⟩

/-- The units of a body that fits do. -/
theorem fits_bodyUnits {message : String} {blocks : List Block} {body : Body} (hfits : BodyFits blocks body) :
    ∀ u ∈ bodyUnits message blocks body, u.Fits := by
  induction blocks generalizing body with
  | nil => exact List.forall_mem_nil _
  | cons b blocks ih =>
    cases body with
    | nil => exact List.forall_mem_nil _
    | cons records body => exact List.forall_mem_append.mpr ⟨fits_blockUnits hfits.1, ih hfits.2⟩

/-- What is written of a message is the outcome of its units. -/
theorem outcome_encodeMessage {m : Message} (hvalid : m.Valid) {body : Body} (hfits : BodyFits m.blocks body) :
    UnitsOutcome (messageUnits m body) (encodeMessage m body).bytes (encodeMessage m body).fault := by
  have hunits : ∀ u ∈ messageUnits m body, u.Fits := List.forall_mem_cons.mpr ⟨trivial, fits_bodyUnits hfits⟩
  rw [encodeMessage_eq hvalid hfits]
  rcases WireUnit.good_or_first_bad (messageUnits m body) with hgood | ⟨before, bad, after, error, hsplit, hbefore, hbad⟩
  · rw [WireUnit.sequence_good hunits hgood]
    exact .complete hgood
  · rw [hsplit, List.forall_mem_append] at hunits
    have hrun := WireUnit.sequence_bad after hunits.1 hbefore hbad
    rw [← hsplit] at hrun
    rw [hrun]
    exact .stopped hsplit hbefore hbad

/-- Writing units succeeds exactly if all of them are good. -/
theorem UnitsOutcome.error_eq_none_iff {units : List WireUnit} {bytes : Bytes} {error : Option WriteError}
    (h : UnitsOutcome units bytes error) : error = none ↔ ∀ u ∈ units, u.Good := by
  cases h with
  | complete hgood => simpa using hgood
  | @stopped before after bad error hunits _ hbad =>
    refine ⟨nofun, fun hgood => ?_⟩
    exact absurd hbad (hgood bad (by simp [hunits]) error)

/-- A message of a template that was read from a source is encoded onto any buffer by the same bytes and with the same
error. There is no error exactly if all its units are good, and then the bytes are those of all units; otherwise the
error is that of the first bad unit, and the bytes are those of the units before it. -/
theorem encodeOnto_stops_at_first_bad_unit {source : String} {t : Template} (hparse : parse source = .ok t) {m : Message}
    (hm : m ∈ t.messages) {body : Body} (hfits : BodyFits m.blocks body) :
    ∃ bytes error, (∀ buffer, encodeOnto buffer m body = (buffer ++ bytes, error)) ∧
      (error = none ↔ ∀ u ∈ messageUnits m body, u.Good) ∧ UnitsOutcome (messageUnits m body) bytes error := by
  have houtcome := outcome_encodeMessage ((parse_valid hparse).messages m hm) hfits
  exact ⟨_, _, fun buffer => rfl, houtcome.error_eq_none_iff, houtcome⟩

/-- A body with two bad units in its second record: a quaternion of norm zero, and behind it a text that is too long. -/
def sampleBadBody : Body :=
  [[[.rotation ⟨0, 0x40400000, 0x40800000, 0⟩, .bytes [7]], [.rotation ⟨0, 0, 0, 0⟩, .bytes (List.replicate 256 0)]]]

/-- The bytes in front of the first of them: the identifier and the first record. -/
def sampleFrontBytes : Bytes :=
  [1, 154, 153, 25, 63, 205, 204, 76, 63, 0, 0, 0, 0, 1, 7]

/-- A rotation of no direction stops the writing behind what stands in front of it. -/
theorem encodeOnto_stops_at_first_bad_unit_sample : BodyFits sampleMove.blocks sampleBadBody ∧
    encodeOnto [9, 9] sampleMove sampleBadBody = ([9, 9] ++ sampleFrontBytes, some (.degenerateQuaternion "Move.Body.Turn")) ∧
      UnitsOutcome (messageUnits sampleMove sampleBadBody) sampleFrontBytes (some (.degenerateQuaternion "Move.Body.Turn")) := by
  have hfits : BodyFits sampleMove.blocks sampleBadBody := by
    simp [BodyFits, BlockFits, AllowsRecords, RecordFits, FieldValue.Fits, sampleMove, sampleBadBody,
      -List.reduceReplicate]
  have hrun : encodeOnto [] sampleMove sampleBadBody = (sampleFrontBytes, some (.degenerateQuaternion "Move.Body.Turn")) := by
    decide +kernel
  obtain ⟨bytes, error, hencode, -, houtcome⟩ :=
    encodeOnto_stops_at_first_bad_unit parse_sampleSource
      (show sampleMove ∈ sampleTemplate.messages by simp [sampleTemplate]) hfits
  obtain ⟨rfl, rfl⟩ : bytes = sampleFrontBytes ∧ error = some (.degenerateQuaternion "Move.Body.Turn") :=
    Prod.mk.inj ((hencode []).symm.trans hrun)
  exact ⟨hfits, hencode [9, 9], houtcome⟩

end MessageCatalog.Wire
