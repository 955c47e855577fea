import MessageCatalog.Proofs.Wire.Delivery
import MessageCatalog.Proofs.Wire.Dispatch
import MessageCatalog.Proofs.Wire.Failures
import MessageCatalog.Proofs.Wire.Units

/-!
# The site that an error speaks of

A failure to read or write names a site of the template by its path. Which site that is follows from how far reading or
writing came: reading fails at a site if everything in front of it is read and what stands there is not (`FailsAt`), and
writing stops at a site if everything in front of it is written and the wire does not hold what stands there
(`StopsAt`). Main statement: the path in an error leads back to that very site, so it tells the message, the block and
the field.
-/

namespace MessageCatalog.Wire

variable {α β : Type}

/-! ## Where writing stops -/

/-- The path in an error that is about a value. -/
def WriteError.place? : WriteError → Option String
  | tooManyRecords block _ => some block
  | variableTooLong field _ _ => some field
  | degenerateQuaternion field => some field
  | _ => none

/-- Where writing a body stops with an error. In front of the site all blocks, all records of the block and all fields
of the record are written, and the unit at the site is bad: the count of the records, or the value of the field. -/
inductive StopsAt (m : Message) (body : Body) (error : WriteError) : Site → Prop where
  | count {before after : List (Block × List Record)} {b : Block} {records : List Record}
      (hblocks : m.blocks.zip body = before ++ (b, records) :: after) (hbefore : ∀ p ∈ before, (encodeBlock p.1 p.2).fault = none)
      (hquantity : b.quantity = .varying) (hbad : (WireUnit.count b.path records.length).Bad error) :
      StopsAt m body error (.block m b)
  | value {before after : List (Block × List Record)} {b : Block} {records done more : List Record} {r : Record}
      {front back : List (Field × FieldValue)} {f : Field} {v : FieldValue}
      (hblocks : m.blocks.zip body = before ++ (b, records) :: after) (hbefore : ∀ p ∈ before, (encodeBlock p.1 p.2).fault = none)
      (hcount : b.quantity = .varying → records.length ≤ maxRecords) (hrecords : records = done ++ r :: more)
      (hdone : ∀ r' ∈ done, (encodeFields b b.fields r').fault = none)
      (hfields : b.fields.zip r = front ++ (f, v) :: back)
      (hfront : ∀ p ∈ front, (encodeValue (b.fieldPath p.1) p.1.type.layout p.2).fault = none)
      (hbad : (WireUnit.field (b.fieldPath f) f.type.layout v).Bad error) : StopsAt m body error (.field m b f)

namespace Emission

theorem append_fault_eq_some_iff {e e' : Emission} {error : WriteError} :
    (e ++ e').fault = some error ↔ e.fault = some error ∨ e.fault = none ∧ e'.fault = some error := by
  change (andThen e e').fault = some error ↔ _
  unfold andThen
  cases h : e.fault <;> simp [h]

/-- Emissions in sequence stop at one of them, behind those that do not stop. -/
theorem sequence_fault {g : α → Emission} {elements : List α} {error : WriteError}
    (h : (sequence (elements.map g)).fault = some error) :
    ∃ before a after, elements = before ++ a :: after ∧ (∀ b ∈ before, (g b).fault = none) ∧ (g a).fault = some error := by
  induction elements with
  | nil => cases h
  | cons a elements ih =>
    rcases append_fault_eq_some_iff.mp h with hfirst | ⟨hpassed, hlater⟩
    · exact ⟨[], a, elements, rfl, List.forall_mem_nil _, hfirst⟩
    · obtain ⟨before, a', after, rfl, hbefore, hfault⟩ := ih hlater
      exact ⟨a :: before, a', after, rfl, List.forall_mem_cons.mpr ⟨hpassed, hbefore⟩, hfault⟩

end Emission

/-- The place that a unit knows. -/
def WireUnit.place? : WireUnit → Option String
  | identifier _ => none
  | count place _ => some place
  | field place _ _ => some place

/-- The error of a bad unit names the place of the unit. -/
theorem WireUnit.Bad.place? {u : WireUnit} {error : WriteError} (h : u.Bad error) : error.place? = u.place? := by
  cases h <;> rfl

/-- A value that is not written makes its unit bad, unless it is not of its type. -/
theorem bad_of_encodeValue {place path : String} {layout : Layout} {v : FieldValue} {error : WriteError}
    (h : (encodeValue place layout v).fault = some error) (hpath : error.place? = some path) :
    (WireUnit.field place layout v).Bad error := by
  unfold encodeValue at h
  -- quaternions, counted bytes and values of another type can stop, everything else is written
  split at h
  case h_4 q =>
    split at h
    · cases h
    · rename_i hunit
      cases h
      exact .degenerateQuaternion hunit
  case h_6 width content =>
    split at h
    · cases h
    · rename_i hlong
      cases h
      exact .variableTooLong (Nat.not_le.mp hlong)
  case h_8 =>
    cases h
    cases hpath
  all_goals cases h

/-- Writes something for each pair of two rows, which have to be of the same length. -/
def encodeEach (encoder : α → β → Emission) (uneven : WriteError) : List α → List β → Emission
  | [], [] => .wrote []
  | a :: as, b :: bs => encoder a b ++ encodeEach encoder uneven as bs
  | _, _ => .stopped uneven

theorem encodeFields_eq_each (b : Block) (fields : List Field) (r : Record) :
    encodeFields b fields r =
      encodeEach (fun f v => encodeValue (b.fieldPath f) f.type.layout v) (.illTyped b.path) fields r := by
  induction fields generalizing r with
  | nil => cases r <;> rfl
  | cons f fields ih =>
    cases r with
    | nil => rfl
    | cons v values => rw [encodeFields, encodeEach, ih]

theorem encodeBlocks_eq_each (message : String) (blocks : List Block) (body : Body) :
    encodeBlocks message blocks body = encodeEach encodeBlock (.illTyped message) blocks body := by
  induction blocks generalizing body with
  | nil => cases body <;> rfl
  | cons b blocks ih =>
    cases body with
    | nil => rfl
    | cons records body => rw [encodeBlocks, encodeEach, ih]

/-- Writing something for each pair stops at one of them, behind those that are written, unless the rows are uneven. -/
theorem encodeEach_fault {encoder : α → β → Emission} {uneven error : WriteError} {as : List α} {bs : List β}
    (h : (encodeEach encoder uneven as bs).fault = some error) : error = uneven ∨
      ∃ before a b after, as.zip bs = before ++ (a, b) :: after ∧ (∀ p ∈ before, (encoder p.1 p.2).fault = none) ∧
        (encoder a b).fault = some error := by
  induction as generalizing bs with
  | nil =>
    cases bs with
    | nil => cases h
    | cons b bs => exact .inl (Option.some.inj h).symm
  | cons a as ih =>
    cases bs with
    | nil => exact .inl (Option.some.inj h).symm
    | cons b bs =>
      rcases Emission.append_fault_eq_some_iff.mp h with hfirst | ⟨hpassed, hlater⟩
      · exact .inr ⟨[], a, b, as.zip bs, rfl, List.forall_mem_nil _, hfirst⟩
      · refine (ih hlater).imp_right ?_
        rintro ⟨before, a', b', after, hzip, hbefore, hfault⟩
        exact ⟨(a, b) :: before, a', b', after, by rw [List.zip_cons_cons, hzip, List.cons_append],
          List.forall_mem_cons.mpr ⟨hpassed, hbefore⟩, hfault⟩

/-- What stops a block is the count of its records, or one of them behind a count that is written. -/
theorem encodeBlock_fault {b : Block} {records : List Record} {error : WriteError}
    (h : (encodeBlock b records).fault = some error) :
    b.quantity = .varying ∧ (WireUnit.count b.path records.length).Bad error ∨
      (b.quantity = .varying → records.length ≤ maxRecords) ∧
        (Emission.sequence (records.map (encodeFields b b.fields))).fault = some error := by
  unfold encodeBlock at h
  split at h
  · rename_i hquantity
    split at h
    · rename_i hfew
      rcases Emission.append_fault_eq_some_iff.mp h with hcount | ⟨-, hrecords⟩
      · cases hcount
      · exact .inr ⟨fun _ => hfew, hrecords⟩
    · rename_i hmany
      cases h
      exact .inl ⟨hquantity, .tooManyRecords (Nat.not_le.mp hmany)⟩
  · rename_i hdeclared
    exact .inr ⟨fun hvarying => absurd hvarying hdeclared, h⟩

/-- A body that is not written stops at a site of its message, and an error about a value has the path of the site. -/
theorem stopsAt_of_encodeMessage {m : Message} {body : Body} {error : WriteError} {path : String}
    (h : (encodeMessage m body).fault = some error) (hpath : error.place? = some path) :
    ∃ site ∈ m.sites, path = site.path ∧ StopsAt m body error site := by
  have hbody : (encodeBlocks m.name m.blocks body).fault = some error := by
    rcases Emission.append_fault_eq_some_iff.mp h with hidentifier | ⟨-, hbody⟩
    · cases hidentifier
    · exact hbody
  rw [encodeBlocks_eq_each] at hbody
  rcases encodeEach_fault hbody with rfl | ⟨before, b, records, after, hblocks, hbefore, hblock⟩
  · cases hpath
  have hb : b ∈ m.blocks := (List.of_mem_zip (hblocks ▸ List.mem_append_right before List.mem_cons_self)).1
  rcases encodeBlock_fault hblock with ⟨hquantity, hbad⟩ | ⟨hcount, hrecords⟩
  · exact ⟨.block m b, Message.mem_sites_iff.mpr ⟨b, hb, .inl rfl⟩, Option.some.inj (hpath.symm.trans hbad.place?),
      .count hblocks hbefore hquantity hbad⟩
  obtain ⟨done, r, more, hrecords, hdone, hrecord⟩ := Emission.sequence_fault hrecords
  rw [encodeFields_eq_each] at hrecord
  rcases encodeEach_fault hrecord with rfl | ⟨front, f, v, back, hfields, hfront, hvalue⟩
  · cases hpath
  have hf : f ∈ b.fields := (List.of_mem_zip (hfields ▸ List.mem_append_right front List.mem_cons_self)).1
  have hbad := bad_of_encodeValue hvalue hpath
  exact ⟨.field m b f, Message.mem_sites_iff.mpr ⟨b, hb, .inr ⟨f, hf, rfl⟩⟩, Option.some.inj (hpath.symm.trans hbad.place?),
    .value hblocks hbefore hcount hrecords hdone hfields hfront hbad⟩

/-! ## From the path to the site -/

/-- An error with a path comes from the body of the message that the identifier names. -/
theorem decodeBlocks_of_read {c : Catalog} {s left : Source} {e : ReadError} {path : String} (h : c.read s = .error e left)
    (hpath : e.field? = some path) :
    ∃ m ∈ c.template.messages, ∃ s₁, takeMessageNumber s = .ok m.number s₁ ∧ decodeBlocks m.blocks s₁ = .error e left := by
  unfold Catalog.read at h
  split at h
  · rename_i number s₁ hnumber
    rcases dispatch_eq_error h with ⟨-, rfl⟩ | ⟨m, -, -, rfl⟩ | ⟨m, hm, -, hbody⟩
    · cases hpath
    · cases hpath
    · obtain rfl : m.number = number := by simpa using List.find?_some hm
      exact ⟨m, List.mem_of_find?_eq_some hm, s₁, hnumber, hbody⟩
  · cases h
    cases hpath

/-- An error with a path comes from encoding, not from the sink. -/
theorem encodeMessage_of_write {c : Catalog} {m : Message} {body : Body} {sink : Sink} {error : WriteError} {path : String}
    (h : (c.write m body sink).error = some error) (hpath : error.place? = some path) :
    (encodeMessage m body).fault = some error := by
  cases hcodec : c.hasCodec m with
  | false =>
    rw [c.write_of_noCodec hcodec sink] at h
    cases h
    cases hpath
  | true =>
    cases hbytes : toBytes m body with
    | ok bytes =>
      obtain ⟨-, -, -, -, hfull⟩ := c.write_of_ok hcodec hbytes sink
      rw [hfull error h] at hpath
      cases hpath
    | error error' =>
      rw [c.write_of_error hcodec hbytes sink] at h
      cases h
      exact Emission.toExcept_eq_error_iff.mp hbytes

/-- In a template that was read from a source, no two sites have the same path. The path of a site gives its names and
the site itself, so an error with a path tells where it comes from: reading the body of a message failed at the site of
the path, also where only the source told which message it is, and writing a message stopped there. -/
theorem paths_identify_sites {source : String} {t : Template} (hparse : parse source = .ok t) :
    (t.sites.map Site.path).Nodup ∧
      (∀ site ∈ t.sites, pathNames site.path = site.names ∧ t.site? site.path = some site) ∧
      (∀ m ∈ t.messages, ∀ s e left, decodeBlocks m.blocks s = .error e left →
        ∃ path fault site, e = .field path fault ∧ t.site? path = some site ∧ FailsAt m s fault left site) ∧
      (∀ disabled s e left path, Catalog.read ⟨t, disabled⟩ s = .error e left → e.field? = some path →
        ∃ m s₁ fault site, takeMessageNumber s = .ok m.number s₁ ∧ e = .field path fault ∧ t.site? path = some site ∧
          FailsAt m s₁ fault left site) ∧
      ∀ m ∈ t.messages, ∀ body error path, error.place? = some path →
        ((∃ buffer, (encodeOnto buffer m body).2 = some error) ∨
          ∃ disabled sink, (Catalog.write ⟨t, disabled⟩ m body sink).error = some error) →
        ∃ site, t.site? path = some site ∧ StopsAt m body error site := by
  have hvalid := parse_valid hparse
  have hsite {m : Message} (hm : m ∈ t.messages) {site : Site} (h : site ∈ m.sites) : t.site? site.path = some site :=
    hvalid.site?_path (List.mem_flatMap.mpr ⟨m, hm, h⟩)
  have hbody {m : Message} (hm : m ∈ t.messages) {s left : Source} {e : ReadError} (h : decodeBlocks m.blocks s = .error e left) :
      ∃ path fault site, e = .field path fault ∧ t.site? path = some site ∧ FailsAt m s fault left site := by
    obtain ⟨site, hmem, fault, he, hfails⟩ := failsAt_of_decodeBlocks h
    exact ⟨site.path, fault, site, he, hsite hm hmem, hfails⟩
  refine ⟨hvalid.nodup_paths, ?_, ?_, ?_, ?_⟩
  · intro site h
    exact ⟨hvalid.pathNames_path h, hvalid.site?_path h⟩
  · intro m hm s e left h
    exact hbody hm h
  · intro disabled s e left path h hpath
    obtain ⟨m, hm, s₁, hnumber, hread⟩ := decodeBlocks_of_read h hpath
    obtain ⟨path', fault, site, rfl, hfound, hfails⟩ := hbody hm hread
    obtain rfl : path' = path := Option.some.inj hpath
    exact ⟨m, s₁, fault, site, hnumber, rfl, hfound, hfails⟩
  · intro m hm body error path hpath h
    have hfault : (encodeMessage m body).fault = some error := by
      rcases h with ⟨buffer, h⟩ | ⟨disabled, sink, h⟩
      · exact h
      · exact encodeMessage_of_write h hpath
    obtain ⟨site, hmem, rfl, hstops⟩ := stopsAt_of_encodeMessage hfault hpath
    exact ⟨site, hsite hm hmem, hstops⟩

/-- A field of each of any number of records. -/
def sampleDataSite : Site :=
  .field samplePing ⟨"Flags", .varying, [⟨"Seen", .bool, 16⟩, ⟨"Data", .fixed 2, 17⟩], "Ping", 15⟩ ⟨"Data", .fixed 2, 17⟩

/-- A field of each of two records. -/
def sampleTurnSite : Site :=
  .field sampleMove ⟨"Body", .multiple 2, [⟨"Turn", .quaternion, 8⟩, ⟨"Text", .varying .one, 9⟩], "Move", 7⟩
    ⟨"Turn", .quaternion, 8⟩

/-- A source breaks in the second record of a message, and a quaternion of norm zero stands in the second record of
another one. -/
theorem paths_identify_sites_sample : parse sampleSource = .ok sampleTemplate ∧
    (sampleTemplate.sites.map Site.path).Nodup ∧ sampleTemplate.site? "Ping.Flags.Data" = some sampleDataSite ∧
      decodeBlocks samplePing.blocks ⟨[2, 1, 10, 11, 5, 12], .broken "gone"⟩ =
        .error (.field "Ping.Flags.Data" (.broken "gone")) ⟨[], .broken "gone"⟩ ∧
      FailsAt samplePing ⟨[2, 1, 10, 11, 5, 12], .broken "gone"⟩ (.broken "gone") ⟨[], .broken "gone"⟩ sampleDataSite ∧
      sampleTemplate.site? "Move.Body.Turn" = some sampleTurnSite ∧
      (encodeOnto [9, 9] sampleMove sampleBadBody).2 = some (.degenerateQuaternion "Move.Body.Turn") ∧
      StopsAt sampleMove sampleBadBody (.degenerateQuaternion "Move.Body.Turn") sampleTurnSite := by
  have hdata : sampleTemplate.site? "Ping.Flags.Data" = some sampleDataSite := by decide +kernel
  have hturn : sampleTemplate.site? "Move.Body.Turn" = some sampleTurnSite := by decide +kernel
  have hread : decodeBlocks samplePing.blocks ⟨[2, 1, 10, 11, 5, 12], .broken "gone"⟩ =
      .error (.field "Ping.Flags.Data" (.broken "gone")) ⟨[], .broken "gone"⟩ := rfl
  have hwrite : (encodeOnto [9, 9] sampleMove sampleBadBody).2 = some (.degenerateQuaternion "Move.Body.Turn") := by
    decide +kernel
  obtain ⟨hnodup, -, hbody, -, hwritten⟩ := paths_identify_sites parse_sampleSource
  obtain ⟨path, fault, site, he, hsite, hfails⟩ := hbody samplePing (by simp [sampleTemplate]) _ _ _ hread
  obtain ⟨rfl, rfl⟩ : "Ping.Flags.Data" = path ∧ .broken "gone" = fault := ReadError.field.inj he
  obtain rfl : sampleDataSite = site := Option.some.inj (hdata.symm.trans hsite)
  obtain ⟨site, hsite, hstops⟩ := hwritten sampleMove (by simp [sampleTemplate]) _ _ _ rfl (.inl ⟨[9, 9], hwrite⟩)
  obtain rfl : sampleTurnSite = site := Option.some.inj (hturn.symm.trans hsite)
  exact ⟨parse_sampleSource, hnodup, hdata, hread, hfails, hturn, hwrite, hstops⟩

end MessageCatalog.Wire
