import MessageCatalog.Proofs.Code.Records
import MessageCatalog.Proofs.Source.Soundness
import MessageCatalog.Proofs.Uniqueness

/-!
# The type names of generated code

The check of type names passes exactly the lists that repeat no name and use none that is taken, and it blames the first
name that offends. Behind it no part of the generator can fail: whatever is to be an identifier is a name, and a record
type has no field twice.

The check does not see every name that the generated text has a use for. The bounds of a type parameter name `Sized`,
the parameter itself is `R`, and the reserved words are kept from messages, but not from what a message, the separator
and a block make together.
-/

namespace MessageCatalog

/-! ## The check -/

/-- Whether no type name is taken, and none comes twice. -/
def NamesClear (names : List TypeName) : Prop :=
  (names.map (·.name)).Nodup ∧ ∀ n ∈ names, n.name ∉ Naming.scopeNames

instance (names : List TypeName) : Decidable (NamesClear names) :=
  inferInstanceAs (Decidable (_ ∧ _))

/-- The error of a type name behind others: it is taken, or an earlier one is the same. -/
inductive Offends (before : List TypeName) (bad : TypeName) : Error → Prop where
  | taken (h : bad.name ∈ Naming.scopeNames) : Offends before bad (.located bad.line (.typeNameTaken bad.name bad.origin))
  | repeated {earlier : TypeName} (hfree : bad.name ∉ Naming.scopeNames) (hearlier : earlier ∈ before)
      (hname : earlier.name = bad.name) : Offends before bad (.duplicate (.generatedType bad.name earlier.origin bad.origin))

/-- The error of the first type name that offends. -/
def FirstOffence (names : List TypeName) (e : Error) : Prop :=
  ∃ before bad after, names = before ++ bad :: after ∧ NamesClear before ∧ Offends before bad e

/-- A name is in use if it is among the names in scope. -/
theorem shadowsScope_eq_true_iff {name : String} : Naming.shadowsScope name = true ↔ name ∈ Naming.scopeNames :=
  List.contains_iff_mem

/-- One name more is clear if it is neither in use nor among the others. -/
theorem namesClear_concat_iff {names : List TypeName} {last : TypeName} :
    NamesClear (names ++ [last]) ↔ NamesClear names ∧ last.name ∉ Naming.scopeNames ∧ last.name ∉ names.map (·.name) := by
  simp only [NamesClear, List.map_append, List.map_singleton, List.nodup_append_comm, List.singleton_append, List.nodup_cons,
    List.forall_mem_append, List.forall_mem_singleton]
  constructor
  · rintro ⟨⟨hnew, hnodup⟩, hfree, hlast⟩
    exact ⟨⟨hnodup, hfree⟩, hlast, hnew⟩
  · rintro ⟨⟨hnodup, hfree⟩, hlast, hnew⟩
    exact ⟨⟨hnew, hnodup⟩, hfree, hlast⟩

/-- Names are clear, or one of them is the first to offend. -/
theorem namesClear_or_offence (names : List TypeName) : NamesClear names ∨ ∃ e, FirstOffence names e := by
  induction names using List.reverseRecOn with
  | nil => exact .inl ⟨List.nodup_nil, List.forall_mem_nil _⟩
  | append_singleton names last ih =>
    rcases ih with hclear | ⟨e, before, bad, after, rfl, hclear, hbad⟩
    · by_cases htaken : last.name ∈ Naming.scopeNames
      · exact .inr ⟨_, names, last, [], rfl, hclear, .taken htaken⟩
      · by_cases hseen : last.name ∈ names.map (·.name)
        · obtain ⟨earlier, hearlier, hname⟩ := List.mem_map.mp hseen
          exact .inr ⟨_, names, last, [], rfl, hclear, .repeated htaken hearlier hname⟩
        · exact .inl (namesClear_concat_iff.mpr ⟨hclear, htaken, hseen⟩)
    · exact .inr ⟨e, before, bad, after ++ [last], by simp, hclear, hbad⟩

/-- The check goes through clear names, which it has then seen, the last of them first. -/
theorem checkTypeNames_append {before : List TypeName} (rest : List TypeName) (h : NamesClear before) :
    checkTypeNames [] (before ++ rest) = checkTypeNames before.reverse rest := by
  induction before using List.reverseRecOn generalizing rest with
  | nil => rfl
  | append_singleton before last ih =>
    obtain ⟨hclear, htaken, hnew⟩ := namesClear_concat_iff.mp h
    have hfree : Naming.shadowsScope last.name = false := by
      rw [← Bool.not_eq_true, shadowsScope_eq_true_iff]
      exact htaken
    have hfind : before.reverse.find? (·.name == last.name) = none := by
      rw [List.find?_eq_none]
      intro n hn hname
      exact hnew (List.mem_map.mpr ⟨n, List.mem_reverse.mp hn, beq_iff_eq.mp hname⟩)
    rw [List.append_assoc, List.singleton_append, ih (last :: rest) hclear, checkTypeNames, hfree, hfind, List.reverse_concat]
    rfl

/-- The check stops at a name that offends. -/
theorem checkTypeNames_of_offends {before : List TypeName} {bad : TypeName} {e : Error} (after : List TypeName)
    (hclear : NamesClear before) (h : Offends before bad e) : checkTypeNames before.reverse (bad :: after) = .error e := by
  rw [checkTypeNames]
  cases h with
  | taken htaken => rw [if_pos (shadowsScope_eq_true_iff.mpr htaken)]
  | @repeated earlier hfree hearlier hname =>
    have hdistinct : (before.reverse.map (·.name)).Nodup := by
      rw [List.map_reverse, List.nodup_reverse]
      exact hclear.1
    have hfind : before.reverse.find? (·.name == bad.name) = some earlier := by
      rw [← hname]
      exact find?_key_eq_some hdistinct (List.mem_reverse.mpr hearlier)
    rw [if_neg (mt shadowsScope_eq_true_iff.mp hfree), hfind]

/-- Names that are clear pass the check. -/
theorem checkTypeNames_of_clear {names : List TypeName} (h : NamesClear names) : checkTypeNames [] names = .ok () := by
  have hrun := checkTypeNames_append [] h
  rwa [List.append_nil] at hrun

/-- Names that are not clear fail with the first offence. -/
theorem checkTypeNames_of_firstOffence {names : List TypeName} {e : Error} (h : FirstOffence names e) :
    checkTypeNames [] names = .error e := by
  obtain ⟨before, bad, after, rfl, hclear, hbad⟩ := h
  rw [checkTypeNames_append (bad :: after) hclear, checkTypeNames_of_offends after hclear hbad]

/-- The check passes exactly the clear names. -/
theorem checkTypeNames_eq_ok_iff {names : List TypeName} : checkTypeNames [] names = .ok () ↔ NamesClear names := by
  refine ⟨fun h => ?_, checkTypeNames_of_clear⟩
  rcases namesClear_or_offence names with hclear | ⟨e, he⟩
  · exact hclear
  · rw [checkTypeNames_of_firstOffence he] at h
    cases h

/-- The check fails with the error of the first name that offends, and with no other. -/
theorem checkTypeNames_eq_error_iff {names : List TypeName} {e : Error} :
    checkTypeNames [] names = .error e ↔ FirstOffence names e := by
  refine ⟨fun h => ?_, checkTypeNames_of_firstOffence⟩
  rcases namesClear_or_offence names with hclear | ⟨e', he'⟩
  · rw [checkTypeNames_of_clear hclear] at h
    cases h
  · rw [checkTypeNames_of_firstOffence he'] at h
    obtain rfl := Except.error.inj h
    exact he'

/-! ## Generating -/

/-- Behind the check nothing can fail. -/
theorem Generator.generate_eq (g : Generator) (t : Template) : g.generate t = (checkTypeNames [] (g.typeNames t)).map fun _ =>
    ⟨t.version, g.outlineCode (t.outline g.config.disabled), t.messages.length, (t.outline g.config.disabled).diagnostics⟩ := by
  unfold Generator.generate
  cases checkTypeNames [] (g.typeNames t) <;> rfl

/-- Behind a good configuration and a template that is read, only the generator can fail. -/
theorem generate_eq_of_ok {source : String} {config : Config} {g : Generator} {t : Template} (hg : config.toGenerator = .ok g)
    (ht : parse source = .ok t) : generate source config = g.generate t := by
  unfold generate
  rw [hg, ht]
  rfl

/-- Code is generated exactly if the type names are clear. -/
theorem generate_ok_iff {source : String} {config : Config} {g : Generator} {t : Template} (hg : config.toGenerator = .ok g)
    (ht : parse source = .ok t) : (∃ out, generate source config = .ok out) ↔ NamesClear (g.typeNames t) := by
  rw [generate_eq_of_ok hg ht, Generator.generate_eq, ← checkTypeNames_eq_ok_iff]
  cases checkTypeNames [] (g.typeNames t) <;> simp [Except.map]

/-- Generating fails exactly with the first offence among the type names. -/
theorem generate_error_iff {source : String} {config : Config} {g : Generator} {t : Template} (hg : config.toGenerator = .ok g)
    (ht : parse source = .ok t) (e : Error) : generate source config = .error e ↔ FirstOffence (g.typeNames t) e := by
  rw [generate_eq_of_ok hg ht, Generator.generate_eq, ← checkTypeNames_eq_error_iff]
  cases checkTypeNames [] (g.typeNames t) <;> simp [Except.map]

/-- What is generated is the code of the outline of the template, with its diagnostics. -/
theorem eq_of_generate {source : String} {config : Config} {g : Generator} {t : Template} {out : Generated}
    (hg : config.toGenerator = .ok g) (ht : parse source = .ok t) (h : generate source config = .ok out) :
    out = ⟨t.version, g.outlineCode (t.outline g.config.disabled), t.messages.length,
      (t.outline g.config.disabled).diagnostics⟩ := by
  rw [generate_eq_of_ok hg ht, Generator.generate_eq] at h
  cases hcheck : checkTypeNames [] (g.typeNames t) with
  | error e =>
    rw [hcheck] at h
    cases h
  | ok u =>
    rw [hcheck] at h
    exact (Except.ok.inj h).symm

/-- The code that is generated is that of the outline. -/
theorem code_of_generate {source : String} {config : Config} {g : Generator} {t : Template} {out : Generated}
    (hg : config.toGenerator = .ok g) (ht : parse source = .ok t) (h : generate source config = .ok out) :
    out.code = g.outlineCode (t.outline g.config.disabled) := by
  rw [eq_of_generate hg ht h]

/-- The generated code declares the record types of the template. -/
theorem recordTypes_of_generate {source : String} {config : Config} {g : Generator} {t : Template} {out : Generated}
    (hg : config.toGenerator = .ok g) (ht : parse source = .ok t) (h : generate source config = .ok out) :
    Code.recordTypes out.code = g.recordTypes t := by
  rw [code_of_generate hg ht h, (Config.sound_of_toGenerator hg).recordTypes_outlineCode]

/-- The fields of a record type are those of a block, or the blocks of a message. -/
theorem fields_of_mem_recordTypes {g : Generator} {t : Template} {record : RecordType} (h : record ∈ g.recordTypes t) :
    ∃ names : List String, record.fields = names.map Naming.fieldName := by
  obtain ⟨m, -, h⟩ := List.mem_flatMap.mp h
  rcases List.mem_append.mp h with h | h
  · obtain ⟨b, -, rfl⟩ := List.mem_map.mp h
    exact ⟨b.fields.map (·.name), by simp [Generator.blockRecordType]⟩
  · obtain rfl := List.mem_singleton.mp h
    exact ⟨m.blocks.map (·.name), by simp [Message.recordType]⟩

/-- No record type of a template that declares nothing twice has a field twice. -/
theorem nodup_fields_of_mem_recordTypes {g : Generator} {t : Template} (ht : t.Distinct) {record : RecordType}
    (h : record ∈ g.recordTypes t) : record.fields.Nodup := by
  obtain ⟨m, hm, h⟩ := List.mem_flatMap.mp h
  rcases List.mem_append.mp h with h | h
  · obtain ⟨b, hb, rfl⟩ := List.mem_map.mp h
    exact ht.fields m hm b hb
  · obtain rfl := List.mem_singleton.mp h
    exact ht.blocks m hm

/-- Generating code for a template that was read fails only on type names, with the error of the first that offends.
Every name in the code becomes an identifier, and the code declares the record types of the template, the fields of each
distinct and none of them a reserved word. -/
theorem generate_fails_only_on_type_names {source : String} {config : Config} {g : Generator} {t : Template}
    (hg : config.toGenerator = .ok g) (ht : parse source = .ok t) :
    ((∃ out, generate source config = .ok out) ↔ NamesClear (g.typeNames t)) ∧
      (∀ e, generate source config = .error e ↔ FirstOffence (g.typeNames t) e) ∧
      ∀ out, generate source config = .ok out →
        (∀ use text, (use, text) ∈ Code.names out.code → IsName text ∧ use.identifier? text = some (use.spelling text)) ∧
          Code.recordTypes out.code = g.recordTypes t ∧
          ∀ record ∈ Code.recordTypes out.code, record.fields.Nodup ∧
            ∀ field ∈ record.fields, Naming.isReserved field = false := by
  refine ⟨generate_ok_iff hg ht, generate_error_iff hg ht, fun out hout => ?_⟩
  have hsound := Config.sound_of_toGenerator hg
  have hvalid := parse_valid ht
  have hrecords := recordTypes_of_generate hg ht hout
  refine ⟨fun use text hname => ?_, hrecords, fun record hrecord => ?_⟩
  · rw [code_of_generate hg ht hout] at hname
    have htext : IsName text := hsound.isNamed_outlineCode hvalid _ _ hname
    exact ⟨htext, Naming.identifier?_eq_some htext use⟩
  · rw [hrecords] at hrecord
    refine ⟨nodup_fields_of_mem_recordTypes hvalid.distinct hrecord, fun field hfield => ?_⟩
    obtain ⟨names, hnames⟩ := fields_of_mem_recordTypes hrecord
    rw [hnames] at hfield
    obtain ⟨name, -, rfl⟩ := List.mem_map.mp hfield
    exact Naming.isReserved_fieldName name

/-- Code is generated for clear names, and declares the record types of the template. -/
theorem generate_of_clear {source : String} {config : Config} {g : Generator} {t : Template} (hg : config.toGenerator = .ok g)
    (ht : parse source = .ok t) (hclear : NamesClear (g.typeNames t)) :
    ∃ out, generate source config = .ok out ∧ Code.recordTypes out.code = g.recordTypes t := by
  obtain ⟨out, hout⟩ := (generate_ok_iff hg ht).mpr hclear
  exact ⟨out, hout, recordTypes_of_generate hg ht hout⟩

/-- Code is generated for the small catalog. -/
theorem generate_sampleSource :
    ∃ runtime out, Config.toGenerator {} = .ok ⟨{}, runtime⟩ ∧ generate sampleSource {} = .ok out := by
  obtain ⟨g, hg⟩ := exists_of_isOk (show (Config.toGenerator {}).isOk = true by decide +kernel)
  obtain ⟨runtime, -, -, rfl⟩ := Config.of_toGenerator hg
  have hnames : Generator.typeNames ⟨{}, runtime⟩ sampleTemplate =
      [⟨"Move", "Move", 5⟩, ⟨"Move_Body", "Move.Body", 7⟩, ⟨"Ping", "Ping", 13⟩, ⟨"Ping_Flags", "Ping.Flags", 15⟩] := rfl
  obtain ⟨out, hout, -⟩ := generate_of_clear hg parse_sampleSource (hnames ▸ by decide)
  exact ⟨runtime, out, hg, hout⟩

/-- For the small catalog record types are declared of its messages and blocks, with their fields. -/
theorem generate_fails_only_on_type_names_sample :
    ∃ g out, Config.toGenerator {} = .ok g ∧ parse sampleSource = .ok sampleTemplate ∧
    generate sampleSource {} = .ok out ∧ Code.recordTypes out.code =
      [⟨"Move_Body", ["turn", "text"]⟩, ⟨"Move", ["body"]⟩, ⟨"Ping_Flags", ["seen", "data"]⟩, ⟨"Ping", ["flags"]⟩] := by
  obtain ⟨runtime, out, hg, hgenerate⟩ := generate_sampleSource
  obtain ⟨-, -, hout⟩ := generate_fails_only_on_type_names hg parse_sampleSource
  exact ⟨_, out, hg, parse_sampleSource, hgenerate, (hout out hgenerate).2.1.trans rfl⟩

/-! ## Names the check does not see -/

namespace Naming

/-- The names in the bounds of generated functions: what the parameter is asked to be, and the parameter itself. -/
def boundNames : List String := ["Sized", "R"]

/-- Whether a type can have the name: it is no reserved word, and the generated text uses it for nothing else. -/
structure IsUsable (name : String) : Prop where
  notReserved : isReserved name = false
  notTaken : name ∉ scopeNames
  notBound : name ∉ boundNames

/-- A text with an underscore and more is neither reserved nor in a bound. -/
theorem free_of_underscore {name : String} (hmark : '_' ∈ name.toList) (hlength : 1 < name.toList.length) :
    isReserved name = false ∧ name ∉ boundNames := by
  have hwords : (reservedWords ++ boundNames).all (fun word => !word.toList.contains '_' || word.toList.length == 1) = true := by
    decide
  have hname : name ∉ reservedWords ++ boundNames := by
    intro hmem
    have hword := List.all_eq_true.mp hwords name hmem
    simp only [Bool.or_eq_true, Bool.not_eq_true', beq_iff_eq, ← Bool.not_eq_true, List.contains_iff_mem] at hword
    rcases hword with hword | hword
    · exact hword hmark
    · omega
  rw [List.mem_append, not_or] at hname
  refine ⟨?_, hname.2⟩
  rw [← Bool.not_eq_true, isReserved, List.contains_iff_mem]
  exact hname.1

/-- A separator with an underscore keeps the type name of a block from all of them. -/
theorem free_blockTypeName {message block separator : String} (hmessage : IsName message) (hmark : '_' ∈ separator.toList) :
    isReserved (blockTypeName message block separator) = false ∧ blockTypeName message block separator ∉ boundNames := by
  obtain ⟨c, rest, hname, -, -⟩ := hmessage
  have hseparator := List.length_pos_of_mem hmark
  apply free_of_underscore
  · simp [blockTypeName, hmark]
  · simp only [blockTypeName, String.toList_append, hname, List.length_append, List.length_cons]
    omega

end Naming

/-- The record types of a template are named like its messages, and like its messages and blocks together. -/
theorem forall_recordTypes_iff {g : Generator} {t : Template} (P : String → Prop) :
    (∀ record ∈ g.recordTypes t, P record.name) ↔
      (∀ m ∈ t.messages, P m.name) ∧ ∀ m ∈ t.messages, ∀ b ∈ m.blocks, P (g.blockTypeName b) := by
  simp only [Generator.recordTypes, List.forall_mem_flatMap, List.forall_mem_append, List.forall_mem_map,
    List.forall_mem_singleton, Generator.blockRecordType, Message.recordType]
  constructor
  · intro h
    exact ⟨fun m hm => (h m hm).2, fun m hm => (h m hm).1⟩
  · rintro ⟨hmessages, hblocks⟩ m hm
    exact ⟨hblocks m hm, hmessages m hm⟩

/-- All type names have a property if those of messages and of blocks have it. -/
theorem forall_typeNames_iff {g : Generator} {t : Template} (P : String → Prop) :
    (∀ n ∈ g.typeNames t, P n.name) ↔
      (∀ m ∈ t.messages, P m.name) ∧ ∀ m ∈ t.messages, ∀ b ∈ m.blocks, P (g.blockTypeName b) := by
  simp only [Generator.typeNames, Generator.messageTypeNames, List.forall_mem_flatMap, List.forall_mem_cons, List.forall_mem_map]
  exact forall₂_and

/-- With the names that are checked out of the way, the bounds and the reserved words that blocks make are left. -/
theorem forall_usable_iff {g : Generator} {t : Template} (hreserved : ∀ m ∈ t.messages, Naming.isReserved m.name = false)
    (hmessages : ∀ m ∈ t.messages, m.name ∉ Naming.scopeNames)
    (hblocks : ∀ m ∈ t.messages, ∀ b ∈ m.blocks, g.blockTypeName b ∉ Naming.scopeNames) :
    (∀ record ∈ g.recordTypes t, Naming.IsUsable record.name) ↔
      (∀ m ∈ t.messages, m.name ∉ Naming.boundNames) ∧
        ∀ m ∈ t.messages, ∀ b ∈ m.blocks,
          Naming.isReserved (g.blockTypeName b) = false ∧ g.blockTypeName b ∉ Naming.boundNames := by
  rw [forall_recordTypes_iff Naming.IsUsable]
  constructor
  · rintro ⟨hm, hb⟩
    exact ⟨fun m h => (hm m h).notBound, fun m h b h' => ⟨(hb m h b h').notReserved, (hb m h b h').notBound⟩⟩
  · rintro ⟨hm, hb⟩
    refine ⟨fun m h => ⟨hreserved m h, hmessages m h, hm m h⟩, fun m h b h' => ?_⟩
    obtain ⟨hfree, hbound⟩ := hb m h b h'
    exact ⟨hfree, hblocks m h b h', hbound⟩

/-- No generated type takes a name that the check knows, and no message is a reserved word. All generated types have usable names
exactly if no message and no block of one makes a name of a bound, and no block makes a reserved word. With an underscore in the
separator the messages alone decide. -/
theorem usable_names_iff_of_generate {source : String} {config : Config} {g : Generator} {t : Template} {out : Generated}
    (hg : config.toGenerator = .ok g) (ht : parse source = .ok t) (hout : generate source config = .ok out) :
    (∀ record ∈ Code.recordTypes out.code, record.name ∉ Naming.scopeNames) ∧
      (∀ m ∈ t.messages, Naming.isReserved m.name = false) ∧
      ((∀ record ∈ Code.recordTypes out.code, Naming.IsUsable record.name) ↔
        (∀ m ∈ t.messages, m.name ∉ Naming.boundNames) ∧
          ∀ m ∈ t.messages, ∀ b ∈ m.blocks,
            Naming.isReserved (g.blockTypeName b) = false ∧ g.blockTypeName b ∉ Naming.boundNames) ∧
      ('_' ∈ config.separator.toList →
        ((∀ record ∈ Code.recordTypes out.code, Naming.IsUsable record.name) ↔
          ∀ m ∈ t.messages, m.name ∉ Naming.boundNames)) := by
  have hvalid := parse_valid ht
  have hrecords := recordTypes_of_generate hg ht hout
  obtain ⟨hmessages, hblocks⟩ :=
    (forall_typeNames_iff (· ∉ Naming.scopeNames)).mp ((generate_ok_iff hg ht).mp ⟨out, hout⟩).2
  have hreserved : ∀ m ∈ t.messages, Naming.isReserved m.name = false := fun m hm => (hvalid.messages m hm).notReserved
  have husable := forall_usable_iff hreserved hmessages hblocks
  rw [hrecords]
  refine ⟨(forall_recordTypes_iff (· ∉ Naming.scopeNames)).mpr ⟨hmessages, hblocks⟩, hreserved, husable,
    fun hmark => husable.trans ?_⟩
  refine and_iff_left fun m hm b hb => ?_
  obtain ⟨runtime, -, -, rfl⟩ := Config.of_toGenerator hg
  have howner : IsName b.message := by
    rw [((hvalid.messages m hm).blocks b hb).owner]
    exact (hvalid.messages m hm).name
  exact Naming.free_blockTypeName howner hmark

/-- The record types of the small catalog have usable names. -/
theorem usable_names_iff_of_generate_sample : ∃ g out, Config.toGenerator {} = .ok g ∧ parse sampleSource = .ok sampleTemplate ∧
    generate sampleSource {} = .ok out ∧ ∀ record ∈ Code.recordTypes out.code, Naming.IsUsable record.name := by
  obtain ⟨runtime, out, hg, hgenerate⟩ := generate_sampleSource
  obtain ⟨-, -, -, husable⟩ := usable_names_iff_of_generate hg parse_sampleSource hgenerate
  exact ⟨_, out, hg, parse_sampleSource, hgenerate, (husable (by decide)).mpr (by decide)⟩

/-- The lines of a source whose message has the name of a bound. -/
def boundLines : List (List Char) :=
  ["version 1", "\x7b", "Sized High 1 T E", "\x7d", ""].map String.toList

def boundSource : String :=
  String.ofList (['\n'].intercalate boundLines)

def boundTemplate : Template :=
  ⟨"1", [⟨"Sized", .high, 1, "T", "E", none, [], 3⟩]⟩

/-- The lines of a source whose message and block make a reserved word, if nothing separates them. -/
def joinedLines : List (List Char) :=
  ["version 1", "\x7b", "f High 1 T E", "\x7b", "n Single", "\x7d", "\x7d", ""].map String.toList

def joinedSource : String :=
  String.ofList (['\n'].intercalate joinedLines)

def joinedTemplate : Template :=
  ⟨"1", [⟨"f", .high, 1, "T", "E", none, [⟨"n", .single, [], "f", 5⟩], 3⟩]⟩

/-- The source whose message has the name of a bound is read. -/
theorem parse_boundSource : parse boundSource = .ok boundTemplate := by
  rw [parse, normalize, boundSource, significantLines_ofList_intercalate (by decide +kernel)]
  decide +kernel

/-- The source whose names make a reserved word is read. -/
theorem parse_joinedSource : parse joinedSource = .ok joinedTemplate := by
  rw [parse, normalize, joinedSource, significantLines_ofList_intercalate (by decide +kernel)]
  decide +kernel

/-- Code is generated for a message that is named like a bound, and for a block whose type is named like a reserved word. -/
theorem generate_unusable_names :
    (∃ out, generate boundSource {} = .ok out ∧ ∃ record ∈ Code.recordTypes out.code, ¬Naming.IsUsable record.name) ∧
      ∃ out, generate joinedSource { separator := "" } = .ok out ∧
        ∃ record ∈ Code.recordTypes out.code, ¬Naming.IsUsable record.name := by
  constructor
  · obtain ⟨g, hg⟩ := exists_of_isOk (show (Config.toGenerator {}).isOk = true by decide +kernel)
    have hnames : g.typeNames boundTemplate = [⟨"Sized", "Sized", 3⟩] := rfl
    obtain ⟨out, hout, hrecords⟩ := generate_of_clear hg parse_boundSource (hnames ▸ by decide)
    have hrecord : ⟨"Sized", []⟩ ∈ Code.recordTypes out.code := by
      rw [hrecords]
      exact List.mem_cons_self
    exact ⟨out, hout, _, hrecord, fun h => h.notBound (by decide)⟩
  · obtain ⟨g, hg⟩ := exists_of_isOk (show (Config.toGenerator { separator := "" }).isOk = true by decide +kernel)
    obtain ⟨runtime, -, -, rfl⟩ := Config.of_toGenerator hg
    have hnames : Generator.typeNames ⟨{ separator := "" }, runtime⟩ joinedTemplate = [⟨"f", "f", 3⟩, ⟨"fn", "f.n", 5⟩] := rfl
    obtain ⟨out, hout, hrecords⟩ := generate_of_clear hg parse_joinedSource (hnames ▸ by decide)
    have hrecord : ⟨"fn", []⟩ ∈ Code.recordTypes out.code := by
      rw [hrecords]
      exact List.mem_cons_self
    exact ⟨out, hout, _, hrecord, fun h => absurd h.notReserved (by decide)⟩

end MessageCatalog
