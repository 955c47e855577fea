import Mathlib.Data.List.DropRight
import MessageCatalog.Proofs.Outcomes
import MessageCatalog.Proofs.Source.Lines
import MessageCatalog.Proofs.Source.Scanning
import MessageCatalog.Source.Entry

/-!
# What a line declares

When a line declares a message, a block or a field, and which: its text is read into parts, and the parts meet the checks. What a
significant line declares is valid, and it keeps the number of the line.
-/

namespace MessageCatalog

/-- A line is read as its text is. -/
theorem SourceLine.scan_eq_ok_iff {α : Type} {l : SourceLine} {kind : LineKind} {scan : Scan α} {parts : α} :
    l.scan kind scan = .ok parts ↔ scan.read l.text = .ok parts := by
  unfold SourceLine.scan
  cases scan.read l.text <;> simp

/-! ## Message headers -/

/-- The parts of a header declare a message when its name is not reserved, its class is one and its id is one of the class. -/
theorem MessageParts.toMessage_eq_ok_iff {parts : MessageParts} {line : Nat} {m : Message} :
    parts.toMessage line = .ok m ↔ Naming.isReserved parts.name = false ∧ Frequency.ofName? parts.frequency = some m.frequency ∧
      Numeral.read parts.id.toList = some m.id ∧ m.frequency.Declarable m.id ∧
      m = ⟨parts.name, m.frequency, m.id, parts.trust, parts.encoding, parts.deprecation, [], line⟩ := by
  unfold MessageParts.toMessage
  by_cases hreserved : Naming.isReserved parts.name = true
  · simp [hreserved]
  cases hfrequency : Frequency.ofName? parts.frequency with
  | none => simp [hreserved]
  | some frequency =>
    cases hid : Numeral.read parts.id.toList with
    | none => simp [hreserved]
    | some id =>
      simp only [hreserved, Bool.false_eq_true, if_false]
      constructor
      · intro h
        split at h
        · cases h
        split at h
        · cases h
        obtain rfl := Except.ok.inj h
        exact ⟨trivial, rfl, rfl, ⟨Nat.le_of_not_lt ‹_›, Nat.le_of_not_lt ‹_›⟩, rfl⟩
      · rintro ⟨-, hf, hi, ⟨hmin, hmax⟩, hm⟩
        obtain rfl := Option.some.inj hf
        obtain rfl := Option.some.inj hi
        rw [if_neg (by omega), if_neg (by omega), ← hm]

/-- A line declares a message when it is a header and its parts declare one. -/
theorem SourceLine.toMessage_eq_ok_iff {l : SourceLine} {m : Message} :
    l.toMessage = .ok m ↔ ∃ parts, Scan.messageHeader.read l.text = .ok parts ∧ parts.toMessage l.number = .ok m := by
  unfold SourceLine.toMessage
  simp only [except_bind_eq_ok_iff, SourceLine.scan_eq_ok_iff]

/-! ## Block headers -/

/-- The word that declares a quantity. -/
def Quantity.word : Quantity → QuantityWord
  | .single => .single
  | .multiple _ => .multiple
  | .varying => .varying

/-- The count that is declared along with a quantity. -/
def Quantity.count? : Quantity → Option Nat
  | .multiple count => some count
  | _ => none

/-- A quantity is given by its word and by the count that the word asks for, from 1 to 255 where it is one of the template. -/
theorem BlockParts.toQuantity_eq_ok_iff {parts : BlockParts} {count : Option Nat} {line : Nat} {q : Quantity} :
    parts.toQuantity count line = .ok q ↔ QuantityWord.ofName? parts.quantity = some q.word ∧ count = q.count? ∧
      ∀ n, q = .multiple n → 1 ≤ n ∧ n ≤ 255 := by
  have hmax : maxRepeatCount = 255 := rfl
  unfold BlockParts.toQuantity
  cases QuantityWord.ofName? parts.quantity with
  | none => simp
  | some word =>
    cases word with
    | single => cases count <;> cases q <;> simp [Quantity.word, Quantity.count?]
    | varying => cases count <;> cases q <;> simp [Quantity.word, Quantity.count?]
    | multiple =>
      cases count with
      | none => cases q <;> simp [Quantity.word, Quantity.count?]
      | some n =>
        simp only
        constructor
        · intro h
          split at h
          · cases h
          split at h
          · cases h
          obtain rfl := Except.ok.inj h
          refine ⟨rfl, rfl, fun k hk => ?_⟩
          obtain rfl := Quantity.multiple.inj hk
          omega
        · rintro ⟨hword, hcount, hrange⟩
          cases q with
          | single => cases hword
          | varying => cases hword
          | multiple k =>
            obtain rfl : n = k := Option.some.inj hcount
            obtain ⟨hmin, hmax⟩ := hrange n rfl
            rw [if_neg (by omega), if_neg (by omega)]

/-- An optional numeral is read to the number it stands for, if there is one. -/
theorem optionalNumber_eq_ok_iff {numeral : Option String} {fault : String → Error} {count : Option Nat} :
    optionalNumber numeral fault = .ok count ↔ Option.Rel (fun text n => Numeral.read text.toList = some n) numeral count := by
  unfold optionalNumber
  cases numeral with
  | none => cases count <;> simp
  | some text => cases hread : Numeral.read text.toList <;> cases count <;> simp [hread]

/-- A line declares a block when it is a block header that gives its quantity. -/
theorem SourceLine.toBlock_eq_ok_iff {l : SourceLine} {message : String} {b : Block} :
    l.toBlock message = .ok b ↔ ∃ parts count, Scan.blockHeader.read l.text = .ok parts ∧
      Option.Rel (fun text n => Numeral.read text.toList = some n) parts.count count ∧
      parts.toQuantity count l.number = .ok b.quantity ∧ b = ⟨parts.name, b.quantity, [], message, l.number⟩ := by
  unfold SourceLine.toBlock
  simp only [except_bind_eq_ok_iff, SourceLine.scan_eq_ok_iff, optionalNumber_eq_ok_iff]
  constructor
  · rintro ⟨parts, hparts, count, hcount, quantity, hquantity, hb⟩
    obtain rfl := Except.ok.inj hb
    exact ⟨parts, count, hparts, hcount, hquantity, rfl⟩
  · rintro ⟨parts, count, hparts, hcount, hquantity, hb⟩
    exact ⟨parts, hparts, count, hcount, b.quantity, hquantity, congrArg Except.ok hb.symm⟩

/-! ## Fields -/

/-- A fixed size is good from 1 to 65535. -/
theorem checkFixedSize_eq_ok_iff {field : String} {line : Nat} {type : FieldType} :
    checkFixedSize field line type = .ok () ↔ ∀ size, type = .fixed size → 1 ≤ size ∧ size ≤ 65535 := by
  have hmax : maxFixedSize = 65535 := rfl
  cases type with
  | fixed size =>
    simp only [checkFixedSize, FieldType.fixed.injEq, forall_eq']
    constructor
    · intro h
      split at h
      · cases h
      split at h
      · cases h
      omega
    · intro h
      rw [if_neg (by omega), if_neg (by omega)]
  | _ => simp [checkFixedSize]

/-- A line declares a field when it is a field line whose tag names a type, of a size in range. -/
theorem SourceLine.toField_eq_ok_iff {l : SourceLine} {f : Field} :
    l.toField = .ok f ↔ ∃ parts count, Scan.fieldLine.read l.text = .ok parts ∧
      Option.Rel (fun text n => Numeral.read text.toList = some n) parts.count count ∧
      FieldType.ofTag? parts.type (count.getD 0) = some f.type ∧
      (∀ size, f.type = .fixed size → 1 ≤ size ∧ size ≤ 65535) ∧ f = ⟨parts.name, f.type, l.number⟩ := by
  unfold SourceLine.toField
  simp only [except_bind_eq_ok_iff, SourceLine.scan_eq_ok_iff, optionalNumber_eq_ok_iff]
  constructor
  · rintro ⟨parts, hparts, count, hcount, h⟩
    cases htype : FieldType.ofTag? parts.type (count.getD 0) with
    | none => simp [htype] at h
    | some type =>
      simp only [htype] at h
      obtain ⟨u, hsize, hf⟩ := except_bind_eq_ok_iff.mp h
      obtain rfl := Except.ok.inj hf
      exact ⟨parts, count, hparts, hcount, htype, checkFixedSize_eq_ok_iff.mp hsize, rfl⟩
  · rintro ⟨parts, count, hparts, hcount, htype, hsize, hf⟩
    refine ⟨parts, hparts, count, hcount, ?_⟩
    simp only [htype]
    exact except_bind_eq_ok_iff.mpr ⟨(), checkFixedSize_eq_ok_iff.mpr hsize, congrArg Except.ok hf.symm⟩

/-! ## Validity -/

theorem isBlank_of_isSpace {c : Char} (h : Scan.isSpace c = true) : Text.isBlank c = true := by
  simp only [Scan.isSpace, Bool.or_eq_true, decide_eq_true_eq] at h
  rcases h with rfl | rfl <;> decide

/-- A part behind blanks at the end of a line ends the line together with what follows it. -/
theorem suffix_of_part {line text part rest : List Char} (ht : text <:+ line) (h : text.dropWhile Scan.isSpace = part ++ rest) :
    part ++ rest <:+ line ∧ rest <:+ line := by
  have hs : part ++ rest <:+ line := h ▸ (List.dropWhile_suffix _).trans ht
  exact ⟨hs, (List.suffix_append part rest).trans hs⟩

/-- A run of characters in a significant line is a word, and what follows it ends the line. -/
theorem isWord_of_token {line text rest : List Char} {s : String} (hline : IsLineText line) (ht : text <:+ line)
    (h : Scan.token? (text.dropWhile Scan.isSpace) = some (s.toList, rest)) :
    IsWord s ∧ s.toList ++ rest <:+ line ∧ rest <:+ line := by
  obtain ⟨hsplit, hne, hchars, -⟩ := Scan.token?_eq_some_iff.mp h
  have hsuffix := suffix_of_part ht hsplit
  have hpart : s.toList <:+: line := (List.prefix_append _ rest).isInfix.trans hsuffix.1.isInfix
  refine ⟨⟨hne, fun c hc => ?_, hline.noComment.of_isInfix hpart⟩, hsuffix⟩
  obtain ⟨hspace, htab⟩ := Scan.isSpace_eq_false_iff.mp (hchars c hc)
  refine ⟨hspace, htab, ?_⟩
  rintro rfl
  exact hline.oneLine (hpart.subset hc)

/-- The end of a text that ends visibly ends visibly. -/
theorem EndsVisibly.of_suffix {text whole : List Char} (h : EndsVisibly whole) (hs : text <:+ whole) : EndsVisibly text := by
  obtain ⟨front, rfl⟩ := hs
  intro c hc
  refine h c ?_
  rw [List.getLast?_append, Option.mem_def.mp hc]
  rfl

/-- A text that ends in no blank does not end in spaces and tabs. -/
theorem EndsVisibly.eq_nil_of_spaces {text rest : List Char} (h : EndsVisibly text) (hs : rest <:+ text)
    (hrest : rest.dropWhile Scan.isSpace = []) : rest = [] := by
  rw [List.dropWhile_eq_nil_iff] at hrest
  cases hlast : rest.getLast? with
  | none => exact List.getLast?_eq_none_iff.mp hlast
  | some c =>
    have hvisible := h.of_suffix hs c hlast
    rw [isBlank_of_isSpace (hrest c (List.mem_of_getLast? hlast))] at hvisible
    cases hvisible

/-- The last word of a line ends as the line does. -/
theorem EndsVisibly.of_last {line word rest : List Char} (h : EndsVisibly line) (hs : word ++ rest <:+ line)
    (hrest : rest.dropWhile Scan.isSpace = []) : EndsVisibly word := by
  obtain rfl : rest = [] := h.eq_nil_of_spaces ((List.suffix_append word rest).trans hs) hrest
  rw [List.append_nil] at hs
  exact h.of_suffix hs

/-- What a significant line declares as a message is valid, and still without blocks. -/
theorem SourceLine.toMessage_valid {l : SourceLine} {m : Message} (hl : IsLineText l.text.toList) (h : l.toMessage = .ok m) :
    m.Valid ∧ m.blocks = [] ∧ m.line = l.number := by
  obtain ⟨parts, hread, hparts⟩ := SourceLine.toMessage_eq_ok_iff.mp h
  obtain ⟨hreserved, -, -, hid, hm⟩ := MessageParts.toMessage_eq_ok_iff.mp hparts
  obtain ⟨r₁, r₂, r₃, r₄, r₅, r₆, hname, hfrequency, hnumber, htrust, hencoding, hdeprecation, hend⟩ :=
    Scan.read_messageHeader_iff.mp hread
  obtain ⟨hs₁, hisName, -⟩ := Scan.scans_ident_iff.mp hname
  -- what is left behind each part ends the line, up to the word that is the last on it
  obtain ⟨-, hr₁⟩ := suffix_of_part (List.suffix_refl l.text.toList) hs₁
  obtain ⟨-, hr₂⟩ := suffix_of_part hr₁ (Scan.scans_ident_iff.mp hfrequency).1
  obtain ⟨-, hr₃⟩ := suffix_of_part hr₂ (Scan.scans_number_iff.mp hnumber).1
  obtain ⟨hisTrust, -, hr₄⟩ := isWord_of_token hl hr₃ (Scan.scans_require_iff.mp htrust)
  obtain ⟨hisEncoding, hs₅, hr₅⟩ := isWord_of_token hl hr₄ (Scan.scans_require_iff.mp hencoding)
  have hempty := (Scan.scans_ending_iff.mp hend).1
  rw [hm]
  rcases Scan.scans_optional_iff.mp hdeprecation with ⟨word, hsome, hword⟩ | ⟨hnone, -, hr₆⟩
  · obtain ⟨hisWord, hs₆, -⟩ := isWord_of_token hl hr₅ hword
    rw [hsome]
    refine ⟨⟨hisName, hreserved, hid, hisTrust, hisEncoding, ?_, hl.endsVisibly.of_last hs₆ hempty, ?_⟩, rfl, rfl⟩
    · rintro w hw
      obtain rfl := Option.some.inj hw
      exact hisWord
    · simp
  · rw [hnone]
    rw [hr₆, List.dropWhile_idempotent] at hempty
    refine ⟨⟨hisName, hreserved, hid, hisTrust, hisEncoding, ?_, hl.endsVisibly.of_last hs₅ hempty, ?_⟩, rfl, rfl⟩
    · simp
    · simp

/-- What a line declares as a block of a message is valid, and still without fields. -/
theorem SourceLine.toBlock_valid {l : SourceLine} {message : String} {b : Block} (h : l.toBlock message = .ok b) :
    b.Valid message ∧ b.fields = [] ∧ b.line = l.number := by
  obtain ⟨parts, count, hread, -, hquantity, hb⟩ := SourceLine.toBlock_eq_ok_iff.mp h
  obtain ⟨r₁, r₂, r₃, hname, -⟩ := Scan.read_blockHeader_iff.mp hread
  obtain ⟨-, hisName, -⟩ := Scan.scans_ident_iff.mp hname
  have hcount := (BlockParts.toQuantity_eq_ok_iff.mp hquantity).2.2
  rw [hb]
  exact ⟨⟨hisName, rfl, hcount, by simp⟩, rfl, rfl⟩

/-- What a line declares as a field is valid. -/
theorem SourceLine.toField_valid {l : SourceLine} {f : Field} (h : l.toField = .ok f) : f.Valid ∧ f.line = l.number := by
  obtain ⟨parts, count, hread, -, -, hsize, hf⟩ := SourceLine.toField_eq_ok_iff.mp h
  obtain ⟨r₀, r₁, r₂, r₃, r₄, -, hname, -⟩ := Scan.read_fieldLine_iff.mp hread
  obtain ⟨-, hisName, -⟩ := Scan.scans_ident_iff.mp hname
  rw [hf]
  exact ⟨⟨hisName, hsize⟩, rfl⟩

end MessageCatalog
