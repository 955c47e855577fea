import MessageCatalog.Proofs.Source.Layout

/-!
# What is written on a line is read from it

The text that writes a declaration is the text of a significant line, and the line declares what was written. Behind a
gap each part is found as it stands, because the next gap, or the closing brace of a field, ends it.
-/

namespace MessageCatalog

/-! ## Characters of names and numerals -/

/-- A text of visible characters without a slash: it can stand anywhere on a line. -/
def IsPlain (text : List Char) : Prop :=
  ∀ c ∈ text, Text.isBlank c = false ∧ c ≠ '/'

/-- From the digits to the small letters no character is a blank or a slash. -/
theorem visible_of_range {c : Char} (hlow : 48 ≤ c.toNat) (hhigh : c.toNat ≤ 122) : Text.isBlank c = false ∧ c ≠ '/' := by
  constructor
  · simp only [Text.isBlank, Bool.or_eq_false_iff, Bool.and_eq_false_iff, decide_eq_false_iff_not, beq_eq_false_iff_ne]
    omega
  · rintro rfl
    exact absurd hlow (by decide)

/-- A character between a digit and a small letter is neither a blank nor a slash. -/
theorem visible_of_between {low high c : Char} (hlow : 48 ≤ low.toNat) (hhigh : high.toNat ≤ 122) (h : low ≤ c ∧ c ≤ high) :
    Text.isBlank c = false ∧ c ≠ '/' :=
  visible_of_range (Nat.le_trans hlow h.1) (Nat.le_trans h.2 hhigh)

/-- A character of a name is neither a blank nor a slash. -/
theorem visible_of_isIdentPart {c : Char} (h : Scan.isIdentPart c = true) : Text.isBlank c = false ∧ c ≠ '/' := by
  rcases Scan.isIdentPart_iff.mp h with h | rfl
  · delta Char.isAlphanum Char.isAlpha Char.isUpper Char.isLower Char.isDigit at h
    simp only [Bool.or_eq_true, Bool.and_eq_true, decide_eq_true_eq] at h
    rcases h with (h | h) | h
    all_goals exact visible_of_between (by decide) (by decide) h
  · decide

/-- A digit is neither a blank nor a slash. -/
theorem visible_of_isHexadecimal {c : Char} (h : Numeral.isHexadecimal c = true) : Text.isBlank c = false ∧ c ≠ '/' := by
  obtain ⟨d, hd⟩ := Option.isSome_iff_exists.mp h
  unfold Numeral.digit? at hd
  split at hd
  · rename_i hc
    exact visible_of_between (by decide) (by decide) hc
  split at hd
  · rename_i hc
    exact visible_of_between (by decide) (by decide) hc
  split at hd
  · rename_i hc
    exact visible_of_between (by decide) (by decide) hc
  · cases hd

/-- All characters of a name may stand in a name. -/
theorem IsName.isIdentPart {name : String} (h : IsName name) : ∀ c ∈ name.toList, Scan.isIdentPart c = true := by
  obtain ⟨c, rest, hname, hc, hrest⟩ := h
  rw [hname, List.forall_mem_cons]
  refine ⟨?_, fun d hd => Scan.isIdentPart_iff.mpr (hrest d hd)⟩
  rw [Scan.isIdentPart_iff]
  rcases hc with hc | hc
  · exact .inl (by simp [Char.isAlphanum, hc])
  · exact .inr hc

/-- A name has neither blanks nor slashes. -/
theorem IsName.isPlain {name : String} (h : IsName name) : IsPlain name.toList :=
  fun c hc => visible_of_isIdentPart (h.isIdentPart c hc)

/-- A name is not empty. -/
theorem IsName.ne_nil {name : String} (h : IsName name) : name.toList ≠ [] := by
  obtain ⟨c, rest, hname, -⟩ := h
  rw [hname]
  simp

/-- A numeral has neither blanks nor slashes. -/
theorem Scan.IsNumeral.isPlain {numeral : List Char} (h : Scan.IsNumeral numeral) : IsPlain numeral := by
  rcases h with ⟨-, hdigits⟩ | ⟨mark, digits, rfl, hmark, -, hdigits⟩
  · intro c hc
    have hdecimal := hdigits c hc
    simp only [Numeral.isDecimal, Bool.and_eq_true, decide_eq_true_eq] at hdecimal
    exact visible_of_between (by decide) (by decide) hdecimal
  · intro c hc
    rcases List.mem_cons.mp hc with rfl | hc
    · decide
    rcases List.mem_cons.mp hc with rfl | hc
    · rcases hmark with rfl | rfl <;> decide
    · exact visible_of_isHexadecimal (hdigits c hc)

/-- A numeral is not empty. -/
theorem Scan.IsNumeral.ne_nil {numeral : List Char} (h : Scan.IsNumeral numeral) : numeral ≠ [] := by
  rcases h with ⟨hne, -⟩ | ⟨mark, digits, rfl, -⟩
  · exact hne
  · simp

namespace IsPlain

variable {text : List Char}

/-- A plain text is on one line. -/
theorem newline_not_mem (h : IsPlain text) : '\n' ∉ text :=
  fun hc => absurd (h '\n' hc).1 (by decide)

/-- A plain text starts no comment. -/
theorem hasNoComment (h : IsPlain text) : HasNoComment text :=
  hasNoComment_of_not_mem fun hc => (h '/' hc).2 rfl

/-- A plain text has no spaces or tabs. -/
theorem isSpace_eq_false (h : IsPlain text) : ∀ c ∈ text, Scan.isSpace c = false := by
  intro c hc
  cases hspace : Scan.isSpace c with
  | false => rfl
  | true => exact absurd (isBlank_of_isSpace hspace) (by simp [(h c hc).1])

/-- A plain text does not end in a blank. -/
theorem endsVisibly (h : IsPlain text) : EndsVisibly text :=
  fun c hc => (h c (List.mem_of_getLast? hc)).1

end IsPlain

/-! ## Parts behind gaps -/

/-- A run has nothing but what a scan skips. -/
theorem IsRun.isSpace {run : List Char} (h : IsRun run) : ∀ c ∈ run, Scan.isSpace c = true := by
  intro c hc
  rcases h c hc with rfl | rfl <;> decide

/-- What follows a part ends it: a gap, the brace of a field or nothing. -/
theorem Follows.atBoundary {ending rest : List Char} {parts : List (List Char)} (h : Follows ending parts rest)
    (he : Scan.atBoundary ending = true) : Scan.atBoundary rest = true := by
  cases h with
  | nil => exact he
  | @cons gap part rest parts hgap hrest =>
    cases gap with
    | nil => exact absurd rfl hgap.1
    | cons c gap => simp [Scan.atBoundary, hgap.2.isSpace c (by simp)]

/-- Where nothing ends the line but its parts, each ends at a gap or with the line. -/
theorem Follows.head_isSpace {rest : List Char} {parts : List (List Char)} (h : Follows [] parts rest) :
    ∀ c ∈ rest.head?, Scan.isSpace c = true := by
  cases h with
  | nil => simp
  | @cons gap part rest parts hgap hrest =>
    cases gap with
    | nil => exact absurd rfl hgap.1
    | cons c gap => simpa using hgap.2.isSpace c (by simp)

/-- Blanks in front of a part are skipped. -/
theorem dropWhile_isSpace {lead part : List Char} (rest : List Char) (hlead : ∀ c ∈ lead, Scan.isSpace c = true) (hne : part ≠ [])
    (hpart : ∀ c ∈ part, Scan.isSpace c = false) : (lead ++ part ++ rest).dropWhile Scan.isSpace = part ++ rest := by
  rw [List.append_assoc]
  refine (takeWhile_append_of_head hlead fun c hc => ?_).2
  cases part with
  | nil => exact absurd rfl hne
  | cons d part =>
    obtain rfl : d = c := by simpa using hc
    exact hpart d (by simp)

section Scans

variable {lead rest : List Char}

/-- A name is read behind spaces, if something ends it. -/
theorem scans_name {s : String} (hlead : ∀ c ∈ lead, Scan.isSpace c = true) (hs : IsName s)
    (hrest : Scan.atBoundary rest = true) : Scan.Scans Scan.ident (lead ++ s.toList ++ rest) s rest :=
  Scan.scans_ident_iff.mpr ⟨dropWhile_isSpace rest hlead hs.ne_nil hs.isPlain.isSpace_eq_false, hs, hrest⟩

/-- A spelling of a keyword is read behind spaces as a name. -/
theorem scans_spelling {spelling : List Char} (hlead : ∀ c ∈ lead, Scan.isSpace c = true) (hs : IsName (String.ofList spelling))
    (hrest : Scan.atBoundary rest = true) : Scan.Scans Scan.ident (lead ++ spelling ++ rest) (String.ofList spelling) rest := by
  have h := scans_name hlead hs hrest
  rwa [String.toList_ofList] at h

/-- A numeral is found behind spaces, if something ends it. -/
theorem number?_numeral {numeral : List Char} (hlead : ∀ c ∈ lead, Scan.isSpace c = true) (hn : Scan.IsNumeral numeral)
    (hrest : Scan.atBoundary rest = true) :
    Scan.number? ((lead ++ numeral ++ rest).dropWhile Scan.isSpace) = some ((String.ofList numeral).toList, rest) := by
  rw [String.toList_ofList]
  exact Scan.number?_eq_some_iff.mpr ⟨dropWhile_isSpace rest hlead hn.ne_nil hn.isPlain.isSpace_eq_false, hn, hrest⟩

/-- A word has no spaces or tabs. -/
theorem IsWord.isSpace_eq_false {s : String} (hs : IsWord s) : ∀ c ∈ s.toList, Scan.isSpace c = false := by
  intro c hc
  obtain ⟨hspace, htab, -⟩ := hs.unbroken c hc
  exact Scan.isSpace_eq_false_iff.mpr ⟨hspace, htab⟩

/-- A word is found behind spaces, up to the next one. -/
theorem token?_word {s : String} (hlead : ∀ c ∈ lead, Scan.isSpace c = true) (hs : IsWord s)
    (hrest : ∀ c ∈ rest.head?, Scan.isSpace c = true) :
    Scan.token? ((lead ++ s.toList ++ rest).dropWhile Scan.isSpace) = some (s.toList, rest) :=
  Scan.token?_eq_some_iff.mpr ⟨dropWhile_isSpace rest hlead hs.nonempty hs.isSpace_eq_false, hs.nonempty,
    hs.isSpace_eq_false, hrest⟩

/-- The end of a text is read as the end of the line. -/
theorem scans_ending_nil : Scan.Scans Scan.ending [] () [] :=
  Scan.scans_ending_iff.mpr ⟨rfl, rfl⟩

end Scans

/-- A text that is made of parts starts with a gap and the first part. -/
theorem Follows.of_cons {ending part text : List Char} {parts : List (List Char)} (h : Follows ending (part :: parts) text) :
    ∃ gap rest, IsGap gap ∧ text = gap ++ part ++ rest ∧ Follows ending parts rest := by
  cases h with
  | cons hgap hrest => exact ⟨_, _, hgap, rfl, hrest⟩

/-! ## Texts of lines -/

/-- What may stand behind a gap: a text that stays on its line and has no comment. -/
structure IsPart (part : List Char) : Prop where
  nonempty : part ≠ []
  oneLine : '\n' ∉ part
  noComment : HasNoComment part

/-- A plain text can be a part of a line. -/
theorem IsPlain.isPart {text : List Char} (h : IsPlain text) (hne : text ≠ []) : IsPart text :=
  ⟨hne, h.newline_not_mem, h.hasNoComment⟩

/-- A word can be a part of a line. -/
theorem IsWord.isPart {s : String} (h : IsWord s) : IsPart s.toList :=
  ⟨h.nonempty, fun hc => (h.unbroken '\n' hc).2.2 rfl, h.noComment⟩

/-- A run ends no line and starts no comment. -/
theorem IsRun.not_mem {run : List Char} (h : IsRun run) : '\n' ∉ run ∧ '/' ∉ run :=
  ⟨fun hc => by simpa using h _ hc, fun hc => by simpa using h _ hc⟩

/-- Where a name may end, no slash follows it. -/
theorem head_ne_slash_of_atBoundary {rest : List Char} (h : Scan.atBoundary rest = true) : rest.head? ≠ some '/' := by
  intro hhead
  have hslash := @Scan.class_false_of_atBoundary (· == '/') (by decide) (by decide) (by decide) rest h '/' hhead
  cases hslash

/-- Parts behind gaps stay on their line and have no comment. -/
theorem Follows.isPart_rest {ending rest : List Char} {parts : List (List Char)} (h : Follows ending parts rest)
    (hb : Scan.atBoundary ending = true) (hparts : ∀ part ∈ parts, IsPart part) (hline : '\n' ∉ ending)
    (hcomment : HasNoComment ending) : '\n' ∉ rest ∧ HasNoComment rest := by
  induction h with
  | nil => exact ⟨hline, hcomment⟩
  | @cons gap part rest parts hgap hrest ih =>
    obtain ⟨hpart, hparts⟩ := List.forall_mem_cons.mp hparts
    obtain ⟨ihline, ihcomment⟩ := ih hparts
    have hhead := head_ne_slash_of_atBoundary (hrest.atBoundary hb)
    rw [List.append_assoc]
    refine ⟨?_, hasNoComment_append_of_front hgap.2.not_mem.2 (hpart.noComment.append ihcomment hhead)⟩
    simp only [List.mem_append, not_or]
    exact ⟨hgap.2.not_mem.1, hpart.oneLine, ihline⟩

/-- A text ends as its last part does. -/
theorem EndsVisibly.append {text back : List Char} (h : EndsVisibly back) (hne : back ≠ []) : EndsVisibly (text ++ back) := by
  intro c hc
  rw [List.getLast?_append_of_ne_nil _ hne] at hc
  exact h c hc

/-- A row of parts ends as its last part does. -/
theorem Follows.endsVisibly {rest : List Char} {parts : List (List Char)} (h : Follows [] parts rest) (hne : parts ≠ [])
    (hparts : ∀ part ∈ parts, IsPart part) (hlast : ∀ part ∈ parts.getLast?, EndsVisibly part) :
    rest ≠ [] ∧ EndsVisibly rest := by
  induction h with
  | nil => exact absurd rfl hne
  | @cons gap part rest parts hgap hrest ih =>
    have hpart := hparts part (by simp)
    refine ⟨by simp [hpart.nonempty], ?_⟩
    cases parts with
    | nil =>
      cases hrest
      rw [List.append_nil]
      exact (hlast part (by simp)).append hpart.nonempty
    | cons next parts =>
      obtain ⟨hrestNe, hrestEnds⟩ := ih (by simp) (fun p hp => hparts p (List.mem_cons_of_mem part hp))
        (fun p hp => hlast p (by rwa [List.getLast?_cons_cons]))
      exact hrestEnds.append hrestNe

/-- A text that starts with a plain part does not start with a blank. -/
theorem IsPlain.startsVisibly {text : List Char} (rest : List Char) (h : IsPlain text) (hne : text ≠ []) :
    ∀ c ∈ (text ++ rest).head?, Text.isBlank c = false := by
  cases text with
  | nil => exact absurd rfl hne
  | cons c text => simpa using (h c (by simp)).1

/-- A name and parts behind it are the text of a line. -/
theorem isLineText_of_follows {name : String} {rest : List Char} {parts : List (List Char)} (hname : IsName name)
    (h : Follows [] parts rest) (hne : parts ≠ []) (hparts : ∀ part ∈ parts, IsPart part)
    (hlast : ∀ part ∈ parts.getLast?, EndsVisibly part) : IsLineText (name.toList ++ rest) := by
  obtain ⟨hline, hcomment⟩ := h.isPart_rest rfl hparts (by simp) hasNoComment_nil
  obtain ⟨hrestNe, hends⟩ := h.endsVisibly hne hparts hlast
  have hhead := head_ne_slash_of_atBoundary (h.atBoundary rfl)
  refine ⟨by simp [hname.ne_nil], ?_, hname.isPlain.hasNoComment.append hcomment hhead,
    hname.isPlain.startsVisibly rest hname.ne_nil, hends.append hrestNe⟩
  rw [List.mem_append, not_or]
  exact ⟨hname.isPlain.newline_not_mem, hline⟩

/-! ## Message headers -/

/-- What writes a message header is the text of a line. -/
theorem WritesMessage.isLineText {m : Message} {text : List Char} (hm : m.Valid) (h : WritesMessage m text) :
    IsLineText text := by
  obtain ⟨frequency, id, rest, hfrequency, hid, hrest, rfl⟩ := h
  have hisName := isName_of_spells_frequency hfrequency
  have hplain := hisName.isPlain
  have hne := hisName.ne_nil
  rw [String.toList_ofList] at hplain hne
  have hends : EndsVisibly m.lastWord.toList := hm.endsVisibly
  have hdeprecation := hm.deprecation
  unfold Message.lastWord at hends
  have hfront : ∀ part ∈ [frequency, id, m.trust.toList, m.encoding.toList], IsPart part := by
    simp only [List.forall_mem_cons, List.not_mem_nil, false_imp_iff, implies_true, and_true]
    exact ⟨hplain.isPart hne, hid.isNumeral.isPlain.isPart hid.isNumeral.ne_nil, hm.trust.isPart, hm.encoding.isPart⟩
  cases hd : m.deprecation with
  | none =>
    simp only [hd, Option.map_none, Option.toList_none, List.append_nil, Option.getD_none] at hrest hends
    refine isLineText_of_follows hm.name hrest (by simp) hfront ?_
    simpa using hends
  | some word =>
    simp only [hd, Option.map_some, Option.toList_some, Option.getD_some] at hrest hends
    refine isLineText_of_follows hm.name hrest (by simp) ?_ ?_
    · intro part hpart
      rcases List.mem_append.mp hpart with hpart | hpart
      · exact hfront part hpart
      · rw [List.mem_singleton.mp hpart]
        exact (hdeprecation word hd).isPart
    · simpa using hends

/-- The word of a deprecation is read if there is one, and it ends the line. -/
theorem scans_deprecation {deprecation : Option String} {text : List Char} (hword : ∀ word ∈ deprecation, IsWord word)
    (h : Follows [] (deprecation.map String.toList).toList text) :
    Scan.Scans (Scan.optional .token Scan.token?) text deprecation [] := by
  rw [Scan.scans_optional_iff]
  cases deprecation with
  | none =>
    cases h
    exact .inr ⟨rfl, rfl, rfl⟩
  | some word =>
    obtain ⟨gap, rest, hgap, rfl, hrest⟩ := Follows.of_cons h
    cases hrest
    exact .inl ⟨word, rfl, token?_word hgap.2.isSpace (hword word rfl) (by simp)⟩

/-- A line that writes a message declares it, still without blocks. -/
theorem SourceLine.toMessage_of_writes {l : SourceLine} {m : Message} (hm : m.Valid) (h : WritesMessage m l.text.toList) :
    l.toMessage = .ok { m with blocks := [], line := l.number } := by
  obtain ⟨frequency, id, r₁, hfrequency, hid, hr₁, htext⟩ := h
  obtain ⟨gap₂, r₂, hgap₂, rfl, hr₂⟩ := hr₁.of_cons
  obtain ⟨gap₃, r₃, hgap₃, rfl, hr₃⟩ := hr₂.of_cons
  obtain ⟨gap₄, r₄, hgap₄, rfl, hr₄⟩ := hr₃.of_cons
  obtain ⟨gap₅, r₅, hgap₅, rfl, hr₅⟩ := hr₄.of_cons
  have hname : Scan.Scans Scan.ident ([] ++ m.name.toList ++ _) m.name _ := scans_name (by simp) hm.name (hr₁.atBoundary rfl)
  have hread : Scan.messageHeader.read l.text =
      .ok ⟨m.name, String.ofList frequency, String.ofList id, m.trust, m.encoding, m.deprecation⟩ := by
    rw [Scan.read_messageHeader_iff, htext]
    exact ⟨_, _, _, _, r₅, [], hname, scans_spelling hgap₂.2.isSpace (isName_of_spells_frequency hfrequency) (hr₂.atBoundary rfl),
      Scan.scans_require_iff.mpr (number?_numeral hgap₃.2.isSpace hid.isNumeral (hr₃.atBoundary rfl)),
      Scan.scans_require_iff.mpr (token?_word hgap₄.2.isSpace hm.trust hr₄.head_isSpace),
      Scan.scans_require_iff.mpr (token?_word hgap₅.2.isSpace hm.encoding hr₅.head_isSpace),
      scans_deprecation hm.deprecation hr₅, scans_ending_nil⟩
  have hlimit : m.id < Numeral.wordLimit := by
    have hword : m.frequency.maxId < Numeral.wordLimit := by cases m.frequency <;> decide
    exact Nat.lt_of_le_of_lt hm.id.2 hword
  refine SourceLine.toMessage_eq_ok_iff.mpr ⟨_, hread, MessageParts.toMessage_eq_ok_iff.mpr ⟨hm.notReserved, ?_, ?_, hm.id, rfl⟩⟩
  · exact ofName?_of_spells hfrequency
  · rw [String.toList_ofList]
    exact hid.read hlimit

/-! ## Block headers -/

/-- The part that writes a count is a numeral. -/
theorem SpellsCount.isPlain {count : Option Nat} {parts : List (List Char)} (h : SpellsCount count parts) :
    ∀ part ∈ parts, part ≠ [] ∧ IsPlain part := by
  cases h with
  | none => simp
  | some hn =>
    rw [List.forall_mem_singleton]
    exact ⟨hn.isNumeral.ne_nil, hn.isNumeral.isPlain⟩

/-- A count is read if there is one, and what ends the line is left. -/
theorem scans_count {ending text : List Char} {count : Option Nat} {parts : List (List Char)} (hcount : SpellsCount count parts)
    (h : Follows ending parts text) (hb : Scan.atBoundary ending = true)
    (hnone : Scan.number? (ending.dropWhile Scan.isSpace) = none) (hlimit : ∀ n ∈ count, n < Numeral.wordLimit) :
    ∃ numeral rest, Scan.Scans (Scan.optional .number Scan.number?) text numeral rest ∧
      Option.Rel (fun text n => Numeral.read text.toList = some n) numeral count ∧
      rest.dropWhile Scan.isSpace = ending.dropWhile Scan.isSpace := by
  cases hcount with
  | none =>
    cases h
    exact ⟨none, ending.dropWhile Scan.isSpace, Scan.scans_optional_iff.mpr (.inr ⟨rfl, hnone, rfl⟩), .none,
      List.dropWhile_idempotent _ ending⟩
  | @some n numeral hn =>
    obtain ⟨gap, rest, hgap, rfl, hrest⟩ := h.of_cons
    cases hrest
    refine ⟨some (String.ofList numeral), ending, ?_, .some ?_, rfl⟩
    · exact Scan.scans_optional_iff.mpr (.inl ⟨_, rfl, number?_numeral hgap.2.isSpace hn.isNumeral hb⟩)
    · rw [String.toList_ofList]
      exact hn.read (hlimit n rfl)

/-- The keyword of a quantity is known in every spelling. -/
theorem ofName?_of_spells_quantity {word : QuantityWord} {spelling : List Char} (h : SpellsWord word.keyword spelling) :
    QuantityWord.ofName? (String.ofList spelling) = some word := by
  unfold QuantityWord.ofName?
  rw [String.toList_ofList, h]
  cases word <;> decide

/-- A spelling of the keyword of a quantity is a name. -/
theorem isName_of_spells_quantity {word : QuantityWord} {spelling : List Char} (h : SpellsWord word.keyword spelling) :
    IsName (String.ofList spelling) :=
  h.isName (by cases word <;> decide) (by cases word <;> decide)

/-- What writes a block header is the text of a line. -/
theorem WritesBlockHeader.isLineText {message : String} {b : Block} {text : List Char} (hb : b.Valid message)
    (h : WritesBlockHeader b text) : IsLineText text := by
  obtain ⟨quantity, count, rest, hquantity, hcount, hrest, rfl⟩ := h
  have hisName := isName_of_spells_quantity hquantity
  have hparts : ∀ part ∈ quantity :: count, part ≠ [] ∧ IsPlain part := by
    have hplain := hisName.isPlain
    have hne := hisName.ne_nil
    rw [String.toList_ofList] at hplain hne
    exact List.forall_mem_cons.mpr ⟨⟨hne, hplain⟩, hcount.isPlain⟩
  exact isLineText_of_follows hb.name hrest (by simp) (fun part hp => (hparts part hp).2.isPart (hparts part hp).1)
    fun part hp => (hparts part (List.mem_of_getLast? hp)).2.endsVisibly

/-- A line that writes the header of a block declares it, still without fields. -/
theorem SourceLine.toBlock_of_writes {l : SourceLine} {message : String} {b : Block} (hb : b.Valid message)
    (h : WritesBlockHeader b l.text.toList) : l.toBlock message = .ok { b with fields := [], line := l.number } := by
  obtain ⟨quantity, count, r₁, hquantity, hcount, hr₁, htext⟩ := h
  obtain ⟨gap₂, r₂, hgap₂, rfl, hr₂⟩ := hr₁.of_cons
  have hlimit : ∀ n ∈ b.quantity.count?, n < Numeral.wordLimit := by
    intro n hn
    cases hq : b.quantity with
    | multiple k =>
      obtain rfl : k = n := by simpa [hq, Quantity.count?] using hn
      exact Nat.lt_of_le_of_lt (hb.count k hq).2 (by decide)
    | _ => simp [hq, Quantity.count?] at hn
  obtain ⟨numeral, r₃, hnumeral, hread, hr₃⟩ := scans_count hcount hr₂ rfl rfl hlimit
  have hname : Scan.Scans Scan.ident ([] ++ b.name.toList ++ _) b.name _ := scans_name (by simp) hb.name (hr₁.atBoundary rfl)
  have hheader : Scan.blockHeader.read l.text = .ok ⟨b.name, String.ofList quantity, numeral⟩ := by
    rw [Scan.read_blockHeader_iff, htext]
    exact ⟨_, _, r₃, hname, scans_spelling hgap₂.2.isSpace (isName_of_spells_quantity hquantity) (hr₂.atBoundary rfl), hnumeral,
      Scan.scans_ending_iff.mpr ⟨hr₃, rfl⟩⟩
  refine SourceLine.toBlock_eq_ok_iff.mpr ⟨_, b.quantity.count?, hheader, hread, ?_, ?_⟩
  · exact BlockParts.toQuantity_eq_ok_iff.mpr ⟨ofName?_of_spells_quantity hquantity, rfl, hb.count⟩
  · rw [← hb.owner]

/-! ## Fields -/

/-- A text is a name if its first character may start one and all may stand in one. -/
theorem isName_of_all {name : String} (hhead : name.toList.head?.any Scan.isIdentStart = true)
    (hall : name.toList.all Scan.isIdentPart = true) : IsName name := by
  cases hlist : name.toList with
  | nil =>
    rw [hlist] at hhead
    cases hhead
  | cons c rest =>
    rw [hlist] at hhead hall
    have hrest := List.all_eq_true.mp hall
    exact ⟨c, rest, hlist, Scan.isIdentStart_iff.mp hhead,
      fun d hd => Scan.isIdentPart_iff.mp (hrest d (List.mem_cons_of_mem c hd))⟩

/-- Every tag is a name. -/
theorem isName_tag (type : FieldType) : IsName type.tag := by
  cases type <;> simp only [FieldType.tag] <;> exact isName_of_all (by decide) (by decide)

/-- A type is found by its tag and every count that declares it. -/
theorem ofTag?_of_declaredBy {type : FieldType} {count : Option Nat} (h : type.DeclaredBy count) :
    FieldType.ofTag? type.tag (count.getD 0) = some type := by
  obtain ⟨-, h⟩ := h
  cases type with
  | fixed size =>
    obtain rfl : count = some size := h
    rfl
  | varying width =>
    cases width with
    | two =>
      obtain rfl : count = some 2 := h
      rfl
    | one =>
      have hcount : count.getD 0 ≠ 2 := by
        cases count with
        | none => decide
        | some n => exact fun he => h (congrArg some he)
      simp [FieldType.ofTag?, FieldType.tag, PrefixWidth.ofCount, hcount]
  | _ => rfl

/-- A name may end in front of spaces and a closing brace. -/
theorem atBoundary_trail {trail : List Char} (h : IsRun trail) : Scan.atBoundary (trail ++ ['}']) = true := by
  cases trail with
  | nil => rfl
  | cons c trail => simp [Scan.atBoundary, h.isSpace c (by simp)]

/-- Behind spaces stands the closing brace. -/
theorem dropWhile_trail {trail : List Char} (h : IsRun trail) : (trail ++ ['}']).dropWhile Scan.isSpace = ['}'] :=
  (takeWhile_append_of_head h.isSpace (by simp [Scan.isSpace])).2

/-- A text that is made of parts ends in its ending. -/
theorem Follows.isSuffix {ending rest : List Char} {parts : List (List Char)} (h : Follows ending parts rest) :
    ending <:+ rest := by
  induction h with
  | nil => exact List.suffix_refl _
  | cons _ _ ih => exact ih.trans (List.suffix_append _ _)

/-- What writes a field is the text of a line. -/
theorem WritesField.isLineText {f : Field} {text : List Char} (hf : f.Valid) (h : WritesField f text) : IsLineText text := by
  obtain ⟨count, numeral, lead, rest, trail, -, hcount, hlead, htrail, hrest, rfl⟩ := h
  have htag := isName_tag f.type
  have hparts : ∀ part ∈ f.type.tag.toList :: numeral, IsPart part := by
    refine List.forall_mem_cons.mpr ⟨htag.isPlain.isPart htag.ne_nil, fun part hp => ?_⟩
    exact (hcount.isPlain part hp).2.isPart (hcount.isPlain part hp).1
  have hslash : '/' ∉ trail ++ ['}'] := by simp [htrail.not_mem.2]
  obtain ⟨hline, hcomment⟩ := hrest.isPart_rest (atBoundary_trail htrail) hparts (by simp [htrail.not_mem.1])
    (hasNoComment_of_not_mem hslash)
  have hname := hf.name.isPlain
  have hnameSlash : '/' ∉ f.name.toList := fun hc => (hname '/' hc).2 rfl
  refine ⟨by simp, ?_, hasNoComment_append_of_front (by simp [hlead.not_mem.2, hnameSlash]) hcomment, ?_, ?_⟩
  · simp [hlead.not_mem.1, hname.newline_not_mem, hline]
  · intro c hc
    obtain rfl : '{' = c := by simpa using hc
    decide
  · obtain ⟨front, rfl⟩ := hrest.isSuffix
    have hbrace : EndsVisibly ['}'] := by simp [EndsVisibly, Text.isBlank]
    have hends : EndsVisibly (trail ++ ['}']) := hbrace.append (by simp)
    exact (hends.append (by simp)).append (by simp)

/-- A line that writes a field declares it. -/
theorem SourceLine.toField_of_writes {l : SourceLine} {f : Field} (hf : f.Valid) (h : WritesField f l.text.toList) :
    l.toField = .ok { f with line := l.number } := by
  obtain ⟨count, numeral, lead, r₁, trail, htype, hcount, hlead, htrail, hr₁, htext⟩ := h
  have hb := atBoundary_trail htrail
  obtain ⟨gap₂, r₂, hgap₂, rfl, hr₂⟩ := hr₁.of_cons
  obtain ⟨numeral, r₃, hnumeral, hread, hr₃⟩ := scans_count hcount hr₂ hb (by rw [dropWhile_trail htrail]; rfl) htype.1
  have hflag : Scan.Scans (Scan.optional .token Scan.token?) r₃ (some "\x7d") [] := by
    refine Scan.scans_optional_iff.mpr (.inl ⟨_, rfl, ?_⟩)
    rw [hr₃, dropWhile_trail htrail]
    rfl
  have hline : Scan.fieldLine.read l.text = .ok ⟨f.name, f.type.tag, numeral, some "\x7d"⟩ := by
    rw [Scan.read_fieldLine_iff, htext, List.cons_append, List.cons_append]
    exact ⟨_, _, _, r₃, [], Scan.scans_openingBrace_iff.mpr rfl, scans_name hlead.isSpace hf.name (hr₁.atBoundary hb),
      scans_name hgap₂.2.isSpace (isName_tag f.type) (hr₂.atBoundary hb), hnumeral, hflag, scans_ending_nil⟩
  exact SourceLine.toField_eq_ok_iff.mpr ⟨_, count, hline, hread, ofTag?_of_declaredBy htype, hf.size, rfl⟩

/-! ## The version line -/

/-- A spelling of the keyword of the version is plain. -/
theorem isPlain_of_spells_version {keyword : List Char} (h : SpellsWord "version" keyword) : keyword ≠ [] ∧ IsPlain keyword := by
  have hname := h.isName (by decide) (by decide)
  have hplain := hname.isPlain
  have hne := hname.ne_nil
  rw [String.toList_ofList] at hplain hne
  exact ⟨hne, hplain⟩

/-- What writes a version is the text of a line. -/
theorem WritesVersion.isLineText {tag : String} {text : List Char} (htag : IsVersion tag) (h : WritesVersion tag text) :
    IsLineText text := by
  obtain ⟨keyword, gap, hkeyword, hgap, rfl⟩ := h
  obtain ⟨hne, hplain⟩ := isPlain_of_spells_version hkeyword
  have hslash : '/' ∉ keyword := fun hc => (hplain '/' hc).2 rfl
  refine ⟨by simp [hne], ?_, hasNoComment_append_of_front (by simp [hslash, hgap.2.not_mem.2]) htag.noComment, ?_,
    htag.endsVisibly.append htag.nonempty⟩
  · simp [hplain.newline_not_mem, hgap.2.not_mem.1, htag.oneLine]
  · rw [List.append_assoc]
    exact hplain.startsVisibly _ hne

/-- The tag is read from a line that writes it. -/
theorem versionTag_of_writes {tag text : String} (htag : IsVersion tag) (h : WritesVersion tag text.toList) :
    Scan.versionTag text = tag := by
  obtain ⟨keyword, gap, hkeyword, hgap, htext⟩ := h
  obtain ⟨hne, hplain⟩ := isPlain_of_spells_version hkeyword
  have hlen : keyword.length = 7 := by simpa using congrArg List.length hkeyword
  have hskip : text.toList.dropWhile Scan.isSpace = keyword ++ (gap ++ tag.toList) := by
    rw [htext, List.append_assoc]
    have hspaces := dropWhile_isSpace (gap ++ tag.toList) (show ∀ c ∈ [], Scan.isSpace c = true by simp) hne
      hplain.isSpace_eq_false
    exact hspaces
  have hdrop : (keyword ++ (gap ++ tag.toList)).drop 7 = gap ++ tag.toList := List.drop_left' hlen
  have hstarts : Scan.startsWithVersion (keyword ++ (gap ++ tag.toList)) = true := by
    have hword : ((keyword ++ (gap ++ tag.toList)).take 7).map Char.toLower = "version".toList := by
      rw [List.take_left' hlen, hkeyword]
      decide
    rw [Scan.startsWithVersion, hword, hdrop]
    cases gap with
    | nil => exact absurd rfl hgap.1
    | cons c gap => simp [hgap.2.isSpace c (by simp)]
  have htail : (gap ++ tag.toList).dropWhile Scan.isSpace = tag.toList :=
    (takeWhile_append_of_head hgap.2.isSpace fun c hc => Scan.isSpace_eq_false_iff.mpr (htag.startsTight c hc)).2
  unfold Scan.versionTag
  simp only [hskip, hstarts, if_true, hdrop, htail, String.ofList_toList]

end MessageCatalog
