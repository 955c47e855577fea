import MessageCatalog.Proofs.Source.Writing

/-!
# The lines that are headers and fields

Which texts are message headers, block headers and field lines, and what their parts are, said without a scan: names,
numerals and runs of characters with gaps of spaces and tabs between them. Only a run that starts with a closing brace
needs no gap in front of it. A scan of a line succeeds exactly on these texts, and finds these parts.
-/

namespace MessageCatalog

/-! ## Forms -/

/-- A run of characters: at least one, and neither a space nor a tab among them. -/
def IsChunk (chunk : List Char) : Prop :=
  chunk ≠ [] ∧ ∀ c ∈ chunk, c ≠ ' ' ∧ c ≠ '\t'

/-- What may stand between a name or numeral and a run of characters: a gap, or nothing if the run starts with a closing brace. -/
def Joins (join chunk : List Char) : Prop :=
  IsGap join ∨ (join = [] ∧ chunk.head? = some '}')

/-- Whether a text is of a form but for spaces and tabs at its two ends. -/
def Padded (form : List Char → Prop) (line : List Char) : Prop :=
  ∃ lead text trail, IsRun lead ∧ form text ∧ IsRun trail ∧ line = lead ++ text ++ trail

/-- A message header: two names and a numeral with gaps between them, a run of characters that joins the numeral, and
one or two more runs behind gaps. -/
def MessageForm (parts : MessageParts) (text : List Char) : Prop :=
  IsName parts.name ∧ IsName parts.frequency ∧ Scan.IsNumeral parts.id.toList ∧ IsChunk parts.trust.toList ∧
    IsChunk parts.encoding.toList ∧ (∀ word ∈ parts.deprecation, IsChunk word.toList) ∧
    ∃ join more rest, Joins join parts.trust.toList ∧
      Follows [] (parts.encoding.toList :: (parts.deprecation.map String.toList).toList) more ∧
      Follows (join ++ parts.trust.toList ++ more) [parts.frequency.toList, parts.id.toList] rest ∧
        text = parts.name.toList ++ rest

/-- A block header: two names, and perhaps a numeral, with gaps between them. -/
def BlockForm (parts : BlockParts) (text : List Char) : Prop :=
  IsName parts.name ∧ IsName parts.quantity ∧ (∀ numeral ∈ parts.count, Scan.IsNumeral numeral.toList) ∧
    ∃ rest, Follows [] (parts.quantity.toList :: (parts.count.map String.toList).toList) rest ∧ text = parts.name.toList ++ rest

/-- Whether a run of characters is a numeral, or starts with one in front of a closing brace. -/
def StartsAsNumeral (chunk : List Char) : Prop :=
  ∃ numeral rest, Scan.IsNumeral numeral ∧ chunk = numeral ++ rest ∧ (rest = [] ∨ rest.head? = some '}')

/-- What may follow the type of a field: nothing, a flag that is attached to it, a count with a flag or without, or a
flag that cannot be taken for a count. -/
inductive FieldTail : Option String → Option String → List Char → Prop where
  | nothing : FieldTail none none []
  | attached {flag : String} (hflag : IsChunk flag.toList) (hbrace : flag.toList.head? = some '}') :
    FieldTail none (some flag) flag.toList
  | count {gap : List Char} {count : String} (hgap : IsGap gap) (hcount : Scan.IsNumeral count.toList) :
    FieldTail (some count) none (gap ++ count.toList)
  | countAndFlag {gap join : List Char} {count flag : String} (hgap : IsGap gap) (hcount : Scan.IsNumeral count.toList)
    (hjoin : Joins join flag.toList) (hflag : IsChunk flag.toList) :
    FieldTail (some count) (some flag) (gap ++ count.toList ++ join ++ flag.toList)
  | flag {gap : List Char} {flag : String} (hgap : IsGap gap) (hflag : IsChunk flag.toList)
      (hcount : ¬StartsAsNumeral flag.toList) :
    FieldTail none (some flag) (gap ++ flag.toList)

/-- A field line: a brace, two names with a gap between them, and what may follow the second. -/
def FieldForm (parts : FieldParts) (text : List Char) : Prop :=
  IsName parts.name ∧ IsName parts.type ∧ ∃ lead gap tail, IsRun lead ∧ IsGap gap ∧ FieldTail parts.count parts.flag tail ∧
    text = '{' :: lead ++ parts.name.toList ++ gap ++ parts.type.toList ++ tail

/-! ## Parts behind blanks -/

/-- A chunk is not empty and has nothing that is skipped. -/
theorem isChunk_iff {chunk : List Char} : IsChunk chunk ↔ chunk ≠ [] ∧ ∀ c ∈ chunk, Scan.isSpace c = false := by
  simp only [IsChunk, Scan.isSpace_eq_false_iff]

/-- A name is a chunk. -/
theorem IsName.isChunk {name : String} (h : IsName name) : IsChunk name.toList :=
  isChunk_iff.mpr ⟨h.ne_nil, h.isPlain.isSpace_eq_false⟩

/-- A numeral is a chunk. -/
theorem Scan.IsNumeral.isChunk {numeral : List Char} (h : Scan.IsNumeral numeral) : IsChunk numeral :=
  isChunk_iff.mpr ⟨h.ne_nil, h.isPlain.isSpace_eq_false⟩

/-- A run is what is skipped as a whole. -/
theorem isRun_iff {run : List Char} : IsRun run ↔ run.dropWhile Scan.isSpace = [] := by
  rw [List.dropWhile_eq_nil_iff]
  simp only [IsRun, Scan.isSpace, Bool.or_eq_true, decide_eq_true_eq]

/-- A run of characters stands behind the blanks at the front of a text. -/
theorem dropWhile_eq_append_iff {text chunk rest : List Char} (hchunk : IsChunk chunk) :
    text.dropWhile Scan.isSpace = chunk ++ rest ↔ ∃ lead, IsRun lead ∧ text = lead ++ chunk ++ rest := by
  obtain ⟨hne, hchars⟩ := isChunk_iff.mp hchunk
  constructor
  · intro h
    refine ⟨text.takeWhile Scan.isSpace, ?_, ?_⟩
    · rw [isRun_iff, List.dropWhile_eq_nil_iff]
      exact fun c hc => List.mem_takeWhile_imp hc
    · rw [List.append_assoc, ← h, List.takeWhile_append_dropWhile]
  · rintro ⟨lead, hlead, rfl⟩
    exact dropWhile_isSpace rest hlead.isSpace hne hchars

/-- A name is read of a text that has it behind a run and lets it end. -/
theorem scans_ident_iff_lead {text rest : List Char} {s : String} : Scan.Scans Scan.ident text s rest ↔
    IsName s ∧ Scan.atBoundary rest = true ∧ ∃ lead, IsRun lead ∧ text = lead ++ s.toList ++ rest := by
  rw [Scan.scans_ident_iff]
  constructor
  · rintro ⟨htext, hs, hrest⟩
    exact ⟨hs, hrest, (dropWhile_eq_append_iff hs.isChunk).mp htext⟩
  · rintro ⟨hs, hrest, hlead⟩
    exact ⟨(dropWhile_eq_append_iff hs.isChunk).mpr hlead, hs, hrest⟩

/-- A numeral behind blanks, whether it has to be there or not. -/
theorem number?_iff_lead {text numeral rest : List Char} : Scan.number? (text.dropWhile Scan.isSpace) = some (numeral, rest) ↔
    Scan.IsNumeral numeral ∧ Scan.atBoundary rest = true ∧ ∃ lead, IsRun lead ∧ text = lead ++ numeral ++ rest := by
  rw [Scan.number?_eq_some_iff]
  constructor
  · rintro ⟨htext, hn, hrest⟩
    exact ⟨hn, hrest, (dropWhile_eq_append_iff hn.isChunk).mp htext⟩
  · rintro ⟨hn, hrest, hlead⟩
    exact ⟨(dropWhile_eq_append_iff hn.isChunk).mpr hlead, hn, hrest⟩

/-- A run of characters behind blanks, whether it has to be there or not. -/
theorem token?_iff_lead {text chunk rest : List Char} : Scan.token? (text.dropWhile Scan.isSpace) = some (chunk, rest) ↔
    IsChunk chunk ∧ (∀ c ∈ rest.head?, Scan.isSpace c = true) ∧ ∃ lead, IsRun lead ∧ text = lead ++ chunk ++ rest := by
  rw [Scan.token?_eq_some_iff]
  constructor
  · rintro ⟨htext, hne, hchars, hrest⟩
    have hchunk := isChunk_iff.mpr ⟨hne, hchars⟩
    exact ⟨hchunk, hrest, (dropWhile_eq_append_iff hchunk).mp htext⟩
  · rintro ⟨hchunk, hrest, hlead⟩
    obtain ⟨hne, hchars⟩ := isChunk_iff.mp hchunk
    exact ⟨(dropWhile_eq_append_iff hchunk).mpr hlead, hne, hchars, hrest⟩

/-- Behind blanks a run of characters is missing only at the end of the line. -/
theorem token?_eq_none_iff {text : List Char} : Scan.token? (text.dropWhile Scan.isSpace) = none ↔ IsRun text := by
  rw [isRun_iff]
  cases hdrop : text.dropWhile Scan.isSpace with
  | nil => simp [Scan.token?, Scan.row?]
  | cons c rest =>
    have hc : Scan.isSpace c = false := head?_dropWhile_eq_false c (by rw [hdrop]; rfl)
    simp [Scan.token?, Scan.row?, hc]

/-! ## Gaps -/

/-- Behind a name or a numeral a part that does not start with a closing brace stands behind a gap. -/
theorem joins_of_atBoundary {lead chunk rest : List Char} (hb : Scan.atBoundary (lead ++ chunk ++ rest) = true)
    (hlead : IsRun lead) (hchunk : IsChunk chunk) : Joins lead chunk := by
  cases lead with
  | cons c lead => exact .inl ⟨by simp, hlead⟩
  | nil =>
    obtain ⟨hne, hchars⟩ := isChunk_iff.mp hchunk
    cases chunk with
    | nil => exact absurd rfl hne
    | cons c chunk =>
      have hc : Scan.isSpace c = true ∨ c = '}' := by simpa [Scan.atBoundary] using hb
      rw [hchars c (by simp)] at hc
      exact .inr ⟨rfl, by simpa using hc⟩

/-- Between parts stands a gap, unless the next one is a closing brace. -/
theorem Joins.isGap {join chunk : List Char} (h : Joins join chunk) (hchunk : chunk.head? ≠ some '}') : IsGap join :=
  h.resolve_right fun h => hchunk h.2

/-- Between parts stands a run. -/
theorem Joins.isRun {join chunk : List Char} (h : Joins join chunk) : IsRun join := by
  rcases h with h | ⟨rfl, -⟩
  · exact h.2
  · simp [IsRun]

/-- What joins a name or a numeral ends it. -/
theorem Joins.atBoundary {join chunk : List Char} (h : Joins join chunk) (rest : List Char) :
    Scan.atBoundary (join ++ chunk ++ rest) = true := by
  rcases h with ⟨hne, hrun⟩ | ⟨rfl, hbrace⟩
  · cases join with
    | nil => exact absurd rfl hne
    | cons c join => simp [Scan.atBoundary, hrun.isSpace c (by simp)]
  · cases chunk with
    | nil => cases hbrace
    | cons c chunk =>
      obtain rfl : c = '}' := by simpa using hbrace
      rfl

/-- A name does not start with a closing brace. -/
theorem IsName.head_ne_brace {name : String} (h : IsName name) : name.toList.head? ≠ some '}' := by
  intro hhead
  have hpart := h.isIdentPart '}' (List.mem_of_head? hhead)
  exact absurd hpart (by decide)

/-- A numeral does not start with a closing brace. -/
theorem Scan.IsNumeral.head_ne_brace {numeral : List Char} (h : Scan.IsNumeral numeral) : numeral.head? ≠ some '}' := by
  intro hhead
  rcases h with ⟨-, hdigits⟩ | ⟨mark, digits, rfl, -⟩
  · exact absurd (hdigits '}' (List.mem_of_head? hhead)) (by decide)
  · exact absurd hhead (by simp)

/-- A run in front of a chunk is a gap if the text starts with a space. -/
theorem isGap_of_spaces {lead chunk rest : List Char} (h : ∀ c ∈ (lead ++ chunk ++ rest).head?, Scan.isSpace c = true)
    (hlead : IsRun lead) (hchunk : IsChunk chunk) : IsGap lead := by
  refine ⟨?_, hlead⟩
  rintro rfl
  obtain ⟨hne, hchars⟩ := isChunk_iff.mp hchunk
  cases chunk with
  | nil => exact hne rfl
  | cons c chunk =>
    have hc := h c (by simp)
    rw [hchars c (by simp)] at hc
    cases hc

/-- Behind a name or a numeral the blanks in front of a part join it. -/
theorem exists_lead_iff_joins {text part rest : List Char} (htext : Scan.atBoundary text = true) (hpart : IsChunk part) :
    (∃ lead, IsRun lead ∧ text = lead ++ part ++ rest) ↔ ∃ join, Joins join part ∧ text = join ++ part ++ rest := by
  refine exists_congr fun lead => ?_
  constructor
  · rintro ⟨hlead, rfl⟩
    exact ⟨joins_of_atBoundary htext hlead hpart, rfl⟩
  · rintro ⟨hjoin, rfl⟩
    exact ⟨hjoin.isRun, rfl⟩

/-- Where a name may end, the next part stands behind a gap. -/
theorem exists_lead_iff_gap {text part rest : List Char} (htext : Scan.atBoundary text = true) (hpart : IsChunk part)
    (hhead : part.head? ≠ some '}') :
    (∃ lead, IsRun lead ∧ text = lead ++ part ++ rest) ↔ ∃ gap, IsGap gap ∧ text = gap ++ part ++ rest := by
  rw [exists_lead_iff_joins htext hpart]
  exact exists_congr fun join => and_congr_left' ⟨fun hjoin => hjoin.isGap hhead, .inl⟩

/-- The end of a line with a run of characters between blanks, or without one and only blanks. -/
def EndsWith : Option String → List Char → Prop
  | none, text => IsRun text
  | some s, text => ∃ lead trail, IsChunk s.toList ∧ IsRun lead ∧ IsRun trail ∧ text = lead ++ s.toList ++ trail

/-- What a scan for an optional run of characters and the end of the line goes through. -/
theorem scans_optional_token_iff {text : List Char} {flag : Option String} :
    (∃ rest, Scan.Scans (Scan.optional .token Scan.token?) text flag rest ∧ Scan.Scans Scan.ending rest () []) ↔
      EndsWith flag text := by
  simp only [Scan.scans_optional_iff, Scan.scans_ending_iff, ← isRun_iff]
  constructor
  · rintro ⟨rest, ⟨s, rfl, htoken⟩ | ⟨rfl, htoken, -⟩, hrest, -⟩
    · obtain ⟨hs, -, lead, hlead, htext⟩ := token?_iff_lead.mp htoken
      exact ⟨lead, rest, hs, hlead, hrest, htext⟩
    · exact token?_eq_none_iff.mp htoken
  · intro h
    cases flag with
    | none =>
      refine ⟨_, .inr ⟨rfl, token?_eq_none_iff.mpr h, rfl⟩, ?_, trivial⟩
      rw [isRun_iff.mp h]
      simp [IsRun]
    | some s =>
      obtain ⟨lead, trail, hs, hlead, htrail, htext⟩ := h
      have hspaces : ∀ c ∈ trail.head?, Scan.isSpace c = true := fun c hc => htrail.isSpace c (List.mem_of_head? hc)
      exact ⟨trail, .inl ⟨s, rfl, token?_iff_lead.mpr ⟨hs, hspaces, lead, hlead, htext⟩⟩, htrail, trivial⟩

/-- A name behind a name stands behind a gap. -/
theorem scans_ident_iff_gap {text rest : List Char} {s : String} (htext : Scan.atBoundary text = true) :
    Scan.Scans Scan.ident text s rest ↔
      IsName s ∧ Scan.atBoundary rest = true ∧ ∃ gap, IsGap gap ∧ text = gap ++ s.toList ++ rest := by
  rw [scans_ident_iff_lead]
  exact and_congr_right fun hs => and_congr_right fun _ => exists_lead_iff_gap htext hs.isChunk hs.head_ne_brace

/-- A numeral behind a name stands behind a gap. -/
theorem number?_iff_gap {text numeral rest : List Char} (htext : Scan.atBoundary text = true) :
    Scan.number? (text.dropWhile Scan.isSpace) = some (numeral, rest) ↔
      Scan.IsNumeral numeral ∧ Scan.atBoundary rest = true ∧ ∃ gap, IsGap gap ∧ text = gap ++ numeral ++ rest := by
  rw [number?_iff_lead]
  exact and_congr_right fun hn => and_congr_right fun _ => exists_lead_iff_gap htext hn.isChunk hn.head_ne_brace

/-- A name may end in front of a gap. -/
theorem IsGap.atBoundary {gap : List Char} (h : IsGap gap) (part rest : List Char) :
    Scan.atBoundary (gap ++ part ++ rest) = true :=
  Joins.atBoundary (.inl h) rest

/-- A name may end in front of a run. -/
theorem IsRun.atBoundary {run : List Char} (h : IsRun run) : Scan.atBoundary run = true := by
  cases run with
  | nil => rfl
  | cons c run => simp [Scan.atBoundary, h.isSpace c (by simp)]

/-! ## Block headers -/

/-- Behind the quantity of a block header stand a count behind a gap, or nothing, and blanks. -/
theorem scans_count_iff {text : List Char} {count : Option String} (htext : Scan.atBoundary text = true) :
    (∃ rest, Scan.Scans (Scan.optional .number Scan.number?) text count rest ∧ Scan.Scans Scan.ending rest () []) ↔
      (∀ numeral ∈ count, Scan.IsNumeral numeral.toList) ∧
        ∃ more trail, Follows [] (count.map String.toList).toList more ∧ IsRun trail ∧ text = more ++ trail := by
  simp only [Scan.scans_optional_iff, Scan.scans_ending_iff, ← isRun_iff]
  constructor
  · rintro ⟨rest, ⟨numeral, rfl, hnumber⟩ | ⟨rfl, -, rfl⟩, hrest, -⟩
    · obtain ⟨hn, -, gap, hgap, rfl⟩ := (number?_iff_gap htext).mp hnumber
      refine ⟨by simpa using hn, gap ++ numeral.toList ++ [], rest, .cons hgap .nil, hrest, by simp⟩
    · refine ⟨by simp, [], text, .nil, ?_, rfl⟩
      rw [isRun_iff] at hrest ⊢
      rwa [List.dropWhile_idempotent] at hrest
  · rintro ⟨hnumeral, more, trail, hmore, htrail, rfl⟩
    cases count with
    | none =>
      cases hmore
      have hdrop := isRun_iff.mp htrail
      refine ⟨_, .inr ⟨rfl, ?_, rfl⟩, ?_, trivial⟩
      · rw [List.nil_append, hdrop]
        rfl
      · rw [List.nil_append, hdrop]
        simp [IsRun]
    | some numeral =>
      obtain ⟨gap, _, hgap, rfl, hnil⟩ := hmore.of_cons
      cases hnil
      rw [List.append_nil] at htext ⊢
      exact ⟨trail, .inl ⟨numeral, rfl, (number?_iff_gap htext).mpr
        ⟨hnumeral numeral rfl, htrail.atBoundary, gap, hgap, rfl⟩⟩, htrail, trivial⟩

/-- What stands behind a text of parts belongs to its ending. -/
theorem Follows.append {ending rest : List Char} {parts : List (List Char)} (h : Follows ending parts rest) (back : List Char) :
    Follows (ending ++ back) parts (rest ++ back) := by
  induction h with
  | nil => exact .nil
  | cons hgap _ ih =>
    rw [List.append_assoc]
    exact .cons hgap ih

/-- A scan for a block header succeeds exactly on the lines of its form. -/
theorem read_blockHeader_iff_form {text : String} {parts : BlockParts} :
    Scan.blockHeader.read text = .ok parts ↔ Padded (BlockForm parts) text.toList := by
  rw [Scan.read_blockHeader_iff]
  constructor
  · rintro ⟨r₁, r₂, r₃, hname, hquantity, hcount, hend⟩
    obtain ⟨hn, hb₁, lead, hlead, htext⟩ := scans_ident_iff_lead.mp hname
    obtain ⟨hq, hb₂, gap, hgap, rfl⟩ := (scans_ident_iff_gap hb₁).mp hquantity
    obtain ⟨hc, more, trail, hmore, htrail, rfl⟩ := (scans_count_iff hb₂).mp ⟨r₃, hcount, hend⟩
    exact ⟨lead, _, trail, hlead, ⟨hn, hq, hc, _, .cons hgap hmore, rfl⟩, htrail, by simp [htext]⟩
  · rintro ⟨lead, _, trail, hlead, ⟨hn, hq, hc, _, hrest, rfl⟩, htrail, htext⟩
    obtain ⟨gap, more, hgap, rfl, hmore⟩ := hrest.of_cons
    have hb₂ : Scan.atBoundary (more ++ trail) = true := (hmore.append trail).atBoundary htrail.atBoundary
    have hb₁ := hgap.atBoundary parts.quantity.toList (more ++ trail)
    obtain ⟨r₃, hcount, hend⟩ := (scans_count_iff hb₂).mpr ⟨hc, more, trail, hmore, htrail, rfl⟩
    refine ⟨_, _, r₃, scans_ident_iff_lead.mpr ⟨hn, hb₁, lead, hlead, ?_⟩,
      (scans_ident_iff_gap hb₁).mpr ⟨hq, hb₂, gap, hgap, rfl⟩, hcount, hend⟩
    simp [htext]

/-! ## Message headers -/

/-- A run of characters behind a name or a numeral joins it. -/
theorem scans_token_iff_joins {text rest : List Char} {s : String} (htext : Scan.atBoundary text = true) :
    Scan.Scans Scan.token text s rest ↔
      IsChunk s.toList ∧ (∀ c ∈ rest.head?, Scan.isSpace c = true) ∧
        ∃ join, Joins join s.toList ∧ text = join ++ s.toList ++ rest := by
  rw [Scan.token, Scan.scans_require_iff, token?_iff_lead]
  exact and_congr_right fun hs => and_congr_right fun _ => exists_lead_iff_joins htext hs

/-- A run of characters behind another one stands behind a gap. -/
theorem scans_token_iff_gap {text rest : List Char} {s : String} (htext : ∀ c ∈ text.head?, Scan.isSpace c = true) :
    Scan.Scans Scan.token text s rest ↔
      IsChunk s.toList ∧ (∀ c ∈ rest.head?, Scan.isSpace c = true) ∧ ∃ gap, IsGap gap ∧ text = gap ++ s.toList ++ rest := by
  rw [Scan.token, Scan.scans_require_iff, token?_iff_lead]
  refine and_congr_right fun hs => and_congr_right fun _ => exists_congr fun lead => ?_
  constructor
  · rintro ⟨hlead, rfl⟩
    exact ⟨isGap_of_spaces htext hlead hs, rfl⟩
  · rintro ⟨hgap, rfl⟩
    exact ⟨hgap.2, rfl⟩

/-- Behind the encoding of a message header stand one more run of characters behind a gap, or nothing, and blanks. -/
theorem scans_deprecation_iff {text : List Char} {word : Option String} (htext : ∀ c ∈ text.head?, Scan.isSpace c = true) :
    (∃ rest, Scan.Scans (Scan.optional .token Scan.token?) text word rest ∧ Scan.Scans Scan.ending rest () []) ↔
      (∀ s ∈ word, IsChunk s.toList) ∧
        ∃ more trail, Follows [] (word.map String.toList).toList more ∧ IsRun trail ∧ text = more ++ trail := by
  rw [scans_optional_token_iff]
  constructor
  · intro h
    cases word with
    | none => exact ⟨by simp, [], text, .nil, h, rfl⟩
    | some s =>
      obtain ⟨lead, trail, hs, hlead, htrail, rfl⟩ := h
      have hgap : IsGap lead := isGap_of_spaces htext hlead hs
      exact ⟨by simpa using hs, _, trail, .cons hgap .nil, htrail, by simp⟩
  · rintro ⟨hword, more, trail, hmore, htrail, rfl⟩
    cases word with
    | none =>
      cases hmore
      exact htrail
    | some s =>
      obtain ⟨gap, _, hgap, rfl, hnil⟩ := hmore.of_cons
      cases hnil
      exact ⟨gap, trail, hword s rfl, hgap.2, htrail, by simp⟩

/-- A line goes on with a blank, or ends, behind gaps and parts. -/
theorem Follows.head_isSpace_append {rest trail : List Char} {parts : List (List Char)} (h : Follows [] parts rest)
    (htrail : IsRun trail) : ∀ c ∈ (rest ++ trail).head?, Scan.isSpace c = true := by
  intro c hc
  cases rest with
  | nil => exact htrail.isSpace c (List.mem_of_head? hc)
  | cons d rest => exact h.head_isSpace c hc

/-- A scan for a message header succeeds exactly on the lines of its form. -/
theorem read_messageHeader_iff_form {text : String} {parts : MessageParts} :
    Scan.messageHeader.read text = .ok parts ↔ Padded (MessageForm parts) text.toList := by
  rw [Scan.read_messageHeader_iff]
  constructor
  · rintro ⟨r₁, r₂, r₃, r₄, r₅, r₆, hname, hfrequency, hid, htrust, hencoding, hword, hend⟩
    obtain ⟨hn, hb₁, lead, hlead, htext⟩ := scans_ident_iff_lead.mp hname
    obtain ⟨hf, hb₂, g₁, hg₁, rfl⟩ := (scans_ident_iff_gap hb₁).mp hfrequency
    obtain ⟨hi, hb₃, g₂, hg₂, rfl⟩ := (number?_iff_gap hb₂).mp (Scan.scans_require_iff.mp hid)
    obtain ⟨ht, hs₄, join, hjoin, rfl⟩ := (scans_token_iff_joins hb₃).mp htrust
    obtain ⟨he, hs₅, g₃, hg₃, rfl⟩ := (scans_token_iff_gap hs₄).mp hencoding
    obtain ⟨hw, more, trail, hmore, htrail, rfl⟩ := (scans_deprecation_iff hs₅).mp ⟨r₆, hword, hend⟩
    refine ⟨lead, _, trail, hlead, ⟨hn, hf, hi, ht, he, hw, join, _, _, hjoin, .cons hg₃ hmore, .cons hg₁ (.cons hg₂ .nil), rfl⟩,
      htrail, ?_⟩
    simp [htext]
  · rintro ⟨lead, _, trail, hlead, ⟨hn, hf, hi, ht, he, hw, join, _, _, hjoin, hmore, hrest, rfl⟩, htrail, htext⟩
    obtain ⟨g₁, _, hg₁, rfl, hnumber⟩ := hrest.of_cons
    obtain ⟨g₂, _, hg₂, rfl, hnil⟩ := hnumber.of_cons
    cases hnil
    have hs₄ := hmore.head_isSpace_append htrail
    obtain ⟨g₃, more, hg₃, rfl, hwords⟩ := hmore.of_cons
    have hs₅ := hwords.head_isSpace_append htrail
    -- the boundaries are those of the line without its ends
    have hb₃ := hjoin.atBoundary (g₃ ++ parts.encoding.toList ++ (more ++ trail))
    have hb₂ := hg₂.atBoundary parts.id.toList (join ++ parts.trust.toList ++ (g₃ ++ parts.encoding.toList ++ (more ++ trail)))
    have hb₁ := hg₁.atBoundary parts.frequency.toList
      (g₂ ++ parts.id.toList ++ (join ++ parts.trust.toList ++ (g₃ ++ parts.encoding.toList ++ (more ++ trail))))
    obtain ⟨r₆, hword, hend⟩ := (scans_deprecation_iff hs₅).mpr ⟨hw, more, trail, hwords, htrail, rfl⟩
    rw [List.append_assoc] at hs₄
    refine ⟨_, _, _, _, _, r₆, scans_ident_iff_lead.mpr ⟨hn, hb₁, lead, hlead, ?_⟩,
      (scans_ident_iff_gap hb₁).mpr ⟨hf, hb₂, g₁, hg₁, rfl⟩,
      Scan.scans_require_iff.mpr ((number?_iff_gap hb₂).mpr ⟨hi, hb₃, g₂, hg₂, rfl⟩),
      (scans_token_iff_joins hb₃).mpr ⟨ht, hs₄, join, hjoin, rfl⟩,
      (scans_token_iff_gap hs₄).mpr ⟨he, hs₅, g₃, hg₃, rfl⟩, hword, hend⟩
    simp [htext]

/-! ## Field lines -/

/-- A run of characters in front of a blank or the end is passed over by a scan for a numeral exactly if it does not
start as one. -/
theorem number?_eq_none_iff {chunk trail : List Char} (hchunk : IsChunk chunk)
    (htrail : ∀ c ∈ trail.head?, Scan.isSpace c = true) :
    Scan.number? (chunk ++ trail) = none ↔ ¬StartsAsNumeral chunk := by
  rw [Option.eq_none_iff_forall_ne_some, ← not_exists, not_iff_not, Prod.exists]
  simp only [Scan.number?_eq_some_iff]
  constructor
  · rintro ⟨numeral, rest, htext, hn, hb⟩
    -- the numeral has no blank, so it ends inside the run
    rcases List.append_eq_append_iff.mp htext.symm with ⟨back, rfl, rfl⟩ | ⟨back, rfl, rfl⟩
    · refine ⟨numeral, back, hn, rfl, ?_⟩
      cases back with
      | nil => exact .inl rfl
      | cons c back =>
        have hc : Scan.isSpace c = false := (isChunk_iff.mp hchunk).2 c (by simp)
        exact .inr (by simpa [Scan.atBoundary, hc] using hb)
    · cases back with
      | nil => exact ⟨chunk, [], by simpa using hn, by simp, .inl rfl⟩
      | cons c back =>
        have hspace := htrail c (by simp)
        rw [hn.isPlain.isSpace_eq_false c (by simp)] at hspace
        cases hspace
  · rintro ⟨numeral, rest, hn, rfl, hrest⟩
    refine ⟨numeral, rest ++ trail, by simp, hn, ?_⟩
    rcases hrest with rfl | hbrace
    · cases trail with
      | nil => rfl
      | cons c trail => simp [Scan.atBoundary, htrail c (by simp)]
    · exact Joins.atBoundary (.inr ⟨rfl, hbrace⟩) trail

/-- A type may end in front of the tail of a field. -/
theorem FieldTail.atBoundary {count flag : Option String} {tail trail : List Char} (h : FieldTail count flag tail)
    (htrail : IsRun trail) : Scan.atBoundary (tail ++ trail) = true := by
  cases h with
  | nothing => exact htrail.atBoundary
  | attached hflag hbrace => exact Joins.atBoundary (.inr ⟨rfl, hbrace⟩) trail
  | count hgap hcount => exact hgap.atBoundary _ trail
  | countAndFlag hgap hcount hjoin hflag =>
    rw [List.append_assoc, List.append_assoc]
    exact hgap.atBoundary _ _
  | flag hgap hflag hcount => exact hgap.atBoundary _ trail

/-- What starts as a numeral does not start with a closing brace. -/
theorem StartsAsNumeral.head_ne_brace {chunk : List Char} (h : StartsAsNumeral chunk) : chunk.head? ≠ some '}' := by
  obtain ⟨numeral, rest, hn, rfl, -⟩ := h
  rw [List.head?_append_of_ne_nil _ hn.ne_nil]
  exact hn.head_ne_brace

/-- A flag that does not start as a numeral is not taken for a count. -/
theorem number?_of_flag {join flag trail : List Char} (hjoin : Joins join flag) (hflag : IsChunk flag)
    (hcount : ¬StartsAsNumeral flag) (htrail : IsRun trail) :
    Scan.number? ((join ++ flag ++ trail).dropWhile Scan.isSpace) = none := by
  rw [(dropWhile_eq_append_iff hflag).mpr ⟨join, hjoin.isRun, rfl⟩]
  exact (number?_eq_none_iff hflag fun c hc => htrail.isSpace c (List.mem_of_head? hc)).mpr hcount

/-- A flag is found from behind the blanks as well as from in front of them. -/
theorem scans_flag_iff {text : List Char} {flag : Option String} :
    (∃ rest, Scan.Scans (Scan.optional .token Scan.token?) (text.dropWhile Scan.isSpace) flag rest ∧
      Scan.Scans Scan.ending rest () []) ↔
      EndsWith flag text := by
  rw [← scans_optional_token_iff]
  simp only [Scan.scans_optional_iff, List.dropWhile_idempotent]

/-- A count and a flag are found behind the type of a field: the count if there is one, and the flag behind it; or the
flag where no count can be found. -/
theorem scans_count_flag_iff {text : List Char} {count flag : Option String} (htext : Scan.atBoundary text = true) :
    (∃ r r', Scan.Scans (Scan.optional .number Scan.number?) text count r ∧
      Scan.Scans (Scan.optional .token Scan.token?) r flag r' ∧
      Scan.Scans Scan.ending r' () []) ↔
      (count = none ∧ Scan.number? (text.dropWhile Scan.isSpace) = none ∧ EndsWith flag text) ∨
        ∃ numeral gap rest, count = some numeral ∧ Scan.IsNumeral numeral.toList ∧ IsGap gap ∧ Scan.atBoundary rest = true ∧
          EndsWith flag rest ∧ text = gap ++ numeral.toList ++ rest := by
  constructor
  · rintro ⟨r, r', hcount, hflag, hend⟩
    rcases Scan.scans_optional_iff.mp hcount with ⟨numeral, rfl, hnumber⟩ | ⟨rfl, hnumber, rfl⟩
    · obtain ⟨hn, hb, gap, hgap, rfl⟩ := (number?_iff_gap htext).mp hnumber
      exact .inr ⟨numeral, gap, r, rfl, hn, hgap, hb, scans_optional_token_iff.mp ⟨r', hflag, hend⟩, rfl⟩
    · exact .inl ⟨rfl, hnumber, scans_flag_iff.mp ⟨r', hflag, hend⟩⟩
  · rintro (⟨rfl, hnumber, h⟩ | ⟨numeral, gap, rest, rfl, hn, hgap, hb, h, rfl⟩)
    · obtain ⟨r', hflag, hend⟩ := scans_flag_iff.mpr h
      exact ⟨_, r', Scan.scans_optional_iff.mpr (.inr ⟨rfl, hnumber, rfl⟩), hflag, hend⟩
    · obtain ⟨r', hflag, hend⟩ := scans_optional_token_iff.mpr h
      have hnumber := (number?_iff_gap htext).mpr ⟨hn, hb, gap, hgap, rfl⟩
      exact ⟨rest, r', Scan.scans_optional_iff.mpr (.inl ⟨numeral, rfl, hnumber⟩), hflag, hend⟩

/-- Without a count there is nothing behind the type, or a flag that is attached to it or cannot be taken for a count. -/
theorem fieldTail_none_iff {text : List Char} {flag : Option String} (htext : Scan.atBoundary text = true) :
    Scan.number? (text.dropWhile Scan.isSpace) = none ∧ EndsWith flag text ↔
      ∃ tail trail, FieldTail none flag tail ∧ IsRun trail ∧ text = tail ++ trail := by
  constructor
  · rintro ⟨hnumber, h⟩
    cases flag with
    | none => exact ⟨[], text, .nothing, h, rfl⟩
    | some s =>
      obtain ⟨lead, trail, hs, hlead, htrail, rfl⟩ := h
      rw [(dropWhile_eq_append_iff hs).mpr ⟨lead, hlead, rfl⟩] at hnumber
      have hcount := (number?_eq_none_iff hs fun c hc => htrail.isSpace c (List.mem_of_head? hc)).mp hnumber
      rcases joins_of_atBoundary htext hlead hs with hgap | ⟨rfl, hbrace⟩
      · exact ⟨_, trail, .flag hgap hs hcount, htrail, rfl⟩
      · exact ⟨_, trail, .attached hs hbrace, htrail, rfl⟩
  · rintro ⟨tail, trail, htail, htrail, rfl⟩
    cases htail with
    | nothing =>
      refine ⟨?_, htrail⟩
      rw [List.nil_append, isRun_iff.mp htrail]
      rfl
    | @attached flag hs hbrace =>
      have hjoin : Joins [] flag.toList := .inr ⟨rfl, hbrace⟩
      exact ⟨number?_of_flag hjoin hs (fun h => h.head_ne_brace hbrace) htrail, [], trail, hs, hjoin.isRun, htrail, rfl⟩
    | @flag gap flag hgap hs hcount =>
      exact ⟨number?_of_flag (.inl hgap) hs hcount htrail, gap, trail, hs, hgap.2, htrail, rfl⟩

/-- Behind a count there is nothing, or a flag that joins it. -/
theorem fieldTail_some_iff {text : List Char} {numeral : String} {flag : Option String} :
    (∃ gap rest, Scan.IsNumeral numeral.toList ∧ IsGap gap ∧ Scan.atBoundary rest = true ∧ EndsWith flag rest ∧
      text = gap ++ numeral.toList ++ rest) ↔
      ∃ tail trail, FieldTail (some numeral) flag tail ∧ IsRun trail ∧ text = tail ++ trail := by
  constructor
  · rintro ⟨gap, rest, hn, hgap, hb, h, rfl⟩
    cases flag with
    | none => exact ⟨_, rest, .count hgap hn, h, rfl⟩
    | some s =>
      obtain ⟨lead, trail, hs, hlead, htrail, rfl⟩ := h
      exact ⟨_, trail, .countAndFlag hgap hn (joins_of_atBoundary hb hlead hs) hs, htrail, by simp⟩
  · rintro ⟨tail, trail, htail, htrail, rfl⟩
    cases htail with
    | @count gap _ hgap hn => exact ⟨gap, trail, hn, hgap, htrail.atBoundary, htrail, rfl⟩
    | @countAndFlag gap join _ flag hgap hn hjoin hs =>
      exact ⟨gap, _, hn, hgap, hjoin.atBoundary trail, ⟨join, trail, hs, hjoin.isRun, htrail, rfl⟩, by simp⟩

/-- Behind the type of a field stand its count and flag, as far as they are there, and blanks. -/
theorem scans_fieldTail_iff {text : List Char} {count flag : Option String} (htext : Scan.atBoundary text = true) :
    (∃ r r', Scan.Scans (Scan.optional .number Scan.number?) text count r ∧
      Scan.Scans (Scan.optional .token Scan.token?) r flag r' ∧
      Scan.Scans Scan.ending r' () []) ↔ ∃ tail trail, FieldTail count flag tail ∧ IsRun trail ∧ text = tail ++ trail := by
  rw [scans_count_flag_iff htext]
  cases count with
  | none => simpa using fieldTail_none_iff htext
  | some numeral =>
    rw [← fieldTail_some_iff]
    simp

/-- A scan for a field line succeeds exactly on the lines of its form. -/
theorem read_fieldLine_iff_form {text : String} {parts : FieldParts} :
    Scan.fieldLine.read text = .ok parts ↔ Padded (FieldForm parts) text.toList := by
  have hbrace : IsChunk ['{'] := by simp [IsChunk]
  rw [Scan.read_fieldLine_iff]
  constructor
  · rintro ⟨r₀, r₁, r₂, r₃, r₄, hopen, hname, htype, hcount, hflag, hend⟩
    obtain ⟨before, hbefore, htext⟩ := (dropWhile_eq_append_iff hbrace).mp (Scan.scans_openingBrace_iff.mp hopen)
    obtain ⟨hn, hb₁, lead, hlead, rfl⟩ := scans_ident_iff_lead.mp hname
    obtain ⟨ht, hb₂, gap, hgap, rfl⟩ := (scans_ident_iff_gap hb₁).mp htype
    obtain ⟨tail, trail, htail, htrail, rfl⟩ := (scans_fieldTail_iff hb₂).mp ⟨r₃, r₄, hcount, hflag, hend⟩
    exact ⟨before, _, trail, hbefore, ⟨hn, ht, lead, gap, tail, hlead, hgap, htail, rfl⟩, htrail, by simp [htext]⟩
  · rintro ⟨before, _, trail, hbefore, ⟨hn, ht, lead, gap, tail, hlead, hgap, htail, rfl⟩, htrail, htext⟩
    have hb₂ := htail.atBoundary htrail
    have hb₁ := hgap.atBoundary parts.type.toList (tail ++ trail)
    obtain ⟨r₃, r₄, hcount, hflag, hend⟩ := (scans_fieldTail_iff hb₂).mpr ⟨tail, trail, htail, htrail, rfl⟩
    refine ⟨_, _, _, r₃, r₄,
      Scan.scans_openingBrace_iff.mpr ((dropWhile_eq_append_iff hbrace).mpr ⟨before, hbefore, ?_⟩),
      scans_ident_iff_lead.mpr ⟨hn, hb₁, lead, hlead, rfl⟩,
      (scans_ident_iff_gap hb₁).mpr ⟨ht, hb₂, gap, hgap, rfl⟩, hcount, hflag, hend⟩
    simp [htext]

/-! ## All three -/

/-- A line is read as a message header, block header or field line exactly if it has the form of one, and its parts are
those that stand in the form. -/
theorem read_iff_line_form (text : String) :
    (∀ parts, Scan.messageHeader.read text = .ok parts ↔ Padded (MessageForm parts) text.toList) ∧
      (∀ parts, Scan.blockHeader.read text = .ok parts ↔ Padded (BlockForm parts) text.toList) ∧
      ∀ parts, Scan.fieldLine.read text = .ok parts ↔ Padded (FieldForm parts) text.toList :=
  ⟨fun _ => read_messageHeader_iff_form, fun _ => read_blockHeader_iff_form, fun _ => read_fieldLine_iff_form⟩

end MessageCatalog
