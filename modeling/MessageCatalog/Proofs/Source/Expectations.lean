import MessageCatalog.Proofs.Source.LineForms
import MessageCatalog.Source.Entry

/-!
# Reports of malformed lines are truthful

A scan that stops reports a place in the line and what it looked for there. Everything it reports is possible at the
place: the text in front of it is a line already, if the end of the line is among what was looked for, and can be
completed to a line by each part that is. The proof goes through a line part by part. A part that was found is found
again with whatever completes the line behind it (`IsPart.goesOn`), so what the rest of the line reports is possible
behind the part (`Warranted.behind`); and where a part is missing, some part of its kind and some rest can take its
place (`Completable`).
-/

namespace MessageCatalog.Scan

variable {α β : Type}

/-! ## What is possible at a place -/

/-- The texts that begin with what is looked for: nothing for the end of the line, and a part of its kind behind a space
otherwise. -/
inductive Opens : Expectation → List Char → Prop where
  | ending : Opens .ending []
  | ident {text : List Char} (h : (ident? text).isSome = true) : Opens .ident (' ' :: text)
  | number {text : List Char} (h : (number? text).isSome = true) : Opens .number (' ' :: text)
  | token {text : List Char} (h : (token? text).isSome = true) : Opens .token (' ' :: text)

/-- The text goes on with a blank, or not at all. -/
def StartsBlank (text : List Char) : Prop :=
  ∀ c ∈ text.head?, isSpace c = true

/-- The scan reads the whole text. -/
def Covers (scan : Scan α) (text : List Char) : Prop :=
  ∃ a, Scans scan text a []

/-- What is looked for is possible behind a text: with something that begins with it, the scan reads the whole. -/
def Possible (scan : Scan α) (front : List Char) (e : Expectation) : Prop :=
  ∃ tail, Opens e tail ∧ Covers scan (front ++ tail)

/-- A mismatch of a scan that started at a cursor: it is at a place of the text to come, and there it looked for
something, all of which is possible behind the text in front of the place. What was missed before the scan started may
be looked for as well, if the place is that of the cursor. -/
def Warranted (scan : Scan α) (c : Cursor) (m : Mismatch) : Prop :=
  ∃ front rest, c.rest = front ++ rest ∧ m.offset = c.offset + front.length ∧ m.expected ≠ [] ∧
    ∀ e ∈ m.expected, (front = [] ∧ e ∈ c.missed) ∨ Possible scan front e

/-- There is something that the scan reads whole, from a blank on. -/
def Completable (scan : Scan α) : Prop :=
  ∃ tail, StartsBlank tail ∧ Covers scan tail

/-- The scan can be completed from any place on, and all its mismatches are warranted. -/
structure Truthful (scan : Scan α) : Prop where
  completable : Completable scan
  warranted : ∀ c m, scan c = .error m → Warranted scan c m

/-- What is looked for starts with a blank or is the end. -/
theorem Opens.startsBlank {e : Expectation} {tail : List Char} (h : Opens e tail) : StartsBlank tail := by
  intro c hc
  cases h with
  | ending => cases hc
  | ident => cases hc; rfl
  | number => cases hc; rfl
  | token => cases hc; rfl

/-- Behind a text that is read whole the line may end. -/
theorem Covers.possible_ending {scan : Scan α} {front : List Char} (h : Covers scan front) : Possible scan front .ending :=
  ⟨[], .ending, by rwa [List.append_nil]⟩

/-! ## Runs of a scan -/

/-- Behind a scan that reads something the next one goes on where it stopped. -/
theorem bind_of_ok {scan : Scan α} {next : α → Scan β} {c c' : Cursor} {a : α} (h : scan c = .ok (a, c')) :
    (scan >>= next) c = next a c' := by
  change StateT.bind scan next c = _
  unfold StateT.bind
  rw [h]
  rfl

/-- Behind a scan that fails nothing is read. -/
theorem bind_of_error {scan : Scan α} {next : α → Scan β} {c : Cursor} {m : Mismatch} (h : scan c = .error m) :
    (scan >>= next) c = .error m := by
  change StateT.bind scan next c = _
  unfold StateT.bind
  rw [h]
  rfl

/-- To skip spaces is to go on by their number. -/
theorem skip_offset (c : Cursor) : c.skip.offset = c.offset + (c.rest.takeWhile isSpace).length := by
  unfold Cursor.skip
  split
  · rename_i h
    rw [List.isEmpty_iff.mp h]
    rfl
  · rfl

/-- What was missed in front of blanks is forgotten behind them. -/
theorem mem_skip_missed {c : Cursor} {e : Expectation} (h : e ∈ c.skip.missed) :
    c.rest.takeWhile isSpace = [] ∧ e ∈ c.missed := by
  unfold Cursor.skip at h
  split at h
  · rename_i hempty
    exact ⟨List.isEmpty_iff.mp hempty, h⟩
  · cases h

section Parts

variable {expected : Expectation} {part? : List Char → Option Found} {c : Cursor}

/-- A part that may be there is read if it is there. -/
theorem optional_of_some {front rest : List Char} (h : part? (c.rest.dropWhile isSpace) = some (front, rest)) :
    optional expected part? c = .ok (some (String.ofList front), ⟨rest, c.skip.offset + front.length, []⟩) := by
  simp only [optional, skip_rest, h]

/-- A part that may be there is missed if it is not, and reading goes on behind the spaces. -/
theorem optional_of_none (h : part? (c.rest.dropWhile isSpace) = none) :
    optional expected part? c = .ok (none, ⟨c.rest.dropWhile isSpace, c.skip.offset, c.skip.missed ++ [expected]⟩) := by
  simp only [optional, skip_rest, h]

/-- A part that has to be there is read if it is there. -/
theorem require_of_some {front rest : List Char} (h : part? (c.rest.dropWhile isSpace) = some (front, rest)) :
    require expected part? c = .ok (String.ofList front, ⟨rest, c.skip.offset + front.length, []⟩) :=
  bind_eq_ok_iff.mpr ⟨_, _, optional_of_some h, rfl⟩

/-- A part that has to be there is named in the mismatch if it is not, with what was missed before. -/
theorem require_of_none (h : part? (c.rest.dropWhile isSpace) = none) :
    require expected part? c = .error ⟨c.skip.offset, c.skip.missed ++ [expected]⟩ := by
  unfold require
  rw [bind_of_ok (optional_of_none h)]

end Parts

/-- Where something is left, the end of the line is named in the mismatch. -/
theorem ending_of_ne_nil {c : Cursor} (h : c.rest.dropWhile isSpace ≠ []) :
    ending c = .error ⟨c.skip.offset, c.skip.missed ++ [.ending]⟩ := by
  have hrun : ending c = if c.skip.rest.isEmpty then .ok ((), c.skip)
      else .error ⟨c.skip.offset, c.skip.missed ++ [.ending]⟩ := rfl
  rw [hrun, skip_rest, if_neg (by rwa [List.isEmpty_iff])]

/-! ## Parts that are found again -/

/-- The second text starts as the first one does, or with a blank, or it is empty. -/
def GoesOn (rest rest' : List Char) : Prop :=
  ∀ c ∈ rest'.head?, isSpace c = true ∨ c ∈ rest.head?

/-- A kind of part of a line. What is found is a run of characters at the front, and whether it is found depends on no
more of the text behind it than its first character, for which a blank will do. -/
structure IsPart (expected : Expectation) (part? : List Char → Option Found) : Prop where
  splits : ∀ {text front rest}, part? text = some (front, rest) → text = front ++ rest
  isChunk : ∀ {text front rest}, part? text = some (front, rest) → IsChunk front
  goesOn : ∀ {front rest rest'}, part? (front ++ rest) = some (front, rest) → GoesOn rest rest' →
    part? (front ++ rest') = some (front, rest')
  opens : ∀ {text}, (part? text).isSome = true → Opens expected (' ' :: text)
  sample : ∃ word, part? word = some (word, [])

/-- A name that may end in front of a text may end in front of what goes on like it. -/
theorem GoesOn.atBoundary {rest rest' : List Char} (h : GoesOn rest rest') (hb : atBoundary rest = true) :
    atBoundary rest' = true := by
  cases rest' with
  | nil => rfl
  | cons c rest' =>
    rcases h c rfl with hspace | hc
    · simp [Scan.atBoundary, hspace]
    · cases rest with
      | nil => cases hc
      | cons d rest =>
        obtain rfl : d = c := by simpa using hc
        exact hb

/-- Names are parts of lines. -/
theorem isPart_ident : IsPart .ident ident? where
  splits := by
    intro text front rest h
    rw [← String.toList_ofList (l := front)] at h
    simpa using (ident?_eq_some_iff.mp h).1
  isChunk := by
    intro text front rest h
    rw [← String.toList_ofList (l := front)] at h
    simpa using (ident?_eq_some_iff.mp h).2.1.isChunk
  goesOn := by
    intro front rest rest' h hgoes
    rw [← String.toList_ofList (l := front)] at h ⊢
    obtain ⟨-, hname, hb⟩ := ident?_eq_some_iff.mp h
    exact ident?_eq_some_iff.mpr ⟨rfl, hname, hgoes.atBoundary hb⟩
  opens := .ident
  sample := ⟨['A'], rfl⟩

/-- Numerals are parts of lines. -/
theorem isPart_number : IsPart .number number? where
  splits h := (number?_eq_some_iff.mp h).1
  isChunk h := (number?_eq_some_iff.mp h).2.1.isChunk
  goesOn := by
    intro front rest rest' h hgoes
    obtain ⟨-, hnumeral, hb⟩ := number?_eq_some_iff.mp h
    exact number?_eq_some_iff.mpr ⟨rfl, hnumeral, hgoes.atBoundary hb⟩
  opens := .number
  sample := ⟨['1'], rfl⟩

/-- Words are parts of lines. -/
theorem isPart_token : IsPart .token token? where
  splits h := (token?_eq_some_iff.mp h).1
  isChunk := by
    intro text front rest h
    obtain ⟨-, hne, hchars, -⟩ := token?_eq_some_iff.mp h
    exact isChunk_iff.mpr ⟨hne, hchars⟩
  goesOn := by
    intro front rest rest' h hgoes
    obtain ⟨-, hne, hchars, hblank⟩ := token?_eq_some_iff.mp h
    exact token?_eq_some_iff.mpr ⟨rfl, hne, hchars, fun c hc => (hgoes c hc).elim id (hblank c)⟩
  opens := .token
  sample := ⟨['T'], rfl⟩

section Steps

variable {expected : Expectation} {part? : List Char → Option Found}

/-- The spaces in front of a text are a run. -/
theorem isRun_takeWhile (text : List Char) : IsRun (text.takeWhile isSpace) := by
  rw [isRun_iff, List.dropWhile_eq_nil_iff]
  exact fun c hc => List.mem_takeWhile_imp hc

/-- A part is found behind blanks with any text behind it that goes on as the one it was found with. -/
theorem IsPart.found (hp : IsPart expected part?) {lead front rest rest' : List Char} (hlead : IsRun lead)
    (h : part? (front ++ rest) = some (front, rest)) (hgoes : GoesOn rest rest') :
    part? ((lead ++ front ++ rest').dropWhile isSpace) = some (front, rest') := by
  rw [(dropWhile_eq_append_iff (hp.isChunk h)).mpr ⟨lead, hlead, rfl⟩]
  exact hp.goesOn h hgoes

/-- A part that is found behind the blanks of a text splits the text. -/
theorem IsPart.split (hp : IsPart expected part?) {text front rest : List Char}
    (h : part? (text.dropWhile isSpace) = some (front, rest)) :
    text = text.takeWhile isSpace ++ front ++ rest ∧ part? (front ++ rest) = some (front, rest) := by
  have hsplit := hp.splits h
  rw [hsplit] at h
  exact ⟨by rw [List.append_assoc, ← hsplit, List.takeWhile_append_dropWhile], h⟩

/-- What the rest of a line reports is possible behind the text in front of it. -/
theorem Warranted.behind {scan : Scan α} {next : Scan β} {c : Cursor} {front rest : List Char} {m : Mismatch}
    (h : Warranted next ⟨rest, c.offset + front.length, []⟩ m) (hsplit : c.rest = front ++ rest)
    (hstep : ∀ rest', GoesOn rest rest' → Covers next rest' → Covers scan (front ++ rest')) : Warranted scan c m := by
  obtain ⟨front', rest', hrest, hoffset, hne, hpossible⟩ := h
  simp only at hrest hoffset hpossible
  refine ⟨front ++ front', rest', by rw [hsplit, hrest, List.append_assoc], ?_, hne, fun e he => .inr ?_⟩
  · rw [hoffset, List.length_append, Nat.add_assoc]
  rcases hpossible e he with ⟨-, hmissed⟩ | ⟨tail, hopens, hcovers⟩
  · cases hmissed
  · refine ⟨tail, hopens, ?_⟩
    rw [List.append_assoc]
    refine hstep _ ?_ hcovers
    -- the completed line goes on with what stood there, or with the blank in front of what completes it
    intro d hd
    cases front' with
    | nil => exact .inl (hopens.startsBlank d hd)
    | cons d' front' =>
      rw [hrest]
      exact .inr hd

/-- What is missing behind the blanks at a place is reported there. -/
theorem warranted_missing {scan : Scan α} {c : Cursor} {looked : List Expectation} (hne : looked ≠ [])
    (h : ∀ e ∈ looked, Possible scan (c.rest.takeWhile isSpace) e) :
    Warranted scan c ⟨c.skip.offset, c.skip.missed ++ looked⟩ := by
  refine ⟨c.rest.takeWhile isSpace, c.rest.dropWhile isSpace, List.takeWhile_append_dropWhile.symm, skip_offset c,
    by simp [hne], ?_⟩
  intro e he
  rcases List.mem_append.mp he with hmissed | hlooked
  · exact .inl (mem_skip_missed hmissed)
  · exact .inr (h e hlooked)

/-- The scan looks for a part first, and goes on with what was found if it is there. -/
def Leads (part? : List Char → Option Found) (scan : Scan β) (next : String → Scan β) : Prop :=
  ∀ c front rest, part? (c.rest.dropWhile isSpace) = some (front, rest) →
    scan c = next (String.ofList front) ⟨rest, c.skip.offset + front.length, []⟩

/-- A scan that requires a part first goes on with it. -/
theorem leads_require (next : String → Scan β) : Leads part? (require expected part? >>= next) next :=
  fun _ _ _ h => bind_of_ok (require_of_some h)

/-- A scan for a part that may be there goes on with it if it is. -/
theorem leads_optional (next : Option String → Scan β) : Leads part? (optional expected part? >>= next) fun s => next (some s) :=
  fun _ _ _ h => bind_of_ok (optional_of_some h)

variable {scan : Scan β} {next : String → Scan β}

/-- A scan reads a whole text if it finds its first part and the rest is read behind it. -/
theorem Leads.covers (h : Leads part? scan next) {text front rest : List Char}
    (hpart : part? (text.dropWhile isSpace) = some (front, rest)) (hcovers : Covers (next (String.ofList front)) rest) :
    Covers scan text := by
  obtain ⟨b, hscans⟩ := hcovers
  refine ⟨b, fun offset missed => ?_⟩
  rw [h ⟨text, offset, missed⟩ front rest hpart]
  exact hscans _ _

/-- Behind blanks a part is possible if the rest of the line can be completed. -/
theorem Leads.possible (h : Leads part? scan next) (hp : IsPart expected part?) (hnext : ∀ s, Completable (next s))
    {lead : List Char} (hlead : IsRun lead) : Possible scan lead expected := by
  obtain ⟨word, hword⟩ := hp.sample
  obtain ⟨tail, hblank, hcovers⟩ := hnext (String.ofList word)
  have hgoes : GoesOn [] tail := fun c hc => .inl (hblank c hc)
  have hword' : part? (word ++ []) = some (word, []) := by rwa [List.append_nil]
  have hlead' : IsRun (lead ++ [' ']) := List.forall_mem_append.mpr ⟨hlead, by simp⟩
  refine ⟨' ' :: (word ++ tail), hp.opens ?_, ?_⟩
  · rw [hp.goesOn hword' hgoes]
    rfl
  · have hfound := h.covers (hp.found hlead' hword' hgoes) hcovers
    rwa [List.append_assoc, List.append_assoc] at hfound

/-- A scan that looks for a part first is truthful if it goes on so behind the part, and if its mismatches without the part are
warranted. -/
theorem Leads.truthful (h : Leads part? scan next) (hp : IsPart expected part?) (hnext : ∀ s, Truthful (next s))
    (hmiss : ∀ c m, part? (c.rest.dropWhile isSpace) = none → scan c = .error m → Warranted scan c m) : Truthful scan where
  completable := by
    obtain ⟨tail, hopens, hcovers⟩ := h.possible hp (fun s => (hnext s).completable) (isRun_takeWhile [])
    exact ⟨tail, hopens.startsBlank, hcovers⟩
  warranted := by
    intro c m hrun
    cases hpart : part? (c.rest.dropWhile isSpace) with
    | none => exact hmiss c m hpart hrun
    | some found =>
      obtain ⟨front, rest⟩ := found
      obtain ⟨hsplit, hpart'⟩ := hp.split hpart
      rw [h c front rest hpart, skip_offset, Nat.add_assoc, ← List.length_append] at hrun
      refine ((hnext _).warranted _ _ hrun).behind hsplit ?_
      intro rest' hgoes hcovers
      exact h.covers (hp.found (isRun_takeWhile _) hpart' hgoes) hcovers

/-- A part that has to be there, and a truthful rest. -/
theorem Truthful.require (hp : IsPart expected part?) (hnext : ∀ s, Truthful (next s)) :
    Truthful (require expected part? >>= next) := by
  have hleads : Leads part? (Scan.require expected part? >>= next) next := leads_require next
  refine hleads.truthful hp hnext ?_
  intro c m hpart hrun
  rw [bind_of_error (require_of_none hpart)] at hrun
  obtain rfl := Except.error.inj hrun
  refine warranted_missing (by simp) ?_
  intro e he
  obtain rfl := List.mem_singleton.mp he
  exact hleads.possible hp (fun s => (hnext s).completable) (isRun_takeWhile c.rest)

end Steps

/-! ## The ends of lines -/

section Ends

variable {a : α} {c : Cursor}

/-- The end of a line is read behind spaces. -/
theorem run_ending_of_isRun (h : IsRun c.rest) : (ending >>= fun _ => pure a : Scan α) c = .ok (a, c.skip) :=
  bind_of_ok (a := ()) (ending_eq_ok_iff.mpr ⟨isRun_iff.mp h, rfl⟩)

/-- The end of a line is not read where more than spaces are left. -/
theorem run_ending_of_not_isRun (h : ¬IsRun c.rest) :
    (ending >>= fun _ => pure a : Scan α) c = .error ⟨c.skip.offset, c.skip.missed ++ [.ending]⟩ :=
  bind_of_error (ending_of_ne_nil fun hrest => h (isRun_iff.mpr hrest))

/-- Spaces are read as the end of a line. -/
theorem covers_ending {text : List Char} (h : IsRun text) : Covers (ending >>= fun _ => pure a : Scan α) text :=
  ⟨a, (scans_ending_iff (u := ()).mpr ⟨isRun_iff.mp h, rfl⟩).bind (scans_pure a [])⟩

/-- Where the end of a line is missed, it was possible. -/
theorem truthful_ending : Truthful (ending >>= fun _ => pure a : Scan α) where
  completable := ⟨[], by simp [StartsBlank], covers_ending (isRun_takeWhile [])⟩
  warranted := by
    intro c m hrun
    by_cases hrest : IsRun c.rest
    · rw [run_ending_of_isRun hrest] at hrun
      cases hrun
    · rw [run_ending_of_not_isRun hrest] at hrun
      obtain rfl := Except.error.inj hrun
      refine warranted_missing (by simp) ?_
      intro e he
      obtain rfl := List.mem_singleton.mp he
      exact (covers_ending (isRun_takeWhile c.rest)).possible_ending

end Ends

/-- What is left of a run is a run. -/
theorem isRun_dropWhile {text : List Char} (h : IsRun text) : IsRun (text.dropWhile isSpace) := by
  rw [isRun_iff.mp h]
  exact isRun_takeWhile []

/-- Without a run of characters nothing but blanks is left, and the line ends. -/
theorem run_word_of_none {f : Option String → α} {c : Cursor} (h : token? (c.rest.dropWhile isSpace) = none) :
    ∃ c', (optional .token token? >>= fun word => ending >>= fun _ => pure (f word) : Scan α) c = .ok (f none, c') := by
  rw [bind_of_ok (optional_of_none h)]
  exact ⟨_, run_ending_of_isRun (isRun_dropWhile (token?_eq_none_iff.mp h))⟩

/-- At most one word, and the end of the line. -/
theorem truthful_word (f : Option String → α) :
    Truthful (optional .token token? >>= fun word => ending >>= fun _ => pure (f word) : Scan α) := by
  refine (leads_optional _).truthful isPart_token (fun s => truthful_ending) ?_
  intro c m hpart hrun
  obtain ⟨c', hok⟩ := run_word_of_none (f := f) hpart
  rw [hok] at hrun
  cases hrun

/-- A line whose optional part is not there is what goes on without it. -/
theorem covers_of_none {expected : Expectation} {part? : List Char → Option Found} {next : Option String → Scan α}
    {text : List Char} (h : part? (text.dropWhile isSpace) = none)
    (hcovers : Covers (next none) (text.dropWhile isSpace)) :
    Covers (optional expected part? >>= next) text := by
  obtain ⟨a, hscans⟩ := hcovers
  exact ⟨a, (scans_optional_none h).bind hscans⟩

/-- A place behind blanks has no blanks in front of it. -/
theorem skip_of_dropWhile (text : List Char) (offset : Nat) (missed : List Expectation) :
    Cursor.skip ⟨text.dropWhile isSpace, offset, missed⟩ = ⟨text.dropWhile isSpace, offset, missed⟩ := by
  have hempty : (text.dropWhile isSpace).takeWhile isSpace = [] := by
    cases hdrop : text.dropWhile isSpace with
    | nil => rfl
    | cons d rest =>
      have hd : isSpace d = false := head?_dropWhile_eq_false d (by rw [hdrop]; rfl)
      rw [List.takeWhile_cons_of_neg (by rw [hd]; decide)]
  simp [Cursor.skip, hempty]

/-- A count perhaps, and the end of the line. -/
theorem truthful_count (f : Option String → α) :
    Truthful (optional .number number? >>= fun count => ending >>= fun _ => pure (f count) : Scan α) := by
  have hleads : Leads number? (optional .number number? >>= fun count => ending >>= fun _ => pure (f count)) _ := leads_optional _
  refine hleads.truthful isPart_number (fun s => truthful_ending) ?_
  intro c m hpart hrun
  rw [bind_of_ok (optional_of_none hpart)] at hrun
  by_cases hrest : IsRun (c.rest.dropWhile isSpace)
  · rw [run_ending_of_isRun hrest] at hrun
    cases hrun
  · rw [run_ending_of_not_isRun hrest, skip_of_dropWhile, List.append_assoc] at hrun
    obtain rfl := Except.error.inj hrun
    refine warranted_missing (by simp) ?_
    intro e he
    have hlead := isRun_takeWhile c.rest
    rcases List.mem_pair.mp he with rfl | rfl
    · exact hleads.possible isPart_number (fun s => truthful_ending.completable) hlead
    · have hnone : number? ((c.rest.takeWhile isSpace).dropWhile isSpace) = none := by
        rw [isRun_iff.mp hlead]
        rfl
      exact (covers_of_none hnone (covers_ending (isRun_dropWhile hlead))).possible_ending

/-- A word that was passed over in the search for a count is passed over whatever stands behind it. -/
theorem number?_of_goesOn {chunk rest rest' : List Char} (hword : token? (chunk ++ rest) = some (chunk, rest))
    (h : number? (chunk ++ rest) = none) (hgoes : GoesOn rest rest') : number? (chunk ++ rest') = none := by
  have hchunk := isPart_token.isChunk hword
  have hblank := (token?_eq_some_iff.mp hword).2.2.2
  have hblank' : ∀ d ∈ rest'.head?, isSpace d = true := fun d hd => (hgoes d hd).elim id (hblank d)
  rw [number?_eq_none_iff hchunk hblank] at h
  exact (number?_eq_none_iff hchunk hblank').mpr h

/-- A count perhaps, at most one word, and the end of the line. -/
theorem truthful_count_word (f : Option String → Option String → α) :
    Truthful (optional .number number? >>= fun count => optional .token token? >>= fun word =>
      ending >>= fun _ => pure (f count word) :
      Scan α) := by
  refine (leads_optional _).truthful isPart_number (fun s => truthful_word (f (some s))) ?_
  intro c m hpart hrun
  have hdrop (text : List Char) : (text.dropWhile isSpace).dropWhile isSpace = text.dropWhile isSpace :=
    List.dropWhile_idempotent _ _
  rw [bind_of_ok (optional_of_none hpart)] at hrun
  cases hword : token? (c.rest.dropWhile isSpace) with
  | none =>
    obtain ⟨c', hok⟩ := run_word_of_none (f := f none)
      (c := ⟨c.rest.dropWhile isSpace, c.skip.offset, c.skip.missed ++ [.number]⟩) (by rwa [hdrop])
    rw [hok] at hrun
    cases hrun
  | some found =>
    -- no count, but a word: it is passed over in front of whatever completes the line as well, and found again
    obtain ⟨chunk, rest⟩ := found
    obtain ⟨hsplit, hword'⟩ := isPart_token.split hword
    rw [isPart_token.splits hword] at hpart
    rw [leads_optional _ _ chunk rest (by rwa [hdrop]), skip_of_dropWhile, skip_offset, Nat.add_assoc,
      ← List.length_append] at hrun
    refine (truthful_ending.warranted _ _ hrun).behind hsplit ?_
    intro rest' hgoes hcovers
    have hlead := isRun_takeWhile c.rest
    refine covers_of_none ?_ ((leads_optional _).covers ?_ hcovers)
    · rw [(dropWhile_eq_append_iff (isPart_token.isChunk hword)).mpr ⟨_, hlead, rfl⟩]
      exact number?_of_goesOn hword' hpart hgoes
    · rw [hdrop]
      exact isPart_token.found hlead hword' hgoes

/-! ## The three kinds of lines -/

/-- Mismatches in message headers are truthful. -/
theorem truthful_messageHeader : Truthful messageHeader :=
  .require isPart_ident fun _ => .require isPart_ident fun _ => .require isPart_number fun _ => .require isPart_token fun _ =>
    .require isPart_token fun _ => truthful_word _

/-- Mismatches in block headers are truthful. -/
theorem truthful_blockHeader : Truthful blockHeader :=
  .require isPart_ident fun _ => .require isPart_ident fun _ => truthful_count _

/-- A field line behind its brace. -/
theorem warranted_fieldLine {rest : List Char} {m : Mismatch} (h : fieldLine ⟨'{' :: rest, 0, []⟩ = .error m) :
    Warranted fieldLine ⟨'{' :: rest, 0, []⟩ m := by
  unfold fieldLine at h ⊢
  have hbrace : openingBrace ⟨'{' :: rest, 0, []⟩ = .ok ((), ⟨rest, 1, []⟩) := rfl
  rw [bind_of_ok hbrace] at h
  have htruthful := Truthful.require isPart_ident fun name => Truthful.require isPart_ident fun type =>
    truthful_count_word (FieldParts.mk name type)
  have hsplit : '{' :: rest = ['{'] ++ rest := rfl
  refine (htruthful.warranted _ _ h).behind hsplit ?_
  intro rest' _ hcovers
  obtain ⟨parts, hscans⟩ := hcovers
  exact ⟨parts, (scans_openingBrace_iff (u := ()).mpr rfl).bind hscans⟩

end MessageCatalog.Scan

namespace MessageCatalog

variable {α : Type}

/-! ## Reports -/

/-- A report of a mismatch in a text, as far as the mismatch decides it: the column and what was looked for. The column
is one of the text or the one behind it, something was looked for, and all of that is possible in front of the
column. -/
structure Mismatch.IsTruthful (m : Mismatch) (scan : Scan α) (text : String) : Prop where
  one_le_column : 1 ≤ m.column text
  column_le : m.column text ≤ text.toList.length + 1
  expected_ne_nil : Expectation.sorted m.expected ≠ []
  possible : '\n' ∉ text.toList → ∀ e ∈ Expectation.sorted m.expected,
    ∃ tail, Scan.Opens e tail ∧ ∃ parts, scan.read (String.ofList (text.toList.take (m.column text - 1) ++ tail)) = .ok parts

/-- Sorting keeps what was looked for. -/
theorem Expectation.mem_sorted {e : Expectation} {expected : List Expectation} : e ∈ sorted expected ↔ e ∈ expected := by
  cases e <;> simp [sorted, all]

/-- The column of a mismatch is in the text or right behind it. -/
theorem Mismatch.column_le_length (m : Mismatch) (text : String) : m.column text ≤ text.toList.length + 1 := by
  have htake := (List.takeWhile_sublist (fun c => c != '\n') (l := (text.toList.take m.offset).reverse)).length_le
  rw [List.length_reverse, List.length_take] at htake
  unfold Mismatch.column
  omega

/-- In a line without a line feed, columns count the characters in front of a place. -/
theorem Mismatch.column_eq {m : Mismatch} {text : String} (hline : '\n' ∉ text.toList) (hle : m.offset ≤ text.toList.length) :
    m.column text = m.offset + 1 := by
  have hall : ∀ c ∈ (text.toList.take m.offset).reverse, (c != '\n') = true := by
    intro c hc
    have hmem := List.mem_of_mem_take (List.mem_reverse.mp hc)
    exact bne_iff_ne.mpr fun h => hline (h ▸ hmem)
  rw [Mismatch.column, List.takeWhile_eq_self_iff.mpr hall, List.length_reverse, List.length_take, Nat.min_eq_left hle]

/-- A text that a scan reads whole is read. -/
theorem Scan.Covers.read {scan : Scan α} {text : List Char} (h : Covers scan text) :
    ∃ parts, scan.read (String.ofList text) = .ok parts := by
  obtain ⟨parts, hscans⟩ := h
  refine ⟨parts, read_eq_ok_iff.mpr ?_⟩
  rw [String.toList_ofList]
  exact hscans.run

/-- A mismatch that is warranted is reported truthfully. -/
theorem Scan.Warranted.isTruthful {scan : Scan α} {text : String} {m : Mismatch} (h : Warranted scan ⟨text.toList, 0, []⟩ m) :
    m.IsTruthful scan text := by
  obtain ⟨front, rest, hsplit, hoffset, hne, hpossible⟩ := h
  simp only [Nat.zero_add] at hsplit hoffset
  refine ⟨Nat.succ_pos _, m.column_le_length text, ?_, fun hline e he => ?_⟩
  · intro hnil
    obtain ⟨e, he⟩ := List.exists_mem_of_ne_nil _ hne
    have hmem := Expectation.mem_sorted.mpr he
    rw [hnil] at hmem
    cases hmem
  · have hle : m.offset ≤ text.toList.length := by
      rw [hsplit, hoffset, List.length_append]
      omega
    rw [Mismatch.column_eq hline hle, Nat.add_sub_cancel, hsplit, hoffset, List.take_left]
    rcases hpossible e (Expectation.mem_sorted.mp he) with ⟨-, hmissed⟩ | ⟨tail, hopens, hcovers⟩
    · cases hmissed
    · exact ⟨tail, hopens, hcovers.read⟩

/-- The error of a line that cannot be scanned is a report of the mismatch. -/
theorem SourceLine.scan_eq_error {l : SourceLine} {kind : LineKind} {scan : Scan α} {e : Error}
    (h : l.scan kind scan = .error e) :
    ∃ m, e = .located l.number (.malformed kind l.text m) ∧ scan ⟨l.text.toList, 0, []⟩ = .error m := by
  have hread : scan.read l.text = (scan ⟨l.text.toList, 0, []⟩).map (·.1) := rfl
  unfold SourceLine.scan at h
  rw [hread] at h
  cases hrun : scan ⟨l.text.toList, 0, []⟩ with
  | ok found =>
    rw [hrun] at h
    cases h
  | error m =>
    rw [hrun] at h
    exact ⟨m, (Except.error.inj h).symm, rfl⟩

/-- Syntax errors point at a truthful place. A line that cannot be read as a message header, as a block header or, when
it starts with a brace, as a field line is reported as such, with a column of the line and with expectations that are
all possible there: if the end of the line is listed, the text in front of the column is a line of the kind already, and
if a part is, the text can be completed to a line of the kind by a space and something that begins with a part of that
sort. -/
theorem malformed_reports_truthful (l : SourceLine) (e : Error) :
    (l.scan .messageHeader Scan.messageHeader = .error e →
      ∃ m, e = .located l.number (.malformed .messageHeader l.text m) ∧ m.IsTruthful Scan.messageHeader l.text) ∧
    (l.scan .blockHeader Scan.blockHeader = .error e →
      ∃ m, e = .located l.number (.malformed .blockHeader l.text m) ∧ m.IsTruthful Scan.blockHeader l.text) ∧
    (l.startsWithBrace = true → l.scan .fieldLine Scan.fieldLine = .error e →
      ∃ m, e = .located l.number (.malformed .fieldLine l.text m) ∧ m.IsTruthful Scan.fieldLine l.text) := by
  refine ⟨fun h => ?_, fun h => ?_, fun hbrace h => ?_⟩
  · obtain ⟨m, he, hrun⟩ := SourceLine.scan_eq_error h
    exact ⟨m, he, (Scan.truthful_messageHeader.warranted _ _ hrun).isTruthful⟩
  · obtain ⟨m, he, hrun⟩ := SourceLine.scan_eq_error h
    exact ⟨m, he, (Scan.truthful_blockHeader.warranted _ _ hrun).isTruthful⟩
  · obtain ⟨m, he, hrun⟩ := SourceLine.scan_eq_error h
    have hwarranted : Scan.Warranted Scan.fieldLine ⟨l.text.toList, 0, []⟩ m := by
      obtain ⟨rest, htext⟩ := List.head?_eq_some_iff.mp (beq_iff_eq.mp hbrace)
      rw [htext] at hrun ⊢
      exact Scan.warranted_fieldLine hrun
    exact ⟨m, he, hwarranted.isTruthful⟩

/-- A header without its trust, a block with a word for its count, and a field with a word too many. -/
theorem malformed_reports_truthful_sample :
    Mismatch.IsTruthful ⟨11, [.token]⟩ Scan.messageHeader "Ping High 1" ∧
      Mismatch.IsTruthful ⟨9, [.number, .ending]⟩ Scan.blockHeader "A Single x" ∧
      Mismatch.IsTruthful ⟨10, [.ending]⟩ Scan.fieldLine "\x7b A U8 1x \x7d y" := by
  have hmessage := (malformed_reports_truthful ⟨1, "Ping High 1"⟩
    (.located 1 (.malformed .messageHeader "Ping High 1" ⟨11, [.token]⟩))).1 (by decide +kernel)
  have hblock := (malformed_reports_truthful ⟨2, "A Single x"⟩
    (.located 2 (.malformed .blockHeader "A Single x" ⟨9, [.number, .ending]⟩))).2.1 (by decide +kernel)
  have hfield := (malformed_reports_truthful ⟨3, "\x7b A U8 1x \x7d y"⟩
    (.located 3 (.malformed .fieldLine "\x7b A U8 1x \x7d y" ⟨10, [.ending]⟩))).2.2 (by decide +kernel) (by decide +kernel)
  refine ⟨?_, ?_, ?_⟩
  · obtain ⟨m, he, h⟩ := hmessage
    cases he
    exact h
  · obtain ⟨m, he, h⟩ := hblock
    cases he
    exact h
  · obtain ⟨m, he, h⟩ := hfield
    cases he
    exact h

end MessageCatalog
