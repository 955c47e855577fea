import Mathlib.Data.List.Infix
import MessageCatalog.Proofs.Source.Completeness

/-!
# Where lines are cut into regions

Lines can be cut into regions exactly if their lone braces are in pairs and every other line stands between some. The
regions then lose nothing: with an opening and a closing brace around each of them they are the lines again. Lines that
cannot be cut are blamed on the first line outside of all regions that opens none, and if there is no such line, on the
region that stays open.

All of this is said in terms of the depth, the number of opening braces less that of closing ones.
-/

namespace MessageCatalog

/-! ## Depth -/

/-- How many braces are open behind some lines: the lone opening braces less the lone closing ones. -/
def braceDepth (lines : List SourceLine) : Int :=
  (lines.countP (·.isOpening) : Int) - (lines.countP (·.isClosing) : Int)

@[simp]
theorem braceDepth_nil : braceDepth [] = 0 := rfl

/-- The depth behind lines is the sum of what its stretches change. -/
@[simp]
theorem braceDepth_append (lines lines' : List SourceLine) :
    braceDepth (lines ++ lines') = braceDepth lines + braceDepth lines' := by
  simp only [braceDepth, List.countP_append, Int.natCast_add]
  omega

/-- The depth behind lines is what the first line and the others change. -/
theorem braceDepth_cons (l : SourceLine) (lines : List SourceLine) :
    braceDepth (l :: lines) = braceDepth [l] + braceDepth lines :=
  braceDepth_append [l] lines

/-- An opening brace closes nothing. -/
theorem isClosing_eq_false_of_opening {l : SourceLine} (h : l.isOpening = true) : l.isClosing = false := by
  rw [← Bool.not_eq_true, isClosing_iff, isOpening_iff.mp h]
  decide

/-- A closing brace opens nothing. -/
theorem isOpening_eq_false_of_isClosing {l : SourceLine} (h : l.isClosing = true) : l.isOpening = false := by
  rw [← Bool.not_eq_true]
  exact isOpening_eq_false_of_closing (isClosing_iff.mp h)

/-- An opening brace goes one level down. -/
theorem braceDepth_opening {l : SourceLine} (h : l.isOpening = true) : braceDepth [l] = 1 := by
  simp [braceDepth, h, isClosing_eq_false_of_opening h]

/-- A closing brace goes one level up. -/
theorem braceDepth_closing {l : SourceLine} (h : l.isClosing = true) : braceDepth [l] = -1 := by
  simp [braceDepth, h, isOpening_eq_false_of_isClosing h]

/-- What one line does to the depth. -/
theorem braceDepth_singleton_cases (l : SourceLine) :
    (l.isOpening = true ∧ braceDepth [l] = 1) ∨ (l.isClosing = true ∧ braceDepth [l] = -1) ∨
      (l.isBrace = false ∧ braceDepth [l] = 0) := by
  cases ho : l.isOpening with
  | true => exact .inl ⟨rfl, braceDepth_opening ho⟩
  | false =>
    cases hc : l.isClosing with
    | true => exact .inr (.inl ⟨rfl, braceDepth_closing hc⟩)
    | false => exact .inr (.inr ⟨by rw [SourceLine.isBrace, ho, hc]; rfl, by simp [braceDepth, ho, hc]⟩)

/-- The number of closing braces that bring the depth back to zero. -/
def returnsToZero (lines : List SourceLine) : Nat :=
  lines.inits.countP fun front => front.getLast?.any (·.isClosing) && decide (braceDepth front = 0)

/-- The depth returns to zero once more with a closing brace that ends there. -/
theorem returnsToZero_concat (lines : List SourceLine) (l : SourceLine) :
    returnsToZero (lines ++ [l]) =
      returnsToZero lines + if l.isClosing = true ∧ braceDepth (lines ++ [l]) = 0 then 1 else 0 := by
  simp [returnsToZero, List.inits_append]

/-! ## Lines in pairs, and lines outside of regions -/

/-- No prefix of the lines closes more than it opens. -/
def NeverBelow (lines : List SourceLine) : Prop :=
  ∀ front, front <+: lines → 0 ≤ braceDepth front

/-- The lone braces among the lines are in pairs. -/
structure InPairs (lines : List SourceLine) : Prop where
  neverBelow : NeverBelow lines
  even : braceDepth lines = 0

/-- Lines that are regions: their braces are in pairs, and what is no brace stands where one is open. -/
structure Segmentable (lines : List SourceLine) : Prop extends InPairs lines where
  inside : ∀ front l, front ++ [l] <+: lines → l.isBrace = false → 1 ≤ braceDepth front

/-- No line is outside of a region: whatever does not open a brace stands where one is open. -/
def NoStray (lines : List SourceLine) : Prop :=
  ∀ front l, front ++ [l] <+: lines → l.isOpening = false → 1 ≤ braceDepth front

theorem neverBelow_nil : NeverBelow [] := by
  intro front h
  rw [List.prefix_nil.mp h, braceDepth_nil]

/-- With one line more the depth stays at zero or above if it is so behind that line. -/
theorem neverBelow_concat_iff {lines : List SourceLine} {l : SourceLine} :
    NeverBelow (lines ++ [l]) ↔ NeverBelow lines ∧ 0 ≤ braceDepth (lines ++ [l]) := by
  constructor
  · intro h
    exact ⟨fun front hf => h front (hf.trans (List.prefix_append _ _)), h _ (List.prefix_refl _)⟩
  · rintro ⟨h, hall⟩ front hf
    rcases List.prefix_concat_iff.mp hf with rfl | hf
    · exact hall
    · exact h front hf

theorem noStray_nil : NoStray [] := by
  intro front l h
  exact absurd (List.prefix_nil.mp h) (by simp)

/-- With one line more none is outside of a region if that line opens one or is in one. -/
theorem noStray_concat_iff {lines : List SourceLine} {l : SourceLine} :
    NoStray (lines ++ [l]) ↔ NoStray lines ∧ (l.isOpening = false → 1 ≤ braceDepth lines) := by
  constructor
  · intro h
    exact ⟨fun front l' hf => h front l' (hf.trans (List.prefix_append _ _)), h lines l (List.prefix_refl _)⟩
  · rintro ⟨h, hl⟩ front l' hf
    rcases List.prefix_concat_iff.mp hf with he | hf
    · obtain ⟨rfl, hlast⟩ := List.append_inj' he rfl
      obtain rfl : l' = l := by simpa using hlast
      exact hl
    · exact h front l' hf

/-- Where no line is outside of a region, no brace closes what is not open. -/
theorem NoStray.neverBelow {lines : List SourceLine} (h : NoStray lines) : NeverBelow lines := by
  induction lines using List.reverseRecOn with
  | nil => exact neverBelow_nil
  | append_singleton lines l ih =>
    obtain ⟨hlines, hl⟩ := noStray_concat_iff.mp h
    have hbelow := ih hlines
    have hdepth := hbelow lines (List.prefix_refl _)
    refine neverBelow_concat_iff.mpr ⟨hbelow, ?_⟩
    rw [braceDepth_append]
    rcases braceDepth_singleton_cases l with ⟨-, hone⟩ | ⟨hc, hone⟩ | ⟨-, hone⟩
    · omega
    · have hopen := hl (isOpening_eq_false_of_isClosing hc)
      omega
    · omega

/-- Lines are regions exactly if none is outside of one and no brace stays open. -/
theorem segmentable_iff {lines : List SourceLine} : Segmentable lines ↔ NoStray lines ∧ braceDepth lines = 0 := by
  constructor
  · intro h
    refine ⟨?_, h.even⟩
    intro front l hf ho
    rcases braceDepth_singleton_cases l with ⟨ho', -⟩ | ⟨-, hone⟩ | ⟨hbrace, -⟩
    · rw [ho] at ho'
      cases ho'
    · -- behind a closing brace the depth is not below zero, so in front of it some brace is open
      have hbelow := h.neverBelow _ hf
      rw [braceDepth_append] at hbelow
      omega
    · exact h.inside front l hf hbrace
  · rintro ⟨hstray, heven⟩
    refine ⟨⟨hstray.neverBelow, heven⟩, ?_⟩
    intro front l hf hbrace
    exact hstray front l hf (Bool.or_eq_false_iff.mp hbrace).1

/-! ## Regions and the lines they stand for -/

/-- The lines that a region stands for: an opening brace on the line that the region names, the lines of the region,
their own braces in pairs, and a closing brace. -/
def Region.Spans (region : Region) (lines : List SourceLine) : Prop :=
  ∃ opening closing, opening.isOpening = true ∧ closing.isClosing = true ∧ region.openLine = opening.number ∧
    InPairs region.lines ∧ lines = opening :: region.lines ++ [closing]

/-- The regions stand for the lines, one behind the other. -/
def SpanLines (regions : List Region) (lines : List SourceLine) : Prop :=
  ∃ parts, List.Forall₂ Region.Spans regions parts ∧ lines = parts.flatten

theorem spanLines_nil : SpanLines [] [] :=
  ⟨[], .nil, rfl⟩

/-- Regions and one more stand for their lines and those of that one. -/
theorem SpanLines.concat {regions : List Region} {region : Region} {lines part : List SourceLine} (h : SpanLines regions lines)
    (hregion : region.Spans part) : SpanLines (regions ++ [region]) (lines ++ part) := by
  obtain ⟨parts, hparts, rfl⟩ := h
  exact ⟨parts ++ [part], List.rel_append hparts (.cons hregion .nil), by simp⟩

/-- The braces of a region are in pairs. -/
theorem Region.Spans.braceDepth_eq_zero {region : Region} {lines : List SourceLine} (h : region.Spans lines) :
    braceDepth lines = 0 := by
  obtain ⟨opening, closing, ho, hc, -, hpairs, rfl⟩ := h
  rw [List.cons_append, braceDepth_cons, braceDepth_append, braceDepth_opening ho, braceDepth_closing hc, hpairs.even]
  rfl

/-- Behind whole regions the depth is zero. -/
theorem SpanLines.braceDepth_eq_zero {regions : List Region} {lines : List SourceLine} (h : SpanLines regions lines) :
    braceDepth lines = 0 := by
  obtain ⟨parts, hparts, rfl⟩ := h
  induction hparts with
  | nil => rfl
  | cons hregion _ ih => rw [List.flatten_cons, braceDepth_append, hregion.braceDepth_eq_zero, ih, Int.add_zero]

/-! ## What is cut off -/

/-- In an open region lines are collected as long as they do not close it. -/
theorem segmentFrom_collects {own : List SourceLine} {depth : Nat} (h : ∀ part, part <+: own → 0 ≤ depth + braceDepth part) :
    ∃ depth' : Nat, (depth' : Int) = depth + braceDepth own ∧ ∀ openLine collected rest,
      segmentFrom (.within openLine collected depth) (own ++ rest) =
        segmentFrom (.within openLine (own.reverse ++ collected) depth') rest := by
  induction own generalizing depth with
  | nil => exact ⟨depth, by simp, fun _ _ _ => rfl⟩
  | cons l own ih =>
    have hlater : ∀ part, part <+: own → 0 ≤ depth + (braceDepth [l] + braceDepth part) := by
      intro part hpart
      have := h (l :: part) (List.cons_prefix_cons.mpr ⟨rfl, hpart⟩)
      rwa [braceDepth_cons] at this
    -- one step of the cut, and the depth behind it
    have hstep : ∃ next : Nat, (next : Int) = depth + braceDepth [l] ∧ ∀ openLine collected rest,
        segmentFrom (.within openLine collected depth) (l :: rest) =
          segmentFrom (.within openLine (l :: collected) next) rest := by
      rcases braceDepth_singleton_cases l with ⟨ho, hone⟩ | ⟨hc, hone⟩ | ⟨hbrace, hone⟩
      · exact ⟨depth + 1, by omega, fun _ _ _ => segmentFrom_opening (isOpening_iff.mp ho)⟩
      · have hfirst := hlater [] (List.nil_prefix)
        rw [braceDepth_nil] at hfirst
        obtain ⟨next, rfl⟩ : ∃ next, depth = next + 1 := Nat.exists_eq_succ_of_ne_zero (by omega)
        exact ⟨next, by omega, fun _ _ _ => segmentFrom_closing (isClosing_iff.mp hc)⟩
      · exact ⟨depth, by omega, fun _ _ _ => segmentFrom_content hbrace⟩
    obtain ⟨next, hnext, hrun⟩ := hstep
    obtain ⟨depth', hdepth, hrest⟩ := @ih next fun part hpart => by
      have := hlater part hpart
      omega
    refine ⟨depth', ?_, ?_⟩
    · rw [braceDepth_cons]
      omega
    · intro openLine collected rest
      rw [List.cons_append, hrun, hrest, List.reverse_cons, List.append_assoc, List.singleton_append]

/-- Lines whose braces are in pairs are balanced. -/
theorem InPairs.balanced {lines : List SourceLine} (h : InPairs lines) : Balanced lines := by
  intro openLine collected depth rest
  obtain ⟨depth', hdepth, hrun⟩ := @segmentFrom_collects lines depth fun part hpart => by
    have := h.neverBelow part hpart
    omega
  obtain rfl : depth' = depth := by
    have := h.even
    omega
  exact hrun openLine collected rest

/-- Regions are cut off from the front of the lines. -/
theorem SpanLines.segmentFrom {regions : List Region} {lines : List SourceLine} (h : SpanLines regions lines)
    (rest : List SourceLine) :
    MessageCatalog.segmentFrom .between (lines ++ rest) = (MessageCatalog.segmentFrom .between rest).map (regions ++ ·) := by
  obtain ⟨parts, hparts, rfl⟩ := h
  induction hparts with
  | nil =>
    rw [List.flatten_nil, List.nil_append]
    cases MessageCatalog.segmentFrom .between rest <;> rfl
  | @cons region part regions parts hregion _ ih =>
    obtain ⟨opening, closing, ho, hc, hnumber, hpairs, rfl⟩ := hregion
    obtain ⟨openLine, own⟩ := region
    obtain rfl : openLine = opening.number := hnumber
    rw [List.flatten_cons, List.append_assoc,
      segmentFrom_region (isOpening_iff.mp ho) (isClosing_iff.mp hc) hpairs.balanced, ih]
    cases MessageCatalog.segmentFrom .between rest <;> rfl

/-! ## How far lines can be cut -/

/-- How far some lines can be cut: all of them are regions, the last region is still open, or a line is outside of them. -/
inductive CutShape (lines : List SourceLine) : Prop where
  | whole {regions : List Region} (hspan : SpanLines regions lines) (hstray : NoStray lines)
    (hcount : regions.length = returnsToZero lines)
  | unclosed {regions : List Region} {closed own : List SourceLine} {opening : SourceLine}
    (hlines : lines = closed ++ opening :: own) (hspan : SpanLines regions closed) (hopening : opening.isOpening = true)
    (hown : NeverBelow own) (hstray : NoStray lines) (hcount : regions.length = returnsToZero lines)
  | stray {regions : List Region} {front back : List SourceLine} {l : SourceLine} (hlines : lines = front ++ l :: back)
    (hspan : SpanLines regions front) (hstray : NoStray front) (hl : l.isOpening = false)

/-- Behind whole regions and an opening brace the depth is one more than what its lines change. -/
theorem braceDepth_unclosed {regions : List Region} {closed : List SourceLine} {opening : SourceLine} (own : List SourceLine)
    (hspan : SpanLines regions closed) (hopening : opening.isOpening = true) :
    braceDepth (closed ++ opening :: own) = 1 + braceDepth own := by
  rw [braceDepth_append, braceDepth_cons, hspan.braceDepth_eq_zero, braceDepth_opening hopening]
  omega

/-- One line more behind regions. -/
theorem SpanLines.step {regions : List Region} {lines : List SourceLine} (hspan : SpanLines regions lines)
    (hstray : NoStray lines) (hcount : regions.length = returnsToZero lines) (l : SourceLine) :
    CutShape (lines ++ [l]) := by
  cases ho : l.isOpening with
  | false => exact @CutShape.stray _ regions lines [] l rfl hspan hstray ho
  | true =>
    refine .unclosed rfl hspan ho neverBelow_nil (noStray_concat_iff.mpr ⟨hstray, by simp [ho]⟩) ?_
    rw [returnsToZero_concat, isClosing_eq_false_of_opening ho, hcount]
    rfl

/-- One line more in an open region: it closes the region only if it is a closing brace and all others in it are in pairs. -/
theorem SpanLines.step_unclosed {regions : List Region} {closed own : List SourceLine} {opening : SourceLine}
    (hspan : SpanLines regions closed) (hopening : opening.isOpening = true) (hown : NeverBelow own)
    (hstray : NoStray (closed ++ opening :: own)) (hcount : regions.length = returnsToZero (closed ++ opening :: own))
    (l : SourceLine) : CutShape (closed ++ opening :: own ++ [l]) := by
  have hdepth := braceDepth_unclosed own hspan hopening
  have hbelow := hown own (List.prefix_refl _)
  have hstray' : NoStray (closed ++ opening :: own ++ [l]) := noStray_concat_iff.mpr ⟨hstray, fun _ => by omega⟩
  have hreturns := returnsToZero_concat (closed ++ opening :: own) l
  rw [braceDepth_append _ [l]] at hreturns
  by_cases hclose : l.isClosing = true ∧ braceDepth own = 0
  · have hminus := braceDepth_closing hclose.1
    rw [if_pos ⟨hclose.1, by omega⟩] at hreturns
    have hregion : Region.Spans ⟨opening.number, own⟩ (opening :: own ++ [l]) :=
      ⟨opening, l, hopening, hclose.1, rfl, ⟨hown, hclose.2⟩, rfl⟩
    rw [List.append_assoc, List.cons_append] at hstray' hreturns ⊢
    exact .whole (hspan.concat hregion) hstray' (by rw [hreturns, List.length_append, hcount, List.length_singleton])
  · have hinside : 0 ≤ braceDepth (own ++ [l]) := by
      rw [braceDepth_append]
      rcases braceDepth_singleton_cases l with ⟨-, hone⟩ | ⟨hc, hone⟩ | ⟨-, hone⟩
      · omega
      · have hne : braceDepth own ≠ 0 := fun he => hclose ⟨hc, he⟩
        omega
      · omega
    rw [if_neg] at hreturns
    · rw [List.append_assoc, List.cons_append] at hstray' hreturns ⊢
      exact .unclosed rfl hspan hopening (neverBelow_concat_iff.mpr ⟨hown, hinside⟩) hstray'
        (by rw [hreturns, hcount, Nat.add_zero])
    · rintro ⟨hc, hzero⟩
      rw [braceDepth_append] at hinside
      omega

/-- Lines are cut as far as they go, one line after the other. -/
theorem cutShape (lines : List SourceLine) : CutShape lines := by
  induction lines using List.reverseRecOn with
  | nil => exact .whole spanLines_nil noStray_nil rfl
  | append_singleton lines l ih =>
    cases ih with
    | whole hspan hstray hcount => exact hspan.step hstray hcount l
    | unclosed hlines hspan hopening hown hstray hcount =>
      subst hlines
      exact hspan.step_unclosed hopening hown hstray hcount l
    | @stray regions front back l' hlines hspan hstray hl =>
      exact @CutShape.stray _ regions front (back ++ [l]) l' (by rw [hlines, List.append_assoc, List.cons_append]) hspan hstray hl

/-! ## Cutting -/

/-- The error of lines that cannot be cut: that of the first line outside of a region that opens none, or, if there is
no such line, that of the region that is never closed. -/
inductive CutFault (lines : List SourceLine) : Error → Prop where
  | nothingToClose {front back : List SourceLine} {l : SourceLine} (hlines : lines = front ++ l :: back) (hfront : NoStray front)
    (hdepth : braceDepth front = 0) (hl : l.isClosing = true) : CutFault lines (.located l.number .nothingToClose)
  | outsideRegion {front back : List SourceLine} {l : SourceLine} (hlines : lines = front ++ l :: back) (hfront : NoStray front)
    (hdepth : braceDepth front = 0) (hl : l.isBrace = false) : CutFault lines (.located l.number (.outsideRegion l.text))
  | neverClosed {front back : List SourceLine} {opening : SourceLine} (hlines : lines = front ++ opening :: back)
    (hstray : NoStray lines) (hdepth : braceDepth front = 0) (hopening : opening.isOpening = true) (hback : NeverBelow back) :
    CutFault lines (.located opening.number .neverClosed)

/-- Lines that regions stand for are cut into them. -/
theorem segment_of_spanLines {regions : List Region} {lines : List SourceLine} (h : SpanLines regions lines) :
    segment lines = .ok regions := by
  have hrun := h.segmentFrom []
  rw [List.append_nil] at hrun
  rw [segment, hrun]
  exact congrArg Except.ok (List.append_nil regions)

/-- A region that is never closed is an error at the line that opens it. -/
theorem segment_of_unclosed {regions : List Region} {closed own : List SourceLine} {opening : SourceLine}
    (hspan : SpanLines regions closed) (hopening : opening.isOpening = true) (hown : NeverBelow own) :
    segment (closed ++ opening :: own) = .error (.located opening.number .neverClosed) := by
  obtain ⟨depth, -, hrun⟩ := @segmentFrom_collects own 0 fun part hpart => by
    have := hown part hpart
    omega
  have hopen := hrun opening.number [] []
  rw [List.append_nil] at hopen
  rw [segment, hspan.segmentFrom, segmentFrom, if_pos hopening, hopen]
  rfl

/-- A line outside of a region that opens none is to blame, whatever follows. -/
theorem segment_of_stray {regions : List Region} {front : List SourceLine} {l : SourceLine} (back : List SourceLine)
    (hspan : SpanLines regions front) (hl : l.isOpening = false) :
    segment (front ++ l :: back) =
      .error (.located l.number (if l.isClosing then .nothingToClose else .outsideRegion l.text)) := by
  rw [segment, hspan.segmentFrom, segmentFrom, hl]
  cases l.isClosing <;> rfl

/-- Lines without a stray one in which no brace stays open are regions. -/
theorem NoStray.spanLines {lines : List SourceLine} (hstray : NoStray lines) (hdepth : braceDepth lines = 0) :
    ∃ regions, SpanLines regions lines := by
  cases cutShape lines with
  | @whole regions hspan _ _ => exact ⟨regions, hspan⟩
  | @unclosed regions closed own opening hlines hspan hopening hown _ _ =>
    have hopen := braceDepth_unclosed own hspan hopening
    have hbelow := hown own (List.prefix_refl _)
    rw [← hlines] at hopen
    omega
  | @stray regions front back l hlines hspan _ hl =>
    have hinside := hstray front l (by rw [hlines]; exact ⟨back, by simp⟩) hl
    have hzero := hspan.braceDepth_eq_zero
    omega

/-- Lines are cut into the regions that they are, or the error says why they are none. -/
theorem segment_cases (lines : List SourceLine) :
    (∃ regions, segment lines = .ok regions ∧ SpanLines regions lines ∧ NoStray lines ∧ regions.length = returnsToZero lines) ∨
      ∃ e, segment lines = .error e ∧ CutFault lines e := by
  cases cutShape lines with
  | whole hspan hstray hcount => exact .inl ⟨_, segment_of_spanLines hspan, hspan, hstray, hcount⟩
  | unclosed hlines hspan hopening hown hstray _ =>
    refine .inr ⟨_, hlines ▸ segment_of_unclosed hspan hopening hown, ?_⟩
    exact .neverClosed hlines hstray hspan.braceDepth_eq_zero hopening hown
  | @stray _ front back l hlines hspan hstray hl =>
    refine .inr ⟨_, hlines ▸ segment_of_stray back hspan hl, ?_⟩
    cases hc : l.isClosing with
    | true => exact .nothingToClose hlines hstray hspan.braceDepth_eq_zero hc
    | false => exact .outsideRegion hlines hstray hspan.braceDepth_eq_zero (by rw [SourceLine.isBrace, hl, hc]; rfl)

/-- Lines are cut into the regions that they stand for, one for each return to depth zero. -/
theorem segment_eq_ok_iff {lines : List SourceLine} {regions : List Region} :
    segment lines = .ok regions ↔ SpanLines regions lines ∧ regions.length = returnsToZero lines := by
  refine ⟨fun h => ?_, fun h => segment_of_spanLines h.1⟩
  rcases segment_cases lines with ⟨regions', hok, hspan, -, hcount⟩ | ⟨e, herror, -⟩
  · obtain rfl := Except.ok.inj (hok.symm.trans h)
    exact ⟨hspan, hcount⟩
  · cases herror.symm.trans h

/-- Lines can be cut if their braces are in pairs and no other line is outside of them. -/
theorem segment_isOk_iff {lines : List SourceLine} : (∃ regions, segment lines = .ok regions) ↔ Segmentable lines := by
  rw [segmentable_iff]
  constructor
  · rintro ⟨regions, h⟩
    rcases segment_cases lines with ⟨regions', -, hspan, hstray, -⟩ | ⟨e, herror, -⟩
    · exact ⟨hstray, hspan.braceDepth_eq_zero⟩
    · cases herror.symm.trans h
  · rintro ⟨hstray, hdepth⟩
    obtain ⟨regions, hspan⟩ := hstray.spanLines hdepth
    exact ⟨regions, segment_of_spanLines hspan⟩

/-- Lines with a fault are not cut, and the error is that of the first one. -/
theorem segment_of_cutFault {lines : List SourceLine} {e : Error} (h : CutFault lines e) : segment lines = .error e := by
  cases h with
  | @nothingToClose front back l hlines hfront hdepth hl =>
    obtain ⟨regions, hspan⟩ := hfront.spanLines hdepth
    rw [hlines, segment_of_stray back hspan (isOpening_eq_false_of_isClosing hl), hl, if_pos rfl]
  | @outsideRegion front back l hlines hfront hdepth hl =>
    obtain ⟨regions, hspan⟩ := hfront.spanLines hdepth
    obtain ⟨hopening, hclosing⟩ := Bool.or_eq_false_iff.mp hl
    rw [hlines, segment_of_stray back hspan hopening, hclosing, if_neg (by simp)]
  | @neverClosed front back opening hlines hstray hdepth hopening hback =>
    have hfront : NoStray front := fun part l hpart => hstray part l (by rw [hlines]; exact hpart.trans (List.prefix_append _ _))
    obtain ⟨regions, hspan⟩ := hfront.spanLines hdepth
    rw [hlines, segment_of_unclosed hspan hopening hback]

/-- Lines are not cut exactly if they have a fault, and the error says which. -/
theorem segment_eq_error_iff {lines : List SourceLine} {e : Error} : segment lines = .error e ↔ CutFault lines e := by
  refine ⟨fun h => ?_, segment_of_cutFault⟩
  rcases segment_cases lines with ⟨regions, hok, -⟩ | ⟨e', herror, hfault⟩
  · cases hok.symm.trans h
  · obtain rfl := Except.error.inj (herror.symm.trans h)
    exact hfault

/-- Lines can be cut exactly if their braces are in pairs and all else stands inside of some. The regions are then all
of the lines, each with its braces around it, and there are as many of them as closing braces at which the depth is back
at zero. Otherwise the error is at the first line that stands outside and opens no region, and without such a line, at
the region that is never closed. -/
theorem segment_exact_and_lossless (lines : List SourceLine) :
    ((∃ regions, segment lines = .ok regions) ↔ Segmentable lines) ∧
      (∀ regions, segment lines = .ok regions ↔ SpanLines regions lines ∧ regions.length = returnsToZero lines) ∧
      ∀ e, segment lines = .error e ↔ CutFault lines e :=
  ⟨segment_isOk_iff, fun _ => segment_eq_ok_iff, fun _ => segment_eq_error_iff⟩

end MessageCatalog
