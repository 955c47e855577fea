import MessageCatalog.Files.Compile

/-!
# What is assumed of files

The steps on files are taken by an access that the library does not know. What it relies on is stated as laws, over
states of the files that are only seen through the steps: a step that fails changes at most the fresh file it is about,
a fresh file that is discarded leaves nothing, and one that is moved replaces the file at a path and no other. For every
access that keeps the laws, generating into a file is all or nothing.
-/

namespace MessageCatalog

/-- How the files that an access works on are seen: what a computation does to their state, and what the steps go by. -/
structure FileView (m : Type → Type) (Handle σ : Type) where
  /-- The result of a computation, and the state behind it. -/
  run : {α : Type} → m α → σ → α × σ
  /-- Whether a fresh file can be made in a directory. -/
  HasRoom : σ → (directory : String) → Prop
  /-- Whether a fresh file can be filled with some content. -/
  HasSpace : σ → ByteArray → Prop
  /-- Whether a file can be moved to a path. -/
  Accepts : σ → (path : String) → Prop
  /-- Whether two paths lead to one place. -/
  SamePlace : σ → (path other : String) → Prop
  /-- Whether the second state is the first one with a fresh file of some content. -/
  IsWithFresh : (before : σ) → Handle → ByteArray → (after : σ) → Prop
  /-- Whether the first state is the second one with a file replaced. -/
  Replaces : (after before : σ) → (path : String) → ByteArray → Prop

namespace FileView

variable {m : Type → Type} {Handle σ : Type} (v : FileView m Handle σ)

/-- Whether there is a file of some content at a path. -/
def HasContent [FileAccess m Handle] (s : σ) (path : String) (content : ByteArray) : Prop :=
  (v.run (FileAccess.readFile path : m _) s).1 = .ok content

/-- Whether a text is that of the file at a path. -/
def HasText [FileAccess m Handle] (s : σ) (path text : String) : Prop :=
  hasNul path = false ∧ ∃ content, v.HasContent s path content ∧ String.fromUTF8? content = some text

/-- Whether a file at a path can be replaced as a whole: there is room for a fresh file beside it, which can be filled,
and a file can be moved to the path. -/
structure CanReplace (s : σ) (path : String) (content : ByteArray) : Prop where
  noNulBeside : hasNul (parentDirectory path) = false
  room : v.HasRoom s (parentDirectory path)
  space : v.HasSpace s content
  noNul : hasNul path = false
  accepts : v.Accepts s path

/-- The laws of an access to files: each step either happens or fails without effect, but for a fresh file that is
filled in part. Paths with a NUL are never given to an access. -/
structure Lawful [Monad m] [FileAccess m Handle] : Prop where
  run_pure : ∀ {α : Type} (a : α) (s : σ), v.run (pure a : m α) s = (a, s)
  run_bind : ∀ {α β : Type} (x : m α) (next : α → m β) (s : σ), v.run (x >>= next) s = v.run (next (v.run x s).1) (v.run x s).2
  /-- To read a file changes nothing. -/
  readFile : ∀ (path : String) (s : σ), (v.run (FileAccess.readFile path : m _) s).2 = s
  /-- A fresh file is made if there is room for it. -/
  createFresh : ∀ {directory : String} (s : σ), hasNul directory = false →
    (v.HasRoom s directory ∧ ∃ fresh s', v.run (FileAccess.createFresh directory : m _) s = (.ok fresh, s') ∧
        v.IsWithFresh s fresh .empty s') ∨
      ¬v.HasRoom s directory ∧ ∃ fault, v.run (FileAccess.createFresh directory : m _) s = (.error fault, s)
  /-- A fresh file is filled if there is space for the content, and otherwise may have anything. -/
  fill : ∀ {s s' : σ} {fresh : Handle} {old : ByteArray} (content : ByteArray), v.IsWithFresh s fresh old s' →
    (v.HasSpace s content ∧ ∃ s'', v.run (FileAccess.fill fresh content : m _) s' = (.ok (), s'') ∧
        v.IsWithFresh s fresh content s'') ∨
      ¬v.HasSpace s content ∧ ∃ fault left s'', v.run (FileAccess.fill fresh content : m _) s' = (.error fault, s'') ∧
        v.IsWithFresh s fresh left s''
  /-- A fresh file is moved to a path that accepts it, and is the file there. -/
  moveTo : ∀ {s s' : σ} {fresh : Handle} {content : ByteArray} {path : String}, v.IsWithFresh s fresh content s' →
    hasNul path = false →
    (v.Accepts s path ∧ ∃ s'', v.run (FileAccess.moveTo fresh path : m _) s' = (.ok (), s'') ∧ v.Replaces s'' s path content) ∨
      ¬v.Accepts s path ∧ ∃ fault, v.run (FileAccess.moveTo fresh path : m _) s' = (.error fault, s')
  /-- Nothing is left of a fresh file that is discarded. -/
  discard : ∀ {s s' : σ} {fresh : Handle} {content : ByteArray}, v.IsWithFresh s fresh content s' →
    v.run (FileAccess.discard fresh : m _) s' = ((), s)
  /-- A file that replaces another one has its content. -/
  replaced : ∀ {s s' : σ} {path : String} {content : ByteArray}, v.Replaces s' s path content → v.HasContent s' path content
  /-- A file that replaces another one changes no other file. -/
  elsewhere : ∀ {s s' : σ} {path : String} {content : ByteArray}, v.Replaces s' s path content →
    ∀ other, ¬v.SamePlace s' path other → ∀ content', v.HasContent s' other content' ↔ v.HasContent s other content'

variable {v}

/-- A file has one text. -/
theorem HasText.unique [FileAccess m Handle] {s : σ} {path text text' : String} (h : v.HasText s path text)
    (h' : v.HasText s path text') : text = text' := by
  obtain ⟨-, content, hcontent, htext⟩ := h
  obtain ⟨-, content', hcontent', htext'⟩ := h'
  obtain rfl := Except.ok.inj (hcontent.symm.trans hcontent')
  rw [htext] at htext'
  exact Option.some.inj htext'

namespace Lawful

variable [Monad m] [FileAccess m Handle] (hv : v.Lawful)
include hv

/-- The text of a file is read without any change, or there is none. -/
theorem readText_cases (s : σ) (path : String) :
    (∃ text, v.HasText s path text ∧ v.run (readText path : m _) s = (.ok text, s)) ∨
      (∀ text, ¬v.HasText s path text) ∧ ∃ fault, v.run (readText path : m _) s = (.error fault, s) := by
  unfold readText HasText HasContent
  cases hasNul path with
  | true => exact .inr ⟨nofun, .nulInName, hv.run_pure _ s⟩
  | false =>
    have hsame := hv.readFile path s
    simp only [Bool.false_eq_true, if_false, hv.run_bind, hsame]
    cases hcontent : (v.run (FileAccess.readFile path : m _) s).1 with
    | error fault => exact .inr ⟨nofun, fault, hv.run_pure _ s⟩
    | ok content =>
      cases htext : String.fromUTF8? content with
      | none =>
        refine .inr ⟨?_, .notText, by simp only [htext, hv.run_pure]⟩
        rintro text ⟨-, content', hcontent', htext'⟩
        obtain rfl := Except.ok.inj hcontent'
        rw [htext] at htext'
        cases htext'
      | some text => exact .inl ⟨text, ⟨trivial, content, rfl, htext⟩, by simp only [htext, hv.run_pure]⟩

/-- A fresh file is filled and replaces the file at a path, or is still there. -/
theorem place_cases {s s' : σ} {fresh : Handle} {old : ByteArray} (hfresh : v.IsWithFresh s fresh old s') (path : String)
    (content : ByteArray) :
    (v.HasSpace s content ∧ hasNul path = false ∧ v.Accepts s path ∧
        ∃ s'', v.run (place fresh path content : m _) s' = (.ok (), s'') ∧ v.Replaces s'' s path content) ∨
      ¬(v.HasSpace s content ∧ hasNul path = false ∧ v.Accepts s path) ∧
        ∃ fault left s'', v.run (place fresh path content : m _) s' = (.error fault, s'') ∧ v.IsWithFresh s fresh left s'' := by
  unfold place
  rcases hv.fill content hfresh with ⟨hspace, filled, hfill, hfilled⟩ | ⟨hno, fault, left, filled, hfill, hfilled⟩
  · simp only [hv.run_bind, hfill]
    cases hnul : hasNul path with
    | true => exact .inr ⟨nofun, .invalidArgument, content, filled, hv.run_pure _ filled, hfilled⟩
    | false =>
      simp only [Bool.false_eq_true, if_false]
      rcases hv.moveTo hfilled hnul with ⟨haccepts, moved, hmove, hreplaces⟩ | ⟨hno, fault, hmove⟩
      · exact .inl ⟨hspace, trivial, haccepts, moved, hmove, hreplaces⟩
      · exact .inr ⟨fun h => hno h.2.2, fault, content, filled, hmove, hfilled⟩
  · simp only [hv.run_bind, hfill, hv.run_pure]
    exact .inr ⟨fun h => hno h.1, fault, left, filled, rfl, hfilled⟩

/-- A file is replaced if it can be, and otherwise nothing happens at all. -/
theorem replaceFile_cases (s : σ) (path : String) (content : ByteArray) :
    (v.CanReplace s path content ∧
        ∃ s', v.run (replaceFile path content : m _) s = (.ok (), s') ∧ v.Replaces s' s path content) ∨
      ¬v.CanReplace s path content ∧ ∃ fault, v.run (replaceFile path content : m _) s = (.error fault, s) := by
  unfold replaceFile
  dsimp only
  cases hnul : hasNul (parentDirectory path) with
  | true =>
    refine .inr ⟨fun hcan => ?_, .nulInName, hv.run_pure _ s⟩
    rw [hcan.noNulBeside] at hnul
    cases hnul
  | false =>
    simp only [Bool.false_eq_true, if_false, hv.run_bind]
    rcases hv.createFresh s hnul with ⟨hroom, fresh, made, hcreate, hfresh⟩ | ⟨hno, fault, hcreate⟩
    · simp only [hcreate, hv.run_bind]
      rcases hv.place_cases hfresh path content with
        ⟨hspace, hpath, haccepts, moved, hplace, hreplaces⟩ | ⟨hno, fault, left, filled, hplace, hfilled⟩
      · exact .inl ⟨⟨hnul, hroom, hspace, hpath, haccepts⟩, moved, by simp only [hplace, hv.run_pure], hreplaces⟩
      · -- whatever the fresh file was filled with, nothing is left of it
        refine .inr ⟨fun hcan => hno ⟨hcan.space, hcan.noNul, hcan.accepts⟩, fault, ?_⟩
        simp only [hplace, hv.run_bind, hv.discard hfilled, hv.run_pure]
    · exact .inr ⟨fun hcan => hno hcan.room, fault, by simp only [hcreate, hv.run_pure]⟩

/-- Code is generated into a file if the input is a text that code is generated for and the output can be replaced.
Otherwise nothing happens at all. -/
theorem generateFile_cases (s : σ) (input output : String) (config : Config) :
    (∃ text out s', v.HasText s input text ∧ generate text config = .ok out ∧
        v.CanReplace s output out.source.toUTF8 ∧
        v.run (generateFile input output config : m _) s = (.ok out, s') ∧ v.Replaces s' s output out.source.toUTF8) ∨
      (∀ text out, v.HasText s input text → generate text config = .ok out →
          ¬v.CanReplace s output out.source.toUTF8) ∧
        ∃ e, v.run (generateFile input output config : m _) s = (.error e, s) := by
  unfold generateFile
  simp only [hv.run_bind]
  rcases hv.readText_cases s input with ⟨text, htext, hread⟩ | ⟨hno, fault, hread⟩
  · simp only [hread]
    cases hgenerate : generate text config with
    | error e =>
      refine .inr ⟨fun text' out htext' hgenerate' => ?_, e, hv.run_pure _ s⟩
      rw [← htext.unique htext', hgenerate] at hgenerate'
      cases hgenerate'
    | ok out =>
      simp only [hv.run_bind]
      rcases hv.replaceFile_cases s output out.source.toUTF8 with ⟨hcan, s', hrun, hreplaces⟩ | ⟨hno, fault, hrun⟩
      · exact .inl ⟨text, out, s', htext, hgenerate, hcan, by simp only [hrun, hv.run_pure], hreplaces⟩
      · refine .inr ⟨fun text' out' htext' hgenerate' => ?_, .file fault, by simp only [hrun, hv.run_pure]⟩
        rw [← htext.unique htext', hgenerate] at hgenerate'
        rwa [← Except.ok.inj hgenerate']
  · exact .inr ⟨fun text _ htext => absurd htext (hno text), .file fault, by simp only [hread, hv.run_pure]⟩

/-- For every lawful access generating into a file is all or nothing. If it fails, the state is the one before. If it
succeeds, the output path has the generated code of the text of the input, and at no other place a file has changed. It
succeeds exactly if the input is a text that code is generated for and the output can be replaced. -/
theorem generateFile_whole {s s' : σ} {input output : String} {config : Config} {result : Except Error Generated}
    (h : v.run (generateFile input output config : m _) s = (result, s')) :
    (∀ e, result = .error e → s' = s) ∧
      (∀ out, result = .ok out → (∃ text, v.HasText s input text ∧ generate text config = .ok out) ∧
        v.Replaces s' s output out.source.toUTF8 ∧
        v.HasContent s' output out.source.toUTF8 ∧
        ∀ other, ¬v.SamePlace s' output other → ∀ content, v.HasContent s' other content ↔ v.HasContent s other content) ∧
      ((∃ out, result = .ok out) ↔
        ∃ text out, v.HasText s input text ∧ generate text config = .ok out ∧ v.CanReplace s output out.source.toUTF8) := by
  rcases hv.generateFile_cases s input output config with
    ⟨text, out, s'', htext, hgenerate, hcan, hrun, hreplaces⟩ | ⟨hno, e, hrun⟩
  · obtain ⟨rfl, rfl⟩ := Prod.mk.inj (h.symm.trans hrun)
    refine ⟨nofun, fun out' hout => ?_, fun _ => ⟨text, out, htext, hgenerate, hcan⟩, fun _ => ⟨out, rfl⟩⟩
    obtain rfl := Except.ok.inj hout
    exact ⟨⟨text, htext, hgenerate⟩, hreplaces, hv.replaced hreplaces, hv.elsewhere hreplaces⟩
  · obtain ⟨rfl, rfl⟩ := Prod.mk.inj (h.symm.trans hrun)
    refine ⟨fun _ _ => rfl, nofun, ?_, ?_⟩
    · rintro ⟨out, hout⟩
      cases hout
    · rintro ⟨text, out, htext, hgenerate, hcan⟩
      exact absurd hcan (hno text out htext hgenerate)

end Lawful

end FileView

end MessageCatalog
