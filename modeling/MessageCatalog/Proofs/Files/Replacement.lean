import MessageCatalog.Proofs.Code.TypeNames
import MessageCatalog.Proofs.Files.Laws
import MessageCatalog.Proofs.Files.Paths

/-!
# Replacing a file as a whole

A file is replaced by a fresh file beside it that is filled and moved over it. In a file system every step keeps the
laws of an access: if one fails, the file system is the one before, entry by entry, and a fresh file that is moved is at
the path while at no other place anything has changed. So code is generated into a file system as a whole or not at all.
-/

namespace MessageCatalog

namespace FileSystem

/-- Whether a text is that of the file at a path. -/
def HasText (fs : FileSystem) (path text : String) : Prop :=
  hasNul path = false ∧ ∃ content, fs.contentOf path = .ok content ∧ String.fromUTF8? content = some text

/-- Whether a fresh file can be made at a path: there is a directory, and the path from the root leaves room for the name. -/
structure HasRoom (fs : FileSystem) (path : String) : Prop where
  noNul : hasNul path = false
  fits : (fs.fromRoot path).utf8ByteSize + 1 + freshNameSize ≤ maxPathSize
  directory : ∃ names, fs.locate path = .ok names ∧ fs.root.look names = some .directory

/-- Whether a file can be moved to a path: the path leads to a place in a directory that has no directory there. -/
structure Accepts (fs : FileSystem) (path : String) (place : List String) : Prop where
  noNul : hasNul path = false
  leads : fs.locateNew path = .ok place
  noDirectory : fs.root.look place ≠ some .directory

end FileSystem

/-! ## The steps -/

/-- A fresh file is made where nothing was, if there is room for it. -/
theorem createFresh_cases (fs : FileSystem) {path : String} (hnul : hasNul path = false) :
    (fs.HasRoom path ∧ ∃ fresh root, fs.createFresh path = .ok (fresh, { fs with root }) ∧ fs.root.look fresh = none ∧
        fs.root.put fresh (.file .empty) = .ok root) ∨
      ¬fs.HasRoom path ∧ ∃ fault, fs.createFresh path = .error fault := by
  unfold FileSystem.createFresh
  by_cases hlong : maxPathSize < (fs.fromRoot path).utf8ByteSize + 1 + freshNameSize
  · refine .inr ⟨fun hroom => ?_, .nameTooLong, by simp [hlong, bind, Except.bind]⟩
    have := hroom.fits
    omega
  simp only [hlong, if_false]
  cases hlocate : fs.locate path with
  | error fault =>
    refine .inr ⟨fun hroom => ?_, fault, rfl⟩
    obtain ⟨names, hnames, -⟩ := hroom.directory
    rw [hlocate] at hnames
    cases hnames
  | ok names =>
    cases hfresh : fs.root.createFresh names with
    | error fault =>
      refine .inr ⟨fun hroom => ?_, fault, by simp only [bind, Except.bind, hfresh]⟩
      obtain ⟨names', hnames, hdirectory⟩ := hroom.directory
      rw [hlocate] at hnames
      obtain rfl := Except.ok.inj hnames
      obtain ⟨fresh, root, hmade⟩ := FileTree.createFresh_isOk hdirectory
      rw [hfresh] at hmade
      cases hmade
    | ok made =>
      obtain ⟨fresh, root⟩ := made
      obtain ⟨hdirectory, hnothing, hput⟩ := FileTree.of_createFresh hfresh
      refine .inl ⟨⟨hnul, Nat.not_lt.mp hlong, names, hlocate, hdirectory⟩, fresh, root, ?_, hnothing, hput⟩
      simp only [bind, Except.bind, pure, Except.pure, hfresh]

section Fresh

variable {fs : FileSystem} {fresh : List String} {root : FileTree}

/-- A fresh file is filled again in its place. -/
theorem fill_fresh {old : ByteArray} (hput : fs.root.put fresh (.file old) = .ok root) (content : ByteArray) :
    ∃ filled, fs.root.put fresh (.file content) = .ok filled ∧
      (FileAccess.fill fresh content : StateM FileSystem _) { fs with root } = (.ok (), { fs with root := filled }) := by
  obtain ⟨filled, hfilled⟩ := FileTree.put_isOk_of_put hput (.file content)
  refine ⟨filled, hfilled, ?_⟩
  simp only [FileAccess.fill, changeFiles, FileTree.put_put hput, hfilled, Except.map]

variable {content : ByteArray} (hnothing : fs.root.look fresh = none) (hput : fs.root.put fresh (.file content) = .ok root)
include hnothing hput

/-- A fresh file that is discarded leaves the file system as it was. -/
theorem discard_fresh : (FileAccess.discard fresh : StateM FileSystem _) { fs with root } = ((), fs) := by
  simp only [FileAccess.discard, FileTree.remove_put hput hnothing]

/-- A fresh file that is moved goes where a file can be put, and nothing is left of it. -/
theorem moveTo_fresh (path : String) (hnul : hasNul path = false) :
    (∃ place moved, fs.Accepts path place ∧ fs.root.put place (.file content) = .ok moved ∧
        (FileAccess.moveTo fresh path : StateM FileSystem _) { fs with root } = (.ok (), { fs with root := moved })) ∨
      (∀ place, ¬fs.Accepts path place) ∧
        ∃ fault, (FileAccess.moveTo fresh path : StateM FileSystem _) { fs with root } = (.error fault, { fs with root }) := by
  have hsame : FileSystem.SameBut fresh fs { fs with root } := ⟨FileTree.sameBut_put hput (by simp [hnothing]), rfl⟩
  simp only [FileAccess.moveTo, changeFiles, FileSystem.moveTo]
  cases hplace : FileSystem.locateNew { fs with root } path with
  | error fault =>
    refine .inr ⟨fun place haccepts => ?_, fault, rfl⟩
    rw [hsame.locateNew haccepts.leads] at hplace
    cases hplace
  | ok place =>
    have hleads := hsame.symm.locateNew hplace
    by_cases hdirectory : root.look place = some .directory
    · obtain ⟨fault, hmove⟩ := FileTree.move_directory hdirectory fresh
      refine .inr ⟨fun place' haccepts => ?_, fault, by simp only [bind, Except.bind, hmove, Except.map]⟩
      obtain rfl : place = place' := Except.ok.inj (hleads.symm.trans haccepts.leads)
      exact haccepts.noDirectory (hsame.symm.root.look_directory hdirectory)
    · have hnoDirectory : fs.root.look place ≠ some .directory := fun h => hdirectory (hsame.root.look_directory h)
      obtain ⟨moved, hmoved⟩ := FileSystem.put_isOk_of_locateNew hleads (.file content)
      refine .inl ⟨place, moved, ⟨hnul, hleads, hnoDirectory⟩, hmoved, ?_⟩
      simp only [bind, Except.bind, pure, Except.pure, FileTree.move_put hput hnothing hdirectory, hmoved, Except.map]

end Fresh

/-! ## The laws -/

/-- Whether a file system is another one with a file replaced: its content is at the path, and at the place where the
path leads to is the only difference. -/
structure FileSystem.Replaces (fs' fs : FileSystem) (path : String) (content : ByteArray) : Prop where
  content : fs'.contentOf path = .ok content
  current : fs'.current = fs.current
  elsewhere : ∃ place, fs.locateNew path = .ok place ∧ fs'.locate path = .ok place ∧
    (∀ names ≠ place, fs'.root.look names = fs.root.look names) ∧
    ∀ other, fs'.locate other ≠ .ok place → fs'.look other = fs.look other

/-- A file that is put at a path replaces what was there. -/
theorem replaces_of_put {fs : FileSystem} {path : String} {place : List String} {content : ByteArray} {root : FileTree}
    (haccepts : fs.Accepts path place) (hput : fs.root.put place (.file content) = .ok root) :
    FileSystem.Replaces { fs with root } fs path content := by
  obtain ⟨hhere, helsewhere⟩ := FileTree.look_put hput haccepts.noDirectory
  have hsame : FileSystem.SameBut place fs { fs with root } := ⟨FileTree.sameBut_put hput haccepts.noDirectory, rfl⟩
  have hthere : root.look place ≠ none := by simp [hhere]
  have hlocate := FileSystem.locate_of_locateNew (hsame.locateNew haccepts.leads) hthere
  refine ⟨?_, rfl, place, haccepts.leads, hlocate, helsewhere, fun other hother => hsame.look hthere hother⟩
  simp only [FileSystem.contentOf, hlocate, bind, Except.bind, FileTree.contentOf, FileTree.look_eq_file_iff.mp hhere]

/-- The content of a file is what is seen at its path. -/
theorem FileSystem.contentOf_eq_ok_iff {fs : FileSystem} {path : String} {content : ByteArray} :
    fs.contentOf path = .ok content ↔ fs.look path = some (.file content) := by
  unfold FileSystem.contentOf FileSystem.look
  cases hlocate : fs.locate path with
  | error fault => simp [bind, Except.bind, Except.toOption]
  | ok names =>
    have hfile : fs.root.contentOf names = .ok content ↔ fs.root.find names = .ok (.file content) := by
      unfold FileTree.contentOf
      cases fs.root.find names with
      | error fault => simp
      | ok tree => cases tree <;> simp
    simpa [bind, Except.bind, Except.toOption, FileTree.look_eq_file_iff] using hfile

/-- File systems as states of files: a fresh file is one at a place where nothing was, and there is space for every
content. -/
def FileSystem.view : FileView (StateM FileSystem) (List String) FileSystem where
  run x fs := x fs
  HasRoom fs directory := fs.HasRoom directory
  HasSpace _ _ := True
  Accepts fs path := ∃ place, fs.Accepts path place
  SamePlace fs path other := ∃ place, fs.locate path = .ok place ∧ fs.locate other = .ok place
  IsWithFresh fs fresh content fs' :=
    ∃ root, fs' = { fs with root } ∧ fs.root.look fresh = none ∧ fs.root.put fresh (.file content) = .ok root
  Replaces fs' fs path content := fs'.Replaces fs path content

/-- The access to a file system keeps the laws. -/
theorem FileSystem.view_lawful : FileSystem.view.Lawful where
  run_pure _ _ := rfl
  run_bind _ _ _ := rfl
  readFile _ _ := rfl
  createFresh fs hnul := by
    rcases createFresh_cases fs hnul with ⟨hroom, fresh, root, hcreate, hnothing, hput⟩ | ⟨hno, fault, hcreate⟩
    · refine .inl ⟨hroom, fresh, { fs with root }, ?_, root, rfl, hnothing, hput⟩
      simp only [view, FileAccess.createFresh, changeFiles, hcreate]
    · refine .inr ⟨hno, fault, ?_⟩
      simp only [view, FileAccess.createFresh, changeFiles, hcreate]
  fill content := by
    rintro ⟨root, rfl, hnothing, hput⟩
    obtain ⟨filled, hfilled, hrun⟩ := fill_fresh hput content
    exact .inl ⟨trivial, _, hrun, filled, rfl, hnothing, hfilled⟩
  moveTo := by
    rintro fs _ fresh content path ⟨root, rfl, hnothing, hput⟩ hnul
    rcases moveTo_fresh hnothing hput path hnul with ⟨place, moved, haccepts, hmoved, hrun⟩ | ⟨hno, fault, hrun⟩
    · exact .inl ⟨⟨place, haccepts⟩, _, hrun, replaces_of_put haccepts hmoved⟩
    · exact .inr ⟨fun haccepts => hno _ haccepts.choose_spec, fault, hrun⟩
  discard := by
    rintro fs _ fresh content ⟨root, rfl, hnothing, hput⟩
    exact discard_fresh hnothing hput
  replaced hreplaces := hreplaces.content
  elsewhere := by
    intro fs fs' path content hreplaces other hother content'
    -- contents are compared and not faults, as a path through a new file fails in another way than before
    obtain ⟨place, -, hlocate, -, hlook⟩ := hreplaces.elsewhere
    have hsame := hlook other fun hplace => hother ⟨place, hlocate, hplace⟩
    change fs'.contentOf other = .ok content' ↔ fs.contentOf other = .ok content'
    rw [contentOf_eq_ok_iff, contentOf_eq_ok_iff, hsame]

/-! ## Generating into files -/

/-- A file has one text. -/
theorem FileSystem.HasText.unique {fs : FileSystem} {path text text' : String} (h : fs.HasText path text)
    (h' : fs.HasText path text') : text = text' :=
  FileView.HasText.unique (v := FileSystem.view) h h'

/-- Whether code can be generated from one file into another, and which. -/
structure FileSystem.CanGenerate (fs : FileSystem) (input output : String) (config : Config) (out : Generated)
    (place : List String) : Prop where
  text : ∃ text, fs.HasText input text ∧ generate text config = .ok out
  room : fs.HasRoom (parentDirectory output)
  accepts : fs.Accepts output place

/-- Code can be generated exactly if the input is a text that code is generated for and the output can be replaced. -/
theorem FileSystem.exists_canGenerate_iff {fs : FileSystem} {input output : String} {config : Config} :
    (∃ out place, fs.CanGenerate input output config out place) ↔
      ∃ text out, fs.HasText input text ∧ generate text config = .ok out ∧
        FileSystem.view.CanReplace fs output out.source.toUTF8 := by
  constructor
  · rintro ⟨out, place, ⟨text, htext, hgenerate⟩, hroom, haccepts⟩
    exact ⟨text, out, htext, hgenerate, hroom.noNul, hroom, trivial, haccepts.noNul, place, haccepts⟩
  · rintro ⟨text, out, htext, hgenerate, -, hroom, -, -, place, haccepts⟩
    exact ⟨out, place, ⟨text, htext, hgenerate⟩, hroom, haccepts⟩

/-- Generating into a file is all or nothing. If it fails, the file system is the one before. If it succeeds, the output
path has the generated code of the text of the input, and nothing else has changed. It succeeds exactly if the input is
a text that code is generated for and a file can be put at the output path. -/
theorem generateFile_all_or_nothing {fs fs' : FileSystem} {input output : String} {config : Config}
    {result : Except Error Generated} (h : (generateFile input output config : StateM FileSystem _) fs = (result, fs')) :
    (∀ e, result = .error e → fs' = fs) ∧
      (∀ out, result = .ok out → (∃ text, fs.HasText input text ∧ generate text config = .ok out) ∧
        fs'.Replaces fs output out.source.toUTF8) ∧
      ((∃ out, result = .ok out) ↔ ∃ out place, fs.CanGenerate input output config out place) := by
  obtain ⟨hfailed, hdone, hiff⟩ := FileSystem.view_lawful.generateFile_whole h
  refine ⟨hfailed, fun out hout => ?_, hiff.trans FileSystem.exists_canGenerate_iff.symm⟩
  obtain ⟨htext, hreplaces, -⟩ := hdone out hout
  exact ⟨htext, hreplaces⟩

/-- A text is read back from its bytes. -/
theorem fromUTF8?_toUTF8 (text : String) : String.fromUTF8? text.toUTF8 = some text :=
  dif_pos text.isValidUTF8

/-- A home directory with the source of the small catalog, and a directory with an older output. -/
def sampleFiles : FileSystem :=
  ⟨.directory [("home", .directory [("in", .file sampleSource.toUTF8),
    ("out", .directory [("code", .file "old".toUTF8)])])], ["home"]⟩

/-- The older output is replaced and the source is still there. A directory is not replaced, and nothing is left of the
attempt. -/
theorem generateFile_all_or_nothing_sample : ∃ out files,
    (generateFile "in" "out/code" {} : StateM FileSystem _) sampleFiles = (.ok out, files) ∧ generate sampleSource {} = .ok out ∧
    files.contentOf "out/code" = .ok out.source.toUTF8 ∧ files.root.look ["home", "in"] = some (.file sampleSource.toUTF8) ∧
    ∃ e, (generateFile "in" "out" {} : StateM FileSystem _) sampleFiles = (.error e, sampleFiles) := by
  obtain ⟨runtime, out, -, hgenerate⟩ := generate_sampleSource
  have htext : sampleFiles.HasText "in" sampleSource := ⟨by decide, _, rfl, fromUTF8?_toUTF8 sampleSource⟩
  have hcan : sampleFiles.CanGenerate "in" "out/code" {} out ["home", "out", "code"] :=
    ⟨⟨_, htext, hgenerate⟩, ⟨by decide, by decide, ["home", "out"], rfl, rfl⟩, by decide, rfl, nofun⟩
  cases hrun : (generateFile "in" "out/code" {} : StateM FileSystem _) sampleFiles with
  | mk result files =>
    obtain ⟨-, hdone, hiff⟩ := generateFile_all_or_nothing hrun
    obtain ⟨out', rfl⟩ := hiff.mpr ⟨out, _, hcan⟩
    obtain ⟨⟨text, htext', hgenerate'⟩, hreplaces⟩ := hdone out' rfl
    obtain rfl := htext.unique htext'
    obtain ⟨place, hplace, -, helsewhere, -⟩ := hreplaces.elsewhere
    obtain rfl : place = ["home", "out", "code"] := Except.ok.inj (hplace.symm.trans hcan.accepts.leads)
    refine ⟨out', files, rfl, hgenerate', hreplaces.content, (helsewhere _ (by decide)).trans rfl, ?_⟩
    cases hrefused : (generateFile "in" "out" {} : StateM FileSystem _) sampleFiles with
    | mk result' files' =>
      obtain ⟨hfailed, -, hiff'⟩ := generateFile_all_or_nothing hrefused
      cases result' with
      | error e => exact ⟨e, by rw [hfailed e rfl]⟩
      | ok out'' =>
        obtain ⟨_, place', hcan'⟩ := hiff'.mp ⟨out'', rfl⟩
        obtain rfl : place' = ["home", "out"] := Except.ok.inj (hcan'.accepts.leads.symm.trans rfl)
        exact absurd rfl hcan'.accepts.noDirectory

end MessageCatalog
