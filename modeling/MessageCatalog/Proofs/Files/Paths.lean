import MessageCatalog.Proofs.Files.Tree

/-!
# Where paths lead

A path is walked through directories only. Two trees that are alike but for one place with no directory in either thus
lead every path to the same place, unless it is that one. In particular a file that comes and goes beside another one
does not change where anything is.
-/

namespace MessageCatalog

namespace FileTree

/-- Whether trees are alike but for a place where neither has a directory. -/
structure SameBut (place : List String) (a b : FileTree) : Prop where
  elsewhere : ∀ names ≠ place, a.look names = b.look names
  left : a.look place ≠ some .directory
  right : b.look place ≠ some .directory

variable {a b : FileTree} {place : List String}

theorem SameBut.symm (h : SameBut place a b) : SameBut place b a :=
  ⟨fun names hnames => (h.elsewhere names hnames).symm, h.right, h.left⟩

/-- A directory does not stand at the place of the difference. -/
theorem SameBut.ne (h : SameBut place a b) {names : List String} (hnames : a.look names = some .directory) : names ≠ place := by
  rintro rfl
  exact h.left hnames

/-- Directories stand in both trees. -/
theorem SameBut.look_directory (h : SameBut place a b) {names : List String} (hnames : a.look names = some .directory) :
    b.look names = some .directory := by
  rw [← h.elsewhere names (h.ne hnames), hnames]

/-- A file that is put in the place of no directory changes the tree at that place only. -/
theorem sameBut_put {tree changed : FileTree} {content : ByteArray} (hput : tree.put place (file content) = .ok changed)
    (hplace : tree.look place ≠ some .directory) : SameBut place tree changed := by
  obtain ⟨hhere, helsewhere⟩ := look_put hput hplace
  exact ⟨fun names hnames => (helsewhere names hnames).symm, hplace, by simp [hhere]⟩

/-- A place has entries, or it is no directory. -/
theorem entriesOf_cases (tree : FileTree) (names : List String) :
    (∃ entries, tree.entriesOf names = .ok entries ∧ tree.find names = .ok (directory entries)) ∨
      (∃ fault, tree.entriesOf names = .error fault) ∧ tree.look names ≠ some .directory := by
  unfold entriesOf look
  cases tree.find names with
  | error fault => exact .inr ⟨⟨fault, rfl⟩, nofun⟩
  | ok sub =>
    cases sub with
    | file content => exact .inr ⟨⟨_, rfl⟩, nofun⟩
    | directory entries => exact .inl ⟨entries, rfl, rfl⟩

/-- A name leads on from a directory: back to it, above it, or to what is there. -/
theorem enter_eq_ok_iff {tree : FileTree} {names next : List String} {name : String} :
    tree.enter names name = .ok next ↔ tree.look names = some .directory ∧
      (name = "." ∧ next = names ∨ name = ".." ∧ next = names.dropLast ∨
        isDots name = false ∧ name.utf8ByteSize ≤ maxNameSize ∧ tree.look (names ++ [name]) ≠ none ∧ next = names ++ [name]) := by
  unfold enter
  rcases tree.entriesOf_cases names with ⟨entries, hentries, hfind⟩ | ⟨⟨fault, hentries⟩, hlook⟩
  · rw [hentries, look_eq_directory_iff.mpr ⟨entries, hfind⟩, look_concat hfind]
    by_cases hhere : name = "."
    · simp only [hhere, isDots, if_true, Except.ok.injEq]
      simp [eq_comm (a := next)]
    by_cases habove : name = ".."
    · simp only [habove, isDots, if_true]
      simp [eq_comm (a := next)]
    by_cases hlong : maxNameSize < name.utf8ByteSize
    · simp [hhere, habove, hlong, Nat.not_le.mpr hlong]
    · cases hentry : entries.lookup name with
      | none => simp [hhere, habove, hlong, hentry]
      | some sub => simp [hhere, habove, hlong, Nat.not_lt.mp hlong, isDots, hentry, eq_comm (a := next)]
  · simp [hentries, hlook]

/-- No walk leads on from what is no directory. -/
theorem eq_of_walk {tree : FileTree} {start rest names : List String} (hstart : tree.look start ≠ some .directory)
    (hwalk : tree.walk start rest = .ok names) : names = start := by
  cases rest with
  | nil => exact (Except.ok.inj hwalk).symm
  | cons name rest =>
    rw [walk] at hwalk
    cases hnext : tree.enter start name with
    | error fault =>
      rw [hnext] at hwalk
      cases hwalk
    | ok next => exact absurd (enter_eq_ok_iff.mp hnext).1 hstart

/-- A walk that is possible in one of two such trees is possible in the other one, if it does not end at the place where
they differ or if there is something in the other one, too. -/
theorem SameBut.walk (h : SameBut place a b) {start rest names : List String} (hwalk : a.walk start rest = .ok names)
    (hend : names ≠ place ∨ b.look place ≠ none) : b.walk start rest = .ok names := by
  induction rest generalizing start with
  | nil => exact hwalk
  | cons name rest ih =>
    rw [FileTree.walk] at hwalk ⊢
    cases hnext : a.enter start name with
    | error fault =>
      rw [hnext] at hwalk
      cases hwalk
    | ok next =>
      rw [hnext] at hwalk
      have hrest := ih hwalk
      obtain ⟨hstart, hstep⟩ := enter_eq_ok_iff.mp hnext
      have henter : b.enter start name = .ok next := by
        refine enter_eq_ok_iff.mpr ⟨h.look_directory hstart, ?_⟩
        rcases hstep with hstay | hback | ⟨hdots, hsize, hthere, rfl⟩
        · exact .inl hstay
        · exact .inr (.inl hback)
        · refine .inr (.inr ⟨hdots, hsize, ?_, rfl⟩)
          by_cases hplace : start ++ [name] = place
          · rw [hplace] at hwalk ⊢
            exact hend.resolve_left fun hne => hne (eq_of_walk h.left hwalk)
          · rwa [← h.elsewhere _ hplace]
      rw [henter]
      exact hrest

/-- The last name of a walk is entered from where the names before it lead. -/
theorem walk_concat (tree : FileTree) (start rest : List String) (name : String) :
    tree.walk start (rest ++ [name]) = (tree.walk start rest).bind fun names => tree.enter names name := by
  induction rest generalizing start with
  | nil =>
    rw [List.nil_append, walk]
    cases hnext : tree.enter start name <;> simp [walk, Except.bind, hnext]
  | cons first rest ih =>
    rw [List.cons_append, walk, walk]
    cases tree.enter start first with
    | error fault => rfl
    | ok next => exact ih next

end FileTree

namespace FileSystem

variable {fs fs' : FileSystem} {path : String} {names place : List String}

/-- What stands at the end of a path, if anything does. -/
def look (fs : FileSystem) (path : String) : Option FileTree.Node :=
  (fs.locate path).toOption.bind fs.root.look

/-- A path leads to where its names lead, if it is well formed and leads to a directory where it ends in a stroke. -/
theorem locate_eq_ok_iff : fs.locate path = .ok names ↔ checkPath path = .ok () ∧
    fs.root.walk (fs.startOf path) (namesOf path) = .ok names ∧
      (endsInStroke path = true → fs.root.look names = some .directory) := by
  unfold locate
  cases checkPath path with
  | error fault => simp [bind, Except.bind]
  | ok u =>
    cases hwalk : fs.root.walk (fs.startOf path) (namesOf path) with
    | error fault => simp [bind, Except.bind]
    | ok found =>
      cases endsInStroke path with
      | false => simp [bind, Except.bind, pure, Except.pure]
      | true =>
        rcases fs.root.entriesOf_cases found with ⟨entries, hentries, hfind⟩ | ⟨⟨fault, hentries⟩, hlook⟩
        · have hlook := FileTree.look_eq_directory_iff.mpr ⟨entries, hfind⟩
          simp only [bind, Except.bind, pure, Except.pure, hentries, if_true, Except.ok.injEq, true_and]
          constructor
          · rintro rfl
            exact ⟨rfl, fun _ => hlook⟩
          · exact And.left
        · simp only [bind, Except.bind, hentries, if_true, reduceCtorEq, Except.ok.injEq, true_and, false_iff]
          rintro ⟨rfl, h⟩
          exact hlook (h trivial)

/-- A path leads to a place for a new entry if its last name is a proper one and the names before it lead to a directory. -/
theorem locateNew_eq_ok_iff : fs.locateNew path = .ok place ↔ checkPath path = .ok () ∧ endsInStroke path = false ∧
    ∃ directory name, (namesOf path).getLast? = some name ∧ isDots name = false ∧ name.utf8ByteSize ≤ maxNameSize ∧
      fs.root.walk (fs.startOf path) (namesOf path).dropLast = .ok directory ∧ fs.root.look directory = some .directory ∧
      place = directory ++ [name] := by
  unfold locateNew
  cases checkPath path with
  | error fault => simp [bind, Except.bind]
  | ok u =>
    cases (namesOf path).getLast? with
    | none => simp [bind, Except.bind]
    | some name =>
      cases hwalk : fs.root.walk (fs.startOf path) (namesOf path).dropLast with
      | error fault => simp [bind, Except.bind]
      | ok directory =>
        rcases fs.root.entriesOf_cases directory with ⟨entries, hentries, hfind⟩ | ⟨⟨fault, hentries⟩, hlook⟩
        · have hlook := FileTree.look_eq_directory_iff.mpr ⟨entries, hfind⟩
          by_cases hdots : isDots name = true
          · simp [bind, Except.bind, hentries, hdots]
          by_cases hlong : maxNameSize < name.utf8ByteSize
          · simp [bind, Except.bind, hentries, hdots, hlong, Nat.not_le.mpr hlong]
          by_cases hstroke : endsInStroke path = true
          · simp [bind, Except.bind, hentries, hdots, hlong, hstroke]
          · simp [bind, Except.bind, pure, Except.pure, hentries, hdots, hlong, Nat.not_lt.mp hlong, hstroke, hlook,
              eq_comm (a := place)]
        · simp [bind, Except.bind, hentries, hlook]

/-- File systems that are alike but for a place where neither has a directory. -/
structure SameBut (place : List String) (fs fs' : FileSystem) : Prop where
  root : FileTree.SameBut place fs.root fs'.root
  current : fs.current = fs'.current

theorem SameBut.symm (h : SameBut place fs fs') : SameBut place fs' fs :=
  ⟨h.root.symm, h.current.symm⟩

/-- The walk starts at the same place in both. -/
theorem SameBut.startOf (h : SameBut place fs fs') (path : String) : fs.startOf path = fs'.startOf path := by
  rw [FileSystem.startOf, FileSystem.startOf, h.current]

/-- A path leads to the same place in both, unless that place is missing in the other one. -/
theorem SameBut.locate (h : SameBut place fs fs') (hlocate : fs.locate path = .ok names)
    (hend : names ≠ place ∨ fs'.root.look place ≠ none) : fs'.locate path = .ok names := by
  obtain ⟨hpath, hwalk, hstroke⟩ := locate_eq_ok_iff.mp hlocate
  refine locate_eq_ok_iff.mpr ⟨hpath, ?_, fun hends => h.root.look_directory (hstroke hends)⟩
  rw [← h.startOf]
  exact h.root.walk hwalk hend

/-- A path leads to the same place for a new entry in both. -/
theorem SameBut.locateNew (h : SameBut place fs fs') (hlocate : fs.locateNew path = .ok names) :
    fs'.locateNew path = .ok names := by
  obtain ⟨hpath, hstroke, directory, name, hname, hdots, hsize, hwalk, hdirectory, rfl⟩ := locateNew_eq_ok_iff.mp hlocate
  refine locateNew_eq_ok_iff.mpr ⟨hpath, hstroke, directory, name, hname, hdots, hsize, ?_, h.root.look_directory hdirectory, rfl⟩
  rw [← h.startOf]
  exact h.root.walk hwalk (.inl (h.root.ne hdirectory))

/-- At a place for a new entry something can be put. -/
theorem put_isOk_of_locateNew (h : fs.locateNew path = .ok place) (new : FileTree) :
    ∃ changed, fs.root.put place new = .ok changed := by
  obtain ⟨-, -, directory, name, -, -, -, -, hdirectory, rfl⟩ := locateNew_eq_ok_iff.mp h
  exact FileTree.put_isOk hdirectory name new

/-- Where something was put, the path leads to it. -/
theorem locate_of_locateNew (h : fs.locateNew path = .ok place) (hplace : fs.root.look place ≠ none) :
    fs.locate path = .ok place := by
  obtain ⟨hpath, hstroke, directory, name, hname, hdots, hsize, hwalk, hdirectory, rfl⟩ := locateNew_eq_ok_iff.mp h
  refine locate_eq_ok_iff.mpr ⟨hpath, ?_, fun hends => absurd hends (by simp [hstroke])⟩
  obtain ⟨front, hfront⟩ := List.getLast?_eq_some_iff.mp hname
  rw [hfront, List.dropLast_concat] at hwalk
  rw [hfront, FileTree.walk_concat, hwalk]
  exact FileTree.enter_eq_ok_iff.mpr ⟨hdirectory, .inr (.inr ⟨hdots, hsize, hplace, rfl⟩)⟩

/-- Every path but those that lead to the place has the same at its end. -/
theorem SameBut.look (h : SameBut place fs fs') (hplace : fs'.root.look place ≠ none) (hpath : fs'.locate path ≠ .ok place) :
    fs'.look path = fs.look path := by
  unfold FileSystem.look
  cases hlocate : fs'.locate path with
  | ok names =>
    have hne : names ≠ place := by
      rintro rfl
      exact hpath hlocate
    rw [h.symm.locate hlocate (.inl hne)]
    exact (h.root.elsewhere names hne).symm
  | error fault =>
    cases hbefore : fs.locate path with
    | error fault' => rfl
    | ok names =>
      rw [h.locate hbefore (.inr hplace)] at hlocate
      cases hlocate

end FileSystem

end MessageCatalog
