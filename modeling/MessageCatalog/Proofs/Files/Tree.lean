import Mathlib.Data.List.Basic
import MessageCatalog.Files.System

/-!
# Changing one place of a file tree

Whatever is put at a place of a file tree, nothing else in the tree changes as long as no directory is replaced. A file
that is put where nothing was, filled as often as one likes and removed again leaves the very same tree, down to the
order of the entries: so a fresh file is never seen by anyone who looks before and after.
-/

namespace MessageCatalog.FileTree

/-! ## Looking at places -/

/-- What can be seen at a place: a file with its content, or that there is a directory. The entries of a directory are
places themselves. -/
inductive Node where
  | file (content : ByteArray)
  | directory

def node : FileTree → Node
  | file content => .file content
  | directory _ => .directory

/-- What stands at a place, if anything does. -/
def look (tree : FileTree) (names : List String) : Option Node :=
  (tree.find names).toOption.map node

@[simp] theorem find_nil (tree : FileTree) : tree.find [] = .ok tree := by
  cases tree <;> rfl

@[simp] theorem look_nil (tree : FileTree) : tree.look [] = some tree.node := by
  rw [look, find_nil]
  rfl

/-- A name leads into the entries of a directory. -/
theorem of_find_cons {tree sub : FileTree} {name : String} {rest : List String} (h : tree.find (name :: rest) = .ok sub) :
    ∃ entries next, tree = directory entries ∧ entries.lookup name = some next ∧ next.find rest = .ok sub := by
  cases tree with
  | file content => cases h
  | directory entries =>
    rw [find] at h
    cases hnext : entries.lookup name with
    | none =>
      rw [hnext] at h
      cases h
    | some next =>
      rw [hnext] at h
      exact ⟨entries, next, rfl, hnext, h⟩

/-- To go along two rows of names is to go along the first one and from there along the second one. -/
theorem find_append {tree sub : FileTree} {names : List String} (h : tree.find names = .ok sub) (rest : List String) :
    tree.find (names ++ rest) = sub.find rest := by
  induction names generalizing tree with
  | nil =>
    rw [find_nil] at h
    obtain rfl := Except.ok.inj h
    rfl
  | cons name names ih =>
    obtain ⟨entries, next, rfl, hnext, h⟩ := of_find_cons h
    rw [List.cons_append, find, hnext]
    exact ih h

/-- A directory is seen where one is found. -/
theorem look_eq_directory_iff {tree : FileTree} {names : List String} :
    tree.look names = some .directory ↔ ∃ entries, tree.find names = .ok (directory entries) := by
  unfold look
  cases tree.find names with
  | error fault => simp [Except.toOption]
  | ok sub => cases sub <;> simp [Except.toOption, node]

/-- A file is seen where one is found. -/
theorem look_eq_file_iff {tree : FileTree} {names : List String} {content : ByteArray} :
    tree.look names = some (.file content) ↔ tree.find names = .ok (file content) := by
  unfold look
  cases tree.find names with
  | error fault => simp [Except.toOption]
  | ok sub => cases sub <;> simp [Except.toOption, node]

/-- From a directory the first name leads on to its entry. -/
@[simp] theorem look_directory_cons (entries : List (String × FileTree)) (name : String) (rest : List String) :
    (directory entries).look (name :: rest) = (entries.lookup name).bind fun sub => sub.look rest := by
  unfold look
  rw [find]
  cases entries.lookup name <;> rfl

/-- What is seen at a name in a directory is its entry. -/
theorem look_concat {tree : FileTree} {names : List String} {entries : List (String × FileTree)}
    (h : tree.find names = .ok (directory entries)) (name : String) :
    tree.look (names ++ [name]) = (entries.lookup name).map node := by
  rw [look, find_append h, ← look, look_directory_cons]
  cases entries.lookup name with
  | none => rfl
  | some sub => exact look_nil sub

/-! ## Entries -/

section Entries

variable (name : String) (tree : FileTree) (entries : List (String × FileTree))

/-- An entry of another name does not matter. -/
theorem lookup_cons_ne {name other : String} (h : name ≠ other) :
    ((other, tree) :: entries).lookup name = entries.lookup name := by
  rw [List.lookup_cons, beq_eq_false_iff_ne.mpr h]

/-- An entry that is set is found by its name, and all others are found as before. -/
theorem lookup_setEntry (other : String) :
    (setEntry name tree entries).lookup other = if other = name then some tree else entries.lookup other := by
  induction entries with
  | nil =>
    by_cases h : other = name
    · simp [setEntry, h]
    · rw [setEntry, lookup_cons_ne tree [] h, if_neg h]
  | cons entry entries ih =>
    obtain ⟨first, sub⟩ := entry
    rw [setEntry]
    by_cases hfirst : first = name
    · subst hfirst
      rw [if_pos rfl]
      by_cases h : other = first
      · simp [h]
      · rw [lookup_cons_ne _ _ h, lookup_cons_ne _ _ h, if_neg h]
    · rw [if_neg hfirst]
      by_cases h : other = first
      · subst h
        simp [hfirst]
      · rw [lookup_cons_ne _ _ h, lookup_cons_ne _ _ h, ih]

@[simp] theorem lookup_setEntry_self : (setEntry name tree entries).lookup name = some tree := by
  rw [lookup_setEntry, if_pos rfl]

/-- Of an entry that is set twice the second value counts. -/
theorem setEntry_setEntry (again : FileTree) :
    setEntry name again (setEntry name tree entries) = setEntry name again entries := by
  induction entries with
  | nil => simp [setEntry]
  | cons entry entries ih => by_cases h : entry.1 = name <;> simp [setEntry, h, ih]

variable {name tree entries}

/-- To set an entry to what it is changes nothing. -/
theorem setEntry_of_lookup (h : entries.lookup name = some tree) : setEntry name tree entries = entries := by
  induction entries with
  | nil => cases h
  | cons entry entries ih =>
    obtain ⟨first, sub⟩ := entry
    by_cases hfirst : first = name
    · obtain rfl : sub = tree := by simpa [List.lookup_cons, hfirst] using h
      simp [setEntry, hfirst]
    · rw [lookup_cons_ne _ _ (Ne.symm hfirst)] at h
      simp [setEntry, hfirst, ih h]

/-- A new entry is at the end, and goes without a trace. -/
theorem filter_setEntry (h : entries.lookup name = none) : (setEntry name tree entries).filter (·.1 ≠ name) = entries := by
  induction entries with
  | nil => simp [setEntry]
  | cons entry entries ih =>
    obtain ⟨first, sub⟩ := entry
    by_cases hfirst : first = name
    · simp [hfirst] at h
    · rw [lookup_cons_ne _ _ (Ne.symm hfirst)] at h
      simpa [setEntry, hfirst] using ih h

end Entries

/-! ## Changing the entries of a directory -/

/-- The entries of a directory can be changed. -/
theorem changeEntries_isOk {tree : FileTree} {names : List String} (h : tree.look names = some .directory)
    (change : List (String × FileTree) → List (String × FileTree)) :
    ∃ changed, tree.changeEntries change names = .ok changed := by
  induction names generalizing tree with
  | nil =>
    cases tree with
    | file content => cases h
    | directory entries => exact ⟨_, rfl⟩
  | cons name names ih =>
    cases tree with
    | file content => cases h
    | directory entries =>
      rw [look_directory_cons, Option.bind_eq_some_iff] at h
      obtain ⟨sub, hsub, h⟩ := h
      obtain ⟨changed, hchanged⟩ := ih h
      refine ⟨directory (setEntry name changed entries), ?_⟩
      simp only [changeEntries, hsub, hchanged, Except.map]

/-- Only the entries of a directory can be changed, and above it nothing but the way to it. -/
theorem of_changeEntries {tree changed : FileTree} {name : String} {names : List String}
    {change : List (String × FileTree) → List (String × FileTree)} (h : tree.changeEntries change (name :: names) = .ok changed) :
    ∃ entries sub sub', tree = directory entries ∧ entries.lookup name = some sub ∧ sub.changeEntries change names = .ok sub' ∧
      changed = directory (setEntry name sub' entries) := by
  cases tree with
  | file content => cases h
  | directory entries =>
    rw [changeEntries] at h
    cases hsub : entries.lookup name with
    | none =>
      rw [hsub] at h
      cases h
    | some sub =>
      rw [hsub] at h
      cases hsub' : sub.changeEntries change names with
      | error fault =>
        simp only [hsub'] at h
        cases h
      | ok sub' =>
        simp only [hsub'] at h
        obtain rfl := Except.ok.inj h
        exact ⟨entries, sub, sub', rfl, hsub, hsub', rfl⟩

/-- At the end of the names the entries themselves are changed. -/
theorem of_changeEntries_nil {tree changed : FileTree} {change : List (String × FileTree) → List (String × FileTree)}
    (h : tree.changeEntries change [] = .ok changed) :
    ∃ entries, tree = directory entries ∧ changed = directory (change entries) := by
  cases tree with
  | file content => cases h
  | directory entries => exact ⟨entries, rfl, (Except.ok.inj h).symm⟩

/-- Entries are changed where a directory is. -/
theorem find_of_changeEntries {tree changed : FileTree} {names : List String}
    {change : List (String × FileTree) → List (String × FileTree)} (h : tree.changeEntries change names = .ok changed) :
    ∃ entries, tree.find names = .ok (directory entries) := by
  induction names generalizing tree changed with
  | nil =>
    obtain ⟨entries, rfl, -⟩ := of_changeEntries_nil h
    exact ⟨entries, rfl⟩
  | cons name names ih =>
    obtain ⟨entries, sub, sub', rfl, hsub, hsub', -⟩ := of_changeEntries h
    obtain ⟨below, hbelow⟩ := ih hsub'
    exact ⟨below, by rw [find, hsub]; exact hbelow⟩

/-- Two changes of one directory are one. -/
theorem changeEntries_changeEntries {tree changed : FileTree} {names : List String}
    {change : List (String × FileTree) → List (String × FileTree)} (h : tree.changeEntries change names = .ok changed)
    (again : List (String × FileTree) → List (String × FileTree)) :
    changed.changeEntries again names = tree.changeEntries (again ∘ change) names := by
  induction names generalizing tree changed with
  | nil =>
    obtain ⟨entries, rfl, rfl⟩ := of_changeEntries_nil h
    rfl
  | cons name names ih =>
    obtain ⟨entries, sub, sub', rfl, hsub, hsub', rfl⟩ := of_changeEntries h
    rw [changeEntries, lookup_setEntry_self, changeEntries, hsub]
    simp only [ih hsub', setEntry_setEntry]

/-- A change that leaves the entries leaves the tree. -/
theorem changeEntries_eq_self {tree : FileTree} {names : List String} {entries : List (String × FileTree)}
    (h : tree.find names = .ok (directory entries)) {change : List (String × FileTree) → List (String × FileTree)}
    (hchange : change entries = entries) : tree.changeEntries change names = .ok tree := by
  induction names generalizing tree with
  | nil =>
    rw [find_nil] at h
    obtain rfl := Except.ok.inj h
    rw [changeEntries, hchange]
  | cons name names ih =>
    obtain ⟨above, next, rfl, hnext, h⟩ := of_find_cons h
    rw [changeEntries, hnext]
    simp only [ih h, Except.map, setEntry_of_lookup hnext]

/-! ## Putting, removing and moving -/

/-- To put something at a name in a directory is to set that entry. -/
@[simp] theorem put_concat (tree new : FileTree) (names : List String) (name : String) :
    tree.put (names ++ [name]) new = tree.changeEntries (setEntry name new) names := by
  simp [put]

/-- To remove a name from a directory is to leave out that entry. -/
@[simp] theorem remove_concat (tree : FileTree) (names : List String) (name : String) :
    tree.remove (names ++ [name]) = tree.changeEntries (fun entries => entries.filter (·.1 ≠ name)) names := by
  simp [remove]

/-- What is put somewhere is put into a directory. -/
theorem exists_concat_of_put {tree new changed : FileTree} {place : List String} (h : tree.put place new = .ok changed) :
    ∃ names name, place = names ++ [name] := by
  rcases List.eq_nil_or_concat place with rfl | ⟨names, name, rfl⟩
  · cases h
  · exact ⟨names, name, List.concat_eq_append⟩

/-- Something can be put at any name in a directory. -/
theorem put_isOk {tree : FileTree} {names : List String} (h : tree.look names = some .directory) (name : String)
    (new : FileTree) : ∃ changed, tree.put (names ++ [name]) new = .ok changed := by
  rw [put_concat]
  exact changeEntries_isOk h _

/-- Of two things that are put at one place the second one counts. -/
theorem put_put {tree new changed : FileTree} {place : List String} (h : tree.put place new = .ok changed) (again : FileTree) :
    changed.put place again = tree.put place again := by
  obtain ⟨names, name, rfl⟩ := exists_concat_of_put h
  rw [put_concat] at h
  rw [put_concat, put_concat, changeEntries_changeEntries h]
  congr 1
  funext entries
  exact setEntry_setEntry name new entries again

/-- Where one thing can be put, any other can. -/
theorem put_isOk_of_put {tree new changed : FileTree} {place : List String} (h : tree.put place new = .ok changed)
    (again : FileTree) : ∃ changed, tree.put place again = .ok changed := by
  obtain ⟨names, name, rfl⟩ := exists_concat_of_put h
  rw [put_concat] at h
  exact put_isOk (look_eq_directory_iff.mpr (find_of_changeEntries h)) name again

/-- A file that is put somewhere is there, and all other places are as they were. -/
theorem look_put {tree changed : FileTree} {place : List String} {content : ByteArray}
    (h : tree.put place (file content) = .ok changed) (hplace : tree.look place ≠ some .directory) :
    changed.look place = some (.file content) ∧ ∀ names ≠ place, changed.look names = tree.look names := by
  obtain ⟨names, name, rfl⟩ := exists_concat_of_put h
  rw [put_concat] at h
  induction names generalizing tree changed with
  | nil =>
    obtain ⟨entries, rfl, rfl⟩ := of_changeEntries_nil h
    refine ⟨by simp [node], fun other hother => ?_⟩
    match other with
    | [] => rfl
    | first :: rest =>
      rw [look_directory_cons, look_directory_cons, lookup_setEntry]
      by_cases hfirst : first = name
      · -- below a file there is nothing, and there was nothing below what it replaces
        subst hfirst
        obtain ⟨second, rest, rfl⟩ : ∃ second rest', rest = second :: rest' :=
          List.exists_cons_of_ne_nil fun hrest => hother (by rw [hrest]; rfl)
        rw [if_pos rfl]
        cases hsub : entries.lookup first with
        | none => rfl
        | some sub =>
          cases sub with
          | file old => rfl
          | directory below => exact absurd (by simp [hsub, node]) hplace
      · rw [if_neg hfirst]
  | cons first names ih =>
    obtain ⟨entries, sub, sub', rfl, hsub, hsub', rfl⟩ := of_changeEntries h
    have hlook : sub.look (names ++ [name]) ≠ some .directory := by
      simpa [hsub] using hplace
    obtain ⟨hhere, hother⟩ := ih hsub' hlook
    refine ⟨by simpa using hhere, fun other hne => ?_⟩
    match other with
    | [] => rfl
    | first' :: rest =>
      rw [look_directory_cons, look_directory_cons, lookup_setEntry]
      by_cases hfirst : first' = first
      · subst hfirst
        have hrest : rest ≠ names ++ [name] := fun hrest => hne (by rw [hrest]; rfl)
        rw [if_pos rfl, hsub]
        exact hother rest hrest
      · rw [if_neg hfirst]

/-- What is put where nothing was and removed leaves the tree as it was. -/
theorem remove_put {tree new changed : FileTree} {place : List String} (h : tree.put place new = .ok changed)
    (hplace : tree.look place = none) : changed.remove place = .ok tree := by
  obtain ⟨names, name, rfl⟩ := exists_concat_of_put h
  rw [put_concat] at h
  obtain ⟨entries, hentries⟩ := find_of_changeEntries h
  have hname : entries.lookup name = none := by
    rw [look_concat hentries] at hplace
    exact Option.map_eq_none_iff.mp hplace
  rw [remove_concat, changeEntries_changeEntries h]
  exact changeEntries_eq_self hentries (filter_setEntry hname)

/-- To move a file away from where nothing was is to put it where it goes. -/
theorem move_put {tree changed : FileTree} {place target : List String} {content : ByteArray}
    (h : tree.put place (file content) = .ok changed) (hplace : tree.look place = none)
    (htarget : changed.look target ≠ some .directory) : changed.move place target = tree.put target (file content) := by
  have hfile : changed.find place = .ok (file content) := look_eq_file_iff.mp (look_put h (by simp [hplace])).1
  unfold move
  rw [hfile, remove_put h hplace]
  cases hfound : changed.find target with
  | error fault => rfl
  | ok sub =>
    cases sub with
    | file old => rfl
    | directory entries => exact absurd (look_eq_directory_iff.mpr ⟨entries, hfound⟩) htarget

/-- A directory is not replaced. -/
theorem move_directory {tree : FileTree} {target : List String} (h : tree.look target = some .directory) (place : List String) :
    ∃ fault, tree.move place target = .error fault := by
  obtain ⟨entries, hentries⟩ := look_eq_directory_iff.mp h
  unfold move
  rw [hentries]
  cases tree.find place with
  | error fault => exact ⟨fault, rfl⟩
  | ok moved => exact ⟨.isDirectory, rfl⟩

/-! ## Fresh files -/

/-- Lengths that are added up step by step make no number smaller. -/
theorem le_foldl_lengths (entries : List (String × FileTree)) (size : Nat) :
    size ≤ entries.foldl (fun size entry => size + entry.1.length) size := by
  induction entries generalizing size with
  | nil => exact Nat.le_refl size
  | cons entry entries ih => exact Nat.le_trans (Nat.le_add_right _ _) (ih (size + entry.1.length))

/-- No name is longer than all names together. -/
theorem length_le_foldl_lengths {entries : List (String × FileTree)} {entry : String × FileTree} (h : entry ∈ entries)
    (size : Nat) : entry.1.length ≤ entries.foldl (fun size entry => size + entry.1.length) size := by
  induction entries generalizing size with
  | nil => cases h
  | cons first entries ih =>
    rw [List.foldl_cons]
    rcases List.mem_cons.mp h with rfl | h
    · have hrest := le_foldl_lengths entries (size + entry.1.length)
      omega
    · exact ih h (size + first.1.length)

/-- A fresh name is that of no entry. -/
theorem lookup_freshName (entries : List (String × FileTree)) : entries.lookup (freshName entries) = none := by
  rw [List.lookup_eq_none_iff]
  intro entry hentry
  refine bne_iff_ne.mpr fun hname => ?_
  have hshorter := length_le_foldl_lengths hentry 0
  have hlength : (freshName entries).length = 4 + entries.foldl (fun size entry => size + entry.1.length) 0 := by
    have hmark : ".tmp".length = 4 := rfl
    simp [freshName, hmark]
  rw [hname] at hlength
  omega

/-- A fresh file is put into a directory, where nothing was. -/
theorem of_createFresh {tree changed : FileTree} {names place : List String} (h : tree.createFresh names = .ok (place, changed)) :
    tree.look names = some .directory ∧ tree.look place = none ∧ tree.put place (file .empty) = .ok changed := by
  unfold createFresh at h
  split at h
  · rename_i entries hentries
    cases hchanged : tree.changeEntries (setEntry (freshName entries) (file .empty)) names with
    | error fault =>
      simp only [hchanged] at h
      cases h
    | ok changed' =>
      simp only [hchanged, Except.map, Except.ok.injEq, Prod.mk.injEq] at h
      obtain ⟨rfl, rfl⟩ := h
      refine ⟨look_eq_directory_iff.mpr ⟨entries, hentries⟩, ?_, by rw [put_concat, hchanged]⟩
      rw [look_concat hentries, lookup_freshName]
      rfl
  · cases h
  · cases h

/-- In a directory a fresh file can be made. -/
theorem createFresh_isOk {tree : FileTree} {names : List String} (h : tree.look names = some .directory) :
    ∃ place changed, tree.createFresh names = .ok (place, changed) := by
  obtain ⟨entries, hentries⟩ := look_eq_directory_iff.mp h
  obtain ⟨changed, hchanged⟩ := changeEntries_isOk h (setEntry (freshName entries) (file .empty))
  refine ⟨names ++ [freshName entries], changed, ?_⟩
  simp only [createFresh, hentries, hchanged, Except.map]

end MessageCatalog.FileTree
