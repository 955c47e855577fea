import MessageCatalog.Files.Access

/-!
# File trees

A finite tree of directories and files as a value, with the steps on files as functions on it. A place in a tree is
given by the names that lead to it from the root.
-/

namespace MessageCatalog

/-- A file with its content, or a directory with its entries. -/
inductive FileTree where
  | file (content : ByteArray)
  | directory (entries : List (String × FileTree))
  deriving Inhabited

namespace FileTree

/-- The tree of an empty directory. -/
def empty : FileTree := directory []

/-- What stands at the end of some names. -/
def find : FileTree → List String → Except FileFault FileTree
  | tree, [] => .ok tree
  | file _, _ :: _ => .error .notDirectory
  | directory entries, name :: rest =>
    match entries.lookup name with
    | none => .error .notFound
    | some tree => tree.find rest

/-- The entries with one of them set: in its place if there is one of the name, at the end otherwise. -/
def setEntry (name : String) (tree : FileTree) : List (String × FileTree) → List (String × FileTree)
  | [] => [(name, tree)]
  | entry :: rest => if entry.1 = name then (name, tree) :: rest else entry :: setEntry name tree rest

/-- Changes the entries of the directory at the end of some names. -/
def changeEntries (change : List (String × FileTree) → List (String × FileTree)) :
    FileTree → List String → Except FileFault FileTree
  | file _, _ => .error .notDirectory
  | directory entries, [] => .ok (directory (change entries))
  | directory entries, name :: rest =>
    match entries.lookup name with
    | none => .error .notFound
    | some tree => (tree.changeEntries change rest).map fun changed => directory (setEntry name changed entries)

/-- Puts a tree at the end of some names, in place of what may be there. The directory has to be there. -/
def put (tree : FileTree) (names : List String) (new : FileTree) : Except FileFault FileTree :=
  match names.getLast? with
  | none => .error .isDirectory
  | some name => tree.changeEntries (setEntry name new) names.dropLast

/-- Removes what stands at the end of some names. -/
def remove (tree : FileTree) (names : List String) : Except FileFault FileTree :=
  match names.getLast? with
  | none => .error .isDirectory
  | some name => tree.changeEntries (fun entries => entries.filter (·.1 ≠ name)) names.dropLast

/-- Makes the directories along some names that are not there yet. -/
def makeDirectories : FileTree → List String → Except FileFault FileTree
  | file _, _ => .error .notDirectory
  | directory entries, [] => .ok (directory entries)
  | directory entries, name :: rest =>
    (((entries.lookup name).getD empty).makeDirectories rest).map fun made => directory (setEntry name made entries)

/-- The names in a directory in order. -/
def list (tree : FileTree) (names : List String) : Except FileFault (List String) :=
  match tree.find names with
  | .ok (directory entries) => .ok ((entries.map (·.1)).mergeSort fun a b => !decide (b < a))
  | .ok (file _) => .error .notDirectory
  | .error fault => .error fault

/-- The content of the file at the end of some names. -/
def contentOf (tree : FileTree) (names : List String) : Except FileFault ByteArray :=
  match tree.find names with
  | .ok (file content) => .ok content
  | .ok (directory _) => .error .isDirectory
  | .error fault => .error fault

/-- A name that is longer than all names in use, and so is none of them. -/
def freshName (entries : List (String × FileTree)) : String :=
  ".tmp" ++ String.ofList (List.replicate (entries.foldl (fun size entry => size + entry.1.length) 0) 'x')

/-- Makes an empty file of a fresh name in the directory at the end of some names, and returns the names to it. -/
def createFresh (tree : FileTree) (names : List String) : Except FileFault (List String × FileTree) :=
  match tree.find names with
  | .ok (directory entries) =>
    let name := freshName entries
    (tree.changeEntries (setEntry name (file .empty)) names).map fun changed => (names ++ [name], changed)
  | .ok (file _) => .error .notDirectory
  | .error fault => .error fault

/-- Moves the file at the end of some names. A directory is not replaced. -/
def move (tree : FileTree) (source target : List String) : Except FileFault FileTree :=
  match tree.find source, tree.find target with
  | .error fault, _ => .error fault
  | .ok _, .ok (directory _) => .error .isDirectory
  | .ok moved, _ => do
    let rest ← tree.remove source
    rest.put target moved

end FileTree

end MessageCatalog
