import MessageCatalog.Files.Tree

/-!
# File systems

A file tree with a current directory, in which paths are walked name by name: a name leads on from a directory only, `.` stays and
`..` goes back. A stroke at the start of a path is the root, and one at its end asks for a directory.
-/

namespace MessageCatalog

/-- A tree of files, and the names that lead from its root to the current directory. -/
structure FileSystem where
  root : FileTree
  current : List String
  deriving Inhabited

/-- The most bytes that a name may have. -/
def maxNameSize : Nat := 255

/-- The most bytes that a path may have. -/
def maxPathSize : Nat := 4095

/-- The bytes that the name of a fresh file has in a path. -/
def freshNameSize : Nat := 10

/-- The names of a path. Strokes only separate them. -/
def namesOf (path : String) : List String :=
  (splitPath path).filter (· ≠ "")

/-- Whether a path starts at the root. -/
def startsAtRoot (path : String) : Bool :=
  path.toList.head? == some '/'

/-- Whether a path ends in a stroke, so that only a directory can stand at it. -/
def endsInStroke (path : String) : Bool :=
  path.toList.getLast? == some '/'

/-- Whether a name is one that every directory has, for itself or for the one above. -/
def isDots (name : String) : Bool :=
  name = "." || name = ".."

namespace FileTree

/-- The entries of the directory at the end of some names. -/
def entriesOf (tree : FileTree) (names : List String) : Except FileFault (List (String × FileTree)) :=
  match tree.find names with
  | .ok (directory entries) => .ok entries
  | .ok (file _) => .error .notDirectory
  | .error fault => .error fault

/-- Goes one name on from a place. -/
def enter (tree : FileTree) (names : List String) (name : String) : Except FileFault (List String) :=
  match tree.entriesOf names with
  | .error fault => .error fault
  | .ok entries =>
    if name = "." then .ok names
    else if name = ".." then .ok names.dropLast
    else if maxNameSize < name.utf8ByteSize then .error .nameTooLong
    else if (entries.lookup name).isSome then .ok (names ++ [name])
    else .error .notFound

/-- Goes along names from a place. -/
def walk (tree : FileTree) (names : List String) : List String → Except FileFault (List String)
  | [] => .ok names
  | name :: rest =>
    match tree.enter names name with
    | .error fault => .error fault
    | .ok next => tree.walk next rest

end FileTree

namespace FileSystem

/-- Where a path starts. -/
def startOf (fs : FileSystem) (path : String) : List String :=
  if startsAtRoot path then [] else fs.current

/-- Whether a path can be one: it is neither empty nor too long. -/
def checkPath (path : String) : Except FileFault Unit :=
  if path.isEmpty then .error .notFound
  else if maxPathSize < path.utf8ByteSize then .error .nameTooLong
  else .ok ()

/-- The place that a path leads to. -/
def locate (fs : FileSystem) (path : String) : Except FileFault (List String) := do
  checkPath path
  let names ← fs.root.walk (fs.startOf path) (namesOf path)
  if endsInStroke path then
    let _ ← fs.root.entriesOf names
  return names

/-- The place that a path leads to when something is put there: its directory has to be there, and the last name has to
be one that a file can have. -/
def locateNew (fs : FileSystem) (path : String) : Except FileFault (List String) := do
  checkPath path
  match (namesOf path).getLast? with
  | none => .error .busy
  | some name =>
    let directory ← fs.root.walk (fs.startOf path) (namesOf path).dropLast
    let _ ← fs.root.entriesOf directory
    if isDots name then .error .busy
    else if maxNameSize < name.utf8ByteSize then .error .nameTooLong
    else if endsInStroke path then .error .notDirectory
    else return directory ++ [name]

/-- The content of the file at a path. -/
def contentOf (fs : FileSystem) (path : String) : Except FileFault ByteArray := do
  fs.root.contentOf (← fs.locate path)

/-- The names in the directory at a path in order. -/
def list (fs : FileSystem) (path : String) : Except FileFault (List String) := do
  fs.root.list (← fs.locate path)

/-- Makes the directories along a path that are not there yet. -/
def makeDirectories (fs : FileSystem) (path : String) : Except FileFault FileSystem := do
  let names := (namesOf path).foldl (fun done name =>
    if name = "." then done else if name = ".." then done.dropLast else done ++ [name]) (fs.startOf path)
  return { fs with root := ← fs.root.makeDirectories names }

/-- Puts a file at a path, in place of a file that may be there. -/
def putFile (fs : FileSystem) (path : String) (content : ByteArray) : Except FileFault FileSystem := do
  return { fs with root := ← fs.root.put (← fs.locateNew path) (.file content) }

/-- Moves a file to a path. -/
def moveTo (fs : FileSystem) (source : List String) (target : String) : Except FileFault FileSystem := do
  return { fs with root := ← fs.root.move source (← fs.locateNew target) }

/-- The path from the root that means the same as a path. -/
def fromRoot (fs : FileSystem) (path : String) : String :=
  if startsAtRoot path then path else "/" ++ String.intercalate "/" fs.current ++ "/" ++ path

/-- Makes an empty file of a fresh name in the directory at a path, and returns the place of it. The file is reached by
its path from the root, which must not be too long. -/
def createFresh (fs : FileSystem) (directory : String) : Except FileFault (List String × FileSystem) := do
  if maxPathSize < (fs.fromRoot directory).utf8ByteSize + 1 + freshNameSize then .error .nameTooLong
  let (names, changed) ← fs.root.createFresh (← fs.locate directory)
  return (names, { fs with root := changed })

end FileSystem

/-- Takes a step that changes the file system or fails and leaves it. -/
def changeFiles {α : Type} (step : FileSystem → Except FileFault (α × FileSystem)) :
    StateM FileSystem (Except FileFault α) := fun fs =>
  match step fs with
  | .ok (a, changed) => (.ok a, changed)
  | .error fault => (.error fault, fs)

/-- Access to the files of a file system. The handle of a fresh file is its place. -/
instance : FileAccess (StateM FileSystem) (List String) where
  readFile path := fun fs => (fs.contentOf path, fs)
  createFresh directory := changeFiles fun fs => fs.createFresh directory
  fill names content := changeFiles fun fs =>
    (fs.root.put names (.file content)).map fun changed => ((), { fs with root := changed })
  moveTo names target := changeFiles fun fs => (fs.moveTo names target).map (((), ·))
  discard names := fun fs =>
    ((), match fs.root.remove names with
      | .ok changed => { fs with root := changed }
      | .error _ => fs)

end MessageCatalog
