import MessageCatalog.Error

/-!
# Access to files

What the library asks of files, whatever they are kept in: to read one, to make a fresh one in a directory, to fill,
move and discard it. Every step either happens or fails without effect, but for a fresh file that is filled in part.
-/

namespace MessageCatalog

/-- The steps on files that the library takes. A fresh file is known by a handle until it is moved to its path. -/
class FileAccess (m : Type → Type) (Handle : outParam Type) where
  /-- The content of a file. -/
  readFile : (path : String) → m (Except FileFault ByteArray)
  /-- Makes an empty file of a fresh name in a directory. -/
  createFresh : (directory : String) → m (Except FileFault Handle)
  /-- Replaces the content of a fresh file. -/
  fill : Handle → ByteArray → m (Except FileFault Unit)
  /-- Moves a fresh file to a path, in place of a file that may be there. -/
  moveTo : Handle → (target : String) → m (Except FileFault Unit)
  /-- Removes a fresh file. -/
  discard : Handle → m Unit

/-- Whether a path has a NUL character. -/
def hasNul (path : String) : Bool :=
  path.toList.contains (Char.ofNat 0)

/-- The names between the strokes of a path. -/
def splitPath (path : String) : List String :=
  (path.toList.splitOn '/').map String.ofList

/-- The names of a path without those at its end that lead nowhere: empty ones and `.`. What the path starts with is kept. -/
def trimNames : List String → List String
  | [] => []
  | first :: rest => first :: (rest.reverse.dropWhile fun name => name = "" || name = ".").reverse

/-- The directory part of a path: everything up to its last name, or the current directory. -/
def parentDirectory (path : String) : String :=
  match trimNames (splitPath path) with
  | first :: name :: rest =>
    match trimNames (first :: (name :: rest).dropLast) with
    | [""] => "/"
    | names => String.intercalate "/" names
  | _ => "."

variable {m : Type → Type} {Handle : Type} [Monad m] [FileAccess m Handle]

/-- The text of a file. -/
def readText (path : String) : m (Except FileFault String) := do
  if hasNul path then return .error .nulInName
  match ← FileAccess.readFile path with
  | .error fault => return .error fault
  | .ok content =>
    match String.fromUTF8? content with
    | some text => return .ok text
    | none => return .error .notText

/-- Fills a fresh file and moves it to a path. -/
def place (fresh : Handle) (path : String) (content : ByteArray) : m (Except FileFault Unit) := do
  match ← FileAccess.fill fresh content with
  | .error fault => return .error fault
  | .ok () => if hasNul path then return .error .invalidArgument else FileAccess.moveTo fresh path

/-- Replaces a file as a whole: a fresh file beside it is filled and moved over it, and discarded if that fails. -/
def replaceFile (path : String) (content : ByteArray) : m (Except FileFault Unit) := do
  let directory := parentDirectory path
  if hasNul directory then return .error .nulInName
  match ← FileAccess.createFresh directory with
  | .error fault => return .error fault
  | .ok fresh =>
    match ← place fresh path content with
    | .error fault =>
      FileAccess.discard fresh
      return .error fault
    | .ok () => return .ok ()

end MessageCatalog
