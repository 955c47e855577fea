import MessageCatalog.Code.Generate
import MessageCatalog.Files.Access

/-!
# Compiling files

A template file is checked, or code is generated from it into an output file. The output is made completely before any file is
touched, and it replaces the output file as a whole.
-/

namespace MessageCatalog

variable {m : Type → Type} {Handle : Type} [Monad m] [FileAccess m Handle]

/-- Reads the template of a file. -/
def checkFile (input : String) : m (Except Error Template) := do
  match ← readText input with
  | .error fault => return .error (.file fault)
  | .ok source => return parse source

/-- Generates the code of a template file into an output file. The template is read before the configuration is checked. -/
def generateFile (input output : String) (config : Config) : m (Except Error Generated) := do
  match ← readText input with
  | .error fault => return .error (.file fault)
  | .ok source =>
    match generate source config with
    | .error e => return .error e
    | .ok generated =>
      match ← replaceFile output generated.source.toUTF8 with
      | .error fault => return .error (.file fault)
      | .ok () => return .ok generated

end MessageCatalog
