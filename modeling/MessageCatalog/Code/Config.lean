import MessageCatalog.Code.Lexer
import MessageCatalog.Error
import MessageCatalog.Template

/-!
# Configuration of the generator

What the generated code is shaped by: the path at which it finds its support code, the text that joins message and block names,
and the field types that the target has no codec for.
-/

namespace MessageCatalog

/-- The choices of a run of the generator. -/
structure Config where
  /-- The path through which generated code reaches its support code. -/
  runtimePath : String := "::msgtemplate::runtime"
  /-- What stands between the names of a message and a block in the name of a record type. -/
  separator : String := "_"
  /-- The tags of the field types without a codec. -/
  disabled : List String := []
  deriving DecidableEq, Repr, Inhabited

/-- The tags of the field types without a codec in order, each once. -/
def Config.disabledTags (config : Config) : List String :=
  (config.disabled.mergeSort fun a b => !decide (b < a)).eraseReps

/-- A configuration that can be used, with the path as code. -/
structure Generator where
  config : Config
  runtime : Code
  deriving Inhabited

/-- Checks a configuration: the path is not blank and can be read, and the separator can stand in an identifier. -/
def Config.toGenerator (config : Config) : Except Error Generator :=
  let path := Text.trim config.runtimePath.toList
  if path.isEmpty then .error (.config .emptyPath)
  else match Code.read? (String.ofList path) with
    | none => .error (.config (.unreadablePath (String.ofList path)))
    | some runtime =>
      if Naming.isFragment config.separator then .ok ⟨config, runtime⟩
      else .error (.config (.badSeparator config.separator))

namespace Generator

/-- A path into the support code. -/
def path (g : Generator) (rest : String) : Code :=
  g.runtime ++ Code.of rest

/-- The name of the record type of a block. -/
def blockTypeName (g : Generator) (b : Block) : String :=
  Naming.blockTypeName b.message b.name g.config.separator

end Generator

end MessageCatalog
