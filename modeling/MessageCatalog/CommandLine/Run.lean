import MessageCatalog.CommandLine.Options
import MessageCatalog.Files.Compile

/-!
# A run of the command line

The command lists the messages of a template, or generates code to an output file or to its output. An error is reported with what
was being done and with its causes.
-/

namespace MessageCatalog.CommandLine

/-- What a run leaves behind: its exit code, and what it wrote. -/
structure Outcome where
  exitCode : Nat
  output : String
  errors : String
  deriving DecidableEq, Repr, Inhabited

/-- A run that succeeds with some output. -/
def Outcome.success (output : String) : Outcome := ⟨0, output, ""⟩

/-- The text with every line after the first behind some blanks. -/
def indentLines (width : Nat) (text : String) : String :=
  String.ofList (text.toList.flatMap fun c => if c = '\n' then '\n' :: List.replicate width ' ' else [c])

/-- A list of causes: a single one by itself, several ones numbered from 0. -/
def describeCauses : List String → String
  | [cause] => "    " ++ indentLines 4 cause ++ "\n"
  | causes => String.join (causes.zipIdx.map fun (cause, index) => s!"    {index}: " ++ indentLines 7 cause ++ "\n")

/-- The report of a failed run. -/
def failure (doing : String) (causes : List String) : Outcome :=
  ⟨1, "", s!"Error: {doing}\n\nCaused by:\n" ++ describeCauses causes⟩

/-- The causes of an error: a fault of a file is the cause of the error about it. -/
def causesOf : Error → List String
  | .file fault => [(Error.file fault).message, fault.message]
  | e => [e.message]

/-- The line that lists a message. -/
def messageLine (m : Message) : String :=
  s!"  {Numeral.hexWord m.number} {m.name} {m.frequency.name} {m.blocks.length} blocks, {m.fieldCount} fields\n"

/-- The list of the messages of a template. -/
def listing (path : String) (t : Template) : String :=
  s!"{path}: version {t.version}, {t.messages.length} messages\n" ++ String.join (t.messages.map messageLine)

variable {m : Type → Type} {Handle : Type} [Monad m] [FileAccess m Handle]

/-- Lists the messages of a template file. -/
def runCheck (template : String) : m Outcome := do
  match ← checkFile template with
  | .error e => return failure s!"checking {template}" (causesOf e)
  | .ok t => return .success (listing template t)

/-- Generates code from a template file into an output file. -/
def runToFile (template output : String) (config : Config) : m Outcome := do
  match ← generateFile template output config with
  | .error e => return failure s!"generating {output}" (causesOf e)
  | .ok _ => return .success ""

/-- Generates code from a template file and puts it out. -/
def runToOutput (template : String) (config : Config) : m Outcome := do
  match ← readText template with
  | .error fault => return failure s!"reading {template}" [fault.message]
  | .ok source =>
    match generate source config with
    | .error e => return failure s!"compiling {template}" (causesOf e)
    | .ok generated => return .success generated.source

/-- The name and version of the command. -/
def versionText : String := "msgtemplate 0.1.0\n"

/-- The form of a call of the command. -/
def usageText : String := "Usage: msgtemplate [OPTIONS] <TEMPLATE>\n"

/-- How the command is used. -/
def helpText : String :=
  "Compiler for message template catalogs: typed message records with exact binary readers/writers\n\n" ++ usageText ++
  "\nArguments:\n" ++
  "  <TEMPLATE>  Template file to compile\n" ++
  "\nOptions:\n" ++
  "  -o, --output <OUTPUT>              Output file (stdout when omitted)\n" ++
  "      --runtime-path <RUNTIME_PATH>  Path through which generated code reaches the runtime module " ++
  "[default: ::msgtemplate::runtime]\n" ++
  "      --separator <SEPARATOR>        Separator between message and block names in block type names [default: _]\n" ++
  "      --disable <TAG>                Type tag without a codec in the target build (repeatable)\n" ++
  "      --check                        Only parse the template and list its messages\n" ++
  "  -v, --verbose                      Enable debug logging\n" ++
  "  -h, --help                         Print help\n" ++
  "  -V, --version                      Print version\n"

/-- Runs the command for some arguments. -/
def run (arguments : List String) : m Outcome :=
  match readOptions arguments with
  | .error .usage => return ⟨2, "", usageText⟩
  | .error .version => return .success versionText
  | .error .help => return .success helpText
  | .ok options =>
    if options.check then runCheck options.template
    else match options.output with
      | some output => runToFile options.template output options.config
      | none => runToOutput options.template options.config

end MessageCatalog.CommandLine
