import MessageCatalog.Code.Config

/-!
# Arguments of the command line

The arguments are read from left to right. A value stands behind its option, as an argument of its own or joined by an
equals sign; an argument that starts with a hyphen is never the value of the one before. Two hyphens alone end the
options.
-/

namespace MessageCatalog.CommandLine

/-- What a run of the command is asked to do. -/
structure Options where
  template : String
  output : Option String
  config : Config
  /-- Only to list the messages of the template. -/
  check : Bool
  /-- To log more. A log is no part of the output. -/
  verbose : Bool
  deriving DecidableEq, Repr, Inhabited

/-- Why the command does not run: it is used wrongly, or asked about itself. -/
inductive Halt where
  | usage
  | version
  | help
  deriving DecidableEq, Repr, Inhabited

/-- The options that have a value. -/
inductive ValueOption where
  | output
  | runtimePath
  | separator
  | disable
  deriving DecidableEq, Repr, Inhabited

/-- The options that have none. -/
inductive Flag where
  | check
  | verbose
  | version
  | help
  deriving DecidableEq, Repr, Inhabited

/-- What the arguments have said so far. -/
structure Draft where
  template : Option String := none
  output : Option String := none
  runtimePath : Option String := none
  separator : Option String := none
  disabled : List String := []
  check : Bool := false
  verbose : Bool := false
  deriving DecidableEq, Repr, Inhabited

namespace Draft

/-- Takes the template. There is one, and its path is not empty. -/
def setTemplate (d : Draft) (path : String) : Except Halt Draft :=
  if d.template.isSome || path.isEmpty then .error .usage else .ok { d with template := some path }

/-- Takes the value of an option. Only types can be disabled more than once. -/
def setValue (d : Draft) (option : ValueOption) (value : String) : Except Halt Draft :=
  match option with
  | .output => if d.output.isSome || value.isEmpty then .error .usage else .ok { d with output := some value }
  | .runtimePath => if d.runtimePath.isSome then .error .usage else .ok { d with runtimePath := some value }
  | .separator => if d.separator.isSome then .error .usage else .ok { d with separator := some value }
  | .disable => .ok { d with disabled := d.disabled ++ [value] }

/-- Takes an option without a value. -/
def setFlag (d : Draft) : Flag → Except Halt Draft
  | .check => if d.check then .error .usage else .ok { d with check := true }
  | .verbose => if d.verbose then .error .usage else .ok { d with verbose := true }
  | .version => .error .version
  | .help => .error .help

/-- The options, once all arguments are read. -/
def finish (d : Draft) : Except Halt Options :=
  match d.template with
  | none => .error .usage
  | some template =>
    let default : Config := {}
    .ok ⟨template, d.output,
      ⟨d.runtimePath.getD default.runtimePath, d.separator.getD default.separator, d.disabled⟩, d.check, d.verbose⟩

end Draft

/-- What a long name stands for. -/
def ofLongName? : String → Option (Flag ⊕ ValueOption)
  | "check" => some (.inl .check)
  | "verbose" => some (.inl .verbose)
  | "version" => some (.inl .version)
  | "help" => some (.inl .help)
  | "output" => some (.inr .output)
  | "runtime-path" => some (.inr .runtimePath)
  | "separator" => some (.inr .separator)
  | "disable" => some (.inr .disable)
  | _ => none

/-- What a letter stands for. -/
def ofLetter? : Char → Option (Flag ⊕ ValueOption)
  | 'v' => some (.inl .verbose)
  | 'V' => some (.inl .version)
  | 'h' => some (.inl .help)
  | 'o' => some (.inr .output)
  | _ => none

/-- The draft with an argument read, and the option that waits for its value if there is one. -/
abbrev Progress := Draft × Option ValueOption

/-- Reads a long option, given the characters behind its hyphens. -/
def readLong (d : Draft) (text : List Char) : Except Halt Progress :=
  let name := String.ofList (text.takeWhile (· ≠ '='))
  match ofLongName? name, text.dropWhile (· ≠ '=') with
  | some (.inl flag), [] => (d.setFlag flag).map (·, none)
  | some (.inr option), [] => .ok (d, some option)
  | some (.inr option), _ :: value => (d.setValue option (String.ofList value)).map (·, none)
  | _, _ => .error .usage

/-- Reads letters behind one hyphen. The letter of an option with a value takes all that follows, less an equals sign. -/
def readLetters (d : Draft) : List Char → Except Halt Progress
  | [] => .ok (d, none)
  | letter :: rest =>
    match ofLetter? letter with
    | none => .error .usage
    | some (.inl flag) =>
      match d.setFlag flag with
      | .error halt => .error halt
      | .ok set => readLetters set rest
    | some (.inr option) =>
      match rest with
      | [] => .ok (d, some option)
      | '=' :: value => (d.setValue option (String.ofList value)).map (·, none)
      | value => (d.setValue option (String.ofList value)).map (·, none)

/-- Reads the arguments behind two lone hyphens. -/
def readTemplates (d : Draft) : List String → Except Halt Draft
  | [] => .ok d
  | path :: rest =>
    match d.setTemplate path with
    | .error halt => .error halt
    | .ok set => readTemplates set rest

/-- Reads arguments, while an option may wait for its value. -/
def readArguments (d : Draft) : Option ValueOption → List String → Except Halt Draft
  | none, [] => .ok d
  | some _, [] => .error .usage
  | waiting, argument :: rest =>
    match waiting, argument.toList with
    | some _, '-' :: _ :: _ => .error .usage
    | none, ['-', '-'] => readTemplates d rest
    | none, '-' :: '-' :: text =>
      match readLong d text with
      | .error halt => .error halt
      | .ok (read, next) => readArguments read next rest
    | none, '-' :: letter :: letters =>
      match readLetters d (letter :: letters) with
      | .error halt => .error halt
      | .ok (read, next) => readArguments read next rest
    | some option, _ =>
      match d.setValue option argument with
      | .error halt => .error halt
      | .ok set => readArguments set none rest
    | none, _ =>
      match d.setTemplate argument with
      | .error halt => .error halt
      | .ok set => readArguments set none rest

/-- The options that arguments ask for. -/
def readOptions (arguments : List String) : Except Halt Options := do
  let draft ← readArguments {} none arguments
  draft.finish

end MessageCatalog.CommandLine
