import MessageCatalog.CommandLine.Run

/-!
# The command

The command line over the files of the system.
-/

namespace MessageCatalog

/-- The number that the system gives an error. -/
def systemCode? : IO.Error → Option UInt32
  | .noFileOrDirectory _ code _ => some code
  | .invalidArgument _ code _ => some code
  | .inappropriateType _ code _ => some code
  | .noSuchThing _ code _ => some code
  | .resourceExhausted _ code _ => some code
  | .resourceBusy code _ => some code
  | .illegalOperation code _ => some code
  | .otherError code _ => some code
  | _ => none

/-- The fault that an error of the system stands for. Some errors have their number with the opposite sign. -/
def FileFault.ofSystem (e : IO.Error) : FileFault :=
  match (systemCode? e).map fun code => if code < 0x80000000 then code else 0 - code with
  | some 2 => .notFound
  | some 16 => .busy
  | some 20 => .notDirectory
  | some 21 => .isDirectory
  | some 22 => .invalidArgument
  | some 36 => .nameTooLong
  | _ => .other (toString e)

/-- Runs a step on the files of the system. -/
def attempt {α : Type} (step : IO α) : IO (Except FileFault α) := do
  match ← step.toBaseIO with
  | .ok a => return .ok a
  | .error e => return .error (FileFault.ofSystem e)

/-- A path from the root for a fresh file in a directory. -/
def freshPath (directory : String) : IO String := do
  let current := (← IO.currentDir).toString
  let digits := (toString (← IO.monoNanosNow)).toList
  return (if directory.startsWith "/" then "" else current ++ "/") ++ directory ++ "/.tmp" ++
    String.ofList (digits.drop (digits.length - 6))

/-- Access to the files of the system. The handle of a fresh file is its path. -/
instance : FileAccess IO String where
  readFile path := attempt (IO.FS.readBinFile path)
  createFresh directory := attempt do
    let path ← freshPath directory
    let _ ← IO.FS.Handle.mk path .writeNew
    return path
  fill path content := attempt (IO.FS.writeBinFile path content)
  moveTo path target := attempt (IO.FS.rename path target)
  discard path := do
    let _ ← attempt (IO.FS.removeFile path)

end MessageCatalog

/-- Runs the command and returns its exit code. -/
def main (arguments : List String) : IO UInt32 := do
  let outcome ← (MessageCatalog.CommandLine.run arguments : IO MessageCatalog.CommandLine.Outcome)
  IO.print outcome.output
  IO.eprint outcome.errors
  return UInt32.ofNat outcome.exitCode
