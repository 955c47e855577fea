import MessageCatalog.Frequency
import MessageCatalog.Source.Scan

/-!
# Errors

Everything that can be wrong with a template, with the configuration of the generator or with a file, each as a cause of its own.
The wording stands in one place: `Error.message`.
-/

namespace MessageCatalog

/-- The kinds of lines a template is made of. -/
inductive LineKind where
  | messageHeader
  | blockHeader
  | fieldLine
  deriving DecidableEq, Repr, Inhabited

/-- The kind of a line in words. -/
def LineKind.name : LineKind → String
  | messageHeader => "message header"
  | blockHeader => "block header"
  | fieldLine => "field line"

/-- What can be wrong at a line of a template. -/
inductive Issue where
  | emptyTemplate
  | nothingToClose
  | outsideRegion (text : String)
  | neverClosed
  | emptyRegion
  | fieldBeforeBlock
  | malformed (kind : LineKind) (text : String) (mismatch : Mismatch)
  | reservedName (name : String)
  | idOutOfRange (numeral : String)
  | idTooSmall (numeral : String) (frequency : Frequency)
  | idTooLarge (numeral : String) (frequency : Frequency)
  | repeatCountOutOfRange (numeral : String)
  | tooManyRepeats (block : String) (count : Nat)
  | missingRepeatCount (block : String)
  | needlessRepeatCount (quantity block : String)
  | fieldCountOutOfRange (numeral : String)
  | emptyFixedField (field : String)
  | fixedFieldTooLong (field : String) (size : Nat)
  | typeNameTaken (typeName origin : String)
  | unknownType (tag field : String)
  | unsupportedQuantity (block quantity : String)
  | unsupportedFrequency (message frequency : String)
  deriving DecidableEq, Repr, Inhabited

/-- The largest number of records a multiple block may declare. -/
def maxRepeatCount : Nat := 255

/-- The largest number of bytes a fixed field may declare. -/
def maxFixedSize : Nat := 0xFFFF

/-- The issue in words. -/
def Issue.message : Issue → String
  | emptyTemplate => "empty template: missing version line"
  | nothingToClose => "unbalanced `\x7d`: no open region to close"
  | outsideRegion text => s!"`{text}` outside of a message region"
  | neverClosed => "unbalanced `\x7b`: message region is never closed"
  | emptyRegion => "empty message region: missing message header"
  | fieldBeforeBlock => "field line before any block header"
  | malformed kind text mismatch =>
    let column := mismatch.column text
    s!"malformed {kind.name} `{text}` at column {column}: expected " ++ Expectation.describe mismatch.expected
  | reservedName name => s!"message name `{name}` is a reserved word"
  | idOutOfRange numeral => s!"message id `{numeral}` is out of range"
  | idTooSmall numeral frequency =>
    s!"message id {numeral} is below {Numeral.hex frequency.minId}, the smallest {frequency.name} id"
  | idTooLarge numeral frequency =>
    s!"message id {numeral} exceeds {Numeral.hex frequency.maxId}, the largest {frequency.name} id"
  | repeatCountOutOfRange numeral => s!"repeat count `{numeral}` is out of range"
  | tooManyRepeats block count =>
    s!"Multiple block `{block}` repeats {count} times, at most {maxRepeatCount} are allowed"
  | missingRepeatCount block => s!"Multiple block `{block}` needs a positive repeat count"
  | needlessRepeatCount quantity block => s!"{quantity} block `{block}` must not carry a repeat count"
  | fieldCountOutOfRange numeral => s!"field count `{numeral}` is out of range"
  | emptyFixedField field => s!"Fixed field `{field}` needs a positive byte count"
  | fixedFieldTooLong field size => s!"Fixed field `{field}` is {size} bytes long, at most {maxFixedSize} are allowed"
  | typeNameTaken typeName origin => s!"type name `{typeName}` of `{origin}` clashes with a generated name"
  | unknownType tag field => s!"unknown protocol type `{tag}` for field `{field}`"
  | unsupportedQuantity block quantity => s!"unsupported quantity `{quantity}` for block `{block}`"
  | unsupportedFrequency message frequency => s!"unsupported frequency `{frequency}` for message `{message}`"

/-- Two things that may not be the same, and are. -/
inductive Clash where
  | messageName (name : String)
  | messageNumber (number : Nat) (earlier later : String)
  | block (message block : String)
  | field (message block field : String)
  | generatedType (typeName earlier later : String)
  deriving DecidableEq, Repr, Inhabited

/-- The clash in words. -/
def Clash.message : Clash → String
  | messageName name => s!"message name: {name}"
  | messageNumber number earlier later => s!"message number: {Numeral.hexWord number} ({earlier} and {later})"
  | block m b => s!"block: {m}.{b}"
  | field m b f => s!"field: {m}.{b}.{f}"
  | generatedType typeName earlier later => s!"generated type: {typeName} ({earlier} and {later})"

/-- What can be wrong with the configuration of the generator. -/
inductive ConfigFault where
  | emptyPath
  | unreadablePath (path : String)
  | badSeparator (separator : String)
  deriving DecidableEq, Repr, Inhabited

/-- The fault in words. -/
def ConfigFault.message : ConfigFault → String
  | emptyPath => "runtime path is empty"
  | unreadablePath path => s!"runtime path `{path}` is not a Rust path: cannot parse string into token stream"
  | badSeparator separator => s!"block separator `{separator}` cannot appear in an identifier"

/-- What can be wrong with a file. -/
inductive FileFault where
  | notFound
  | notDirectory
  | isDirectory
  | busy
  | nameTooLong
  | invalidArgument
  | notText
  /-- A path to be opened has a NUL character, at which the system would end it. -/
  | nulInName
  /-- Any other fault, in the words of the system. -/
  | other (text : String)
  deriving DecidableEq, Repr, Inhabited

/-- The fault in words. -/
def FileFault.message : FileFault → String
  | notFound => "No such file or directory (os error 2)"
  | notDirectory => "Not a directory (os error 20)"
  | isDirectory => "Is a directory (os error 21)"
  | busy => "Device or resource busy (os error 16)"
  | nameTooLong => "File name too long (os error 36)"
  | invalidArgument => "Invalid argument (os error 22)"
  | nulInName => "file name contained an unexpected NUL byte"
  | notText => "stream did not contain valid UTF-8"
  | other text => text

/-- An error of the library. -/
inductive Error where
  /-- Something is wrong at a line of the template. Line 0 stands for a template without lines. -/
  | located (line : Nat) (issue : Issue)
  /-- Something is declared twice. -/
  | duplicate (clash : Clash)
  /-- The generator cannot be set up. -/
  | config (fault : ConfigFault)
  /-- A file cannot be read or written. -/
  | file (fault : FileFault)
  deriving DecidableEq, Repr, Inhabited

namespace Error

/-- The error in words. -/
def message : Error → String
  | located line issue => s!"line {line}: {issue.message}"
  | duplicate clash => s!"duplicate {clash.message}"
  | config fault => s!"invalid generator configuration: {fault.message}"
  | file fault => s!"IO: {fault.message}"

/-- The line of the template that the error points at. -/
def line? : Error → Option Nat
  | located line _ => some line
  | _ => none

end Error

end MessageCatalog
