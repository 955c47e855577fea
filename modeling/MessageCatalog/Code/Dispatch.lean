import MessageCatalog.Code.Decoder

/-!
# The type of all messages

One type enumerates the messages, another holds any one of them, and a function reads the message that a number names. A message
without a codec has its place in all three: to write or read it fails.
-/

namespace MessageCatalog

open Code (of word typeWord literal number paren bracket brace all doc attr commaSeparated)

/-- A message in the enumeration of all messages, with or without a codec. -/
structure Arm where
  message : Message
  hasCodec : Bool
  deriving DecidableEq, Repr, Inhabited

namespace Generator

/-- A variant of the enumeration of messages. -/
def kindOf (m : Message) : Code :=
  of "MessageType ::" ++ typeWord m.name

/-- A variant of the type of message values. -/
def instanceOf (m : Message) : Code :=
  of "MessageInstance ::" ++ typeWord m.name

/-- A function of the enumeration of messages that has a value for each. -/
def kindFunction (name : String) (type : Code) (messages : List Message) (value : Message → Code) : Code :=
  of "pub fn" ++ word name ++ paren (word "self") ++ word "->" ++ type ++
    brace (of "match self" ++ brace (all messages fun m => kindOf m ++ word "=>" ++ value m ++ word ","))

/-- The enumeration of messages. -/
def kinds (g : Generator) (messages : List Message) : Code :=
  doc " Kind of a message, without its payload." ++ attr "derive" (of "Clone , Copy , Debug , PartialEq , Eq , Hash") ++
    of "pub enum MessageType" ++ brace (all messages fun m => typeWord m.name ++ word ",") ++
    of "impl MessageType" ++ brace (
      doc " Every message type in template order." ++ of "pub const ALL : & 'static" ++ bracket (word "MessageType") ++
      of "= &" ++ bracket (commaSeparated (messages.map kindOf)) ++ word ";" ++
      kindFunction "name" (of "& 'static str") messages (fun m => literal m.name) ++
      doc " Identifier bytes read as a big-endian integer; the key of [`dispatch`]." ++
      kindFunction "number" (word "u32") messages (fun m => number m.number) ++
      kindFunction "frequency" (g.path ":: Frequency") messages (fun m => g.path ":: Frequency ::" ++ word m.frequency.name) ++
      kindFunction "trust" (of "& 'static str") messages (fun m => literal m.trust) ++
      kindFunction "encoding" (of "& 'static str") messages (fun m => literal m.encoding) ++
      of "pub fn from_number" ++ paren (of "number : u32") ++ of "-> Option < MessageType >" ++
      brace (of "match number" ++ brace (
        all messages (fun m => number m.number ++ of "=> Some" ++ paren (kindOf m) ++ word ",") ++ of "_ => None ,")))

/-- What writes a message value: its codec, or a failure. -/
def writeArm (g : Generator) (arm : Arm) : Code :=
  if arm.hasCodec then
    instanceOf arm.message ++ paren (of "ref message") ++ word "=>" ++ g.path ":: Message :: write_to" ++
      paren (of "message , sink") ++ word ","
  else
    instanceOf arm.message ++ paren (word "_") ++ of "=> Err" ++
      paren (g.path ":: WriteError :: Unsupported" ++ brace (of "message :" ++ literal arm.message.name)) ++ word ","

/-- What reads the message of a number: its codec, or a failure. -/
def readArm (g : Generator) (arm : Arm) : Code :=
  if arm.hasCodec then
    number arm.message.number ++ of "=> Ok" ++ paren (instanceOf arm.message ++ paren (
      word "<" ++ typeWord arm.message.name ++ word "as" ++ g.path ":: Message > :: read_from" ++ paren (word "source") ++
        word "?")) ++
      word ","
  else
    number arm.message.number ++ of "=> Err" ++
      paren (g.path ":: ReadError :: Unsupported" ++ brace (of "message :" ++ literal arm.message.name)) ++ word ","

/-- The type of message values. -/
def instances (g : Generator) (arms : List Arm) : Code :=
  doc " Any one decoded message." ++ derives ++
    of "pub enum MessageInstance" ++ brace (all arms fun arm =>
      typeWord arm.message.name ++ paren (typeWord arm.message.name) ++ word ",") ++
    of "impl MessageInstance" ++ brace (
      of "pub fn message_type" ++ paren (of "& self") ++ of "-> MessageType" ++ brace (of "match * self" ++
        brace (all arms fun arm => instanceOf arm.message ++ paren (word "_") ++ word "=>" ++ kindOf arm.message ++ word ",")) ++
      doc " Write identifier and body to `sink` in a single write." ++
      of "pub fn write_to < W : :: std :: io :: Write + ? Sized >" ++
      paren (of "& self ," ++ word (if arms.isEmpty then "_sink" else "sink") ++ of ": & mut W") ++
      of "-> Result <" ++ paren [] ++ word "," ++ g.path ":: WriteError >" ++
      brace (of "match * self" ++ brace (all arms g.writeArm)) ++
      doc " Read an identifier from `source`, then the body of the message it names." ++
      of "pub fn read_from" ++ sourceBound ++ paren (of "source : & mut R") ++ of "-> Result < MessageInstance ," ++
      g.path ":: ReadError >" ++ brace (
        of "let number =" ++ g.path ":: read_message_number" ++ paren (word "source") ++ of "? ;" ++
        word "dispatch" ++ paren (of "number , source"))) ++
    all arms fun arm =>
      of "impl From <" ++ typeWord arm.message.name ++ of "> for MessageInstance" ++ brace (
        of "fn from" ++ paren (of "message :" ++ typeWord arm.message.name) ++ of "-> Self" ++
        brace (instanceOf arm.message ++ paren (word "message")))

/-- The function that reads the message of a number. -/
def dispatch (g : Generator) (arms : List Arm) : Code :=
  doc " Read the body of message `number` from `source`. The identifier must already" ++
    doc " have been consumed. Unknown numbers fail without reading anything." ++
    of "pub fn dispatch" ++ sourceBound ++
    paren (of "number : u32 ," ++ word (if arms.isEmpty then "_source" else "source") ++ of ": & mut R") ++
    of "-> Result < MessageInstance ," ++ g.path ":: ReadError >" ++ brace (of "match number" ++ brace (
      all arms g.readArm ++ of "other => Err" ++ paren (g.path ":: ReadError :: UnknownMessageNumber" ++ paren (word "other")) ++
      word ","))

end Generator

end MessageCatalog
