import MessageCatalog.Code.Dispatch
import MessageCatalog.Code.Encoder
import MessageCatalog.Source.Parse

/-!
# Generating code

The generated code is planned as an outline: the record types and codecs of every message, and an arm per message for
what speaks of all of them. The outline decides what there is, the modules before this one how each part is written.
-/

namespace MessageCatalog

/-- A message whose codec is left out, and the first tag that is to blame. -/
structure Diagnostic where
  message : String
  tag : String
  deriving DecidableEq, Repr, Inhabited

namespace Diagnostic

/-- Why the codec is left out. -/
def reason (d : Diagnostic) : String :=
  s!"no codec for field type `{d.tag}` in this build"

/-- The diagnostic in words. -/
def text (d : Diagnostic) : String :=
  s!"message `{d.message}` skipped: {d.reason}"

end Diagnostic

/-- A part of the generated code. -/
inductive Item where
  | blockRecord (block : Block)
  | blockCodec (block : Block)
  | messageRecord (message : Message)
  | messageCodec (message : Message)
  deriving DecidableEq, Repr, Inhabited

/-- The record types of a message, with their codecs or without. -/
def Message.items (m : Message) (hasCodec : Bool) : List Item :=
  m.blocks.flatMap (fun b => if hasCodec then [.blockRecord b, .blockCodec b] else [.blockRecord b]) ++
    if hasCodec then [.messageRecord m, .messageCodec m] else [.messageRecord m]

/-- What the generated code consists of. -/
structure Outline where
  version : String
  items : List Item
  arms : List Arm
  diagnostics : List Diagnostic
  deriving DecidableEq, Repr, Inhabited

/-- The diagnostics of a template: one for each message whose codec is left out. -/
def Template.diagnostics (t : Template) (disabled : List String) : List Diagnostic :=
  t.messages.filterMap fun m => (m.disabledTag? disabled).map fun tag => ⟨m.name, tag⟩

/-- The arms of some messages, all with a codec but those of the names that are skipped. -/
def armsSkipping (skipped : List String) (messages : List Message) : List Arm :=
  messages.map fun m => ⟨m, !skipped.contains m.name⟩

/-- The outline of the code of a template. A message has codecs among the parts if none of its fields is to blame, and
an arm with a codec if no diagnostic has its name. -/
def Template.outline (t : Template) (disabled : List String) : Outline where
  version := t.version
  items := t.messages.flatMap fun m => m.items (m.disabledTag? disabled).isNone
  arms := armsSkipping ((t.diagnostics disabled).map (·.message)) t.messages
  diagnostics := t.diagnostics disabled

/-- A type name with the part of the template it is made from and the line of that part. -/
structure TypeName where
  name : String
  origin : String
  line : Nat
  deriving DecidableEq, Repr, Inhabited

/-- Checks type names behind those that were seen: none is in use, and none comes twice. -/
def checkTypeNames (seen : List TypeName) : List TypeName → Except Error Unit
  | [] => .ok ()
  | t :: rest =>
    if Naming.shadowsScope t.name then .error (.located t.line (.typeNameTaken t.name t.origin))
    else match seen.find? (·.name == t.name) with
      | some earlier => .error (.duplicate (.generatedType t.name earlier.origin t.origin))
      | none => checkTypeNames (t :: seen) rest

/-- The result of a run of the generator. -/
structure Generated where
  version : String
  code : Code
  messages : Nat
  diagnostics : List Diagnostic
  deriving Inhabited

/-- The generated code as text, behind a line that says where it comes from. -/
def Generated.source (g : Generated) : String :=
  s!"// Generated by msgtemplate from template version {g.version}. Do not edit.\n" ++ g.code.render ++ "\n"

namespace Generator

open Code (of word typeWord literal brace all doc attr)

/-- The names of the record types of a message: its own, then those of its blocks. -/
def messageTypeNames (g : Generator) (m : Message) : List TypeName :=
  ⟨m.name, m.name, m.line⟩ :: m.blocks.map fun b => ⟨g.blockTypeName b, m.name ++ "." ++ b.name, b.line⟩

/-- The names of all record types in order. -/
def typeNames (g : Generator) (t : Template) : List TypeName :=
  t.messages.flatMap g.messageTypeNames

/-- The code of a part. -/
def itemCode (g : Generator) : Item → Code
  | .blockRecord b => g.blockRecord b
  | .blockCodec b =>
    word "impl" ++ g.path ":: Block for" ++ typeWord (g.blockTypeName b) ++ brace (g.blockEncode b ++ g.blockRead b)
  | .messageRecord m => g.messageRecord m
  | .messageCodec m =>
    word "impl" ++ g.path ":: Message for" ++ typeWord m.name ++
      brace (g.messageConstants m ++ g.messageEncode m ++ g.messageRead m)

/-- The code of an outline. -/
def outlineCode (g : Generator) (outline : Outline) : Code :=
  attr "allow" (word "unused_imports") ++ word "use" ++ g.path ":: prelude :: * ;" ++
    doc " Version tag of the template this module was generated from." ++
    of "pub const TEMPLATE_VERSION : & str =" ++ literal outline.version ++ word ";" ++
    all outline.items g.itemCode ++
    g.kinds (outline.arms.map (·.message)) ++ g.instances outline.arms ++ g.dispatch outline.arms

/-- Generates the code of a template. -/
def generate (g : Generator) (t : Template) : Except Error Generated := do
  checkTypeNames [] (g.typeNames t)
  let outline := t.outline g.config.disabled
  return ⟨t.version, g.outlineCode outline, t.messages.length, outline.diagnostics⟩

end Generator

/-- Generates the code of the template that a source declares. The configuration is checked first. -/
def generate (source : String) (config : Config) : Except Error Generated := do
  let generator ← config.toGenerator
  let template ← parse source
  generator.generate template

end MessageCatalog
