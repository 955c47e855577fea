import MessageCatalog.Error
import MessageCatalog.Naming
import MessageCatalog.Template

/-!
# Nothing is declared twice

The names and numbers of the messages of a template are distinct, and so are the field names made from the blocks of a message and
from the fields of a block. The check goes through the template in the order of declaration and reports the first repetition.
-/

namespace MessageCatalog

/-- Checks the fields of a block behind those whose field names were seen. -/
def checkFields (message block : String) (seen : List String) : List Field → Except Error Unit
  | [] => .ok ()
  | f :: rest =>
    let name := Naming.fieldName f.name
    if seen.contains name then .error (.duplicate (.field message block f.name))
    else checkFields message block (name :: seen) rest

/-- Checks the blocks of a message behind those whose field names were seen. -/
def checkBlocks (message : String) (seen : List String) : List Block → Except Error Unit
  | [] => .ok ()
  | b :: rest =>
    let name := Naming.fieldName b.name
    if seen.contains name then .error (.duplicate (.block message b.name))
    else match checkFields message b.name [] b.fields with
      | .error e => .error e
      | .ok () => checkBlocks message (name :: seen) rest

/-- Checks the messages of a template behind those that were seen. -/
def checkMessages (seen : List Message) : List Message → Except Error Unit
  | [] => .ok ()
  | m :: rest =>
    if seen.any (·.name == m.name) then .error (.duplicate (.messageName m.name))
    else match seen.find? (·.number == m.number) with
      | some earlier => .error (.duplicate (.messageNumber m.number earlier.name m.name))
      | none => match checkBlocks m.name [] m.blocks with
        | .error e => .error e
        | .ok () => checkMessages (m :: seen) rest

/-- Checks that a template declares nothing twice. -/
def Template.checkUnique (t : Template) : Except Error Unit :=
  checkMessages [] t.messages

end MessageCatalog
