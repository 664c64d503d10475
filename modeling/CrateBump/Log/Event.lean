/-
# Log events

An event has a level, fields in the order they were given, and a message.  Levels are ordered, and a
level name that is not known means `warn`.
-/
import CrateBump.Text.Lowercase

namespace CrateBump.Log

/-- The weight of an event. -/
inductive Level where
  | debug
  | info
  | warn
  | error
  deriving DecidableEq, Repr

namespace Level

/-- The place of a level in the order. -/
def rank : Level → Nat
  | debug => 0
  | info => 1
  | warn => 2
  | error => 3

/-- The name of a level. -/
def name : Level → Text
  | debug => ascii "debug"
  | info => ascii "info"
  | warn => ascii "warn"
  | error => ascii "error"

/-- The level with a name, in any case; unknown names mean `warn`. -/
def ofName (name : Text) : Level :=
  let lowered := Text.lower name
  if lowered = ascii "debug" then debug
  else if lowered = ascii "info" then info
  else if lowered = ascii "error" then error
  else warn

end Level

/-- The value of a field. -/
inductive FieldValue where
  | text (t : Text)
  | number (n : Nat)
  | texts (ts : List Text)
  deriving DecidableEq, Repr

/-- A named value. -/
structure Field where
  name : Text
  value : FieldValue
  deriving DecidableEq, Repr

/-- A field that holds text. -/
def Field.ofText (name : String) (t : Text) : Field := ⟨ascii name, .text t⟩

/-- Something to be logged. -/
structure Event where
  level : Level
  fields : List Field
  message : Text
  deriving DecidableEq, Repr

end CrateBump.Log
