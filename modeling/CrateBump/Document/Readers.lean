/-
# Readers of other notations

Some notations are read by libraries.  What these make of a document is a parameter; so is the order
in which a table's entries are visited, which no program can rely on.
-/
import CrateBump.Document.Value
import CrateBump.Environment

namespace CrateBump

/-- The readers that are relied on. -/
structure Readers where
  /-- The entries of a document in YAML. -/
  yaml : Text → Option (List (Text × Value))
  /-- The assignments in a file of variables, whose values may name variables themselves. -/
  dotenv : Environment → Text → Option (List (Text × Text))
  /-- The order in which the entries of tables are visited. -/
  order : KeyOrder

namespace Readers

/-- No other notation is known, and entries are visited as they are written. -/
def builtIn : Readers := ⟨fun _ => none, fun _ _ => none, .written⟩

end Readers

end CrateBump
