/-
# Values of configuration documents

What a document in one of the supported notations says, whichever notation it is written in.  The
entries of a table stand in the order in which they are written; a program that keeps tables without
an order visits them in any.
-/
import CrateBump.Document.Binary64

namespace CrateBump

/-- How much of a date and time a moment gives. -/
inductive MomentKind where
  | offsetDateTime
  | localDateTime
  | localDate
  | localTime
  deriving DecidableEq, Repr

/-- A value in a document. -/
inductive Value where
  | text (t : Text)
  | integer (n : Int)
  | float (x : Binary64)
  | boolean (b : Bool)
  | moment (kind : MomentKind)
  | null
  | array (items : List Value)
  | table (entries : List (Text × Value))

namespace Value

/-- The empty table. -/
def empty : Value := table []

/-- The entries of a table; other values have none. -/
def entries : Value → List (Text × Value)
  | table es => es
  | _ => []

/-- Whether the value is a table. -/
def isTable : Value → Bool
  | table _ => true
  | _ => false

/-- Whether the value is null. -/
def isNull : Value → Bool
  | null => true
  | _ => false

end Value

/-- An order in which the entries of a table are visited. -/
structure KeyOrder where
  visit : List (Text × Value) → List (Text × Value)
  perm : ∀ entries, (visit entries).Perm entries

namespace KeyOrder

/-- Entries are visited as they are written. -/
def written : KeyOrder := ⟨id, .refl⟩

/-- A table with its entries as they are visited; other values stay. -/
def table (order : KeyOrder) : Value → Value
  | .table es => .table (order.visit es)
  | v => v

/-- A document with its entries, and those of the tables in it, as they are visited. -/
def document (order : KeyOrder) (v : Value) : Value :=
  .table (order.visit (v.entries.map fun (key, inner) => (key, order.table inner)))

end KeyOrder

end CrateBump
