/-
# TOML: tables under construction

A document defines its tables piece by piece.  Each table remembers how it came about, because that
decides what may still be added to it: a table that is merely implied by the header of a table below
it can be opened by a header of its own, once; a table that dotted keys made can be extended by
dotted keys of the same section only; a value, inline tables included, can never be extended.  In a
dialect whose tables stay open, dotted keys extend every table.
-/
import CrateBump.Document.Toml.Lexical

namespace CrateBump.Toml

/-- How a table came about. -/
inductive Origin where
  /-- By the header of a table below it. -/
  | implied
  /-- By its own header. -/
  | header
  /-- By dotted keys, after this many headers. -/
  | dotted (headers : Nat)
  deriving DecidableEq, Repr

/-- What a key holds while the document is read. -/
inductive Entry where
  | leaf (v : Value)
  | table (origin : Origin) (entries : List (Text × Entry))
  /-- The tables of an array that headers in double brackets made, in order. -/
  | tables (items : List (List (Text × Entry)))

/-- The entries of a table under construction. -/
abbrev Entries := List (Text × Entry)

/-- The entries with another entry for a key that is there. -/
def replaceEntry (es : Entries) (key : Text) (e : Entry) : Entries :=
  es.map fun (k, old) => (k, if k = key then e else old)

/-- The origin of a table after a dotted key went through it, if one may.  `current` is the number of
headers read.  Where tables stay open, the second dotted key settles a table as a header does. -/
def Origin.throughDot (d : Dialect) (current : Nat) (o : Origin) : Option Origin :=
  if d.openTables then some .header
  else match o with
    | .implied => some .implied
    | .header => none
    | .dotted n => if n = current then some o else none

/-- The origin of a table that a dotted key makes. -/
def Origin.byDot (d : Dialect) (current : Nat) : Origin :=
  if d.openTables then .implied else .dotted current

mutual

/-- The entry for a value.  Where tables stay open, inline tables are tables like others. -/
def Entry.ofValue (d : Dialect) : Value → Entry
  | .table es => if d.openTables then .table .header (entriesOf d es) else .leaf (.table es)
  | v => .leaf v

/-- The entries for the values of an inline table. -/
def entriesOf (d : Dialect) : List (Text × Value) → List (Text × Entry)
  | [] => []
  | (k, v) :: rest => (k, Entry.ofValue d v) :: entriesOf d rest

end

/-- Changes the last of the tables of an array. -/
def onLast (f : Entries → Option Entries) (items : List Entries) : Option (List Entries) :=
  match items.getLast? with
  | none => none
  | some last => (f last).map fun changed => items.dropLast ++ [changed]

/-- Gives a value to a key that is there.  Where tables stay open, a table that is merely implied
survives, and the value is dropped; an inline table is refused. -/
def reassign (d : Dialect) (v : Value) (k : Text) (es : Entries) : Option Entries :=
  match es.lookup k with
  | some (.table .implied sub) =>
    if d.openTables && !v.isTable then some (replaceEntry es k (.table .header sub)) else none
  | _ => none

/-- Gives a value to a dotted key, which must be new. -/
def assign (d : Dialect) (current : Nat) (v : Value) : (key : List Text) → Entries → Option Entries
  | [], _ => none
  | [k], es =>
    if (es.lookup k).isNone then some (es ++ [(k, Entry.ofValue d v)]) else reassign d v k es
  | k :: rest, es =>
    match es.lookup k with
    | none =>
      (assign d current v rest []).map fun sub => es ++ [(k, .table (.byDot d current) sub)]
    | some (.table origin sub) =>
      match origin.throughDot d current with
      | none => none
      | some origin =>
        (assign d current v rest sub).map fun sub => replaceEntry es k (.table origin sub)
    | some (.tables items) =>
      if d.openTables then
        (onLast (assign d current v rest) items).map fun items => replaceEntry es k (.tables items)
      else none
    | some (.leaf _) => none

/-- Changes the table that a header path leads to; missing tables on the way are implied. -/
def descend (f : Entries → Option Entries) : (path : List Text) → Entries → Option Entries
  | [], es => f es
  | k :: rest, es =>
    match es.lookup k with
    | none => (descend f rest []).map fun sub => es ++ [(k, .table .implied sub)]
    | some (.table origin sub) =>
      (descend f rest sub).map fun sub => replaceEntry es k (.table origin sub)
    | some (.tables items) =>
      (onLast (descend f rest) items).map fun items => replaceEntry es k (.tables items)
    | some (.leaf _) => none

/-- Opens the table `k` of some entries by its header. -/
def openTable (k : Text) (es : Entries) : Option Entries :=
  match es.lookup k with
  | none => some (es ++ [(k, .table .header [])])
  | some (.table .implied sub) => some (replaceEntry es k (.table .header sub))
  | some _ => none

/-- Adds a table to the array `k` of some entries. -/
def addTable (k : Text) (es : Entries) : Option Entries :=
  match es.lookup k with
  | none => some (es ++ [(k, .tables [[]])])
  | some (.tables items) => some (replaceEntry es k (.tables (items ++ [[]])))
  | some _ => none

mutual

/-- The finished value of an entry. -/
def Entry.toValue : Entry → Value
  | .leaf v => v
  | .table _ es => .table (valuesOf es)
  | .tables items => .array (tablesOf items)

/-- The finished entries of a table. -/
def valuesOf : List (Text × Entry) → List (Text × Value)
  | [] => []
  | (k, e) :: rest => (k, e.toValue) :: valuesOf rest

/-- The finished tables of an array. -/
def tablesOf : List (List (Text × Entry)) → List Value
  | [] => []
  | es :: rest => .table (valuesOf es) :: tablesOf rest

end

end CrateBump.Toml
