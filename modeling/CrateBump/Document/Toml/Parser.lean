/-
# TOML documents

A document is a sequence of lines, each blank, a header or an assignment.  It is accepted as a whole
or not at all.
-/
import CrateBump.Document.Toml.Scalar
import CrateBump.Document.Toml.Table

namespace CrateBump.Toml

/-! ## Values -/

/-- The text behind gaps inside an inline table. -/
def skipTableGaps (d : Dialect) (t : Text) : Text :=
  if d.looseTables then skipAllGaps t else Text.skipBlanks t

mutual

/-- A value at the front, and what follows it. -/
def value? (d : Dialect) : (fuel : Nat) → Text → Option (Value × Text)
  | 0, _ => none
  | fuel + 1, t =>
    match t with
    | 34 :: _ => (string? d t).map fun (s, rest) => (.text s, rest)
    | 39 :: _ => (string? d t).map fun (s, rest) => (.text s, rest)
    | 91 :: rest => items? d fuel [] rest
    | 123 :: rest => pairs? d fuel [] true rest
    | _ => scalar? d t

/-- The items of an array behind those read before. -/
def items? (d : Dialect) : (fuel : Nat) → List Value → Text → Option (Value × Text)
  | 0, _, _ => none
  | fuel + 1, before, t =>
    match skipAllGaps t with
    | 93 :: rest => some (.array before, rest)
    | t =>
      match value? d fuel t with
      | none => none
      | some (v, rest) =>
        match skipAllGaps rest with
        | 44 :: rest => items? d fuel (before ++ [v]) rest
        | 93 :: rest => some (.array (before ++ [v]), rest)
        | _ => none

/-- The pairs of an inline table behind those read before; `closes` says whether the table may end
here. -/
def pairs? (d : Dialect) : (fuel : Nat) → Entries → (closes : Bool) → Text → Option (Value × Text)
  | 0, _, _, _ => none
  | fuel + 1, before, closes, t =>
    match skipTableGaps d t with
    | 125 :: rest => if closes then some (.table (valuesOf before), rest) else none
    | t =>
      match key? d t with
      | some (key, 61 :: rest) =>
        match value? d fuel (Text.skipBlanks rest) with
        | none => none
        | some (v, rest) =>
          match assign d 0 v key before with
          | none => none
          | some es =>
            match skipTableGaps d rest with
            | 44 :: rest => pairs? d fuel es d.looseTables rest
            | 125 :: rest => some (.table (valuesOf es), rest)
            | _ => none
      | _ => none

end

/-! ## Lines -/

/-- A document while it is read. -/
structure Draft where
  entries : Entries
  /-- The table that assignments go to. -/
  path : List Text
  /-- How many headers were read. -/
  headers : Nat

/-- A header between brackets, from behind the opening ones: its key, and the next line. -/
def header? (d : Dialect) (double : Bool) (t : Text) : Option (List Text × Text) :=
  match key? d t with
  | some (key, 93 :: rest) =>
    if double then
      match rest with
      | 93 :: rest => (endOfLine? rest).map fun rest => (key, rest)
      | _ => none
    else (endOfLine? rest).map fun rest => (key, rest)
  | _ => none

/-- The draft after a header. -/
def Draft.openHeader (draft : Draft) (double : Bool) (key : List Text) : Option Draft :=
  match key.getLast? with
  | none => none
  | some last =>
    (descend (if double then addTable last else openTable last) key.dropLast draft.entries).map
      fun es => ⟨es, key, draft.headers + 1⟩

/-- An assignment: its key and value, and the next line. -/
def assignment? (d : Dialect) (t : Text) : Option (List Text × Value × Text) :=
  match key? d t with
  | some (key, 61 :: rest) =>
    match value? d (2 * rest.length + 2) (Text.skipBlanks rest) with
    | none => none
    | some (v, rest) => (endOfLine? rest).map fun rest => (key, v, rest)
  | _ => none

/-- The draft after the next line, and the text behind that line. -/
def Draft.line (d : Dialect) (draft : Draft) (t : Text) : Option (Draft × Text) :=
  match t with
  | 91 :: 91 :: rest => do
    let (key, rest) ← header? d true rest
    let draft ← draft.openHeader true key
    pure (draft, rest)
  | 91 :: rest => do
    let (key, rest) ← header? d false rest
    let draft ← draft.openHeader false key
    pure (draft, rest)
  | _ => do
    let (key, v, rest) ← assignment? d t
    let es ← descend (assign d draft.headers v key) draft.path draft.entries
    pure ({ draft with entries := es }, rest)

/-- The draft after all lines. -/
def Draft.lines (d : Dialect) : (fuel : Nat) → Draft → Text → Option Draft
  | 0, _, _ => none
  | fuel + 1, draft, t =>
    match skipAllGaps t with
    | [] => some draft
    | t =>
      match draft.line d t with
      | none => none
      | some (draft, rest) => Draft.lines d fuel draft rest

/-- The text behind a mark of the byte order. -/
def skipMark (t : Text) : Text :=
  match t with
  | 0xEF :: 0xBB :: 0xBF :: rest => rest
  | 0xFF :: 0xFE :: rest => rest
  | 0xFE :: 0xFF :: rest => rest
  | _ => t

/-- The table a document describes. -/
def parse? (d : Dialect) (t : Text) : Option Value :=
  let t := if d.skipsMark then skipMark t else t
  if Text.isUtf8 t && controlsOk t then
    (Draft.lines d (t.length + 1) ⟨[], [], 0⟩ t).map fun draft => .table (valuesOf draft.entries)
  else none

end CrateBump.Toml
