/-
# Paths

Paths are slash-separated texts.  Cleaning is lexical: it drops empty and `.` elements and lets `..`
cancel the element before it, without looking at any file.
-/
import CrateBump.Text.Basic

namespace CrateBump

/-- A path as its elements, from the root or from the current directory. -/
structure Path where
  rooted : Bool
  elements : List Text
  deriving DecidableEq, Repr

namespace Path

/-- The element that stands for the directory itself. -/
def here : Text := [dot]

/-- The element that stands for the parent directory. -/
def up : Text := [dot, dot]

/-- The path a text denotes, element by element. -/
def ofText (t : Text) : Path := ⟨t.head? == some slash, Text.splitOn slash t⟩

/-- The text of a path; without any element it is `/` or `.`. -/
def toText (p : Path) : Text :=
  if p.rooted then slash :: Text.joinWith [slash] p.elements
  else if p.elements.isEmpty then here
  else Text.joinWith [slash] p.elements

/-- The elements kept so far, last one first, after one more element. -/
def keep (rooted : Bool) (kept : List Text) (element : Text) : List Text :=
  if element = [] ∨ element = here then kept
  else if element = up then
    match kept with
    | [] => if rooted then [] else [up]
    | last :: rest => if last = up then up :: kept else rest
  else element :: kept

/-- The path without empty, `.` and cancelled elements. -/
def normal (p : Path) : Path :=
  { p with elements := (p.elements.foldl (keep p.rooted) []).reverse }

/-- The shortest path text that denotes the same path lexically. -/
def clean (t : Text) : Text := (ofText t).normal.toText

/-- The non-empty texts joined by slashes and cleaned; nothing at all if there are none. -/
def join (ts : List Text) : Text :=
  match ts.filter (fun t => !t.isEmpty) with
  | [] => []
  | kept => clean (Text.joinWith [slash] kept)

/-- The last element of a path text, trailing slashes aside. -/
def base (t : Text) : Text :=
  if t = [] then here
  else
    match Text.dropEndWhile (· == slash) t with
    | [] => [slash]
    | body => (body.reverse.takeWhile (· != slash)).reverse

/-- The part of the last element behind its last dot, if it has one. -/
def extension? (t : Text) : Option Text :=
  let last := (t.reverse.takeWhile (· != slash)).reverse
  match (Text.splitOn dot last).reverse with
  | [] => none
  | [_] => none
  | ext :: _ => some ext

/-- A path text made absolute from the directory `cwd` and cleaned. -/
def absolute (cwd t : Text) : Text :=
  if t.head? == some slash then clean t else join [cwd, t]

/-- The elements of one list behind the longest common start of two, for both of them. -/
def dropCommon : List Text → List Text → List Text × List Text
  | a :: as, b :: bs => if a = b then dropCommon as bs else (a :: as, b :: bs)
  | as, bs => (as, bs)

/-- The relative path from one absolute path to another. -/
def relative (base target : Text) : Text :=
  let (out, into) := dropCommon (ofText base).normal.elements (ofText target).normal.elements
  toText ⟨false, out.map (fun _ => up) ++ into⟩

end Path

end CrateBump
