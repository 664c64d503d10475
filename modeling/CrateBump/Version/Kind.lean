/-
# Kinds of bump

A kind names the component of a version that a bump increments.  Kinds are written as words, in any
case, or as integer codes; a code that names no component is kept so that it can be reported.
-/
import CrateBump.Cause
import CrateBump.Decimal
import CrateBump.Text.Lowercase
import CrateBump.Text.Quoted

namespace CrateBump

/-- Which version component a bump increments. -/
inductive Kind where
  | major
  | minor
  | patch
  /-- A code that names no component. -/
  | unknown (code : Int)
  deriving DecidableEq, Repr

namespace Kind

/-- The kind with an integer code: 1 major, 2 minor, 3 patch. -/
def ofCode (code : Int) : Kind :=
  if code = 1 then major else if code = 2 then minor else if code = 3 then patch else unknown code

/-- The integer code of a kind. -/
def code : Kind → Int
  | major => 1
  | minor => 2
  | patch => 3
  | unknown code => code

/-- The name of a kind. -/
def name : Kind → Text
  | major => ascii "major"
  | minor => ascii "minor"
  | patch => ascii "patch"
  | unknown code => ascii "Kind(" ++ Decimal.ofInt code ++ ascii ")"

/-- The kind a word names, in any mix of upper and lower case. -/
def ofWord? (word : Text) : Option Kind :=
  let lowered := Text.lower word
  if lowered = ascii "major" then some major
  else if lowered = ascii "minor" then some minor
  else if lowered = ascii "patch" then some patch
  else none

/-- The message for a word that names no kind. -/
def refusal (word : Text) : Text :=
  Cause.invalidKind.message ++ ascii ": " ++ Text.quoted word
    ++ ascii " (expected major, minor or patch)"

end Kind

end CrateBump
