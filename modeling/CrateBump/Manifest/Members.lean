/-
# The members of a workspace

The members are the quoted entries of the first array that is assigned to a key ending in `members`.
Only entries without white space count, and the search for an entry starts again at every quote, so
quotes pair up from left to right as far as they enclose such an entry.
-/
import CrateBump.Text.Basic

namespace CrateBump

/-- The key of the members array. -/
def membersWord : Text := ascii "members"

/-- Behind `members = [` at the front, with any white space around the equals sign: the text that
was recognised and what follows it. -/
def membersOpening? (t : Text) : Option (Text × Text) :=
  match Text.dropLead? membersWord t with
  | none => none
  | some afterKey =>
    match afterKey.dropWhile Text.isSpace with
    | 61 :: afterEquals =>
      match afterEquals.dropWhile Text.isSpace with
      | 91 :: rest =>
        some (membersWord ++ afterKey.takeWhile Text.isSpace ++ [61]
          ++ afterEquals.takeWhile Text.isSpace ++ [91], rest)
      | _ => none
    | _ => none

/-- A manifest cut at the body of its members array; `after` starts with the closing bracket. -/
structure MembersSite where
  before : Text
  body : Text
  after : Text
  deriving DecidableEq, Repr

/-- The members array of a manifest: the first opening that a closing bracket follows. -/
def findMembersSite? : Text → Option MembersSite
  | [] => none
  | b :: rest =>
    match membersOpening? (b :: rest) with
    | some (opening, inner) =>
      if inner.contains 93 then
        some ⟨opening, inner.takeWhile (· != 93), inner.dropWhile (· != 93)⟩
      else none
    | none => (findMembersSite? rest).map fun s => { s with before := b :: s.before }

/-- Whether a byte may stand inside an entry. -/
def isEntryByte (b : UInt8) : Bool := b != doubleQuote && !Text.isSpace b

/-- An entry at the front of what follows a quote: non-empty, without white space, and closed by a
quote. -/
def entryAt? (t : Text) : Option Text :=
  let entry := t.takeWhile isEntryByte
  if entry.isEmpty then none
  else if (t.dropWhile isEntryByte).head? == some doubleQuote then some entry
  else none

/-- The entries of an array body behind its next `skip` bytes. -/
def entriesAfter : (skip : Nat) → Text → List Text
  | _, [] => []
  | skip + 1, _ :: rest => entriesAfter skip rest
  | 0, b :: rest =>
    if b = doubleQuote then
      match entryAt? rest with
      | some entry => entry :: entriesAfter (entry.length + 1) rest
      | none => entriesAfter 0 rest
    else entriesAfter 0 rest

/-- The entries of an array body, in order. -/
def entries (body : Text) : List Text := entriesAfter 0 body

/-- The declared members of a manifest, if it has a members array. -/
def findMembers? (content : Text) : Option (List Text) :=
  (findMembersSite? content).map fun s => entries s.body

end CrateBump
