/-
# Git configuration files

Sections in brackets, each followed by lines `key = value`.  Values may be quoted in part, continue
over lines that end in a backslash, and end before a comment.  A file with any malformed line is
refused as a whole.
-/
import CrateBump.Git.Repository
import CrateBump.Text.Basic

namespace CrateBump.Git

/-- One assignment of a configuration file. -/
structure Setting where
  heading : Text
  subsection : Text
  key : Text
  value : Text
  deriving DecidableEq, Repr

namespace Setting

/-! ## Tokens -/

/-- Blanks between tokens. -/
def isGap (b : UInt8) : Bool := b == 32 || b == 9 || b == 13

/-- The text behind blanks. -/
def skipGap (t : Text) : Text := t.dropWhile isGap

/-- A byte that may start a name. -/
def isNameStart (b : UInt8) : Bool := Text.isLetter b || 0x80 ≤ b

/-- A byte of a name. -/
def isNameByte (b : UInt8) : Bool := isNameStart b || Text.isDigit b || b == 45

/-- A name at the front, and what follows it. -/
def name? (t : Text) : Option (Text × Text) :=
  match t with
  | b :: _ => if isNameStart b then some (t.takeWhile isNameByte, t.dropWhile isNameByte) else none
  | [] => none

/-- Whether a line ends here, with a comment or without. -/
def atLineEnd (t : Text) : Bool :=
  match t with
  | [] => true
  | b :: _ => b == lineFeed || b == 59 || b == 35

/-- The name of a subsection from behind its opening quote. -/
def quotedName : Text → Option (Text × Text)
  | [] => none
  | 34 :: rest => some ([], rest)
  | 10 :: _ => none
  | 92 :: 92 :: rest => (quotedName rest).map fun (t, rest) => (92 :: t, rest)
  | 92 :: 34 :: rest => (quotedName rest).map fun (t, rest) => (34 :: t, rest)
  | 92 :: _ => none
  | b :: rest => (quotedName rest).map fun (t, rest) => (b :: t, rest)

/-- A section header from behind its opening bracket: section and subsection, and what follows. -/
def header? (t : Text) : Option ((Text × Text) × Text) :=
  match name? (skipGap t) with
  | none => none
  | some (name, rest) =>
    let subsection? : Option (Text × Text) := match skipGap rest with
      | 34 :: more => match quotedName more with
        | some (sub, rest) => if sub.isEmpty then none else some (sub, rest)
        | none => none
      | rest => some ([], rest)
    match subsection? with
    | none => none
    | some (sub, rest) =>
      match skipGap rest with
      | 93 :: rest =>
        let rest := skipGap rest
        if atLineEnd rest then some ((name, sub), rest) else none
      | _ => none

/-- What a letter stands for behind a backslash in a value. -/
def escaped? (b : UInt8) : Option UInt8 :=
  match b with
  | 92 => some 92
  | 34 => some 34
  | 110 => some 10
  | 116 => some 9
  | 98 => some 8
  | _ => none

/-- A value up to the end of its line.  `pending` holds blanks that count only if something follows
them. -/
def value? : (quoted : Bool) → (pending : Text) → Text → Option (Text × Text)
  | quoted, _, [] => if quoted then none else some ([], [])
  | false, pending, 92 :: 10 :: rest =>
    (value? false [] rest).map fun (t, rest) => (pending ++ t, rest)
  | false, pending, 92 :: 13 :: 10 :: rest =>
    (value? false [] rest).map fun (t, rest) => (pending ++ t, rest)
  | quoted, pending, 92 :: b :: rest =>
    match escaped? b with
    | none => none
    | some c => (value? quoted [] rest).map fun (t, rest) => (pending ++ c :: t, rest)
  | _, _, [92] => none
  | quoted, pending, 34 :: rest =>
    (value? (!quoted) [] rest).map fun (t, rest) => (pending ++ t, rest)
  | quoted, pending, b :: rest =>
    if quoted then
      if b = lineFeed then none
      else (value? true [] rest).map fun (t, rest) => (b :: t, rest)
    else if atLineEnd (b :: rest) then some ([], b :: rest)
    else if b = 13 then value? false pending rest
    else if isGap b then value? false (pending ++ [b]) rest
    else (value? false [] rest).map fun (t, rest) => (pending ++ b :: t, rest)

/-! ## Files -/

/-- The settings of a text behind those read before, in the section that is open. -/
def parseFrom : (fuel : Nat) → Option (Text × Text) → List Setting → Text → Option (List Setting)
  | 0, _, _, _ => none
  | fuel + 1, current, before, t =>
    match skipGap t with
    | [] => some before
    | 10 :: rest => parseFrom fuel current before rest
    | 59 :: rest => parseFrom fuel current before (rest.dropWhile (· != lineFeed))
    | 35 :: rest => parseFrom fuel current before (rest.dropWhile (· != lineFeed))
    | 91 :: rest =>
      match header? rest with
      | none => none
      | some (opened, rest) => parseFrom fuel (some opened) before rest
    | t =>
      match current, name? t with
      | some (s, sub), some (key, rest) =>
        match skipGap rest with
        | 61 :: rest =>
          match value? false [] (skipGap rest) with
          | none => none
          | some (v, rest) => parseFrom fuel current (before ++ [⟨s, sub, key, v⟩]) rest
        | rest =>
          if atLineEnd rest then parseFrom fuel current (before ++ [⟨s, sub, key, []⟩]) rest
          else none
      | _, _ => none

/-- The settings of a configuration file. -/
def parse? (t : Text) : Option (List Setting) := parseFrom (t.length + 1) none [] t

/-- The last value of a key in a section without subsection, names in any case; empty if there is
none. -/
def last (settings : List Setting) (s key : String) : Text :=
  let isIt := fun (x : Setting) =>
    x.heading.map Text.lowerByte == ascii s && x.subsection.isEmpty
      && x.key.map Text.lowerByte == ascii key
  ((settings.filter isIt).getLast?.map Setting.value).getD []

/-- The user's identity as far as the settings give it. -/
def identity (settings : List Setting) : Identity :=
  ⟨last settings "user" "name", last settings "user" "email"⟩

end Setting

end CrateBump.Git
