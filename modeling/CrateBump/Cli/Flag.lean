/-
# Flags

The flags of the command line and how they are read.  A switch needs no value and never takes the
next argument; a flag with a text always has a value.  Flags may stand anywhere before `--`, and of
several values the last one counts.
-/
import CrateBump.Config.Decode
import CrateBump.Text.Quoted

namespace CrateBump.Cli

/-- What a flag takes. -/
inductive FlagKind where
  /-- A truth value, with a letter for short if there is one. -/
  | switch (letter? : Option UInt8)
  /-- A text, with its default. -/
  | text (fallback : Text)
  deriving DecidableEq, Repr

/-- A flag of the command line. -/
structure Flag where
  name : Text
  kind : FlagKind
  usage : Text
  deriving DecidableEq, Repr

namespace Flag

/-- A flag with a text. -/
def ofText (name fallback usage : String) : Flag :=
  ⟨ascii name, .text (ascii fallback), ascii usage⟩

/-- A switch without a letter. -/
def switch (name usage : String) : Flag := ⟨ascii name, .switch none, ascii usage⟩

/-- A switch with a letter. -/
def lettered (name : String) (letter : Char) (usage : String) : Flag :=
  ⟨ascii name, .switch (some letter.toUInt8), ascii usage⟩

/-- Whether the flag is a switch. -/
def isSwitch (f : Flag) : Bool :=
  match f.kind with
  | .switch _ => true
  | .text _ => false

/-- The letter of a flag. -/
def letter? (f : Flag) : Option UInt8 :=
  match f.kind with
  | .switch l => l
  | .text _ => none

/-- The spelling of a flag in messages. -/
def spelling (f : Flag) : Text :=
  match f.letter? with
  | some l => [45, l] ++ ascii ", --" ++ f.name
  | none => ascii "--" ++ f.name

end Flag

/-- Why arguments cannot be read. -/
inductive FlagError where
  | syntaxAt (argument : Text)
  | unknownName (name : Text)
  /-- A letter that is no flag, with the letters from it on. -/
  | unknownLetter (letter : UInt8) (letters : Text)
  | needsValue (name : Text)
  | badSwitch (value : Text) (flag : Flag)
  deriving DecidableEq, Repr

namespace FlagError

/-- The character shown for a byte that is no flag; a byte beyond ASCII shows as the lead byte of
its two-byte form. -/
def shown (b : UInt8) : Nat := if b < 0x80 then b.toNat else if b < 0xC0 then 0xC2 else 0xC3

/-- The wording of a flag error. -/
def message : FlagError → Text
  | syntaxAt argument => ascii "bad flag syntax: " ++ argument
  | unknownName name => ascii "unknown flag: --" ++ name
  | unknownLetter letter letters =>
    ascii "unknown shorthand flag: " ++ Text.quotedChar (shown letter) ++ ascii " in -" ++ letters
  | needsValue name => ascii "flag needs an argument: --" ++ name
  | badSwitch value flag =>
    ascii "invalid argument " ++ Text.quoted value ++ ascii " for " ++ Text.quoted flag.spelling
      ++ ascii " flag: strconv.ParseBool: parsing " ++ Text.quoted value
      ++ ascii ": invalid syntax"

end FlagError

/-! ## Reading -/

/-- Arguments that are no flags, and the values of flags, in the order given. -/
structure Parsed where
  args : List Text
  values : List (Text × Text)
  deriving DecidableEq, Repr

namespace Parsed

/-- The last value given for a flag. -/
def value? (p : Parsed) (name : Text) : Option Text :=
  ((p.values.filter fun v => v.1 == name).getLast?).map (·.2)

/-- Whether a switch is on. -/
def isOn (p : Parsed) (name : Text) : Bool :=
  ((p.value? name).bind Config.wordBoolean?).getD false

end Parsed

/-- The value of a flag, if it is one the flag can take. -/
def checkValue (f : Flag) (value : Text) : Except FlagError (Text × Text) :=
  if f.isSwitch && (Config.wordBoolean? value).isNone then .error (.badSwitch value f)
  else .ok (f.name, value)

/-- The values given by a group of letters behind one dash. -/
def parseLetters (flags : List Flag) : Text → Except FlagError (List (Text × Text))
  | [] => .ok []
  | letter :: rest =>
    if Text.startsWith (ascii "test.") (letter :: rest) then .ok []
    else match flags.find? (·.letter? == some letter) with
      | none => .error (.unknownLetter letter (letter :: rest))
      | some f =>
        if rest.head? == some 61 && 1 < rest.length then
          (checkValue f (rest.drop 1)).map fun v => [v]
        else
          match parseLetters flags rest with
          | .error e => .error e
          | .ok more => .ok ((f.name, ascii "true") :: more)

/-- The parsed arguments with one more that is no flag in front. -/
def Parsed.withArg (p : Parsed) (arg : Text) : Parsed := { p with args := arg :: p.args }

/-- The parsed arguments with more values in front. -/
def Parsed.withValues (p : Parsed) (values : List (Text × Text)) : Parsed :=
  { p with values := values ++ p.values }

/-- A flag by its name, from behind its two dashes: the name and the value behind an equals sign. -/
def splitName (body : Text) : Text × Option Text :=
  let name := body.takeWhile (· != 61)
  match body.dropWhile (· != 61) with
  | [] => (name, none)
  | _ :: value => (name, some value)

/-- Reads the arguments of a command that has some flags. -/
def parseArgs (flags : List Flag) : List Text → Except FlagError Parsed
  | [] => .ok ⟨[], []⟩
  | arg :: rest =>
    match arg with
    | 45 :: 45 :: [] => .ok ⟨rest, []⟩
    | 45 :: 45 :: body =>
      if body.head? == some 45 || body.head? == some 61 then .error (.syntaxAt arg)
      else
        let (name, value?) := splitName body
        match flags.find? (·.name == name) with
        | none => .error (.unknownName name)
        | some f =>
          match value? with
          | some value =>
            match checkValue f value with
            | .error e => .error e
            | .ok v => (parseArgs flags rest).map (·.withValues [v])
          | none =>
            if f.isSwitch then
              (parseArgs flags rest).map (·.withValues [(f.name, ascii "true")])
            else match rest with
              | [] => .error (.needsValue name)
              | value :: rest => (parseArgs flags rest).map (·.withValues [(f.name, value)])
    | 45 :: b :: letters =>
      match parseLetters flags (b :: letters) with
      | .error e => .error e
      | .ok values => (parseArgs flags rest).map (·.withValues values)
    | _ => (parseArgs flags rest).map (·.withArg arg)

end CrateBump.Cli
