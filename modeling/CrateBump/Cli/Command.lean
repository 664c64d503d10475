/-
# Commands

Which command an argument list selects.  The first argument that is neither a flag nor taken for a
flag's value names the command; every flag that is not known to be a switch takes the argument behind
it.  The command for completions has commands below it; the one that shells ask for completions is not
shown to anybody.
-/
import CrateBump.Cli.Flag
import CrateBump.Completion

namespace CrateBump.Cli

/-- The commands; `root` is the program without one. -/
inductive Command where
  | root
  | current
  | bump
  | version
  | help
  | completion
  /-- Prints the script for a shell. -/
  | shell (shell : Shell)
  /-- Answers a shell that asks for completions, with their descriptions or without. -/
  | complete (descriptions : Bool)
  deriving DecidableEq, Repr

/-- The name of the program. -/
def programName : Text := ascii "cargobump"

namespace Command

/-- The name of a command. -/
def name : Command → Text
  | root => programName
  | current => ascii "current"
  | bump => ascii "bump"
  | version => ascii "version"
  | help => ascii "help"
  | completion => ascii "completion"
  | shell s => s.name
  | complete true => ascii "__complete"
  | complete false => ascii "__completeNoDesc"

/-- The name of a command behind that of the program. -/
def path : Command → Text
  | root => programName
  | shell s => programName ++ ascii " completion " ++ s.name
  | c => programName ++ [32] ++ c.name

/-- How a command is called. -/
def useLine : Command → Text
  | bump => programName ++ ascii " bump [major|minor|patch]"
  | help => programName ++ ascii " help [command]"
  | c => c.path

/-- What a command is for, in a line. -/
def summary : Command → Text
  | root => ascii "Report or bump the version of a Cargo workspace"
  | current => ascii "Print the current version and the workspace members"
  | bump => ascii "Bump the version of the root and every member (default: patch)"
  | version => ascii "Show CLI version and exit"
  | help => ascii "Help about any command"
  | completion => ascii "Generate the autocompletion script for the specified shell"
  | shell s => ascii "Generate the autocompletion script for " ++ s.name
  | complete _ => ascii "Request shell completion choices for the specified command-line"

/-- The commands below the program that are shown. -/
def all : List Command := [current, bump, version, help, completion]

/-- The commands below the program that only shells know of. -/
def hidden : List Command := [complete true, complete false]

/-- The command with a name below the program. -/
def ofName? (t : Text) : Option Command := (all ++ hidden).find? (·.name == t)

/-- Whether a command does something by itself. -/
def isRunnable : Command → Bool
  | completion => false
  | _ => true

/-- The flags that every command has. -/
def sharedFlags : List Flag := [
  .ofText "config" "" "config file (default is <root>/.cargobump.toml)",
  .lettered "current" 'c' "Print the current version number",
  .ofText "log-format" "pretty" "Diagnostic log format (pretty or json)",
  .ofText "manifest" "Cargo.toml" "Manifest file name in every member directory",
  .ofText "root" "." "Project directory holding the root manifest",
  .lettered "verbose" 'v' "Verbose diagnostics"]

/-- The flags that only one command has. -/
def ownFlags : Command → List Flag
  | bump => [
    .switch "commit" "Commit the rewritten manifests with git",
    .switch "dry-run" "Preview the new versions without modifying any file",
    .switch "tag" "Tag the commit with v<version> (requires --commit)",
    .lettered "yes" 'y' "Skip the confirmation and bump right away"]
  | shell _ => [.switch "no-descriptions" "disable completion descriptions"]
  | _ => []

/-- The flags that are known while the command is looked for. -/
def knownFlags (c : Command) : List Flag := c.ownFlags ++ sharedFlags

/-- The flag that asks for help about a command. -/
def helpFlag (c : Command) : Flag :=
  ⟨ascii "help", .switch (some 104), ascii "help for " ++ c.name⟩

/-- The flags of a command when its arguments are read. -/
def flags (c : Command) : List Flag := c.helpFlag :: c.knownFlags

end Command

/-! ## Selecting -/

/-- Whether an argument takes the one behind it for its value while the command is looked for. -/
def takesNext (flags : List Flag) (arg : Text) : Bool :=
  match arg with
  | 45 :: 45 :: name =>
    !arg.contains 61 && !(flags.any fun f => f.name == name && f.isSwitch)
  | [45, letter] => letter != 61 && !(flags.any fun f => f.letter? == some letter)
  | _ => false

/-- Whether an argument could name a command. -/
def isWord (arg : Text) : Bool := !arg.isEmpty && arg.head? != some 45

/-- The arguments that are neither flags nor their values.  A flag that would take the last argument
ends the search. -/
def words (flags : List Flag) : List Text → List Text
  | [] => []
  | arg :: rest =>
    if arg = ascii "--" then []
    else if takesNext flags arg then
      match rest with
      | [] => []
      | [_] => []
      | _ :: rest => words flags rest
    else if isWord arg then arg :: words flags rest
    else words flags rest

/-- The arguments without the first one that is `word` and neither a flag nor a value. -/
def dropWord (flags : List Flag) (word : Text) : List Text → List Text
  | [] => []
  | arg :: rest =>
    if arg = ascii "--" then arg :: rest
    else if takesNext flags arg then
      match rest with
      | [] => [arg]
      | value :: rest => arg :: value :: dropWord flags word rest
    else if arg = word then rest
    else arg :: dropWord flags word rest

/-! ## Suggestions -/

/-- The next row of the table of edit distances, from the row before and its first cell. -/
def nextRow (c : UInt8) : (left : Nat) → (row : List Nat) → Text → List Nat
  | left, above :: up :: row, d :: ds =>
    let cell := if c = d then above else min (min left up) above + 1
    cell :: nextRow c cell (up :: row) ds
  | _, _, _ => []

/-- How many bytes must be inserted, removed or replaced to turn one text into another. -/
def editDistance (s t : Text) : Nat :=
  let first := List.range (t.length + 1)
  let last := s.foldl (fun row c =>
    let left := row.headD 0 + 1
    left :: nextRow c left row t) first
  last.getLastD 0

/-- The commands that an unknown word may stand for. -/
def suggestions (word : Text) : List Text :=
  let typed := Text.lower word
  ([Command.current, .bump, .version, .completion].map Command.name).filter fun name =>
    editDistance typed name ≤ 2 || Text.startsWith typed name

/-- A word that should name a command but does not. -/
structure UnknownCommand where
  word : Text
  /-- The command it was given to. -/
  command : Command
  suggestions : List Text
  deriving DecidableEq, Repr

/-- The wording of an unknown command. -/
def UnknownCommand.message (u : UnknownCommand) : Text :=
  ascii "unknown command " ++ Text.quoted u.word ++ ascii " for " ++ Text.quoted u.command.path
    ++ if u.suggestions.isEmpty then []
      else [10, 10] ++ ascii "Did you mean this?" ++ [lineFeed]
        ++ u.suggestions.flatMap fun s => [9] ++ s ++ [lineFeed]

/-- The command below another one that arguments select, if they do. -/
def selectBelow (c : Command) (args : List Text) : Command × List Text :=
  match c, words c.knownFlags args with
  | .completion, word :: _ =>
    match Shell.ofName? word with
    | some s => (.shell s, dropWord c.knownFlags word args)
    | none => (c, args)
  | _, _ => (c, args)

/-- The command that arguments select, and the arguments without its name. -/
def select (args : List Text) : Except UnknownCommand (Command × List Text) :=
  match words Command.root.knownFlags args with
  | [] => .ok (.root, args)
  | word :: _ =>
    match Command.ofName? word with
    | some c => .ok (selectBelow c (dropWord Command.root.knownFlags word args))
    | none => .error ⟨word, .root, suggestions word⟩

/-- The arguments of a command as it reads them.  A shell's request for completions holds the flags of
other commands and is not read. -/
def readArgs (c : Command) (args : List Text) : Except FlagError Parsed :=
  match c with
  | .complete _ => .ok ⟨args, []⟩
  | c => parseArgs c.flags args

end CrateBump.Cli
