/-
# Help

What the program prints about itself: what a command is for, how it is called, the commands below it
and its flags in aligned columns.
-/
import CrateBump.Cli.Command

namespace CrateBump.Cli

/-- A line of text. -/
def line (t : Text) : Text := t ++ [lineFeed]

/-- The text filled up with spaces to a width. -/
def padTo (width : Nat) (t : Text) : Text := t ++ List.replicate (width - t.length) 32

/-! ## Flags -/

/-- The left column of a flag. -/
def flagColumn (f : Flag) : Text :=
  (match f.letter? with
    | some l => ascii "  -" ++ [l] ++ ascii ", --" ++ f.name
    | none => ascii "      --" ++ f.name)
  ++ if f.isSwitch then [] else ascii " string"

/-- The right column of a flag, with its default. -/
def usageColumn (f : Flag) : Text :=
  match f.kind with
  | .switch _ => f.usage
  | .text fallback =>
    if fallback.isEmpty then f.usage
    else f.usage ++ ascii " (default " ++ Text.quoted fallback ++ ascii ")"

/-- Flags in the order of their names, one a line. -/
def flagLines (flags : List Flag) : Text :=
  let width := (flags.map fun f => (flagColumn f).length).foldl max 0
  (flags.mergeSort fun f g => Text.le f.name g.name).flatMap fun f =>
    line (padTo (width + 3) (flagColumn f) ++ usageColumn f)

/-! ## Commands -/

/-- The width of the column of command names. -/
def commandWidth : Nat := 11

/-- Commands in the order of their names, one a line. -/
def commandLines (commands : List Command) : Text :=
  (commands.mergeSort fun c d => Text.le c.name d.name).flatMap fun c =>
    line (ascii "  " ++ padTo commandWidth c.name ++ [32] ++ c.summary)

/-- How the program is called, with some commands and flags. -/
def rootUsage (commands : List Command) (flags : List Flag) : Text :=
  line (ascii "Usage:")
    ++ line (ascii "  " ++ programName ++ ascii " [flags]")
    ++ line (ascii "  " ++ programName ++ ascii " [command]")
    ++ [lineFeed] ++ line (ascii "Available Commands:") ++ commandLines commands
    ++ [lineFeed] ++ line (ascii "Flags:") ++ flagLines flags
    ++ [lineFeed] ++ line (ascii "Use \"" ++ programName
      ++ ascii " [command] --help\" for more information about a command.")

/-- How a command is called. -/
def commandUsage (c : Command) : Text :=
  line (ascii "Usage:")
    ++ line (ascii "  " ++ c.useLine ++ ascii " [flags]")
    ++ [lineFeed] ++ line (ascii "Flags:") ++ flagLines (c.helpFlag :: c.ownFlags)
    ++ [lineFeed] ++ line (ascii "Global Flags:") ++ flagLines Command.sharedFlags

/-- How the command with the scripts for shells is called. -/
def completionUsage : Text :=
  line (ascii "Usage:")
    ++ line (ascii "  " ++ Command.completion.path ++ ascii " [command]")
    ++ [lineFeed] ++ line (ascii "Available Commands:")
    ++ commandLines (Shell.all.map Command.shell)
    ++ [lineFeed] ++ line (ascii "Flags:") ++ flagLines [Command.completion.helpFlag]
    ++ [lineFeed] ++ line (ascii "Global Flags:") ++ flagLines Command.sharedFlags
    ++ [lineFeed] ++ line (ascii "Use \"" ++ Command.completion.path
      ++ ascii " [command] --help\" for more information about a command.")

/-- What the program is for. -/
def rootLines : List String :=
  ["Reports or bumps the version declared in the [package] section of Cargo.toml.",
    "",
    "A bump is applied to the root manifest and to every workspace member listed",
    "in its members array. Every new version is previewed first and nothing is",
    "written until the bump is confirmed.",
    "",
    "Examples:",
    "  cargobump current",
    "  cargobump bump",
    "  cargobump bump minor",
    "  cargobump bump --dry-run major",
    "  cargobump bump --yes --commit --tag patch"]

/-- What the program is for, as it is printed. -/
def rootText : Text := rootLines.flatMap fun l => line (ascii l)

/-- What the help command is for. -/
def helpText : Text :=
  line (ascii "Help provides help for any command in the application.")
    ++ line (ascii "Simply type cargobump help [path to command] for full details.")

/-- What the command with the scripts for shells is for. -/
def completionText : Text :=
  line (ascii "Generate the autocompletion script for " ++ programName
      ++ ascii " for the specified shell.")
    ++ line (ascii "See each sub-command's help for details on how to use the generated script.")

/-- The help about the program as it stands before any argument is read: without the commands and
the flag that come with reading arguments. -/
def bareHelp : Text :=
  rootText ++ [lineFeed] ++ rootUsage [.current, .bump, .version] Command.sharedFlags

/-- The help about a command; the one about a script comes from the library. -/
def helpFor (completions : Completions) : Command → Text
  | .root =>
    rootText ++ [lineFeed]
      ++ rootUsage Command.all (Command.root.helpFlag :: Command.sharedFlags)
  | .help => helpText ++ [lineFeed] ++ commandUsage .help
  | .completion => completionText ++ [lineFeed] ++ completionUsage
  | .shell s => completions.help s
  | c => line c.summary ++ [lineFeed] ++ commandUsage c

/-- What is printed about words that are no command. -/
def unknownTopic (words : List Text) : Text :=
  line (ascii "Unknown help topic [" ++ Text.joinWith [32] (words.map Text.plainlyQuoted)
    ++ ascii "]")
    ++ rootUsage Command.all Command.sharedFlags

/-- The help about the command that words select.  Nothing is told about hidden commands. -/
def helpAbout (completions : Completions) (words : List Text) : Text :=
  match select words with
  | .ok (.complete _, _) => unknownTopic words
  | .ok (c, _) => helpFor completions c
  | .error _ => unknownTopic words

end CrateBump.Cli
