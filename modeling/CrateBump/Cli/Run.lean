/-
# Running the command line

Arguments are read first, then checked, then the settings are loaded, then the command runs.  Whatever
fails first is reported, and nothing behind it happens.
-/
import CrateBump.Bump
import CrateBump.Cli.Help
import CrateBump.Config.Load
import CrateBump.FileSystem.Append
import CrateBump.Report

namespace CrateBump.Cli

/-- Why a run fails. -/
inductive CliError where
  | command (unknown : UnknownCommand)
  | flag (error : FlagError)
  | tooManyArgs (count : Nat)
  | tooFewArgs
  | kind (word : Text)
  | load (error : Config.LoadError)
  | report (error : ManifestError)
  | bump (error : BumpError)
  deriving DecidableEq, Repr

namespace CliError

/-- The wording of a failed run. -/
def message : CliError → Text
  | command u => u.message
  | flag e => e.message
  | tooManyArgs n => ascii "accepts at most 1 arg(s), received " ++ Decimal.ofNat n
  | tooFewArgs => ascii "requires at least 1 arg(s), only received 0"
  | kind word => Kind.refusal word
  | load e => e.message
  | report e => e.message
  | bump e => e.message

end CliError

/-- What a run led to. -/
structure CliOutcome where
  code : Nat
  stdout : Text
  stderr : Text
  world : World
  /-- What stood on the output when an answer was awaited, if one was. -/
  awaited? : Option Text

/-- What a run printed and logged, and how it ended. -/
structure Printed where
  out : Text
  events : List Log.Event
  /-- What stands on the error output behind the events. -/
  notes : Text
  error? : Option CliError
  world : World
  /-- What stood on the output when an answer was awaited, if one was. -/
  awaited? : Option Text

/-- The outcome of a run that ended before anything was logged. -/
def failure (w : World) (e : CliError) : CliOutcome :=
  ⟨1, [], ascii "Error: " ++ e.message ++ [lineFeed], w, none⟩

/-- The outcome of a run that printed a text and did nothing else. -/
def success (w : World) (out : Text) : CliOutcome := ⟨0, out, [], w, none⟩

/-- The outcome of a command that ran: events and notes go to the error output, an error behind
them. -/
def finish (logger : Log.Logger) (p : Printed) : CliOutcome :=
  match p.error? with
  | none => ⟨0, p.out, logger.writeAll p.events ++ p.notes, p.world, p.awaited?⟩
  | some e =>
    ⟨1, p.out, logger.writeAll p.events ++ p.notes ++ ascii "Error: " ++ e.message ++ [lineFeed],
      p.world, p.awaited?⟩

/-! ## Checks -/

/-- Whether a command can take arguments.  Words that select no command were refused before, so the
root takes whatever is left. -/
def checkArgs (c : Command) (args : List Text) : Except CliError Unit :=
  match c, args with
  | .bump, [] => .ok ()
  | .bump, [word] => if (Kind.ofWord? word).isSome then .ok () else .error (.kind word)
  | .bump, args => .error (.tooManyArgs args.length)
  | .root, _ => .ok ()
  | .help, _ => .ok ()
  | .complete _, [] => .error .tooFewArgs
  | .complete _, _ => .ok ()
  | _, [] => .ok ()
  | c, word :: _ => .error (.command ⟨word, c, []⟩)

/-! ## Settings -/

/-- The flags that give a setting, with the whole name of its key. -/
def boundFlags : List (Text × Text) :=
  [("root", "root"), ("manifest", "manifest"), ("log-format", "log.format"), ("yes", "yes"),
    ("dry-run", "dry_run"), ("commit", "git.commit"), ("tag", "git.tag")].map fun (f, k) =>
      (ascii f, ascii k)

/-- The value of a flag as a setting. -/
def flagValue (c : Command) (name value : Text) : Value :=
  match c.flags.find? (·.name == name) with
  | some f =>
    if f.isSwitch then .boolean ((Config.wordBoolean? value).getD false) else .text value
  | none => .text value

/-- The sources of a run's settings, the configuration file aside. -/
def sourcesOf (env : Environment) (c : Command) (p : Parsed) : Config.Sources :=
  { given := .empty
    bound := boundFlags.map (·.2)
    flags := boundFlags.filterMap fun (name, key) =>
      (p.value? name).map fun value => (key, flagValue c name value)
    env := env
    file := .empty
    defaults := Config.defaults }

/-- The configuration file that was asked for, empty if none was. -/
def configFile (p : Parsed) : Text := (p.value? (ascii "config")).getD []

/-- The settings of a run; a switch makes the log verbose. -/
def loadSettings (host : Host) (c : Command) (p : Parsed) (fs : FileSystem) :
    Except Config.LoadError Settings :=
  match Config.load host.readers fs (configFile p) (sourcesOf host.env c p) with
  | .error e => .error e
  | .ok s => .ok (if p.isOn (ascii "verbose") then { s with logLevel := ascii "debug" } else s)

/-- The event that tells the settings. -/
def settingsEvent (s : Settings) : Log.Event :=
  ⟨.debug, [Log.Field.ofText "root" s.root, Log.Field.ofText "manifest" s.manifest],
    ascii "configuration loaded"⟩

/-! ## Commands -/

/-- The workspace that settings point at. -/
def workspaceOf (s : Settings) : Workspace := ⟨s.root, s.manifest⟩

/-- Reports the workspace. -/
def runReport (host : Host) (s : Settings) (w : World) : Printed :=
  let r := report host.env (workspaceOf s) w.files
  ⟨r.out, r.events, [], r.error?.map .report, w, none⟩

/-- The kind of a bump, from its only argument. -/
def kindOf (args : List Text) : Kind := ((args.head?).bind Kind.ofWord?).getD .patch

/-- Bumps the workspace. -/
def runBump (host : Host) (s : Settings) (args : List Text) (w : World) : Printed :=
  let prompter := if s.yes then Prompter.static true else Prompter.line
  let o := CrateBump.bump host (workspaceOf s) prompter ⟨s.dryRun, s.commit, s.tag⟩ (kindOf args) w
  let shown := preview host.env o.changes ++ question host.env ++ [lineFeed]
  ⟨o.out, o.events, [], o.error?.map .bump, o.world,
    if s.yes || o.asked.isEmpty then none else some shown⟩

/-- The line with the version of the program. -/
def versionText : Text := line (programName ++ ascii " CLI version 0.3.1")

/-- A command that only prints a text. -/
def prints (out : Text) (w : World) : Printed := ⟨out, [], [], none, w, none⟩

/-! ### Completions -/

/-- The answer to a shell that asks what could stand for the last of some words.  There is none if the
words before it select no command. -/
def completionOf (host : Host) (descriptions : Bool) (asked : List Text) : Completion :=
  match select asked.dropLast with
  | .ok _ => host.completions.complete host.env descriptions asked
  | .error _ =>
    ⟨[], 0, some (ascii "unable to find a command for arguments: ["
      ++ Text.joinWith [32] asked.dropLast ++ ascii "]")⟩

/-- The file in which failed requests for completions are noted, empty if they are not. -/
def debugFile (env : Environment) : Text := env.get (ascii "BASH_COMP_DEBUG_FILE")

/-- The note about a failed request. -/
def debugNote (reason : Text) : Text := line (ascii "[Debug] [Error] " ++ reason)

/-- The world with a failed request noted. -/
def noted (env : Environment) (reason : Text) (w : World) : World :=
  if debugFile env = [] then w
  else { w with files := w.files.appendFile (debugFile env) (debugNote reason) }

/-- Answers a shell that asks for completions. -/
def runComplete (host : Host) (descriptions : Bool) (asked : List Text) (w : World) : Printed :=
  let completion := completionOf host descriptions asked
  { out := completion.lines.flatMap line ++ line (ascii ":" ++ Decimal.ofNat completion.directive)
    events := []
    notes := line (ascii "Completion ended with directive: "
      ++ Completion.directiveText completion.directive)
    error? := none
    world := match completion.error? with
      | none => w
      | some reason => noted host.env reason w
    awaited? := none }

/-! ### All commands -/

/-- Runs a command whose arguments were checked. -/
def runCommand (host : Host) (c : Command) (p : Parsed) (s : Settings) (w : World) : Printed :=
  match c with
  | .root => runReport host s w
  | .current => runReport host s w
  | .bump => if p.isOn (ascii "current") then runReport host s w else runBump host s p.args w
  | .version => prints versionText w
  | .help => prints (helpAbout host.completions p.args) w
  | .completion => prints (helpFor host.completions .completion) w
  | .shell s => prints (host.completions.script s !p.isOn (ascii "no-descriptions")) w
  | .complete descriptions => runComplete host descriptions p.args w

/-- Runs a command with arguments that were read. -/
def runParsed (host : Host) (c : Command) (p : Parsed) (w : World) : CliOutcome :=
  if p.isOn (ascii "help") || !c.isRunnable then success w (helpFor host.completions c)
  else match checkArgs c p.args with
    | .error e => failure w e
    | .ok _ =>
      match loadSettings host c p w.files with
      | .error e => failure w (.load e)
      | .ok s =>
        let printed := runCommand host c p s w
        finish (Log.Logger.ofNames s.logLevel s.logFormat host.env host.clock)
          { printed with events := settingsEvent s :: printed.events }

/-- Runs the program on its arguments.  Without any it prints its help as an error. -/
def run (host : Host) (args : List Text) (w : World) : CliOutcome :=
  if args.isEmpty then ⟨1, [], bareHelp, w, none⟩
  else match select args with
    | .error u => failure w (.command u)
    | .ok (c, rest) =>
      match readArgs c rest with
      | .error e => failure w (.flag e)
      | .ok p => runParsed host c p w

end CrateBump.Cli
