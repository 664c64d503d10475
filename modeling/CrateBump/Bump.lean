/-
# Bumping a workspace

A bump is planned and previewed in full, then confirmed, then written, and, if asked, committed and
tagged.  Every way to end before the confirmation leaves files and repositories as they were.
-/
import CrateBump.Git.Release
import CrateBump.Plan
import CrateBump.Prompt.Prompter

namespace CrateBump

/-- What a bump does besides updating manifests. -/
structure BumpOptions where
  /-- Stop after the preview. -/
  dryRun : Bool
  /-- Commit the updated manifests. -/
  commit : Bool
  /-- Tag the commit. -/
  tag : Bool
  deriving DecidableEq, Repr

/-- Why a bump stopped. -/
inductive BumpError where
  | plan (error : PlanError)
  | release (error : Git.ReleaseError)
  | prompt (text : Text)
  | partialWrite (stopped : PartialWrite)
  deriving DecidableEq, Repr

namespace BumpError

/-- The cause behind a bump error. -/
def cause? : BumpError → Option Cause
  | plan e => e.cause?
  | release e => e.cause?
  | prompt _ => none
  | partialWrite p => p.error.cause?

/-- The wording of a bump error. -/
def message : BumpError → Text
  | plan e => e.message
  | release e => e.message
  | prompt t => t
  | partialWrite p => p.message

end BumpError

/-- Everything a bump led to. -/
structure BumpOutcome where
  changes : List Change
  confirmed : Bool
  /-- The members whose manifests were written. -/
  written : List Text
  release? : Option Git.Release
  /-- What was printed. -/
  out : Text
  events : List Log.Event
  /-- The questions that were asked. -/
  asked : List Text
  world : World
  error? : Option BumpError

/-! ## Wording -/

/-- The question before anything is written. -/
def confirmQuestion : Text := ascii "Are you sure you want to bump the version number? [y/N]"

/-- The question as it is asked. -/
def question (env : Environment) : Text := warnMark env ++ [32] ++ confirmQuestion

/-- A status line. -/
def infoLine (env : Environment) (t : Text) : Text := infoMark env ++ [32] ++ t ++ [lineFeed]

/-- The preview of a change. -/
def previewLine (env : Environment) (c : Change) : Text :=
  infoLine env (ascii "Bumping version of " ++ c.member ++ ascii ": " ++ c.oldVersion
    ++ ascii " -> " ++ c.newVersion)

/-- The preview of all changes. -/
def preview (env : Environment) (changes : List Change) : Text :=
  changes.flatMap (previewLine env)

/-- The line after a refused confirmation. -/
def abortLine (env : Environment) : Text := warnMark env ++ ascii " Aborted" ++ [lineFeed]

/-! ## Events -/

/-- An event of a bump. -/
def bumpEvent (level : Log.Level) (fields : List Log.Field) (message : String) : Log.Event :=
  ⟨level, Log.Field.ofText "component" (ascii "bump") :: fields, ascii message⟩

/-- The warning about a member that is not at the root's version. -/
def driftEvents (c : Change) : List Log.Event :=
  let fields := [Log.Field.ofText "member" c.member, Log.Field.ofText "version" c.oldVersion]
  if c.drift < 0 then [bumpEvent .warn fields "member is behind the workspace root"]
  else if 0 < c.drift then [bumpEvent .warn fields "member is ahead of the workspace root"]
  else []

/-- The events of the preview of a change. -/
def plannedEvents (c : Change) : List Log.Event :=
  driftEvents c ++ [bumpEvent .debug [Log.Field.ofText "member" c.member,
    Log.Field.ofText "package" c.name, Log.Field.ofText "path" c.path] "planned"]

/-- The event of a written manifest. -/
def writtenEvent (c : Change) : Log.Event :=
  bumpEvent .debug [Log.Field.ofText "member" c.member, Log.Field.ofText "path" c.path,
    Log.Field.ofText "version" c.newVersion] "manifest written"

/-- The event of a write loop that stopped. -/
def stoppedEvent (p : PartialWrite) : Log.Event :=
  bumpEvent .error [Log.Field.ofText "error" p.message, ⟨ascii "written", .texts p.written⟩]
    "bump stopped part way"

/-- The event of a release. -/
def releaseEvent (r : Git.Release) : Log.Event :=
  bumpEvent .info [Log.Field.ofText "commit" r.commit, Log.Field.ofText "tag" r.tag]
    "release committed"

/-! ## The workflow -/

/-- The lines that tell of a release. -/
def releaseLines (env : Environment) (r : Git.Release) : Text :=
  infoLine env (ascii "Committed " ++ r.commit.take 7)
    ++ if r.tag.isEmpty then [] else infoLine env (ascii "Tagged " ++ r.tag)

/-- Commits what was written, if asked.  The version of the release is the root's. -/
def releaseStage (host : Host) (ws : Workspace) (options : BumpOptions) (before : BumpOutcome) :
    BumpOutcome :=
  if options.commit then
    let version := (before.changes.head?.map Change.newVersion).getD []
    let outcome := Git.commitRelease host before.world ws.dir (before.changes.map Change.path)
      version options.tag
    match outcome.error? with
    | some e => { before with world := outcome.world, error? := some (.release e) }
    | none =>
      { before with
        world := outcome.world
        release? := some outcome.release
        events := before.events ++ [releaseEvent outcome.release]
        out := before.out ++ releaseLines host.env outcome.release }
  else before

/-- Writes the planned manifests, then releases them. -/
def writeStage (host : Host) (ws : Workspace) (options : BumpOptions) (before : BumpOutcome) :
    BumpOutcome :=
  let applied := applyChanges ws before.world.files before.changes
  let after : BumpOutcome :=
    { before with
      confirmed := true
      written := applied.written
      world := { before.world with files := applied.files }
      events := before.events ++ (before.changes.take applied.written.length).map writtenEvent }
  match applied.error? with
  | some p =>
    { after with events := after.events ++ [stoppedEvent p], error? := some (.partialWrite p) }
  | none =>
    releaseStage host ws options
      { after with out := after.out ++ infoLine host.env (ascii "Version number bumped") }

/-- Asks for the confirmation, then writes. -/
def confirmStage (host : Host) (ws : Workspace) (prompter : Prompter) (options : BumpOptions)
    (before : BumpOutcome) : BumpOutcome :=
  let reply := prompter (question host.env) before.world
  let after : BumpOutcome :=
    { before with
      asked := [question host.env]
      out := before.out ++ reply.out
      world := reply.world }
  match reply.decision with
  | .error text => { after with error? := some (.prompt text) }
  | .ok false => { after with out := after.out ++ abortLine host.env }
  | .ok true => writeStage host ws options after

/-- The check that a release will hold nothing unrelated, if there is to be one. -/
def releaseCheck (host : Host) (ws : Workspace) (options : BumpOptions) (changes : List Change)
    (w : World) : Except Git.ReleaseError Unit :=
  if options.commit then Git.checkClean host w ws.dir (changes.map Change.path) else .ok ()

/-- Bumps the root and every member of a workspace. -/
def bump (host : Host) (ws : Workspace) (prompter : Prompter) (options : BumpOptions) (kind : Kind)
    (w : World) : BumpOutcome :=
  let start : BumpOutcome := ⟨[], false, [], none, [], [], [], w, none⟩
  match plan ws w.files kind with
  | .error e => { start with error? := some (.plan e) }
  | .ok changes =>
    let planned : BumpOutcome :=
      { start with
        changes := changes
        out := preview host.env changes
        events := changes.flatMap plannedEvents }
    if options.dryRun then
      { planned with
        out := planned.out ++ infoLine host.env (ascii "Dry run, no files were modified") }
    else match releaseCheck host ws options changes w with
      | .error e => { planned with error? := some (.release e) }
      | .ok _ => confirmStage host ws prompter options planned

end CrateBump
