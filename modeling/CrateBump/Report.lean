/-
# Reporting a workspace

Prints the root version and the declared members.  Nothing is changed.
-/
import CrateBump.Log.Render
import CrateBump.Workspace

namespace CrateBump

/-- What a report printed and logged, and why it stopped if it did. -/
structure ReportOutcome where
  out : Text
  events : List Log.Event
  error? : Option ManifestError

/-- The line with the version of the root. -/
def versionLine (version : Text) : Text := ascii "Crate version: " ++ version ++ [lineFeed]

/-- The lines that list the members. -/
def memberLines (env : Environment) (members : List Text) : Text :=
  infoMark env ++ ascii " This crate has the following members:" ++ [lineFeed]
    ++ members.flatMap fun m => ascii "  - " ++ m ++ [lineFeed]

/-- The event that tells the number of members. -/
def membersEvent (members : List Text) : Log.Event :=
  ⟨.debug, [⟨ascii "count", .number members.length⟩], ascii "members discovered"⟩

/-- Reports the root version, then the members. -/
def report (env : Environment) (ws : Workspace) (fs : FileSystem) : ReportOutcome :=
  match ws.queryVersion fs Workspace.rootMember with
  | .error e => ⟨[], [], some e⟩
  | .ok version =>
    match ws.queryMembers fs with
    | .error e => ⟨versionLine version, [], some e⟩
    | .ok members =>
      ⟨versionLine version ++ memberLines env members, [membersEvent members], none⟩

end CrateBump
