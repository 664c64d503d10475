/-
# Settings

What one invocation was told to do, and which combinations make no sense.
-/
import CrateBump.Path
import CrateBump.Text.Quoted

namespace CrateBump

/-- The resolved settings of one invocation. -/
structure Settings where
  root : Text
  manifest : Text
  logLevel : Text
  logFormat : Text
  yes : Bool
  dryRun : Bool
  commit : Bool
  tag : Bool
  deriving DecidableEq, Repr

/-- Why settings are refused. -/
inductive SettingsError where
  | emptyManifest
  | manifestIsPath (manifest : Text)
  | unknownFormat (format : Text)
  | tagWithoutCommit
  deriving DecidableEq, Repr

namespace SettingsError

/-- The wording of a refusal. -/
def message : SettingsError → Text
  | emptyManifest => ascii "manifest file name cannot be empty"
  | manifestIsPath manifest =>
    ascii "manifest must be a file name, not a path: " ++ Text.quoted manifest
  | unknownFormat format =>
    ascii "unknown log format " ++ Text.quoted format ++ ascii " (use pretty or json)"
  | tagWithoutCommit => ascii "--tag requires --commit"

end SettingsError

namespace Settings

/-- The names of log formats that are accepted. -/
def logFormats : List Text := [[], ascii "pretty", ascii "json"]

/-- The settings as they are, or the first reason to refuse them. -/
def validate (s : Settings) : Except SettingsError Unit :=
  if s.manifest = [] then .error .emptyManifest
  else if Path.base s.manifest ≠ s.manifest then .error (.manifestIsPath s.manifest)
  else if !logFormats.contains s.logFormat then .error (.unknownFormat s.logFormat)
  else if s.tag && !s.commit then .error .tagWithoutCommit
  else .ok ()

end Settings

end CrateBump
