import CrateBump.Bump
import CrateBump.Cause
import CrateBump.Cli.Command
import CrateBump.Cli.Demand
import CrateBump.Cli.Flag
import CrateBump.Cli.Help
import CrateBump.Cli.Run
import CrateBump.Completion
import CrateBump.Config.Decode
import CrateBump.Config.Load
import CrateBump.Config.Settings
import CrateBump.Config.Sources
import CrateBump.Decimal
import CrateBump.Document.Binary64
import CrateBump.Document.Json
import CrateBump.Document.Readers
import CrateBump.Document.Toml.Lexical
import CrateBump.Document.Toml.Parser
import CrateBump.Document.Toml.Scalar
import CrateBump.Document.Toml.Table
import CrateBump.Document.Value
import CrateBump.Entries
import CrateBump.Environment
import CrateBump.FileSystem.Access
import CrateBump.FileSystem.Append
import CrateBump.FileSystem.Basic
import CrateBump.FileSystem.Edit
import CrateBump.FileSystem.Walk
import CrateBump.FileSystem.WorkingDirectory
import CrateBump.Git.ConfigFile
import CrateBump.Git.Ignore
import CrateBump.Git.Release
import CrateBump.Git.Repository
import CrateBump.Git.Snapshot
import CrateBump.Git.Wildcard
import CrateBump.Git.Worktree
import CrateBump.Log.Clock
import CrateBump.Log.Event
import CrateBump.Log.Render
import CrateBump.Main
import CrateBump.Manifest.Members
import CrateBump.Manifest.VersionSite
import CrateBump.Package
import CrateBump.Path
import CrateBump.Plan
import CrateBump.Prompt.Answer
import CrateBump.Prompt.Prompter
import CrateBump.Prompt.Reader
import CrateBump.Proofs.BumpRun
import CrateBump.Proofs.Declaration
import CrateBump.Proofs.FileShape
import CrateBump.Proofs.LineSearch
import CrateBump.Proofs.Planning
import CrateBump.Proofs.VersionRewrite
import CrateBump.Proofs.VersionWrite
import CrateBump.Proofs.WriteLoop
import CrateBump.Report
import CrateBump.Text.Basic
import CrateBump.Text.Blank
import CrateBump.Text.Lowercase
import CrateBump.Text.Printable
import CrateBump.Text.Quoted
import CrateBump.Text.Utf8
import CrateBump.Version.Kind
import CrateBump.Version.Semver
import CrateBump.Version.Triple
import CrateBump.Workspace
import CrateBump.World
import CrateBump.Proofs.BumpedVersion
import CrateBump.Proofs.MembersKept
import CrateBump.Proofs.WriteSequence
import CrateBump.Proofs.RepeatedBumps
import CrateBump.Proofs.CleanPaths
import CrateBump.Proofs.Walks
import CrateBump.Proofs.WorktreeStatus
import CrateBump.Proofs.Staging
import CrateBump.Proofs.RewrittenWorktree
import CrateBump.Proofs.CommittedRelease
import CrateBump.Proofs.TomlLines
import CrateBump.Proofs.PackageLabels
import CrateBump.Proofs.KeptMeaning
import CrateBump.Proofs.FirstLine
import CrateBump.Proofs.VersionLines
import CrateBump.Proofs.CommandRuns
import CrateBump.Proofs.ArrayEntries
import CrateBump.Proofs.MembersKey
import CrateBump.Proofs.AcceptedVersions
import CrateBump.Proofs.Precedence
import CrateBump.Proofs.Drift
import CrateBump.Proofs.KeptOrder
import CrateBump.Proofs.Numerals
import CrateBump.Proofs.PlanChecks
import CrateBump.Proofs.LineAnswers
import CrateBump.Proofs.ManifestNames
import CrateBump.Proofs.CleanCheck
import CrateBump.Proofs.SettingSources
import CrateBump.Proofs.ConfigFileChoice
import CrateBump.Proofs.CommandFlags
import CrateBump.Proofs.LoadedSettings
