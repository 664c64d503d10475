/-
# The files a run looks at

Which paths a run may read, as far as the files at hand tell.  The settings decide about the root
manifest, and the root manifest about those of the members, so a world that lacks files is completed
in three rounds.
-/
import CrateBump.Cli.Run

namespace CrateBump.Cli

/-- The file that a command may add to without being asked. -/
def notebook (env : Environment) : Command → List Text
  | .complete _ => [debugFile env]
  | _ => []

/-- The paths a run may read in some files. -/
def demand (host : Host) (args : List Text) (fs : FileSystem) : List Text :=
  match select args with
  | .error _ => []
  | .ok (c, rest) =>
    match readArgs c rest with
    | .error _ => []
    | .ok p =>
      notebook host.env c ++ Config.candidates fs (configFile p) (sourcesOf host.env c p)
        ++ match loadSettings host c p fs with
          | .error _ => []
          | .ok s => (workspaceOf s).manifestPaths fs

/-- The number of rounds after which nothing more is asked for: the configuration, the root manifest,
the manifests of the members. -/
def rounds : Nat := 3

end CrateBump.Cli
