/-
# The working directory by name

A program asks for the name of its working directory to make paths absolute.  The variable `PWD`
gives the name, with links on the way left in it, if it starts at the root and leads to the directory
the program works in; otherwise the name is the one of the location.  Cleaning then takes `..` back
along the name, which may not be where walking it leads.
-/
import CrateBump.Environment
import CrateBump.FileSystem.Access

namespace CrateBump.FileSystem

/-- The name of the working directory. -/
def workingDirectory (env : Environment) (fs : FileSystem) : Except FileError Text :=
  let named := env.get (ascii "PWD")
  if isRooted named then
    match fs.stat Path.here, fs.resolve true named with
    | .error e, _ => .error e
    | .ok _, .ok loc => .ok (if loc = fs.current then named else textOf fs.current)
    | .ok _, .error _ => .ok (textOf fs.current)
  else .ok (textOf fs.current)

/-- A path text made absolute from the working directory, and cleaned. -/
def absolutePath (env : Environment) (fs : FileSystem) (path : Text) : Except FileError Text :=
  if isRooted path then .ok (Path.clean path)
  else (workingDirectory env fs).map fun dir => Path.absolute dir path

theorem workingDirectory_of_unset {env : Environment} (h : isRooted (env.get (ascii "PWD")) = false)
    (fs : FileSystem) : workingDirectory env fs = .ok (textOf fs.current) := by
  unfold workingDirectory
  simp only [h, Bool.false_eq_true, if_false]

/-- The working directory has a name that starts at the root. -/
theorem isRooted_workingDirectory {env : Environment} {fs : FileSystem} {dir : Text}
    (h : workingDirectory env fs = .ok dir) : isRooted dir = true := by
  unfold workingDirectory at h
  dsimp only at h
  split at h
  · next hnamed =>
    split at h
    · cases h
    · obtain rfl := Except.ok.inj h
      split
      · exact hnamed
      · rfl
    · obtain rfl := Except.ok.inj h
      rfl
  · obtain rfl := Except.ok.inj h
    rfl

/-- A path that starts at the root is made absolute without the working directory, any other from
its name. -/
theorem absolutePath_eq_ok_iff {env : Environment} {fs : FileSystem} {path absolute : Text} :
    absolutePath env fs path = .ok absolute
      ↔ isRooted path = true ∧ absolute = Path.clean path
        ∨ isRooted path = false
          ∧ ∃ dir, workingDirectory env fs = .ok dir ∧ absolute = Path.absolute dir path := by
  unfold absolutePath
  cases hrooted : isRooted path with
  | true => simp [eq_comm]
  | false =>
    cases workingDirectory env fs with
    | error e => simp [Except.map]
    | ok dir => simp [Except.map, eq_comm]

end CrateBump.FileSystem
