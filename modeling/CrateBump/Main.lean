/-
# The program

The command line on the files of the system.  The files a run asks for are read first, the run itself
happens on that copy, and what it changed is written back.  Repositories are not read: a run that is
to commit finds none and stops before anything is written.  Nor is there a library of other notations
or of completions.
-/
import CrateBump.Cli.Demand
import CrateBump.FileSystem.Edit
import Std.Time.DateTime

namespace CrateBump.Program

/-- The text of a string. -/
def textOf (s : String) : Text := s.toUTF8.toList

/-- The bytes of a text. -/
def bytesOf (t : Text) : ByteArray := ⟨t.toArray⟩

/-- The path of a text, as far as it can be spelled as a string. -/
def pathOf? (t : Text) : Option String := String.fromUTF8? (bytesOf t)

/-- The environment of the program: a name, an equals sign and a value each, with an end mark. -/
def environment : IO Environment := do
  let assignments := Text.splitOn 0 (← IO.FS.readBinFile "/proc/self/environ").toList
  return (assignments.filter fun t => t.contains 61).map fun t =>
    let name := t.takeWhile (· != 61)
    (name, t.drop (name.length + 1))

/-- What stands at a path of the system. -/
def nodeAt? (path : String) : IO (Option Node) := do
  match ← (IO.FS.readBinFile path).toBaseIO with
  | .ok content =>
    let writable := (← (IO.FS.Handle.mk path .readWrite).toBaseIO) matches .ok _
    return some (.file (if writable then Mode.newFile else 292) content.toList)
  | .error (.permissionDenied ..) => return some (.file 0 [])
  | .error (.inappropriateType ..) => return some (.directory Mode.newDirectory)
  | .error _ => return none

/-- The files with what stands at one more path. -/
def fetch (fs : FileSystem) (path : Text) : IO FileSystem := do
  if fs.stat path matches .ok _ then return fs
  let some spelled := pathOf? path | return fs
  let some node ← nodeAt? spelled | return fs
  return fs.place path node

/-- The files that a run needs, read in rounds. -/
def fetchAll (host : Host) (args : List Text) : Nat → FileSystem → IO FileSystem
  | 0, fs => return fs
  | n + 1, fs => do
    fetchAll host args n (← (Cli.demand host args fs).foldlM fetch fs)

/-- Writes back the files that a run changed or made. -/
def store (paths : List Text) (before after : FileSystem) : IO Unit :=
  paths.forM fun path => do
    match after.readFile path, pathOf? path with
    | .ok new, some spelled =>
      unless (before.readFile path).toOption = some new do IO.FS.writeBinFile spelled (bytesOf new)
    | _, _ => return

/-- Reads the standard input up to the end of a line. -/
partial def readAnswer (input : IO.FS.Stream) (read : ByteArray) : IO ByteArray := do
  let more ← input.read 4096
  let read := read ++ more
  if more.isEmpty || more.toList.contains lineFeed then return read
  readAnswer input read

/-- Writes a text to a stream. -/
def put (stream : IO.FS.Stream) (t : Text) : IO Unit := do
  stream.write (bytesOf t)
  stream.flush

/-- The directory the program works in, with the name that the environment has for it. -/
def workplace (env : Environment) : IO FileSystem := do
  let here := textOf (toString (← IO.FS.realPath (← IO.currentDir)))
  let fs := FileSystem.bare (FileSystem.steps here)
  let named := env.get (ascii "PWD")
  let some spelled := pathOf? named | return fs
  match ← (IO.FS.realPath spelled).toBaseIO with
  | .ok real =>
    return if named ≠ here ∧ textOf (toString real) = here then fs.place named (.link here) else fs
  | .error _ => return fs

/-- Runs the program; a question is shown before its answer is read. -/
def run (args : List Text) : IO UInt32 := do
  let now ← Std.Time.Timestamp.now
  let clock := Log.Clock.ofSeconds now.toSecondsSinceUnixEpoch.toInt.toNat
  let env ← environment
  let host : Host := ⟨env, clock, fun n => Text.toHex [n.toUInt8], .builtIn, .none⟩
  let fs ← fetchAll host args Cli.rounds (← workplace env)
  let stdout ← IO.getStdout
  let silent := Cli.run host args ⟨fs, [], Reader.ofText []⟩
  let outcome ← match silent.awaited? with
    | none => put stdout silent.stdout *> pure silent
    | some shown => do
      put stdout shown
      let answer ← readAnswer (← IO.getStdin) .empty
      let outcome := Cli.run host args ⟨fs, [], Reader.ofText answer.toList⟩
      put stdout (outcome.stdout.drop shown.length)
      pure outcome
  store (Cli.demand host args fs) fs outcome.world.files
  put (← IO.getStderr) outcome.stderr
  return outcome.code.toUInt32

end CrateBump.Program

/-- Runs the program on its arguments. -/
def main (args : List String) : IO UInt32 :=
  CrateBump.Program.run (args.map CrateBump.Program.textOf)
