/-
# Shell completion

A shell may ask a program what could stand next on its command line.  The answers, and the scripts
that make a shell ask, come from a library.
-/
import CrateBump.Decimal
import CrateBump.Environment

namespace CrateBump

/-- The shells for which there is a script. -/
inductive Shell where
  | bash
  | fish
  | powershell
  | zsh
  deriving DecidableEq, Repr

namespace Shell

/-- The name of a shell. -/
def name : Shell → Text
  | bash => ascii "bash"
  | fish => ascii "fish"
  | powershell => ascii "powershell"
  | zsh => ascii "zsh"

/-- The shells in the order of their names. -/
def all : List Shell := [bash, fish, powershell, zsh]

/-- The shell with a name. -/
def ofName? (t : Text) : Option Shell := all.find? (·.name == t)

end Shell

/-- The answer to a request for completions. -/
structure Completion where
  /-- The completions, each with its description if there is one. -/
  lines : List Text
  /-- What the shell is told about them, as a sum of bits. -/
  directive : Nat
  /-- Why there are none, if the request failed. -/
  error? : Option Text
  deriving DecidableEq, Repr

namespace Completion

/-- The bits of a directive that have a name. -/
def directiveNames : List (Nat × Text) :=
  [(0, "Error"), (1, "NoSpace"), (2, "NoFileComp"), (3, "FilterFileExt"), (4, "FilterDirs"),
    (5, "KeepOrder")].map fun (bit, name) => (bit, ascii "ShellCompDirective" ++ ascii name)

/-- A directive in words. -/
def directiveText (directive : Nat) : Text :=
  if 64 ≤ directive then
    ascii "ERROR: unexpected ShellCompDirective value: " ++ Decimal.ofNat directive
  else
    match directiveNames.filter fun (bit, _) => directive.testBit bit with
    | [] => ascii "ShellCompDirectiveDefault"
    | named => Text.joinWith (ascii ", ") (named.map (·.2))

end Completion

/-- The library of completions. -/
structure Completions where
  /-- The script for a shell, which asks for completions with their descriptions or without. -/
  script : (shell : Shell) → (descriptions : Bool) → Text
  /-- The help about the script for a shell. -/
  help : Shell → Text
  /-- What could stand for the last of some words, if those before it select a command. -/
  complete : (env : Environment) → (descriptions : Bool) → (words : List Text) → Completion

namespace Completions

/-- No script is known, and nothing can be completed. -/
def none : Completions := ⟨fun _ _ => [], fun _ => [], fun _ _ _ => ⟨[], 0, .none⟩⟩

end Completions

end CrateBump
