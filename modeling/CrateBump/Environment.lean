/-
# The environment

The variables a program was started with, and what they say about colour.
-/
import CrateBump.Text.Basic

namespace CrateBump

/-- Environment variables by name. -/
abbrev Environment := List (Text × Text)

namespace Environment

/-- The value of a variable, empty where it is not set. -/
def get (env : Environment) (name : Text) : Text := (env.lookup name).getD []

/-- Whether colours are switched off everywhere. -/
def colourless (env : Environment) : Bool := !(env.get (ascii "NO_COLOR")).isEmpty

/-- Whether status prefixes are coloured although the output is not a terminal. -/
def forcesColour (env : Environment) : Bool :=
  let force := env.get (ascii "CLICOLOR_FORCE")
  !force.isEmpty && force != ascii "0" && !env.colourless

end Environment

/-- The text in a terminal colour. -/
def inColour (colour : Text) (t : Text) : Text :=
  [27, 91] ++ colour ++ [109] ++ t ++ [27] ++ ascii "[0m"

/-- The prefix of a plain status line. -/
def infoMark (env : Environment) : Text :=
  if env.forcesColour then inColour (ascii "36") (ascii "[*]") else ascii "[*]"

/-- The prefix of a question or a warning. -/
def warnMark (env : Environment) : Text :=
  if env.forcesColour then inColour (ascii "33") (ascii "[!]") else ascii "[!]"

end CrateBump
