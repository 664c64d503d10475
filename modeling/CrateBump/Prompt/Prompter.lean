/-
# Prompters

A prompter is asked one yes-or-no question.  It may write, read the input and even change files
before it decides.
-/
import CrateBump.Prompt.Answer
import CrateBump.World

namespace CrateBump

/-- What asking a question led to. -/
structure Reply where
  /-- What was written while asking. -/
  out : Text
  /-- The decision, or the text of a failure. -/
  decision : Except Text Bool
  world : World

/-- Something that answers questions. -/
abbrev Prompter := Text → World → Reply

namespace Prompter

/-- Answers every question alike and reads nothing. -/
def static (answer : Bool) : Prompter := fun _ w => ⟨[], .ok answer, w⟩

/-- Writes the question on a line and takes the next line of the input as the answer. -/
def line : Prompter := fun question w =>
  let answer := answerLine w.input
  ⟨question ++ [lineFeed], answer.decision, { w with input := answer.rest }⟩

end Prompter

end CrateBump
