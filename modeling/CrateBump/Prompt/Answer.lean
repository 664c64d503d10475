/-
# Confirmation

An answer declines if it is blank or exactly the letter n in either case; anything else accepts.
-/
import CrateBump.Prompt.Reader
import CrateBump.Text.Blank

namespace CrateBump

/-- Whether an answer confirms. -/
def accepts (answer : Text) : Bool :=
  !(Text.isWhite answer || answer == ascii "n" || answer == ascii "N")

/-- The text without line feeds and carriage returns at its end. -/
def stripLineEnd (t : Text) : Text := Text.dropEndWhile (fun b => b == 13 || b == lineFeed) t

/-- What asking for a line gave: the decision or the text of a failure, and the input behind it. -/
structure LineAnswer where
  decision : Except Text Bool
  rest : Reader

/-- Reads one line as the answer.  The end of the input counts as the end of the line; a failing
input is an error even if part of a line came before it. -/
def answerLine (r : Reader) : LineAnswer :=
  let line := r.readLine
  match line.ending? with
  | some (.failure text) => ⟨.error (ascii "reading answer: " ++ text), line.rest⟩
  | _ => ⟨.ok (accepts (stripLineEnd line.text)), line.rest⟩

end CrateBump
