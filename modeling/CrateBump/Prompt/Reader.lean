/-
# Reading an answer

Input arrives in reads of unforeseeable size.  A line is taken through a buffer of 4096 bytes: each
read asks for the free part of the buffer, a full buffer is emptied, and reading stops as soon as a
line feed has come in.  What was read behind the line feed is lost with the buffer.
-/
import CrateBump.Text.Basic

namespace CrateBump

/-- How an input ends once all of its bytes are taken. -/
inductive Ending where
  /-- End of file. -/
  | endOfFile
  /-- A failure with this text. -/
  | failure (text : Text)
  deriving DecidableEq, Repr

/-- An input that hands out its bytes read by read. -/
structure Reader where
  /-- The bytes not yet taken. -/
  remaining : Text
  /-- How many reads were made. -/
  reads : Nat
  /-- The most bytes that each read may return, by its number; zero means no limit. -/
  limit : Nat → Nat
  /-- What a read answers when no byte remains. -/
  ending : Ending

namespace Reader

/-- An input without read limits that ends in end of file. -/
def ofText (t : Text) : Reader := ⟨t, 0, fun _ => 0, .endOfFile⟩

/-- How many bytes the next read may return into `room` free bytes. -/
def portion (r : Reader) (room : Nat) : Nat :=
  if r.limit r.reads = 0 then room else min room (r.limit r.reads)

/-- The bytes the next read returns. -/
def chunk (r : Reader) (room : Nat) : Text := r.remaining.take (r.portion room)

/-- The input after the next read. -/
def afterRead (r : Reader) (room : Nat) : Reader :=
  { r with remaining := r.remaining.drop (r.portion room), reads := r.reads + 1 }

/-- The size of the buffer. -/
def bufferSize : Nat := 4096

/-- The free bytes after `taken` more bytes without a line feed; a full buffer is emptied. -/
def roomAfter (room taken : Nat) : Nat := if room ≤ taken then bufferSize else room - taken

/-- A line as it was read: its text with the line feed, if one came, and how the input ended
otherwise. -/
structure Line where
  text : Text
  ending? : Option Ending
  rest : Reader

/-- The line with more text in front. -/
def Line.after (got : Text) (l : Line) : Line := { l with text := got ++ l.text }

/-- Reads until a line feed or the end, at most `fuel` times, with `room` bytes free in the
buffer. -/
def readLineWithin : (fuel room : Nat) → Reader → Line
  | 0, _, r => ⟨[], some r.ending, r⟩
  | fuel + 1, room, r =>
    match r.remaining with
    | [] => ⟨[], some r.ending, r⟩
    | _ =>
      let got := r.chunk room
      if got.contains lineFeed then
        ⟨got.takeWhile (· != lineFeed) ++ [lineFeed], none, r.afterRead room⟩
      else (readLineWithin fuel (roomAfter room got.length) (r.afterRead room)).after got

/-- Reads one line.  Every read takes at least one byte, so as many reads as there are bytes, and
one more for the end, suffice. -/
def readLine (r : Reader) : Line := readLineWithin (r.remaining.length + 1) bufferSize r

end Reader

end CrateBump
