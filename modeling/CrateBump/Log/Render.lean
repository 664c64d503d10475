/-
# Log lines

How events are written: as one JSON object a line, or as a line for people with aligned parts and
optional colours.  The time is the same on every line, since a logger is given its clock.
-/
import CrateBump.Environment
import CrateBump.Log.Clock
import CrateBump.Log.Event
import CrateBump.Text.Quoted

namespace CrateBump.Log

/-- The two ways to write an event. -/
inductive Format where
  | json
  | pretty
  deriving DecidableEq, Repr

/-- The format with a name; all names but `json` mean `pretty`. -/
def Format.ofName (name : Text) : Format := if name = ascii "json" then .json else .pretty

/-- Where and how events are written. -/
structure Logger where
  threshold : Level
  format : Format
  coloured : Bool
  clock : Clock
  deriving DecidableEq, Repr

/-! ## JSON strings -/

/-- A character inside a JSON string; printable ASCII and everything beyond ASCII stand as they
are. -/
def jsonEscape : Text.Piece → Text
  | .stray _ => ascii "\\ufffd"
  | .char code bytes =>
    if code = 34 ∨ code = 92 then 92 :: bytes
    else if code = 8 then ascii "\\b"
    else if code = 12 then ascii "\\f"
    else if code = 10 then ascii "\\n"
    else if code = 13 then ascii "\\r"
    else if code = 9 then ascii "\\t"
    else if code < 0x20 ∨ code = 0x7F then ascii "\\u00" ++ Text.hexDigits 2 code
    else bytes

/-- A JSON string. -/
def jsonString (t : Text) : Text :=
  [doubleQuote] ++ (Text.pieces t).flatMap jsonEscape ++ [doubleQuote]

/-- A JSON array of strings that are already written. -/
def jsonArray (items : List Text) : Text := [91] ++ Text.joinWith [44] items ++ [93]

/-- A field value in JSON. -/
def jsonValue : FieldValue → Text
  | .text t => jsonString t
  | .number n => Decimal.ofNat n
  | .texts ts => jsonArray (ts.map jsonString)

/-- A named JSON value. -/
def jsonField (f : Field) : Text := jsonString f.name ++ [58] ++ jsonValue f.value

/-- An event as a JSON object: level, fields, time, message. -/
def jsonLine (clock : Clock) (e : Event) : Text :=
  let head := Field.ofText "level" e.level.name
  let tail := Field.ofText "time" clock.stamp
  let message := if e.message.isEmpty then [] else [Field.ofText "message" e.message]
  [123] ++ Text.joinWith [44] ((head :: e.fields ++ tail :: message).map jsonField) ++ [125]
    ++ [lineFeed]

/-! ## Lines for people -/

/-- The text in a colour, if colours are on. -/
def paint (coloured : Bool) (colour : String) (t : Text) : Text :=
  if coloured then inColour (ascii colour) t else t

/-- The mark of a level. -/
def levelMark (coloured : Bool) : Level → Text
  | .debug => ascii "DBG"
  | .info => paint coloured "32" (ascii "INF")
  | .warn => paint coloured "33" (ascii "WRN")
  | .error => paint coloured "31" (ascii "ERR")

/-- The message of an event; only debug messages are not bold. -/
def paintMessage (coloured : Bool) (level : Level) (message : Text) : Text :=
  match level with
  | .debug => message
  | _ => paint coloured "1" message

/-- Whether a byte makes a text need quotes. -/
def needsQuotes (b : UInt8) : Bool := b < 0x20 || 0x7E < b || b == 32 || b == 92 || b == 34

/-- A text value, quoted where it must be.  Bytes outside any character show as the replacement
character. -/
def plainText (t : Text) : Text :=
  let t := Text.repaired t
  if t.any needsQuotes then Text.quoted t else t

/-- A character inside a compact JSON string that is read by people; line and paragraph separators
are escaped, the delete character is not. -/
def compactEscape : Text.Piece → Text
  | .stray _ => ascii "\\ufffd"
  | .char code bytes =>
    if code = 0x2028 then ascii "\\u2028"
    else if code = 0x2029 then ascii "\\u2029"
    else if code = 0x7F then bytes
    else jsonEscape (.char code bytes)

/-- A field value for people. -/
def plainValue : FieldValue → Text
  | .text t => plainText t
  | .number n => Decimal.ofNat n
  | .texts ts =>
    jsonArray <| ts.map fun t =>
      [doubleQuote] ++ (Text.pieces (Text.repaired t)).flatMap compactEscape ++ [doubleQuote]

/-- The name of the field that holds an error. -/
def errorName : Text := ascii "error"

/-- A field for people; the value of an error is bold and red. -/
def plainField (coloured : Bool) (f : Field) : Text :=
  let value := plainValue f.value
  paint coloured "36" (f.name ++ [61])
    ++ if f.name = errorName then paint coloured "31" (paint coloured "1" value) else value

/-- Whether a field stands before another: the error first, then by name. -/
def Field.before (f g : Field) : Bool :=
  if f.name = errorName then true else if g.name = errorName then false else Text.le f.name g.name

/-- The parts of a line that are not empty, with spaces between them. -/
def spaced (parts : List Text) : Text :=
  Text.joinWith [32] (parts.filter fun part => !part.isEmpty)

/-- An event for people: time, level, message, then the fields in order of their names. -/
def prettyLine (coloured : Bool) (clock : Clock) (e : Event) : Text :=
  let head := [paint coloured "90" clock.kitchen, levelMark coloured e.level,
    if e.message.isEmpty then [] else paintMessage coloured e.level (Text.repaired e.message)]
  spaced (head ++ (e.fields.mergeSort Field.before).map (plainField coloured)) ++ [lineFeed]

/-! ## The logger -/

/-- What a logger writes for an event: nothing below its level. -/
def Logger.write (l : Logger) (e : Event) : Text :=
  if e.level.rank < l.threshold.rank then []
  else match l.format with
    | .json => jsonLine l.clock e
    | .pretty => prettyLine l.coloured l.clock e

/-- What a logger writes for a list of events. -/
def Logger.writeAll (l : Logger) (es : List Event) : Text := es.flatMap l.write

/-- The logger with a level and a format given by name. -/
def Logger.ofNames (level format : Text) (env : Environment) (clock : Clock) : Logger :=
  ⟨Level.ofName level, Format.ofName format, !env.colourless, clock⟩

end CrateBump.Log
