/-
# TOML: gaps, strings and keys

The smallest parts of a TOML document.  Each reader takes the text from its part on and gives the
part with the text behind it, or nothing where the part is malformed.  A dialect settles the few
points on which readers of different editions of the notation disagree.
-/
import CrateBump.Document.Value
import CrateBump.Text.Utf8

namespace CrateBump.Toml

/-- The points on which editions of the notation disagree. -/
structure Dialect where
  /-- Whether `\x` with two digits is an escape. -/
  byteEscape : Bool
  /-- Whether an inline table may span lines, hold comments and end in a comma. -/
  looseTables : Bool
  /-- Whether a time may leave its seconds out. -/
  secondsOptional : Bool
  /-- The last second of a minute. -/
  lastSecond : Nat
  /-- Whether tables stay open: dotted keys may extend any table, inline ones included, and a table
  that a single dotted key made may still be opened by a header. -/
  openTables : Bool
  /-- Whether a mark of the byte order at the start is skipped. -/
  skipsMark : Bool
  deriving DecidableEq, Repr

/-! ## Gaps -/

/-- The text behind a line end at the front. -/
def newline? : Text → Option Text
  | 10 :: rest => some rest
  | 13 :: 10 :: rest => some rest
  | _ => none

/-- The text from the end of the line on. -/
def toLineEnd (t : Text) : Text := t.dropWhile (· != lineFeed)

/-- The text of the next line, if the rest of this line is blank or a comment. -/
def endOfLine? (t : Text) : Option Text :=
  match Text.skipBlanks t with
  | [] => some []
  | 35 :: rest => some ((toLineEnd rest).drop 1)
  | t => newline? t

/-- The text behind blanks, line ends and comments. -/
def skipGaps : (fuel : Nat) → Text → Text
  | 0, t => t
  | fuel + 1, t =>
    match Text.skipBlanks t with
    | 35 :: rest => skipGaps fuel (toLineEnd rest)
    | t =>
      match newline? t with
      | some rest => skipGaps fuel rest
      | none => t

/-- The text behind all blanks, line ends and comments. -/
def skipAllGaps (t : Text) : Text := skipGaps (t.length + 1) t

/-- Whether a document holds no control byte but tabs, line feeds, and carriage returns right before
a line feed. -/
def controlsOk : Text → Bool
  | [] => true
  | b :: rest =>
    (if b == 13 then rest.head? == some 10
      else (0x20 ≤ b || b == 9 || b == 10) && b != 0x7F) && controlsOk rest

/-! ## Escapes -/

/-- The character with the code given by `count` hexadecimal digits at the front. -/
def codeEscape? (count : Nat) (t : Text) : Option (Text × Text) :=
  if t.length < count then none
  else match Text.digitsValue? Text.hexValue? 16 (t.take count) with
    | none => none
    | some code =>
      if (0xD800 ≤ code ∧ code ≤ 0xDFFF) ∨ 0x10FFFF < code then none
      else some (Text.encodeCode code, t.drop count)

/-- What an escape stands for, from behind its backslash. -/
def escape? (d : Dialect) : Text → Option (Text × Text)
  | [] => none
  | b :: rest =>
    match b with
    | 98 => some ([8], rest)
    | 116 => some ([9], rest)
    | 110 => some ([10], rest)
    | 102 => some ([12], rest)
    | 114 => some ([13], rest)
    | 101 => some ([27], rest)
    | 34 => some ([34], rest)
    | 92 => some ([92], rest)
    | 117 => codeEscape? 4 rest
    | 85 => codeEscape? 8 rest
    | 120 => if d.byteEscape then codeEscape? 2 rest else none
    | _ => none

/-! ## Strings -/

/-- A basic string from behind its opening quote. -/
def basicBody (d : Dialect) : (fuel : Nat) → Text → Option (Text × Text)
  | 0, _ => none
  | _ + 1, [] => none
  | fuel + 1, b :: rest =>
    if b = 34 then some ([], rest)
    else if b = 10 ∨ b = 13 then none
    else if b = 92 then
      match escape? d rest with
      | none => none
      | some (written, rest) => (basicBody d fuel rest).map fun (t, rest) => (written ++ t, rest)
    else (basicBody d fuel rest).map fun (t, rest) => (b :: t, rest)

/-- A literal string from behind its opening quote. -/
def literalBody : Text → Option (Text × Text)
  | [] => none
  | b :: rest =>
    if b = 39 then some ([], rest)
    else if b = 10 ∨ b = 13 then none
    else (literalBody rest).map fun (t, rest) => (b :: t, rest)

/-- Quotes at the front of a string over several lines: whether they close it, the quotes that
belong to the string, and what follows.  Three quotes close, and up to two may stand before them. -/
def closing (quote : UInt8) (t : Text) : Bool × Text × Text :=
  let run := t.takeWhile (· == quote)
  if 3 ≤ run.length then
    let taken := min run.length 5
    (true, List.replicate (taken - 3) quote, t.drop taken)
  else (false, run, t.drop run.length)

/-- Behind a backslash that ends a line: the text from the next byte that is no gap. -/
def lineContinuation? (t : Text) : Option Text :=
  match newline? (Text.skipBlanks t) with
  | none => none
  | some rest => some (rest.dropWhile fun b => Text.isBlank b || b == 10 || b == 13)

/-- A basic string over several lines, from behind its opening quotes. -/
def multiBasicBody (d : Dialect) : (fuel : Nat) → Text → Option (Text × Text)
  | 0, _ => none
  | _ + 1, [] => none
  | fuel + 1, b :: rest =>
    if b = 34 then
      match closing 34 (b :: rest) with
      | (true, quotes, rest) => some (quotes, rest)
      | (false, quotes, rest) =>
        (multiBasicBody d fuel rest).map fun (t, rest) => (quotes ++ t, rest)
    else if b = 92 then
      match lineContinuation? rest with
      | some rest => multiBasicBody d fuel rest
      | none =>
        match escape? d rest with
        | none => none
        | some (written, rest) =>
          (multiBasicBody d fuel rest).map fun (t, rest) => (written ++ t, rest)
    else (multiBasicBody d fuel rest).map fun (t, rest) => (b :: t, rest)

/-- A literal string over several lines, from behind its opening quotes. -/
def multiLiteralBody : (fuel : Nat) → Text → Option (Text × Text)
  | 0, _ => none
  | _ + 1, [] => none
  | fuel + 1, b :: rest =>
    if b = 39 then
      match closing 39 (b :: rest) with
      | (true, quotes, rest) => some (quotes, rest)
      | (false, quotes, rest) =>
        (multiLiteralBody fuel rest).map fun (t, rest) => (quotes ++ t, rest)
    else (multiLiteralBody fuel rest).map fun (t, rest) => (b :: t, rest)

/-- The text without a line end at its front. -/
def dropNewline (t : Text) : Text := (newline? t).getD t

/-- A string of any of the four forms, from its opening quote on. -/
def string? (d : Dialect) : Text → Option (Text × Text)
  | 34 :: 34 :: 34 :: rest => multiBasicBody d (rest.length + 1) (dropNewline rest)
  | 39 :: 39 :: 39 :: rest => multiLiteralBody (rest.length + 1) (dropNewline rest)
  | 34 :: rest => basicBody d (rest.length + 1) rest
  | 39 :: rest => literalBody rest
  | _ => none

/-! ## Keys -/

/-- A byte of a key without quotes. -/
def isBareByte (b : UInt8) : Bool := Text.isDigit b || Text.isLetter b || b == 45 || b == 95

/-- One part of a key. -/
def keyPart? (d : Dialect) : Text → Option (Text × Text)
  | 34 :: rest => basicBody d (rest.length + 1) rest
  | 39 :: rest => literalBody rest
  | t =>
    let bare := t.takeWhile isBareByte
    if bare.isEmpty then none else some (bare, t.dropWhile isBareByte)

/-- The parts of a key, with blanks around the dots. -/
def keyParts (d : Dialect) : (fuel : Nat) → Text → Option (List Text × Text)
  | 0, _ => none
  | fuel + 1, t =>
    match keyPart? d (Text.skipBlanks t) with
    | none => none
    | some (part, rest) =>
      match Text.skipBlanks rest with
      | 46 :: rest => (keyParts d fuel rest).map fun (parts, rest) => (part :: parts, rest)
      | rest => some ([part], rest)

/-- A key at the front and what follows it and any blanks. -/
def key? (d : Dialect) (t : Text) : Option (List Text × Text) := keyParts d (t.length + 1) t

end CrateBump.Toml
