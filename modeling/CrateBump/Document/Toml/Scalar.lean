/-
# TOML: numbers, booleans and moments

Values that are written as one word.  Underscores may stand between digits, decimal numbers have no
leading zeros, integers fit 64 bits, and dates exist in the calendar.
-/
import CrateBump.Document.Toml.Lexical

namespace CrateBump.Toml

/-! ## Digits -/

/-- The digits of a run with single underscores between digits taken out. -/
def joinDigits? (isDigit : UInt8 → Bool) (t : Text) : Option Text :=
  let groups := Text.splitOn 95 t
  if groups.all fun g => !g.isEmpty && g.all isDigit then some groups.flatten else none

/-- A sign at the front, and what follows it. -/
def sign (t : Text) : Bool × Text :=
  match t with
  | 45 :: rest => (true, rest)
  | 43 :: rest => (false, rest)
  | _ => (false, t)

/-- The digits of a decimal number without leading zeros. -/
def decimalDigits? (t : Text) : Option Text :=
  match joinDigits? Text.isDigit t with
  | none => none
  | some ds => if 1 < ds.length && ds.head? == some 48 then none else some ds

/-- An integer that fits 64 bits. -/
def fits? (n : Int) : Option Value :=
  if -0x8000000000000000 ≤ n ∧ n < 0x8000000000000000 then some (.integer n) else none

/-- An octal or binary digit's value. -/
def smallDigit? (base : Nat) (b : UInt8) : Option Nat :=
  if Text.isDigit b && b.toNat - 48 < base then some (b.toNat - 48) else none

/-- An integer in another base, from behind its mark. -/
def basedInteger? (base : Nat) (digit? : UInt8 → Option Nat) (t : Text) : Option Value :=
  match joinDigits? (fun b => (digit? b).isSome) t with
  | none => none
  | some ds =>
    match Text.digitsValue? digit? base ds with
    | none => none
    | some n => fits? n

/-- An integer. -/
def integer? (t : Text) : Option Value :=
  match t with
  | 48 :: 120 :: rest => basedInteger? 16 Text.hexValue? rest
  | 48 :: 111 :: rest => basedInteger? 8 (smallDigit? 8) rest
  | 48 :: 98 :: rest => basedInteger? 2 (smallDigit? 2) rest
  | _ =>
    let (negative, body) := sign t
    match decimalDigits? body with
    | none => none
    | some ds =>
      let n : Int := Decimal.value ds
      fits? (if negative then -n else n)

/-- A float: a whole part, and a fraction or an exponent or both. -/
def float? (t : Text) : Option Value :=
  let (negative, body) := sign t
  let isMark := fun b => b == 101 || b == 69
  let mantissa := body.takeWhile fun b => !isMark b
  let exponent := body.dropWhile fun b => !isMark b
  let whole := mantissa.takeWhile (· != dot)
  let fraction := mantissa.dropWhile (· != dot)
  if exponent.isEmpty && fraction.isEmpty then none
  else
    let power? : Option Int :=
      match exponent with
      | [] => some 0
      | _ :: rest =>
        let (down, digits) := sign rest
        (joinDigits? Text.isDigit digits).map fun ds =>
          let n : Int := Decimal.value ds
          if down then -n else n
    let places? : Option Text :=
      match fraction with
      | [] => some []
      | _ :: rest => joinDigits? Text.isDigit rest
    match decimalDigits? whole, places?, power? with
    | some ds, some places, some power =>
      (Binary64.ofDecimal? negative (Decimal.value (ds ++ places))
        (power - (places.length : Int))).map .float
    | _, _, _ => none

/-! ## Moments -/

/-- The number of exactly `count` digits at the front, and what follows them. -/
def fixedDigits? (count : Nat) (t : Text) : Option (Nat × Text) :=
  let ds := t.take count
  if ds.length = count && ds.all Text.isDigit then some (Decimal.value ds, t.drop count) else none

/-- The text behind one expected byte. -/
def expect? (b : UInt8) : Text → Option Text
  | [] => none
  | c :: rest => if c = b then some rest else none

/-- Whether a year has a 29th of February. -/
def isLeapYear (year : Nat) : Bool := year % 4 == 0 && (year % 100 != 0 || year % 400 == 0)

/-- The number of days in a month. -/
def daysIn (year month : Nat) : Nat :=
  if month = 2 then (if isLeapYear year then 29 else 28)
  else if month = 4 ∨ month = 6 ∨ month = 9 ∨ month = 11 then 30
  else 31

/-- The text behind a date. -/
def date? (t : Text) : Option Text := do
  let (year, t) ← fixedDigits? 4 t
  let t ← expect? 45 t
  let (month, t) ← fixedDigits? 2 t
  let t ← expect? 45 t
  let (day, t) ← fixedDigits? 2 t
  if 1 ≤ month ∧ month ≤ 12 ∧ 1 ≤ day ∧ day ≤ daysIn year month then some t else none

/-- The text behind a fraction of a second, if there is one. -/
def secondFraction? (t : Text) : Option Text :=
  match t with
  | 46 :: rest =>
    if (rest.head?.map Text.isDigit).getD false then some (rest.dropWhile Text.isDigit) else none
  | _ => some t

/-- The text behind a time of day. -/
def time? (d : Dialect) (t : Text) : Option Text := do
  let (hour, t) ← fixedDigits? 2 t
  let t ← expect? 58 t
  let (minute, t) ← fixedDigits? 2 t
  if 23 < hour ∨ 59 < minute then none
  else
    match expect? 58 t with
    | none => if d.secondsOptional then some t else none
    | some t =>
      let (second, t) ← fixedDigits? 2 t
      if d.lastSecond < second then none else secondFraction? t

/-- Whether the text is an offset from universal time. -/
def isOffset (t : Text) : Bool :=
  match t with
  | [90] => true
  | [122] => true
  | b :: rest =>
    if b = 43 ∨ b = 45 then
      match fixedDigits? 2 rest with
      | some (hour, 58 :: rest) =>
        match fixedDigits? 2 rest with
        | some (minute, []) => hour ≤ 23 && minute ≤ 59
        | _ => false
      | _ => false
    else false
  | [] => false

/-- A moment: a date, a time, or both with or without an offset. -/
def moment? (d : Dialect) (t : Text) : Option Value :=
  match date? t with
  | some [] => some (.moment .localDate)
  | some (b :: rest) =>
    if b = 84 ∨ b = 116 ∨ b = 32 then
      match time? d rest with
      | some [] => some (.moment .localDateTime)
      | some rest => if isOffset rest then some (.moment .offsetDateTime) else none
      | none => none
    else none
  | none =>
    match time? d t with
    | some [] => some (.moment .localTime)
    | _ => none

/-! ## Words -/

/-- A byte of a word. -/
def isWordByte (b : UInt8) : Bool :=
  Text.isDigit b || Text.isLetter b || b == 43 || b == 45 || b == 95 || b == 46 || b == 58

/-- A word at the front, and what follows it.  A blank joins a date and a time to one word. -/
def word (t : Text) : Text × Text :=
  let first := t.takeWhile isWordByte
  let rest := t.dropWhile isWordByte
  match date? first, rest with
  | some [], 32 :: a :: more =>
    if Text.isDigit a then
      (first ++ [32] ++ (a :: more).takeWhile isWordByte, (a :: more).dropWhile isWordByte)
    else (first, rest)
  | _, _ => (first, rest)

/-- The words with a fixed meaning. -/
def fixedWord? (w : Text) : Option Value :=
  if w = ascii "true" then some (.boolean true)
  else if w = ascii "false" then some (.boolean false)
  else if w = ascii "inf" ∨ w = ascii "+inf" then some (.float (.infinite false))
  else if w = ascii "-inf" then some (.float (.infinite true))
  else if w = ascii "nan" ∨ w = ascii "+nan" ∨ w = ascii "-nan" then some (.float .notANumber)
  else none

/-- A value that is one word, and what follows it. -/
def scalar? (d : Dialect) (t : Text) : Option (Value × Text) :=
  let (w, rest) := word t
  ((fixedWord? w <|> integer? w) <|> (float? w <|> moment? d w)).map fun v => (v, rest)

end CrateBump.Toml
