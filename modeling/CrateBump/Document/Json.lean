/-
# JSON documents

A strict reader of JSON.  Every number is read as a binary floating-point number, of two equal keys
in an object the last one counts, and what no character can stand for (a stray byte, half of a
surrogate pair) is read as the replacement character.
-/
import CrateBump.Document.Value
import CrateBump.Text.Utf8

namespace CrateBump.Json

/-! ## Tokens -/

/-- White space between tokens. -/
def isGap (b : UInt8) : Bool := b == 32 || b == 9 || b == 10 || b == 13

/-- The text behind white space. -/
def skipGap (t : Text) : Text := t.dropWhile isGap

/-- Four hexadecimal digits at the front, and what follows them. -/
def fourHex? (t : Text) : Option (Nat × Text) :=
  if t.length < 4 then none
  else (Text.digitsValue? Text.hexValue? 16 (t.take 4)).map fun n => (n, t.drop 4)

/-- The control character a letter stands for behind a backslash. -/
def escapeLetter? (b : UInt8) : Option UInt8 :=
  match b with
  | 34 => some 34
  | 92 => some 92
  | 47 => some 47
  | 98 => some 8
  | 102 => some 12
  | 110 => some 10
  | 114 => some 13
  | 116 => some 9
  | _ => none

/-- A code unit of sixteen bits with what follows: joined with its other half where it is the first
half of a pair, replaced where it is half of nothing. -/
def joinSurrogates (unit : Nat) (rest : Text) : Text × Text :=
  if 0xD800 ≤ unit ∧ unit < 0xDC00 then
    match rest with
    | 92 :: 117 :: more =>
      match fourHex? more with
      | some (low, rest') =>
        if 0xDC00 ≤ low ∧ low < 0xE000 then
          (Text.encodeCode (0x10000 + (unit - 0xD800) * 0x400 + (low - 0xDC00)), rest')
        else (Text.encodeCode Text.replacementCode, rest)
      | none => (Text.encodeCode Text.replacementCode, rest)
    | _ => (Text.encodeCode Text.replacementCode, rest)
  else (Text.encodeCode unit, rest)

/-- The text of a string behind its opening quote, and what follows its closing quote. -/
def stringBody : (fuel : Nat) → Text → Option (Text × Text)
  | 0, _ => none
  | _ + 1, [] => none
  | fuel + 1, b :: rest =>
    if b = 34 then some ([], rest)
    else if b < 0x20 then none
    else if b = 92 then
      match rest with
      | [] => none
      | c :: rest =>
        if c = 117 then
          match fourHex? rest with
          | none => none
          | some (unit, rest) =>
            let (written, rest) := joinSurrogates unit rest
            (stringBody fuel rest).map fun (t, rest) => (written ++ t, rest)
        else
          match escapeLetter? c with
          | none => none
          | some e => (stringBody fuel rest).map fun (t, rest) => (e :: t, rest)
    else (stringBody fuel rest).map fun (t, rest) => (b :: t, rest)

/-- A string behind its opening quote, with stray bytes replaced. -/
def string? (fuel : Nat) (t : Text) : Option (Text × Text) :=
  (stringBody fuel t).map fun (s, rest) => (Text.repaired s, rest)

/-! ## Numbers -/

/-- A run of digits at the front, and what follows it. -/
def digits (t : Text) : Text × Text := (t.takeWhile Text.isDigit, t.dropWhile Text.isDigit)

/-- The exponent at the front, zero if there is none. -/
def exponent? : Text → Option (Int × Text)
  | [] => some (0, [])
  | b :: rest =>
    if b = 101 ∨ b = 69 then
      let (negative, rest) := match rest with
        | 45 :: more => (true, more)
        | 43 :: more => (false, more)
        | _ => (false, rest)
      let (ds, rest) := digits rest
      if ds.isEmpty then none
      else
        let n : Int := Decimal.value ds
        some (if negative then -n else n, rest)
    else some (0, b :: rest)

/-- A number at the front, and what follows it. -/
def number? (t : Text) : Option (Binary64 × Text) :=
  let (negative, t) := match t with
    | 45 :: more => (true, more)
    | _ => (false, t)
  let (whole, t) := digits t
  if whole.isEmpty || (1 < whole.length && whole.head? == some 48) then none
  else
    let fraction? : Option (Text × Text) := match t with
      | 46 :: more =>
        let (ds, rest) := digits more
        if ds.isEmpty then none else some (ds, rest)
      | _ => some ([], t)
    match fraction? with
    | none => none
    | some (fraction, t) =>
      match exponent? t with
      | none => none
      | some (e, t) =>
        (Binary64.ofDecimal? negative (Decimal.value (whole ++ fraction))
          (e - (fraction.length : Int))).map fun x => (x, t)

/-! ## Values -/

/-- The entries with a value for `key`, in the place of an earlier one. -/
def put (entries : List (Text × Value)) (key : Text) (v : Value) : List (Text × Value) :=
  entries.filter (fun e => e.1 ≠ key) ++ [(key, v)]

mutual

/-- A value at the front, and what follows it. -/
def value? : (fuel : Nat) → Text → Option (Value × Text)
  | 0, _ => none
  | fuel + 1, t =>
    match skipGap t with
    | 34 :: rest => (string? (rest.length + 1) rest).map fun (s, rest) => (.text s, rest)
    | 123 :: rest =>
      match skipGap rest with
      | 125 :: rest => some (.empty, rest)
      | rest => object? fuel [] rest
    | 91 :: rest =>
      match skipGap rest with
      | 93 :: rest => some (.array [], rest)
      | rest => array? fuel [] rest
    | t =>
      match Text.dropLead? (ascii "true") t with
      | some rest => some (.boolean true, rest)
      | none =>
        match Text.dropLead? (ascii "false") t with
        | some rest => some (.boolean false, rest)
        | none =>
          match Text.dropLead? (ascii "null") t with
          | some rest => some (.null, rest)
          | none => (number? t).map fun (x, rest) => (.float x, rest)

/-- The entries of an object from the next key on, behind the entries read before. -/
def object? : (fuel : Nat) → List (Text × Value) → Text → Option (Value × Text)
  | 0, _, _ => none
  | fuel + 1, before, t =>
    match skipGap t with
    | 34 :: rest =>
      match string? (rest.length + 1) rest with
      | none => none
      | some (key, rest) =>
        match skipGap rest with
        | 58 :: rest =>
          match value? fuel rest with
          | none => none
          | some (v, rest) =>
            match skipGap rest with
            | 44 :: rest => object? fuel (put before key v) rest
            | 125 :: rest => some (.table (put before key v), rest)
            | _ => none
        | _ => none
    | _ => none

/-- The items of an array from the next one on, behind the items read before. -/
def array? : (fuel : Nat) → List Value → Text → Option (Value × Text)
  | 0, _, _ => none
  | fuel + 1, before, t =>
    match value? fuel t with
    | none => none
    | some (v, rest) =>
      match skipGap rest with
      | 44 :: rest => array? fuel (before ++ [v]) rest
      | 93 :: rest => some (.array (before ++ [v]), rest)
      | _ => none

end

/-- A document that is one object; null counts as the empty one. -/
def parse? (t : Text) : Option Value :=
  match value? (2 * t.length + 2) t with
  | some (v, rest) =>
    if !(skipGap rest).isEmpty then none
    else match v with
      | .table es => some (.table es)
      | .null => some .empty
      | _ => none
  | none => none

end CrateBump.Json
