/-
# Quoted text

A text inside a message stands between quotes with everything unprintable escaped: the usual letters
for control bytes, `\x` for other bytes and for bytes outside any character, `\u` and `\U` for
unprintable characters.  Printable characters stand as they are.
-/
import CrateBump.Text.Printable

namespace CrateBump.Text

/-! ## Hexadecimal digits -/

/-- The lower-case hexadecimal digit of a number below sixteen. -/
def hexDigit (n : Nat) : UInt8 := if n < 10 then (48 + n).toUInt8 else (87 + n).toUInt8

/-- The lowest `width` hexadecimal digits of `n`, most significant first. -/
def hexDigits : (width : Nat) → Nat → Text
  | 0, _ => []
  | width + 1, n => hexDigits width (n / 16) ++ [hexDigit (n % 16)]

/-- The text as two hexadecimal digits for each byte. -/
def toHex (t : Text) : Text := t.flatMap fun b => hexDigits 2 b.toNat

/-! ## Escapes -/

/-- The letter behind the backslash for a control byte that has one. -/
def controlLetter? (code : Nat) : Option UInt8 :=
  match code with
  | 7 => some 97
  | 8 => some 98
  | 12 => some 102
  | 10 => some 110
  | 13 => some 114
  | 9 => some 116
  | 11 => some 118
  | _ => none

/-- A character as it stands between quotes `quote`. -/
def escapeCode (quote : UInt8) (code : Nat) : Text :=
  if code = quote.toNat ∨ code = 92 then [92, code.toUInt8]
  else if isPrintable code then encodeCode code
  else match controlLetter? code with
    | some letter => [92, letter]
    | none =>
      if code < 0x20 ∨ code = 0x7F then [92, 120] ++ hexDigits 2 code
      else if code < 0x10000 then [92, 117] ++ hexDigits 4 code
      else [92, 85] ++ hexDigits 8 code

/-- A piece as it stands between quotes `quote`. -/
def escapePiece (quote : UInt8) : Piece → Text
  | .char code _ => escapeCode quote code
  | .stray b => [92, 120] ++ hexDigits 2 b.toNat

/-- The text between double quotes, escaped. -/
def quoted (t : Text) : Text :=
  [doubleQuote] ++ (pieces t).flatMap (escapePiece doubleQuote) ++ [doubleQuote]

/-- A single character between single quotes, escaped. -/
def quotedChar (code : Nat) : Text := [39] ++ escapeCode 39 code ++ [39]

/-- Whether the text can stand between back quotes without any escape: no control but the tab, no
back quote, no byte-order mark and no stray byte. -/
def fitsBackquotes (t : Text) : Bool :=
  (pieces t).all fun
    | .stray _ => false
    | .char code _ => !((code < 0x20 && code != 9) || code == 96 || code == 0x7F || code == 0xFEFF)

/-- The text between back quotes if it fits there, else between double quotes. -/
def plainlyQuoted (t : Text) : Text := if fitsBackquotes t then [96] ++ t ++ [96] else quoted t

end CrateBump.Text
