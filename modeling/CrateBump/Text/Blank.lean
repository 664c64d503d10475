/-
# White space

The characters with the Unicode property `White_Space`, and trimming by it.  A stray byte is never
white space.
-/
import CrateBump.Text.Utf8

namespace CrateBump.Text

/-- Whether the code point has the property `White_Space`. -/
def isWhiteCode (code : Nat) : Bool :=
  (9 ≤ code && code ≤ 13) || code == 0x20 || code == 0x85 || code == 0xA0 || code == 0x1680
    || (0x2000 ≤ code && code ≤ 0x200A) || code == 0x2028 || code == 0x2029 || code == 0x202F
    || code == 0x205F || code == 0x3000

namespace Piece

/-- Whether the piece is a white space character. -/
def isWhite : Piece → Bool
  | char code _ => isWhiteCode code
  | stray _ => false

end Piece

/-- Whether the text is empty or holds white space only. -/
def isWhite (t : Text) : Bool := (pieces t).all Piece.isWhite

/-- The text without the white space at both of its ends. -/
def trim (t : Text) : Text :=
  let inner := ((pieces t).dropWhile Piece.isWhite).reverse.dropWhile Piece.isWhite
  inner.reverse.flatMap Piece.bytes

end CrateBump.Text
