/-
# Characters in a byte string

A text is read as a sequence of pieces: a character written in well-formed UTF-8, or a byte that
belongs to no character.  A byte that starts nothing well-formed is one piece of its own, so every
text has exactly one reading and no byte is lost (`flatMap_bytes_pieces`).
-/
import CrateBump.Text.Basic

namespace CrateBump.Text

/-! ## Writing a character -/

/-- The code point that stands for something unreadable. -/
def replacementCode : Nat := 0xFFFD

/-- The UTF-8 form of a code point; one outside the range of characters is written as the
replacement character. -/
def encodeCode (code : Nat) : Text :=
  if code < 0x80 then [code.toUInt8]
  else if code < 0x800 then [(0xC0 + code / 0x40).toUInt8, (0x80 + code % 0x40).toUInt8]
  else if (0xD800 ≤ code ∧ code ≤ 0xDFFF) ∨ 0x10FFFF < code then [0xEF, 0xBF, 0xBD]
  else if code < 0x10000 then
    [(0xE0 + code / 0x1000).toUInt8, (0x80 + code / 0x40 % 0x40).toUInt8,
      (0x80 + code % 0x40).toUInt8]
  else
    [(0xF0 + code / 0x40000).toUInt8, (0x80 + code / 0x1000 % 0x40).toUInt8,
      (0x80 + code / 0x40 % 0x40).toUInt8, (0x80 + code % 0x40).toUInt8]

/-! ## Reading pieces -/

/-- A part of a text: a character with the bytes that write it, or a byte outside any character. -/
inductive Piece where
  | char (code : Nat) (bytes : Text)
  | stray (byte : UInt8)
  deriving DecidableEq, Repr

namespace Piece

/-- The bytes the piece was read from. -/
def bytes : Piece → Text
  | char _ bs => bs
  | stray b => [b]

/-- The code point of the piece, the replacement character for a stray byte. -/
def code : Piece → Nat
  | char c _ => c
  | stray _ => replacementCode

end Piece

/-- A byte that continues a character. -/
def isContinuation (b : UInt8) : Bool := 0x80 ≤ b && b ≤ 0xBF

/-- The payload of a continuation byte. -/
def continuationBits (b : UInt8) : Nat := b.toNat % 0x40

/-- The bytes that may follow `lead` directly in a character of more than one byte; overlong
forms, surrogates and values past the last character are excluded here. -/
def secondByteOk (lead b : UInt8) : Bool :=
  if lead == 0xE0 then 0xA0 ≤ b && b ≤ 0xBF
  else if lead == 0xED then 0x80 ≤ b && b ≤ 0x9F
  else if lead == 0xF0 then 0x90 ≤ b && b ≤ 0xBF
  else if lead == 0xF4 then 0x80 ≤ b && b ≤ 0x8F
  else isContinuation b

/-- The piece at the front of the text `b :: rest`. -/
def firstPiece (b : UInt8) (rest : Text) : Piece :=
  if b < 0x80 then .char b.toNat [b]
  else if 0xC2 ≤ b && b ≤ 0xDF then
    match rest with
    | b1 :: _ =>
      if secondByteOk b b1 then .char (b.toNat % 0x20 * 0x40 + continuationBits b1) [b, b1]
      else .stray b
    | _ => .stray b
  else if 0xE0 ≤ b && b ≤ 0xEF then
    match rest with
    | b1 :: b2 :: _ =>
      if secondByteOk b b1 && isContinuation b2 then
        .char (b.toNat % 0x10 * 0x1000 + continuationBits b1 * 0x40 + continuationBits b2)
          [b, b1, b2]
      else .stray b
    | _ => .stray b
  else if 0xF0 ≤ b && b ≤ 0xF4 then
    match rest with
    | b1 :: b2 :: b3 :: _ =>
      if secondByteOk b b1 && isContinuation b2 && isContinuation b3 then
        .char (b.toNat % 0x8 * 0x40000 + continuationBits b1 * 0x1000 + continuationBits b2 * 0x40
          + continuationBits b3) [b, b1, b2, b3]
      else .stray b
    | _ => .stray b
  else .stray b

/-- The pieces behind the next `skip` bytes. -/
def piecesAfter : (skip : Nat) → Text → List Piece
  | _, [] => []
  | skip + 1, _ :: rest => piecesAfter skip rest
  | 0, b :: rest =>
    let piece := firstPiece b rest
    piece :: piecesAfter (piece.bytes.length - 1) rest

/-- The pieces of a text, from its start to its end. -/
def pieces (t : Text) : List Piece := piecesAfter 0 t

/-- A piece is written by the bytes at the front of the text it was read from. -/
theorem firstPiece_bytes (b : UInt8) (rest : Text) :
    ∃ more tail, (firstPiece b rest).bytes = b :: more ∧ rest = more ++ tail := by
  unfold firstPiece
  split
  · exact ⟨[], rest, rfl, rfl⟩
  · repeat' split
    all_goals first
      | exact ⟨[], _, rfl, rfl⟩
      | exact ⟨[_], _, rfl, rfl⟩
      | exact ⟨[_, _], _, rfl, rfl⟩
      | exact ⟨[_, _, _], _, rfl, rfl⟩

theorem flatMap_bytes_piecesAfter (skip : Nat) (t : Text) :
    (piecesAfter skip t).flatMap Piece.bytes = t.drop skip := by
  induction t generalizing skip with
  | nil => simp [piecesAfter]
  | cons b rest ih =>
    cases skip with
    | succ skip => simp [piecesAfter, ih]
    | zero =>
      obtain ⟨more, tail, hb, hr⟩ := firstPiece_bytes b rest
      have hlen : (b :: more).length - 1 = more.length := by simp
      simp only [piecesAfter, List.flatMap_cons, ih, hb, hlen, List.drop_zero]
      rw [hr]
      simp

/-- The pieces of a text hold all of its bytes in order. -/
theorem flatMap_bytes_pieces (t : Text) : (pieces t).flatMap Piece.bytes = t := by
  simp [pieces, flatMap_bytes_piecesAfter]

/-! ## Whole texts -/

/-- Whether every byte belongs to a character. -/
def isUtf8 (t : Text) : Bool :=
  (pieces t).all fun
    | .char _ _ => true
    | .stray _ => false

/-- The code points of a text, the replacement character for each stray byte. -/
def codes (t : Text) : List Nat := (pieces t).map Piece.code

/-- The text with each code point replaced by `f` of it; a stray byte becomes the replacement
character. -/
def mapCodes (f : Nat → Nat) (t : Text) : Text :=
  (pieces t).flatMap fun
    | .char code _ => encodeCode (f code)
    | .stray _ => encodeCode replacementCode

/-- The text with each stray byte replaced by the replacement character. -/
def repaired (t : Text) : Text := mapCodes id t

end CrateBump.Text
