/-
# Answers on a line

A prompter that takes its answer from the input reads one line through a buffer.  What it decides
depends on the text of that line alone, and what it takes from the input is that line and what came
into the buffer with it.  An answer declines if it is white space or the letter n; white space is
told by characters, so a byte that belongs to none is not blank.

Main statements: a character is written as it was read and read as it was written
(`encodeCode_of_firstPiece`, `pieces_encodeCode`), so the blank answers are the written forms of white
space (`isWhite_iff`); a line takes less than a buffer more than itself (`readLine_rest`); and the
answer is decided by the first line, however the input arrives (`line_first_answer`).
-/
import CrateBump.Prompt.Prompter
import CrateBump.Proofs.FirstLine
import Mathlib.Data.List.Basic

namespace CrateBump

/-! ## Characters, written and read -/

namespace Text

theorem toUInt8_eq {n : Nat} {b : UInt8} (h : n = b.toNat) : n.toUInt8 = b := by
  rw [h]
  exact UInt8.ofNat_toNat

/-- The bytes behind a lead byte, as a range. -/
theorem isContinuation_iff {b : UInt8} :
    isContinuation b = true ↔ 0x80 ≤ b.toNat ∧ b.toNat ≤ 0xBF := by
  simp [isContinuation, UInt8.le_iff_toNat_le]

/-- The second byte of a character, as a range that depends on the first. -/
theorem secondByteOk_iff {lead b : UInt8} :
    secondByteOk lead b = true ↔ isContinuation b = true
      ∧ (lead.toNat = 0xE0 → 0xA0 ≤ b.toNat) ∧ (lead.toNat = 0xED → b.toNat ≤ 0x9F)
      ∧ (lead.toNat = 0xF0 → 0x90 ≤ b.toNat) ∧ (lead.toNat = 0xF4 → b.toNat ≤ 0x8F) := by
  unfold secondByteOk
  simp only [isContinuation_iff, beq_iff_eq, ← UInt8.toNat_inj, UInt8.le_iff_toNat_le,
    UInt8.reduceToNat]
  repeat' split
  all_goals
    simp only [isContinuation_iff, Bool.and_eq_true, decide_eq_true_eq]
    omega

/-- A character of two bytes is written again as it was read. -/
theorem encodeCode_two {b b₁ : UInt8} (hb : 0xC2 ≤ b.toNat ∧ b.toNat ≤ 0xDF)
    (h₁ : isContinuation b₁ = true) :
    encodeCode (b.toNat % 0x20 * 0x40 + continuationBits b₁) = [b, b₁] := by
  rw [isContinuation_iff] at h₁
  unfold encodeCode continuationBits
  rw [if_neg (by omega), if_pos (by omega), toUInt8_eq (b := b) (by omega),
    toUInt8_eq (b := b₁) (by omega)]

/-- So is one of three. -/
theorem encodeCode_three {b b₁ b₂ : UInt8} (hb : 0xE0 ≤ b.toNat ∧ b.toNat ≤ 0xEF)
    (h₁ : secondByteOk b b₁ = true) (h₂ : isContinuation b₂ = true) :
    encodeCode (b.toNat % 0x10 * 0x1000 + continuationBits b₁ * 0x40 + continuationBits b₂)
      = [b, b₁, b₂] := by
  rw [secondByteOk_iff, isContinuation_iff] at h₁
  rw [isContinuation_iff] at h₂
  unfold encodeCode continuationBits
  rw [if_neg (by omega), if_neg (by omega), if_neg (by omega), if_pos (by omega),
    toUInt8_eq (b := b) (by omega), toUInt8_eq (b := b₁) (by omega),
    toUInt8_eq (b := b₂) (by omega)]

/-- So is one of four. -/
theorem encodeCode_four {b b₁ b₂ b₃ : UInt8} (hb : 0xF0 ≤ b.toNat ∧ b.toNat ≤ 0xF4)
    (h₁ : secondByteOk b b₁ = true) (h₂ : isContinuation b₂ = true)
    (h₃ : isContinuation b₃ = true) :
    encodeCode (b.toNat % 0x8 * 0x40000 + continuationBits b₁ * 0x1000
      + continuationBits b₂ * 0x40 + continuationBits b₃) = [b, b₁, b₂, b₃] := by
  rw [secondByteOk_iff, isContinuation_iff] at h₁
  rw [isContinuation_iff] at h₂ h₃
  unfold encodeCode continuationBits
  rw [if_neg (by omega), if_neg (by omega), if_neg (by omega), if_neg (by omega),
    toUInt8_eq (b := b) (by omega), toUInt8_eq (b := b₁) (by omega),
    toUInt8_eq (b := b₂) (by omega), toUInt8_eq (b := b₃) (by omega)]

/-- A character is written as it was read. -/
theorem encodeCode_of_firstPiece {b : UInt8} {rest bytes : Text} {code : Nat}
    (h : firstPiece b rest = .char code bytes) : encodeCode code = bytes := by
  unfold firstPiece at h
  simp only [Bool.and_eq_true, decide_eq_true_eq, UInt8.le_iff_toNat_le, UInt8.lt_iff_toNat_lt,
    UInt8.reduceToNat] at h
  split at h
  · next hb =>
    obtain ⟨rfl, rfl⟩ := Piece.char.inj h
    rw [encodeCode, if_pos hb, toUInt8_eq rfl]
  split at h
  · next hb =>
    split at h
    · split at h
      · next h₁ =>
        obtain ⟨rfl, rfl⟩ := Piece.char.inj h
        exact encodeCode_two hb (secondByteOk_iff.1 h₁).1
      · cases h
    · cases h
  split at h
  · next hb =>
    split at h
    · split at h
      · next h₁ =>
        obtain ⟨rfl, rfl⟩ := Piece.char.inj h
        exact encodeCode_three hb h₁.1 h₁.2
      · cases h
    · cases h
  split at h
  · next hb =>
    split at h
    · split at h
      · next h₁ =>
        obtain ⟨rfl, rfl⟩ := Piece.char.inj h
        exact encodeCode_four hb h₁.1.1 h₁.1.2 h₁.2
      · cases h
    · cases h
  · cases h

/-- A code point of a character. -/
def IsScalar (code : Nat) : Prop := code < 0xD800 ∨ 0xDFFF < code ∧ code ≤ 0x10FFFF

theorem toNat_toUInt8 {n : Nat} (h : n < 256) : n.toUInt8.toNat = n :=
  UInt8.toNat_ofNat_of_lt' h

/-- A byte of ASCII is a character. -/
theorem firstPiece_one {b : UInt8} (hb : b.toNat < 0x80) (rest : Text) :
    firstPiece b rest = .char b.toNat [b] := by
  unfold firstPiece
  exact if_pos (UInt8.lt_iff_toNat_lt.2 hb)

/-- A lead byte with one byte behind it is a character. -/
theorem firstPiece_two {b b₁ : UInt8} (hb : 0xC2 ≤ b.toNat ∧ b.toNat ≤ 0xDF)
    (h₁ : secondByteOk b b₁ = true) (rest : Text) :
    firstPiece b (b₁ :: rest)
      = .char (b.toNat % 0x20 * 0x40 + continuationBits b₁) [b, b₁] := by
  simp only [firstPiece, Bool.and_eq_true, decide_eq_true_eq, UInt8.le_iff_toNat_le,
    UInt8.lt_iff_toNat_lt, UInt8.reduceToNat, h₁, if_true]
  rw [if_neg (by omega), if_pos hb]

/-- A lead byte with two bytes behind it is a character. -/
theorem firstPiece_three {b b₁ b₂ : UInt8} (hb : 0xE0 ≤ b.toNat ∧ b.toNat ≤ 0xEF)
    (h₁ : secondByteOk b b₁ = true) (h₂ : isContinuation b₂ = true) (rest : Text) :
    firstPiece b (b₁ :: b₂ :: rest)
      = .char (b.toNat % 0x10 * 0x1000 + continuationBits b₁ * 0x40 + continuationBits b₂)
        [b, b₁, b₂] := by
  simp only [firstPiece, Bool.and_eq_true, decide_eq_true_eq, UInt8.le_iff_toNat_le,
    UInt8.lt_iff_toNat_lt, UInt8.reduceToNat, h₁, h₂, and_self, if_true]
  rw [if_neg (by omega), if_neg (by omega), if_pos hb]

/-- A lead byte with three bytes behind it is a character. -/
theorem firstPiece_four {b b₁ b₂ b₃ : UInt8} (hb : 0xF0 ≤ b.toNat ∧ b.toNat ≤ 0xF4)
    (h₁ : secondByteOk b b₁ = true) (h₂ : isContinuation b₂ = true)
    (h₃ : isContinuation b₃ = true) (rest : Text) :
    firstPiece b (b₁ :: b₂ :: b₃ :: rest)
      = .char (b.toNat % 0x8 * 0x40000 + continuationBits b₁ * 0x1000
        + continuationBits b₂ * 0x40 + continuationBits b₃) [b, b₁, b₂, b₃] := by
  simp only [firstPiece, Bool.and_eq_true, decide_eq_true_eq, UInt8.le_iff_toNat_le,
    UInt8.lt_iff_toNat_lt, UInt8.reduceToNat, h₁, h₂, h₃, and_self, if_true]
  rw [if_neg (by omega), if_neg (by omega), if_neg (by omega), if_pos hb]

/-- A character is read from its written form, whatever follows. -/
theorem firstPiece_encodeCode {code : Nat} (h : IsScalar code) (rest : Text) :
    ∃ b more, encodeCode code = b :: more
      ∧ firstPiece b (more ++ rest) = .char code (encodeCode code) := by
  have hcont : ∀ n, (0x80 + n % 0x40).toUInt8.toNat = 0x80 + n % 0x40 := fun n =>
    toNat_toUInt8 (by omega)
  have hmore : ∀ n, isContinuation (0x80 + n % 0x40).toUInt8 = true := by
    intro n
    rw [isContinuation_iff, hcont]
    omega
  have hbits : ∀ n, continuationBits (0x80 + n % 0x40).toUInt8 = n % 0x40 := by
    intro n
    rw [continuationBits, hcont]
    omega
  unfold IsScalar at h
  unfold encodeCode
  split
  · next hone =>
    have hb : code.toUInt8.toNat = code := toNat_toUInt8 (by omega)
    refine ⟨_, _, rfl, ?_⟩
    rw [firstPiece_one (by omega), hb]
  split
  · have hb : (0xC0 + code / 0x40).toUInt8.toNat = 0xC0 + code / 0x40 := toNat_toUInt8 (by omega)
    refine ⟨_, _, rfl, (firstPiece_two (by omega) ?_ rest).trans ?_⟩
    · rw [secondByteOk_iff, hb]
      exact ⟨hmore code, by omega⟩
    · rw [hbits, hb, show (0xC0 + code / 0x40) % 0x20 * 0x40 + code % 0x40 = code by omega]
  split
  · omega
  split
  · have hb : (0xE0 + code / 0x1000).toUInt8.toNat = 0xE0 + code / 0x1000 :=
      toNat_toUInt8 (by omega)
    refine ⟨_, _, rfl, (firstPiece_three (by omega) ?_ (hmore code) rest).trans ?_⟩
    · rw [secondByteOk_iff, hb, hcont]
      exact ⟨hmore (code / 0x40), by omega⟩
    · rw [hbits, hbits, hb, show (0xE0 + code / 0x1000) % 0x10 * 0x1000 + code / 0x40 % 0x40 * 0x40
        + code % 0x40 = code by omega]
  · have hb : (0xF0 + code / 0x40000).toUInt8.toNat = 0xF0 + code / 0x40000 :=
      toNat_toUInt8 (by omega)
    refine ⟨_, _, rfl, (firstPiece_four (by omega) ?_ (hmore (code / 0x40)) (hmore code) rest).trans ?_⟩
    · rw [secondByteOk_iff, hb, hcont]
      exact ⟨hmore (code / 0x1000), by omega⟩
    · rw [hbits, hbits, hbits, hb, show (0xF0 + code / 0x40000) % 0x8 * 0x40000
        + code / 0x1000 % 0x40 * 0x1000 + code / 0x40 % 0x40 * 0x40 + code % 0x40 = code by omega]

/-- Bytes that belong to the piece before are passed over. -/
theorem piecesAfter_eq (skip : Nat) (t : Text) : piecesAfter skip t = pieces (t.drop skip) := by
  induction t generalizing skip with
  | nil => simp [pieces, piecesAfter]
  | cons b t ih =>
    cases skip with
    | zero => rfl
    | succ skip => rw [piecesAfter, ih, List.drop_succ_cons]

/-- A text is its first piece, and then the pieces behind its bytes. -/
theorem pieces_cons (b : UInt8) (t : Text) :
    pieces (b :: t) = firstPiece b t :: pieces (t.drop ((firstPiece b t).bytes.length - 1)) := by
  rw [pieces, piecesAfter, piecesAfter_eq]

/-- An encoded character in front of a text is its first piece. -/
theorem pieces_encodeCode {code : Nat} (h : IsScalar code) (rest : Text) :
    pieces (encodeCode code ++ rest) = .char code (encodeCode code) :: pieces rest := by
  obtain ⟨b, more, hcode, hpiece⟩ := firstPiece_encodeCode h rest
  rw [hcode, List.cons_append, pieces_cons, hpiece, hcode]
  simp [Piece.bytes]

/-- Encoded characters are read back one by one. -/
theorem pieces_flatMap_encodeCode {codes : List Nat} (h : ∀ c ∈ codes, IsScalar c) :
    pieces (codes.flatMap encodeCode) = codes.map fun c => .char c (encodeCode c) := by
  induction codes with
  | nil => rfl
  | cons c codes ih =>
    rw [List.forall_mem_cons] at h
    rw [List.flatMap_cons, pieces_encodeCode h.1, ih h.2, List.map_cons]

/-- Every piece is the first one of some text. -/
theorem exists_firstPiece_of_mem {p : Piece} {skip : Nat} {t : Text} (h : p ∈ piecesAfter skip t) :
    ∃ b rest, p = firstPiece b rest := by
  induction t generalizing skip with
  | nil => exact absurd h List.not_mem_nil
  | cons b t ih =>
    cases skip with
    | succ skip => exact ih h
    | zero =>
      rcases List.mem_cons.1 h with rfl | h
      · exact ⟨b, t, rfl⟩
      · exact ih h

/-! ## White space -/

/-- White space can be encoded. -/
theorem isScalar_of_isWhiteCode {code : Nat} (h : isWhiteCode code = true) : IsScalar code := by
  simp only [isWhiteCode, Bool.or_eq_true, Bool.and_eq_true, decide_eq_true_eq, beq_iff_eq] at h
  unfold IsScalar
  omega

/-- A white piece is the written form of its code point. -/
theorem Piece.bytes_of_isWhite {p : Piece} {t : Text} (hp : p ∈ pieces t) (h : p.isWhite = true) :
    p.bytes = encodeCode p.code ∧ isWhiteCode p.code = true := by
  obtain ⟨b, rest, hpiece⟩ := exists_firstPiece_of_mem hp
  cases p with
  | char code bytes => exact ⟨(encodeCode_of_firstPiece hpiece.symm).symm, h⟩
  | stray b => cases h

/-- White space characters, any number of them, one written behind the other. -/
def IsWhiteSpace (t : Text) : Prop :=
  ∃ codes : List Nat, (∀ c ∈ codes, isWhiteCode c = true) ∧ t = codes.flatMap encodeCode

/-- **The blank texts are the written forms of white space.** -/
theorem isWhite_iff {t : Text} : isWhite t = true ↔ IsWhiteSpace t := by
  constructor
  · intro h
    have hwhite := List.all_eq_true.1 h
    refine ⟨(pieces t).map Piece.code, ?_, ?_⟩
    · intro c hc
      obtain ⟨p, hp, rfl⟩ := List.mem_map.1 hc
      exact (Piece.bytes_of_isWhite hp (hwhite p hp)).2
    · calc t = (pieces t).flatMap Piece.bytes := (flatMap_bytes_pieces t).symm
        _ = (pieces t).flatMap fun p => encodeCode p.code :=
          List.flatMap_congr fun p hp => (Piece.bytes_of_isWhite hp (hwhite p hp)).1
        _ = ((pieces t).map Piece.code).flatMap encodeCode := (List.flatMap_map ..).symm
  · rintro ⟨codes, hwhite, rfl⟩
    rw [isWhite, pieces_flatMap_encodeCode fun c hc => isScalar_of_isWhiteCode (hwhite c hc),
      List.all_map]
    exact List.all_eq_true.2 hwhite

end Text

/-- An answer declines if it is white space or the letter n. -/
theorem accepts_eq_false_iff {answer : Text} :
    accepts answer = false
      ↔ Text.IsWhiteSpace answer ∨ answer = ascii "n" ∨ answer = ascii "N" := by
  rw [← Text.isWhite_iff, accepts, Bool.not_eq_false', Bool.or_eq_true, Bool.or_eq_true, beq_iff_eq,
    beq_iff_eq, or_assoc]

/-! ## What is taken from the input -/

namespace Reader

/-- A read gives at most as much as there is room for. -/
theorem portion_le (r : Reader) (room : Nat) : r.portion room ≤ room := by
  unfold portion
  split
  · exact Nat.le_refl room
  · exact Nat.min_le_left _ _

/-- So does the chunk that it gives. -/
theorem length_chunk_le (r : Reader) (room : Nat) : (r.chunk room).length ≤ room := by
  rw [chunk, List.length_take]
  exact Nat.le_trans (Nat.min_le_left _ _) (r.portion_le room)

/-- There is never more room than the buffer has. -/
theorem roomAfter_le {room : Nat} (h : room ≤ bufferSize) (taken : Nat) :
    roomAfter room taken ≤ bufferSize := by
  unfold roomAfter
  split <;> omega

/-- Behind the line, less is taken than the buffer holds: the line feed came in with it. -/
theorem readLineWithin_rest {fuel room : Nat} {r : Reader} (hfuel : r.remaining.length < fuel)
    (hroom : 0 < room) (hsize : room ≤ bufferSize) :
    ∃ lost, r.remaining = firstLine r.remaining ++ firstEnd r.remaining
        ++ (lost ++ (readLineWithin fuel room r).rest.remaining)
      ∧ lost.length < bufferSize := by
  induction fuel generalizing room r with
  | zero => omega
  | succ fuel ih =>
    rw [readLineWithin]
    split
    · next hnil =>
      refine ⟨[], ?_, by decide⟩
      rw [hnil]
      rfl
    next hne =>
    dsimp only
    have hparts := r.chunk_append_afterRead room
    split
    · next hfeed =>
      have hchunk : lineFeed ∈ r.chunk room := by simpa using hfeed
      obtain ⟨before, lost, hcut, hbefore⟩ := List.eq_append_cons_of_mem hchunk
      have hlength := r.length_chunk_le room
      rw [hcut, List.length_append, List.length_cons] at hlength
      refine ⟨lost, ?_, by omega⟩
      rw [← hparts, hcut, List.append_assoc, firstLine_append_of_not_mem hbefore]
      simp [firstLine, firstEnd]
    · next hfeed =>
      have hchunk : lineFeed ∉ r.chunk room := by simpa using hfeed
      have hrest : (r.afterRead room).remaining.length < fuel := by
        have hless := r.length_afterRead_lt hroom (by simpa using hne)
        omega
      obtain ⟨lost, hlost, hlength⟩ := ih hrest (roomAfter_pos room (r.chunk room).length)
        (roomAfter_le hsize _)
      refine ⟨lost, ?_, hlength⟩
      rw [Line.after]
      dsimp only
      generalize (readLineWithin fuel _ (r.afterRead room)).rest.remaining = left at hlost ⊢
      have hend : firstEnd (r.chunk room ++ (r.afterRead room).remaining)
          = firstEnd (r.afterRead room).remaining := by
        simp only [firstEnd, List.mem_append, hchunk, false_or]
      rw [← hparts, firstLine_append_of_not_mem hchunk, hend, List.append_assoc, List.append_assoc,
        ← List.append_assoc (firstLine _), ← hlost]

/-- What a read takes beyond the line is less than a buffer. -/
theorem readLine_rest (r : Reader) :
    ∃ lost, r.remaining = firstLine r.remaining ++ firstEnd r.remaining
        ++ (lost ++ r.readLine.rest.remaining)
      ∧ lost.length < bufferSize :=
  readLineWithin_rest (Nat.lt_succ_self _) (by decide) (Nat.le_refl _)

end Reader

/-! ## The answer -/

theorem answerLine_rest (r : Reader) : (answerLine r).rest = r.readLine.rest := by
  unfold answerLine
  dsimp only
  split <;> rfl

/-- The first line ends at the first line feed. -/
theorem firstLine_of_append {before : Text} (h : lineFeed ∉ before) (after : Text) :
    firstLine (before ++ lineFeed :: after) = before := by
  rw [firstLine_append_of_not_mem h]
  simp [firstLine]

/-- A text without a line feed is its first line. -/
theorem firstLine_of_not_mem {t : Text} (h : lineFeed ∉ t) : firstLine t = t := by
  have hline := firstLine_append_of_not_mem h []
  rw [List.append_nil] at hline
  exact hline.trans (List.append_nil t)

/-- **The answer is decided by the first line, however the input arrives.**  If there is a line feed,
the answer is the text before the first one without carriage returns at its end, and what follows in
the input does not matter; an input that ends without one is a line as well, and one that fails
without one gives no answer.  An answer declines if it is white space, the empty one included, or the
letter n.  The line and its line feed are taken from the input, and less than a buffer behind it. -/
theorem line_first_answer (question : Text) (w : World) :
    let reply := Prompter.line question w
    let left := reply.world.input.remaining
    (∀ before after, w.input.remaining = before ++ lineFeed :: after → lineFeed ∉ before →
      reply.decision = .ok (accepts (Text.dropEndWhile (· == 13) before))
        ∧ ∃ lost, after = lost ++ left ∧ lost.length ≤ 4095)
    ∧ (lineFeed ∉ w.input.remaining →
      left = []
        ∧ (w.input.ending = .endOfFile →
          reply.decision = .ok (accepts (Text.dropEndWhile (· == 13) w.input.remaining)))
        ∧ ∀ text, w.input.ending = .failure text →
          reply.decision = .error (ascii "reading answer: " ++ text))
    ∧ ∀ answer, accepts answer = false
      ↔ Text.IsWhiteSpace answer ∨ answer = ascii "n" ∨ answer = ascii "N" := by
  intro reply left
  have hdecision : reply.decision = _ := answerLine_decision w.input
  have hleft : left = w.input.readLine.rest.remaining :=
    congrArg Reader.remaining (answerLine_rest w.input)
  obtain ⟨lost, hlost, hlength⟩ := w.input.readLine_rest
  rw [← hleft] at hlost
  refine ⟨?_, ?_, fun answer => accepts_eq_false_iff⟩
  · intro before after hinput hbefore
    have hmem : lineFeed ∈ w.input.remaining := by
      rw [hinput]
      exact List.mem_append_right _ List.mem_cons_self
    have hline := firstLine_of_append hbefore after
    rw [← hinput] at hline
    rw [if_pos hmem, firstAnswer, hline] at hdecision
    refine ⟨hdecision, lost, ?_, Nat.le_of_lt_succ hlength⟩
    rw [hline, firstEnd, if_pos hmem, hinput, List.append_assoc] at hlost
    exact (List.cons.inj (List.append_cancel_left hlost)).2
  · intro hnot
    have hline := firstLine_of_not_mem hnot
    rw [if_neg hnot, firstAnswer, hline] at hdecision
    refine ⟨?_, ?_, ?_⟩
    · rw [hline, firstEnd, if_neg hnot, List.append_nil] at hlost
      have hnil := List.append_cancel_left (hlost.symm.trans (List.append_nil _).symm)
      exact (List.append_eq_nil_iff.1 hnil).2
    · intro hending
      rw [hending] at hdecision
      exact hdecision
    · intro text hending
      rw [hending] at hdecision
      exact hdecision

/-- A blank line that arrives byte by byte, before an input that fails in the end. -/
def drippingInput : Reader :=
  ⟨[0xC2, 0xA0, 13] ++ lineFeed :: ascii "yes", 0, fun _ => 1, .failure (ascii "closed")⟩

/-- A line with nothing but a no-break space declines, and the failure behind it is not seen. -/
theorem line_first_answer_blank :
    let w : World := ⟨⟨[], []⟩, [], drippingInput⟩
    let reply := Prompter.line (ascii "?") w
    lineFeed ∉ ([0xC2, 0xA0, 13] : Text) ∧ reply.decision = .ok false
      ∧ ∃ lost, ascii "yes" = lost ++ reply.world.input.remaining ∧ lost.length ≤ 4095 := by
  intro w reply
  have hbefore : lineFeed ∉ ([0xC2, 0xA0, 13] : Text) := by decide
  obtain ⟨hdecision, hlost⟩ := (line_first_answer (ascii "?") w).1 _ _ rfl hbefore
  exact ⟨hbefore, hdecision, hlost⟩

end CrateBump
