/-
# Texts that can be documents

A document is a well-formed text without stray control bytes, behind a mark of the byte order if there
is one.  An ASCII byte separates what is in front of it from what is behind it, so a quoted text can be
exchanged for a plain one (`isReadable_between`), and the mark stands in the first line
(`skipMark_append`).
-/
import CrateBump.Proofs.LineSearch
import CrateBump.Proofs.TomlReaders

namespace CrateBump

/-! ## Texts around an ASCII byte -/

namespace Text

variable {b : UInt8}

theorem isContinuation_ascii (hb : b < 0x80) : isContinuation b = false := by
  simp [isContinuation, UInt8.not_le.2 hb]

theorem secondByteOk_ascii (hb : b < 0x80) (lead : UInt8) : secondByteOk lead b = false := by
  have hb' := UInt8.lt_iff_toNat_lt.1 hb
  unfold secondByteOk
  simp only [isContinuation_ascii hb, UInt8.le_iff_toNat_le]
  repeat' split
  all_goals simp_all
  all_goals omega

/-- A character ends before an ASCII byte. -/
theorem firstPiece_append (hb : b < 0x80) (lead : UInt8) (s t : Text) :
    firstPiece lead (s ++ b :: t) = firstPiece lead s := by
  have hsecond := secondByteOk_ascii hb lead
  have hmore := isContinuation_ascii hb
  unfold firstPiece
  rcases s with _ | ⟨b₁, _ | ⟨b₂, _ | ⟨b₃, s⟩⟩⟩ <;> rcases t with _ | ⟨c₁, _ | ⟨c₂, t⟩⟩ <;>
    simp [hsecond, hmore]

/-- An ASCII byte starts a piece of its own, whatever stands before it. -/
theorem piecesAfter_append (hb : b < 0x80) {skip : Nat} {s : Text} (hskip : skip ≤ s.length)
    (t : Text) : piecesAfter skip (s ++ b :: t) = piecesAfter skip s ++ pieces (b :: t) := by
  induction s generalizing skip with
  | nil =>
    obtain rfl : skip = 0 := Nat.le_zero.1 hskip
    rfl
  | cons c s ih =>
    cases skip with
    | succ skip =>
      rw [List.cons_append, piecesAfter, piecesAfter]
      exact ih (Nat.le_of_succ_le_succ hskip)
    | zero =>
      obtain ⟨more, tail, hbytes, rfl⟩ := firstPiece_bytes c s
      have hlength : (firstPiece c (more ++ tail)).bytes.length - 1 ≤ (more ++ tail).length := by
        rw [hbytes]
        simp
      simp only [List.cons_append, piecesAfter, firstPiece_append hb, ih hlength]

/-- An ASCII byte in front of a text is its first piece. -/
theorem pieces_cons_ascii (hb : b < 0x80) (t : Text) :
    pieces (b :: t) = .char b.toNat [b] :: pieces t := by
  have hpiece : firstPiece b t = .char b.toNat [b] := by
    unfold firstPiece
    rw [if_pos hb]
  rw [pieces, piecesAfter, hpiece]
  rfl

/-- A text is well-formed if its parts before and behind an ASCII byte are. -/
theorem isUtf8_append (hb : b < 0x80) (s t : Text) :
    isUtf8 (s ++ b :: t) = (isUtf8 s && isUtf8 t) := by
  rw [isUtf8, pieces, piecesAfter_append hb (Nat.zero_le _), pieces_cons_ascii hb, List.all_append,
    List.all_cons, Bool.true_and]
  rfl

/-- ASCII is well formed. -/
theorem isUtf8_of_ascii {t : Text} (h : ∀ b ∈ t, b < 0x80) : isUtf8 t = true := by
  induction t with
  | nil => rfl
  | cons b t ih =>
    have htail := ih fun c hc => h c (List.mem_cons_of_mem _ hc)
    rw [← List.nil_append (b :: t), isUtf8_append (h b List.mem_cons_self), htail]
    rfl

end Text

namespace Toml

/-! ## Bytes of a document -/

/-- Whether control bytes are in order is decided on both sides of a byte that is no line end. -/
theorem controlsOk_append {b : UInt8} (hreturn : b ≠ 13) (s t : Text) :
    controlsOk (s ++ b :: t) = (controlsOk (s ++ [b]) && controlsOk t) := by
  induction s with
  | nil => simp [controlsOk, hreturn]
  | cons c s ih =>
    have hhead : (s ++ b :: t).head? = (s ++ [b]).head? := by
      cases s <;> rfl
    rw [List.cons_append, List.cons_append, controlsOk, controlsOk, ih, hhead, Bool.and_assoc]

/-- A byte of printable ASCII that neither ends a string nor starts an escape. -/
def isPlain (b : UInt8) : Bool := 0x20 ≤ b && b < 0x7F && b != doubleQuote && b != 92

/-- A plain text holds no control byte. -/
theorem controlsOk_plain {t : Text} (h : ∀ b ∈ t, isPlain b = true) :
    controlsOk (t ++ [doubleQuote]) = true := by
  induction t with
  | nil => decide
  | cons b t ih =>
    have hplain := h b List.mem_cons_self
    simp only [isPlain, Bool.and_eq_true, decide_eq_true_eq, bne_iff_ne] at hplain
    obtain ⟨⟨⟨hlow, hhigh⟩, -⟩, -⟩ := hplain
    have hreturn : (b == 13) = false := beq_false_of_ne (by rintro rfl; revert hlow; decide)
    have hdelete : (b != 0x7F) = true := bne_iff_ne.2 (by rintro rfl; revert hhigh; decide)
    rw [List.cons_append, controlsOk, ih fun c hc => h c (List.mem_cons_of_mem _ hc), hreturn, hdelete]
    simp [hlow]

/-- The bytes of the text are those that a document may have. -/
def isReadable (t : Text) : Bool := Text.isUtf8 t && controlsOk t

/-- A plain text between two quotes leaves a text readable. -/
theorem isReadable_between {p v w x : Text} (hw : ∀ b ∈ w, isPlain b = true)
    (h : isReadable (p ++ doubleQuote :: (v ++ doubleQuote :: x)) = true) :
    isReadable (p ++ doubleQuote :: (w ++ doubleQuote :: x)) = true := by
  have hascii : ∀ b ∈ w, b < 0x80 := by
    intro b hb
    have hplain := hw b hb
    simp only [isPlain, Bool.and_eq_true, decide_eq_true_eq] at hplain
    exact UInt8.lt_trans hplain.1.1.2 (by decide)
  have hquote : doubleQuote < 0x80 := by decide
  have hreturn : doubleQuote ≠ 13 := by decide
  rw [isReadable, Text.isUtf8_append hquote, Text.isUtf8_append hquote, controlsOk_append hreturn,
    controlsOk_append hreturn v x] at h
  rw [isReadable, Text.isUtf8_append hquote, Text.isUtf8_append hquote, controlsOk_append hreturn,
    controlsOk_append hreturn w x]
  simp only [Bool.and_eq_true] at h ⊢
  exact ⟨⟨h.1.1, Text.isUtf8_of_ascii hascii, h.1.2.2⟩, h.2.1, controlsOk_plain hw, h.2.2.2⟩

/-! ## Marks of the byte order -/

/-- The marks of the byte order that are skipped. -/
def marks : List Text := [[0xEF, 0xBB, 0xBF], [0xFF, 0xFE], [0xFE, 0xFF]]

/-- A mark in front of a text is skipped. -/
theorem skipMark_mark {mark : Text} (h : mark ∈ marks) (t : Text) : skipMark (mark ++ t) = t := by
  simp only [marks, List.mem_cons, List.not_mem_nil, or_false] at h
  rcases h with rfl | rfl | rfl <;> rfl

/-- A text without a mark stays. -/
theorem skipMark_of_not_mark {t : Text} (h : ∀ mark ∈ marks, ∀ s, t ≠ mark ++ s) : skipMark t = t := by
  unfold skipMark
  split
  · exact absurd rfl (h [0xEF, 0xBB, 0xBF] (by decide) _)
  · exact absurd rfl (h [0xFF, 0xFE] (by decide) _)
  · exact absurd rfl (h [0xFE, 0xFF] (by decide) _)
  · rfl

/-- No mark starts with an ASCII byte. -/
theorem skipMark_cons_ascii {b : UInt8} (hb : b < 0x80) (t : Text) : skipMark (b :: t) = b :: t := by
  apply skipMark_of_not_mark
  intro mark hmark s heq
  simp only [marks, List.mem_cons, List.not_mem_nil, or_false] at hmark
  rcases hmark with rfl | rfl | rfl <;>
    exact absurd ((List.cons.inj heq).1 ▸ hb) (by decide)

/-- A mark stands in the first line, so what follows a line does not matter to it. -/
theorem skipMark_append {t : Text} (ht : EndsLine t) (r : Text) :
    skipMark (t ++ r) = skipMark t ++ r ∧ EndsLine (skipMark t) := by
  by_cases hmark : ∃ mark ∈ marks, ∃ s, t = mark ++ s
  · obtain ⟨mark, hmem, s, rfl⟩ := hmark
    rw [List.append_assoc, skipMark_mark hmem, skipMark_mark hmem]
    refine ⟨rfl, ht.of_suffix (List.suffix_append mark s) ?_⟩
    rintro rfl
    rw [List.append_nil] at ht
    have hfeed : ∀ mark ∈ marks, lineFeed ∉ mark := by decide
    exact hfeed mark hmem ht.lineFeed_mem
  · have hnot : ∀ mark ∈ marks, ∀ s, t ≠ mark ++ s := fun mark hmem s hs =>
      hmark ⟨mark, hmem, s, hs⟩
    rw [skipMark_of_not_mark hnot]
    refine ⟨skipMark_of_not_mark fun mark hmem s hs => ?_, ht⟩
    obtain ⟨line, rfl⟩ := List.getLast?_eq_some_iff.1 ht
    have hfeed : ∀ mark ∈ marks, lineFeed ∉ mark := by decide
    rw [List.append_assoc, List.singleton_append] at hs
    obtain ⟨more, rfl⟩ := exists_eq_append_of_not_mem (hfeed mark hmem) hs
    exact hnot mark hmem (more ++ [lineFeed]) (List.append_assoc _ _ _)

end Toml

end CrateBump
