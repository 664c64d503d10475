/-
# The first line of an input

An input arrives in reads of any size and passes through a buffer, yet the line that is read is the
text up to the first line feed, or all of it, and only what happens before that line feed can fail.

Main statements: the line that is read does not depend on how the input arrives
(`readLine_text`, `readLine_ending?`), so an answer is decided by the first line alone
(`answerLine_decision`).
-/
import CrateBump.Prompt.Answer
import Mathlib.Data.List.TakeWhile

namespace CrateBump

/-- The text before the first line feed. -/
def firstLine (t : Text) : Text := t.takeWhile (· != lineFeed)

/-- The line feed that ends the first line, if there is one. -/
def firstEnd (t : Text) : Text := if lineFeed ∈ t then [lineFeed] else []

theorem firstLine_append_of_not_mem {s : Text} (h : lineFeed ∉ s) (t : Text) :
    firstLine (s ++ t) = s ++ firstLine t :=
  List.takeWhile_append_of_pos fun _ hb => bne_iff_ne.2 (ne_of_mem_of_not_mem hb h)

theorem lineFeed_not_mem_firstLine (t : Text) : lineFeed ∉ firstLine t := by
  intro h
  have hbyte := List.mem_takeWhile_imp h
  simp at hbyte

namespace Reader

/-! ## One read -/

theorem portion_pos (r : Reader) {room : Nat} (hroom : 0 < room) : 0 < r.portion room := by
  unfold portion
  split
  · exact hroom
  · omega

/-- A read takes bytes from the front of what remains, and nothing else. -/
theorem chunk_append_afterRead (r : Reader) (room : Nat) :
    r.chunk room ++ (r.afterRead room).remaining = r.remaining :=
  List.take_append_drop _ _

/-- A read takes something while there is something. -/
theorem length_afterRead_lt (r : Reader) {room : Nat} (hroom : 0 < room) (hne : r.remaining ≠ []) :
    (r.afterRead room).remaining.length < r.remaining.length := by
  have hportion := r.portion_pos hroom
  have hlength := List.length_pos_iff.2 hne
  change (r.remaining.drop (r.portion room)).length < r.remaining.length
  rw [List.length_drop]
  omega

/-- There is always room for another byte. -/
theorem roomAfter_pos (room taken : Nat) : 0 < roomAfter room taken := by
  unfold roomAfter bufferSize
  split <;> omega

/-! ## All reads of a line -/

/-- Reads of any size put together give the first line, and the input has ended only if there is no
line feed in it. -/
theorem readLineWithin_eq {fuel room : Nat} {r : Reader} (hfuel : r.remaining.length < fuel)
    (hroom : 0 < room) :
    (readLineWithin fuel room r).text = firstLine r.remaining ++ firstEnd r.remaining
      ∧ (readLineWithin fuel room r).ending?
        = if lineFeed ∈ r.remaining then none else some r.ending := by
  induction fuel generalizing room r with
  | zero => omega
  | succ fuel ih =>
    rw [readLineWithin]
    split
    · next hnil =>
      rw [hnil]
      exact ⟨rfl, rfl⟩
    next hne =>
    dsimp only
    have hparts := r.chunk_append_afterRead room
    split
    · -- the line feed has come in with this read
      next hfeed =>
      have hchunk : lineFeed ∈ r.chunk room := by simpa using hfeed
      have hmem : lineFeed ∈ r.remaining := hparts ▸ List.mem_append_left _ hchunk
      refine ⟨?_, (if_pos hmem).symm⟩
      rw [firstEnd, if_pos hmem, ← hparts, firstLine, Text.takeWhile_append_of_mem hchunk]
    · next hfeed =>
      have hchunk : lineFeed ∉ r.chunk room := by simpa using hfeed
      have hrest : (r.afterRead room).remaining.length < fuel := by
        have hless := r.length_afterRead_lt hroom (by simpa using hne)
        omega
      have hmem : lineFeed ∈ (r.afterRead room).remaining ↔ lineFeed ∈ r.remaining := by
        rw [← hparts, List.mem_append]
        exact ⟨Or.inr, fun h => h.resolve_left hchunk⟩
      obtain ⟨htext, hending⟩ := ih hrest (roomAfter_pos room _)
      rw [Line.after]
      constructor
      · dsimp only
        rw [htext, ← hparts, firstLine_append_of_not_mem hchunk, firstEnd, firstEnd, hparts,
          List.append_assoc]
        simp only [hmem]
      · dsimp only
        rw [hending]
        simp only [hmem]
        rfl

/-- However the input comes in chunks, the line that is read is the first one, with its end if it
has one. -/
theorem readLine_text (r : Reader) :
    r.readLine.text = firstLine r.remaining ++ firstEnd r.remaining :=
  (readLineWithin_eq (Nat.lt_succ_self _) (by decide)).1

/-- Reading ends for the reason that the input ends for exactly if no line end is met. -/
theorem readLine_ending? (r : Reader) :
    r.readLine.ending? = if lineFeed ∈ r.remaining then none else some r.ending :=
  (readLineWithin_eq (Nat.lt_succ_self _) (by decide)).2

end Reader

/-! ## The answer -/

/-- The first line without carriage returns at its end. -/
def firstAnswer (t : Text) : Text := Text.dropEndWhile (· == 13) (firstLine t)

/-- Classes that agree on a text strip it alike. -/
theorem dropEndWhile_congr {p q : UInt8 → Bool} {t : Text} (h : ∀ b ∈ t, p b = q b) :
    Text.dropEndWhile p t = Text.dropEndWhile q t := by
  have hdrop : ∀ s : Text, (∀ b ∈ s, p b = q b) → s.dropWhile p = s.dropWhile q := by
    intro s hs
    induction s with
    | nil => rfl
    | cons b s ih =>
      rw [List.dropWhile_cons, List.dropWhile_cons, hs b List.mem_cons_self,
        ih fun c hc => hs c (List.mem_cons_of_mem b hc)]
  rw [Text.dropEndWhile, Text.dropEndWhile, hdrop t.reverse fun b hb => h b (List.mem_reverse.1 hb)]

/-- What is stripped of the line that was read leaves the answer. -/
theorem stripLineEnd_first (t : Text) : stripLineEnd (firstLine t ++ firstEnd t) = firstAnswer t := by
  have hline : stripLineEnd (firstLine t) = firstAnswer t := by
    apply dropEndWhile_congr
    intro b hb
    have hne : b ≠ lineFeed := ne_of_mem_of_not_mem hb (lineFeed_not_mem_firstLine t)
    simp [hne]
  rw [firstEnd]
  split
  · rw [← hline, stripLineEnd, Text.dropEndWhile, List.reverse_append, List.reverse_singleton,
      List.singleton_append, List.dropWhile_cons_of_pos (by decide)]
    rfl
  · rw [List.append_nil, hline]

/-- **The answer is decided by the first line**, however the input arrives.  An input that fails has
no answer, unless the line was there before. -/
theorem answerLine_decision (r : Reader) :
    (answerLine r).decision
      = match (if lineFeed ∈ r.remaining then .endOfFile else r.ending : Ending) with
        | .endOfFile => .ok (accepts (firstAnswer r.remaining))
        | .failure text => .error (ascii "reading answer: " ++ text) := by
  rw [answerLine, r.readLine_ending?, r.readLine_text, stripLineEnd_first]
  by_cases hmem : lineFeed ∈ r.remaining
  · rw [if_pos hmem, if_pos hmem]
  · rw [if_neg hmem, if_neg hmem]
    cases r.ending with
    | endOfFile => rfl
    | failure text => rfl

end CrateBump
