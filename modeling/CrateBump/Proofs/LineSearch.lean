/-
# Searching line starts

What `searchLines` finds, said without the search: a text is cut in front of the first line start at
which the form recognises what follows.  A form that looks at one line only does not notice what is
behind the next line feed, so a search that passed over whole lines passes over them again whatever
text comes to follow them.

Main statements: a found place splits the text at a line start with nothing recognised before it
(`searchLines_eq_some_iff`), and a search goes on behind any text it passes over
(`searchLines_append_of_skips`).
-/
import CrateBump.Manifest.VersionSite
import Mathlib.Logic.Basic

namespace CrateBump

variable {α : Type}

/-! ## Line starts -/

/-- Whether a line starts behind `t`, if one starts at its front according to `fresh`. -/
def freshAfter (fresh : Bool) : Text → Bool
  | [] => fresh
  | b :: t => freshAfter (b == lineFeed) t

theorem freshAfter_append (fresh : Bool) (s t : Text) :
    freshAfter fresh (s ++ t) = freshAfter (freshAfter fresh s) t := by
  induction s generalizing fresh with
  | nil => rfl
  | cons b s ih => exact ih (b == lineFeed)

/-- No line starts behind a text that is not empty and has no line feed. -/
theorem freshAfter_of_not_mem {fresh : Bool} {t : Text} (hne : t ≠ []) (h : lineFeed ∉ t) :
    freshAfter fresh t = false := by
  induction t generalizing fresh with
  | nil => exact absurd rfl hne
  | cons b t ih =>
    rw [List.mem_cons, not_or] at h
    have hb : (b == lineFeed) = false := beq_false_of_ne (Ne.symm h.1)
    rw [freshAfter, hb]
    cases t with
    | nil => rfl
    | cons c t => exact ih (List.cons_ne_nil c t) h.2

/-- A line starts behind a non-empty text exactly if the text ends in a line feed. -/
theorem exists_eq_append_lineFeed {fresh : Bool} {b : UInt8} {t : Text}
    (h : freshAfter fresh (b :: t) = true) : ∃ line, b :: t = line ++ [lineFeed] := by
  induction t generalizing fresh b with
  | nil =>
    have hb : b = lineFeed := by simpa [freshAfter] using h
    exact ⟨[], by rw [hb, List.nil_append]⟩
  | cons c t ih =>
    have htail : freshAfter (b == lineFeed) (c :: t) = true := h
    obtain ⟨line, hline⟩ := ih htail
    exact ⟨b :: line, by rw [hline, List.cons_append]⟩

/-! ## Passing over text -/

/-- No line that starts inside `s` is recognised by `form` when `t` follows `s`. -/
def Skips (form : Text → Option α) (fresh : Bool) : Text → Text → Prop
  | [], _ => True
  | b :: s, t => (fresh = true → form (b :: s ++ t) = none) ∧ Skips form (b == lineFeed) s t

theorem skips_append {form : Text → Option α} {fresh : Bool} {s t u : Text} :
    Skips form fresh (s ++ t) u
      ↔ Skips form fresh s (t ++ u) ∧ Skips form (freshAfter fresh s) t u := by
  induction s generalizing fresh with
  | nil => simp [Skips, freshAfter]
  | cons b s ih =>
    simp only [List.cons_append, Skips, freshAfter, ih, List.append_assoc, and_assoc]

/-- Inside one line nothing is recognised, unless the line is as a whole. -/
theorem skips_of_not_mem {form : Text → Option α} {fresh : Bool} {s t : Text} (h : lineFeed ∉ s)
    (hform : fresh = true → form (s ++ t) = none) : Skips form fresh s t := by
  induction s generalizing fresh with
  | nil => trivial
  | cons b s ih =>
    rw [List.mem_cons, not_or] at h
    refine ⟨hform, ?_⟩
    rw [beq_false_of_ne (Ne.symm h.1)]
    exact ih h.2 (fun hf => absurd hf (by decide))

/-- A search goes on behind the text it passes over. -/
theorem searchLines_append_of_skips {form : Text → Option α} {fresh : Bool} {s t : Text}
    (h : Skips form fresh s t) :
    searchLines form fresh (s ++ t)
      = (searchLines form (freshAfter fresh s) t).map fun (before, found) =>
          (s ++ before, found) := by
  induction s generalizing fresh with
  | nil => simp [freshAfter]
  | cons b s ih =>
    have hform : (if fresh = true then form (b :: (s ++ t)) else none) = none := by
      split
      · next hf => exact h.1 hf
      · rfl
    rw [List.cons_append, searchLines, hform]
    simp only [ih h.2, freshAfter, Option.map_map]
    rfl

/-- A search ends at once where a line starts that is recognised. -/
theorem searchLines_of_form {form : Text → Option α} {t : Text} {found : α}
    (h : form t = some found) : searchLines form true t = some ([], found) := by
  cases t with
  | nil => simp [searchLines, h]
  | cons b t => simp [searchLines, h]

/-- A search succeeds at the first line start behind which a line is recognised. -/
theorem searchLines_eq_some_iff {form : Text → Option α} {fresh : Bool} {t before : Text}
    {found : α} :
    searchLines form fresh t = some (before, found)
      ↔ ∃ rest, t = before ++ rest ∧ Skips form fresh before rest
        ∧ freshAfter fresh before = true ∧ form rest = some found := by
  constructor
  · intro h
    induction t generalizing fresh before with
    | nil =>
      cases fresh with
      | false => simp [searchLines] at h
      | true =>
        obtain ⟨found', hform, heq⟩ := Option.map_eq_some_iff.1 h
        obtain ⟨rfl, rfl⟩ := Prod.mk.inj heq
        exact ⟨[], rfl, trivial, rfl, hform⟩
    | cons b t ih =>
      rw [searchLines] at h
      split at h
      · next found' hform =>
        obtain ⟨rfl, rfl⟩ := Prod.mk.inj (Option.some.inj h)
        cases fresh with
        | false => simp at hform
        | true => exact ⟨b :: t, rfl, trivial, rfl, hform⟩
      · -- the line at the front is not recognised, so its first byte joins what is passed over
        next hnone =>
        obtain ⟨⟨before', found'⟩, hsearch, heq⟩ := Option.map_eq_some_iff.1 h
        obtain ⟨rfl, rfl⟩ := Prod.mk.inj heq
        obtain ⟨rest, rfl, hskips, hfresh, hform⟩ := ih hsearch
        refine ⟨rest, rfl, ⟨fun hf => ?_, hskips⟩, hfresh, hform⟩
        rw [if_pos hf] at hnone
        exact hnone
  · rintro ⟨rest, rfl, hskips, hfresh, hform⟩
    rw [searchLines_append_of_skips hskips, hfresh, searchLines_of_form hform]
    simp

/-- A search that fails has passed over the whole text. -/
theorem skips_of_searchLines_eq_none {form : Text → Option α} {fresh : Bool} {t : Text}
    (h : searchLines form fresh t = none) : Skips form fresh t [] := by
  induction t generalizing fresh with
  | nil => trivial
  | cons b t ih =>
    rw [searchLines] at h
    split at h
    · cases h
    · next hnone =>
      refine ⟨fun hf => ?_, ih (Option.map_eq_none_iff.1 h)⟩
      rw [if_pos hf] at hnone
      rw [List.append_nil]
      exact hnone

/-! ## Forms of one line -/

/-- The form looks at one line only: what follows a line feed does not matter. -/
def OneLine (form : Text → Option α) : Prop :=
  ∀ line t, form (line ++ lineFeed :: t) = none ↔ form line = none

/-- A text without the byte `b` at the front of a text with `b` in it stands before that `b`. -/
theorem exists_eq_append_of_not_mem {b : UInt8} {s line t rest : Text} (hs : b ∉ s)
    (h : line ++ b :: t = s ++ rest) : ∃ more, line = s ++ more := by
  rcases List.append_eq_append_iff.1 h with ⟨more, hsplit, htail⟩ | ⟨more, hsplit, -⟩
  · cases more with
    | nil => exact ⟨[], by rw [hsplit, List.append_nil, List.append_nil]⟩
    | cons c more =>
      -- the byte would have to stand inside `s`
      have hc : b = c := (List.cons.inj htail).1
      rw [hsplit, hc] at hs
      exact absurd (by simp) hs
  · exact ⟨more, hsplit⟩

/-- A text without the byte `b` at the end of a text with `b` in it stands behind that `b`. -/
theorem exists_append_eq_of_not_mem {b : UInt8} {s t front rest : Text} (hrest : b ∉ rest)
    (h : s ++ b :: t = front ++ rest) : ∃ more, front = s ++ b :: more ∧ t = more ++ rest := by
  rcases List.append_eq_append_iff.1 h with ⟨more, hfront, htail⟩ | ⟨more, -, htail⟩
  · cases more with
    | nil =>
      rw [List.nil_append] at htail
      exact absurd (by rw [← htail]; simp) hrest
    | cons c more =>
      obtain ⟨rfl, rfl⟩ := List.cons.inj htail
      exact ⟨more, hfront, rfl⟩
  · exact absurd (by rw [htail]; simp) hrest

/-- A form that recognises what stands at the front of a line, up to some byte of it, looks at one
line only. -/
theorem oneLine_of_recognises {form : Text → Option α} {p : Text → Prop}
    (hp : ∀ s, p s → lineFeed ∉ s)
    (hform : ∀ t, form t ≠ none ↔ ∃ s rest, p s ∧ t = s ++ rest) : OneLine form := by
  intro line t
  rw [← not_iff_not, ← ne_eq, ← ne_eq, hform, hform]
  constructor
  · rintro ⟨s, rest, hs, heq⟩
    obtain ⟨more, hmore⟩ := exists_eq_append_of_not_mem (hp s hs) heq
    exact ⟨s, more, hs, hmore⟩
  · rintro ⟨s, rest, hs, rfl⟩
    exact ⟨s, rest ++ lineFeed :: t, hs, List.append_assoc s rest _⟩

/-- Whole lines that were passed over are passed over whatever comes to follow them. -/
theorem Skips.congr {form : Text → Option α} (hform : OneLine form) {fresh : Bool} {s t u : Text}
    (hs : freshAfter fresh s = true) (h : Skips form fresh s t) : Skips form fresh s u := by
  induction s generalizing fresh with
  | nil => trivial
  | cons b s ih =>
    refine ⟨fun hf => ?_, ih hs h.2⟩
    -- the lines up to the end of `s` end in a line feed, which hides what follows from the form
    obtain ⟨line, hline⟩ := exists_eq_append_lineFeed hs
    have hnone := h.1 hf
    rw [hline, List.append_assoc, List.singleton_append, hform] at hnone ⊢
    exact hnone

end CrateBump
