/-
# Readers and what follows them

A reader takes a text and gives what it read with the text behind it.  None of the parts of a TOML
document takes the line end behind it, so in a text that ends a line a reader stops before the last
line feed, and it reads the same whatever comes to follow that text.

Here are the ways in which readers are put together, each with the fact that the whole goes on if
its parts do (`Continues`), and the gaps between the parts of a document, said as a relation
(`Gaps`).
-/
import CrateBump.Document.Toml.Parser
import Mathlib.Data.List.TakeWhile

namespace CrateBump

/-! ## Texts that end a line -/

/-- The last byte of the text is a line feed. -/
def EndsLine (t : Text) : Prop := t.getLast? = some lineFeed

namespace EndsLine

variable {b : UInt8} {s t : Text} {p : UInt8 → Bool}

/-- A text that ends a line has a last byte. -/
theorem ne_nil (h : EndsLine t) : t ≠ [] := by
  rintro rfl
  cases h

/-- What is left of a text that ends a line ends it too, unless nothing is left. -/
theorem of_suffix (h : EndsLine t) (hs : s <:+ t) (hne : s ≠ []) : EndsLine s := by
  obtain ⟨u, rfl⟩ := hs
  rw [EndsLine, List.getLast?_append, List.getLast?_eq_some_getLast hne, Option.some_or] at h
  rw [EndsLine, List.getLast?_eq_some_getLast hne, h]

/-- A byte that is no line feed is not the one that ends the line. -/
theorem tail (h : EndsLine (b :: t)) (hb : b ≠ lineFeed) : EndsLine t := by
  apply h.of_suffix (List.suffix_cons b t)
  rintro rfl
  exact hb (Option.some.inj h)

theorem lineFeed_mem (h : EndsLine t) : lineFeed ∈ t := List.mem_of_getLast? h

/-- A class of bytes without the line feed does not reach the end. -/
theorem dropWhile_ne_nil (h : EndsLine t) (hp : p lineFeed = false) : t.dropWhile p ≠ [] := by
  intro hnil
  have hall := List.dropWhile_eq_nil_iff.1 hnil lineFeed h.lineFeed_mem
  rw [hp] at hall
  cases hall

/-- Behind a class of bytes without the line feed the line still has its end. -/
theorem dropWhile (h : EndsLine t) (hp : p lineFeed = false) : EndsLine (t.dropWhile p) :=
  h.of_suffix (List.dropWhile_suffix p) (h.dropWhile_ne_nil hp)

/-- A class of bytes without the line feed is dropped alike whatever follows the line. -/
theorem dropWhile_append (h : EndsLine t) (hp : p lineFeed = false) (r : Text) :
    (t ++ r).dropWhile p = t.dropWhile p ++ r := by
  rw [List.dropWhile_append, if_neg (by simpa using h.dropWhile_ne_nil hp)]

/-- A class of bytes without the line feed is taken alike whatever follows the line. -/
theorem takeWhile_append (h : EndsLine t) (hp : p lineFeed = false) (r : Text) :
    (t ++ r).takeWhile p = t.takeWhile p := by
  rw [List.takeWhile_append, if_neg]
  intro hlength
  have hsum := congrArg List.length (List.takeWhile_append_dropWhile (p := p) (l := t))
  rw [List.length_append, hlength] at hsum
  exact h.dropWhile_ne_nil hp (List.eq_nil_of_length_eq_zero (by omega))

end EndsLine

/-! ## Readers that go on -/

namespace Toml

variable {α : Type} {d : Dialect} {n m : Nat} {b : UInt8} {t s r : Text}

/-- What `read` gives on `t`, `longer` gives too when more follows, if `t` ends a line; and the text
behind what was read ends that line. -/
def ContinuesAt (read longer : Text → Option (α × Text)) (t : Text) : Prop :=
  ∀ ⦃x s⦄, read t = some (x, s) →
    s <:+ t ∧ (EndsLine t → EndsLine s ∧ ∀ r, longer (t ++ r) = some (x, s ++ r))

/-- What `read` gives, `longer` gives too when more follows a text that ends a line. -/
def Continues (read longer : Text → Option (α × Text)) : Prop := ∀ t, ContinuesAt read longer t

section Combining

variable {β : Type} {read longer read' longer' : Text → Option (α × Text)}
  {next longNext : α → Text → Option (β × Text)}

/-- A reader that takes nothing goes on. -/
theorem continues_const (x : α) : Continues (fun t => some (x, t)) fun t => some (x, t) := by
  intro t y s h
  obtain ⟨rfl, rfl⟩ := Prod.mk.inj (Option.some.inj h)
  exact ⟨List.suffix_rfl, fun ht => ⟨ht, fun r => rfl⟩⟩

/-- Where a reader fails there is nothing to go on from. -/
theorem continuesAt_of_eq_none (h : read t = none) : ContinuesAt read longer t := by
  intro x s hx
  rw [h] at hx
  cases hx

theorem continues_none : Continues (fun _ => none) longer := fun _ => continuesAt_of_eq_none rfl

/-- A reader goes on where it agrees with one that does. -/
theorem ContinuesAt.congr (h : ContinuesAt read longer t) (hread : read' t = read t)
    (hlonger : EndsLine t → ∀ r, longer' (t ++ r) = longer (t ++ r)) :
    ContinuesAt read' longer' t := by
  intro x s hx
  rw [hread] at hx
  obtain ⟨hsuffix, hgoes⟩ := h hx
  refine ⟨hsuffix, fun ht => ⟨(hgoes ht).1, fun r => ?_⟩⟩
  rw [hlonger ht, (hgoes ht).2]

/-- What is read may be converted. -/
theorem ContinuesAt.map (h : ContinuesAt read longer t) (f : α → β) :
    ContinuesAt (fun t => (read t).map fun p => (f p.1, p.2))
      (fun t => (longer t).map fun p => (f p.1, p.2)) t := by
  intro y s hy
  obtain ⟨⟨x, s'⟩, hx, heq⟩ := Option.map_eq_some_iff.1 hy
  obtain ⟨rfl, rfl⟩ := Prod.mk.inj heq
  obtain ⟨hsuffix, hgoes⟩ := h hx
  refine ⟨hsuffix, fun ht => ⟨(hgoes ht).1, fun r => ?_⟩⟩
  dsimp only
  rw [(hgoes ht).2 r, Option.map_some]

/-- One reader may follow another. -/
theorem ContinuesAt.bind (h : ContinuesAt read longer t)
    (hnext : ∀ x, Continues (next x) (longNext x)) :
    ContinuesAt (fun t => (read t).bind fun p => next p.1 p.2)
      (fun t => (longer t).bind fun p => longNext p.1 p.2) t := by
  intro y s hy
  obtain ⟨⟨x, u⟩, hx, hu⟩ := Option.bind_eq_some_iff.1 hy
  obtain ⟨hsuffix, hgoes⟩ := h hx
  obtain ⟨hsuffix', hgoes'⟩ := hnext x u hu
  refine ⟨hsuffix'.trans hsuffix, fun ht => ?_⟩
  obtain ⟨hends, hr⟩ := hgoes ht
  obtain ⟨hends', hr'⟩ := hgoes' hends
  refine ⟨hends', fun r => ?_⟩
  dsimp only
  rw [hr, Option.bind_some]
  exact hr' r

/-- A reader goes on if it does behind the first byte; a line feed alone it must refuse. -/
theorem continuesAt_cons (hfeed : b = lineFeed → read [b] = none)
    (h : ContinuesAt (fun t => read (b :: t)) (fun t => longer (b :: t)) t) :
    ContinuesAt read longer (b :: t) := by
  intro x s hx
  obtain ⟨hsuffix, hgoes⟩ := h hx
  refine ⟨hsuffix.trans (List.suffix_cons b t), fun ht => hgoes ?_⟩
  apply ht.of_suffix (List.suffix_cons b t)
  rintro rfl
  rw [hfeed (Option.some.inj ht)] at hx
  cases hx

/-- A byte in front may be taken if it is no line feed. -/
theorem continuesAt_cons_of_ne (hb : b ≠ lineFeed)
    (h : ContinuesAt (fun t => read (b :: t)) (fun t => longer (b :: t)) t) :
    ContinuesAt read longer (b :: t) := continuesAt_cons (absurd · hb) h

/-- Skipping to the end of some bytes at the front changes nothing. -/
theorem ContinuesAt.of_suffix {u : Text → Text} (h : ContinuesAt read longer (u t))
    (hsuffix : u t <:+ t) (hends : EndsLine t → EndsLine (u t))
    (hlong : EndsLine t → ∀ r, u (t ++ r) = u t ++ r) :
    ContinuesAt (fun t => read (u t)) (fun t => longer (u t)) t := by
  intro x s hx
  obtain ⟨hs, hgoes⟩ := h hx
  refine ⟨hs.trans hsuffix, fun ht => ?_⟩
  obtain ⟨hends', hr⟩ := hgoes (hends ht)
  refine ⟨hends', fun r => ?_⟩
  dsimp only
  rw [hlong ht, hr]

/-- A result that was decided before decides whether and how a reader goes on. -/
theorem continues_decided {next longNext : α → Text → Option (β × Text)} (decided : Option α)
    (h : ∀ x, Continues (next x) (longNext x)) :
    Continues (fun t => decided.bind fun x => next x t)
      (fun t => decided.bind fun x => longNext x t) := by
  cases decided with
  | none => exact continues_none
  | some x => exact h x

/-- Reads on behind the byte `c` if it stands at the front, and otherwise from the front. -/
def onByte (c : UInt8) (yes no : Text → Option (α × Text)) (t : Text) : Option (α × Text) :=
  if t.head? = some c then yes t.tail else no t

theorem onByte_cons (c : UInt8) (yes no : Text → Option (α × Text)) (t : Text) :
    onByte c yes no (c :: t) = yes t := if_pos rfl

/-- A text that does not start with the byte is read the other way. -/
theorem onByte_of_ne {c : UInt8} (yes no : Text → Option (α × Text)) (h : ∀ u, t ≠ c :: u) :
    onByte c yes no t = no t := by
  apply if_neg
  intro hhead
  obtain ⟨u, hu⟩ := List.head?_eq_some_iff.1 hhead
  exact h u hu

/-- A choice by the next byte goes on if both ways do. -/
theorem onByte_continues {c : UInt8} {yes no yes' no' : Text → Option (α × Text)}
    (hc : c ≠ lineFeed) (hyes : Continues yes yes') (hno : Continues no no') :
    Continues (onByte c yes no) (onByte c yes' no') := by
  intro t
  by_cases hhead : ∃ u, t = c :: u
  · obtain ⟨u, rfl⟩ := hhead
    apply continuesAt_cons_of_ne hc
    exact (hyes u).congr (onByte_cons c yes no u) fun _ r => onByte_cons c yes' no' (u ++ r)
  · have hne : ∀ u, t ≠ c :: u := fun u hu => hhead ⟨u, hu⟩
    -- a text that ends a line is not empty, so what follows does not bring the byte to the front
    refine (hno t).congr (onByte_of_ne yes no hne) fun ht r => onByte_of_ne yes' no' fun u hu => ?_
    obtain ⟨a, v, rfl⟩ := List.exists_cons_of_ne_nil ht.ne_nil
    exact hne v (by rw [(List.cons.inj hu).1])

/-- A byte that has to stand at the front. -/
theorem onByte_only_continues {c : UInt8} {yes yes' : Text → Option (α × Text)} (hc : c ≠ lineFeed)
    (hyes : Continues yes yes') :
    Continues (onByte c yes fun _ => none) (onByte c yes' fun _ => none) :=
  onByte_continues hc hyes continues_none

/-- A reader by recursion on fuel goes on with more fuel, if one turn of it does. -/
theorem continues_of_turn {read : Nat → Text → Option (α × Text)} (hzero : ∀ t, read 0 t = none)
    (hturn : ∀ n m, Continues (read n) (read m) → Continues (read (n + 1)) (read (m + 1)))
    (h : n ≤ m) : Continues (read n) (read m) := by
  induction n generalizing m with
  | zero => exact fun t => continuesAt_of_eq_none (hzero t)
  | succ n ih =>
    cases m with
    | zero => omega
    | succ m => exact hturn n m (ih (by omega))

/-- The fuel a reader runs on may grow with the text. -/
theorem continuesAt_of_fuel (read : Nat → Text → Option (α × Text)) (fuel : Nat → Nat)
    (hfuel : ∀ k k', k ≤ k' → fuel k ≤ fuel k')
    (h : ∀ m, fuel t.length ≤ m → ContinuesAt (read (fuel t.length)) (read m) t) :
    ContinuesAt (fun t => read (fuel t.length) t) (fun t => read (fuel t.length) t) t := by
  intro x s hx
  obtain ⟨hsuffix, hgoes⟩ := h (fuel t.length) (Nat.le_refl _) hx
  refine ⟨hsuffix, fun ht => ⟨(hgoes ht).1, fun r => ?_⟩⟩
  have hmore : fuel t.length ≤ fuel (t ++ r).length := hfuel _ _ (by simp)
  exact ((h _ hmore hx).2 ht).2 r

end Combining

/-! ## Gaps -/

theorem skipBlanks_suffix (t : Text) : Text.skipBlanks t <:+ t := List.dropWhile_suffix _

/-- Blanks do not end a line. -/
theorem endsLine_skipBlanks (h : EndsLine t) : EndsLine (Text.skipBlanks t) := h.dropWhile (by decide)

/-- Blanks in a line are skipped alike whatever follows the line. -/
theorem skipBlanks_append (h : EndsLine t) (r : Text) :
    Text.skipBlanks (t ++ r) = Text.skipBlanks t ++ r := h.dropWhile_append (by decide) r

/-- A line is ended by a line feed, perhaps with a carriage return in front of it. -/
theorem newline?_eq_some_iff : newline? t = some s ↔ t = 10 :: s ∨ t = 13 :: 10 :: s := by
  unfold newline?
  split <;> simp_all

theorem newline?_suffix (h : newline? t = some s) : s <:+ t := by
  rcases newline?_eq_some_iff.1 h with rfl | rfl
  · exact List.suffix_cons _ _
  · exact (List.suffix_cons _ _).trans (List.suffix_cons _ _)

/-- A line end is met alike whatever follows the line it stands in. -/
theorem newline?_append (h : EndsLine t) (r : Text) :
    newline? (t ++ r) = (newline? t).map (· ++ r) := by
  rcases t with _ | ⟨b, _ | ⟨c, u⟩⟩
  · cases h
  · obtain rfl : b = 10 := Option.some.inj h
    rfl
  · by_cases hb : b = 10
    · subst hb
      rfl
    by_cases hbc : b = 13 ∧ c = 10
    · obtain ⟨rfl, rfl⟩ := hbc
      rfl
    -- two bytes decide, and both stand in the text that ends the line
    have hnone : ∀ v, newline? (b :: c :: v) = none := by
      intro v
      rw [Option.eq_none_iff_forall_ne_some]
      intro s hs
      rcases newline?_eq_some_iff.1 hs with hcons | hcons <;> simp_all
    rw [hnone]
    exact hnone (u ++ r)

theorem toLineEnd_suffix (t : Text) : toLineEnd t <:+ t := List.dropWhile_suffix _

/-- The end of a line is not skipped with the line. -/
theorem endsLine_toLineEnd (h : EndsLine t) : EndsLine (toLineEnd t) := h.dropWhile (by decide)

/-- A line is skipped up to its end, whatever follows. -/
theorem toLineEnd_append (h : EndsLine t) (r : Text) : toLineEnd (t ++ r) = toLineEnd t ++ r :=
  h.dropWhile_append (by decide) r

/-- Behind a line there is a line feed, or nothing. -/
theorem toLineEnd_eq (t : Text) : toLineEnd t = [] ∨ ∃ u, toLineEnd t = lineFeed :: u := by
  cases hend : toLineEnd t with
  | nil => exact Or.inl rfl
  | cons b u =>
    have hhead := List.head?_dropWhile_not (p := (· != lineFeed)) (l := t)
    rw [show t.dropWhile (· != lineFeed) = b :: u from hend] at hhead
    have hb : b = lineFeed := by simpa using hhead
    exact Or.inr ⟨u, by rw [hb]⟩

/-- The rest of a line that is blank or a comment ends at the end of the text or at a line feed. -/
theorem endOfLine?_eq_some (h : endOfLine? t = some s) : s = [] ∨ ∃ p, t = p ++ lineFeed :: s := by
  obtain ⟨u, hu⟩ := skipBlanks_suffix t
  unfold endOfLine? at h
  split at h
  · exact Or.inl (Option.some.inj h).symm
  · next rest hrest =>
    have hs : (toLineEnd rest).drop 1 = s := Option.some.inj h
    obtain ⟨v, hv⟩ := toLineEnd_suffix rest
    rcases toLineEnd_eq rest with hend | ⟨w, hend⟩
    · exact Or.inl (by rw [← hs, hend]; rfl)
    · have hw : w = s := by rw [← hs, hend]; rfl
      refine Or.inr ⟨u ++ 35 :: v, ?_⟩
      rw [List.append_assoc, List.cons_append, ← hw, ← hend, hv, ← hrest, hu]
  · rcases newline?_eq_some_iff.1 h with hcons | hcons
    · exact Or.inr ⟨u, by rw [← hcons, hu]⟩
    · exact Or.inr ⟨u ++ [13], by rw [← hu, hcons]; simp⟩

/-- What stands behind the end of a line is the rest of the text. -/
theorem endOfLine?_suffix (h : endOfLine? t = some s) : s <:+ t := by
  rcases endOfLine?_eq_some h with rfl | ⟨p, rfl⟩
  · exact List.nil_suffix
  · exact ⟨p ++ [lineFeed], by simp⟩

/-- The end of a line is reached alike whatever follows the text. -/
theorem endOfLine?_append (ht : EndsLine t) (h : endOfLine? t = some s) (r : Text) :
    endOfLine? (t ++ r) = some (s ++ r) := by
  have hends := endsLine_skipBlanks ht
  rw [endOfLine?, skipBlanks_append ht]
  unfold endOfLine? at h
  split at h
  · next hnil => exact absurd hnil hends.ne_nil
  · next rest hrest =>
    rw [hrest] at hends ⊢
    have hrestEnds : EndsLine rest := hends.tail (by decide)
    have hline := endsLine_toLineEnd hrestEnds
    obtain rfl : (toLineEnd rest).drop 1 = s := Option.some.inj h
    show some ((toLineEnd (rest ++ r)).drop 1) = _
    rw [toLineEnd_append hrestEnds,
      List.drop_append_of_le_length (List.length_pos_iff.2 hline.ne_nil)]
  · -- no comment in the short text is none in the long one, since the first byte is the same
    next hne hcomment =>
    obtain ⟨c, u, hcons⟩ := List.exists_cons_of_ne_nil hends.ne_nil
    have hc : c ≠ 35 := by
      rintro rfl
      exact hcomment u hcons
    rw [hcons] at hends h ⊢
    have hlong : newline? (c :: (u ++ r)) = some (s ++ r) := by
      rw [← List.cons_append, newline?_append hends, h]
      rfl
    split
    · next hnil => cases hnil
    · next rest hrest => exact absurd (List.cons.inj hrest).1 hc
    · exact hlong

/-- `Gaps t s`: behind the blanks, line ends and comments at the front of `t` stands `s`. -/
inductive Gaps : Text → Text → Prop where
  | comment {t rest s : Text} (h : Text.skipBlanks t = 35 :: rest) (hrest : Gaps (toLineEnd rest) s) :
      Gaps t s
  | newline {t rest s : Text} (h : newline? (Text.skipBlanks t) = some rest) (hrest : Gaps rest s) :
      Gaps t s
  | token {t : Text} (hcomment : ∀ rest, Text.skipBlanks t ≠ 35 :: rest)
      (hnewline : newline? (Text.skipBlanks t) = none) : Gaps t (Text.skipBlanks t)

/-- Skipping a comment takes bytes. -/
theorem toLineEnd_length_lt (h : Text.skipBlanks t = 35 :: s) : (toLineEnd s).length < t.length := by
  have hblanks := (skipBlanks_suffix t).length_le
  have hline : (toLineEnd s).length ≤ s.length := (List.dropWhile_suffix _).length_le
  rw [h, List.length_cons] at hblanks
  omega

/-- Skipping a line end takes bytes. -/
theorem newline?_length_lt (h : newline? (Text.skipBlanks t) = some s) : s.length < t.length := by
  have hblanks := (skipBlanks_suffix t).length_le
  rcases newline?_eq_some_iff.1 h with hcons | hcons <;> rw [hcons] at hblanks <;>
    simp only [List.length_cons] at hblanks <;> omega

/-- With enough fuel the function skips what the relation says. -/
theorem gaps_skipGaps (h : t.length < n) : Gaps t (skipGaps n t) := by
  induction n generalizing t with
  | zero => omega
  | succ n ih =>
    rw [skipGaps]
    split
    · next rest hrest =>
      have := toLineEnd_length_lt hrest
      exact .comment hrest (ih (by omega))
    · next hcomment =>
      split
      · next rest hrest =>
        have := newline?_length_lt hrest
        exact .newline hrest (ih (by omega))
      · next hnewline => exact .token hcomment hnewline

/-- A gap ends in one place. -/
theorem Gaps.unique (h : Gaps t s) (h' : Gaps t r) : s = r := by
  induction h with
  | comment h _ ih =>
    cases h' with
    | comment h' hrest' =>
      rw [← (List.cons.inj (h.symm.trans h')).2] at hrest'
      exact ih hrest'
    | newline h' _ => rw [h] at h'; cases h'
    | token h' _ => exact absurd h (h' _)
  | newline h _ ih =>
    cases h' with
    | comment h' _ => rw [h'] at h; cases h
    | newline h' hrest' =>
      rw [← Option.some.inj (h.symm.trans h')] at hrest'
      exact ih hrest'
    | token _ h' => rw [h] at h'; cases h'
  | token hcomment hnewline =>
    cases h' with
    | comment h' _ => exact absurd h' (hcomment _)
    | newline h' _ => rw [h'] at hnewline; cases hnewline
    | token _ _ => rfl

/-- The gaps that are skipped are those of the relation. -/
theorem skipAllGaps_eq_iff : skipAllGaps t = s ↔ Gaps t s := by
  have hgaps : Gaps t (skipAllGaps t) := gaps_skipGaps (Nat.lt_succ_self _)
  exact ⟨fun h => h ▸ hgaps, fun h => hgaps.unique h⟩

theorem Gaps.suffix (h : Gaps t s) : s <:+ t := by
  induction h with
  | comment h _ ih =>
    have hcomment := h ▸ skipBlanks_suffix _
    exact ((ih.trans (toLineEnd_suffix _)).trans (List.suffix_cons _ _)).trans hcomment
  | newline h _ ih => exact (ih.trans (newline?_suffix h)).trans (skipBlanks_suffix _)
  | token _ _ => exact skipBlanks_suffix _

/-- Gaps that end before a line does are the same whatever follows; behind whole lines of gaps, the
gaps of what follows are skipped too. -/
theorem Gaps.append {u : Text} (h : Gaps t s) (ht : EndsLine t) (hnil : s = [] → Gaps r u)
    (hcons : s ≠ [] → u = s ++ r) : Gaps (t ++ r) u := by
  induction h with
  | @comment t rest s h _ ih =>
    have hends : EndsLine rest := EndsLine.tail (h ▸ endsLine_skipBlanks ht) (by decide)
    have hlong : Text.skipBlanks (t ++ r) = 35 :: (rest ++ r) := by
      rw [skipBlanks_append ht, h, List.cons_append]
    apply Gaps.comment hlong
    rw [toLineEnd_append hends]
    exact ih (endsLine_toLineEnd hends) hnil hcons
  | @newline t rest s h hrest ih =>
    -- behind the last line end of the text the gaps go on in what follows
    have hlong : newline? (Text.skipBlanks (t ++ r)) = some (rest ++ r) := by
      rw [skipBlanks_append ht, newline?_append (endsLine_skipBlanks ht), h, Option.map_some]
    apply Gaps.newline hlong
    by_cases hends : rest = []
    · subst hends
      exact hnil (List.suffix_nil.1 hrest.suffix)
    · exact ih ((endsLine_skipBlanks ht).of_suffix (newline?_suffix h) hends) hnil hcons
  | @token t hcomment hnewline =>
    have hends := endsLine_skipBlanks ht
    rw [hcons hends.ne_nil, ← skipBlanks_append ht]
    apply Gaps.token
    · intro rest hrest
      rw [skipBlanks_append ht] at hrest
      obtain ⟨c, v, hskip⟩ := List.exists_cons_of_ne_nil hends.ne_nil
      rw [hskip] at hrest
      exact hcomment v (by rw [hskip, (List.cons.inj hrest).1])
    · rw [skipBlanks_append ht, newline?_append hends, hnewline, Option.map_none]

theorem skipAllGaps_suffix (t : Text) : skipAllGaps t <:+ t := (skipAllGaps_eq_iff.1 rfl).suffix

/-- A gap that ends before the text does is the same whatever follows. -/
theorem skipAllGaps_append (ht : EndsLine t) (h : skipAllGaps t ≠ []) (r : Text) :
    skipAllGaps (t ++ r) = skipAllGaps t ++ r :=
  skipAllGaps_eq_iff.2
    ((skipAllGaps_eq_iff.1 rfl).append ht (fun hnil => absurd hnil h) fun _ => rfl)

/-- A gap that reaches the end of the text goes on in what follows. -/
theorem skipAllGaps_append_of_nil (ht : EndsLine t) (h : skipAllGaps t = []) (r : Text) :
    skipAllGaps (t ++ r) = skipAllGaps r :=
  skipAllGaps_eq_iff.2 ((skipAllGaps_eq_iff.1 h).append ht (fun _ => skipAllGaps_eq_iff.1 rfl)
    fun hne => absurd rfl hne)

/-- Blanks may stand in front of what is read. -/
theorem Continues.behindBlanks {read longer : Text → Option (α × Text)}
    (h : Continues read longer) :
    Continues (fun t => read (Text.skipBlanks t)) fun t => longer (Text.skipBlanks t) := fun t =>
  (h _).of_suffix (skipBlanks_suffix t) endsLine_skipBlanks skipBlanks_append

/-- So may a gap, if nothing can be read from the empty text. -/
theorem Continues.behindGaps {read longer : Text → Option (α × Text)} (h : Continues read longer)
    (hnil : read [] = none) :
    Continues (fun t => read (skipAllGaps t)) fun t => longer (skipAllGaps t) := by
  intro t
  by_cases hne : skipAllGaps t = []
  · apply continuesAt_of_eq_none
    rw [hne, hnil]
  · exact (h _).of_suffix (skipAllGaps_suffix t)
      (fun ht => ht.of_suffix (skipAllGaps_suffix t) hne) fun ht => skipAllGaps_append ht hne

end Toml

end CrateBump
