/-
# The entries of a members array

A quote is not known to open or to close an entry.  The search tries at each quote whether an entry
stands behind it, takes the entry with its closing quote if there is one, and goes on behind the single
quote otherwise.  So an entry that is taken leaves the search in front of the next one, whatever
separates the two, while an entry that is passed over leaves its closing quote behind: that quote then
pairs with the opening quote of the next entry, if the text between them could be an entry.

Main statements: members that are written out are found again (`findMembers?_written`), and members
among entries that are passed over are found exactly if bare commas lead from those up to nothing but
other commas (`findMembers?_among_skipped`).
-/
import CrateBump.Proofs.MembersOpening

namespace CrateBump

/-! ## One entry -/

/-- A text that counts as an entry where it stands between quotes. -/
def IsEntry (e : Text) : Prop := e ≠ [] ∧ ∀ b ∈ e, isEntryByte b = true

instance (e : Text) : Decidable (IsEntry e) :=
  have := List.decidableBAll (fun b => isEntryByte b = true) e
  inferInstanceAs (Decidable (e ≠ [] ∧ ∀ b ∈ e, isEntryByte b = true))

theorem IsEntry.doubleQuote_not_mem {e : Text} (h : IsEntry e) : doubleQuote ∉ e := by
  intro hmem
  exact absurd (h.2 _ hmem) (by decide)

/-- Whether an entry stands in front of a quote. -/
theorem entryAt?_quote {e : Text} (he : doubleQuote ∉ e) (t : Text) :
    entryAt? (e ++ doubleQuote :: t) = if IsEntry e then some e else none := by
  by_cases hentry : IsEntry e
  · have htake : (e ++ doubleQuote :: t).takeWhile isEntryByte = e := by
      rw [List.takeWhile_append_of_pos hentry.2, List.takeWhile_cons_of_neg (by decide),
        List.append_nil]
    have hdrop : (e ++ doubleQuote :: t).dropWhile isEntryByte = doubleQuote :: t := by
      rw [List.dropWhile_append_of_pos hentry.2, List.dropWhile_cons_of_neg (by decide)]
    rw [if_pos hentry]
    simp [entryAt?, htake, hdrop, hentry.1]
  · rw [if_neg hentry]
    cases hdrop : e.dropWhile isEntryByte with
    | nil =>
      -- every byte may stand in an entry, so there is none
      have hbytes : ∀ b ∈ e, isEntryByte b = true := List.dropWhile_eq_nil_iff.1 hdrop
      have hnil : e = [] := by
        by_contra hne
        exact hentry ⟨hne, hbytes⟩
      rw [hnil, List.nil_append]
      rfl
    | cons b rest =>
      -- the entry is cut short by a byte that is no quote
      have hb : b ∈ e := (List.dropWhile_suffix isEntryByte).subset (by rw [hdrop]; simp)
      have hquote : b ≠ doubleQuote := ne_of_mem_of_not_mem hb he
      simp [entryAt?, List.dropWhile_append, hdrop, hquote]

theorem entryAt?_of_not_mem {s : Text} (hs : doubleQuote ∉ s) : entryAt? s = none := by
  have hhead : (s.dropWhile isEntryByte).head? ≠ some doubleQuote := by
    intro h
    exact hs ((List.dropWhile_suffix isEntryByte).subset (List.mem_of_mem_head? h))
  simp [entryAt?, hhead]

theorem entryAt?_eq_some {t e : Text} (h : entryAt? t = some e) :
    ∃ rest, t = e ++ doubleQuote :: rest := by
  unfold entryAt? at h
  simp only at h
  split at h
  · cases h
  split at h
  case isFalse => cases h
  next hclosed =>
  obtain ⟨rest, hrest⟩ := List.head?_eq_some_iff.1 (beq_iff_eq.1 hclosed)
  refine ⟨rest, ?_⟩
  rw [← Option.some.inj h, ← hrest, List.takeWhile_append_dropWhile]

/-! ## Entries in a row -/

theorem entriesAfter_length (s t : Text) : entriesAfter s.length (s ++ t) = entries t := by
  induction s with
  | nil => rfl
  | cons b s ih => rw [List.cons_append, List.length_cons, entriesAfter, ih]

/-- Text without a quote has no part in the entries behind it. -/
theorem entries_append_of_not_mem {s : Text} (hs : doubleQuote ∉ s) (t : Text) :
    entries (s ++ t) = entries t := by
  induction s with
  | nil => rfl
  | cons b s ih =>
    rw [List.mem_cons, not_or] at hs
    rw [List.cons_append, entries, entriesAfter, if_neg (Ne.symm hs.1)]
    exact ih hs.2

theorem entries_of_not_mem {s : Text} (hs : doubleQuote ∉ s) : entries s = [] := by
  have hnil := entries_append_of_not_mem hs []
  rw [List.append_nil] at hnil
  exact hnil

/-- A quote that no other one follows. -/
theorem entries_unclosed {s : Text} (hs : doubleQuote ∉ s) : entries (doubleQuote :: s) = [] := by
  rw [entries, entriesAfter, if_pos rfl, entryAt?_of_not_mem hs]
  exact entries_of_not_mem hs

/-- Between two quotes stands an entry, or the second quote is tried next. -/
theorem entries_quote {e : Text} (he : doubleQuote ∉ e) (t : Text) :
    entries (doubleQuote :: (e ++ doubleQuote :: t))
      = if IsEntry e then e :: entries t else entries (doubleQuote :: t) := by
  rw [entries, entriesAfter, if_pos rfl, entryAt?_quote he]
  by_cases hentry : IsEntry e
  · have hlength : e.length + 1 = (e ++ [doubleQuote]).length := by simp
    have htext : e ++ doubleQuote :: t = e ++ [doubleQuote] ++ t := by simp
    simp only [if_pos hentry]
    rw [hlength, htext, entriesAfter_length]
  · simp only [if_neg hentry]
    exact entries_append_of_not_mem he _

/-! ## White space -/

theorem not_isEntry_of_space {e : Text} {b : UInt8} (hb : Text.isSpace b = true) (hmem : b ∈ e) :
    ¬ IsEntry e := by
  intro h
  have hbyte := h.2 b hmem
  simp [isEntryByte, hb] at hbyte

theorem ne_doubleQuote_of_space {b : UInt8} (hb : Text.isSpace b = true) : b ≠ doubleQuote := by
  rintro rfl
  exact absurd hb (by decide)

/-- No entry goes on behind white space. -/
theorem entryAt?_append_space {b : UInt8} (hb : Text.isSpace b = true) (s t : Text) :
    entryAt? (s ++ b :: t) = entryAt? s := by
  by_cases hs : doubleQuote ∈ s
  · obtain ⟨e, rest, rfl, he⟩ := List.eq_append_cons_of_mem hs
    rw [List.append_assoc, List.cons_append, entryAt?_quote he, entryAt?_quote he]
  · rw [entryAt?_of_not_mem hs]
    have hquote : doubleQuote ≠ b := Ne.symm (ne_doubleQuote_of_space hb)
    by_cases ht : doubleQuote ∈ t
    · obtain ⟨e, rest, rfl, he⟩ := List.eq_append_cons_of_mem ht
      have hbefore : doubleQuote ∉ s ++ b :: e := by simp [hs, hquote, he]
      have htext : s ++ b :: (e ++ doubleQuote :: rest) = s ++ b :: e ++ doubleQuote :: rest := by
        simp
      rw [htext, entryAt?_quote hbefore, if_neg (not_isEntry_of_space hb (by simp))]
    · exact entryAt?_of_not_mem (by simp [hs, hquote, ht])

theorem entriesAfter_append_space {b : UInt8} (hb : Text.isSpace b = true) {skip : Nat} {s : Text}
    (h : skip ≤ s.length) (t : Text) :
    entriesAfter skip (s ++ b :: t) = entriesAfter skip s ++ entries t := by
  induction s generalizing skip with
  | nil =>
    obtain rfl := Nat.le_zero.1 h
    have hstep : entriesAfter 0 (b :: t) = entriesAfter 0 t := by
      rw [entriesAfter, if_neg (ne_doubleQuote_of_space hb)]
    rw [List.nil_append, hstep]
    rfl
  | cons c s ih =>
    cases skip with
    | succ skip => exact ih (Nat.le_of_succ_le_succ h)
    | zero =>
      rw [List.cons_append, entriesAfter, entriesAfter, entryAt?_append_space hb]
      split
      · cases hentry : entryAt? s with
        | none => exact ih (Nat.zero_le _)
        | some e =>
          obtain ⟨rest, hs⟩ := entryAt?_eq_some hentry
          have hlength : e.length + 1 ≤ s.length := by
            rw [hs, List.length_append, List.length_cons]
            omega
          simp only [ih hlength, List.cons_append]
      · exact ih (Nat.zero_le _)

/-- White space separates entries. -/
theorem entries_append_space {b : UInt8} (hb : Text.isSpace b = true) (s t : Text) :
    entries (s ++ b :: t) = entries s ++ entries t :=
  entriesAfter_append_space hb (Nat.zero_le _) t

/-! ## Members that are written out -/

/-- The body of an array: each entry between quotes, behind the text that separates it from what
precedes it. -/
def writeEntries (items : List (Text × Text)) : Text :=
  items.flatMap fun (gap, entry) => gap ++ doubleQuote :: (entry ++ [doubleQuote])

theorem writeEntries_cons_append (gap entry : Text) (items : List (Text × Text)) (t : Text) :
    writeEntries ((gap, entry) :: items) ++ t
      = gap ++ doubleQuote :: (entry ++ doubleQuote :: (writeEntries items ++ t)) := by
  simp [writeEntries]

/-- Its quotes apart, a body has the bytes of its entries and of what separates them. -/
theorem not_mem_writeEntries {b : UInt8} (hb : b ≠ doubleQuote) {items : List (Text × Text)}
    (h : ∀ item ∈ items, b ∉ item.1 ∧ b ∉ item.2) : b ∉ writeEntries items := by
  simp only [writeEntries, List.mem_flatMap, not_exists, not_and]
  intro item hitem
  simp [h item hitem, hb]

/-- Entries that are written out are read back. -/
theorem entries_writeEntries {items : List (Text × Text)} {last : Text}
    (h : ∀ item ∈ items, doubleQuote ∉ item.1 ∧ IsEntry item.2) (hlast : doubleQuote ∉ last) :
    entries (writeEntries items ++ last) = items.map Prod.snd := by
  induction items with
  | nil => exact entries_of_not_mem hlast
  | cons item items ih =>
    obtain ⟨gap, entry⟩ := item
    obtain ⟨hgap, hentry⟩ := h (gap, entry) List.mem_cons_self
    have hitems := ih fun item hitem => h item (List.mem_cons_of_mem _ hitem)
    rw [writeEntries_cons_append, entries_append_of_not_mem hgap,
      entries_quote hentry.doubleQuote_not_mem, if_pos hentry, hitems, List.map_cons]

/-- The members of an array whose body is known. -/
theorem findMembers?_body {skip o body : Text} (hskip : ¬ Opens skip) (ho : IsMembersOpening o)
    (hbody : 93 ∉ body) (after : Text) :
    findMembers? (skip ++ (o ++ (body ++ 93 :: after))) = some (entries body) := by
  have hclosed : arrayBody (93 :: after) = [] := rfl
  rw [findMembers?_opening hskip ho (by simp), arrayBody_append_of_not_mem hbody, hclosed,
    List.append_nil]

/-- **Members that are written out are found again**, in their order and as often as they are written:
behind any text in which no array opens, with any white space around the equals sign, with anything but
quotes and closing brackets between them, and in front of any text.  Members are missing exactly if no
opening is followed by a closing bracket. -/
theorem findMembers?_written :
    (∀ skip o items last after, ¬ Opens skip → IsMembersOpening o →
      (∀ item ∈ items, (doubleQuote ∉ item.1 ∧ 93 ∉ item.1) ∧ IsEntry item.2 ∧ 93 ∉ item.2) →
      doubleQuote ∉ last ∧ 93 ∉ last →
        findMembers? (skip ++ (o ++ (writeEntries items ++ last ++ 93 :: after)))
          = some (items.map Prod.snd))
    ∧ ∀ content, findMembers? content = none
        ↔ ∀ skip o inner, content = skip ++ (o ++ inner) → IsMembersOpening o → 93 ∉ inner := by
  refine ⟨fun skip o items last after hskip ho hitems hlast => ?_,
    fun content => findMembers?_eq_none_iff⟩
  have hbracket : 93 ∉ writeEntries items :=
    not_mem_writeEntries (by decide) fun item hitem =>
      ⟨(hitems item hitem).1.2, (hitems item hitem).2.2⟩
  have hbody : 93 ∉ writeEntries items ++ last := by simp [hbracket, hlast.2]
  have hentries : entries (writeEntries items ++ last) = items.map Prod.snd :=
    entries_writeEntries (fun item hitem => ⟨(hitems item hitem).1.1, (hitems item hitem).2.1⟩) hlast.1
  rw [findMembers?_body hskip ho hbody, hentries]

/-- A comment with a bracket, a repeated entry, entries without a comma between them and a second array;
and an array that is not closed. -/
theorem written_with_comments :
    findMembers? (ascii "[workspace]\nmembers\n=\t[ # [all\n\"a/b\"\"c,\" # \"a/b\"\n] members = [\"x\"]")
        = some [ascii "a/b", ascii "c,", ascii "a/b"]
      ∧ (findMembers? (ascii "members = [\"a\"") = none
        ↔ ∀ skip o inner, ascii "members = [\"a\"" = skip ++ (o ++ inner) → IsMembersOpening o →
            93 ∉ inner) := by
  have hopening : IsMembersOpening (ascii "members\n=\t[") :=
    ⟨ascii "\n", ascii "\t", by decide, by decide, by decide⟩
  have htext : ascii "[workspace]\nmembers\n=\t[ # [all\n\"a/b\"\"c,\" # \"a/b\"\n] members = [\"x\"]"
      = ascii "[workspace]\n" ++ (ascii "members\n=\t["
        ++ (writeEntries [(ascii " # [all\n", ascii "a/b"), ([], ascii "c,"), (ascii " # ", ascii "a/b")]
          ++ ascii "\n" ++ 93 :: ascii " members = [\"x\"]")) := by decide +kernel
  rw [htext]
  exact ⟨findMembers?_written.1 _ _ _ _ _ (by decide +kernel) hopening (by decide) (by decide),
    findMembers?_written.2 _⟩

/-! ## Entries that are passed over -/

/-- A comma with nothing around it. -/
def bareComma : Text := [44]

/-- White space around at most one comma. -/
def IsGap (gap : Text) : Prop :=
  AllSpace gap ∨ ∃ before after, AllSpace before ∧ AllSpace after ∧ gap = before ++ 44 :: after

theorem IsGap.not_mem {gap : Text} (h : IsGap gap) {b : UInt8} (hspace : Text.isSpace b = false)
    (hcomma : b ≠ 44) : b ∉ gap := by
  rcases h with h | ⟨before, after, hbefore, hafter, rfl⟩
  · exact h.not_mem hspace
  · simp [hbefore.not_mem hspace, hafter.not_mem hspace, hcomma]

/-- What separates two entries could be an entry itself only if it is a bare comma. -/
theorem IsGap.isEntry_iff {gap : Text} (h : IsGap gap) : IsEntry gap ↔ gap = bareComma := by
  have hspaces : ∀ {s}, AllSpace s → (∀ b ∈ s, b ∈ gap) → IsEntry gap → s = [] := by
    intro s hs hsub hentry
    by_contra hne
    obtain ⟨b, hb⟩ := List.exists_mem_of_ne_nil s hne
    exact not_isEntry_of_space (hs b hb) (hsub b hb) hentry
  constructor
  · intro hentry
    rcases h with h | ⟨before, after, hbefore, hafter, rfl⟩
    · exact absurd (hspaces h (fun _ hb => hb) hentry) hentry.1
    · have hfront := hspaces hbefore (fun b hb => by simp [hb]) hentry
      have hback := hspaces hafter (fun b hb => by simp [hb]) hentry
      rw [hfront, hback]
      rfl
  · rintro rfl
    decide

/-- The entries that count. -/
def countedEntries (items : List (Text × Text)) : List Text :=
  (items.map Prod.snd).filter fun e => IsEntry e

/-- Each entry that bare commas lead up to is a comma itself. -/
def OnlyCommasAhead : List (Text × Text) → Prop
  | [] => True
  | (gap, entry) :: items => gap = bareComma → entry = bareComma ∧ OnlyCommasAhead items

/-- Behind each entry that does not count, every entry that bare commas lead up to is a comma itself. -/
def Undisturbed : List (Text × Text) → Prop
  | [] => True
  | (_, entry) :: items => (¬ IsEntry entry → OnlyCommasAhead items) ∧ Undisturbed items

instance decidableOnlyCommasAhead : (items : List (Text × Text)) → Decidable (OnlyCommasAhead items)
  | [] => isTrue trivial
  | (gap, entry) :: items =>
    have := decidableOnlyCommasAhead items
    inferInstanceAs (Decidable (gap = bareComma → entry = bareComma ∧ OnlyCommasAhead items))

instance decidableUndisturbed : (items : List (Text × Text)) → Decidable (Undisturbed items)
  | [] => isTrue trivial
  | (_, entry) :: items =>
    have := decidableUndisturbed items
    inferInstanceAs (Decidable ((¬ IsEntry entry → OnlyCommasAhead items) ∧ Undisturbed items))

/-- What is read from an array.  `loose` says that a closing quote was left behind: if it can, it takes
the separator for an entry, together with the opening quote of the entry that follows. -/
def readEntries : (loose : Bool) → List (Text × Text) → List Text
  | _, [] => []
  | loose, (gap, entry) :: items =>
    if loose = true ∧ IsEntry gap then gap :: readEntries true items
    else if IsEntry entry then entry :: readEntries false items
    else readEntries true items

/-- A closing quote that was left behind. -/
def leftQuote (loose : Bool) : Text := if loose then [doubleQuote] else []

theorem entries_eq_readEntries {items : List (Text × Text)} {last : Text}
    (h : ∀ item ∈ items, doubleQuote ∉ item.1 ∧ doubleQuote ∉ item.2) (hlast : doubleQuote ∉ last)
    (loose : Bool) :
    entries (leftQuote loose ++ (writeEntries items ++ last)) = readEntries loose items := by
  induction items generalizing loose with
  | nil =>
    cases loose with
    | false => exact entries_of_not_mem hlast
    | true => exact entries_unclosed hlast
  | cons item items ih =>
    obtain ⟨gap, entry⟩ := item
    obtain ⟨hgap, hentry⟩ := h (gap, entry) List.mem_cons_self
    have hitems := ih fun item hitem => h item (List.mem_cons_of_mem _ hitem)
    have hopened : entries (doubleQuote :: (entry ++ doubleQuote :: (writeEntries items ++ last)))
        = if IsEntry entry then entry :: readEntries false items else readEntries true items := by
      rw [entries_quote hentry]
      exact if_congr Iff.rfl (congrArg (entry :: ·) (hitems false)) (hitems true)
    rw [writeEntries_cons_append]
    cases loose with
    | false =>
      rw [readEntries, if_neg (by simp), ← hopened]
      exact entries_append_of_not_mem hgap _
    | true =>
      -- the quote left behind closes at the opening quote of the entry, or the entry is tried
      rw [readEntries, leftQuote, if_pos rfl, List.singleton_append, entries_quote hgap]
      refine if_congr (by simp) (congrArg (gap :: ·) ?_) hopened
      rw [entries_append_of_not_mem hentry]
      exact hitems true

theorem countedEntries_cons (gap entry : Text) (items : List (Text × Text)) :
    countedEntries ((gap, entry) :: items)
      = if IsEntry entry then entry :: countedEntries items else countedEntries items := by
  simp [countedEntries, List.filter_cons]

/-- For each entry that counts something is read. -/
theorem length_countedEntries_le (loose : Bool) (items : List (Text × Text)) :
    (countedEntries items).length ≤ (readEntries loose items).length := by
  induction items generalizing loose with
  | nil => exact Nat.le_refl _
  | cons item items ih =>
    obtain ⟨gap, entry⟩ := item
    rw [countedEntries_cons, readEntries]
    by_cases hloose : loose = true ∧ IsEntry gap
    · have hlength := ih true
      rw [if_pos hloose]
      split
      · simpa using hlength
      · rw [List.length_cons]
        omega
    · rw [if_neg hloose]
      split
      · simpa using ih false
      · exact ih true

/-- The entries that count are read exactly if nothing else is taken for one, be it behind an entry that
does not count or behind a quote that was left in front of all of them. -/
theorem readEntries_eq_countedEntries_iff {items : List (Text × Text)}
    (h : ∀ item ∈ items, IsGap item.1) (loose : Bool) :
    readEntries loose items = countedEntries items
      ↔ (loose = true → OnlyCommasAhead items) ∧ Undisturbed items := by
  induction items generalizing loose with
  | nil => simp [readEntries, countedEntries, OnlyCommasAhead, Undisturbed]
  | cons item items ih =>
    obtain ⟨gap, entry⟩ := item
    have hgap : IsEntry gap ↔ gap = bareComma := (h (gap, entry) List.mem_cons_self).isEntry_iff
    have hitems := ih fun item hitem => h item (List.mem_cons_of_mem _ hitem)
    have hcomma : IsEntry bareComma := by decide
    rw [countedEntries_cons, readEntries, OnlyCommasAhead, Undisturbed]
    by_cases hloose : loose = true ∧ gap = bareComma
    · obtain ⟨hloose, rfl⟩ := hloose
      rw [if_pos ⟨hloose, hcomma⟩]
      by_cases hentry : IsEntry entry
      · rw [if_pos hentry, List.cons.injEq, hitems]
        simp only [hloose, hentry, eq_comm (a := bareComma), true_implies, not_true_eq_false,
          false_implies, true_and, and_assoc]
      · -- more is read than counts, and the entry that is lost is no comma
        have hlength := length_countedEntries_le true items
        have hne : bareComma :: readEntries true items ≠ countedEntries items := by
          intro heq
          rw [← heq, List.length_cons] at hlength
          omega
        rw [if_neg hentry]
        refine ⟨fun heq => absurd heq hne, fun hall => ?_⟩
        rw [(hall.1 hloose rfl).1] at hentry
        exact absurd hcomma hentry
    · rw [if_neg (by rwa [hgap])]
      by_cases hentry : IsEntry entry
      · rw [if_pos hentry, if_pos hentry, List.cons.injEq, hitems]
        simp only [hentry]
        grind
      · rw [if_neg hentry, if_neg hentry, hitems]
        grind

/-- **Among entries that do not count, the others are found exactly if no bare comma disturbs them.**
Entries that hold no quote and no closing bracket, but may be empty or hold white space, are written with
a comma and any white space between them.  The members found are the entries that are not empty and hold
no white space, in their order, exactly if behind each of the other entries every entry that bare commas
lead up to is itself a comma; so it is enough that white space stands next to the comma behind each entry
that does not count. -/
theorem findMembers?_among_skipped (skip o last after : Text) (items : List (Text × Text))
    (hskip : ¬ Opens skip) (ho : IsMembersOpening o)
    (hitems : ∀ item ∈ items, IsGap item.1 ∧ doubleQuote ∉ item.2 ∧ 93 ∉ item.2)
    (hlast : AllSpace last) :
    findMembers? (skip ++ (o ++ (writeEntries items ++ last ++ 93 :: after)))
        = some (countedEntries items)
      ↔ Undisturbed items := by
  have hbracket : 93 ∉ writeEntries items :=
    not_mem_writeEntries (by decide) fun item hitem =>
      ⟨(hitems item hitem).1.not_mem (by decide) (by decide), (hitems item hitem).2.2⟩
  have hbody : 93 ∉ writeEntries items ++ last := by
    simp [hbracket, hlast.not_mem (b := 93) (by decide)]
  have hread : entries (writeEntries items ++ last) = readEntries false items :=
    entries_eq_readEntries (fun item hitem =>
      ⟨(hitems item hitem).1.not_mem (by decide) (by decide), (hitems item hitem).2.1⟩)
      (hlast.not_mem (by decide)) false
  rw [findMembers?_body hskip ho hbody, hread, Option.some.injEq,
    readEntries_eq_countedEntries_iff fun item hitem => (hitems item hitem).1]
  simp

/-- White space next to the comma behind an entry with a space and behind an empty one. -/
theorem among_skipped_with_spaces :
    findMembers? (ascii "members = [\"a b\" ,\"c\",\"\",\n\"d\"]") = some [ascii "c", ascii "d"] := by
  have hopening : IsMembersOpening (ascii "members = [") :=
    ⟨ascii " ", ascii " ", by decide, by decide, by decide⟩
  have hcomma : ∀ before after, AllSpace before → AllSpace after → IsGap (before ++ 44 :: after) :=
    fun before after hbefore hafter => Or.inr ⟨before, after, hbefore, hafter, rfl⟩
  let items := [([], ascii "a b"), (ascii " ,", ascii "c"), (bareComma, []), (ascii ",\n", ascii "d")]
  have hgaps : ∀ item ∈ items, IsGap item.1 := by
    refine List.forall_mem_cons.2 ⟨Or.inl (by decide), List.forall_mem_cons.2
      ⟨hcomma (ascii " ") [] (by decide) (by decide), List.forall_mem_cons.2
        ⟨hcomma [] [] (by decide) (by decide), List.forall_mem_singleton.2 ?_⟩⟩⟩
    exact hcomma [] (ascii "\n") (by decide) (by decide)
  have hentries : ∀ item ∈ items, doubleQuote ∉ item.2 ∧ 93 ∉ item.2 := by decide
  exact (findMembers?_among_skipped [] _ [] [] items (by decide) hopening
    (fun item hitem => ⟨hgaps item hitem, hentries item hitem⟩) (by decide)).2 (by decide)

/-- A space in an entry hides the next entry, and the comma between them is found in its place. -/
theorem among_skipped_hidden :
    countedEntries [([], ascii "a b"), (bareComma, ascii "c")] = [ascii "c"]
      ∧ findMembers? (ascii "members = ["
          ++ (writeEntries [([], ascii "a b"), (bareComma, ascii "c")] ++ [93])) = some [bareComma] := by
  decide

end CrateBump
