/-
# Reading keys and values of TOML

Every reader of a key or a value stops before the end of the line it ends in, whatever follows
(`key?_continues`, `value?_continues`).  Strings and arrays may hold line ends, but none ends with
one.
-/
import CrateBump.Proofs.TomlReaders

namespace CrateBump.Toml

variable {α : Type} {d : Dialect} {n m : Nat} {b : UInt8} {t s : Text}

/-! ## Escapes -/

/-- The digits of an escape are taken from one line. -/
theorem codeEscape?_continues (count : Nat) : Continues (codeEscape? count) (codeEscape? count) := by
  intro t x s h
  unfold codeEscape? at h
  split at h
  · cases h
  next hlength =>
  split at h
  · cases h
  next code hcode =>
  split at h
  · cases h
  next hrange =>
  obtain ⟨rfl, rfl⟩ := Prod.mk.inj (Option.some.inj h)
  refine ⟨List.drop_suffix _ _, fun ht => ⟨?_, fun r => ?_⟩⟩
  · apply ht.of_suffix (List.drop_suffix _ _)
    intro hnil
    -- otherwise the line feed would be one of the digits
    have htake : t.take count = t := List.take_of_length_le (List.drop_eq_nil_iff.1 hnil)
    obtain ⟨u, rfl⟩ := List.getLast?_eq_some_iff.1 ht
    rw [htake, Text.digitsValue?, List.foldl_append] at hcode
    have hfeed : Text.hexValue? lineFeed = none := by decide
    simp [hfeed] at hcode
  · have hshort : count ≤ t.length := by omega
    rw [codeEscape?, if_neg (by simp; omega), List.take_append_of_le_length hshort, hcode,
      List.drop_append_of_le_length hshort]
    simp only [if_neg hrange]

/-- An escape ends in the line in which it starts. -/
theorem escape?_continues (d : Dialect) : Continues (escape? d) (escape? d) := by
  rintro (_ | ⟨b, t⟩)
  · exact continuesAt_of_eq_none rfl
  apply continuesAt_cons
  · rintro rfl
    rfl
  simp only [escape?]
  split
  case h_9 | h_10 => exact codeEscape?_continues _ t
  case h_11 =>
    split
    · exact codeEscape?_continues _ t
    · exact continues_none t
  case h_12 => exact continues_none t
  all_goals exact continues_const _ t

/-! ## Strings -/

/-- A string between double quotes stops at its closing quote, whatever follows. -/
theorem basicBody_continues (d : Dialect) (h : n ≤ m) :
    Continues (basicBody d n) (basicBody d m) := by
  refine continues_of_turn (fun _ => rfl) (fun n m ih => ?_) h
  rintro (_ | ⟨b, t⟩)
  · exact continuesAt_of_eq_none rfl
  apply continuesAt_cons
  · rintro rfl
    rfl
  simp only [basicBody]
  split
  · exact continues_const _ t
  split
  · -- a string in one line has no line end
    exact continues_none t
  split
  · have hescape := (escape?_continues d t).bind fun written u => (ih u).map (written ++ ·)
    apply hescape.congr
    · cases escape? d t <;> rfl
    · intro _ r
      cases escape? d (t ++ r) <;> rfl
  · exact (ih t).map (b :: ·)

/-- So does a string between single quotes. -/
theorem literalBody_continues : Continues literalBody literalBody := by
  intro t
  induction t with
  | nil => exact continuesAt_of_eq_none rfl
  | cons b t ih =>
    apply continuesAt_cons
    · rintro rfl
      rfl
    simp only [literalBody]
    split
    · exact continues_const _ t
    split
    · exact continues_none t
    · exact ih.map (b :: ·)

/-- The quotes that a string over several lines meets, as a reader. -/
def quotes? (quote : UInt8) (t : Text) : Option ((Bool × Text) × Text) :=
  some (((closing quote t).1, (closing quote t).2.1), (closing quote t).2.2)

/-- Up to two quotes may stand in a string of several lines; three end it. -/
theorem quotes?_continues (quote : UInt8) (hquote : quote ≠ lineFeed) :
    Continues (quotes? quote) (quotes? quote) := by
  intro t x s h
  obtain ⟨rfl, rfl⟩ := Prod.mk.inj (Option.some.inj h)
  refine ⟨?_, fun ht => ?_⟩
  · unfold closing
    dsimp only
    split <;> exact List.drop_suffix _ _
  have hp : (lineFeed == quote) = false := beq_false_of_ne (Ne.symm hquote)
  have htake := ht.takeWhile_append (p := (· == quote)) hp
  have hrest := List.length_pos_iff.2 (ht.dropWhile_ne_nil (p := (· == quote)) hp)
  have hsum := congrArg List.length (List.takeWhile_append_dropWhile (p := (· == quote)) (l := t))
  rw [List.length_append] at hsum
  -- the line end is no quote, so a text that ends a line has more than the quotes in front
  have hdrop : ∀ k, k ≤ (t.takeWhile (· == quote)).length →
      EndsLine (t.drop k) ∧ ∀ r, (t ++ r).drop k = t.drop k ++ r := by
    intro k hk
    refine ⟨ht.of_suffix (List.drop_suffix _ _) ?_, fun r => ?_⟩
    · rw [ne_eq, List.drop_eq_nil_iff]
      omega
    · exact List.drop_append_of_le_length (by omega)
  unfold quotes? closing
  dsimp only
  split
  · next hthree =>
    obtain ⟨hends, hlong⟩ := hdrop (min (t.takeWhile (· == quote)).length 5) (by omega)
    exact ⟨hends, fun r => by rw [htake, if_pos hthree, hlong]⟩
  · next hthree =>
    obtain ⟨hends, hlong⟩ := hdrop (t.takeWhile (· == quote)).length (Nat.le_refl _)
    exact ⟨hends, fun r => by rw [htake, if_neg hthree, hlong]⟩

/-- A string over several lines behind quotes it met: they close it, or they belong to it. -/
def behindQuotes (body : Text → Option (Text × Text)) (met : Bool × Text) (t : Text) :
    Option (Text × Text) :=
  if met.1 then some (met.2, t) else (body t).map fun p => (met.2 ++ p.1, p.2)

/-- Behind quotes that do not end a string its body goes on. -/
theorem behindQuotes_continues {body longer : Text → Option (Text × Text)}
    (h : Continues body longer) (met : Bool × Text) :
    Continues (behindQuotes body met) (behindQuotes longer met) := by
  intro t
  unfold behindQuotes
  split
  · exact continues_const _ t
  · exact (h t).map (met.2 ++ ·)

/-- A line continuation is one whatever follows, as long as something of the string does. -/
theorem lineContinuation?_append (ht : EndsLine t) (hne : lineContinuation? t ≠ some []) (r : Text) :
    lineContinuation? (t ++ r) = (lineContinuation? t).map (· ++ r) := by
  rw [lineContinuation?, lineContinuation?, skipBlanks_append ht,
    newline?_append (endsLine_skipBlanks ht)]
  rw [lineContinuation?] at hne
  cases hrest : newline? (Text.skipBlanks t) with
  | none => rfl
  | some rest =>
    simp only [hrest, ne_eq, Option.some.injEq] at hne
    simp only [Option.map_some]
    rw [List.dropWhile_append, if_neg (by simpa using hne)]

/-- Behind a backslash that joins lines stands the rest of the text. -/
theorem lineContinuation?_suffix (h : lineContinuation? t = some s) : s <:+ t := by
  rw [lineContinuation?] at h
  split at h
  · cases h
  next rest hrest =>
  obtain rfl := Option.some.inj h
  exact (List.dropWhile_suffix _).trans ((newline?_suffix hrest).trans (skipBlanks_suffix t))

theorem multiBasicBody_nil (d : Dialect) (n : Nat) : multiBasicBody d n [] = none := by
  cases n <;> rfl

/-- A double quote in a string of several lines may be the first of those that end it. -/
theorem multiBasicBody_quote (d : Dialect) (n : Nat) (t : Text) :
    multiBasicBody d (n + 1) (34 :: t)
      = (quotes? 34 (34 :: t)).bind fun p => behindQuotes (multiBasicBody d n) p.1 p.2 := by
  rw [multiBasicBody, if_pos rfl, quotes?, Option.bind_some, behindQuotes]
  rcases closing 34 (34 :: t) with ⟨_ | _, quotes, rest⟩ <;> rfl

/-- A backslash in a string over several lines: it continues the line, or it is an escape. -/
theorem multiBasicBody_backslash_continues {body longer : Text → Option (Text × Text)}
    (h : Continues body longer) (hnil : body [] = none) (d : Dialect) :
    Continues
      (fun t => ((lineContinuation? t).map body).getD
        ((escape? d t).bind fun p => (body p.2).map fun q => (p.1 ++ q.1, q.2)))
      (fun t => ((lineContinuation? t).map longer).getD
        ((escape? d t).bind fun p => (longer p.2).map fun q => (p.1 ++ q.1, q.2))) := by
  intro t
  cases hline : lineContinuation? t with
  | none =>
    have hescape := (escape?_continues d t).bind fun written u => (h u).map (written ++ ·)
    apply hescape.congr
    · rw [hline]
      rfl
    · intro ht r
      have hlong := lineContinuation?_append ht (by rw [hline]; simp) r
      rw [hlong, hline]
      rfl
  | some rest =>
    by_cases hrest : rest = []
    · apply continuesAt_of_eq_none
      rw [hline, hrest]
      exact hnil
    · intro x s hx
      dsimp only at hx
      rw [hline] at hx
      obtain ⟨hsuffix, hgoes⟩ := h rest hx
      refine ⟨hsuffix.trans (lineContinuation?_suffix hline), fun ht => ?_⟩
      obtain ⟨hends, hr⟩ := hgoes (ht.of_suffix (lineContinuation?_suffix hline) hrest)
      refine ⟨hends, fun r => ?_⟩
      dsimp only
      rw [lineContinuation?_append ht (by rw [hline]; simpa using hrest), hline]
      exact hr r

/-- A string of several lines between double quotes stops at its closing quotes. -/
theorem multiBasicBody_continues (d : Dialect) (h : n ≤ m) :
    Continues (multiBasicBody d n) (multiBasicBody d m) := by
  refine continues_of_turn (fun _ => rfl) (fun n m ih => ?_) h
  rintro (_ | ⟨b, t⟩)
  · exact continuesAt_of_eq_none rfl
  by_cases hquote : b = 34
  · subst hquote
    have hquotes := (quotes?_continues 34 (by decide) (34 :: t)).bind (behindQuotes_continues ih)
    exact hquotes.congr (multiBasicBody_quote d n t) fun _ r => multiBasicBody_quote d m (t ++ r)
  -- a line end may stand in the string, but nothing is read of a string that ends with it
  apply continuesAt_cons
  · rintro rfl
    rw [multiBasicBody, if_neg (by decide), if_neg (by decide), multiBasicBody_nil]
    rfl
  simp only [multiBasicBody, if_neg hquote]
  split
  · apply (multiBasicBody_backslash_continues ih (multiBasicBody_nil d n) d t).congr
    · cases lineContinuation? t with
      | some rest => rfl
      | none => cases escape? d t <;> rfl
    · intro _ r
      cases lineContinuation? (t ++ r) with
      | some rest => rfl
      | none => cases escape? d (t ++ r) <;> rfl
  · exact (ih t).map (b :: ·)

theorem multiLiteralBody_nil (n : Nat) : multiLiteralBody n [] = none := by
  cases n <;> rfl

/-- A single quote in a string of several lines may be the first of those that end it. -/
theorem multiLiteralBody_quote (n : Nat) (t : Text) :
    multiLiteralBody (n + 1) (39 :: t)
      = (quotes? 39 (39 :: t)).bind fun p => behindQuotes (multiLiteralBody n) p.1 p.2 := by
  rw [multiLiteralBody, if_pos rfl, quotes?, Option.bind_some, behindQuotes]
  rcases closing 39 (39 :: t) with ⟨_ | _, quotes, rest⟩ <;> rfl

/-- A string of several lines between single quotes stops at its closing quotes. -/
theorem multiLiteralBody_continues (h : n ≤ m) :
    Continues (multiLiteralBody n) (multiLiteralBody m) := by
  refine continues_of_turn (fun _ => rfl) (fun n m ih => ?_) h
  rintro (_ | ⟨b, t⟩)
  · exact continuesAt_of_eq_none rfl
  by_cases hquote : b = 39
  · subst hquote
    have hquotes := (quotes?_continues 39 (by decide) (39 :: t)).bind (behindQuotes_continues ih)
    exact hquotes.congr (multiLiteralBody_quote n t) fun _ r => multiLiteralBody_quote m (t ++ r)
  apply continuesAt_cons
  · rintro rfl
    rw [multiLiteralBody, if_neg (by decide), multiLiteralBody_nil]
    rfl
  simp only [multiLiteralBody, if_neg hquote]
  exact (ih t).map (b :: ·)

theorem dropNewline_suffix (t : Text) : dropNewline t <:+ t := by
  rw [dropNewline]
  cases h : newline? t with
  | none => exact List.suffix_rfl
  | some rest => exact newline?_suffix h

/-- The line end behind the opening quotes is dropped alike whatever follows the text. -/
theorem dropNewline_append (ht : EndsLine t) (r : Text) :
    dropNewline (t ++ r) = dropNewline t ++ r := by
  rw [dropNewline, dropNewline, newline?_append ht]
  cases newline? t <;> rfl

/-- A line end is dropped in front of a string's body, which is not empty. -/
theorem continuesAt_dropNewline {read longer : Text → Option (α × Text)} (hnil : read [] = none)
    (h : Continues read longer) :
    ContinuesAt (fun t => read (dropNewline t)) (fun t => longer (dropNewline t)) t := by
  by_cases hne : dropNewline t = []
  · apply continuesAt_of_eq_none
    rw [hne, hnil]
  · exact (h _).of_suffix (dropNewline_suffix t)
      (fun ht => ht.of_suffix (dropNewline_suffix t) hne) dropNewline_append

/-- One quote that is not the first of three starts a string in one line. -/
theorem string?_basic (d : Dialect) (h : ∀ u, t ≠ 34 :: 34 :: u) :
    string? d (34 :: t) = basicBody d (t.length + 1) t := by
  unfold string?
  split
  · next rest heq => exact absurd (List.cons.inj heq).2 (h rest)
  · next heq => cases heq
  · next heq => rw [(List.cons.inj heq).2]
  · next heq => cases heq
  · next hcase _ => exact absurd rfl (hcase t)

/-- One single quote opens a string of one line. -/
theorem string?_literal (d : Dialect) (h : ∀ u, t ≠ 39 :: 39 :: u) :
    string? d (39 :: t) = literalBody t := by
  unfold string?
  split
  · next heq => cases heq
  · next rest heq => exact absurd (List.cons.inj heq).2 (h rest)
  · next heq => cases heq
  · next heq => rw [(List.cons.inj heq).2]
  · next hcase => exact absurd rfl (hcase t)

/-- What follows a line makes no two quotes at the start of it. -/
theorem ne_cons_cons_append (ht : EndsLine t) (hb : b ≠ lineFeed) (h : ∀ u, t ≠ b :: b :: u)
    (r u : Text) : t ++ r ≠ b :: b :: u := by
  rcases t with _ | ⟨a, _ | ⟨c, v⟩⟩
  · cases ht
  · obtain rfl : a = lineFeed := Option.some.inj ht
    intro heq
    exact hb (List.cons.inj heq).1.symm
  · intro heq
    obtain ⟨rfl, heq⟩ := List.cons.inj heq
    obtain ⟨rfl, -⟩ := List.cons.inj heq
    exact h v rfl

theorem basicString_continues (d : Dialect) :
    Continues (fun t => basicBody d (t.length + 1) t) fun t => basicBody d (t.length + 1) t :=
  fun t => continuesAt_of_fuel (basicBody d) (· + 1) (fun _ _ => Nat.succ_le_succ) fun _ hm =>
    basicBody_continues d hm t

/-- A string of any kind stops at its closing quotes, whatever follows. -/
theorem string?_continues (d : Dialect) : Continues (string? d) (string? d) := by
  rintro (_ | ⟨b, t⟩)
  · exact continuesAt_of_eq_none rfl
  by_cases hquote : b = 34
  · subst hquote
    refine continuesAt_cons_of_ne (by decide) ?_
    by_cases hthree : ∃ u, t = 34 :: 34 :: u
    · obtain ⟨u, rfl⟩ := hthree
      refine continuesAt_cons_of_ne (by decide) (continuesAt_cons_of_ne (by decide) ?_)
      exact continuesAt_of_fuel (fun n t => multiBasicBody d n (dropNewline t)) (· + 1)
        (fun _ _ => Nat.succ_le_succ) fun m hm =>
          continuesAt_dropNewline (multiBasicBody_nil d _) (multiBasicBody_continues d hm)
    · -- two quotes in front that no third follows are an empty string, also when more follows
      have hone : ∀ u, t ≠ 34 :: 34 :: u := fun u hu => hthree ⟨u, hu⟩
      exact (basicString_continues d t).congr (string?_basic d hone) fun ht r =>
        string?_basic d (ne_cons_cons_append ht (by decide) hone r)
  by_cases happ : b = 39
  · subst happ
    refine continuesAt_cons_of_ne (by decide) ?_
    by_cases hthree : ∃ u, t = 39 :: 39 :: u
    · obtain ⟨u, rfl⟩ := hthree
      refine continuesAt_cons_of_ne (by decide) (continuesAt_cons_of_ne (by decide) ?_)
      exact continuesAt_of_fuel (fun n t => multiLiteralBody n (dropNewline t)) (· + 1)
        (fun _ _ => Nat.succ_le_succ) fun m hm =>
          continuesAt_dropNewline (multiLiteralBody_nil _) (multiLiteralBody_continues hm)
    · have hone : ∀ u, t ≠ 39 :: 39 :: u := fun u hu => hthree ⟨u, hu⟩
      exact (literalBody_continues t).congr (string?_literal d hone) fun ht r =>
        string?_literal d (ne_cons_cons_append ht (by decide) hone r)
  apply continuesAt_of_eq_none
  unfold string?
  split <;> simp_all

/-! ## Keys -/

theorem isBareByte_lineFeed : isBareByte lineFeed = false := by decide

/-- A part of a key that is not quoted is the run of bytes that may stand in one. -/
theorem keyPart?_bare (d : Dialect) (hquote : t.head? ≠ some 34) (happ : t.head? ≠ some 39) :
    keyPart? d t = if (t.takeWhile isBareByte).isEmpty then none
      else some (t.takeWhile isBareByte, t.dropWhile isBareByte) := by
  unfold keyPart?
  split
  · exact absurd rfl hquote
  · exact absurd rfl happ
  · rfl

/-- A part of a key ends in the line in which it starts. -/
theorem keyPart?_continues (d : Dialect) : Continues (keyPart? d) (keyPart? d) := by
  rintro (_ | ⟨b, t⟩)
  · exact continuesAt_of_eq_none rfl
  by_cases hquote : b = 34
  · subst hquote
    exact continuesAt_cons_of_ne (by decide) (basicString_continues d t)
  by_cases happ : b = 39
  · subst happ
    exact continuesAt_cons_of_ne (by decide) (literalBody_continues t)
  intro x s h
  have hbare : ∀ u, keyPart? d (b :: u) = _ := fun u =>
    keyPart?_bare d (by simpa using hquote) (by simpa using happ)
  rw [hbare] at h
  split at h
  · cases h
  next hne =>
  obtain ⟨rfl, rfl⟩ := Prod.mk.inj (Option.some.inj h)
  refine ⟨List.dropWhile_suffix _, fun ht => ⟨ht.dropWhile isBareByte_lineFeed, fun r => ?_⟩⟩
  rw [List.cons_append, hbare, ← List.cons_append, ht.takeWhile_append isBareByte_lineFeed,
    ht.dropWhile_append isBareByte_lineFeed, if_neg hne]

/-- Behind a part of a key: another part behind a dot, or the end of the key. -/
def behindPart (parts : Text → Option (List Text × Text)) (part : Text) :
    Text → Option (List Text × Text) :=
  onByte 46 (fun t => (parts t).map fun p => (part :: p.1, p.2)) fun t => some ([part], t)

/-- Behind a part of a key there may be a dot and more parts. -/
theorem behindPart_continues {parts longer : Text → Option (List Text × Text)}
    (h : Continues parts longer) (part : Text) :
    Continues (behindPart parts part) (behindPart longer part) :=
  onByte_continues (by decide) (fun t => (h t).map (part :: ·)) (continues_const [part])

/-- A key is read part by part, with blanks around the dots. -/
theorem keyParts_succ (d : Dialect) (n : Nat) (t : Text) :
    keyParts d (n + 1) t = (keyPart? d (Text.skipBlanks t)).bind fun p =>
      behindPart (keyParts d n) p.1 (Text.skipBlanks p.2) := by
  rw [keyParts]
  cases keyPart? d (Text.skipBlanks t) with
  | none => rfl
  | some p =>
    obtain ⟨part, rest⟩ := p
    simp only [Option.bind_some, behindPart]
    split
    · next u hu => rw [hu, onByte_cons]
    · next hdot => rw [onByte_of_ne _ _ hdot]

/-- All parts of a key stand in one line. -/
theorem keyParts_continues (d : Dialect) (h : n ≤ m) : Continues (keyParts d n) (keyParts d m) := by
  refine continues_of_turn (fun _ => rfl) (fun n m ih t => ?_) h
  have hparts := ((keyPart?_continues d).behindBlanks t).bind fun part =>
    (behindPart_continues ih part).behindBlanks
  exact hparts.congr (keyParts_succ d n t) fun _ r => keyParts_succ d m (t ++ r)

/-- A key ends in the line in which it starts, whatever follows. -/
theorem key?_continues (d : Dialect) : Continues (key? d) (key? d) := fun t =>
  continuesAt_of_fuel (keyParts d) (· + 1) (fun _ _ => Nat.succ_le_succ) fun _ hm =>
    keyParts_continues d hm t

/-- A key that no `c` follows is not read on. -/
theorem key?_bind_onByte_of_not {c : UInt8} (yes : List Text × Text → Text → Option (α × Text))
    (h : ∀ key u, key? d t ≠ some (key, c :: u)) :
    ((key? d t).bind fun p => onByte c (yes p) (fun _ => none) p.2) = none := by
  cases hkey : key? d t with
  | none => rfl
  | some p =>
    obtain ⟨key, rest⟩ := p
    rw [Option.bind_some, onByte_of_ne]
    rintro u rfl
    exact h key u hkey

/-! ## Words -/

theorem isWordByte_lineFeed : isWordByte lineFeed = false := by decide

/-- The first word is a date, and behind a blank stands a digit. -/
def JoinsTime (t : Text) : Prop :=
  date? (t.takeWhile isWordByte) = some []
    ∧ ∃ a more, t.dropWhile isWordByte = 32 :: a :: more ∧ Text.isDigit a = true

/-- A date and a time behind one space are one word. -/
theorem word_of_joins {a : UInt8} {more : Text} (hdate : date? (t.takeWhile isWordByte) = some [])
    (hrest : t.dropWhile isWordByte = 32 :: a :: more) (ha : Text.isDigit a = true) :
    word t = (t.takeWhile isWordByte ++ [32] ++ (a :: more).takeWhile isWordByte,
      (a :: more).dropWhile isWordByte) := by
  simp only [word, hdate, hrest, if_pos ha]

/-- Any other word ends at the first byte that cannot stand in one. -/
theorem word_of_not_joins (h : ¬ JoinsTime t) :
    word t = (t.takeWhile isWordByte, t.dropWhile isWordByte) := by
  simp only [word]
  split
  · next a more hdate hrest =>
    rw [if_neg]
    intro ha
    exact h ⟨hdate, a, more, hrest, ha⟩
  · rfl

/-- A word ends in the line in which it starts. -/
theorem word_continues : Continues (fun t => some (word t)) fun t => some (word t) := by
  intro t x s h
  dsimp only at h ⊢
  have hfeed := isWordByte_lineFeed
  by_cases hjoins : JoinsTime t
  · obtain ⟨hdate, a, more, hrest, ha⟩ := hjoins
    rw [word_of_joins hdate hrest ha] at h
    obtain ⟨rfl, rfl⟩ := Prod.mk.inj (Option.some.inj h)
    have hsuffix : a :: more <:+ t :=
      (List.suffix_cons 32 _).trans (hrest ▸ List.dropWhile_suffix isWordByte)
    refine ⟨(List.dropWhile_suffix _).trans hsuffix, fun ht => ?_⟩
    have hends : EndsLine (a :: more) := ht.of_suffix hsuffix (List.cons_ne_nil a more)
    refine ⟨hends.dropWhile hfeed, fun r => ?_⟩
    have hlong : (t ++ r).dropWhile isWordByte = 32 :: a :: (more ++ r) := by
      rw [ht.dropWhile_append hfeed, hrest]
      rfl
    rw [word_of_joins (by rw [ht.takeWhile_append hfeed, hdate]) hlong ha, ← List.cons_append,
      ht.takeWhile_append hfeed, hends.takeWhile_append hfeed, hends.dropWhile_append hfeed]
  · rw [word_of_not_joins hjoins] at h
    obtain ⟨rfl, rfl⟩ := Prod.mk.inj (Option.some.inj h)
    refine ⟨List.dropWhile_suffix _, fun ht => ⟨ht.dropWhile hfeed, fun r => ?_⟩⟩
    have hlong : ¬ JoinsTime (t ++ r) := by
      rintro ⟨hdate, a, more, hrest, ha⟩
      rw [ht.takeWhile_append hfeed] at hdate
      rw [ht.dropWhile_append hfeed] at hrest
      -- the blank and the digit stand in front of the line end
      have hends := ht.dropWhile hfeed
      rcases hcase : t.dropWhile isWordByte with _ | ⟨b, _ | ⟨c, u⟩⟩ <;> rw [hcase] at hrest hends
      · cases hends
      · cases hends
        cases hrest
      · obtain ⟨hb, hrest⟩ := List.cons.inj hrest
        have hc : c = a := (List.cons.inj hrest).1
        exact hjoins ⟨hdate, c, u, by rw [hcase, hb], by rw [hc, ha]⟩
    rw [word_of_not_joins hlong, ht.takeWhile_append hfeed, ht.dropWhile_append hfeed]

/-- A number, a truth value or a moment ends in the line in which it starts. -/
theorem scalar?_continues (d : Dialect) : Continues (scalar? d) (scalar? d) := by
  intro t
  have hscalar := (word_continues t).bind fun w => continues_decided
    ((fixedWord? w <|> integer? w) <|> (float? w <|> moment? d w)) continues_const
  apply hscalar.congr
  · exact Option.map_eq_bind
  · exact fun _ r => Option.map_eq_bind

/-! ## Values -/

/-- In front of an entry of an inline table blanks may be skipped, or a gap. -/
theorem Continues.behindTableGaps {read longer : Text → Option (α × Text)}
    (h : Continues read longer) (hnil : read [] = none) (d : Dialect) :
    Continues (fun t => read (skipTableGaps d t)) fun t => longer (skipTableGaps d t) := by
  unfold skipTableGaps
  split
  · exact h.behindGaps hnil
  · exact h.behindBlanks

/-- Behind an item of an array: the next one behind a comma, or the end of the array. -/
def behindItem (items : List Value → Text → Option (Value × Text)) (all : List Value) :
    Text → Option (Value × Text) :=
  onByte 44 (items all) (onByte 93 (fun t => some (.array all, t)) fun _ => none)

/-- An array is read item by item, with gaps around the commas. -/
theorem items?_succ (d : Dialect) (n : Nat) (before : List Value) (t : Text) :
    items? d (n + 1) before t
      = onByte 93 (fun u => some (.array before, u))
          (fun u => (value? d n u).bind fun p =>
            behindItem (items? d n) (before ++ [p.1]) (skipAllGaps p.2)) (skipAllGaps t) := by
  rw [items?]
  split
  · next u hu => rw [hu, onByte_cons]
  next hclose =>
  rw [onByte_of_ne _ _ hclose]
  cases value? d n (skipAllGaps t) with
  | none => rfl
  | some p =>
    obtain ⟨v, rest⟩ := p
    simp only [Option.bind_some, behindItem]
    split
    · next u hu => rw [hu, onByte_cons]
    · next u hu => rw [hu, onByte_of_ne _ _ (by simp), onByte_cons]
    · next hcomma hclose => rw [onByte_of_ne _ _ hcomma, onByte_of_ne _ _ hclose]

/-- Behind a pair of an inline table: the next one behind a comma, or the end of the table. -/
def behindPair (pairs : Text → Option (Value × Text)) (es : Entries) :
    Text → Option (Value × Text) :=
  onByte 44 pairs (onByte 125 (fun t => some (.table (valuesOf es), t)) fun _ => none)

/-- An inline table is read pair by pair. -/
theorem pairs?_succ (d : Dialect) (n : Nat) (before : Entries) (closes : Bool) (t : Text) :
    pairs? d (n + 1) before closes t
      = onByte 125 (fun u => if closes then some (.table (valuesOf before), u) else none)
          (fun u => (key? d u).bind fun p =>
            onByte 61 (fun u => (value? d n (Text.skipBlanks u)).bind fun q =>
              (assign d 0 q.1 p.1 before).bind fun es =>
                behindPair (pairs? d n es d.looseTables) es (skipTableGaps d q.2)) (fun _ => none) p.2)
          (skipTableGaps d t) := by
  rw [pairs?]
  split
  · next u hu => rw [hu, onByte_cons]
  next hclose =>
  rw [onByte_of_ne _ _ hclose]
  split
  · next key u hkey =>
    rw [hkey, Option.bind_some, onByte_cons]
    cases value? d n (Text.skipBlanks u) with
    | none => rfl
    | some q =>
      obtain ⟨v, rest⟩ := q
      simp only [Option.bind_some]
      cases assign d 0 v key before with
      | none => rfl
      | some es =>
        simp only [Option.bind_some, behindPair]
        split
        · next u hu => rw [hu, onByte_cons]
        · next u hu => rw [hu, onByte_of_ne _ _ (by simp), onByte_cons]
        · next hcomma hclose => rw [onByte_of_ne _ _ hcomma, onByte_of_ne _ _ hclose]
  · next hkey => exact (key?_bind_onByte_of_not _ hkey).symm

/-- Nothing can be read as a value from the empty text. -/
theorem value?_nil (d : Dialect) (n : Nat) : value? d n [] = none := by
  cases n <;> rfl

/-- A value that no quote or bracket opens is a scalar. -/
theorem value?_scalar (d : Dialect) (n : Nat) (h : b ≠ 34 ∧ b ≠ 39 ∧ b ≠ 91 ∧ b ≠ 123) (t : Text) :
    value? d (n + 1) (b :: t) = scalar? d (b :: t) := by
  obtain ⟨hquote, happ, hbracket, hbrace⟩ := h
  rw [value?]
  all_goals
    intro u heq
    exact absurd (List.cons.inj heq).1 (by assumption)

/-- All three readers of values go on. -/
structure ValuesContinue (d : Dialect) (n m : Nat) : Prop where
  value : Continues (value? d n) (value? d m)
  items : ∀ before, Continues (items? d n before) (items? d m before)
  pairs : ∀ before closes, Continues (pairs? d n before closes) (pairs? d m before closes)

section Values

variable (h : ValuesContinue d n m)
include h

/-- A value stops where it ends, if those inside it do. -/
theorem value?_continues_succ : Continues (value? d (n + 1)) (value? d (m + 1)) := by
  have hstring := fun t => (string?_continues d t).map Value.text
  rintro (_ | ⟨b, t⟩)
  · exact continuesAt_of_eq_none (value?_nil d (n + 1))
  -- the first byte says which kind of value it is
  by_cases hquote : b = 34
  · subst hquote
    exact (hstring (34 :: t)).congr rfl fun _ r => rfl
  by_cases happ : b = 39
  · subst happ
    exact (hstring (39 :: t)).congr rfl fun _ r => rfl
  by_cases hbracket : b = 91
  · subst hbracket
    exact continuesAt_cons_of_ne (by decide) (h.items [] t)
  by_cases hbrace : b = 123
  · subst hbrace
    exact continuesAt_cons_of_ne (by decide) (h.pairs [] true t)
  have hscalar := fun k => value?_scalar d k ⟨hquote, happ, hbracket, hbrace⟩
  exact (scalar?_continues d (b :: t)).congr (hscalar n t) fun _ r => hscalar m (t ++ r)

/-- So do the items of an array. -/
theorem items?_continues_succ (before : List Value) :
    Continues (items? d (n + 1) before) (items? d (m + 1) before) := by
  have hbehind : ∀ all, Continues (behindItem (items? d n) all) (behindItem (items? d m) all) :=
    fun all => onByte_continues (by decide) (h.items all)
      (onByte_only_continues (by decide) (continues_const _))
  have hitem := fun u => (h.value u).bind fun v => (hbehind (before ++ [v])).behindGaps rfl
  have hitems := onByte_continues (by decide : 93 ≠ lineFeed) (continues_const (.array before)) hitem
  intro t
  refine (hitems.behindGaps ?_ t).congr (items?_succ d n before t) fun _ r =>
    items?_succ d m before (t ++ r)
  rw [onByte_of_ne _ _ (by simp), value?_nil]
  rfl

/-- So do the pairs of an inline table. -/
theorem pairs?_continues_succ (before : Entries) (closes : Bool) :
    Continues (pairs? d (n + 1) before closes) (pairs? d (m + 1) before closes) := by
  have hbehind : ∀ es, Continues (behindPair (pairs? d n es d.looseTables) es)
      (behindPair (pairs? d m es d.looseTables) es) :=
    fun es => onByte_continues (by decide) (h.pairs es d.looseTables)
      (onByte_only_continues (by decide) (continues_const _))
  have hvalue := fun key u => (h.value.behindBlanks u).bind fun v =>
    continues_decided (assign d 0 v key before) fun es => (hbehind es).behindTableGaps rfl d
  have hpair := fun u => (key?_continues d u).bind fun key =>
    onByte_only_continues (by decide : 61 ≠ lineFeed) (hvalue key)
  have hclose : Continues (fun u => if closes then some (Value.table (valuesOf before), u) else none)
      (fun u => if closes then some (Value.table (valuesOf before), u) else none) := by
    split
    · exact continues_const _
    · exact continues_none
  have hpairs := onByte_continues (by decide : 125 ≠ lineFeed) hclose hpair
  exact fun t => (hpairs.behindTableGaps rfl d t).congr (pairs?_succ d n before closes t) fun _ r =>
    pairs?_succ d m before closes (t ++ r)

end Values

/-- Values of any depth stop where they end, by induction on the fuel. -/
theorem valuesContinue (d : Dialect) (h : n ≤ m) : ValuesContinue d n m := by
  induction n generalizing m with
  | zero => exact ⟨continues_none, fun _ => continues_none, fun _ _ => continues_none⟩
  | succ n ih =>
    obtain ⟨m, rfl⟩ : ∃ k, m = k + 1 := ⟨m - 1, by omega⟩
    have ih := ih (by omega : n ≤ m)
    exact ⟨value?_continues_succ ih, items?_continues_succ ih, pairs?_continues_succ ih⟩

/-- A value stops where it ends, whatever follows, and more fuel reads it alike. -/
theorem value?_continues (d : Dialect) (h : n ≤ m) : Continues (value? d n) (value? d m) :=
  (valuesContinue d h).value

end CrateBump.Toml
