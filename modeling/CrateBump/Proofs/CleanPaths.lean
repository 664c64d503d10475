/-
# Clean paths

Cleaning works on texts, walking on names.  This module has what the two have in common: a clean path
is `..` some times and then names that stay (`exists_normal`), the text of a location is walked name
by name (`steps_textOf`), and making a path absolute, joining paths and taking one relative to another
are operations on lists of names.
-/
import CrateBump.FileSystem.Walk
import CrateBump.Git.Worktree

namespace CrateBump

namespace Path

/-- A name that cleaning keeps. -/
structure IsElement (t : Text) : Prop where
  ne_nil : t ≠ []
  ne_here : t ≠ here
  ne_up : t ≠ up
  slash_not_mem : slash ∉ t

/-! ## Keeping elements -/

/-- Empty elements and dots are dropped. -/
theorem keep_skip (rooted : Bool) (kept : List Text) {t : Text} (h : t = [] ∨ t = here) :
    keep rooted kept t = kept := by
  unfold keep
  rw [if_pos h]

/-- Elements are kept. -/
theorem IsElement.keep_eq {t : Text} (h : IsElement t) (rooted : Bool) (kept : List Text) :
    keep rooted kept t = t :: kept := by
  unfold keep
  rw [if_neg (not_or.2 ⟨h.ne_nil, h.ne_here⟩), if_neg h.ne_up]

theorem foldl_keep_elements {names : List Text} (h : ∀ t ∈ names, IsElement t) (rooted : Bool)
    (kept : List Text) : names.foldl (keep rooted) kept = names.reverse ++ kept := by
  induction names generalizing kept with
  | nil => rfl
  | cons t names ih =>
    rw [List.foldl_cons, (h t List.mem_cons_self).keep_eq,
      ih (fun u hu => h u (List.mem_cons_of_mem _ hu)), List.reverse_cons, List.append_assoc,
      List.singleton_append]

/-- Two dots take back the element in front of them. -/
theorem keep_up_element {t : Text} (h : IsElement t) (rooted : Bool) (kept : List Text) :
    keep rooted (t :: kept) up = kept := by
  rw [keep, if_neg (by decide), if_pos rfl]
  exact if_neg h.ne_up

theorem keep_up_nil : keep true [] up = [] := by decide

/-- What has been kept of a path so far, last one first: `..` some times, if the path has no root,
and then names. -/
def KeptNormal (rooted : Bool) (kept : List Text) : Prop :=
  ∃ names k, kept = names ++ List.replicate k up ∧ (∀ t ∈ names, IsElement t)
    ∧ (rooted = true → k = 0)

theorem KeptNormal.keep {rooted : Bool} {kept : List Text} (h : KeptNormal rooted kept) {t : Text}
    (ht : slash ∉ t) : KeptNormal rooted (keep rooted kept t) := by
  obtain ⟨names, k, rfl, hnames, hk⟩ := h
  by_cases hskip : t = [] ∨ t = here
  · rw [keep_skip rooted _ hskip]
    exact ⟨names, k, rfl, hnames, hk⟩
  by_cases hup : t = up
  · subst hup
    cases names with
    | cons n names =>
      rw [List.cons_append, keep_up_element (hnames n List.mem_cons_self)]
      exact ⟨names, k, rfl, fun u hu => hnames u (List.mem_cons_of_mem _ hu), hk⟩
    | nil =>
      -- nothing is left to cancel: a rooted path stays at its root, another one goes further up
      cases rooted with
      | true =>
        rw [hk rfl]
        exact ⟨[], 0, keep_up_nil, by simp, fun _ => rfl⟩
      | false =>
        refine ⟨[], k + 1, ?_, by simp, fun hfalse => by cases hfalse⟩
        cases k with
        | zero => rfl
        | succ k => rfl
  · rw [not_or] at hskip
    have helement : IsElement t := ⟨hskip.1, hskip.2, hup, ht⟩
    rw [helement.keep_eq]
    refine ⟨t :: names, k, rfl, ?_, hk⟩
    exact List.forall_mem_cons.2 ⟨helement, hnames⟩

/-- Cleaning piece by piece keeps the elements in their normal form. -/
theorem KeptNormal.foldl {rooted : Bool} {kept : List Text} (h : KeptNormal rooted kept)
    {pieces : List Text} (hpieces : ∀ t ∈ pieces, slash ∉ t) :
    KeptNormal rooted (pieces.foldl (Path.keep rooted) kept) := by
  induction pieces generalizing kept with
  | nil => exact h
  | cons t pieces ih =>
    exact ih (h.keep (hpieces t List.mem_cons_self)) fun u hu => hpieces u (List.mem_cons_of_mem _ hu)

/-- **A clean path is `..` some times and then names.** -/
theorem exists_normal (t : Text) :
    ∃ k names, (ofText t).normal.elements = List.replicate k up ++ names
      ∧ (∀ n ∈ names, IsElement n) ∧ ((ofText t).rooted = true → k = 0) := by
  have hstart : KeptNormal (ofText t).rooted [] := ⟨[], 0, rfl, by simp, fun _ => rfl⟩
  have hpieces : ∀ u ∈ Text.splitOn slash t, slash ∉ u := fun u hu => Text.not_mem_of_mem_splitOn hu
  obtain ⟨names, k, hkept, hnames, hk⟩ := hstart.foldl hpieces
  refine ⟨k, names.reverse, ?_, fun n hn => hnames n (List.mem_reverse.1 hn), hk⟩
  change (List.foldl _ [] _).reverse = _
  rw [show (ofText t).elements = Text.splitOn slash t from rfl, hkept, List.reverse_append,
    List.reverse_replicate]

/-! ## Names behind a location -/

/-- The location that pieces of a path lead to from another one, judged by the names alone. -/
def lexical (loc : Location) (pieces : List Text) : Location :=
  (pieces.foldl (keep true) loc.reverse).reverse

/-- Following names is following the first ones, then the others. -/
theorem lexical_append (loc : Location) (s t : List Text) :
    lexical loc (s ++ t) = lexical (lexical loc s) t := by
  rw [lexical, lexical, lexical, List.foldl_append, List.reverse_reverse]

theorem lexical_skip (loc : Location) {t : Text} (h : t = [] ∨ t = here) : lexical loc [t] = loc := by
  rw [lexical, List.foldl_cons, List.foldl_nil, keep_skip true _ h, List.reverse_reverse]

theorem lexical_elements (loc : Location) {names : List Text} (h : ∀ t ∈ names, IsElement t) :
    lexical loc names = loc ++ names := by
  rw [lexical, foldl_keep_elements h, List.reverse_append, List.reverse_reverse, List.reverse_reverse]

theorem lexical_up {loc : Location} (h : ∀ t ∈ loc, IsElement t) : lexical loc [up] = loc.dropLast := by
  rw [lexical, List.foldl_cons, List.foldl_nil]
  rcases List.eq_nil_or_concat loc with rfl | ⟨parents, name, rfl⟩
  · rw [List.reverse_nil, keep_up_nil, List.reverse_nil, List.dropLast_nil]
  · rw [List.concat_eq_append, List.reverse_append, List.reverse_singleton, List.singleton_append,
      keep_up_element (h name (by simp)), List.reverse_reverse, List.dropLast_concat]

/-- Names without slashes lead to a location of elements. -/
theorem isElement_lexical {loc : Location} (h : ∀ t ∈ loc, IsElement t) {pieces : List Text}
    (hpieces : ∀ t ∈ pieces, slash ∉ t) : ∀ t ∈ lexical loc pieces, IsElement t := by
  have hstart : KeptNormal true loc.reverse :=
    ⟨loc.reverse, 0, (List.append_nil _).symm, fun t ht => h t (List.mem_reverse.1 ht), fun _ => rfl⟩
  obtain ⟨names, k, hkept, hnames, hk⟩ := hstart.foldl hpieces
  intro t ht
  rw [lexical, hkept, hk rfl, List.replicate_zero, List.append_nil, List.mem_reverse] at ht
  exact hnames t ht

end Path

/-! ## The text of a location -/

namespace FileSystem

open CrateBump.Path

/-- Following the text of names is following the names. -/
theorem splitOn_textOf_foldl {names : List Text} (h : ∀ t ∈ names, slash ∉ t) (loc : Location) :
    lexical loc (Text.splitOn slash (textOf names)) = lexical loc names := by
  rw [textOf, show slash :: Text.joinWith [slash] names = [] ++ slash :: Text.joinWith [slash] names
    from rfl, Text.splitOn_append_cons, lexical_append, show Text.splitOn slash [] = [[]] from rfl,
    lexical_skip loc (Or.inl rfl)]
  cases names with
  | nil =>
    rw [show lexical loc [] = loc from List.reverse_reverse loc]
    exact lexical_skip loc (Or.inl rfl)
  | cons n names => rw [Text.splitOn_joinWith (List.cons_ne_nil n names) h]

/-- A rooted text, cleaned. -/
theorem clean_rooted {t : Text} (h : t.head? = some slash) :
    clean t = textOf (lexical [] (Text.splitOn slash t)) := by
  rw [clean, toText, normal, ofText, h]
  rfl

/-- A location is where the elements of its text lead. -/
theorem normal_textOf {names : List Text} (h : ∀ t ∈ names, IsElement t) :
    (ofText (textOf names)).normal.elements = names := by
  change lexical [] (Text.splitOn slash (textOf names)) = names
  rw [splitOn_textOf_foldl (fun t ht => (h t ht).slash_not_mem), lexical_elements [] h,
    List.nil_append]

/-- A text made absolute goes on from the current directory, unless it starts at the root. -/
theorem absolute_textOf {loc : Location} (h : ∀ t ∈ loc, IsElement t) (t : Text) :
    absolute (textOf loc) t
      = textOf (lexical (if isRooted t then [] else loc) (Text.splitOn slash t)) := by
  have hslash : ∀ n ∈ loc, slash ∉ n := fun n hn => (h n hn).slash_not_mem
  have hloc : lexical [] (Text.splitOn slash (textOf loc)) = loc := by
    rw [splitOn_textOf_foldl hslash, lexical_elements [] h, List.nil_append]
  rw [absolute, ← isRooted]
  by_cases hroot : isRooted t = true
  · rw [if_pos hroot, if_pos hroot, clean_rooted (by simpa [isRooted] using hroot)]
  · rw [if_neg hroot, if_neg hroot]
    cases t with
    | nil =>
      change clean (textOf loc) = _
      rw [clean_rooted rfl, hloc]
      exact congrArg textOf (lexical_skip loc (Or.inl rfl)).symm
    | cons b t =>
      change clean (textOf loc ++ [slash] ++ b :: t) = _
      rw [clean_rooted rfl, List.append_assoc, List.singleton_append, Text.splitOn_append_cons,
        lexical_append, hloc]

/-- A rooted text, cleaned, is the text of a location. -/
theorem exists_elements_clean {t : Text} (h : t.head? = some slash) :
    ∃ names, clean t = textOf names ∧ ∀ n ∈ names, IsElement n :=
  ⟨_, clean_rooted h, isElement_lexical (by simp) fun _ hn => Text.not_mem_of_mem_splitOn hn⟩

/-- A path made absolute is the text of a location, though perhaps of one where nothing is. -/
theorem exists_elements_absolutePath {env : Environment} {fs : FileSystem} {path target : Text}
    (h : fs.absolutePath env path = .ok target) :
    ∃ names, target = textOf names ∧ ∀ n ∈ names, IsElement n := by
  rcases absolutePath_eq_ok_iff.1 h with ⟨hroot, rfl⟩ | ⟨hroot, dir, hdir, rfl⟩
  · exact exists_elements_clean (by simpa [isRooted] using hroot)
  have hdir := isRooted_workingDirectory hdir
  rw [absolute, ← isRooted, if_neg (by simp [hroot])]
  cases dir with
  | nil => cases hdir
  | cons b dir =>
    obtain rfl : b = slash := by simpa [isRooted] using hdir
    cases path with
    | nil => exact exists_elements_clean (t := slash :: dir) rfl
    | cons c path => exact exists_elements_clean (t := (slash :: dir) ++ [slash] ++ c :: path) rfl

theorem joinWith_ne_nil {names : List Text} (hne : names ≠ []) (h : ∀ t ∈ names, t ≠ []) :
    Text.joinWith [slash] names ≠ [] := by
  cases names with
  | nil => exact absurd rfl hne
  | cons n names =>
    have hn := h n List.mem_cons_self
    cases names <;> simp [Text.joinWith, hn]

theorem getLast?_append_of_ne_nil {s t : Text} (h : t ≠ []) : (s ++ t).getLast? = t.getLast? := by
  rw [List.getLast?_append, List.getLast?_eq_some_getLast h, Option.some_or]

/-- The last byte of joined names is not the separator. -/
theorem getLast?_joinWith {names : List Text} (h : ∀ t ∈ names, t ≠ [] ∧ slash ∉ t) :
    (Text.joinWith [slash] names).getLast? ≠ some slash := by
  induction names with
  | nil => simp [Text.joinWith]
  | cons t names ih =>
    obtain ⟨hne, hslash⟩ := h t List.mem_cons_self
    cases names with
    | nil => exact fun hlast => hslash (List.mem_of_getLast? hlast)
    | cons u names =>
      have hrest := ih fun v hv => h v (List.mem_cons_of_mem _ hv)
      have hjoined : Text.joinWith [slash] (u :: names) ≠ [] :=
        joinWith_ne_nil (List.cons_ne_nil u names) fun v hv => (h v (List.mem_cons_of_mem _ hv)).1
      rw [Text.joinWith, getLast?_append_of_ne_nil hjoined]
      exact hrest

theorem filter_ne_nil {names : List Text} (h : ∀ t ∈ names, t ≠ []) :
    (names.filter fun t => !t.isEmpty) = names := by
  apply List.filter_eq_self.2
  intro t ht
  simpa using h t ht

/-- Joined names are walked one by one. -/
theorem steps_joinWith {names : List Text} (hne : names ≠ []) (h : ∀ t ∈ names, t ≠ [] ∧ slash ∉ t) :
    steps (Text.joinWith [slash] names) = names := by
  have hsplit : Text.splitOn slash (Text.joinWith [slash] names) = names :=
    Text.splitOn_joinWith hne fun t ht => (h t ht).2
  rw [steps, hsplit, filter_ne_nil fun t ht => (h t ht).1]
  simp [getLast?_joinWith h]

/-- Names behind a slash are walked after what stands before it. -/
theorem steps_append (names : List Text) (hne : names ≠ []) (h : ∀ t ∈ names, t ≠ [] ∧ slash ∉ t)
    (t : Text) :
    steps (t ++ [slash] ++ Text.joinWith [slash] names)
      = ((Text.splitOn slash t).filter fun t => !t.isEmpty) ++ names := by
  have hjoined : Text.joinWith [slash] names ≠ [] := joinWith_ne_nil hne fun t ht => (h t ht).1
  have hlast : (t ++ [slash] ++ Text.joinWith [slash] names).getLast? ≠ some slash := by
    rw [getLast?_append_of_ne_nil hjoined]
    exact getLast?_joinWith h
  rw [steps, List.append_assoc, List.singleton_append, Text.splitOn_append_cons,
    Text.splitOn_joinWith hne fun t ht => (h t ht).2, List.filter_append,
    filter_ne_nil fun t ht => (h t ht).1]
  rw [List.append_assoc, List.singleton_append] at hlast
  apply if_neg
  rw [Bool.and_eq_true, decide_eq_true_eq]
  exact fun hslash => hlast hslash.1


/-- The text of a location is walked name by name. -/
theorem steps_textOf {names : List Text} (h : ∀ t ∈ names, t ≠ [] ∧ slash ∉ t) :
    steps (textOf names) = names := by
  cases names with
  | nil => rfl
  | cons n names => exact steps_append (n :: names) (List.cons_ne_nil n names) h []

/-- A path below the text of a location. -/
theorem below_textOf {loc names : List Text} (hloc : ∀ t ∈ loc, IsElement t) (hne : names ≠ [])
    (hnames : ∀ t ∈ names, IsElement t) :
    Git.below (textOf loc) (Text.joinWith [slash] names) = textOf (loc ++ names) := by
  have hslash : ∀ t ∈ names, slash ∉ t := fun t ht => (hnames t ht).slash_not_mem
  have hjoined : Text.joinWith [slash] names ≠ [] :=
    joinWith_ne_nil hne fun t ht => (hnames t ht).ne_nil
  have hkept : [textOf loc, Text.joinWith [slash] names].filter (fun t => !t.isEmpty)
      = [textOf loc, Text.joinWith [slash] names] := by
    apply filter_ne_nil
    simp [textOf, hjoined]
  rw [Git.below, join, hkept]
  change clean (textOf loc ++ [slash] ++ Text.joinWith [slash] names) = _
  rw [clean_rooted rfl, List.append_assoc, List.singleton_append, Text.splitOn_append_cons,
    lexical_append, splitOn_textOf_foldl fun t ht => (hloc t ht).slash_not_mem,
    lexical_elements [] hloc, List.nil_append, Text.splitOn_joinWith hne hslash,
    lexical_elements loc hnames]

/-! ## Relative paths -/

theorem dropCommon_append (s t : List Text) : dropCommon s (s ++ t) = ([], t) := by
  induction s with
  | nil => cases t <;> rfl
  | cons a s ih => rw [List.cons_append, dropCommon, if_pos rfl, ih]

/-- What `dropCommon` leaves of two lists. -/
theorem dropCommon_eq {s t out into : List Text} (h : dropCommon s t = (out, into)) :
    ∃ common, s = common ++ out ∧ t = common ++ into := by
  induction s generalizing t with
  | nil =>
    obtain ⟨rfl, rfl⟩ : [] = out ∧ t = into := by
      cases t <;> exact Prod.mk.inj h
    exact ⟨[], rfl, rfl⟩
  | cons a s ih =>
    cases t with
    | nil =>
      obtain ⟨rfl, rfl⟩ := Prod.mk.inj h
      exact ⟨[], rfl, rfl⟩
    | cons b t =>
      rw [dropCommon] at h
      split at h
      · next hab =>
        obtain ⟨common, hs, ht⟩ := ih h
        exact ⟨a :: common, by rw [hs, List.cons_append], by rw [hab, ht, List.cons_append]⟩
      · obtain ⟨rfl, rfl⟩ := Prod.mk.inj h
        exact ⟨[], rfl, rfl⟩

/-- The path from a location to one below it. -/
theorem relative_below {loc names : List Text} (hloc : ∀ t ∈ loc, IsElement t)
    (hnames : ∀ t ∈ names, IsElement t) (hne : names ≠ []) :
    relative (textOf loc) (textOf (loc ++ names)) = Text.joinWith [slash] names := by
  have hall : ∀ t ∈ loc ++ names, IsElement t := by
    intro t ht
    rcases List.mem_append.1 ht with ht | ht
    · exact hloc t ht
    · exact hnames t ht
  rw [relative, normal_textOf hloc, normal_textOf hall, dropCommon_append]
  cases names with
  | nil => exact absurd rfl hne
  | cons n names => rfl

/-- A path to elsewhere goes up first; only to the parent is it no more than that. -/
theorem relative_elsewhere {loc target : List Text} (hloc : ∀ t ∈ loc, IsElement t)
    (htarget : ∀ t ∈ target, IsElement t) (hnot : ¬ loc <+: target) :
    Text.startsWith (up ++ [slash]) (relative (textOf loc) (textOf target)) = true
      ∨ ∃ name, loc = target ++ [name] := by
  rw [relative, normal_textOf hloc, normal_textOf htarget]
  generalize hcommon : dropCommon loc target = cut
  obtain ⟨out, into⟩ := cut
  obtain ⟨common, hl, ht⟩ := dropCommon_eq hcommon
  subst hl ht
  cases out with
  | nil => exact absurd ⟨into, by rw [List.append_nil]⟩ hnot
  | cons name out =>
    cases hrest : out.map (fun _ => up) ++ into with
    | nil =>
      rw [List.append_eq_nil_iff, List.map_eq_nil_iff] at hrest
      refine Or.inr ⟨name, ?_⟩
      rw [hrest.1, hrest.2, List.append_nil]
    | cons first rest =>
      refine Or.inl ?_
      change Text.startsWith (up ++ [slash])
        (Text.joinWith [slash] (up :: (out.map (fun _ => up) ++ into))) = true
      rw [hrest, Text.joinWith, Text.startsWith, Text.dropLead?_eq_some_iff.2 rfl, Option.isSome_some]

end FileSystem

end CrateBump
