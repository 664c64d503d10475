/-
# Members and the version

The members array and the version are found in the same text by searches that know nothing of each
other.  A version stands between quotes and has digits and dots only, so no members array can open
or close inside it: either the whole version stands inside the body of the array, or the array does
not notice which version is declared.  An array around the version has opened in an earlier line, and
no entry goes on from one line to the next, so the version between its quotes is then one of the entries.

Main statements: another version keeps the members of a manifest whose version stands outside of the
members array (`findMembers?_fill`), and takes the place of the old one among the members otherwise
(`findMembers?_replaceVersion?`).
-/
import CrateBump.Proofs.ArrayEntries
import CrateBump.Proofs.BumpedVersion

namespace CrateBump

/-! ## Versions and arrays in one text -/

/-- The version stands inside the body of the members array. -/
def VersionSite.Within (v : VersionSite) (m : MembersSite) : Prop :=
  m.before.length ≤ v.start ∧ v.stop ≤ m.before.length + m.body.length

/-- An array that opens in front of a quote. -/
theorem findMembersSite?_of_opening {skip o rest : Text} (ho : IsMembersOpening o)
    (hskip : NoOpening skip (o ++ rest)) (t : Text) :
    findMembersSite? (skip ++ (o ++ rest) ++ doubleQuote :: t)
      = if (rest ++ doubleQuote :: t).contains 93 then
          some ⟨skip ++ o, (rest ++ doubleQuote :: t).takeWhile (· != 93),
            (rest ++ doubleQuote :: t).dropWhile (· != 93)⟩ else none := by
  have hpass := (noOpening_quote_iff skip (o ++ rest) t).2 hskip
  rw [List.append_assoc, findMembersSite?_append hpass, List.append_assoc,
    findMembersSite?_opening ho]
  split
  · rfl
  · rfl

/-- Where no array opens in front of a quoted version, the search goes on behind it. -/
theorem findMembersSite?_of_noOpening {front v : Text} (hfront : NoOpening front [])
    (hv : IsDotted v) (back : Text) :
    findMembersSite? (front ++ doubleQuote :: (v ++ doubleQuote :: back))
      = (findMembersSite? back).map fun m =>
          { m with before := front ++ doubleQuote :: (v ++ [doubleQuote]) ++ m.before } := by
  have hquoted : NoOpening (doubleQuote :: (v ++ [doubleQuote])) back := by
    apply noOpening_of_not_mem
    have hletter : 109 ∉ v := hv.not_mem (by decide) (by decide)
    have hquote : (109 : UInt8) ≠ doubleQuote := by decide
    simp [hletter, hquote]
  have hpass : NoOpening (front ++ doubleQuote :: (v ++ [doubleQuote])) back :=
    noOpening_append.2 ⟨(noOpening_quote_iff front [] _).2 hfront, hquoted⟩
  rw [← findMembersSite?_append hpass]
  simp only [List.append_assoc, List.cons_append, List.nil_append]

/-- A members array that is open where the version stands has opened in an earlier line of the package
section: a line feed and the key of the version stand behind it. -/
theorem exists_line_before {content skip o rest : Text} {site : VersionSite}
    (h : findVersion? content = some site)
    (hbefore : site.before = skip ++ (o ++ rest) ++ [doubleQuote]) (ho : IsMembersOpening o)
    (hrest : 93 ∉ rest) : ∃ lines key, doubleQuote ∉ key ∧ rest = lines ++ lineFeed :: key := by
  obtain ⟨d, hd, -, rfl⟩ := findVersion?_eq_some_iff.1 h
  obtain ⟨key, hlead, hkey⟩ := hd.lead_form.exists_key
  obtain ⟨a, -, hheader⟩ := hd.header_form
  have hword : packageWord = ascii "[package" ++ [93] := by decide
  -- the array opens behind the header, which ends in a closing bracket
  have hheaderEnd : 93 ∉ o ++ rest := by
    rw [List.mem_append, not_or]
    exact ⟨ho.not_mem (by decide) (by decide), hrest⟩
  have hsite : d.preamble ++ a ++ ascii "[package" ++ 93 :: (d.skipped ++ key) = skip ++ (o ++ rest) := by
    apply (List.append_left_inj [doubleQuote]).1
    rw [← hbefore, Declaration.site, hheader, hword, hlead]
    simp only [List.append_assoc, List.cons_append, List.nil_append]
  obtain ⟨more, -, hsection⟩ := exists_append_eq_of_not_mem hheaderEnd hsite
  -- and its own bracket stands before the line that declares the version
  obtain ⟨opening, rfl⟩ := ho.exists_bracket
  have hlines : more ++ opening ++ 91 :: rest = d.skipped ++ key := by rw [hsection]; simp
  obtain ⟨passed, hskipped, hpassed⟩ :=
    exists_append_eq_of_not_mem (hkey 91 (by decide) (by decide)) hlines
  have hfresh := hd.skipped_fresh
  rw [hskipped, freshAfter_append] at hfresh
  obtain ⟨line, hline⟩ := exists_eq_append_lineFeed hfresh
  cases line with
  | nil => cases (List.cons.inj hline).1
  | cons b lines =>
    have hends : passed = lines ++ [lineFeed] := (List.cons.inj hline).2
    refine ⟨lines, key, hkey doubleQuote (by decide) (by decide), ?_⟩
    rw [hpassed, hends, List.append_assoc, List.singleton_append]

/-- Where the members array of a manifest stands to its version, whatever version of digits and dots is
declared: there is none, or its body does not hold the version, or the body holds the version on a line
behind its first one. -/
inductive Placement (site : VersionSite) : Prop
  | missing (h : ∀ u, IsDotted u → findMembersSite? (site.fill u) = none)
  | apart (body : Text)
      (h : ∀ u, IsDotted u → ∃ m, findMembersSite? (site.fill u) = some m ∧ m.body = body
        ∧ ¬ VersionSite.Within { site with version := u } m)
  | around (lines key behind : Text) (hkey : doubleQuote ∉ key)
      (h : ∀ u, IsDotted u → ∃ m, findMembersSite? (site.fill u) = some m
        ∧ m.body = lines ++ lineFeed :: (key ++ doubleQuote :: (u ++ doubleQuote :: behind))
        ∧ VersionSite.Within { site with version := u } m)

/-- An array that opens behind the version only. -/
theorem placement_of_noOpening {site : VersionSite} {front back : Text}
    (hbefore : site.before = front ++ [doubleQuote]) (hafter : site.after = doubleQuote :: back)
    (hnone : NoOpening front []) : Placement site := by
  have hsite : ∀ u, IsDotted u → findMembersSite? (site.fill u)
      = (findMembersSite? back).map fun m =>
          { m with before := front ++ doubleQuote :: (u ++ [doubleQuote]) ++ m.before } := by
    intro u hu
    rw [VersionSite.fill_between hbefore hafter, findMembersSite?_of_noOpening hnone hu]
  cases hback : findMembersSite? back with
  | none =>
    refine .missing fun u hu => ?_
    rw [hsite u hu, hback]
    rfl
  | some m =>
    refine .apart m.body fun u hu => ?_
    rw [hsite u hu, hback]
    refine ⟨_, rfl, rfl, ?_⟩
    simp only [VersionSite.Within, VersionSite.start, VersionSite.stop, hbefore, List.length_append,
      List.length_cons, List.length_nil]
    omega

/-- An array that opens before the version: where it is closed decides. -/
theorem placement_of_opening {content skip o rest back : Text} {site : VersionSite}
    (h : findVersion? content = some site)
    (hbefore : site.before = skip ++ (o ++ rest) ++ [doubleQuote])
    (hafter : site.after = doubleQuote :: back) (ho : IsMembersOpening o)
    (hskip : NoOpening skip (o ++ rest)) : Placement site := by
  have hsite : ∀ u, findMembersSite? (site.fill u)
      = if (rest ++ doubleQuote :: (u ++ doubleQuote :: back)).contains 93 then
          some ⟨skip ++ o, arrayBody (rest ++ doubleQuote :: (u ++ doubleQuote :: back)),
            (rest ++ doubleQuote :: (u ++ doubleQuote :: back)).dropWhile (· != 93)⟩ else none := by
    intro u
    rw [VersionSite.fill_between hbefore hafter]
    exact findMembersSite?_of_opening ho hskip _
  have hquote : (93 : UInt8) ≠ doubleQuote := by decide
  have hversion : ∀ {u}, IsDotted u → 93 ∉ u := fun hu => hu.not_mem (by decide) (by decide)
  by_cases hrest : 93 ∈ rest
  · refine .apart (arrayBody rest) fun u hu => ?_
    have hbody : arrayBody (rest ++ doubleQuote :: (u ++ doubleQuote :: back)) = arrayBody rest :=
      Text.takeWhile_append_of_mem hrest _
    have hlength : (arrayBody rest).length ≤ rest.length := (List.takeWhile_sublist _).length_le
    rw [hsite, if_pos (by simp [hrest]), hbody]
    refine ⟨_, rfl, rfl, ?_⟩
    simp only [VersionSite.Within, VersionSite.start, VersionSite.stop, hbefore, List.length_append,
      List.length_cons, List.length_nil]
    omega
  by_cases hback : 93 ∈ back
  · -- the array goes on up to the first closing bracket behind the version
    obtain ⟨lines, key, hkey, hlines⟩ := exists_line_before h hbefore ho hrest
    refine .around lines key (arrayBody back) hkey fun u hu => ?_
    have hbody : arrayBody (rest ++ doubleQuote :: (u ++ doubleQuote :: back))
        = rest ++ doubleQuote :: (u ++ doubleQuote :: arrayBody back) := by
      have hopen : 93 ∉ rest ++ doubleQuote :: (u ++ [doubleQuote]) := by
        simp [hrest, hquote, hversion hu]
      have happend := arrayBody_append_of_not_mem hopen back
      simp only [List.append_assoc, List.cons_append, List.nil_append] at happend
      exact happend
    rw [hsite, if_pos (by simp [hback]), hbody]
    refine ⟨_, rfl, ?_, ?_⟩
    · simp only [hlines, List.append_assoc, List.cons_append]
    · simp only [VersionSite.Within, VersionSite.start, VersionSite.stop, hbefore, List.length_append,
        List.length_cons, List.length_nil]
      omega
  · refine .missing fun u hu => ?_
    rw [hsite, if_neg (by simp [hrest, hquote, hversion hu, hback])]

theorem placement_of_findVersion? {content : Text} {site : VersionSite}
    (h : findVersion? content = some site) : Placement site := by
  obtain ⟨front, back, hbefore, hafter⟩ := exists_quotes h
  rcases opening_or_noOpening front with ⟨skip, o, rest, rfl, ho, hskip⟩ | hnone
  · exact placement_of_opening h hbefore hafter ho hskip
  · exact placement_of_noOpening hbefore hafter hnone

/-- The version of a manifest does not stand inside its members array. -/
def VersionOutside (content : Text) : Prop :=
  ∀ site m, findVersion? content = some site → findMembersSite? content = some m → ¬ site.Within m

theorem versionOutside_iff {content : Text} {site : VersionSite} {m : MembersSite}
    (h : findVersion? content = some site) (hm : findMembersSite? content = some m) :
    VersionOutside content ↔ ¬ site.Within m := by
  refine ⟨fun hout => hout site m h hm, fun hout site' m' h' hm' => ?_⟩
  rw [h] at h'
  rw [hm] at hm'
  rw [← Option.some.inj h', ← Option.some.inj hm']
  exact hout

/-- **A manifest whose version stands outside of its members array keeps its members under any other
version**, and the other version stands outside again. -/
theorem findMembers?_fill {content : Text} {site : VersionSite}
    (h : findVersion? content = some site) (hold : IsDotted site.version)
    (hout : VersionOutside content) {members : List Text}
    (hmembers : findMembers? content = some members) {w : Text} (hw : IsDotted w) :
    findMembers? (site.fill w) = some members ∧ VersionOutside (site.fill w) := by
  have hcontent := fill_version h
  cases placement_of_findVersion? h with
  | missing hnone =>
    rw [findMembers?, ← hcontent, hnone _ hold] at hmembers
    cases hmembers
  | apart body hbody =>
    obtain ⟨m, hm, rfl, -⟩ := hbody _ hold
    obtain ⟨m', hm', hsame, hout'⟩ := hbody w hw
    rw [hcontent] at hm
    rw [findMembers?, hm] at hmembers
    refine ⟨by rw [findMembers?, hm', Option.map_some, hsame]; exact hmembers, ?_⟩
    exact (versionOutside_iff (findVersion?_fill h hw.isVersionText) hm').2 hout'
  | around lines key behind hkey hbody =>
    obtain ⟨m, hm, -, hwithin⟩ := hbody _ hold
    rw [hcontent] at hm
    exact absurd hwithin ((versionOutside_iff h hm).1 hout)

/-! ## Replacing the version -/

theorem IsDotted.isEntry {w : Text} (h : IsDotted w) (hne : w ≠ []) : IsEntry w := by
  refine ⟨hne, fun b hb => ?_⟩
  have hother : ∀ c, Text.isDigit c = false → c ≠ dot → b ≠ c := fun c hdigit hdot =>
    ne_of_mem_of_not_mem hb (h.not_mem hdigit hdot)
  simp [isEntryByte, Text.isSpace, hother doubleQuote (by decide) (by decide),
    hother 32 (by decide) (by decide), hother 9 (by decide) (by decide),
    hother 10 (by decide) (by decide), hother 12 (by decide) (by decide),
    hother 13 (by decide) (by decide)]

/-- A version inside the body of the array is one of the members. -/
theorem entries_around {lines key behind u : Text} (hkey : doubleQuote ∉ key) (hu : IsDotted u)
    (hne : u ≠ []) :
    entries (lines ++ lineFeed :: (key ++ doubleQuote :: (u ++ doubleQuote :: behind)))
      = entries lines ++ u :: entries behind := by
  have hentry := hu.isEntry hne
  rw [entries_append_space (by decide), entries_append_of_not_mem hkey,
    entries_quote hentry.doubleQuote_not_mem, if_pos hentry]

/-- **Another version changes the members exactly if it stands among them.**  Members are found before
and after alike; they are the same exactly if the version does not stand inside the members array; and
if it does, they differ in one place, where the old version has become the new one. -/
theorem findMembers?_replaceVersion? {content w : Text} {site : VersionSite}
    (h : findVersion? content = some site) (hold : IsDotted site.version) (hne : site.version ≠ [])
    (hw : IsDotted w) (hwne : w ≠ []) (hdiff : w ≠ site.version) :
    ∃ updated, replaceVersion? content w = some updated
      ∧ (findMembers? updated ≠ none ↔ findMembers? content ≠ none)
      ∧ (findMembers? updated = findMembers? content ↔ VersionOutside content)
      ∧ (¬ VersionOutside content → ∃ front back,
          findMembers? content = some (front ++ site.version :: back)
          ∧ findMembers? updated = some (front ++ w :: back)) := by
  have hcontent := fill_version h
  refine ⟨site.fill w, replaceVersion?_eq_fill h w, ?_⟩
  cases placement_of_findVersion? h with
  | missing hnone =>
    have hbefore := hnone _ hold
    rw [hcontent] at hbefore
    have hout : VersionOutside content := by
      intro site' m _ hm
      rw [hbefore] at hm
      cases hm
    simp only [findMembers?, hbefore, hnone w hw, Option.map_none, hout, not_true_eq_false,
      false_implies, and_self]
  | apart body hbody =>
    obtain ⟨m, hm, hsame, hout⟩ := hbody _ hold
    obtain ⟨m', hm', hsame', -⟩ := hbody w hw
    rw [hcontent] at hm
    simp only [findMembers?, hm, hm', hsame, hsame', Option.map_some, (versionOutside_iff h hm).2 hout,
      not_true_eq_false, false_implies, and_self]
  | around lines key behind hkey hbody =>
    obtain ⟨m, hm, hwhole, hwithin⟩ := hbody _ hold
    obtain ⟨m', hm', hwhole', -⟩ := hbody w hw
    rw [hcontent] at hm
    have hmembers : findMembers? content = some (entries lines ++ site.version :: entries behind) := by
      rw [findMembers?, hm, Option.map_some, hwhole, entries_around hkey hold hne]
    have hmembers' : findMembers? (site.fill w) = some (entries lines ++ w :: entries behind) := by
      rw [findMembers?, hm', Option.map_some, hwhole', entries_around hkey hw hwne]
    have hinside : ¬ VersionOutside content := fun hout => (versionOutside_iff h hm).1 hout hwithin
    refine ⟨by simp [hmembers, hmembers'], ?_, fun _ => ⟨_, _, hmembers, hmembers'⟩⟩
    simp [hmembers, hmembers', hinside, hdiff]

/-- The version is one of the members where an array opens above it in the package section. -/
theorem replaceVersion?_among_members :
    ¬ VersionOutside (ascii "[package]\nmembers = [\"1.2\"\nversion = \"1.2\"\n]")
    ∧ ∃ front back,
      findMembers? (ascii "[package]\nmembers = [\"1.2\"\nversion = \"1.2\"\n]")
        = some (front ++ ascii "1.2" :: back)
      ∧ findMembers? (ascii "[package]\nmembers = [\"1.2\"\nversion = \"30\"\n]")
        = some (front ++ ascii "30" :: back) := by
  have hsite : findVersion? (ascii "[package]\nmembers = [\"1.2\"\nversion = \"1.2\"\n]")
      = some ⟨ascii "[package]\nmembers = [\"1.2\"\nversion = \"", ascii "1.2", ascii "\"\n]"⟩ := by
    decide +kernel
  have hm : findMembersSite? (ascii "[package]\nmembers = [\"1.2\"\nversion = \"1.2\"\n]")
      = some ⟨ascii "[package]\nmembers = [", ascii "\"1.2\"\nversion = \"1.2\"\n", ascii "]"⟩ := by
    decide +kernel
  have hinside : ¬ VersionOutside (ascii "[package]\nmembers = [\"1.2\"\nversion = \"1.2\"\n]") :=
    fun hout => hout _ _ hsite hm ⟨by decide, by decide⟩
  have hdotted : IsDotted (ascii "30") := by decide
  obtain ⟨updated, hupdated, -, -, hplace⟩ := findMembers?_replaceVersion? hsite (by decide) (by decide)
    hdotted (by decide) (by decide)
  have htext : updated = ascii "[package]\nmembers = [\"1.2\"\nversion = \"30\"\n]" := by
    rw [replaceVersion?_eq_fill hsite] at hupdated
    rw [← Option.some.inj hupdated]
    decide
  rw [htext] at hplace
  exact ⟨hinside, hplace hinside⟩

end CrateBump
