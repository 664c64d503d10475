/-
# The version, line by line

A second reading of a manifest that knows nothing of searches: the text is split into lines, the
package header is the first line that starts with it, the section is the rest of that line and the
lines behind it up to the next table, and the version is the quoted value of the first line of the
section that assigns one.

Main statements: a search over line starts is a search over lines (`searchLines_joinLines`), and both
readings find the same version at the same place in every text (`findVersion?_line_by_line`).
-/
import CrateBump.Proofs.VersionRewrite

namespace CrateBump

variable {α : Type}

/-! ## Lines -/

/-- The lines of a text, without their line feeds; behind the last line feed there is one more. -/
def linesOf (t : Text) : List Text := Text.splitOn lineFeed t

/-- The text with some lines. -/
def joinLines (ls : List Text) : Text := Text.joinWith [lineFeed] ls

/-- Lines that are all ended by a line feed, one after another. -/
def endedText (ls : List Text) : Text := ls.flatMap (· ++ [lineFeed])

/-- The bytes that whole lines take, with their line feeds. -/
def extent : List Text → Nat
  | [] => 0
  | l :: ls => l.length + 1 + extent ls

/-- No line has a line feed in it. -/
def AreLines (ls : List Text) : Prop := ∀ line ∈ ls, lineFeed ∉ line

theorem areLines_linesOf (t : Text) : AreLines (linesOf t) := fun _ h =>
  Text.not_mem_of_mem_splitOn h

theorem linesOf_ne_nil (t : Text) : linesOf t ≠ [] := Text.splitOn_ne_nil lineFeed t

theorem linesOf_joinLines {ls : List Text} (hne : ls ≠ []) (h : AreLines ls) :
    linesOf (joinLines ls) = ls :=
  Text.splitOn_joinWith hne h

/-- A text is its lines joined. -/
theorem joinLines_linesOf (t : Text) : joinLines (linesOf t) = t := Text.joinWith_splitOn lineFeed t

theorem joinLines_cons_cons (l m : Text) (ls : List Text) :
    joinLines (l :: m :: ls) = l ++ lineFeed :: joinLines (m :: ls) := by
  rw [joinLines, Text.joinWith, List.append_assoc, List.singleton_append]
  rfl

/-- The first of some lines is a part of its own. -/
theorem joinLines_append_cons (s l : Text) (ls : List Text) :
    joinLines ((s ++ l) :: ls) = s ++ joinLines (l :: ls) := by
  cases ls with
  | nil => rfl
  | cons m ls => rw [joinLines_cons_cons, joinLines_cons_cons, List.append_assoc]

/-- Behind lines that all end there is one more, which is empty. -/
theorem linesOf_endedText {ls : List Text} (h : AreLines ls) :
    linesOf (endedText ls) = ls ++ [[]] := by
  induction ls with
  | nil => rfl
  | cons l ls ih =>
    have hl : lineFeed ∉ l := h l List.mem_cons_self
    have hls : AreLines ls := fun m hm => h m (List.mem_cons_of_mem l hm)
    have htext : endedText (l :: ls) = l ++ lineFeed :: endedText ls := by
      rw [endedText, List.flatMap_cons, List.append_assoc, List.singleton_append]
      rfl
    rw [htext, linesOf, Text.splitOn_append_cons, Text.splitOn_of_not_mem hl]
    exact congrArg (l :: ·) (ih hls)

theorem length_endedText (ls : List Text) : (endedText ls).length = extent ls := by
  induction ls with
  | nil => rfl
  | cons l ls ih =>
    rw [endedText, List.flatMap_cons, List.length_append, List.length_append, List.length_singleton,
      extent, ← ih, endedText]

/-! ## Searching lines -/

/-- The first line with a property, the lines before it and the lines behind it. -/
def findLine? (p : Text → Prop) [DecidablePred p] : List Text → Option (List Text × Text × List Text)
  | [] => none
  | l :: ls =>
    if p l then some ([], l, ls)
    else (findLine? p ls).map fun (before, line, behind) => (l :: before, line, behind)

theorem findLine?_congr {p q : Text → Prop} [DecidablePred p] [DecidablePred q] {ls : List Text}
    (h : ∀ l ∈ ls, p l ↔ q l) : findLine? p ls = findLine? q ls := by
  induction ls with
  | nil => rfl
  | cons l ls ih =>
    have hl : p l ↔ q l := h l List.mem_cons_self
    have hls : findLine? p ls = findLine? q ls := ih fun m hm => h m (List.mem_cons_of_mem l hm)
    rw [findLine?, findLine?, hls]
    exact if_congr hl rfl rfl

/-- The line that is found satisfies the condition, and the lines are those before it, itself and
those behind it. -/
theorem findLine?_eq_some {p : Text → Prop} [DecidablePred p] {ls before behind : List Text}
    {line : Text} (h : findLine? p ls = some (before, line, behind)) :
    ls = before ++ line :: behind ∧ p line := by
  induction ls generalizing before with
  | nil => cases h
  | cons l ls ih =>
    rw [findLine?] at h
    split at h
    · next hl =>
      obtain ⟨rfl, heq⟩ := Prod.mk.inj (Option.some.inj h)
      obtain ⟨rfl, rfl⟩ := Prod.mk.inj heq
      exact ⟨rfl, hl⟩
    · obtain ⟨⟨skipped, found, rest⟩, hfirst, heq⟩ := Option.map_eq_some_iff.1 h
      simp only [Prod.mk.injEq] at heq
      obtain ⟨rfl, rfl, rfl⟩ := heq
      obtain ⟨rfl, hline⟩ := ih hfirst
      exact ⟨rfl, hline⟩

theorem findLine?_eq_none_iff {p : Text → Prop} [DecidablePred p] {ls : List Text} :
    findLine? p ls = none ↔ ∀ l ∈ ls, ¬ p l := by
  induction ls with
  | nil => simp [findLine?]
  | cons l ls ih =>
    rw [findLine?, List.forall_mem_cons, ← ih]
    by_cases hl : p l
    · rw [if_pos hl]
      constructor
      · intro h
        cases h
      · intro h
        exact absurd hl h.1
    · rw [if_neg hl, Option.map_eq_none_iff]
      exact ⟨fun h => ⟨hl, h⟩, fun h => h.2⟩

/-- The lines up to the first that satisfies a condition. -/
theorem takeWhile_eq_findLine? (p : Text → Prop) [DecidablePred p] (ls : List Text) :
    (ls.takeWhile fun l => ¬ p l)
      = match findLine? p ls with
        | some (before, _, _) => before
        | none => ls := by
  induction ls with
  | nil => rfl
  | cons l ls ih =>
    rw [findLine?]
    by_cases hl : p l
    · rw [if_pos hl, List.takeWhile_cons_of_neg (by simpa using hl)]
    · rw [if_neg hl, List.takeWhile_cons_of_pos (by simpa using hl), ih]
      cases findLine? p ls with
      | none => rfl
      | some found => rfl

/-- Lines without the property behind the others do not change what is found. -/
theorem findLine?_append {p : Text → Prop} [DecidablePred p] (ls : List Text) {more : List Text}
    (h : ∀ l ∈ more, ¬ p l) :
    findLine? p (ls ++ more)
      = (findLine? p ls).map fun (before, line, behind) => (before, line, behind ++ more) := by
  induction ls with
  | nil => exact findLine?_eq_none_iff.2 h
  | cons l ls ih =>
    rw [List.cons_append, findLine?, findLine?, ih]
    split
    · rfl
    · rw [Option.map_map, Option.map_map]
      rfl

section OneLine

variable {form : Text → Option α} {l : Text} (hl : lineFeed ∉ l) (hnone : form l = none)
include hl hnone

/-- A search finds nothing in the last line of a text, unless it recognises that line. -/
theorem searchLines_eq_none_of_line : searchLines form true l = none := by
  have hskips : Skips form true l [] := by
    apply skips_of_not_mem hl
    intro _
    rw [List.append_nil]
    exact hnone
  have hsearch := searchLines_append_of_skips hskips
  rw [List.append_nil] at hsearch
  rw [hsearch]
  cases l with
  | nil => simp [searchLines, freshAfter, hnone]
  | cons b l =>
    rw [freshAfter_of_not_mem (List.cons_ne_nil b l) hl]
    rfl

/-- A search passes over a whole line that it does not recognise. -/
theorem skips_endedLine (hform : OneLine form) (t : Text) : Skips form true (l ++ [lineFeed]) t := by
  rw [skips_append]
  refine ⟨skips_of_not_mem hl fun _ => ?_, fun hfresh => ?_, trivial⟩
  · rw [List.singleton_append, hform]
    exact hnone
  · -- a line starts at the line feed only if the line is empty
    cases l with
    | nil => exact (hform [] t).2 hnone
    | cons b l =>
      rw [freshAfter_of_not_mem (List.cons_ne_nil b l) hl] at hfresh
      cases hfresh

end OneLine

/-- Whether a form of one line stands at the start of some lines depends on the first of them. -/
theorem oneLine_joinLines {form : Text → Option α} (hform : OneLine form) (l : Text)
    (ls : List Text) : form (joinLines (l :: ls)) = none ↔ form l = none := by
  cases ls with
  | nil => exact Iff.rfl
  | cons m ls =>
    rw [joinLines_cons_cons]
    exact hform l _

/-- **A search over line starts is a search over lines**, for a form that looks at one line only. -/
theorem searchLines_joinLines {form : Text → Option α} (hform : OneLine form) {ls : List Text}
    (hne : ls ≠ []) (h : AreLines ls) :
    searchLines form true (joinLines ls)
      = (findLine? (fun l => form l ≠ none) ls).bind fun (before, line, behind) =>
          (form (joinLines (line :: behind))).map fun found => (endedText before, found) := by
  induction ls with
  | nil => exact absurd rfl hne
  | cons l ls ih =>
    have hl : lineFeed ∉ l := h l List.mem_cons_self
    rw [findLine?]
    by_cases hnone : form l = none
    · rw [if_neg (not_not_intro hnone)]
      cases ls with
      | nil => exact searchLines_eq_none_of_line hl hnone
      | cons m ls =>
        have hmore : AreLines (m :: ls) := fun n hn => h n (List.mem_cons_of_mem l hn)
        have hfresh : freshAfter true (l ++ [lineFeed]) = true := by
          rw [freshAfter_append]
          rfl
        have htext : joinLines (l :: m :: ls) = l ++ [lineFeed] ++ joinLines (m :: ls) := by
          rw [joinLines_cons_cons, List.append_assoc, List.singleton_append]
        rw [htext, searchLines_append_of_skips (skips_endedLine hl hnone hform _), hfresh,
          ih (List.cons_ne_nil m ls) hmore, Option.map_bind, Option.bind_map]
        rcases findLine? (fun l => form l ≠ none) (m :: ls) with _ | ⟨before, line, behind⟩
        · rfl
        · simp [endedText, Function.comp_def]
    · rw [if_pos hnone]
      obtain ⟨found, hfound⟩ :=
        Option.ne_none_iff_exists'.1 (mt (oneLine_joinLines hform l ls).1 hnone)
      rw [searchLines_of_form hfound]
      simp [hfound, endedText]

/-- The search through a text goes to the first line of the form. -/
theorem searchLines_linesOf {form : Text → Option α} (hform : OneLine form) (content : Text) :
    searchLines form true content
      = (findLine? (fun l => form l ≠ none) (linesOf content)).bind fun (before, line, behind) =>
          (form (joinLines (line :: behind))).map fun found => (endedText before, found) := by
  have hlines := searchLines_joinLines hform (linesOf_ne_nil content) (areLines_linesOf content)
  rw [joinLines_linesOf] at hlines
  exact hlines

/-! ## The forms of lines -/

/-- A line that starts with the package header. -/
def IsPackageLine (line : Text) : Prop := ∃ a rest, AllBlank a ∧ line = a ++ packageWord ++ rest

/-- A line that starts with a table header. -/
def IsTableLine (line : Text) : Prop := ∃ a rest, AllBlank a ∧ line = a ++ 91 :: rest

/-- A line that starts with the assignment of a quoted version.  What is quoted has no quote in it, and
no line feed, as no line has. -/
def IsVersionLine (line : Text) : Prop :=
  ∃ lead value rest, IsVersionLead lead ∧ IsVersionText value
    ∧ line = lead ++ value ++ doubleQuote :: rest

/-- The description of a header line is what the search recognises. -/
theorem isPackageLine_iff {line : Text} : IsPackageLine line ↔ packageHeader? line ≠ none := by
  rw [Option.ne_none_iff_exists']
  constructor
  · rintro ⟨a, rest, ha, rfl⟩
    exact ⟨_, packageHeader?_append ha rest⟩
  · rintro ⟨⟨header, rest⟩, h⟩
    obtain ⟨a, ha, rfl, rfl⟩ := packageHeader?_eq_some h
    exact ⟨a, rest, ha, rfl⟩

theorem isTableLine_iff {line : Text} : IsTableLine line ↔ tableLine? line ≠ none :=
  tableLine?_ne_none_iff.symm

/-- The description of a version line is what the search recognises. -/
theorem isVersionLine_iff {line : Text} : IsVersionLine line ↔ versionAssignment? line ≠ none := by
  rw [Option.ne_none_iff_exists']
  constructor
  · rintro ⟨lead, value, rest, hlead, hvalue, rfl⟩
    exact ⟨_, versionAssignment?_append hlead hvalue rest⟩
  · rintro ⟨⟨lead, value, tail⟩, h⟩
    obtain ⟨hlead, hvalue, ⟨rest, rfl⟩, rfl⟩ := versionAssignment?_eq_some h
    exact ⟨lead, value, rest, hlead, hvalue, rfl⟩

instance : DecidablePred IsPackageLine := fun _ => decidable_of_iff _ isPackageLine_iff.symm

instance : DecidablePred IsTableLine := fun _ => decidable_of_iff _ isTableLine_iff.symm

instance : DecidablePred IsVersionLine := fun _ => decidable_of_iff _ isVersionLine_iff.symm

/-! ## The reading -/

/-- A line up to the first occurrence of a byte, which is included. -/
def through (b : UInt8) (line : Text) : Text := line.takeWhile (· != b) ++ [b]

/-- The rest of a line behind the first occurrence of a byte. -/
def past (b : UInt8) (line : Text) : Text := (line.dropWhile (· != b)).drop 1

/-- The text between the first two double quotes of a line. -/
def quotedValue (line : Text) : Text := (past doubleQuote line).takeWhile (· != doubleQuote)

/-- The lines of the package section: the rest of the header line, then those behind it, up to the
next table. -/
def sectionLines (header : Text) (following : List Text) : List Text :=
  (past 93 header :: following).takeWhile fun line => ¬ IsTableLine line

/-- Start, end and text of the version that a manifest declares, read line by line. -/
def versionByLines? (content : Text) : Option (Nat × Nat × Text) :=
  match findLine? IsPackageLine (linesOf content) with
  | none => none
  | some (preamble, header, following) =>
    match findLine? IsVersionLine (sectionLines header following) with
    | none => none
    | some (skipped, line, _) =>
      let start := extent preamble + (through 93 header).length + extent skipped
        + (through doubleQuote line).length
      some (start, start + (quotedValue line).length, quotedValue line)

theorem through_append {b : UInt8} {s : Text} (h : b ∉ s) (t : Text) :
    through b (s ++ b :: t) = s ++ [b] := by
  have hs : ∀ c ∈ s, (c != b) = true := fun c hc => bne_iff_ne.2 (ne_of_mem_of_not_mem hc h)
  rw [through, List.takeWhile_append_of_pos hs, List.takeWhile_cons_of_neg (by simp),
    List.append_nil]

theorem past_append {b : UInt8} {s : Text} (h : b ∉ s) (t : Text) :
    past b (s ++ b :: t) = t := by
  have hs : ∀ c ∈ s, (c != b) = true := fun c hc => bne_iff_ne.2 (ne_of_mem_of_not_mem hc h)
  rw [past, List.dropWhile_append_of_pos hs, List.dropWhile_cons_of_neg (by simp)]
  rfl

/-- A header line is cut behind its closing bracket. -/
theorem AllBlank.cut {a : Text} (ha : AllBlank a) (rest : Text) :
    through 93 (a ++ packageWord ++ rest) = a ++ packageWord
      ∧ past 93 (a ++ packageWord ++ rest) = rest := by
  have hword : packageWord = ascii "[package" ++ [93] := by decide
  have hfree : 93 ∉ a ++ ascii "[package" := by
    rw [List.mem_append, not_or]
    exact ⟨fun hmem => absurd (ha 93 hmem) (by decide), by decide⟩
  have htext : a ++ packageWord ++ rest = a ++ ascii "[package" ++ 93 :: rest := by
    simp [hword]
  rw [htext, through_append hfree, past_append hfree, hword, List.append_assoc]
  exact ⟨rfl, rfl⟩

/-- A version line is cut at the quotes around its value. -/
theorem IsVersionLead.cut {lead value : Text} (hlead : IsVersionLead lead)
    (hvalue : IsVersionText value) (rest : Text) :
    through doubleQuote (lead ++ value ++ doubleQuote :: rest) = lead
      ∧ quotedValue (lead ++ value ++ doubleQuote :: rest) = value := by
  obtain ⟨a, b, c, ha, hb, hc, rfl⟩ := hlead
  have hblank : ∀ {t : Text}, AllBlank t → doubleQuote ∉ t := fun ht hmem =>
    absurd (ht doubleQuote hmem) (by decide)
  have hfree : doubleQuote ∉ a ++ versionWord ++ b ++ [61] ++ c := by
    have hword : doubleQuote ∉ versionWord := by decide
    have hequals : doubleQuote ∉ [61] := by decide
    simp only [List.mem_append, hblank ha, hblank hb, hblank hc, hword, hequals, or_self,
      not_false_eq_true]
  have htext : a ++ versionWord ++ b ++ [61] ++ c ++ [doubleQuote] ++ value ++ doubleQuote :: rest
      = a ++ versionWord ++ b ++ [61] ++ c ++ doubleQuote :: (value ++ doubleQuote :: rest) := by
    simp
  have hinside : ∀ b ∈ value, (b != doubleQuote) = true := fun b hb =>
    bne_iff_ne.2 (isVersionByte_iff.1 (hvalue b hb)).1
  rw [htext, quotedValue, through_append hfree, past_append hfree,
    List.takeWhile_append_of_pos hinside, List.takeWhile_cons_of_neg (by simp), List.append_nil]
  exact ⟨rfl, rfl⟩

/-! ## Both readings agree -/

/-- The package header is found in the first line that starts with it. -/
theorem searchLines_packageHeader? (content : Text) :
    searchLines packageHeader? true content
      = (findLine? IsPackageLine (linesOf content)).map fun (preamble, header, following) =>
          (endedText preamble, through 93 header, joinLines (past 93 header :: following)) := by
  rw [searchLines_linesOf oneLine_packageHeader?,
    findLine?_congr (q := fun l => packageHeader? l ≠ none) fun l _ => isPackageLine_iff]
  rcases hfirst : findLine? (fun l => packageHeader? l ≠ none) (linesOf content) with
    _ | ⟨preamble, header, following⟩
  · rfl
  · obtain ⟨a, rest, ha, rfl⟩ := isPackageLine_iff.2 (findLine?_eq_some hfirst).2
    obtain ⟨hthrough, hpast⟩ := ha.cut rest
    simp only [Option.bind_some, Option.map_some, hthrough, hpast]
    rw [joinLines_append_cons, packageHeader?_append ha]
    rfl

/-- The lines of a section, but for an empty one behind the last line feed. -/
theorem linesOf_splitSection {ls : List Text} (hne : ls ≠ []) (h : AreLines ls) :
    ∃ more, (∀ l ∈ more, l = []) ∧
      linesOf (splitSection (joinLines ls)).1 = (ls.takeWhile fun l => ¬ IsTableLine l) ++ more := by
  have hfirst : findLine? (fun l => tableLine? l ≠ none) ls = findLine? IsTableLine ls :=
    findLine?_congr fun l _ => isTableLine_iff.symm
  rw [splitSection_eq, searchLines_joinLines oneLine_tableLine? hne h, hfirst,
    takeWhile_eq_findLine? IsTableLine]
  cases hfound : findLine? IsTableLine ls with
  | none => exact ⟨[], by simp, by simpa using linesOf_joinLines hne h⟩
  | some found =>
    obtain ⟨before, line, behind⟩ := found
    obtain ⟨rfl, hline⟩ := findLine?_eq_some hfound
    obtain ⟨beyond, hbeyond⟩ := Option.ne_none_iff_exists'.1
      (mt (oneLine_joinLines oneLine_tableLine? line behind).1 (isTableLine_iff.1 hline))
    have hbefore : AreLines before := fun l hl => h l (List.mem_append_left _ hl)
    refine ⟨[[]], by simp, ?_⟩
    simp only [Option.bind_some, hbeyond, Option.map_some]
    exact linesOf_endedText hbefore

/-- The version is found in the first line of a section that assigns one. -/
theorem searchLines_versionAssignment? {inside : Text} {ls more : List Text}
    (hlines : linesOf inside = ls ++ more) (hmore : ∀ l ∈ more, l = []) :
    ((searchLines versionAssignment? true inside).map fun (skipped, lead, version, _) =>
        (skipped ++ lead, version))
      = (findLine? IsVersionLine ls).map fun (skipped, line, _) =>
          (endedText skipped ++ through doubleQuote line, quotedValue line) := by
  have hnot : ∀ l ∈ more, ¬ IsVersionLine l := by
    intro l hl
    rw [hmore l hl]
    decide
  have hfirst : findLine? (fun l => versionAssignment? l ≠ none) (linesOf inside)
      = (findLine? IsVersionLine ls).map fun (before, line, behind) =>
          (before, line, behind ++ more) := by
    rw [← findLine?_append ls hnot, ← hlines]
    exact findLine?_congr fun l _ => isVersionLine_iff.symm
  rw [searchLines_linesOf oneLine_versionAssignment?, hfirst]
  cases hfound : findLine? IsVersionLine ls with
  | none => rfl
  | some found =>
    obtain ⟨skipped, line, behind⟩ := found
    obtain ⟨-, lead, value, rest, hlead, hvalue, rfl⟩ := findLine?_eq_some hfound
    obtain ⟨hthrough, hquoted⟩ := hlead.cut hvalue rest
    have hassignment :
        versionAssignment? (joinLines ((lead ++ value ++ doubleQuote :: rest) :: (behind ++ more)))
          = some (lead, value, doubleQuote :: joinLines (rest :: (behind ++ more))) := by
      rw [joinLines_append_cons, show doubleQuote :: rest = [doubleQuote] ++ rest from rfl,
        joinLines_append_cons, List.singleton_append]
      exact versionAssignment?_append hlead hvalue _
    simp only [Option.map_some, Option.bind_some, hassignment, hthrough, hquoted]

/-- Start, end and text of a version. -/
def VersionSite.found (s : VersionSite) : Nat × Nat × Text := (s.start, s.stop, s.version)

/-- Behind the package header only the section counts. -/
theorem found_of_packageHeader {content preamble header rest : Text}
    (h : searchLines packageHeader? true content = some (preamble, header, rest)) :
    (findVersion? content).map VersionSite.found
      = ((searchLines versionAssignment? true (splitSection rest).1).map
          fun (skipped, lead, version, _) => (skipped ++ lead, version)).map fun (front, version) =>
            let start := preamble.length + header.length + front.length
            (start, start + version.length, version) := by
  unfold findVersion?
  rw [h]
  dsimp only
  cases searchLines versionAssignment? true (splitSection rest).1 with
  | none => rfl
  | some found =>
    obtain ⟨skipped, lead, version, tail⟩ := found
    simp only [Option.map_some, VersionSite.found, VersionSite.start, VersionSite.stop,
      List.length_append, Nat.add_assoc]

/-- Both readings find the same. -/
theorem found_eq_versionByLines? (content : Text) :
    (findVersion? content).map VersionSite.found = versionByLines? content := by
  have hheader := searchLines_packageHeader? content
  rw [versionByLines?]
  cases hfirst : findLine? IsPackageLine (linesOf content) with
  | none =>
    rw [hfirst] at hheader
    unfold findVersion?
    rw [hheader]
    rfl
  | some found =>
    obtain ⟨preamble, header, following⟩ := found
    rw [hfirst] at hheader
    -- the lines behind the header are lines of the text, the first of them cut
    have hlines : AreLines (past 93 header :: following) := by
      have hcontent := areLines_linesOf content
      rw [(findLine?_eq_some hfirst).1] at hcontent
      intro l hl
      rcases List.mem_cons.1 hl with rfl | hl
      · intro hmem
        have hsuffix : lineFeed ∈ header := (List.dropWhile_suffix _).subset (List.mem_of_mem_drop hmem)
        exact hcontent header (by simp) hsuffix
      · exact hcontent l (by simp [hl])
    obtain ⟨more, hmore, hsection⟩ := linesOf_splitSection (List.cons_ne_nil _ _) hlines
    rw [found_of_packageHeader hheader, searchLines_versionAssignment? hsection hmore]
    dsimp only
    rw [← sectionLines]
    cases findLine? IsVersionLine (sectionLines header following) with
    | none => rfl
    | some found =>
      obtain ⟨skipped, line, -⟩ := found
      simp only [Option.map_some, List.length_append, length_endedText, Nat.add_assoc]

/-! ## What does not matter -/

/-- The text is empty or ends in a line feed. -/
def WholeLines (t : Text) : Prop := t = [] ∨ t.getLast? = some lineFeed

theorem WholeLines.freshAfter_eq {t : Text} (h : WholeLines t) : freshAfter true t = true := by
  rcases h with rfl | hlast
  · rfl
  · obtain ⟨s, rfl⟩ := List.getLast?_eq_some_iff.1 hlast
    rw [freshAfter_append]
    rfl

/-- Lines that are not recognised are passed over whatever follows them. -/
theorem WholeLines.skips {form : Text → Option α} (hform : OneLine form) {t : Text}
    (h : WholeLines t) (hnone : ∀ l ∈ linesOf t, form l = none) (u : Text) :
    Skips form true t u := by
  have hfirst : findLine? (fun l => form l ≠ none) (linesOf t) = none :=
    findLine?_eq_none_iff.2 fun l hl => not_not_intro (hnone l hl)
  have hsearch := searchLines_linesOf hform t
  rw [hfirst] at hsearch
  exact (skips_of_searchLines_eq_none hsearch).congr hform h.freshAfter_eq

/-- The header behind lines that have none is found behind them. -/
theorem searchLines_behind_lines {front : Text} (hfront : WholeLines front)
    (hfree : ∀ l ∈ linesOf front, ¬ IsPackageLine l) (t : Text) :
    searchLines packageHeader? true (front ++ t)
      = (searchLines packageHeader? true t).map fun (before, header) => (front ++ before, header) := by
  have hskips : Skips packageHeader? true front t := by
    apply hfront.skips oneLine_packageHeader?
    intro l hl
    by_contra hne
    exact hfree l hl (isPackageLine_iff.2 hne)
  rw [searchLines_append_of_skips hskips, hfront.freshAfter_eq]

/-- A section ends in front of a table, whatever the table is. -/
theorem splitSection_append {inside beyond : Text} (hinside : WholeLines inside)
    (hbeyond : IsTableLine beyond) :
    (splitSection (inside ++ beyond)).1 = (splitSection inside).1 := by
  obtain ⟨hsplit, hskips, hend⟩ := splitSection_eq_iff.1 (Prod.eta (splitSection inside)).symm
  rcases hparts : splitSection inside with ⟨first, rest⟩
  rw [hparts] at hsplit hskips hend
  dsimp only at hsplit hskips hend
  have hwhole : splitSection (inside ++ beyond) = (first, rest ++ beyond) := by
    rw [splitSection_eq_iff]
    refine ⟨by rw [hsplit, List.append_assoc], ?_, Or.inr ?_⟩
    · -- the section is the whole text, or ends where a line starts: it is passed over in either case
      rcases hend with rfl | ⟨hfresh, -⟩
      · rw [List.append_nil] at hsplit
        rw [hsplit] at hinside
        exact hskips.congr oneLine_tableLine? hinside.freshAfter_eq
      · exact hskips.congr oneLine_tableLine? hfresh
    · rcases hend with rfl | ⟨hfresh, htable⟩
      · rw [List.append_nil] at hsplit
        rw [hsplit] at hinside
        exact ⟨hinside.freshAfter_eq, isTableLine_iff.1 hbeyond⟩
      · obtain ⟨a, more, ha, rfl⟩ := isTableLine_iff.2 htable
        exact ⟨hfresh, isTableLine_iff.1 ⟨a, more ++ beyond, ha, by simp⟩⟩
  rw [hwhole]

section Front

variable {front : Text} (hfront : WholeLines front)
  (hfree : ∀ line ∈ linesOf front, ¬ IsPackageLine line)
include hfront hfree

/-- Whole lines without a package header move the places behind them. -/
theorem found_behind_lines (content : Text) :
    (findVersion? (front ++ content)).map VersionSite.found
      = (findVersion? content).map fun site =>
          (front.length + site.start, front.length + site.stop, site.version) := by
  have hheader := searchLines_behind_lines hfront hfree content
  cases hsearch : searchLines packageHeader? true content with
  | none =>
    rw [hsearch] at hheader
    unfold findVersion?
    rw [hheader, hsearch]
    rfl
  | some found =>
    obtain ⟨before, header, rest⟩ := found
    rw [hsearch] at hheader
    have hmoved : ((findVersion? content).map fun site =>
          (front.length + site.start, front.length + site.stop, site.version))
        = ((findVersion? content).map VersionSite.found).map fun (start, stop, version) =>
          (front.length + start, front.length + stop, version) := by
      rw [Option.map_map]
      rfl
    rw [hmoved, found_of_packageHeader hheader, found_of_packageHeader hsearch]
    cases searchLines versionAssignment? true (splitSection rest).1 with
    | none => rfl
    | some found => simp only [Option.map_some, List.length_append, Nat.add_assoc]

/-- A table behind the package section has no influence. -/
theorem found_before_table {a inside beyond : Text} (ha : AllBlank a) (hinside : WholeLines inside)
    (hbeyond : IsTableLine beyond) :
    (findVersion? (front ++ (a ++ packageWord ++ (inside ++ beyond)))).map VersionSite.found
      = (findVersion? (front ++ (a ++ packageWord ++ inside))).map VersionSite.found := by
  have hheader : ∀ t, searchLines packageHeader? true (front ++ (a ++ packageWord ++ t))
      = some (front, a ++ packageWord, t) := by
    intro t
    rw [searchLines_behind_lines hfront hfree, searchLines_of_form (packageHeader?_append ha t)]
    simp
  rw [found_of_packageHeader (hheader _), found_of_packageHeader (hheader _),
    splitSection_append hinside hbeyond]

end Front

/-- A version stands between quotes. -/
theorem exists_quotes_around {content : Text} {site : VersionSite}
    (h : findVersion? content = some site) :
    ∃ before after, site.start = before.length + 1
      ∧ content = before ++ doubleQuote :: (site.version ++ doubleQuote :: after) := by
  obtain ⟨front, back, hbefore, hafter⟩ := exists_quotes h
  refine ⟨front, back, ?_, ?_⟩
  · rw [VersionSite.start, hbefore, List.length_append, List.length_singleton]
  · rw [← VersionSite.fill_between hbefore hafter, fill_version h]

/-- **The version is found line by line, in every text.**  Start, end and text of the version are those
of the reading that splits the text into lines, so a version is found exactly if that reading finds
one.  The version is the part of the text between these places, and a quote stands right before it and
right behind it.  Whole lines without a package header in front of a text move the places by their
length and change nothing else, and what follows the package section from the next table on has no
influence. -/
theorem findVersion?_line_by_line :
    (∀ content, (findVersion? content).map VersionSite.found = versionByLines? content)
    ∧ (∀ content site, findVersion? content = some site →
        (content.take site.stop).drop site.start = site.version
        ∧ 0 < site.start ∧ content[site.start - 1]? = some doubleQuote
        ∧ content[site.stop]? = some doubleQuote)
    ∧ ∀ front, WholeLines front → (∀ line ∈ linesOf front, ¬ IsPackageLine line) →
        (∀ content, (findVersion? (front ++ content)).map VersionSite.found
          = (findVersion? content).map fun site =>
              (front.length + site.start, front.length + site.stop, site.version))
        ∧ ∀ a inside beyond, AllBlank a → WholeLines inside → IsTableLine beyond →
            (findVersion? (front ++ (a ++ packageWord ++ (inside ++ beyond)))).map VersionSite.found
              = (findVersion? (front ++ (a ++ packageWord ++ inside))).map VersionSite.found := by
  refine ⟨found_eq_versionByLines?, fun content site h => ?_, fun front hfront hfree => ⟨?_, ?_⟩⟩
  · obtain ⟨before, after, hstart, hcontent⟩ := exists_quotes_around h
    have hstop : site.stop = before.length + 1 + site.version.length := by
      rw [VersionSite.stop, ← VersionSite.start, hstart]
    refine ⟨?_, by omega, ?_, ?_⟩
    · rw [take_stop h, VersionSite.start, List.drop_left]
    · rw [hcontent, hstart, Nat.add_sub_cancel, List.getElem?_append_right (Nat.le_refl _),
        Nat.sub_self]
      rfl
    · have hindex : site.stop - before.length = site.version.length + 1 := by omega
      rw [hcontent, List.getElem?_append_right (by omega), hindex, List.getElem?_cons_succ,
        List.getElem?_append_right (Nat.le_refl _), Nat.sub_self]
      rfl
  · exact fun content => found_behind_lines hfront hfree content
  · exact fun a inside beyond ha hinside hbeyond => found_before_table hfront hfree ha hinside hbeyond

/-- Another table, then two package sections: the version is the one of the first section, on a line
behind a look-alike, and neither the first table nor the second section matters. -/
theorem line_by_line_two_sections :
    (findVersion? (ascii "[x]\nversion = \"0\"\n" ++ (ascii " " ++ packageWord
        ++ (ascii "\r\nrust-version = \"1.7\"\r\n\tversion=\"1.2\"#\"\r\n"
          ++ ascii "[package]\nversion = \"3\"")))).map VersionSite.found
      = some (62, 65, ascii "1.2")
    ∧ versionByLines? (ascii "[x]\nversion = \"0\"\n" ++ (ascii " " ++ packageWord
        ++ ascii "\r\nrust-version = \"1.7\"\r\n\tversion=\"1.2\"#\"\r\n"))
      = some (62, 65, ascii "1.2") := by
  have hlines : versionByLines? (ascii "[x]\nversion = \"0\"\n" ++ (ascii " " ++ packageWord
      ++ ascii "\r\nrust-version = \"1.7\"\r\n\tversion=\"1.2\"#\"\r\n"))
      = some (62, 65, ascii "1.2") := by decide +kernel
  obtain ⟨hread, -, hfront⟩ := findVersion?_line_by_line
  have hbefore : WholeLines (ascii "[x]\nversion = \"0\"\n") := Or.inr (by decide)
  have hfree : ∀ line ∈ linesOf (ascii "[x]\nversion = \"0\"\n"), ¬ IsPackageLine line := by
    decide +kernel
  have hinside : WholeLines (ascii "\r\nrust-version = \"1.7\"\r\n\tversion=\"1.2\"#\"\r\n") :=
    Or.inr (by decide)
  have htable : IsTableLine (ascii "[package]\nversion = \"3\"") := by decide +kernel
  have hblank : AllBlank (ascii " ") := List.forall_mem_singleton.2 rfl
  refine ⟨?_, hlines⟩
  rw [(hfront _ hbefore hfree).2 _ _ _ hblank hinside htable, hread]
  exact hlines

end CrateBump
