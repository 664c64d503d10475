/-
# Rewriting the declared version

Finding and replacing the version of a manifest fit together: replacing it by itself changes nothing,
what was put in is found again at the same place, and of two replacements the second one counts.  The
text that is put in may be anything that could have stood there, that is, anything without a double
quote and without a line feed: such a text can neither open nor close a table, nor make another line
declare the version.
-/
import CrateBump.Proofs.Declaration

namespace CrateBump

/-! ## Putting another version in -/

theorem IsVersionLead.ne_nil {lead : Text} (h : IsVersionLead lead) : lead ≠ [] := by
  obtain ⟨a, b, c, -, -, -, rfl⟩ := h
  simp

/-- The key of a version has blanks and the bytes of an assignment only. -/
theorem IsVersionLead.exists_key {lead : Text} (h : IsVersionLead lead) :
    ∃ key, lead = key ++ [doubleQuote]
      ∧ ∀ x, Text.isBlank x = false → x ∉ versionWord ++ [61] → x ∉ key := by
  obtain ⟨a, b, c, ha, hb, hc, rfl⟩ := h
  refine ⟨_, rfl, fun x hx hword => ?_⟩
  have hblank : ∀ {s}, AllBlank s → x ∉ s := by
    intro s hs hmem
    rw [hs x hmem] at hx
    cases hx
  simp only [List.mem_append, not_or] at hword
  simp only [List.mem_append, hblank ha, hblank hb, hblank hc, hword, or_self, not_false_eq_true]

/-- The line that declares a version starts no table. -/
theorem IsVersionLead.tableLine?_append {lead : Text} (h : IsVersionLead lead) (t : Text) :
    tableLine? (lead ++ t) = none := by
  obtain ⟨a, b, c, ha, -, -, rfl⟩ := h
  have hword : versionWord = 118 :: ascii "ersion" := by decide
  simp only [tableLine?, isTableHeader, hword, List.append_assoc, List.cons_append,
    ha.skipBlanks_append (b := 118) (by decide)]
  rfl

section Value

variable {lead v : Text} (hlead : IsVersionLead lead) (hv : IsVersionText v)
include hlead hv

theorem lineFeed_not_mem_value : lineFeed ∉ lead ++ v := by
  rw [List.mem_append, not_or]
  exact ⟨hlead.lineFeed_not_mem, (isVersionText_iff.1 hv).2⟩

/-- The declaring line does not end before the closing quote. -/
theorem freshAfter_value (fresh : Bool) : freshAfter fresh (lead ++ v) = false := by
  apply freshAfter_of_not_mem
  · simp [hlead.ne_nil]
  · exact lineFeed_not_mem_value hlead hv

/-- Whether a table starts in a section is decided in front of the declaring line and behind the
version. -/
theorem skips_inside_iff {skipped tail beyond : Text} (hfresh : freshAfter true skipped = true) :
    Skips tableLine? true (skipped ++ (lead ++ v ++ tail)) beyond
      ↔ Skips tableLine? true skipped (lead ++ v ++ tail ++ beyond)
        ∧ Skips tableLine? false tail beyond := by
  have hvalue : Skips tableLine? true (lead ++ v) (tail ++ beyond) := by
    apply skips_of_not_mem (lineFeed_not_mem_value hlead hv)
    intro _
    rw [List.append_assoc]
    exact hlead.tableLine?_append _
  rw [skips_append, hfresh, skips_append, freshAfter_value hlead hv]
  simp only [hvalue, true_and]

theorem freshAfter_inside {skipped tail : Text} (fresh : Bool) :
    freshAfter fresh (skipped ++ (lead ++ v ++ tail)) = freshAfter false tail := by
  rw [freshAfter_append, freshAfter_append, freshAfter_value hlead hv]

end Value

namespace Declaration

/-- The declaration with another version. -/
def withVersion (d : Declaration) (w : Text) : Declaration := { d with version := w }

theorem fill_site (d : Declaration) (w : Text) : d.site.fill w = (d.withVersion w).text := by
  simp only [site, VersionSite.fill, text, inside, assignment, withVersion, List.append_assoc]

/-- Another version leaves every part of a declaration in its form and in its place. -/
theorem WellFormed.withVersion {d : Declaration} (h : d.WellFormed) {w : Text}
    (hw : IsVersionText w) : (d.withVersion w).WellFormed where
  preamble_skips := h.preamble_skips.congr oneLine_packageHeader? h.preamble_fresh
  preamble_fresh := h.preamble_fresh
  header_form := h.header_form
  inside_skips := by
    -- the declaring line starts no table under either version, so only its surroundings count
    have hold := (skips_inside_iff h.lead_form h.version_form h.skipped_fresh).1 h.inside_skips
    apply (skips_inside_iff h.lead_form hw h.skipped_fresh).2
    exact ⟨hold.1.congr oneLine_tableLine? h.skipped_fresh, hold.2⟩
  beyond_form := by
    have hfresh : freshAfter true (d.withVersion w).inside = freshAfter true d.inside :=
      (freshAfter_inside h.lead_form hw true).trans
        (freshAfter_inside h.lead_form h.version_form true).symm
    rw [hfresh]
    exact h.beyond_form
  skipped_skips := h.skipped_skips.congr oneLine_versionAssignment? h.skipped_fresh
  skipped_fresh := h.skipped_fresh
  lead_form := h.lead_form
  version_form := hw
  tail_form := h.tail_form

end Declaration

/-! ## Finding what was put in -/

theorem VersionSite.fill_between {site : VersionSite} {front back : Text}
    (hbefore : site.before = front ++ [doubleQuote]) (hafter : site.after = doubleQuote :: back)
    (u : Text) : site.fill u = front ++ doubleQuote :: (u ++ doubleQuote :: back) := by
  rw [VersionSite.fill, hbefore, hafter]
  simp only [List.append_assoc, List.cons_append, List.nil_append]

section Found

variable {content : Text} {site : VersionSite} (h : findVersion? content = some site)
include h

/-- The declared version put in its own place gives the manifest. -/
theorem fill_version : site.fill site.version = content := by
  obtain ⟨d, -, rfl, rfl⟩ := findVersion?_eq_some_iff.1 h
  exact d.fill_site d.version

theorem isVersionText_version : IsVersionText site.version := by
  obtain ⟨d, hd, -, rfl⟩ := findVersion?_eq_some_iff.1 h
  exact hd.version_form

/-- A version stands between quotes. -/
theorem exists_quotes :
    ∃ front back, site.before = front ++ [doubleQuote] ∧ site.after = doubleQuote :: back := by
  obtain ⟨d, hd, -, rfl⟩ := findVersion?_eq_some_iff.1 h
  obtain ⟨key, hlead, -⟩ := hd.lead_form.exists_key
  obtain ⟨rest, htail⟩ := hd.tail_form
  refine ⟨d.preamble ++ d.header ++ d.skipped ++ key, rest ++ d.beyond, ?_, ?_⟩
  · simp only [Declaration.site, hlead, List.append_assoc]
  · simp only [Declaration.site, htail, List.cons_append]

/-- What is put in the place of the version is found there. -/
theorem findVersion?_fill {w : Text} (hw : IsVersionText w) :
    findVersion? (site.fill w) = some { site with version := w } := by
  obtain ⟨d, hd, -, rfl⟩ := findVersion?_eq_some_iff.1 h
  rw [findVersion?_eq_some_iff]
  exact ⟨d.withVersion w, hd.withVersion hw, (d.fill_site w).symm, rfl⟩

theorem replaceVersion?_eq_fill (w : Text) : replaceVersion? content w = some (site.fill w) := by
  rw [replaceVersion?, h, Option.map_some]

/-- Of two replacements the second one counts. -/
theorem replaceVersion?_fill {w : Text} (hw : IsVersionText w) (u : Text) :
    replaceVersion? (site.fill w) u = some (site.fill u) := by
  rw [replaceVersion?, findVersion?_fill h hw]
  rfl

theorem take_start : content.take site.start = site.before := by
  rw [← fill_version h, VersionSite.fill, VersionSite.start, List.append_assoc, List.take_left]

theorem take_stop : content.take site.stop = site.before ++ site.version := by
  have hstop : site.stop = (site.before ++ site.version).length := by
    rw [VersionSite.stop, List.length_append]
  rw [← fill_version h, VersionSite.fill, hstop, List.take_left]

theorem drop_stop : content.drop site.stop = site.after := by
  have hstop : site.stop = (site.before ++ site.version).length := by
    rw [VersionSite.stop, List.length_append]
  rw [← fill_version h, VersionSite.fill, hstop, List.drop_left]

end Found

theorem replaceVersion?_eq_none_iff {content w : Text} :
    replaceVersion? content w = none ↔ findVersion? content = none := by
  rw [replaceVersion?, Option.map_eq_none_iff]

/-- **Finding and replacing the version are a lawful pair.**  A replacement fails exactly where
nothing is found.  Where the version `[start, stop)` is found, replacing it by itself changes nothing;
any replacement keeps all bytes outside; what was put in is found again, and then in the same place,
exactly if it has no double quote and no line feed; and a second replacement overrides such a
first one. -/
theorem findVersion?_replaceVersion?_lawful (content : Text) :
    (∀ w, replaceVersion? content w = none ↔ findVersion? content = none)
    ∧ ∀ site, findVersion? content = some site →
      (content.take site.stop).drop site.start = site.version
      ∧ replaceVersion? content site.version = some content
      ∧ ∀ w, ∃ updated, updated = content.take site.start ++ w ++ content.drop site.stop
        ∧ replaceVersion? content w = some updated
        ∧ ((∃ found, findVersion? updated = some found ∧ found.version = w)
            ↔ doubleQuote ∉ w ∧ lineFeed ∉ w)
        ∧ (∀ found, findVersion? updated = some found → found.version = w →
            found.start = site.start ∧ found.stop = site.start + w.length)
        ∧ (doubleQuote ∉ w ∧ lineFeed ∉ w →
            ∀ u, replaceVersion? updated u = replaceVersion? content u) := by
  refine ⟨fun w => replaceVersion?_eq_none_iff, fun site h => ?_⟩
  refine ⟨?_, ?_, fun w => ⟨site.fill w, ?_, replaceVersion?_eq_fill h w, ?_, ?_, ?_⟩⟩
  · rw [take_stop h, VersionSite.start, List.drop_left]
  · rw [replaceVersion?_eq_fill h, fill_version h]
  · rw [take_start h, drop_stop h, VersionSite.fill]
  · rw [← isVersionText_iff]
    constructor
    · rintro ⟨found, hfound, rfl⟩
      exact isVersionText_version hfound
    · intro hw
      exact ⟨_, findVersion?_fill h hw, rfl⟩
  · rintro found hfound rfl
    have hrefound := findVersion?_fill h (isVersionText_version hfound)
    rw [hfound] at hrefound
    rw [Option.some.inj hrefound]
    exact ⟨rfl, rfl⟩
  · intro hw u
    rw [replaceVersion?_fill h (isVersionText_iff.2 hw), replaceVersion?_eq_fill h]

/-- A version on the header's own line, in a manifest with a carriage return and another table. -/
theorem lawful_on_header_line :
    ∃ site found, findVersion? (ascii "[package] version = \"1.2\"\r\n[x]") = some site
      ∧ findVersion? (ascii "[package] version = \"30\"\r\n[x]") = some found
      ∧ found.start = site.start ∧ found.stop = site.start + 2
      ∧ ∀ u, replaceVersion? (ascii "[package] version = \"30\"\r\n[x]") u
          = replaceVersion? (ascii "[package] version = \"1.2\"\r\n[x]") u := by
  have hsite : findVersion? (ascii "[package] version = \"1.2\"\r\n[x]")
      = some ⟨ascii "[package] version = \"", ascii "1.2", ascii "\"\r\n[x]"⟩ := by decide
  have hfree : doubleQuote ∉ ascii "30" ∧ lineFeed ∉ ascii "30" := by decide
  obtain ⟨updated, hupdated, -, hiff, hplace, hputput⟩ :=
    ((findVersion?_replaceVersion?_lawful _).2 _ hsite).2.2 (ascii "30")
  have htext : updated = ascii "[package] version = \"30\"\r\n[x]" := by rw [hupdated]; decide
  obtain ⟨found, hfound, hversion⟩ := hiff.2 hfree
  obtain ⟨hstart, hstop⟩ := hplace found hfound hversion
  rw [htext] at hfound hputput
  exact ⟨_, found, hsite, hfound, hstart, hstop, hputput hfree⟩

end CrateBump
