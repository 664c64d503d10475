/-
# Declarations of a version

The texts in which a version is found, said without any search.  Each form that the search looks for
is described by its parts, a section by where it ends, and a manifest that declares a version by the
seven parts it consists of.

Main statement: a version is found exactly in the texts made up of such parts, and at the place they
give it (`findVersion?_eq_some_iff`).
-/
import CrateBump.Proofs.LineSearch
import Mathlib.Data.List.TakeWhile

namespace CrateBump

/-! ## Blanks at the front -/

/-- Only blanks. -/
def AllBlank (t : Text) : Prop := ∀ b ∈ t, Text.isBlank b = true

theorem allBlank_leadBlanks (t : Text) : AllBlank (leadBlanks t) := fun _ hb =>
  List.mem_takeWhile_imp hb

/-- A text is its leading blanks and what is left without them. -/
theorem leadBlanks_append_skipBlanks (t : Text) : leadBlanks t ++ Text.skipBlanks t = t :=
  List.takeWhile_append_dropWhile

theorem AllBlank.lineFeed_not_mem {a : Text} (h : AllBlank a) : lineFeed ∉ a := fun hmem =>
  absurd (h lineFeed hmem) (by decide)

/-- Blanks in front of a byte that is none are exactly what is skipped. -/
theorem AllBlank.skipBlanks_append {a : Text} (h : AllBlank a) {b : UInt8}
    (hb : Text.isBlank b = false) (t : Text) : Text.skipBlanks (a ++ b :: t) = b :: t := by
  rw [Text.skipBlanks, List.dropWhile_append_of_pos h, List.dropWhile_cons_of_neg (by simp [hb])]

/-- The leading blanks end at the first byte that is none. -/
theorem AllBlank.leadBlanks_append {a : Text} (h : AllBlank a) {b : UInt8}
    (hb : Text.isBlank b = false) (t : Text) : leadBlanks (a ++ b :: t) = a := by
  rw [leadBlanks, List.takeWhile_append_of_pos h, List.takeWhile_cons_of_neg (by simp [hb]),
    List.append_nil]

/-! ## The package header -/

/-- The package header is found behind any blanks. -/
theorem packageHeader?_append {a : Text} (h : AllBlank a) (rest : Text) :
    packageHeader? (a ++ packageWord ++ rest) = some (a ++ packageWord, rest) := by
  have hword : packageWord = 91 :: ascii "package]" := by decide
  have hskip : Text.skipBlanks (a ++ packageWord ++ rest) = packageWord ++ rest := by
    rw [List.append_assoc, hword]
    exact h.skipBlanks_append (by decide) _
  have hlead : leadBlanks (a ++ packageWord ++ rest) = a := by
    rw [List.append_assoc, hword]
    exact h.leadBlanks_append (by decide) _
  have hdrop : Text.dropLead? packageWord (packageWord ++ rest) = some rest :=
    Text.dropLead?_eq_some_iff.2 rfl
  rw [packageHeader?, hskip, hlead, hdrop]
  rfl

/-- What is found as the package header is the word behind blanks. -/
theorem packageHeader?_eq_some {t header rest : Text}
    (h : packageHeader? t = some (header, rest)) :
    ∃ a, AllBlank a ∧ header = a ++ packageWord ∧ t = header ++ rest := by
  obtain ⟨rest', hdrop, heq⟩ := Option.map_eq_some_iff.1 h
  obtain ⟨rfl, rfl⟩ := Prod.mk.inj heq
  refine ⟨leadBlanks t, allBlank_leadBlanks t, rfl, ?_⟩
  rw [List.append_assoc, ← Text.dropLead?_eq_some_iff.1 hdrop, leadBlanks_append_skipBlanks]

/-- The package header is looked for in one line. -/
theorem oneLine_packageHeader? : OneLine packageHeader? := by
  apply oneLine_of_recognises (p := fun s => ∃ a, AllBlank a ∧ s = a ++ packageWord)
  · rintro s ⟨a, ha, rfl⟩
    have hword : lineFeed ∉ packageWord := by decide
    simp only [List.mem_append, ha.lineFeed_not_mem, hword, or_self, not_false_eq_true]
  · intro t
    rw [Option.ne_none_iff_exists']
    constructor
    · rintro ⟨⟨header, rest⟩, h⟩
      obtain ⟨a, ha, hheader, ht⟩ := packageHeader?_eq_some h
      exact ⟨header, rest, ⟨a, ha, hheader⟩, ht⟩
    · rintro ⟨s, rest, ⟨a, ha, rfl⟩, rfl⟩
      exact ⟨_, packageHeader?_append ha rest⟩

/-! ## Table headers -/

/-- The form of a table header, as a section is searched for its end. -/
def tableLine? (line : Text) : Option Text := if isTableHeader line then some line else none

/-- A line starts a table exactly if its first byte behind blanks is a bracket. -/
theorem tableLine?_ne_none_iff {t : Text} :
    tableLine? t ≠ none ↔ ∃ a rest, AllBlank a ∧ t = a ++ 91 :: rest := by
  have hheader : tableLine? t ≠ none ↔ (Text.skipBlanks t).head? = some 91 := by
    simp [tableLine?, isTableHeader]
  rw [hheader]
  constructor
  · intro h
    obtain ⟨rest, hrest⟩ := List.head?_eq_some_iff.1 h
    refine ⟨leadBlanks t, rest, allBlank_leadBlanks t, ?_⟩
    rw [← hrest, leadBlanks_append_skipBlanks]
  · rintro ⟨a, rest, ha, rfl⟩
    rw [ha.skipBlanks_append (by decide)]
    rfl

/-- The start of a table is looked for in one line. -/
theorem oneLine_tableLine? : OneLine tableLine? := by
  apply oneLine_of_recognises (p := fun s => ∃ a, AllBlank a ∧ s = a ++ [91])
  · rintro s ⟨a, ha, rfl⟩
    have hbracket : lineFeed ∉ [91] := by decide
    simp only [List.mem_append, ha.lineFeed_not_mem, hbracket, or_self, not_false_eq_true]
  · intro t
    rw [tableLine?_ne_none_iff]
    constructor
    · rintro ⟨a, rest, ha, rfl⟩
      exact ⟨a ++ [91], rest, ⟨a, ha, rfl⟩, by simp⟩
    · rintro ⟨s, rest, ⟨a, ha, rfl⟩, rfl⟩
      exact ⟨a, rest, ha, by simp⟩

/-! ## Version assignments -/

/-- A text that can stand between the quotes of a version assignment. -/
def IsVersionText (w : Text) : Prop := ∀ b ∈ w, isVersionByte b = true

instance (w : Text) : Decidable (IsVersionText w) :=
  List.decidableBAll (fun b => isVersionByte b = true) w

theorem isVersionByte_iff {b : UInt8} :
    isVersionByte b = true ↔ b ≠ doubleQuote ∧ b ≠ lineFeed := by
  rw [isVersionByte, Bool.and_eq_true, bne_iff_ne, bne_iff_ne]

/-- A version may hold any byte but a quote and a line feed. -/
theorem isVersionText_iff {w : Text} :
    IsVersionText w ↔ doubleQuote ∉ w ∧ lineFeed ∉ w := by
  constructor
  · intro h
    exact ⟨fun hmem => (isVersionByte_iff.1 (h _ hmem)).1 rfl,
      fun hmem => (isVersionByte_iff.1 (h _ hmem)).2 rfl⟩
  · rintro ⟨hquote, hfeed⟩ b hb
    rw [isVersionByte_iff]
    refine ⟨?_, ?_⟩
    · rintro rfl
      exact hquote hb
    · rintro rfl
      exact hfeed hb

/-- The text of a version assignment up to the opening quote, which it includes. -/
def IsVersionLead (lead : Text) : Prop :=
  ∃ a b c, AllBlank a ∧ AllBlank b ∧ AllBlank c
    ∧ lead = a ++ versionWord ++ b ++ [61] ++ c ++ [doubleQuote]

/-- What stands in front of a version stands in its line. -/
theorem IsVersionLead.lineFeed_not_mem {lead : Text} (h : IsVersionLead lead) :
    lineFeed ∉ lead := by
  obtain ⟨a, b, c, ha, hb, hc, rfl⟩ := h
  have hword : lineFeed ∉ versionWord := by decide
  have hequals : lineFeed ∉ [61] := by decide
  have hquote : lineFeed ∉ [doubleQuote] := by decide
  simp only [List.mem_append, ha.lineFeed_not_mem, hb.lineFeed_not_mem, hc.lineFeed_not_mem, hword,
    hequals, hquote, or_self, not_false_eq_true]

/-- An assignment is read back from its parts. -/
theorem versionAssignment?_append {lead w : Text} (hlead : IsVersionLead lead)
    (hw : IsVersionText w) (rest : Text) :
    versionAssignment? (lead ++ w ++ doubleQuote :: rest) = some (lead, w, doubleQuote :: rest) := by
  obtain ⟨a, b, c, ha, hb, hc, rfl⟩ := hlead
  have hword : versionWord = 118 :: ascii "ersion" := by decide
  -- what is left to read behind the opening quote, the equals sign and the key
  let value := w ++ doubleQuote :: rest
  let afterEquals := c ++ doubleQuote :: value
  let afterKey := b ++ 61 :: afterEquals
  have htext : a ++ versionWord ++ b ++ [61] ++ c ++ [doubleQuote] ++ w ++ doubleQuote :: rest
      = a ++ 118 :: (ascii "ersion" ++ afterKey) := by
    simp only [hword, value, afterEquals, afterKey, List.append_assoc, List.cons_append,
      List.nil_append]
  have hkey : Text.dropLead? versionWord (118 :: (ascii "ersion" ++ afterKey)) = some afterKey := by
    rw [Text.dropLead?_eq_some_iff, hword, List.cons_append]
  have htake : value.takeWhile isVersionByte = w := by
    rw [List.takeWhile_append_of_pos hw, List.takeWhile_cons_of_neg (by decide), List.append_nil]
  have hdrop : value.dropWhile isVersionByte = doubleQuote :: rest := by
    rw [List.dropWhile_append_of_pos hw, List.dropWhile_cons_of_neg (by decide)]
  rw [htext, versionAssignment?, ha.skipBlanks_append (by decide), ha.leadBlanks_append (by decide),
    hkey]
  simp only [afterKey, hb.skipBlanks_append (b := 61) (by decide),
    hb.leadBlanks_append (b := 61) (by decide), afterEquals,
    hc.skipBlanks_append (b := doubleQuote) (by decide),
    hc.leadBlanks_append (b := doubleQuote) (by decide), htake, hdrop]

/-- What is found as an assignment is a lead, a version and the closing quote. -/
theorem versionAssignment?_eq_some {t lead w tail : Text}
    (h : versionAssignment? t = some (lead, w, tail)) :
    IsVersionLead lead ∧ IsVersionText w ∧ (∃ rest, tail = doubleQuote :: rest)
      ∧ t = lead ++ w ++ tail := by
  unfold versionAssignment? at h
  split at h
  · cases h
  next afterKey hkey =>
  split at h
  case h_2 => cases h
  next afterEquals hequals =>
  split at h
  case h_2 => cases h
  next value hvalue =>
  split at h
  case h_2 => cases h
  next rest hrest =>
  obtain ⟨rfl, heq⟩ := Prod.mk.inj (Option.some.inj h)
  obtain ⟨rfl, rfl⟩ := Prod.mk.inj heq
  refine ⟨⟨_, _, _, allBlank_leadBlanks t, allBlank_leadBlanks afterKey,
    allBlank_leadBlanks afterEquals, rfl⟩, fun b hb => List.mem_takeWhile_imp hb, ⟨rest, rfl⟩, ?_⟩
  calc t = leadBlanks t ++ (versionWord ++ afterKey) := by
        rw [← Text.dropLead?_eq_some_iff.1 hkey, leadBlanks_append_skipBlanks]
    _ = leadBlanks t ++ (versionWord ++ (leadBlanks afterKey ++ 61 :: afterEquals)) := by
        rw [← hequals, leadBlanks_append_skipBlanks]
    _ = leadBlanks t ++ (versionWord ++ (leadBlanks afterKey
          ++ 61 :: (leadBlanks afterEquals ++ doubleQuote :: value))) := by
        rw [← hvalue, leadBlanks_append_skipBlanks]
    _ = leadBlanks t ++ (versionWord ++ (leadBlanks afterKey
          ++ 61 :: (leadBlanks afterEquals ++ doubleQuote
            :: (value.takeWhile isVersionByte ++ doubleQuote :: rest)))) := by
        rw [← hrest, List.takeWhile_append_dropWhile]
    _ = _ := by simp only [List.append_assoc, List.cons_append, List.nil_append]

/-- The assignment of a version is looked for in one line. -/
theorem oneLine_versionAssignment? : OneLine versionAssignment? := by
  apply oneLine_of_recognises
    (p := fun s => ∃ lead w, IsVersionLead lead ∧ IsVersionText w ∧ s = lead ++ w ++ [doubleQuote])
  · rintro s ⟨lead, w, hlead, hw, rfl⟩
    have hquote : lineFeed ∉ [doubleQuote] := by decide
    simp only [List.mem_append, hlead.lineFeed_not_mem, (isVersionText_iff.1 hw).2, hquote, or_self,
      not_false_eq_true]
  · intro t
    rw [Option.ne_none_iff_exists']
    constructor
    · rintro ⟨⟨lead, w, tail⟩, h⟩
      obtain ⟨hlead, hw, ⟨rest, rfl⟩, rfl⟩ := versionAssignment?_eq_some h
      exact ⟨_, rest, ⟨lead, w, hlead, hw, rfl⟩, by simp⟩
    · rintro ⟨s, rest, ⟨lead, w, hlead, hw, rfl⟩, rfl⟩
      refine ⟨(lead, w, doubleQuote :: rest), ?_⟩
      rw [List.append_assoc, List.singleton_append, versionAssignment?_append hlead hw]

/-! ## Sections -/

/-- A section ends where the next line starts a table. -/
theorem splitSection_eq (t : Text) :
    splitSection t
      = match searchLines tableLine? true t with
        | some (inside, beyond) => (inside, beyond)
        | none => (t, []) := rfl

/-- A section ends in front of the first line that starts a table, or with the text. -/
theorem splitSection_eq_iff {t inside beyond : Text} :
    splitSection t = (inside, beyond)
      ↔ t = inside ++ beyond ∧ Skips tableLine? true inside beyond
        ∧ (beyond = [] ∨ freshAfter true inside = true ∧ tableLine? beyond ≠ none) := by
  constructor
  · intro h
    rw [splitSection_eq] at h
    split at h
    · next inside' beyond' hsearch =>
      obtain ⟨rfl, rfl⟩ := Prod.mk.inj h
      obtain ⟨rest, ht, hskips, hfresh, hform⟩ := searchLines_eq_some_iff.1 hsearch
      have hrest : rest = beyond' := by
        unfold tableLine? at hform
        split at hform
        · exact Option.some.inj hform
        · cases hform
      rw [hrest] at ht hskips hform
      exact ⟨ht, hskips, Or.inr ⟨hfresh, by rw [hform]; exact Option.some_ne_none _⟩⟩
    · next hsearch =>
      obtain ⟨rfl, rfl⟩ := Prod.mk.inj h
      exact ⟨(List.append_nil t).symm, skips_of_searchLines_eq_none hsearch, Or.inl rfl⟩
  · rintro ⟨rfl, hskips, rfl | ⟨hfresh, hform⟩⟩
    · have hsearch : searchLines tableLine? true (inside ++ []) = none := by
        rw [searchLines_append_of_skips hskips]
        cases freshAfter true inside with
        | true => rfl
        | false => rfl
      rw [splitSection_eq, hsearch, List.append_nil]
    · have hbeyond : tableLine? beyond = some beyond := by
        unfold tableLine? at hform ⊢
        split
        · rfl
        · next hno => simp [hno] at hform
      rw [splitSection_eq, searchLines_eq_some_iff.2 ⟨beyond, rfl, hskips, hfresh, hbeyond⟩]

/-! ## Declarations -/

/-- The parts of a manifest that declares a version. -/
structure Declaration where
  /-- The lines before the package header. -/
  preamble : Text
  header : Text
  /-- The lines of the package section before the one that declares the version. -/
  skipped : Text
  /-- The line that declares the version, up to the opening quote. -/
  lead : Text
  version : Text
  /-- The closing quote and the rest of the package section. -/
  tail : Text
  /-- The tables behind the package section. -/
  beyond : Text

namespace Declaration

/-- The declaring line and the rest of the section. -/
def assignment (d : Declaration) : Text := d.lead ++ d.version ++ d.tail

/-- The package section. -/
def inside (d : Declaration) : Text := d.skipped ++ d.assignment

/-- The manifest. -/
def text (d : Declaration) : Text := d.preamble ++ (d.header ++ (d.inside ++ d.beyond))

/-- The place of the version in the manifest. -/
def site (d : Declaration) : VersionSite :=
  ⟨d.preamble ++ d.header ++ d.skipped ++ d.lead, d.version, d.tail ++ d.beyond⟩

/-- The parts have their forms, and no earlier line has the form of a part. -/
structure WellFormed (d : Declaration) : Prop where
  preamble_skips : Skips packageHeader? true d.preamble (d.header ++ (d.inside ++ d.beyond))
  preamble_fresh : freshAfter true d.preamble = true
  header_form : ∃ a, AllBlank a ∧ d.header = a ++ packageWord
  inside_skips : Skips tableLine? true d.inside d.beyond
  beyond_form : d.beyond = [] ∨ freshAfter true d.inside = true ∧ tableLine? d.beyond ≠ none
  skipped_skips : Skips versionAssignment? true d.skipped d.assignment
  skipped_fresh : freshAfter true d.skipped = true
  lead_form : IsVersionLead d.lead
  version_form : IsVersionText d.version
  tail_form : ∃ rest, d.tail = doubleQuote :: rest

/-- The header is found in front of its section. -/
theorem WellFormed.searchLines_packageHeader? {d : Declaration} (hd : d.WellFormed) :
    searchLines packageHeader? true d.text = some (d.preamble, d.header, d.inside ++ d.beyond) := by
  obtain ⟨a, ha, hheader⟩ := hd.header_form
  refine searchLines_eq_some_iff.2 ⟨_, rfl, hd.preamble_skips, hd.preamble_fresh, ?_⟩
  rw [hheader, packageHeader?_append ha]

end Declaration

/-- A version is found where the manifest declares it, and only there. -/
theorem findVersion?_eq_some_iff {content : Text} {site : VersionSite} :
    findVersion? content = some site
      ↔ ∃ d : Declaration, d.WellFormed ∧ d.text = content ∧ d.site = site := by
  constructor
  · intro h
    unfold findVersion? at h
    split at h
    · cases h
    -- each of the three searches cuts its part off what the one before has left
    next preamble header rest hheader =>
    obtain ⟨body, rfl, hpreamble, hfresh, hbody⟩ := searchLines_eq_some_iff.1 hheader
    obtain ⟨a, ha, hword, rfl⟩ := packageHeader?_eq_some hbody
    obtain ⟨hrest, hinside, hbeyond⟩ := splitSection_eq_iff.1 (Prod.eta (splitSection rest)).symm
    revert hrest hinside hbeyond h
    rcases splitSection rest with ⟨inside, beyond⟩
    intro h hrest hinside hbeyond
    subst hrest
    simp only at h hinside hbeyond
    split at h
    · cases h
    next skipped lead version tail hversion =>
    obtain ⟨assignment, rfl, hskipped, hskippedFresh, hassignment⟩ := searchLines_eq_some_iff.1 hversion
    obtain ⟨hlead, hvalue, htail, rfl⟩ := versionAssignment?_eq_some hassignment
    exact ⟨⟨preamble, header, skipped, lead, version, tail, beyond⟩,
      ⟨hpreamble, hfresh, ⟨a, ha, hword⟩, hinside, hbeyond, hskipped, hskippedFresh, hlead, hvalue,
        htail⟩, rfl, Option.some.inj h⟩
  · rintro ⟨d, hd, rfl, rfl⟩
    obtain ⟨rest, htail⟩ := hd.tail_form
    have hsearch := hd.searchLines_packageHeader?
    have hsection : splitSection (d.inside ++ d.beyond) = (d.inside, d.beyond) :=
      splitSection_eq_iff.2 ⟨rfl, hd.inside_skips, hd.beyond_form⟩
    have hassignment : versionAssignment? d.assignment = some (d.lead, d.version, d.tail) := by
      rw [Declaration.assignment, htail, versionAssignment?_append hd.lead_form hd.version_form]
    have hversion : searchLines versionAssignment? true d.inside
        = some (d.skipped, d.lead, d.version, d.tail) :=
      searchLines_eq_some_iff.2 ⟨_, rfl, hd.skipped_skips, hd.skipped_fresh, hassignment⟩
    simp only [findVersion?, hsearch, hsection, hversion]
    rfl

end CrateBump
