/-
# What the sources tell about a setting

Seen from outside there are eight settings.  A setting has a name in tables and in files, a
variable, and mostly a flag, and each of the five sources either tells a value for it or nothing.
As long as no source gives one of the two groups a value that is no table, no source gets in the way
of another: the value of a setting is that of the first source that tells one, whatever they tell
about other settings.

Main statement: conversion succeeds with exactly the settings that are resolved in this way
(`decode_eq_ok_iff`).
-/
import CrateBump.Config.Load

namespace CrateBump.Config

/-! ## The settings -/

/-- A setting of an invocation. -/
inductive Setting where
  | root
  | manifest
  | logLevel
  | logFormat
  | yes
  | dryRun
  | commit
  | tag
  deriving DecidableEq, Repr

namespace Setting

/-- The name of a setting in explicit values, files and defaults. -/
def key : Setting → Key
  | root => .top "root"
  | manifest => .top "manifest"
  | logLevel => .inside "log" "level"
  | logFormat => .inside "log" "format"
  | yes => .top "yes"
  | dryRun => .top "dry_run"
  | commit => .inside "git" "commit"
  | tag => .inside "git" "tag"

/-- The environment variable of a setting. -/
def envVariable : Setting → Text
  | root => ascii "CARGOBUMP_ROOT"
  | manifest => ascii "CARGOBUMP_MANIFEST"
  | logLevel => ascii "CARGOBUMP_LOG_LEVEL"
  | logFormat => ascii "CARGOBUMP_LOG_FORMAT"
  | yes => ascii "CARGOBUMP_YES"
  | dryRun => ascii "CARGOBUMP_DRY_RUN"
  | commit => ascii "CARGOBUMP_GIT_COMMIT"
  | tag => ascii "CARGOBUMP_GIT_TAG"

/-- Whether a setting is a truth value; the others are texts. -/
def isSwitch : Setting → Bool
  | root | manifest | logLevel | logFormat => false
  | yes | dryRun | commit | tag => true

/-- A value as the content of a setting. -/
def read (x : Setting) (v : Value) : Except Problem (Text ⊕ Bool) :=
  if x.isSwitch then (asBoolean v).map .inr else (asText v).map .inl

theorem read_of_text {x : Setting} (h : x.isSwitch = false) (v : Value) :
    x.read v = (asText v).map .inl := by
  rw [read, if_neg (by simp [h])]

theorem read_of_switch {x : Setting} (h : x.isSwitch = true) (v : Value) :
    x.read v = (asBoolean v).map .inr := by
  rw [read, if_pos h]

end Setting

/-- The content of a setting. -/
def contentOf (c : Settings) : Setting → Text ⊕ Bool
  | .root => .inl c.root
  | .manifest => .inl c.manifest
  | .logLevel => .inl c.logLevel
  | .logFormat => .inl c.logFormat
  | .yes => .inr c.yes
  | .dryRun => .inr c.dryRun
  | .commit => .inr c.commit
  | .tag => .inr c.tag

/-- The names of the groups. -/
def groups : List Text := ["log", "git"].map ascii

/-- The variables of the groups as wholes. -/
def groupVariables : List Text := ["CARGOBUMP_LOG", "CARGOBUMP_GIT"].map ascii

/-! ## The sources -/

/-- Where a setting may come from. -/
inductive Source where
  | given
  | flags
  | environment
  | file
  | defaults
  deriving DecidableEq, Repr

/-- The sources, strongest first. -/
def Source.all : List Source := [.given, .flags, .environment, .file, .defaults]

/-- A value, unless it is null, which tells nothing. -/
def known (v? : Option Value) : Option Value := v?.filter (!·.isNull)

/-- The entry of a table under a key, a group being a table inside the table. -/
def tableValue? (v : Value) (k : Key) : Option Value :=
  match k.group? with
  | none => valueAt? v k.name
  | some g => (valueAt? v g).bind (valueAt? · k.name)

namespace Sources

/-- What a source tells about a setting.  An empty variable tells nothing, and in a file a setting
may also be written with its group in one name. -/
def tells (s : Sources) (x : Setting) : Source → Option Value
  | .given => known (tableValue? s.given x.key)
  | .flags => known (s.flags.lookup x.key.full)
  | .environment =>
    if s.env.get x.envVariable = [] then none else some (.text (s.env.get x.envVariable))
  | .file => (known (valueAt? s.file x.key.full)).or (known (tableValue? s.file x.key))
  | .defaults => known (tableValue? s.defaults x.key)

/-- The value of a setting in the first source that tells one. -/
def first? (s : Sources) (x : Setting) : Option Value := Source.all.findSome? (s.tells x)

/-- Sources of which no file was read yet, with the defaults of the program. -/
structure Initial (s : Sources) : Prop where
  file : s.file = .empty
  defaults : s.defaults = Config.defaults

/-- The sources with what a file tells. -/
def withFile (s : Sources) (table : Value) : Sources := { s with file := table }

/-- No source gives a group as a whole a value that is no table; null is no table either. -/
structure GroupsAreTables (s : Sources) : Prop where
  given : ∀ g ∈ groups, ∀ v ∈ valueAt? s.given g, v.isTable = true
  environment : ∀ name ∈ groupVariables, s.env.get name = []
  file : ∀ g ∈ groups, ∀ v ∈ valueAt? s.file g, v.isTable = true

/-- Every setting is the one of the first source that tells a value for it. -/
def Resolves (s : Sources) (c : Settings) : Prop :=
  ∀ x, ∃ v, s.first? x = some v ∧ Setting.read x v = .ok (contentOf c x)

/-- What is resolved for a setting depends on nothing but what the sources tell about it. -/
theorem contentOf_eq_of_resolves {s s' : Sources} {c c' : Settings} {x : Setting}
    (h : s.Resolves c) (h' : s'.Resolves c') (htells : ∀ src, s'.tells x src = s.tells x src) :
    contentOf c' x = contentOf c x := by
  obtain ⟨v, hfirst, hread⟩ := h x
  obtain ⟨v', hfirst', hread'⟩ := h' x
  have hsame : s'.first? x = s.first? x := by
    unfold first?
    congr 1
    funext src
    exact htells src
  rw [hfirst', hfirst] at hsame
  obtain rfl : v' = v := Option.some.inj hsame
  rw [hread'] at hread
  exact Except.ok.inj hread

end Sources

/-! ## Findings -/

/-- The value that was found, if one was. -/
def Finding.value? : Finding → Option Value
  | .value v => some v
  | .absent => none
  | .blocked => none

theorem Finding.value?_ofOption (v? : Option Value) : (Finding.ofOption v?).value? = known v? := by
  cases v? with
  | none => rfl
  | some v => cases v <;> rfl

theorem Finding.ofOption_ne_blocked (v? : Option Value) : Finding.ofOption v? ≠ .blocked := by
  cases v? with
  | none => exact Finding.noConfusion
  | some v => cases v <;> exact Finding.noConfusion

/-- Only tables have entries. -/
theorem valueAt?_of_not_table {v : Value} (h : v.isTable = false) (name : Text) :
    valueAt? v name = none := by
  cases v with
  | table es => cases h
  | _ => rfl

/-- A table tells what stands under the key, level by level. -/
theorem value?_inTable (v : Value) (k : Key) : (inTable v k).value? = known (tableValue? v k) := by
  unfold inTable tableValue?
  cases k.group? with
  | none => exact Finding.value?_ofOption _
  | some g =>
    cases hgroup : valueAt? v g with
    | none => simp [hgroup, Finding.value?, known]
    | some found =>
      cases found with
      | table es => simpa [hgroup] using Finding.value?_ofOption _
      | _ =>
        simp only [hgroup, Option.bind_some]
        rw [valueAt?_of_not_table rfl]
        rfl

/-- A file tells what stands under the whole key, dot included, before what stands in the group. -/
theorem value?_inFile (v : Value) (k : Key) :
    (inFile v k).value? = (known (valueAt? v k.full)).or (known (tableValue? v k)) := by
  have hfull := Finding.value?_ofOption (valueAt? v k.full)
  unfold inFile
  split
  next found hfound =>
    rw [hfound] at hfull
    rw [← hfull]
    rfl
  next hnone =>
    have hnothing : known (valueAt? v k.full) = none := by
      rw [← hfull]
      cases hcase : Finding.ofOption (valueAt? v k.full) with
      | value found => exact absurd hcase (hnone found)
      | absent => rfl
      | blocked => rfl
    rw [hnothing, Option.none_or, value?_inTable]

/-- A table in the place of the group, or nothing there, blocks nothing. -/
theorem inTable_ne_blocked {v : Value} {k : Key}
    (h : ∀ g ∈ k.group?, ∀ found ∈ valueAt? v g, found.isTable = true) :
    inTable v k ≠ .blocked := by
  unfold inTable
  cases hk : k.group? with
  | none => exact Finding.ofOption_ne_blocked _
  | some g =>
    cases hgroup : valueAt? v g with
    | none => simp [hgroup]
    | some found =>
      have htable := h g hk found hgroup
      cases found with
      | table es => simpa [hgroup] using Finding.ofOption_ne_blocked _
      | _ => cases htable

/-- No file whose groups are tables blocks a key. -/
theorem inFile_ne_blocked {v : Value} {k : Key}
    (h : ∀ g ∈ k.group?, ∀ found ∈ valueAt? v g, found.isTable = true) :
    inFile v k ≠ .blocked := by
  unfold inFile
  split
  · exact Finding.noConfusion
  · exact inTable_ne_blocked h

/-- Without a block, the first value among findings is the first that was found. -/
theorem Sources.firstValue_of_unblocked {fs : List Finding} (h : ∀ f ∈ fs, f ≠ .blocked) :
    firstValue fs = fs.findSome? Finding.value? := by
  induction fs with
  | nil => rfl
  | cons f fs ih =>
    have hrest := ih fun g hg => h g (List.mem_cons_of_mem _ hg)
    cases f with
    | value v => rfl
    | absent => exact hrest
    | blocked => exact absurd rfl (h _ List.mem_cons_self)

namespace Setting

theorem variableName_key (x : Setting) : variableName x.key.full = x.envVariable := by
  cases x <;> decide

/-- The group of a setting, with its variable. -/
theorem group_mem {x : Setting} {g : Text} (h : x.key.group? = some g) :
    g ∈ groups ∧ variableName g ∈ groupVariables := by
  have hall : ∀ g ∈ x.key.group?, g ∈ groups ∧ variableName g ∈ groupVariables := by
    cases x <;> decide
  exact hall g h

end Setting

namespace Sources

/-- What a source tells about a key, with a block by its group. -/
def finding (s : Sources) (k : Key) : Source → Finding
  | .given => inTable s.given k
  | .flags => s.inFlags k
  | .environment => inEnvironment s.env k
  | .file => inFile s.file k
  | .defaults => inTable s.defaults k

theorem findings_eq (s : Sources) (k : Key) : s.findings k = Source.all.map (s.finding k) := rfl

/-- What a search finds in a source is what the source tells about the setting. -/
theorem value?_finding (s : Sources) (x : Setting) (src : Source) :
    (s.finding x.key src).value? = s.tells x src := by
  cases src with
  | given => exact value?_inTable _ _
  | flags => exact Finding.value?_ofOption _
  | environment =>
    unfold finding tells inEnvironment
    rw [x.variableName_key]
    cases hown : s.env.get x.envVariable with
    | cons b rest => rfl
    | nil =>
      dsimp only [List.isEmpty_nil]
      cases x.key.group? with
      | none => rfl
      | some g =>
        by_cases hwhole : (s.env.get (variableName g)).isEmpty <;> simp [hwhole, Finding.value?]
  | file => exact value?_inFile _ _
  | defaults => exact value?_inTable _ _

/-- The defaults give groups as tables. -/
theorem defaults_groups {g : Text} (hg : g ∈ groups) :
    ∀ v ∈ valueAt? Config.defaults g, v.isTable = true := by
  have hall : ∀ g ∈ groups, ∀ v ∈ valueAt? Config.defaults g, v.isTable = true := by decide
  exact hall g hg

/-- No stronger source gets in the way of a key by giving its group a value that is no table. -/
structure Unblocked (s : Sources) (k : Key) : Prop where
  given : ∀ g ∈ k.group?, ∀ v ∈ valueAt? s.given g, v.isTable = true
  environment : ∀ g ∈ k.group?, s.env.get (variableName g) = []
  file : ∀ g ∈ k.group?, ∀ v ∈ valueAt? s.file g, v.isTable = true

/-- Where every group is a table no source blocks a setting. -/
theorem GroupsAreTables.unblocked {s : Sources} (h : s.GroupsAreTables) (x : Setting) :
    s.Unblocked x.key where
  given := fun _ hg => h.given _ (Setting.group_mem hg).1
  environment := fun _ hg => h.environment _ (Setting.group_mem hg).2
  file := fun _ hg => h.file _ (Setting.group_mem hg).1

/-- At the top there is no group to block anything. -/
theorem unblocked_top (s : Sources) (name : String) : s.Unblocked (.top name) where
  given := fun _ hg => absurd hg (Option.not_mem_none _)
  environment := fun _ hg => absurd hg (Option.not_mem_none _)
  file := fun _ hg => absurd hg (Option.not_mem_none _)

section Find

variable {s : Sources} (hdefaults : s.defaults = Config.defaults) {x : Setting}
  (hunblocked : s.Unblocked x.key)
include hdefaults hunblocked

/-- Nothing that is found in an unblocked source blocks the ones behind it. -/
theorem finding_ne_blocked (src : Source) : s.finding x.key src ≠ .blocked := by
  cases src with
  | given => exact inTable_ne_blocked hunblocked.given
  | flags => exact Finding.ofOption_ne_blocked _
  | environment =>
    unfold finding inEnvironment
    dsimp only
    split
    · exact Finding.noConfusion
    · cases hk : x.key.group? with
      | none => exact Finding.noConfusion
      | some g => simp [hunblocked.environment g hk]
  | file => exact inFile_ne_blocked hunblocked.file
  | defaults =>
    apply inTable_ne_blocked
    intro g hg
    rw [hdefaults]
    exact defaults_groups (Setting.group_mem hg).1

/-- A search that nothing blocks ends at the first source that tells something. -/
theorem find_eq_first? : s.find x.key = s.first? x := by
  have hall : ∀ f ∈ s.findings x.key, f ≠ .blocked := by
    rw [findings_eq]
    intro f hf
    obtain ⟨src, -, rfl⟩ := List.mem_map.1 hf
    exact finding_ne_blocked hdefaults hunblocked src
  have hvalue : Finding.value? ∘ s.finding x.key = s.tells x := by
    funext src
    exact value?_finding s x src
  rw [find, firstValue_of_unblocked hall, findings_eq, List.findSome?_map, hvalue, first?]

end Find

theorem blocksGroup_eq_false {v : Value} {g : Text}
    (h : ∀ found ∈ valueAt? v g, found.isTable = true) : blocksGroup v g = false := by
  unfold blocksGroup
  cases hgroup : valueAt? v g with
  | none => rfl
  | some found => simp [h found hgroup]

/-- A group that only has tables is no key as a whole. -/
theorem groupIsKey_eq_false {s : Sources} (hgroups : s.GroupsAreTables) {g : Text}
    (hg : g ∈ groups) : s.groupIsKey g = false := by
  rw [groupIsKey, blocksGroup_eq_false (hgroups.given g hg),
    blocksGroup_eq_false (hgroups.file g hg)]
  rfl

theorem isKey_of_groupsAreTables {s : Sources} (hgroups : s.GroupsAreTables) {g : Text}
    (hg : g ∈ groups) (name : Text) : s.isKey g name = true := by
  simp [isKey, blocksGroup_eq_false (hgroups.given g hg), blocksGroup_eq_false (hgroups.file g hg)]

end Sources

/-! ## Conversion -/

section Conversion

variable {s : Sources} (hdefaults : s.defaults = Config.defaults) (hgroups : s.GroupsAreTables)

include hgroups in
theorem groupValue?_eq_none {g : Text} (hg : g ∈ groups) : groupValue? s g = none := by
  rw [groupValue?, Sources.groupIsKey_eq_false hgroups hg]
  rfl

include hgroups in
/-- A group that is a table adds no failure of its own. -/
theorem groupFailures_eq {g : String} (hg : ascii g ∈ groups) (errors : List DecodeError) :
    groupFailures s g errors = errors := by
  rw [groupFailures, groupErrors, groupValue?_eq_none hgroups hg]

include hdefaults hgroups in
/-- The value that is converted is the one of the first source. -/
theorem valueOf_eq_first? (x : Setting) : valueOf s x.key = s.first? x := by
  rw [← Sources.find_eq_first? hdefaults (hgroups.unblocked x), valueOf]
  cases hk : x.key.group? with
  | none => rfl
  | some g =>
    have hg : g ∈ groups := (Setting.group_mem hk).1
    dsimp only
    rw [Sources.isKey_of_groupsAreTables hgroups hg, if_pos rfl, groupValue?_eq_none hgroups hg]
    cases s.find x.key with
    | none => rfl
    | some v => rfl

include hdefaults in
/-- Every setting has a default, so some source tells a value. -/
theorem exists_first? (x : Setting) : ∃ v, s.first? x = some v := by
  have hdefault : (known (tableValue? Config.defaults x.key)).isSome := by
    cases x <;> decide
  have hsome : (s.tells x .defaults).isSome := by
    rw [Sources.tells, hdefaults]
    exact hdefault
  have hfirst : (s.first? x).isSome := by
    rw [Sources.first?, List.findSome?_isSome_iff]
    exact ⟨.defaults, by decide, hsome⟩
  exact Option.isSome_iff_exists.1 hfirst

/-- A conversion reports nothing exactly if the value converts. -/
theorem convert_eq_iff {α : Type} {convertible : Value → Except Problem α} {zero a : α} {k : Key}
    {v : Value} : convert convertible zero k (some v) = (a, []) ↔ convertible v = .ok a := by
  unfold convert
  cases hread : convertible v with
  | ok b => simp [hread]
  | error e => simp [hread]

include hdefaults hgroups in
/-- A text setting is decoded without a failure exactly if the first value for it is read as this
text. -/
theorem textOf_eq_iff {x : Setting} (hx : x.isSwitch = false) {t : Text} :
    textOf s x.key = (t, []) ↔ ∃ v, s.first? x = some v ∧ x.read v = .ok (.inl t) := by
  obtain ⟨v, hv⟩ := exists_first? hdefaults x
  rw [textOf, valueOf_eq_first? hdefaults hgroups, hv, convert_eq_iff]
  simp only [Option.some.injEq, exists_eq_left', Setting.read_of_text hx]
  cases asText v <;> simp [Except.map]

include hdefaults hgroups in
/-- A truth setting is decoded without a failure exactly if the first value for it is read as this
truth value. -/
theorem booleanOf_eq_iff {x : Setting} (hx : x.isSwitch = true) {b : Bool} :
    booleanOf s x.key = (b, []) ↔ ∃ v, s.first? x = some v ∧ x.read v = .ok (.inr b) := by
  obtain ⟨v, hv⟩ := exists_first? hdefaults x
  rw [booleanOf, valueOf_eq_first? hdefaults hgroups, hv, convert_eq_iff]
  simp only [Option.some.injEq, exists_eq_left', Setting.read_of_switch hx]
  cases asBoolean v <;> simp [Except.map]

include hgroups in
/-- The conversion of all settings succeeds if that of each one does. -/
theorem decode_eq_ok_iff_each {c : Settings} : decode s = .ok c ↔
    (textOf s (.top "root") = (c.root, []) ∧ textOf s (.top "manifest") = (c.manifest, [])
      ∧ textOf s (.inside "log" "level") = (c.logLevel, [])
      ∧ textOf s (.inside "log" "format") = (c.logFormat, [])
      ∧ booleanOf s (.top "yes") = (c.yes, []) ∧ booleanOf s (.top "dry_run") = (c.dryRun, [])
      ∧ booleanOf s (.inside "git" "commit") = (c.commit, [])
      ∧ booleanOf s (.inside "git" "tag") = (c.tag, [])) := by
  have hlog := groupFailures_eq hgroups (g := "log") (by decide)
  have hgit := groupFailures_eq hgroups (g := "git") (by decide)
  unfold decode
  dsimp only
  rw [hlog, hgit]
  cases c
  simp only [Prod.ext_iff, List.isEmpty_iff, List.append_eq_nil_iff]
  split
  next herrors => simp [herrors]
  next herrors =>
    constructor
    · intro h
      cases h
    · intro h
      exact absurd (by simp [h]) herrors

include hdefaults hgroups in
/-- The sources convert to settings exactly if each of these is the one of the first source that
tells a value for it. -/
theorem decode_eq_ok_iff {c : Settings} : decode s = .ok c ↔ s.Resolves c := by
  rw [decode_eq_ok_iff_each hgroups]
  constructor
  · rintro ⟨hroot, hmanifest, hlevel, hformat, hyes, hdry, hcommit, htag⟩ x
    cases x with
    | root => exact (textOf_eq_iff hdefaults hgroups rfl).1 hroot
    | manifest => exact (textOf_eq_iff hdefaults hgroups rfl).1 hmanifest
    | logLevel => exact (textOf_eq_iff hdefaults hgroups rfl).1 hlevel
    | logFormat => exact (textOf_eq_iff hdefaults hgroups rfl).1 hformat
    | yes => exact (booleanOf_eq_iff hdefaults hgroups rfl).1 hyes
    | dryRun => exact (booleanOf_eq_iff hdefaults hgroups rfl).1 hdry
    | commit => exact (booleanOf_eq_iff hdefaults hgroups rfl).1 hcommit
    | tag => exact (booleanOf_eq_iff hdefaults hgroups rfl).1 htag
  · intro h
    exact ⟨(textOf_eq_iff hdefaults hgroups rfl).2 (h .root),
      (textOf_eq_iff hdefaults hgroups rfl).2 (h .manifest),
      (textOf_eq_iff hdefaults hgroups rfl).2 (h .logLevel),
      (textOf_eq_iff hdefaults hgroups rfl).2 (h .logFormat),
      (booleanOf_eq_iff hdefaults hgroups rfl).2 (h .yes),
      (booleanOf_eq_iff hdefaults hgroups rfl).2 (h .dryRun),
      (booleanOf_eq_iff hdefaults hgroups rfl).2 (h .commit),
      (booleanOf_eq_iff hdefaults hgroups rfl).2 (h .tag)⟩

include hdefaults in
/-- Where the values of all first sources convert, there are settings to resolve to. -/
theorem exists_resolves
    (hconvert : ∀ x v, s.first? x = some v → ∃ content, Setting.read x v = .ok content) :
    ∃ c, s.Resolves c := by
  have htext : ∀ x, Setting.isSwitch x = false →
      ∃ t v, s.first? x = some v ∧ Setting.read x v = .ok (.inl t) := by
    intro x hx
    obtain ⟨v, hv⟩ := exists_first? hdefaults x
    obtain ⟨content, hread⟩ := hconvert x v hv
    rw [Setting.read_of_text hx] at hread
    cases ht : asText v with
    | error e =>
      rw [ht] at hread
      cases hread
    | ok t => exact ⟨t, v, hv, by rw [Setting.read_of_text hx, ht]; rfl⟩
  have hboolean : ∀ x, Setting.isSwitch x = true →
      ∃ b v, s.first? x = some v ∧ Setting.read x v = .ok (.inr b) := by
    intro x hx
    obtain ⟨v, hv⟩ := exists_first? hdefaults x
    obtain ⟨content, hread⟩ := hconvert x v hv
    rw [Setting.read_of_switch hx] at hread
    cases hb : asBoolean v with
    | error e =>
      rw [hb] at hread
      cases hread
    | ok b => exact ⟨b, v, hv, by rw [Setting.read_of_switch hx, hb]; rfl⟩
  obtain ⟨root, hroot⟩ := htext .root rfl
  obtain ⟨manifest, hmanifest⟩ := htext .manifest rfl
  obtain ⟨level, hlevel⟩ := htext .logLevel rfl
  obtain ⟨format, hformat⟩ := htext .logFormat rfl
  obtain ⟨yes, hyes⟩ := hboolean .yes rfl
  obtain ⟨dryRun, hdryRun⟩ := hboolean .dryRun rfl
  obtain ⟨commit, hcommit⟩ := hboolean .commit rfl
  obtain ⟨tag, htag⟩ := hboolean .tag rfl
  refine ⟨⟨root, manifest, level, format, yes, dryRun, commit, tag⟩, fun x => ?_⟩
  cases x with
  | root => exact hroot
  | manifest => exact hmanifest
  | logLevel => exact hlevel
  | logFormat => exact hformat
  | yes => exact hyes
  | dryRun => exact hdryRun
  | commit => exact hcommit
  | tag => exact htag

end Conversion

end CrateBump.Config
