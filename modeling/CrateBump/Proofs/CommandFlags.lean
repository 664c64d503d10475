/-
# Settings from flags

Seven of the eight settings have a flag.  A command line gives a setting exactly if it gives its
flag: the last value that was read for it, and for a switch the truth value that this stands for.

Main statements: all values that are read belong to flags and are values these can take
(`fits_of_readArgs`), so the flags of a command line tell what was given for each setting
(`tells_flags_sourcesOf`).
-/
import CrateBump.Proofs.CommandRuns
import CrateBump.Proofs.SettingSources

namespace CrateBump

/-! ## The flags of the settings -/

namespace Config.Setting

/-- The flag of a setting, if it has one. -/
def flag? : Setting → Option Text
  | root => some (ascii "root")
  | manifest => some (ascii "manifest")
  | logLevel => none
  | logFormat => some (ascii "log-format")
  | yes => some (ascii "yes")
  | dryRun => some (ascii "dry-run")
  | commit => some (ascii "commit")
  | tag => some (ascii "tag")

/-- The value that a word on the command line stands for. -/
def ofWord (x : Setting) (word : Text) : Option Value :=
  if x.isSwitch then (wordBoolean? word).map .boolean else some (.text word)

end Config.Setting

namespace Cli

open Config (Setting wordBoolean?)

/-! ## Values that were read -/

/-- A value belongs to a flag, and a switch has a truth value. -/
def Fits (flags : List Flag) (entry : Text × Text) : Prop :=
  ∃ f ∈ flags, f.name = entry.1 ∧ (f.isSwitch = true → (wordBoolean? entry.2).isSome = true)

section Reading

variable {flags : List Flag} {f : Flag}

theorem fits_of_checkValue {value : Text} {entry : Text × Text} (hf : f ∈ flags)
    (h : checkValue f value = .ok entry) : Fits flags entry := by
  unfold checkValue at h
  split at h
  · cases h
  next hvalue =>
    obtain rfl := Except.ok.inj h
    refine ⟨f, hf, rfl, fun hswitch => ?_⟩
    simpa [hswitch, Option.isSome_iff_ne_none] using hvalue

/-- A switch alone is on. -/
theorem fits_true (hf : f ∈ flags) : Fits flags (f.name, ascii "true") :=
  ⟨f, hf, rfl, fun _ => rfl⟩

theorem fits_text {value : Text} (hf : f ∈ flags) (htext : ¬f.isSwitch = true) :
    Fits flags (f.name, value) :=
  ⟨f, hf, rfl, fun hswitch => absurd hswitch htext⟩

/-- All values of a group of letters fit. -/
theorem fits_of_parseLetters {letters : Text} {values : List (Text × Text)}
    (h : parseLetters flags letters = .ok values) : ∀ entry ∈ values, Fits flags entry := by
  induction letters generalizing values with
  | nil =>
    obtain rfl := Except.ok.inj h
    intro entry hentry
    cases hentry
  | cons letter rest ih =>
    rw [parseLetters] at h
    split at h
    · obtain rfl := Except.ok.inj h
      intro entry hentry
      cases hentry
    split at h
    · cases h
    next f hfind =>
    have hf : f ∈ flags := List.mem_of_find?_eq_some hfind
    split at h
    · cases hchecked : checkValue f (rest.drop 1) with
      | error e =>
        rw [hchecked] at h
        cases h
      | ok entry =>
        rw [hchecked] at h
        obtain rfl := Except.ok.inj h
        intro entry' hentry
        rw [List.mem_singleton.1 hentry]
        exact fits_of_checkValue hf hchecked
    · split at h
      · cases h
      next more hmore =>
      obtain rfl := Except.ok.inj h
      intro entry hentry
      rcases List.mem_cons.1 hentry with rfl | hentry
      · exact fits_true hf
      · exact ih hmore entry hentry

/-- Values in front of values that fit. -/
theorem fits_withValues {more : List (Text × Text)} {parsed : Except FlagError Parsed} {p : Parsed}
    (hmore : ∀ entry ∈ more, Fits flags entry)
    (hparsed : ∀ {q : Parsed}, parsed = .ok q → ∀ entry ∈ q.values, Fits flags entry)
    (h : parsed.map (·.withValues more) = .ok p) : ∀ entry ∈ p.values, Fits flags entry := by
  cases parsed with
  | error e => cases h
  | ok q =>
    obtain rfl := Except.ok.inj h
    intro entry hentry
    rcases List.mem_append.1 hentry with hentry | hentry
    · exact hmore entry hentry
    · exact hparsed rfl entry hentry

theorem fits_single {entry : Text × Text} (h : Fits flags entry) : ∀ e ∈ [entry], Fits flags e := by
  intro e he
  rw [List.mem_singleton.1 he]
  exact h

/-- All values of a command line fit. -/
theorem fits_of_parseArgs {args : List Text} {p : Parsed} (h : parseArgs flags args = .ok p) :
    ∀ entry ∈ p.values, Fits flags entry := by
  fun_induction parseArgs flags args generalizing p with
  | case1 =>
    obtain rfl := Except.ok.inj h
    exact fun entry hentry => absurd hentry List.not_mem_nil
  | case2 rest =>
    obtain rfl := Except.ok.inj h
    exact fun entry hentry => absurd hentry List.not_mem_nil
  | case6 rest body _ _ name f hfind value entry hchecked _ ih =>
    -- a value behind an equals sign
    have hf : f ∈ flags := List.mem_of_find?_eq_some hfind
    exact fits_withValues (fits_single (fits_of_checkValue hf hchecked)) ih h
  | case7 rest body _ _ name f hfind hswitch _ ih =>
    have hf : f ∈ flags := List.mem_of_find?_eq_some hfind
    exact fits_withValues (fits_single (fits_true hf)) ih h
  | case9 body _ _ name f hfind htext value rest _ ih =>
    -- the next argument is the value
    have hf : f ∈ flags := List.mem_of_find?_eq_some hfind
    exact fits_withValues (fits_single (fits_text hf htext)) ih h
  | case11 rest b letters _ _ more hletters ih =>
    exact fits_withValues (fits_of_parseLetters hletters) ih h
  | case12 arg rest _ _ _ ih =>
    cases hrest : parseArgs flags rest with
    | error e =>
      rw [hrest] at h
      cases h
    | ok q =>
      rw [hrest] at h
      have hfits := ih hrest
      obtain rfl := Except.ok.inj h
      exact hfits
  | case3 | case4 | case5 | case8 | case10 => cases h

end Reading

/-- All values that a command reads fit its flags. -/
theorem fits_of_readArgs {c : Command} {args : List Text} {p : Parsed}
    (h : readArgs c args = .ok p) : ∀ entry ∈ p.values, Fits c.flags entry := by
  unfold readArgs at h
  split at h
  · obtain rfl := Except.ok.inj h
    exact fun entry hentry => absurd hentry List.not_mem_nil
  · exact fits_of_parseArgs h

/-! ## What the flags of a command line tell -/

section Given

variable {args : List Text} {c : Command} {p : Parsed}

/-- Of several values the last one counts, and it was read. -/
theorem mem_of_value? {name word : Text} (h : p.value? name = some word) :
    (name, word) ∈ p.values := by
  obtain ⟨entry, hlast, rfl⟩ := Option.map_eq_some_iff.1 h
  have hentry := List.mem_of_getLast? hlast
  rw [List.mem_filter] at hentry
  obtain rfl := eq_of_beq hentry.2
  exact hentry.1

/-- The flag of a setting takes what the setting holds, on every command that has it. -/
theorem isSwitch_of_flag? {x : Setting} {f : Flag} (hf : f ∈ c.flags) (hx : x.flag? = some f.name) :
    f.isSwitch = x.isSwitch := by
  have hall : ∀ f ∈ c.flags, x.flag? = some f.name → f.isSwitch = x.isSwitch := by
    cases c with
    | shell s => cases s <;> cases x <;> decide
    | complete descriptions => cases descriptions <;> cases x <;> decide
    | _ => cases x <;> decide
  exact hall f hf hx

/-- A word that was read for the flag of a setting has a value, and this is what the flag gives. -/
theorem flagValue_of_value? {x : Setting} {name word : Text} (hreads : Reads args c p)
    (hx : x.flag? = some name) (hword : p.value? name = some word) :
    some (flagValue c name word) = x.ofWord word := by
  obtain ⟨rest, -, hread⟩ := hreads
  obtain ⟨f, hf, rfl, hfits⟩ := fits_of_readArgs hread _ (mem_of_value? hword)
  have hfound : ∃ g, c.flags.find? (·.name == f.name) = some g := by
    rw [← Option.isSome_iff_exists, List.find?_isSome]
    exact ⟨f, hf, beq_self_eq_true _⟩
  obtain ⟨g, hg⟩ := hfound
  have hnamed := List.find?_some hg
  have hname : g.name = f.name := eq_of_beq hnamed
  have hswitch : g.isSwitch = x.isSwitch :=
    isSwitch_of_flag? (List.mem_of_find?_eq_some hg) (by rw [hname, hx])
  rw [flagValue, hg, Setting.ofWord]
  dsimp only
  rw [hswitch]
  split
  next hx' =>
    obtain ⟨b, hb⟩ := Option.isSome_iff_exists.1 (hfits ((isSwitch_of_flag? hf hx).trans hx'))
    rw [show wordBoolean? word = some b from hb]
    rfl
  next => rfl

/-- A key that is bound to no name has no value. -/
theorem lookup_filterMap_eq_none {bindings : List (Text × Text)} {given : Text → Option Value}
    {key : Text} (h : key ∉ bindings.map Prod.snd) :
    (bindings.filterMap fun b => (given b.1).map fun v => (b.2, v)).lookup key = none := by
  rw [List.lookup_eq_none_iff]
  intro entry hentry
  obtain ⟨b, hb, hgiven⟩ := List.mem_filterMap.1 hentry
  obtain ⟨v, -, rfl⟩ := Option.map_eq_some_iff.1 hgiven
  rw [bne_iff_ne]
  rintro rfl
  exact h (List.mem_map_of_mem hb)

/-- The value of a key is that of the one name it is bound to. -/
theorem lookup_filterMap {bindings : List (Text × Text)} {given : Text → Option Value}
    (hkeys : (bindings.map Prod.snd).Nodup) {name key : Text} (h : (name, key) ∈ bindings) :
    (bindings.filterMap fun b => (given b.1).map fun v => (b.2, v)).lookup key = given name := by
  induction bindings with
  | nil => cases h
  | cons binding rest ih =>
    rw [List.map_cons, List.nodup_cons] at hkeys
    obtain ⟨hfresh, hrest⟩ := hkeys
    rcases List.mem_cons.1 h with rfl | hmem
    · cases hgiven : given name with
      | none =>
        rw [List.filterMap_cons_none (by simp [hgiven]), lookup_filterMap_eq_none hfresh]
      | some v =>
        rw [List.filterMap_cons_some (by simp [hgiven]; rfl), List.lookup_cons_self]
    · have hne : key ≠ binding.2 := by
        rintro rfl
        exact hfresh (List.mem_map.2 ⟨_, hmem, rfl⟩)
      cases hgiven : given binding.1 with
      | none => rw [List.filterMap_cons_none (by simp [hgiven]), ih hrest hmem]
      | some v =>
        rw [List.filterMap_cons_some (by simp [hgiven]; rfl), List.lookup_cons,
          beq_eq_false_iff_ne.2 hne]
        exact ih hrest hmem

/-- The flag of a setting is bound to the setting's key. -/
theorem mem_boundFlags {x : Setting} {name : Text} (h : x.flag? = some name) :
    (name, x.key.full) ∈ boundFlags := by
  have hall : ∀ name ∈ x.flag?, (name, x.key.full) ∈ boundFlags := by
    cases x <;> decide
  exact hall name h

theorem not_mem_boundFlags {x : Setting} (h : x.flag? = none) :
    x.key.full ∉ boundFlags.map Prod.snd := by
  cases x with
  | logLevel => decide
  | _ => cases h

/-- The value that the command line gives for a flag. -/
def givenByFlag (c : Command) (p : Parsed) (name : Text) : Option Value :=
  (p.value? name).map (flagValue c name)

theorem flags_sourcesOf (env : Environment) (c : Command) (p : Parsed) :
    (sourcesOf env c p).flags
      = boundFlags.filterMap fun b => (givenByFlag c p b.1).map fun v => (b.2, v) := by
  rw [sourcesOf]
  dsimp only
  congr 1
  funext b
  rw [givenByFlag, Option.map_map]
  rfl

theorem known_flagValue (c : Command) (name word : Text) :
    Config.known (some (flagValue c name word)) = some (flagValue c name word) := by
  unfold flagValue
  split
  · split
    · rfl
    · rfl
  · rfl

/-- **A command line gives a setting exactly if it gives its flag.**  The last value for the flag
counts. -/
theorem tells_flags_sourcesOf (env : Environment) (hreads : Reads args c p) (x : Setting) :
    (sourcesOf env c p).tells x .flags
      = x.flag?.bind fun name => (p.value? name).bind x.ofWord := by
  rw [Config.Sources.tells, flags_sourcesOf]
  cases hx : x.flag? with
  | none =>
    rw [lookup_filterMap_eq_none (not_mem_boundFlags hx)]
    rfl
  | some name =>
    rw [lookup_filterMap (by decide) (mem_boundFlags hx), Option.bind_some, givenByFlag]
    cases hword : p.value? name with
    | none => rfl
    | some word =>
      rw [Option.bind_some, ← flagValue_of_value? hreads hx hword]
      exact known_flagValue c name word

end Given

end Cli

end CrateBump
