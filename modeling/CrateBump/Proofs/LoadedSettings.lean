/-
# Loaded settings

Settings are loaded in two steps.  The request and the project directory decide which file is read,
and what it tells joins the other sources; then every setting is the one of the first source that
tells a value for it.  What was resolved is returned if it makes sense, and refused with the reason
if not.

Main statement: each setting comes from the first source that tells a value for it, and the file that
is read is chosen before any file is read (`load_first_source`).  A root with a variable in it is
looked up elsewhere, so that one root can lead to different files (`load_root_expanded`).
-/
import CrateBump.Proofs.CommandFlags
import CrateBump.Proofs.ConfigFileChoice

namespace CrateBump.Config

open Sources

section Loading

variable {readers : Readers} {fs fs' : FileSystem} {file : Text} {s s' : Sources} {table : Value}

/-- Behind the file and the conversion there is the check. -/
theorem load_of_decode {c : Settings} (hread : readConfigFile readers fs file s = .ok table)
    (hdecode : decode (s.withFile table) = .ok c) :
    load readers fs file s = match c.validate with
      | .error e => .error (.invalid e)
      | .ok _ => .ok c := by
  have hsettings : decode { s with file := table } = .ok c := hdecode
  cases hcheck : c.validate <;> simp only [load, hread, hsettings, hcheck]

/-- Settings that are returned were converted. -/
theorem decode_of_load {c : Settings} (hread : readConfigFile readers fs file s = .ok table)
    (hload : load readers fs file s = .ok c) : decode (s.withFile table) = .ok c := by
  rw [load, hread] at hload
  dsimp only at hload
  split at hload
  · cases hload
  next d hdecode =>
  split at hload
  · cases hload
  · rw [← Except.ok.inj hload]
    exact hdecode

theorem load_congr (hread : readConfigFile readers fs' file s = readConfigFile readers fs file s) :
    load readers fs' file s = load readers fs file s := by
  rw [load, load, hread]

/-- Before a file is read, the root is the one of the first other source. -/
theorem find_root (hs : s.Initial) : s.find (.top "root") = s.first? .root := by
  have hunblocked : s.Unblocked (Setting.key .root) := unblocked_top s "root"
  exact find_eq_first? hs.defaults hunblocked

/-- The sources lead from the same root to the same directory. -/
def SameRoot (fs : FileSystem) (s s' : Sources) : Prop :=
  s'.first? .root = s.first? .root
    ∧ (s'.env = s.env
      ∨ dollar ∉ pathOf (s.first? .root)
        ∧ (FileSystem.isRooted (pathOf (s.first? .root)) = true
          ∨ fs.workingDirectory s'.env = fs.workingDirectory s.env))

/-- The request or the root, and nothing else that the sources tell, decide where a file is looked
for. -/
theorem candidates_of_root (hs : s.Initial) (hs' : s'.Initial) (h : SameRoot fs s s') :
    candidates fs file s' = candidates fs file s := by
  obtain ⟨hroot, henv⟩ := h
  rw [← find_root hs] at hroot henv
  rw [← find_root hs'] at hroot
  exact candidates_congr hroot (henv.imp_left fun hsame => ⟨hsame, rfl⟩)

/-- **Every setting comes from the first source that tells a value for it.**  Let the sources have
read no file yet, let the configuration file, if there is one, be read and parsed, let no source give
a group as a whole anything but a table, and let the first values convert.  Then

* there are settings each of which is the value of the first source among explicit values, flags,
  variables, the file and the defaults, and loading returns them exactly if they are valid and is
  refused with the reason if they are not;
* two loads return the same content for a setting as soon as their sources tell the same about it;
* the table of the file is what the selected file holds, and empty if none is selected;
* which file is selected is decided by the request or, without one, by the root that the other
  sources have, and by nothing else they tell, as long as the environment cannot change this root by
  a variable in it or by the name of the working directory; what a file holds is the same whatever
  the environment, unless it holds variables itself;
* which file is selected does not depend on what files hold, and of these only the selected one is
  looked at;
* on a command line the flags tell what was given for the flag of each setting. -/
theorem load_first_source (hs : s.Initial) (hread : readConfigFile readers fs file s = .ok table)
    (hgroups : (s.withFile table).GroupsAreTables)
    (hconvert : ∀ x v, (s.withFile table).first? x = some v →
      ∃ content, Setting.read x v = .ok content) :
    (∃ c, (s.withFile table).Resolves c
      ∧ (load readers fs file s = .ok c ↔ c.validate = .ok ())
      ∧ ∀ e, c.validate = .error e → load readers fs file s = .error (.invalid e))
    ∧ (∀ readers' fs' file' s' table' c c' x, s'.Initial →
        readConfigFile readers' fs' file' s' = .ok table' →
        (s'.withFile table').GroupsAreTables →
        (∀ src, (s'.withFile table').tells x src = (s.withFile table).tells x src) →
        load readers fs file s = .ok c → load readers' fs' file' s' = .ok c' →
        contentOf c' x = contentOf c x)
    ∧ (match selectedFile? fs file s with
      | none => table = .empty
      | some path =>
        ∃ content document, fs.readFile path = .ok content
          ∧ documentIn readers s.env file content = some document
          ∧ table = readers.order.document document)
    ∧ (∀ s', file ≠ [] ∨ s'.Initial ∧ SameRoot fs s s' →
        selectedFile? fs file s' = selectedFile? fs file s
          ∧ (s'.env = s.env ∨ holdsVariables file = false →
            readConfigFile readers fs file s' = .ok table))
    ∧ (∀ fs' : FileSystem, fs'.workingDirectory s.env = fs.workingDirectory s.env →
        (∀ path ∈ candidates fs file s, hasFile fs' path = hasFile fs path) →
        selectedFile? fs' file s = selectedFile? fs file s
          ∧ ((∀ path, selectedFile? fs file s = some path → fs'.readFile path = fs.readFile path) →
            load readers fs' file s = load readers fs file s))
    ∧ (∀ env args command p, Cli.Reads args command p →
        (Cli.sourcesOf env command p).Initial
          ∧ ∀ x, (Cli.sourcesOf env command p).tells x .flags
            = x.flag?.bind fun name => (p.value? name).bind x.ofWord) := by
  have hdefaults : (s.withFile table).defaults = Config.defaults := hs.defaults
  refine ⟨?_, ?_, readConfigFile_eq_ok hread, ?_, ?_, ?_⟩
  · obtain ⟨c, hc⟩ := exists_resolves hdefaults hconvert
    have hload := load_of_decode hread ((decode_eq_ok_iff hdefaults hgroups).2 hc)
    refine ⟨c, hc, ?_, ?_⟩
    · rw [hload]
      cases c.validate <;> simp
    · intro e he
      rw [hload, he]
  · intro readers' fs' file' s' table' c c' x hs' hread' hgroups' htells hload hload'
    have hc := (decode_eq_ok_iff hdefaults hgroups).1 (decode_of_load hread hload)
    have hdefaults' : (s'.withFile table').defaults = Config.defaults := hs'.defaults
    have hc' := (decode_eq_ok_iff hdefaults' hgroups').1 (decode_of_load hread' hload')
    exact contentOf_eq_of_resolves hc hc' htells
  · intro s' hsame
    have hpaths : candidates fs file s' = candidates fs file s := by
      rcases hsame with hfile | ⟨hs', hroot⟩
      · rw [candidates_of_named hfile, candidates_of_named hfile]
      · exact candidates_of_root hs hs' hroot
    refine ⟨selectedFile?_congr hpaths fun _ _ => rfl, fun henv => ?_⟩
    rw [readConfigFile_congr hpaths (fun _ _ => rfl) (fun _ _ => rfl) henv, hread]
  · intro fs' hdir hkind
    have hpaths : candidates fs' file s = candidates fs file s :=
      candidates_congr rfl (.inl ⟨rfl, hdir⟩)
    refine ⟨selectedFile?_congr hpaths hkind, fun hcontent => ?_⟩
    exact load_congr (readConfigFile_congr hpaths hkind hcontent (.inl rfl))
  · intro env args command p hreads
    exact ⟨⟨rfl, rfl⟩, Cli.tells_flags_sourcesOf env hreads⟩

end Loading

/-! ### A contested invocation -/

/-- A configuration file that names another root. -/
def contestedConfig : Text :=
  ascii ("root = \"other\"\nmanifest = \"Package.toml\"\ndry_run = true\n\"git.tag\" = true\n"
    ++ "[LOG]\nlevel = \"info\"\nformat = \"pretty\"\n")

/-- A project and, in the other root, a configuration file with some content. -/
def contestedFiles (elsewhere : Text) : FileSystem where
  nodes :=
    [([], .directory Mode.newDirectory),
      ([ascii "ws"], .directory Mode.newDirectory),
      ([ascii "ws", ascii ".cargobump.toml"], .file Mode.newFile contestedConfig),
      ([ascii "other"], .directory Mode.newDirectory),
      ([ascii "other", ascii ".cargobump.toml"], .file Mode.newFile elsewhere)]
  current := []

/-- Variables for the root, for the manifest, where the variable is empty, and for committing. -/
def contestedEnvironment : Environment :=
  [("CARGOBUMP_ROOT", "other"), ("CARGOBUMP_MANIFEST", ""), ("CARGOBUMP_GIT_COMMIT", "true")].map
    fun (name, value) => (ascii name, ascii value)

/-- Flags for the root, the log format and dry runs. -/
def contestedArgs : List Text :=
  ["--log-format=json", "bump", "--dry-run=false", "--root", "ws"].map ascii

/-- The flags as they are read. -/
def contestedParsed : Cli.Parsed where
  args := []
  values := [("log-format", "json"), ("dry-run", "false"), ("root", "ws")].map
    fun (name, value) => (ascii name, ascii value)

/-- The sources of the invocation, but for the file. -/
def contestedSources : Sources := Cli.sourcesOf contestedEnvironment .bump contestedParsed

/-- What comes of it: the flags, committing by the variable, the rest of the file, no consent. -/
def contestedSettings : Settings :=
  ⟨ascii "ws", ascii "Package.toml", ascii "info", ascii "json", false, false, true, true⟩

/-- Settings that several sources contest are those of the first ones, and the configuration file in
the other root is not looked at, in whatever state it is. -/
theorem load_first_source_contested :
    ∃ table, Cli.Reads contestedArgs .bump contestedParsed
      ∧ contestedSources.Initial
      ∧ readConfigFile .builtIn (contestedFiles []) [] contestedSources = .ok table
      ∧ (contestedSources.withFile table).GroupsAreTables
      ∧ (∀ x v, (contestedSources.withFile table).first? x = some v →
        ∃ content, Setting.read x v = .ok content)
      ∧ (contestedSources.withFile table).Resolves contestedSettings
      ∧ load .builtIn (contestedFiles []) [] contestedSources = .ok contestedSettings
      ∧ load .builtIn (contestedFiles (ascii "root = ")) [] contestedSources = .ok contestedSettings
      ∧ contestedSources.tells .logFormat .flags = some (.text (ascii "json")) := by
  have hreads : Cli.Reads contestedArgs .bump contestedParsed :=
    ⟨["--log-format=json", "--dry-run=false", "--root", "ws"].map ascii, by decide +kernel,
      by decide +kernel⟩
  have hinitial : contestedSources.Initial := ⟨rfl, rfl⟩
  have hload : load .builtIn (contestedFiles []) [] contestedSources = .ok contestedSettings := by
    decide +kernel
  have htables : ((readConfigFile .builtIn (contestedFiles []) [] contestedSources).toOption.any fun table =>
      decide (∀ g ∈ groups, ∀ v ∈ valueAt? table g, v.isTable = true)) = true := by
    decide +kernel
  cases hread : readConfigFile .builtIn (contestedFiles []) [] contestedSources with
  | error e =>
    rw [hread] at htables
    cases htables
  | ok table =>
    rw [hread] at htables
    have hgiven : ∀ g ∈ groups, ∀ v ∈ valueAt? contestedSources.given g, v.isTable = true := by
      decide
    have hvariables : ∀ name ∈ groupVariables, contestedSources.env.get name = [] := by
      decide
    have hgroups : (contestedSources.withFile table).GroupsAreTables :=
      ⟨hgiven, hvariables, of_decide_eq_true htables⟩
    have hresolved : (contestedSources.withFile table).Resolves contestedSettings :=
      (decode_eq_ok_iff rfl hgroups).1 (decode_of_load hread hload)
    have hconvert : ∀ x v, (contestedSources.withFile table).first? x = some v →
        ∃ content, Setting.read x v = .ok content := by
      intro x v hv
      obtain ⟨v', hv', hcontent⟩ := hresolved x
      obtain rfl : v' = v := Option.some.inj (hv'.symm.trans hv)
      exact ⟨_, hcontent⟩
    obtain ⟨⟨c, hc, hloads, hrefuses⟩, -, -, -, hframe, hflags⟩ :=
      load_first_source hinitial hread hgroups hconvert
    obtain rfl : c = contestedSettings := by
      cases hvalid : c.validate with
      | error e =>
        rw [hrefuses e hvalid] at hload
        cases hload
      | ok u =>
        rw [hloads.2 hvalid] at hload
        exact Except.ok.inj hload
    have hselected : selectedFile? (contestedFiles []) [] contestedSources
        = some (ascii "/ws/.cargobump.toml") := by
      decide +kernel
    obtain ⟨-, helsewhere⟩ := hframe (contestedFiles (ascii "root = ")) (by decide) (by decide +kernel)
    refine ⟨table, hreads, hinitial, rfl, hgroups, hconvert, hc, hload, ?_, ?_⟩
    · rw [← hload]
      apply helsewhere
      intro path hpath
      rw [hselected] at hpath
      obtain rfl := Option.some.inj hpath
      decide +kernel
    · exact (hflags _ _ _ _ hreads).2 .logFormat

/-- A library that knows one document in YAML. -/
def oneDocument : Readers where
  yaml := fun content =>
    if content = ascii "Yes: true\n" then some [(ascii "Yes", .boolean true)] else none
  dotenv := fun _ _ => none
  order := .written

/-- What a library makes of the file that was asked for counts like any other file. -/
example :
    load oneDocument ⟨[([], .directory Mode.newDirectory),
        ([ascii "c.yaml"], .file Mode.newFile (ascii "Yes: true\n"))], []⟩ (ascii "c.yaml")
        (sourcesOf [] .empty)
      = .ok ⟨ascii ".", ascii "Cargo.toml", ascii "warn", ascii "pretty", true, false, false,
        false⟩ := by
  decide +kernel

/-! ### A root with a variable in it -/

/-- A project in a directory whose name starts with a dollar sign, and the configuration file of a
neighbour. -/
def neighbourFiles : FileSystem where
  nodes :=
    [([], .directory Mode.newDirectory),
      ([ascii "$X"], .directory Mode.newDirectory),
      ([ascii "a"], .directory Mode.newDirectory),
      ([ascii "a", ascii ".cargobump.toml"], .file Mode.newFile (ascii "yes = true\n"))]
  current := []

/-- The project is given as the root. -/
def dollarSources (env : Environment) : Sources :=
  sourcesOf env (.table [(ascii "root", .text (ascii "$X"))])

/-- The settings of the project: no file tells anything about them. -/
def dollarSettings : Settings :=
  ⟨ascii "$X", ascii "Cargo.toml", ascii "warn", ascii "pretty", false, false, false, false⟩

/-- The root and the request do not always decide which file is read: a variable that belongs to no
setting leads from the same root to the configuration file of the neighbour. -/
theorem load_root_expanded :
    (dollarSources []).Initial ∧ (dollarSources [(ascii "X", ascii "a")]).Initial
      ∧ (∀ x src,
        (dollarSources [(ascii "X", ascii "a")]).tells x src = (dollarSources []).tells x src)
      ∧ selectedFile? neighbourFiles [] (dollarSources []) = none
      ∧ selectedFile? neighbourFiles [] (dollarSources [(ascii "X", ascii "a")])
        = some (ascii "/a/.cargobump.toml")
      ∧ load .builtIn neighbourFiles [] (dollarSources []) = .ok dollarSettings
      ∧ load .builtIn neighbourFiles [] (dollarSources [(ascii "X", ascii "a")])
        = .ok { dollarSettings with yes := true } := by
  refine ⟨⟨rfl, rfl⟩, ⟨rfl, rfl⟩, ?_, by decide +kernel, by decide +kernel, by decide +kernel,
    by decide +kernel⟩
  intro x src
  cases src with
  | environment => cases x <;> rfl
  | _ => rfl

end CrateBump.Config
