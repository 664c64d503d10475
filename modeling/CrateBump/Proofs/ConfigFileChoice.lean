/-
# The choice of the configuration file

One file is read at most: the one that was asked for, else the first of the known names that is a
file in the project directory.  The project directory is resolved before any file is read, so nothing
that a file tells about it can lead to another file.  A dollar sign in it starts a variable, whatever
the project directory is really called.

Main statements: what is read depends on the paths that are looked at, on what stands there and on
the content of the chosen file (`readConfigFile_congr`), and these paths depend on the request and on
the project directory alone, unless this has a dollar sign in it or is looked for from another working
directory (`candidates_of_named`, `candidates_congr`).
-/
import CrateBump.Proofs.SettingSources

namespace CrateBump.Config

variable {readers : Readers} {fs fs' : FileSystem} {file : Text} {s s' : Sources}

/-! ## The first file -/

/-- The path that is read: the one asked for, else the first candidate that leads to a file. -/
def selectedFile? (fs : FileSystem) (file : Text) (s : Sources) : Option Text :=
  if file ≠ [] then some file
  else (candidates fs file s).find? (hasFile fs)

theorem find?_hasFile_congr {paths : List Text}
    (h : ∀ path ∈ paths, hasFile fs' path = hasFile fs path) :
    paths.find? (hasFile fs') = paths.find? (hasFile fs) := by
  induction paths with
  | nil => rfl
  | cons path rest ih =>
    rw [List.find?_cons, List.find?_cons, h path List.mem_cons_self,
      ih fun p hp => h p (List.mem_cons_of_mem path hp)]

/-- Which file is selected does not depend on what files hold. -/
theorem selectedFile?_congr (hpaths : candidates fs' file s' = candidates fs file s)
    (hkind : ∀ path ∈ candidates fs file s, hasFile fs' path = hasFile fs path) :
    selectedFile? fs' file s' = selectedFile? fs file s := by
  unfold selectedFile?
  split
  · rfl
  · rw [hpaths]
    exact find?_hasFile_congr hkind

/-! ## Reading -/

/-- The document in the file that is read. -/
def documentIn (readers : Readers) (env : Environment) (file : Text) (content : Text) :
    Option Value :=
  if file ≠ [] then readerFor readers env ((Path.extension? file).getD []) content
  else Toml.parse? dialect content

/-- Whether a file that was asked for holds variables.  What these are set to may depend on other
variables. -/
def holdsVariables (file : Text) : Bool :=
  [ascii "dotenv", ascii "env"].contains ((Path.extension? file).getD [])

/-- The environment decides about nothing in a file that holds no variables. -/
theorem documentIn_congr {env env' : Environment} (h : env' = env ∨ holdsVariables file = false)
    (content : Text) : documentIn readers env' file content = documentIn readers env file content := by
  rcases h with rfl | hplain
  · rfl
  have hext : ¬((Path.extension? file).getD [] = ascii "dotenv"
      ∨ (Path.extension? file).getD [] = ascii "env") := by
    simpa [holdsVariables] using hplain
  unfold documentIn readerFor
  rw [if_neg hext, if_neg hext]

theorem readConfigFile_of_named (h : file ≠ []) :
    readConfigFile readers fs file s = readNamed readers s.env fs file := by
  rw [readConfigFile, if_pos h]

/-- Without a request the candidates are all that is looked at. -/
theorem readConfigFile_of_unnamed (readers : Readers) (fs : FileSystem) (s : Sources) :
    readConfigFile readers fs [] s = readFirst readers fs (candidates fs [] s) := by
  rw [readConfigFile, if_neg (not_not_intro rfl)]

/-- Where reading succeeds, the table is what the selected file holds, its entries in the order in
which they are visited, or empty if there is no such file. -/
theorem readConfigFile_eq_ok {table : Value} (h : readConfigFile readers fs file s = .ok table) :
    match selectedFile? fs file s with
    | none => table = .empty
    | some path =>
      ∃ content document, fs.readFile path = .ok content
        ∧ documentIn readers s.env file content = some document
        ∧ table = readers.order.document document := by
  by_cases hfile : file = []
  · subst hfile
    rw [readConfigFile_of_unnamed, readFirst] at h
    simp only [selectedFile?, documentIn, ne_eq, not_true_eq_false, if_false]
    cases hfirst : (candidates fs [] s).find? (hasFile fs) with
    | none =>
      rw [hfirst] at h
      exact (Except.ok.inj h).symm
    | some path =>
      rw [hfirst] at h
      dsimp only at h ⊢
      split at h
      · cases h
      next content hcontent =>
      split at h
      · next document hdocument => exact ⟨content, document, hcontent, hdocument, (Except.ok.inj h).symm⟩
      · cases h
  · rw [readConfigFile_of_named hfile, readNamed] at h
    simp only [selectedFile?, documentIn, ne_eq, hfile, not_false_eq_true, if_true]
    split at h
    · cases h
    split at h
    · cases h
    next content hcontent =>
    split at h
    · next document hdocument => exact ⟨content, document, hcontent, hdocument, (Except.ok.inj h).symm⟩
    · cases h

/-- What is read depends on the candidates, on what stands there, on the content of the selected file
and, if this holds variables, on the environment. -/
theorem readConfigFile_congr (hpaths : candidates fs' file s' = candidates fs file s)
    (hkind : ∀ path ∈ candidates fs file s, hasFile fs' path = hasFile fs path)
    (hcontent : ∀ path, selectedFile? fs file s = some path →
      fs'.readFile path = fs.readFile path)
    (henv : s'.env = s.env ∨ holdsVariables file = false) :
    readConfigFile readers fs' file s' = readConfigFile readers fs file s := by
  by_cases hfile : file = []
  · subst hfile
    rw [readConfigFile_of_unnamed, readConfigFile_of_unnamed, hpaths, readFirst, readFirst,
      find?_hasFile_congr hkind]
    cases hfirst : (candidates fs [] s).find? (hasFile fs) with
    | none => rfl
    | some path =>
      have hselected : selectedFile? fs [] s = some path := by
        rw [selectedFile?, if_neg (not_not_intro rfl), hfirst]
      dsimp only
      rw [hcontent path hselected]
  · have hselected : selectedFile? fs file s = some file := by rw [selectedFile?, if_pos hfile]
    have hreader : readerFor readers s'.env ((Path.extension? file).getD [])
        = readerFor readers s.env ((Path.extension? file).getD []) := by
      funext content
      have hsame : documentIn readers s'.env file content = documentIn readers s.env file content :=
        documentIn_congr henv content
      rwa [documentIn, documentIn, if_pos hfile, if_pos hfile] at hsame
    rw [readConfigFile_of_named hfile, readConfigFile_of_named hfile, readNamed, readNamed,
      hcontent file hselected, hreader]

/-! ## Where the file is looked for -/

/-- The byte that starts a variable in a path. -/
def dollar : UInt8 := 36

/-- Text without a dollar sign stands for itself. -/
theorem expandVariables_of_not_mem (env : Environment) (fuel : Nat) {t : Text} (h : dollar ∉ t) :
    expandVariables env fuel t = t := by
  induction fuel generalizing t with
  | zero => rfl
  | succ fuel ih =>
    cases t with
    | nil => rfl
    | cons b rest =>
      rw [List.mem_cons, not_or] at h
      have hb : ¬b = 36 := Ne.symm h.1
      rw [expandVariables, if_neg hb, ih h.2]

/-- The working directory decides from where a root is looked for. -/
theorem searchDirectory_congr {env : Environment}
    (h : fs'.workingDirectory env = fs.workingDirectory env) (root : Text) :
    searchDirectory env fs' root = searchDirectory env fs root := by
  unfold searchDirectory FileSystem.absolutePath
  rw [h]

/-- Without a dollar sign in it, a root is the same directory in every environment with the same
working directory, and everywhere if it starts at the root. -/
theorem searchDirectory_of_not_mem {env env' : Environment} {root : Text} (h : dollar ∉ root)
    (hdir : FileSystem.isRooted root = true
      ∨ fs'.workingDirectory env' = fs.workingDirectory env) :
    searchDirectory env' fs' root = searchDirectory env fs root := by
  have hhome : ¬(root = ascii "$HOME" || Text.startsWith (ascii "$HOME" ++ [slash]) root)
      = true := by
    rw [Bool.or_eq_true, decide_eq_true_iff]
    rintro (rfl | hlead)
    · exact h (by decide)
    · obtain ⟨rest, hrest⟩ := Option.isSome_iff_exists.1 hlead
      rw [Text.dropLead?_eq_some_iff] at hrest
      rw [hrest] at h
      exact h (List.mem_append_left _ (by decide))
  have habsolute : fs'.absolutePath env' root = fs.absolutePath env root := by
    unfold FileSystem.absolutePath
    rcases hdir with hrooted | hdir
    · rw [if_pos hrooted, if_pos hrooted]
    · rw [hdir]
  simp only [searchDirectory, if_neg hhome, expandVariables_of_not_mem _ _ h, habsolute]

/-- A file that was asked for is the only candidate. -/
theorem candidates_of_named (h : file ≠ []) : candidates fs file s = [file] := by
  rw [candidates, if_pos h]

/-- Without a request the root, the working directory and, where the root has variables in it, the
environment decide where a file is looked for. -/
theorem candidates_congr (hroot : s'.find (.top "root") = s.find (.top "root"))
    (hdir : s'.env = s.env ∧ fs'.workingDirectory s.env = fs.workingDirectory s.env
      ∨ dollar ∉ pathOf (s.find (.top "root"))
        ∧ (FileSystem.isRooted (pathOf (s.find (.top "root"))) = true
          ∨ fs'.workingDirectory s'.env = fs.workingDirectory s.env)) :
    candidates fs' file s' = candidates fs file s := by
  have hsearch : searchDirectory s'.env fs' (pathOf (s.find (.top "root")))
      = searchDirectory s.env fs (pathOf (s.find (.top "root"))) := by
    rcases hdir with ⟨henv, hdir⟩ | ⟨hplain, hdir⟩
    · rw [henv]
      exact searchDirectory_congr hdir _
    · exact searchDirectory_of_not_mem hplain hdir
  unfold candidates
  rw [hroot]
  dsimp only
  rw [hsearch]

end CrateBump.Config
