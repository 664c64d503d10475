/-
# Names of manifests

Settings are accepted if the manifest's name is its own last element.  That keeps out every name with
a slash in it, and an accepted name then stays as it is when the path of a manifest is joined and
cleaned: the manifest lies directly in the directory of its member.  Three names are their own last
elements and are no names of files: `.`, `..` and `/`.

Main statements: cleaning a clean path changes nothing (`clean_clean`), a name behind a path becomes
its last element (`base_clean_child`, `directory_clean_child`), and so manifests lie directly in
their directories exactly if the accepted name is none of the three (`manifestPath_direct_iff`).
-/
import CrateBump.Cli.Run
import CrateBump.Proofs.Staging
import Mathlib.Data.List.TakeWhile

namespace CrateBump

/-- Joined texts with one more behind them. -/
theorem Text.joinWith_concat {sep : Text} {ts : List Text} (hne : ts ≠ []) (t : Text) :
    joinWith sep (ts ++ [t]) = joinWith sep ts ++ sep ++ t := by
  induction ts with
  | nil => exact absurd rfl hne
  | cons s ts ih =>
    cases ts with
    | nil => rfl
    | cons u ts =>
      rw [List.cons_append, List.cons_append, joinWith, ← List.cons_append,
        ih (List.cons_ne_nil u ts), joinWith]
      simp only [List.append_assoc]

namespace Path

/-- All of a path text but its last element, cleaned. -/
def directory (t : Text) : Text := clean (t.reverse.dropWhile (· != slash)).reverse

/-! ## The last element of a text -/

/-- Without a slash at its end, a text has its last element behind its last slash. -/
theorem base_eq {t : Text} (hne : t ≠ []) (hlast : t.getLast? ≠ some slash) :
    base t = (t.reverse.takeWhile (· != slash)).reverse := by
  have hkept : Text.dropEndWhile (· == slash) t = t := by
    rcases List.eq_nil_or_concat t with rfl | ⟨rest, b, rfl⟩
    · rfl
    · have hb : b ≠ slash := by simpa using hlast
      simp [Text.dropEndWhile, hb]
  rw [base, if_neg hne, hkept]
  cases t with
  | nil => exact absurd rfl hne
  | cons b t => rfl

section Last

variable {front name : Text} (hname : name ≠ []) (hslash : slash ∉ name)
  (hfront : front = [] ∨ front.getLast? = some slash)
include hslash hfront

/-- A text cut behind its last slash. -/
theorem cut_last :
    (front ++ name).reverse.takeWhile (· != slash) = name.reverse
      ∧ (front ++ name).reverse.dropWhile (· != slash) = front.reverse := by
  have hall : ∀ b ∈ name.reverse, (b != slash) = true := fun b hb =>
    bne_iff_ne.2 (ne_of_mem_of_not_mem (List.mem_reverse.1 hb) hslash)
  rw [List.reverse_append, List.takeWhile_append_of_pos hall, List.dropWhile_append_of_pos hall]
  rcases hfront with rfl | hlast
  · simp
  · obtain ⟨rest, rfl⟩ := List.getLast?_eq_some_iff.1 hlast
    simp

/-- What stands in front of the last slash, cleaned, is the directory. -/
theorem directory_append : directory (front ++ name) = clean front := by
  rw [directory, (cut_last hslash hfront).2, List.reverse_reverse]

include hname

/-- What stands behind the last slash is the name. -/
theorem base_append : base (front ++ name) = name := by
  have hlast : (front ++ name).getLast? ≠ some slash := by
    rw [FileSystem.getLast?_append_of_ne_nil hname]
    exact fun h => hslash (List.mem_of_getLast? h)
  have hne : front ++ name ≠ [] := List.append_ne_nil_of_right_ne_nil front hname
  rw [base_eq hne hlast, (cut_last hslash hfront).1, List.reverse_reverse]

end Last

/-! ## Cleaning again -/

theorem foldl_keep_up (k j : Nat) :
    (List.replicate k up).foldl (keep false) (List.replicate j up) = List.replicate (k + j) up := by
  induction k generalizing j with
  | zero => rw [List.replicate_zero, List.foldl_nil, Nat.zero_add]
  | succ k ih =>
    have hstep : keep false (List.replicate j up) up = List.replicate (j + 1) up := by
      cases j with
      | zero => rfl
      | succ j => rfl
    rw [List.replicate_succ, List.foldl_cons, hstep, ih]
    congr 1
    omega

/-- Elements that were kept are kept again. -/
theorem foldl_keep_kept {rooted : Bool} {k : Nat} {names : List Text}
    (hnames : ∀ t ∈ names, IsElement t) (hk : rooted = true → k = 0) :
    (List.replicate k up ++ names).foldl (keep rooted) []
      = (List.replicate k up ++ names).reverse := by
  rw [List.foldl_append, List.reverse_append, List.reverse_replicate]
  cases rooted with
  | true =>
    rw [hk rfl, List.replicate_zero, List.foldl_nil, foldl_keep_elements hnames]
  | false =>
    have hups := foldl_keep_up k 0
    rw [List.replicate_zero, Nat.add_zero] at hups
    rw [hups, foldl_keep_elements hnames]

/-- A clean path text denotes the path that it was written for. -/
theorem normal_clean (u : Text) : (ofText (clean u)).normal = (ofText u).normal := by
  obtain ⟨k, names, helements, hnames, hk⟩ := exists_normal u
  have hpath : (ofText u).normal = ⟨(ofText u).rooted, List.replicate k up ++ names⟩ := by
    rw [← helements]
    rfl
  rw [clean, hpath]
  generalize (ofText u).rooted = rooted at hk ⊢
  cases rooted with
  | true =>
    rw [hk rfl, List.replicate_zero, List.nil_append]
    exact congrArg (Path.mk true) (FileSystem.normal_textOf hnames)
  | false =>
    have hparts : ∀ t ∈ List.replicate k up ++ names, t ≠ [] ∧ slash ∉ t := by
      intro t ht
      rcases List.mem_append.1 ht with ht | ht
      · rw [List.eq_of_mem_replicate ht]
        decide
      · exact ⟨(hnames t ht).ne_nil, (hnames t ht).slash_not_mem⟩
    have hagain := foldl_keep_kept hnames hk
    generalize List.replicate k up ++ names = elements at hparts hagain ⊢
    by_cases hne : elements = []
    · subst hne
      rfl
    · have htext : toText ⟨false, elements⟩ = Text.joinWith [slash] elements := by
        simp [toText, hne]
      have hroot : ((Text.joinWith [slash] elements).head? == some slash) = false :=
        FileSystem.isRooted_joinWith hne hparts
      rw [htext, ofText, hroot, Text.splitOn_joinWith hne fun t ht => (hparts t ht).2]
      dsimp only [normal]
      rw [hagain, List.reverse_reverse]

/-- A cleaned path is clean. -/
theorem clean_clean (u : Text) : clean (clean u) = clean u := by
  rw [clean, normal_clean, clean]

/-! ## One more element -/

/-- What a text denotes once more elements were put behind it. -/
theorem normal_append {u : Text} (hu : u ≠ []) (t : Text) :
    (ofText (u ++ slash :: t)).normal = ⟨(ofText u).rooted, ((Text.splitOn slash t).foldl
      (keep (ofText u).rooted) (ofText u).normal.elements.reverse).reverse⟩ := by
  have hroot : (u ++ slash :: t).head? = u.head? := by
    cases u with
    | nil => exact absurd rfl hu
    | cons b u => rfl
  simp only [normal, ofText, hroot, Text.splitOn_append_cons, List.foldl_append, List.reverse_reverse]

/-- An element behind a path becomes the last one of its normal form. -/
theorem normal_child {u n : Text} (hu : u ≠ []) (hn : IsElement n) :
    (ofText (u ++ slash :: n)).normal
      = ⟨(ofText u).rooted, (ofText u).normal.elements ++ [n]⟩ := by
  rw [normal_append hu, Text.splitOn_of_not_mem hn.slash_not_mem, List.foldl_cons, List.foldl_nil,
    hn.keep_eq, List.reverse_cons, List.reverse_reverse]

theorem foldl_keep_skip {pieces : List Text} (h : ∀ piece ∈ pieces, piece = [] ∨ piece = here)
    (rooted : Bool) (kept : List Text) : pieces.foldl (keep rooted) kept = kept := by
  induction pieces with
  | nil => rfl
  | cons piece pieces ih =>
    rw [List.foldl_cons, keep_skip _ _ (h piece List.mem_cons_self),
      ih fun t ht => h t (List.mem_cons_of_mem _ ht)]

/-- A slash, or a dot behind it, at the end of a text says nothing. -/
theorem clean_append_skip {u t : Text} (hu : u ≠ [])
    (ht : ∀ piece ∈ Text.splitOn slash t, piece = [] ∨ piece = here) :
    clean (u ++ slash :: t) = clean u := by
  rw [clean, normal_append hu, foldl_keep_skip ht, List.reverse_reverse]
  rfl

/-- A parent element takes the name before it away. -/
theorem clean_append_up {u n : Text} (hu : u ≠ []) (hn : IsElement n) :
    clean (u ++ slash :: n ++ slash :: up) = clean u := by
  have hne : u ++ slash :: n ≠ [] := List.append_ne_nil_of_right_ne_nil u (List.cons_ne_nil slash n)
  have hroot : (ofText (u ++ slash :: n)).normal.rooted = (ofText u).rooted := by
    rw [normal_child hu hn]
  rw [clean, normal_append hne, show (ofText (u ++ slash :: n)).rooted = _ from hroot,
    normal_child hu hn, Text.splitOn_of_not_mem (show slash ∉ up by decide), List.foldl_cons,
    List.foldl_nil, List.reverse_append, List.reverse_singleton, List.singleton_append,
    keep_up_element hn, List.reverse_reverse]
  rfl

/-- What stands before the last name in the text of a path with one more name: the path and a
slash, or only as much as needed if the path has no elements. -/
def lead (p : Path) : Text :=
  if p.elements = [] then (if p.rooted then [slash] else []) else p.toText ++ [slash]

theorem toText_concat (rooted : Bool) (elements : List Text) (n : Text) :
    toText ⟨rooted, elements ++ [n]⟩ = lead ⟨rooted, elements⟩ ++ n := by
  by_cases hne : elements = []
  · subst hne
    cases rooted <;> rfl
  · cases rooted <;> simp [toText, lead, hne, Text.joinWith_concat hne]

theorem lead_ends (p : Path) : p.lead = [] ∨ p.lead.getLast? = some slash := by
  rw [lead]
  split
  · split
    · exact Or.inr rfl
    · exact Or.inl rfl
  · exact Or.inr (List.getLast?_concat ..)

theorem clean_lead (u : Text) : clean (ofText u).normal.lead = clean u := by
  rw [lead]
  split
  case isTrue hnone =>
    have hpath : (ofText u).normal = ⟨(ofText u).rooted, []⟩ := by
      rw [← hnone]
      rfl
    rw [clean, clean, hpath]
    cases (ofText u).rooted <;> decide
  case isFalse hsome =>
    have hclean : clean u ≠ [] := by
      intro hnil
      rw [← normal_clean, hnil] at hsome
      exact hsome (by decide)
    have hslash : ∀ piece ∈ Text.splitOn slash [], piece = [] ∨ piece = here := by decide
    exact (clean_append_skip hclean hslash).trans (clean_clean u)

/-- A cleaned child is the cleaned parent with the name behind it. -/
theorem clean_child {u n : Text} (hu : u ≠ []) (hn : IsElement n) :
    clean (u ++ slash :: n) = (ofText u).normal.lead ++ n := by
  rw [clean, normal_child hu hn, toText_concat]
  rfl

/-- **A name behind a path is the last element of the cleaned path.** -/
theorem base_clean_child {u n : Text} (hu : u ≠ []) (hn : IsElement n) :
    base (clean (u ++ slash :: n)) = n := by
  rw [clean_child hu hn, base_append hn.ne_nil hn.slash_not_mem (lead_ends _)]

/-- **A name behind a path lies directly in the path's directory.** -/
theorem directory_clean_child {u n : Text} (hu : u ≠ []) (hn : IsElement n) :
    directory (clean (u ++ slash :: n)) = clean u := by
  rw [clean_child hu hn, directory_append hn.slash_not_mem (lead_ends _), clean_lead]

/-! ## Joined paths -/

/-- A path below a directory, before cleaning; the empty path is the directory itself. -/
def under (dir path : Text) : Text := if path = [] then dir else dir ++ slash :: path

section Join

variable {dir : Text} (hdir : dir ≠ []) (path : Text)
include hdir

theorem under_ne_nil : under dir path ≠ [] := by
  rw [under]
  split
  · exact hdir
  · exact List.append_ne_nil_of_left_ne_nil hdir _

theorem join_under : join [dir, path] = clean (under dir path) := by
  by_cases hpath : path = [] <;> simp [join, under, hdir, hpath, Text.joinWith]

/-- Joining three parts is cleaning the name behind the other two. -/
theorem join_under_name {name : Text} (hname : name ≠ []) :
    join [dir, path, name] = clean (under dir path ++ slash :: name) := by
  by_cases hpath : path = [] <;> simp [join, under, hdir, hpath, hname, Text.joinWith]

end Join

/-- No last element but `/` has a slash in it. -/
theorem slash_not_mem_base {t : Text} (h : base t ≠ [slash]) : slash ∉ base t := by
  revert h
  rw [base]
  split
  · decide
  · split
    · exact fun h => absurd rfl h
    · rintro - hmem
      have hbyte := List.mem_takeWhile_imp (List.mem_reverse.1 hmem)
      exact absurd rfl (bne_iff_ne.1 hbyte)

end Path

/-! ## Names that are no names of files -/

/-- The names that are their own last elements and no names of files. -/
def oddNames : List Text := [Path.here, Path.up, [slash]]

theorem mem_oddNames {name : Text} :
    name ∈ oddNames ↔ name = Path.here ∨ name = Path.up ∨ name = [slash] := by
  simp [oddNames]

/-- Behind two names an odd name leaves one of them as the last element. -/
theorem Path.base_clean_odd {u x y name : Text} (hu : u ≠ []) (hx : IsElement x) (hy : IsElement y)
    (h : name ∈ oddNames) :
    base (clean (u ++ slash :: x ++ slash :: y ++ slash :: name)) ∈ [x, y] := by
  have hparent : u ++ slash :: x ≠ [] := List.append_ne_nil_of_left_ne_nil hu _
  have hne : u ++ slash :: x ++ slash :: y ≠ [] := List.append_ne_nil_of_left_ne_nil hparent _
  rcases mem_oddNames.1 h with rfl | rfl | rfl
  · rw [clean_append_skip hne (by decide), base_clean_child hparent hy]
    exact List.mem_cons_of_mem x List.mem_cons_self
  · rw [clean_append_up hparent hy, base_clean_child hu hx]
    exact List.mem_cons_self
  · rw [clean_append_skip hne (by decide), base_clean_child hparent hy]
    exact List.mem_cons_of_mem x List.mem_cons_self

/-! ## The manifests of accepted settings -/

namespace Settings

/-- A valid manifest name is its own last element. -/
theorem manifest_of_validate {s : Settings} (h : s.validate = .ok ()) :
    s.manifest ≠ [] ∧ Path.base s.manifest = s.manifest := by
  rw [validate] at h
  split at h
  · cases h
  · split at h
    · cases h
    · next hne hbase => exact ⟨hne, not_not.1 hbase⟩

/-- A valid manifest name is an element of a path unless it is one of the odd names. -/
theorem isElement_manifest_iff {s : Settings} (h : s.validate = .ok ()) :
    Path.IsElement s.manifest ↔ s.manifest ∉ oddNames := by
  obtain ⟨hne, hbase⟩ := manifest_of_validate h
  rw [mem_oddNames]
  constructor
  · rintro hplain (heq | heq | heq)
    · exact hplain.ne_here heq
    · exact hplain.ne_up heq
    · exact hplain.slash_not_mem (heq ▸ List.mem_singleton_self slash)
  · intro hodd
    obtain ⟨hhere, hup, hslash⟩ : _ ∧ _ ∧ _ := by simpa only [not_or] using hodd
    rw [← hbase] at hslash
    exact ⟨hne, hhere, hup, hbase ▸ Path.slash_not_mem_base hslash⟩

end Settings

namespace Workspace

/-- The manifest of a member lies in the member's directory, under the name `name`. -/
def ManifestIn (ws : Workspace) (name member : Text) : Prop :=
  Path.base (ws.manifestPath member) = name
    ∧ Path.directory (ws.manifestPath member) = Path.join [ws.dir, member]

instance (ws : Workspace) (name member : Text) : Decidable (ws.ManifestIn name member) :=
  inferInstanceAs (Decidable (_ ∧ _))

theorem dir_ne_nil (ws : Workspace) : ws.dir ≠ [] := by
  rw [dir]
  split
  · decide
  · assumption

/-- The path of a manifest is its name behind the directory of the member, cleaned. -/
theorem manifestPath_eq (ws : Workspace) (member : Text) (hname : ws.manifest ≠ []) :
    ws.manifestPath member = Path.clean (Path.under ws.dir member ++ slash :: ws.manifest) := by
  rw [manifestPath, manifestName, if_neg hname, Path.join_under_name ws.dir_ne_nil member hname]

/-- A name that cleaning keeps lies where it was put. -/
theorem manifestIn_of_isElement (ws : Workspace) (h : Path.IsElement ws.manifest) (member : Text) :
    ws.ManifestIn ws.manifest member := by
  have hunder := Path.under_ne_nil ws.dir_ne_nil member
  rw [ManifestIn, manifestPath_eq ws member h.ne_nil]
  refine ⟨Path.base_clean_child hunder h, ?_⟩
  rw [Path.directory_clean_child hunder h, Path.join_under ws.dir_ne_nil]

/-- In a directory two names deep, no odd name lies where it was put. -/
theorem not_manifestIn_of_mem_oddNames (ws : Workspace) (h : ws.manifest ∈ oddNames) :
    ¬ ws.ManifestIn ws.manifest (ascii "x/y") := by
  have hx : Path.IsElement (ascii "x") := ⟨by decide, by decide, by decide, by decide⟩
  have hy : Path.IsElement (ascii "y") := ⟨by decide, by decide, by decide, by decide⟩
  have hne : ws.manifest ≠ [] := ne_of_mem_of_not_mem h (by decide)
  have hunder : Path.under ws.dir (ascii "x/y")
      = ws.dir ++ slash :: ascii "x" ++ slash :: ascii "y" := by
    rw [Path.under, if_neg (by decide), List.append_assoc]
    rfl
  rintro ⟨hbase, -⟩
  have hlast := Path.base_clean_odd ws.dir_ne_nil hx hy h
  rw [← hunder, ← manifestPath_eq ws _ hne, hbase] at hlast
  have hapart : ∀ name ∈ oddNames, name ∉ [ascii "x", ascii "y"] := by decide
  exact hapart _ h hlast

end Workspace

/-- **Accepted settings put each manifest directly into the directory of its member exactly if their
name of manifests is a plain one, and that is each accepted name but `.`, `..` and `/`.** -/
theorem manifestPath_direct_iff {s : Settings} (h : s.validate = .ok ()) :
    (Path.IsElement s.manifest ↔ s.manifest ∉ oddNames)
      ∧ ((∀ member, (Cli.workspaceOf s).ManifestIn s.manifest member)
          ↔ Path.IsElement s.manifest) := by
  refine ⟨Settings.isElement_manifest_iff h, fun hall => ?_, fun hplain =>
    (Cli.workspaceOf s).manifestIn_of_isElement hplain⟩
  rw [Settings.isElement_manifest_iff h]
  exact fun hodd => (Cli.workspaceOf s).not_manifestIn_of_mem_oddNames hodd (hall (ascii "x/y"))

/-- Settings with a root and a name of manifests, and nothing else asked for. -/
def settingsAt (root manifest : Text) : Settings :=
  ⟨root, manifest, [], ascii "json", false, false, false, false⟩

theorem manifestPath_direct_parent :
    (settingsAt (ascii "/srv/../w") (ascii "Cargo.toml")).validate = .ok ()
      ∧ (Cli.workspaceOf (settingsAt (ascii "/srv/../w") (ascii "Cargo.toml"))).ManifestIn
          (ascii "Cargo.toml") (ascii "../a//b/.") := by
  have hvalid : (settingsAt (ascii "/srv/../w") (ascii "Cargo.toml")).validate = .ok () := by decide
  have hplain : Path.IsElement (ascii "Cargo.toml") :=
    ⟨by decide, by decide, by decide, by decide⟩
  exact ⟨hvalid, (manifestPath_direct_iff hvalid).2.2 hplain (ascii "../a//b/.")⟩

/-- Each of the three names is accepted, and the manifest of a member is then the member's directory
or the one above it. -/
theorem manifestPath_indirect :
    ((settingsAt [] Path.up).validate = .ok ()
        ∧ (Cli.workspaceOf (settingsAt [] Path.up)).manifestPath (ascii "core") = Path.here
        ∧ ¬ (Cli.workspaceOf (settingsAt [] Path.up)).ManifestIn Path.up (ascii "core"))
      ∧ ((settingsAt [] Path.here).validate = .ok ()
        ∧ (Cli.workspaceOf (settingsAt [] Path.here)).manifestPath (ascii "core") = ascii "core"
        ∧ ¬ (Cli.workspaceOf (settingsAt [] Path.here)).ManifestIn Path.here (ascii "core"))
      ∧ ((settingsAt [] [slash]).validate = .ok ()
        ∧ (Cli.workspaceOf (settingsAt [] [slash])).manifestPath (ascii "core") = ascii "core"
        ∧ ¬ (Cli.workspaceOf (settingsAt [] [slash])).ManifestIn [slash] (ascii "core")) := by
  decide

end CrateBump
