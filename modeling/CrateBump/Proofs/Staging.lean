/-
# Staging manifests

A manifest is staged under its path relative to the top of the worktree, with all links resolved.
The worktree itself may have been found through links; its top is then where those lead.

Main statement: staging the manifest that a clean path leads to either fails or records the content of
exactly that file, under the names that lead from the top of the worktree to it (`stage_of_file`).
-/
import CrateBump.Proofs.FileShape
import CrateBump.Proofs.ReleaseHistory
import CrateBump.Proofs.WorktreeStatus

namespace CrateBump

/-! ## Clean paths that lead somewhere -/

namespace FileSystem

open CrateBump.Path

theorem mem_joinWith {names : List Text} {t : Text} (ht : t ∈ names) {b : UInt8} (hb : b ∈ t) :
    b ∈ Text.joinWith [slash] names := by
  induction names with
  | nil => cases ht
  | cons n names ih =>
    cases names with
    | nil => exact List.mem_singleton.1 ht ▸ hb
    | cons u names =>
      rw [Text.joinWith, List.mem_append, List.mem_append]
      rcases List.mem_cons.1 ht with rfl | ht
      · exact Or.inl (Or.inl hb)
      · exact Or.inr (ih ht)

theorem zero_not_mem_textOf {names : List Text} (h : ∀ t ∈ names, 0 ∉ t) : 0 ∉ textOf names := by
  have hjoined : 0 ∉ Text.joinWith [slash] names := by
    induction names with
    | nil => exact List.not_mem_nil
    | cons n names ih =>
      have hn := h n List.mem_cons_self
      have hrest := ih fun t ht => h t (List.mem_cons_of_mem _ ht)
      cases names with
      | nil => exact hn
      | cons u names =>
        rw [Text.joinWith, List.mem_append, List.mem_append, not_or, not_or]
        exact ⟨⟨hn, by decide⟩, hrest⟩
  rw [textOf, List.mem_cons, not_or]
  exact ⟨by decide, hjoined⟩

/-- `..` some times leads to a directory above, by name as by walking. -/
theorem exists_base {fs : FileSystem} {cur : Location} (hcur : ∀ t ∈ cur, IsElement t) {k j : Nat}
    {names : List Text} (hnames : ∀ t ∈ names, IsElement t) {loc : Location}
    (h : Walks fs cur (List.replicate k up ++ names) j loc) :
    ∃ base, base <+: cur ∧ lexical cur (List.replicate k up ++ names) = base ++ names
      ∧ Walks fs base names j loc := by
  induction k generalizing cur with
  | zero => exact ⟨cur, List.prefix_rfl, lexical_elements cur hnames, h⟩
  | succ k ih =>
    rw [List.replicate_succ, List.cons_append] at h ⊢
    have hparent : ∀ t ∈ cur.dropLast, IsElement t := fun t ht =>
      hcur t ((List.dropLast_prefix cur).mem ht)
    cases h with
    | up hopen hrest =>
      obtain ⟨base, hbase, hlexical, hwalks⟩ := ih hparent hrest
      refine ⟨base, hbase.trans (List.dropLast_prefix cur), ?_, hwalks⟩
      rw [← List.singleton_append, lexical_append, lexical_up hcur, hlexical]
    | enter _ _ hup => exact absurd rfl hup
    | link _ _ hup => exact absurd rfl hup

theorem isRooted_joinWith {names : List Text} (hne : names ≠ [])
    (h : ∀ t ∈ names, t ≠ [] ∧ slash ∉ t) : isRooted (Text.joinWith [slash] names) = false := by
  cases names with
  | nil => exact absurd rfl hne
  | cons n names =>
    obtain ⟨hn, hslash⟩ := h n List.mem_cons_self
    cases n with
    | nil => exact absurd rfl hn
    | cons b n =>
      have hb : b ≠ slash := fun heq => hslash (heq ▸ List.mem_cons_self)
      cases names <;> simp [Text.joinWith, isRooted, hb]

/-- A clean path without a root, by its elements: it is walked as they are and means what they mean. -/
theorem clean_relative {u : Text} (hroot : (ofText u).rooted = false)
    (h : ∀ t ∈ (ofText u).normal.elements, t ≠ [] ∧ slash ∉ t) :
    isRooted (clean u) = false
      ∧ (∀ loc, lexical loc (Text.splitOn slash (clean u))
          = lexical loc (ofText u).normal.elements)
      ∧ (∀ {fs : FileSystem} {loc stop : Location} {k : Nat}, Walks fs loc (steps (clean u)) k stop →
          Walks fs loc (ofText u).normal.elements k stop)
      ∧ ∀ t ∈ (ofText u).normal.elements, ∀ b ∈ t, b ∈ clean u := by
  have htext : clean u = if (ofText u).normal.elements.isEmpty then Path.here
      else Text.joinWith [slash] (ofText u).normal.elements := by
    rw [clean, toText, show (ofText u).normal.rooted = (ofText u).rooted from rfl, hroot]
    rfl
  generalize (ofText u).normal.elements = elements at h htext ⊢
  by_cases hne : elements = []
  · subst hne
    rw [htext]
    refine ⟨rfl, fun loc => ?_, fun hwalks => ?_, fun t ht => by cases ht⟩
    · exact (lexical_skip loc (Or.inr rfl)).trans (List.reverse_reverse loc).symm
    · cases hwalks with
      | here hopen hrest => exact hrest
      | enter _ hhere => exact absurd rfl hhere
      | link _ hhere => exact absurd rfl hhere
  · rw [if_neg (by simpa using hne)] at htext
    rw [htext, steps_joinWith hne h, Text.splitOn_joinWith hne fun t ht => (h t ht).2]
    exact ⟨isRooted_joinWith hne h, fun loc => rfl, fun hwalks => hwalks,
      fun t ht b hb => mem_joinWith ht hb⟩

/-- **A clean path that leads somewhere, made absolute, is a directory that is there and then the
names that are walked from it.** -/
theorem exists_walks_absolute {fs : FileSystem} (hfs : fs.Proper) {u : Text} {loc : Location}
    (h : fs.resolve true (clean u) = .ok loc) :
    ∃ base names k mode, absolute (textOf fs.current) (clean u) = textOf (base ++ names)
      ∧ (∀ t ∈ base ++ names, IsElement t) ∧ (∀ t ∈ base ++ names, 0 ∉ t)
      ∧ fs.node? base = some (.directory mode) ∧ Walks fs base names k loc ∧ k ≤ maxLinks := by
  obtain ⟨hzero, hwalk⟩ := resolve_eq_ok h
  obtain ⟨own, hcurrent⟩ := hfs.current
  have hcur : ∀ t ∈ fs.current, IsElement t := fun t ht => (hfs.isName hcurrent t ht).toIsElement
  obtain ⟨j, names, helements, hnames, hj⟩ := exists_normal u
  have hslash : ∀ t ∈ names, slash ∉ t := fun t ht => (hnames t ht).slash_not_mem
  by_cases hroot : (ofText u).rooted = true
  · -- at the root there is nothing to go up to
    have htext : clean u = textOf names := by
      rw [clean, toText, show (ofText u).normal.rooted = (ofText u).rooted from rfl, if_pos hroot,
        helements, hj hroot]
      rfl
    rw [htext] at hzero hwalk ⊢
    have hrooted : isRooted (textOf names) = true := rfl
    rw [if_pos hrooted, steps_textOf fun t ht => ⟨(hnames t ht).ne_nil, hslash t ht⟩] at hwalk
    obtain ⟨k, hk, hwalks⟩ := exists_walks hwalk
    obtain ⟨mode, hmode⟩ := hfs.directory_of_append
      (show fs.node? ([] ++ fs.current) = _ from hcurrent)
    refine ⟨[], names, k, mode, ?_, hnames, fun t ht hmem => ?_, hmode, hwalks, hk⟩
    · rw [absolute_textOf hcur, if_pos hrooted, splitOn_textOf_foldl hslash,
        lexical_elements [] hnames]
    · exact hzero (List.mem_cons_of_mem _ (mem_joinWith ht hmem))
  · have hsteps : ∀ t ∈ (ofText u).normal.elements, t ≠ [] ∧ slash ∉ t := by
      intro t ht
      rw [helements] at ht
      rcases List.mem_append.1 ht with ht | ht
      · rw [List.eq_of_mem_replicate ht]
        decide
      · exact ⟨(hnames t ht).ne_nil, hslash t ht⟩
    obtain ⟨hrelative, hlexical, hclean, hbytes⟩ := clean_relative (by simpa using hroot) hsteps
    rw [helements] at hlexical hclean hbytes
    rw [hrelative] at hwalk
    obtain ⟨k, hk, hwalks⟩ := exists_walks hwalk
    obtain ⟨base, hbase, hplace, hfrom⟩ := exists_base hcur hnames (hclean hwalks)
    obtain ⟨rest, hrest⟩ := hbase
    obtain ⟨mode, hmode⟩ := hfs.directory_of_append (hrest ▸ hcurrent)
    refine ⟨base, names, k, mode, ?_, ?_, ?_, hmode, hfrom, hk⟩
    · rw [absolute_textOf hcur, hrelative, ← hplace, ← hlexical]
      rfl
    · intro t ht
      rcases List.mem_append.1 ht with ht | ht
      · exact (hfs.isName hmode t ht).toIsElement
      · exact hnames t ht
    · intro t ht
      rcases List.mem_append.1 ht with ht | ht
      · exact (hfs.isName hmode t ht).zero_not_mem
      · exact fun hmem => hzero (hbytes t (List.mem_append_right _ ht) 0 hmem)

end FileSystem

/-! ## Opened worktrees -/

namespace Git

open CrateBump.FileSystem CrateBump.Path

/-- What is known of a worktree that was opened: where its top is, and that it can be searched. -/
structure Opened (fs : FileSystem) (wt : Worktree) : Prop where
  root : ∃ names k, wt.root = textOf names ∧ (∀ t ∈ names, IsElement t) ∧ k ≤ maxLinks
    ∧ Walks fs [] names k wt.top
  top : fs.obstacle? wt.top = none

theorem isElement_gitName : IsElement gitName :=
  ⟨by decide, by decide, by decide, by decide⟩

theorem below_gitName {names : List Text} (h : ∀ t ∈ names, IsElement t) :
    below (textOf names) gitName = textOf (names ++ [gitName]) :=
  below_textOf h (List.cons_ne_nil gitName []) fun _ ht => List.mem_singleton.1 ht ▸ isElement_gitName

/-- A directory with a `.git` entry can be walked to and searched. -/
theorem exists_walks_of_stat {fs : FileSystem} {names : List Text} (h : ∀ t ∈ names, IsElement t)
    {node : Node} (hstat : fs.stat (below (textOf names) gitName) = .ok node) :
    ∃ k top, k ≤ maxLinks ∧ Walks fs [] names k top ∧ fs.obstacle? top = none := by
  have hsteps : ∀ t ∈ names ++ [gitName], t ≠ [] ∧ slash ∉ t := by
    intro t ht
    have helement : IsElement t := by
      rcases List.mem_append.1 ht with ht | ht
      · exact h t ht
      · exact List.mem_singleton.1 ht ▸ isElement_gitName
    exact ⟨helement.ne_nil, helement.slash_not_mem⟩
  rw [below_gitName h, stat] at hstat
  split at hstat
  · cases hstat
  next loc hresolve =>
  have hwalk := (resolve_eq_ok hresolve).2
  rw [show isRooted (textOf (names ++ [gitName])) = true from rfl, if_pos rfl,
    steps_textOf hsteps] at hwalk
  obtain ⟨k, hk, hwalks⟩ := exists_walks hwalk
  obtain ⟨i, j, top, htop, hgit, hsum⟩ := hwalks.exists_split
  refine ⟨i, top, by omega, htop, ?_⟩
  cases hgit with
  | enter hopen => exact hopen
  | link hopen => exact hopen

theorem exists_of_map_eq_ok {ε α β : Type} {f : α → β} {x : Except ε α} {b : β}
    (h : x.map f = .ok b) : ∃ a, x = .ok a ∧ f a = b := by
  cases x with
  | error e => cases h
  | ok a => exact ⟨a, rfl, Except.ok.inj h⟩

/-- The directory that is found upwards is given by some of the names, and has a `.git` entry. -/
theorem searchUpwards_eq_ok {fs : FileSystem} {names : List Text} (h : ∀ t ∈ names, IsElement t)
    {data dir : Text} (hsearch : searchUpwards fs names = .ok (some (data, dir))) :
    ∃ found, dir = textOf found ∧ (∀ t ∈ found, IsElement t)
      ∧ ∃ node, fs.stat (below dir gitName) = .ok node := by
  induction names with
  | nil =>
    rw [searchUpwards] at hsearch
    split at hsearch
    · next node hstat =>
      obtain ⟨_, -, heq⟩ := exists_of_map_eq_ok hsearch
      obtain ⟨-, rfl⟩ := Prod.mk.inj (Option.some.inj heq)
      exact ⟨[], rfl, by simp, node, hstat⟩
    · split at hsearch <;> cases hsearch
  | cons name parents ih =>
    have hparents : ∀ t ∈ parents, IsElement t := fun t ht => h t (List.mem_cons_of_mem _ ht)
    rw [searchUpwards] at hsearch
    split at hsearch
    · cases hsearch
    next dir' hdir =>
    -- the directory is the one that was asked about, or the one above it
    have hnames : ∃ found, dir' = textOf found ∧ ∀ t ∈ found, IsElement t := by
      split at hdir
      · obtain rfl := Except.ok.inj hdir
        exact ⟨_, rfl, fun t ht => h t (List.mem_reverse.1 ht)⟩
      · obtain rfl := Except.ok.inj hdir
        exact ⟨_, rfl, fun t ht => hparents t (List.mem_reverse.1 ht)⟩
      · split at hdir
        · obtain rfl := Except.ok.inj hdir
          exact ⟨_, rfl, fun t ht => h t (List.mem_reverse.1 ht)⟩
        · cases hdir
    split at hsearch
    · next node hstat =>
      obtain ⟨_, -, heq⟩ := exists_of_map_eq_ok hsearch
      obtain ⟨-, rfl⟩ := Prod.mk.inj (Option.some.inj heq)
      obtain ⟨found, rfl, hfound⟩ := hnames
      exact ⟨found, rfl, hfound, node, hstat⟩
    · split at hsearch
      · exact ih hparents hsearch
      · cases hsearch

/-- **A worktree that was opened.** -/
theorem opened_of_openWorktree {host : Host} {fs : FileSystem} {dir : Text} {wt : Worktree}
    (h : openWorktree host fs dir = .ok wt) : Opened fs wt := by
  unfold openWorktree at h
  split at h
  · cases h
  · cases h
  next data found hfind =>
  split at h
  · cases h
  split at h
  · cases h
  split at h
  · next gitDir top hdata htop =>
    obtain rfl := Except.ok.inj h
    obtain ⟨start, hstart, hsearch⟩ : ∃ start : List Text, (∀ t ∈ start, IsElement t)
        ∧ searchUpwards fs start.reverse = .ok (some (data, found)) := by
      unfold findWorktree at hfind
      split at hfind
      · cases hfind
      split at hfind
      · cases hfind
      next target htarget =>
      obtain ⟨start, rfl, hstart⟩ := exists_elements_absolutePath htarget
      rw [steps_textOf fun t ht => ⟨(hstart t ht).ne_nil, (hstart t ht).slash_not_mem⟩] at hfind
      exact ⟨start, hstart, hfind⟩
    obtain ⟨names, rfl, hnames, node, hstat⟩ :=
      searchUpwards_eq_ok (fun t ht => hstart t (List.mem_reverse.1 ht)) hsearch
    obtain ⟨k, top', hk, hwalks, hopen⟩ := exists_walks_of_stat hnames hstat
    -- the walk that found the `.git` entry passed the same top
    have hsame : top' = top := by
      unfold realLocation at htop
      split at htop
      · cases htop
      rw [steps_textOf fun t ht => ⟨(hnames t ht).ne_nil, (hnames t ht).slash_not_mem⟩] at htop
      obtain ⟨k', -, hreal⟩ := exists_walks htop
      exact hwalks.stop_unique hreal
    subst hsame
    exact ⟨⟨names, k, rfl, hnames, hk, hwalks⟩, hopen⟩
  · cases h
  · cases h

namespace Opened

variable {fs : FileSystem} {wt : Worktree} (h : Opened fs wt)
include h

theorem reached : fs.Reached wt.top := by
  obtain ⟨names, k, -, -, -, hwalks⟩ := h.root
  exact hwalks.reached (reached_nil fs)

/-- A path below the root of the worktree is walked from its top, unless it cannot be walked at all. -/
theorem resolve_below {names : List Text} (hne : names ≠ []) (hnames : ∀ t ∈ names, IsElement t) :
    (∃ n, fs.resolve false (below wt.root (Text.joinWith [slash] names))
        = walk fs false n wt.top names)
      ∨ ∃ reason, reason ≠ .notFound
        ∧ fs.resolve false (below wt.root (Text.joinWith [slash] names)) = .error reason := by
  obtain ⟨root, k, hroot, helements, hk, hwalks⟩ := h.root
  have hsteps : ∀ t ∈ root ++ names, t ≠ [] ∧ slash ∉ t := by
    intro t ht
    have helement : IsElement t := by
      rcases List.mem_append.1 ht with ht | ht
      · exact helements t ht
      · exact hnames t ht
    exact ⟨helement.ne_nil, helement.slash_not_mem⟩
  rw [hroot, below_textOf helements hne hnames, resolve]
  split
  · exact Or.inr ⟨.invalid, by decide, rfl⟩
  split
  · next hempty => cases hempty
  split
  · exact Or.inr ⟨.nameTooLong, by decide, rfl⟩
  refine Or.inl ⟨maxLinks - k, ?_⟩
  rw [show isRooted (textOf (root ++ names)) = true from rfl, if_pos rfl, steps_textOf hsteps]
  calc walk fs false maxLinks [] (root ++ names)
      = walk fs false (maxLinks - k + k) [] (root ++ names) := by rw [Nat.sub_add_cancel hk]
    _ = walk fs false (maxLinks - k) wt.top names := hwalks.walk_append (Or.inr hne) _

end Opened

/-! ## Paths that are made absolute -/

/-- A path made absolute leads to where the path itself leads.  A name of the working directory other
than that of its location may bring `..` elsewhere. -/
def InPlace (env : Environment) (fs : FileSystem) (path : Text) : Prop :=
  ∃ target, fs.absolutePath env path = .ok target
    ∧ (target = absolute (textOf fs.current) path
      ∨ ∃ loc, fs.resolve true path = .ok loc ∧ fs.realLocation target = .ok loc)

/-- Where the working directory goes by its location, every path stays in place. -/
theorem inPlace_of_workingDirectory {env : Environment} {fs : FileSystem}
    (h : fs.workingDirectory env = .ok (textOf fs.current)) (path : Text) : InPlace env fs path := by
  by_cases hroot : isRooted path = true
  · refine ⟨_, absolutePath_eq_ok_iff.2 (Or.inl ⟨hroot, rfl⟩), Or.inl ?_⟩
    rw [absolute, ← isRooted, if_pos hroot]
  · refine ⟨_, absolutePath_eq_ok_iff.2 (Or.inr ⟨by simpa using hroot, _, h, rfl⟩), Or.inl rfl⟩

theorem relativeTo_of_real {wt : Worktree} {fs : FileSystem} {target : Text} {loc : Location}
    (h : fs.realLocation target = .ok loc) :
    wt.relativeTo fs target = relative (textOf wt.top) (textOf loc) := by
  simp only [Worktree.relativeTo, h]

theorem relativeTo_of_unreal {wt : Worktree} {fs : FileSystem} {target : Text} {reason : Reason}
    (h : fs.realLocation target = .error reason) :
    wt.relativeTo fs target = relative (textOf wt.top) target := by
  simp only [Worktree.relativeTo, h]

theorem relativePath_eq_ok_iff {wt : Worktree} {env : Environment} {fs : FileSystem}
    {path relative : Text} :
    wt.relativePath env fs path = .ok relative
      ↔ ∃ target, fs.absolutePath env path = .ok target ∧ wt.relativeTo fs target = relative := by
  unfold Worktree.relativePath
  cases fs.absolutePath env path <;> simp [Except.map]

/-! ## Staging one file -/

/-- A path that the newest commit has was not taken out of the index, unless a status still looks for
it. -/
def StaysTracked (wt : Worktree) (fs : FileSystem) (r : Repository) (path : Text) : Prop :=
  r.headTree.get? path ≠ none → r.index.get? path = none →
    gitName ∉ Text.splitOn slash path ∧ wt.ignores fs path = false

section Staged

variable {wt : Worktree} {fs : FileSystem} {r r' : Repository} {path : Text}

/-- What is only staged is looked for by a status, and is in the index as it is found. -/
theorem found_of_isOnlyStaged (hfs : fs.Proper) (htracked : StaysTracked wt fs r path)
    (h : isOnlyStaged wt fs r path = true) :
    gitName ∉ Text.splitOn slash path
      ∧ (r.index.get? path).map Sight.blob = wt.sightAt? fs path := by
  rw [isOnlyStaged, Bool.and_eq_true, bne_iff_ne, Bool.not_eq_true', ← Bool.not_eq_true,
    List.contains_iff_mem, Worktree.mem_unstaged_iff, not_and, Classical.not_imp] at h
  obtain ⟨hstaged, hseen⟩ := h
  have hgit : gitName ∉ Text.splitOn slash path := by
    intro hgit
    rw [Worktree.get?_snapshot hfs, if_pos hgit] at hseen
    cases hindex : r.index.get? path with
    | some blob =>
      rw [hindex] at hseen
      cases (hseen (by simp)).1
    | none =>
      rw [hindex] at hstaged
      exact (htracked hstaged hindex).1 hgit
  refine ⟨hgit, ?_⟩
  rw [Worktree.get?_snapshot hfs, if_neg hgit] at hseen
  by_contra hne
  obtain ⟨hindex, hignored⟩ := hseen hne
  rw [hindex] at hstaged
  exact hignored (htracked hstaged hindex).2

/-- Staging a path gets through only if there is a status and the path does not lead out of the
worktree; then what stands there is a directory, or was staged before, or is recorded. -/
theorem stage_eq_ok (h : stage wt fs r path = .ok r') :
    wt.statusError? fs r.index = none ∧ Text.startsWith (up ++ [slash]) path = false
      ∧ ((∃ mode, fs.lstat (below wt.root path) = .ok (.directory mode))
        ∨ (isOnlyStaged wt fs r path = true ∧ r' = r)
        ∨ ∃ index, stageFile wt fs r.index path = .ok index
          ∧ r' = { r with index := index }) := by
  obtain ⟨index, hindex, rfl⟩ := exists_of_map_eq_ok h
  unfold stagedIndex at hindex
  split at hindex
  · cases hindex
  next hstatus =>
  split at hindex
  · cases hindex
  next hinside =>
  refine ⟨hstatus, by simpa using hinside, ?_⟩
  split at hindex
  · next mode hdirectory => exact Or.inl ⟨mode, hdirectory⟩
  · split at hindex
    · next honly =>
      obtain rfl := Except.ok.inj hindex
      exact Or.inr (Or.inl ⟨honly, rfl⟩)
    · exact Or.inr (Or.inr ⟨index, hindex, rfl⟩)

/-- Nothing is done about a file that is only staged. -/
theorem stage_of_isOnlyStaged (hstatus : wt.statusError? fs r.index = none)
    (hinside : Text.startsWith (up ++ [slash]) path = false)
    (hfile : ∀ mode, fs.lstat (below wt.root path) ≠ .ok (.directory mode))
    (h : isOnlyStaged wt fs r path = true) : stage wt fs r path = .ok r := by
  have hindex : stagedIndex wt fs r path = .ok r.index := by
    unfold stagedIndex
    rw [hstatus]
    dsimp only
    rw [if_neg (by simp [hinside])]
    split
    · next mode hdirectory => exact absurd hdirectory (hfile mode)
    · rw [if_pos h]
  rw [stage, hindex]
  rfl

/-- Recording gets through only where the path can be walked or leads nowhere, and records the file
there. -/
theorem stageFile_eq_ok {index index' : Snapshot} (h : stageFile wt fs index path = .ok index') :
    (∀ reason, fs.resolve false (below wt.root path) = .error reason → reason = .notFound)
      ∧ ∀ loc mode content, fs.resolve false (below wt.root path) = .ok loc →
          fs.node? loc = some (.file mode content) →
          mode.canRead = true ∧ index' = index.put path (.file mode.isExecutable content) := by
  unfold stageFile at h
  dsimp only at h
  constructor
  · intro reason hreason
    simp only [lstat, hreason] at h
    split at h
    · cases h
    · next hfound => exact not_not.1 hfound
  · intro loc mode content hloc hnode
    simp only [lstat, hloc, hnode] at h
    split at h
    · next hread => exact ⟨hread, (Except.ok.inj h).symm⟩
    · cases h

end Staged

section Manifest

variable {fs : FileSystem} {wt : Worktree} {r r' : Repository}

/-- The directories that lead to a directory of the worktree can be searched, if there is a status. -/
theorem reached_of_status (hfs : fs.Proper) (hopened : Opened fs wt) {index : Snapshot}
    (hstatus : wt.statusError? fs index = none) {names : List Text} {node : Node}
    (hgit : gitName ∉ names) (hnode : fs.node? (wt.top ++ names) = some node) :
    fs.Reached (wt.top ++ names) := by
  intro above hpre hne
  rcases List.prefix_or_prefix_of_prefix hpre (List.prefix_append wt.top names) with hle | hle
  · by_cases htop : above = wt.top
    · exact htop ▸ hopened.top
    · exact hopened.reached above hle htop
  obtain ⟨mid, rfl⟩ := hle
  obtain ⟨rest, rfl⟩ := (List.prefix_append_right_inj wt.top).1 hpre
  cases rest with
  | nil => exact absurd (by rw [List.append_nil]) hne
  | cons name rest =>
    -- the directory is not empty, so it can be searched
    obtain ⟨mode, hdirectory⟩ := hfs.directory_above (List.cons_ne_nil name rest)
      (show fs.node? (wt.top ++ mid ++ name :: rest) = some node by rw [List.append_assoc, hnode])
    obtain ⟨child, hchild⟩ : ∃ child, fs.node? (wt.top ++ mid ++ [name]) = some child := by
      have hsplit : wt.top ++ (mid ++ name :: rest) = wt.top ++ mid ++ [name] ++ rest := by simp
      cases rest with
      | nil => exact ⟨node, by rw [← hnode, hsplit, List.append_nil]⟩
      | cons first rest =>
        obtain ⟨mode, hmode⟩ := hfs.directory_above (List.cons_ne_nil first rest)
          (show fs.node? (wt.top ++ mid ++ [name] ++ first :: rest) = some node by
            rw [← hsplit, hnode])
        exact ⟨_, hmode⟩
    have hlistable := ((Worktree.statusError?_eq_none_iff hfs).1 hstatus).2 mid mode
      (fun hmem => hgit (List.mem_append_left _ hmem)) hdirectory
    refine obstacle?_eq_none_iff.2 ⟨mode, hdirectory, hlistable.search.resolve_right fun hnone => ?_⟩
    rw [hnone] at hchild
    cases hchild

/-- A directory above the current one whose files can be staged can be walked to from the root. -/
theorem walks_of_staged (hfs : fs.Proper) (hopened : Opened fs wt) {base names : List Text}
    {mode : Mode} (hbase : fs.node? base = some (.directory mode))
    (helements : ∀ t ∈ base ++ names, IsElement t)
    (htracked : StaysTracked wt fs r (relative (textOf wt.top) (textOf (base ++ names))))
    (hstage : stage wt fs r (relative (textOf wt.top) (textOf (base ++ names))) = .ok r') :
    Walks fs [] base 0 base := by
  have hnolink : ∀ target, Node.directory mode ≠ .link target := by simp
  -- above the top of the worktree everything can be searched
  have habove : base <+: wt.top → Walks fs [] base 0 base := by
    intro hpre
    exact walks_from_root hfs (hopened.reached.of_above hpre) hbase hnolink
  obtain ⟨own, hown, -⟩ := obstacle?_eq_none_iff.1 hopened.top
  have htop : ∀ t ∈ wt.top, IsElement t := fun t ht => (hfs.isName hown t ht).toIsElement
  obtain ⟨hstatus, hinside, hstaged⟩ := stage_eq_ok hstage
  by_cases hpre : wt.top <+: base ++ names
  · rcases List.prefix_or_prefix_of_prefix hpre (List.prefix_append base names) with hle | hle
    · obtain ⟨mid, rfl⟩ := hle
      by_cases hne : mid ++ names = []
      · obtain ⟨rfl, rfl⟩ := List.append_eq_nil_iff.1 hne
        exact habove (by simp)
      have hrest : ∀ t ∈ mid ++ names, IsElement t := fun t ht =>
        helements t (by rw [List.append_assoc]; exact List.mem_append_right _ ht)
      rw [List.append_assoc, relative_below htop hrest hne] at htracked hstaged
      rcases walks_or_denied hfs hbase with hwalks | hdenied
      · exact (walks_from_root hfs hopened.reached hown (by simp)).append hwalks
      -- recording would have met the directory that cannot be searched
      have hfound : ¬ ∀ reason, fs.resolve false (below wt.root (Text.joinWith [slash]
          (mid ++ names))) = .error reason → reason = .notFound := by
        intro hfound
        rcases hopened.resolve_below hne hrest with ⟨n, hresolve⟩ | ⟨reason, hreason, hresolve⟩
        · rw [hdenied] at hresolve
          cases hfound _ hresolve
        · exact hreason (hfound _ hresolve)
      rcases hstaged with ⟨_, hlstat⟩ | ⟨honly, -⟩ | ⟨index, hindex, -⟩
      · refine absurd (fun reason hreason => ?_) hfound
        simp only [lstat, hreason] at hlstat
        cases hlstat
      · have hgit := (found_of_isOnlyStaged hfs htracked honly).1
        rw [Text.splitOn_joinWith hne fun t ht => (hrest t ht).slash_not_mem] at hgit
        exact walks_from_root hfs (reached_of_status hfs hopened hstatus
          (fun hmem => hgit (List.mem_append_left _ hmem)) hbase) hbase hnolink
      · exact absurd (stageFile_eq_ok hindex).1 hfound
    · exact habove hle
  · rcases relative_elsewhere htop helements hpre with houtside | ⟨name, hname⟩
    · rw [houtside] at hinside
      cases hinside
    · refine habove ((List.prefix_append base names).trans ?_)
      rw [hname]
      exact List.prefix_append _ _

/-- The absolute form of a path that stays in place leads to where the path leads, if it can be
staged. -/
theorem real_of_staged (hfs : fs.Proper) (hopened : Opened fs wt) {env : Environment} {u : Text}
    {loc : Location} (hloc : fs.resolve true (clean u) = .ok loc)
    (hplace : InPlace env fs (clean u)) {path : Text}
    (hpath : wt.relativePath env fs (clean u) = .ok path) (htracked : StaysTracked wt fs r path)
    (hstage : stage wt fs r path = .ok r') :
    fs.Reached loc ∧ path = relative (textOf wt.top) (textOf loc) := by
  obtain ⟨target, htarget, hplace⟩ := hplace
  obtain ⟨target', htarget', rfl⟩ := relativePath_eq_ok_iff.1 hpath
  obtain rfl : target' = target := Except.ok.inj (htarget'.symm.trans htarget)
  have hreached : ∀ {loc}, fs.realLocation target' = .ok loc → fs.Reached loc := by
    intro loc hreal
    unfold realLocation at hreal
    split at hreal
    · cases hreal
    · obtain ⟨k, -, hwalks⟩ := exists_walks hreal
      exact hwalks.reached (reached_nil fs)
  rcases hplace with rfl | ⟨loc', hloc', hreal⟩
  · obtain ⟨base, rest, k, own, habsolute, helements, hzero, hbase, hwalks, hk⟩ :=
      exists_walks_absolute hfs hloc
    rw [habsolute] at hstage htracked hreached ⊢
    have hreal : fs.realLocation (textOf (base ++ rest))
        = walk fs true maxRealLinks [] (base ++ rest) := by
      rw [realLocation, if_neg (by simpa using zero_not_mem_textOf hzero), steps_textOf fun t ht =>
        ⟨(helements t ht).ne_nil, (helements t ht).slash_not_mem⟩]
    have hbaseWalks : Walks fs [] base 0 base := by
      rcases walks_or_denied hfs (show fs.node? ([] ++ base) = _ from hbase) with
        hbaseWalks | hdenied
      · exact hbaseWalks
      · rw [hdenied] at hreal
        rw [relativeTo_of_unreal hreal] at hstage htracked
        exact walks_of_staged hfs hopened hbase helements htracked hstage
    have hlocation : fs.realLocation (textOf (base ++ rest)) = .ok loc := by
      rw [hreal]
      exact (hbaseWalks.append hwalks).walk_eq (Nat.le_trans hk (by decide))
    exact ⟨hreached hlocation, relativeTo_of_real hlocation⟩
  · obtain rfl : loc' = loc := Except.ok.inj (hloc'.symm.trans hloc)
    exact ⟨hreached hreal, relativeTo_of_real hreal⟩

/-- **Staging the file that a clean path leads to records its content and whether it is executable,
under the names that lead to it from the top of the worktree.** -/
theorem stage_of_file (hfs : fs.Proper) (hopened : Opened fs wt) {env : Environment}
    {u content : Text} {loc : Location} {mode : Mode} (hloc : fs.resolve true (clean u) = .ok loc)
    (hnode : fs.node? loc = some (.file mode content)) (hplace : InPlace env fs (clean u))
    {path : Text}
    (hpath : wt.relativePath env fs (clean u) = .ok path) (htracked : StaysTracked wt fs r path)
    (hstage : stage wt fs r path = .ok r') :
    ∃ names, names ≠ [] ∧ loc = wt.top ++ names ∧ path = Text.joinWith [slash] names
      ∧ mode.canRead = true ∧ r'.commits = r.commits ∧ r'.tags = r.tags
      ∧ ∀ p, r'.index.get? p
        = if p = path then some (.file mode.isExecutable content) else r.index.get? p := by
  obtain ⟨hreached, rfl⟩ := real_of_staged hfs hopened hloc hplace hpath htracked hstage
  obtain ⟨topMode, htopNode, -⟩ := obstacle?_eq_none_iff.1 hopened.top
  have htop : ∀ t ∈ wt.top, IsElement t := fun t ht => (hfs.isName htopNode t ht).toIsElement
  have hfile : ∀ t ∈ loc, IsElement t := fun t ht => (hfs.isName hnode t ht).toIsElement
  obtain ⟨-, hinside, hstaged⟩ := stage_eq_ok hstage
  by_cases hpre : wt.top <+: loc
  · obtain ⟨names, rfl⟩ := hpre
    have hne : names ≠ [] := by
      rintro rfl
      rw [List.append_nil, htopNode] at hnode
      cases hnode
    have hnames : ∀ t ∈ names, IsElement t := fun t ht => hfile t (List.mem_append_right _ ht)
    rw [relative_below htop hnames hne] at htracked hstaged ⊢
    have hhistory := sameHistory_stage hstage
    suffices hrecorded : mode.canRead = true ∧ ∀ p, r'.index.get? p
        = if p = Text.joinWith [slash] names then some (.file mode.isExecutable content)
          else r.index.get? p from
      ⟨names, hne, rfl, rfl, hrecorded.1, hhistory.commits, hhistory.tags, hrecorded.2⟩
    have hfound : ∀ place, fs.resolve false (below wt.root (Text.joinWith [slash] names))
        = .ok place → place = wt.top ++ names := by
      intro place hplace
      rcases hopened.resolve_below hne hnames with ⟨n, hresolve⟩ | ⟨reason, -, hresolve⟩
      · rw [(walks_of_reached hfs hreached hnode (by simp)).walk_eq_of_zero, hplace] at hresolve
        exact Except.ok.inj hresolve
      · rw [hplace] at hresolve
        cases hresolve
    rcases hstaged with ⟨dirMode, hlstat⟩ | ⟨honly, rfl⟩ | ⟨index, hindex, rfl⟩
    · unfold lstat at hlstat
      split at hlstat
      · cases hlstat
      next place hplace =>
      rw [hfound place hplace, hnode] at hlstat
      cases hlstat
    · have hindex := (found_of_isOnlyStaged hfs htracked honly).2
      rw [Worktree.sightAt?, Text.splitOn_joinWith hne fun t ht => (hnames t ht).slash_not_mem,
        hnode, Option.bind_some, sightOf?] at hindex
      obtain ⟨blob, hblob, heq⟩ := Option.map_eq_some_iff.1 hindex
      split at heq
      case isFalse => cases heq
      next hread =>
      refine ⟨hread, fun p => ?_⟩
      split
      · next hp => rw [hp, hblob, Sight.blob.inj heq]
      · rfl
    · obtain ⟨hmissing, hrecorded⟩ := stageFile_eq_ok hindex
      rcases hopened.resolve_below hne hnames with ⟨n, hresolve⟩ | ⟨reason, hreason, hresolve⟩
      · rw [(walks_of_reached hfs hreached hnode (by simp)).walk_eq_of_zero] at hresolve
        obtain ⟨hread, rfl⟩ := hrecorded _ mode content hresolve hnode
        exact ⟨hread, fun p => Snapshot.get?_put ..⟩
      · exact absurd (hmissing _ hresolve) hreason
  · rcases relative_elsewhere htop hfile hpre with houtside | ⟨name, hname⟩
    · rw [houtside] at hinside
      cases hinside
    · -- the top of the worktree does not lie below a file
      obtain ⟨fileMode, hdirectory, -⟩ := obstacle?_eq_none_iff.1
        (hopened.reached loc (hname ▸ List.prefix_append _ _) (by rw [hname]; simp))
      rw [hdirectory] at hnode
      cases hnode

end Manifest

end Git

end CrateBump
