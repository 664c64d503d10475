/-
# Worktrees whose manifests were rewritten

Rewriting versions changes what some files contain and nothing else.  A worktree is found through
names, and through the first line of a `.git` file at most, which no version is ever declared on; so
the worktree found afterwards is the one found before (`Rewrites.openWorktree_unique`).  Ignore
patterns are read off files: they stay unless a manifest is such a file itself
(`Rewrites.ignorePatterns_eq`).
-/
import CrateBump.Git.Release
import CrateBump.Proofs.Walks
import CrateBump.Proofs.WriteLoop

namespace CrateBump

/-! ## The first line of a manifest -/

theorem dropLead?_line {lead line : Text} (hlead : lineFeed ∉ lead) (rest : Text) :
    Text.dropLead? lead (line ++ lineFeed :: rest)
      = (Text.dropLead? lead line).map (· ++ lineFeed :: rest) := by
  induction lead generalizing line with
  | nil => rfl
  | cons a lead ih =>
    rw [List.mem_cons, not_or] at hlead
    cases line with
    | nil => simp [Text.dropLead?, Ne.symm hlead.1]
    | cons b line =>
      rw [List.cons_append, Text.dropLead?, Text.dropLead?]
      split
      · exact ih hlead.2
      · rfl

theorem takeWhile_line {line : Text} (h : lineFeed ∉ line) (rest : Text) :
    (line ++ lineFeed :: rest).takeWhile (· != lineFeed) = line := by
  have hline : ∀ b ∈ line, (b != lineFeed) = true := by
    intro b hb
    rw [bne_iff_ne]
    rintro rfl
    exact h hb
  rw [List.takeWhile_append_of_pos hline]
  simp

/-- What stands behind a mark on the first line is decided by that line. -/
theorem firstLine_append {lead line : Text} (hlead : lineFeed ∉ lead) (hline : lineFeed ∉ line)
    (rest : Text) :
    (Text.dropLead? lead (line ++ lineFeed :: rest)).map (·.takeWhile (· != lineFeed))
      = Text.dropLead? lead line := by
  rw [dropLead?_line hlead]
  cases hdrop : Text.dropLead? lead line with
  | none => rfl
  | some behind =>
    have hbehind : lineFeed ∉ behind := by
      rw [Text.dropLead?_eq_some_iff.1 hdrop, List.mem_append, not_or] at hline
      exact hline.2
    rw [Option.map_some, Option.map_some, takeWhile_line hbehind]

/-- A manifest that starts like a `.git` file declares its version behind the first line. -/
theorem gitdir_line_fill {content : Text} {site : VersionSite}
    (h : findVersion? content = some site) (v : Text) :
    (Text.dropLead? Git.gitdirMark (site.fill v)).map (·.takeWhile (· != lineFeed))
      = (Text.dropLead? Git.gitdirMark content).map (·.takeWhile (· != lineFeed)) := by
  obtain ⟨d, hd, rfl, rfl⟩ := findVersion?_eq_some_iff.1 h
  rw [d.fill_site]
  have hmark : lineFeed ∉ Git.gitdirMark := by decide
  cases hpreamble : d.preamble with
  | nil =>
    -- the package header starts the text, and the mark does not start like one
    obtain ⟨a, ha, hheader⟩ := hd.header_form
    have hnone : ∀ t, Text.dropLead? Git.gitdirMark (d.header ++ t) = none := by
      intro t
      rw [hheader]
      cases a with
      | nil => rfl
      | cons b a =>
        have hb : Text.isBlank b = true := ha b List.mem_cons_self
        have hne : (103 : UInt8) ≠ b := by
          rintro rfl
          exact absurd hb (by decide)
        exact if_neg hne
    rw [Declaration.text, Declaration.text, show (d.withVersion v).preamble = d.preamble from rfl,
      hpreamble]
    exact (congrArg _ (hnone _)).trans (congrArg _ (hnone _)).symm
  | cons b preamble =>
    -- the first line ends before the header
    have hmem : lineFeed ∈ d.preamble := by
      obtain ⟨line, hline⟩ := exists_eq_append_lineFeed (hpreamble ▸ hd.preamble_fresh)
      rw [hpreamble, hline]
      simp
    obtain ⟨line, rest, hsplit, hline⟩ := List.eq_append_cons_of_mem hmem
    have hfirst : ∀ t, (Text.dropLead? Git.gitdirMark (d.preamble ++ t)).map
        (·.takeWhile (· != lineFeed)) = Text.dropLead? Git.gitdirMark line := by
      intro t
      rw [hsplit, List.append_assoc, List.cons_append, firstLine_append hmark hline]
    exact (hfirst _).trans (hfirst _).symm

/-- Reading ignore patterns below a location may read the file at `loc`. -/
def Git.IsPatternFile (fs : FileSystem) (top loc : Location) : Prop :=
  ∃ domain file, (file = ascii ".gitignore" ∨ file = ascii ".git/info/exclude")
    ∧ fs.resolve true (FileSystem.textOf (top ++ domain) ++ [slash] ++ file) = .ok loc

/-- Where no file is named like a file of patterns, none is one. -/
theorem Git.not_isPatternFile {fs : FileSystem}
    (h : ∀ entry ∈ fs.nodes, entry.1.getLast? ≠ some (ascii ".gitignore")
      ∧ entry.1.getLast? ≠ some (ascii "exclude")) (top loc : Location) :
    ¬ IsPatternFile fs top loc := by
  rintro ⟨domain, file, hfile, hresolve⟩
  obtain ⟨dirs, last, hlast, hnames, rfl⟩ : ∃ dirs last,
      (last = ascii ".gitignore" ∨ last = ascii "exclude")
        ∧ (∀ t ∈ dirs ++ [last], t ≠ [] ∧ slash ∉ t)
        ∧ file = Text.joinWith [slash] (dirs ++ [last]) := by
    rcases hfile with rfl | rfl
    · exact ⟨[], _, Or.inl rfl, by decide, by decide⟩
    · exact ⟨[ascii ".git", ascii "info"], _, Or.inr rfl, by decide, by decide⟩
  -- the walk ends with a step to a node of the last name
  have hwalk := (FileSystem.resolve_eq_ok hresolve).2
  rw [FileSystem.steps_append _ (by simp) hnames, ← List.append_assoc] at hwalk
  obtain ⟨k, -, hwalks⟩ := FileSystem.exists_walks hwalk
  obtain ⟨i, j, dir, hdirs, hstep, -⟩ := hwalks.exists_split
  obtain ⟨node, hnode⟩ : ∃ node, fs.node? (dir ++ [last]) = some node := by
    cases hstep with
    | here => rcases hlast with hlast | hlast <;> exact absurd hlast (by decide)
    | up => rcases hlast with hlast | hlast <;> exact absurd hlast (by decide)
    | enter _ _ _ _ hnode => exact ⟨_, hnode⟩
    | link _ _ _ _ hnode => exact ⟨_, hnode⟩
  obtain ⟨hignore, hexclude⟩ := h _ (mem_of_lookup hnode)
  rw [List.getLast?_concat] at hignore hexclude
  rcases hlast with rfl | rfl
  · exact hignore rfl
  · exact hexclude rfl

/-! ## Reading rewritten files -/

namespace FileSystem.SameShape

variable {fs gs : FileSystem} (h : fs.SameShape gs)
include h

theorem realLocation_eq (path : Text) : gs.realLocation path = fs.realLocation path := by
  rw [realLocation, realLocation, h.walk_eq]

/-- A path leads to the same node, or to two files. -/
theorem stat_eq_or (path : Text) :
    gs.stat path = fs.stat path
      ∨ ∃ mode c c', fs.stat path = .ok (.file mode c) ∧ gs.stat path = .ok (.file mode c') := by
  unfold stat
  rw [h.resolve_eq]
  cases fs.resolve true path with
  | error reason => exact Or.inl rfl
  | ok loc =>
    dsimp only
    rcases h.node loc with heq | ⟨mode, c, c', hfs, hgs⟩
    · exact Or.inl (by rw [heq])
    · exact Or.inr ⟨mode, c, c', by rw [hfs], by rw [hgs]⟩

theorem workingDirectory_eq (env : Environment) :
    gs.workingDirectory env = fs.workingDirectory env := by
  unfold workingDirectory
  dsimp only
  rw [h.current, h.resolve_eq]
  rcases h.stat_eq_or Path.here with heq | ⟨mode, c, c', hfs, hgs⟩
  · rw [heq]
  · rw [hfs, hgs]
    cases fs.resolve true (env.get (ascii "PWD")) <;> rfl

theorem absolutePath_eq (env : Environment) (path : Text) :
    gs.absolutePath env path = fs.absolutePath env path := by
  rw [absolutePath, absolutePath, h.workingDirectory_eq]

theorem relativePath_eq (wt : Git.Worktree) (env : Environment) (path : Text) :
    wt.relativePath env gs path = wt.relativePath env fs path := by
  have hrelative : wt.relativeTo gs = wt.relativeTo fs := by
    funext target
    rw [Git.Worktree.relativeTo, Git.Worktree.relativeTo, h.realLocation_eq]
  rw [Git.Worktree.relativePath, Git.Worktree.relativePath, h.absolutePath_eq, hrelative]

theorem relativePaths_eq (wt : Git.Worktree) (env : Environment) (paths : List Text) :
    Git.relativePaths wt env gs paths = Git.relativePaths wt env fs paths := by
  induction paths with
  | nil => rfl
  | cons path rest ih => rw [Git.relativePaths, Git.relativePaths, h.relativePath_eq, ih]

theorem proper (hnodes : gs.nodes.map Prod.fst = fs.nodes.map Prod.fst) (hfs : fs.Proper) :
    gs.Proper where
  nodup := hnodes ▸ hfs.nodup
  parent := by
    have hdirectory : ∀ {loc mode}, fs.node? loc = some (.directory mode) →
        gs.node? loc = some (.directory mode) := by
      intro loc mode hnode
      rcases h.node loc with heq | ⟨_, _, _, hfile, -⟩
      · rw [heq, hnode]
      · rw [hnode] at hfile
        cases hfile
    intro loc name node hnode
    have hbefore : ∃ node, fs.node? (loc ++ [name]) = some node := by
      rcases h.node (loc ++ [name]) with heq | ⟨mode, c, _, hfile, -⟩
      · exact ⟨node, heq ▸ hnode⟩
      · exact ⟨_, hfile⟩
    obtain ⟨node', hnode'⟩ := hbefore
    obtain ⟨hname, mode, hparent⟩ := hfs.parent loc name node' hnode'
    exact ⟨hname, mode, hdirectory hparent⟩
  current := by
    obtain ⟨mode, hmode⟩ := hfs.current
    rcases h.node fs.current with heq | ⟨_, _, _, hfile, -⟩
    · exact ⟨mode, by rw [h.current, heq, hmode]⟩
    · rw [hmode] at hfile
      cases hfile

end FileSystem.SameShape

namespace Rewrites

open Git

variable {ws : Workspace} {fs gs : FileSystem} {changes : List Change}
  (h : Rewrites ws fs changes gs)
include h

/-- A file that none of the manifests is is read as before. -/
theorem readFile_of_untouched {path : Text}
    (huntouched : ∀ c ∈ changes, ∀ loc, fs.resolve true (ws.manifestPath c.member) = .ok loc →
      fs.resolve true path ≠ .ok loc) : gs.readFile path = fs.readFile path := by
  unfold FileSystem.readFile
  rw [h.sameShape.resolve_eq]
  cases hresolve : fs.resolve true path with
  | error reason => rfl
  | ok loc =>
    have hnode : gs.node? loc = fs.node? loc := by
      apply h.untouched
      intro c hc hloc
      exact huntouched c hc loc hloc hresolve
    simp only [hnode]

/-- A file is read as before, or it is a manifest. -/
theorem readFile_eq_or (path : Text) :
    gs.readFile path = fs.readFile path
      ∨ ∃ content site v, findVersion? content = some site ∧ fs.readFile path = .ok content
        ∧ gs.readFile path = .ok (site.fill v) := by
  by_cases hmanifest : ∃ c ∈ changes, ∃ loc, fs.resolve true (ws.manifestPath c.member) = .ok loc
      ∧ fs.resolve true path = .ok loc
  · obtain ⟨c, hc, loc, hloc, hpath⟩ := hmanifest
    obtain ⟨loc', mode, site, hloc', hfind, hbefore, hafter⟩ := h.rewritten c hc
    rw [hloc] at hloc'
    obtain rfl := Except.ok.inj hloc'
    by_cases hread : mode.canRead = true
    · refine Or.inr ⟨_, site, c.newVersion, hfind, ?_, ?_⟩
      · exact FileSystem.readFile_eq_ok_iff.2 ⟨loc, mode, hpath, hbefore, hread⟩
      · refine FileSystem.readFile_eq_ok_iff.2 ⟨loc, mode, ?_, hafter, hread⟩
        rw [h.sameShape.resolve_eq, hpath]
    · left
      simp only [FileSystem.readFile, h.sameShape.resolve_eq, hpath, hbefore, hafter, if_neg hread]
  · refine Or.inl (h.readFile_of_untouched fun c hc loc hloc hpath => ?_)
    exact hmanifest ⟨c, hc, loc, hloc, hpath⟩

/-! ## Finding the worktree -/

/-- A `.git` entry stands for the same data directory. -/
theorem dataPath_eq (path dir : Text) {node node' : Node}
    (hkind : node' = node ∨ ∃ mode c c', node = .file mode c ∧ node' = .file mode c') :
    dataPath gs path dir node' = dataPath fs path dir node := by
  have hfile : ∀ (mode : Mode) (c c' : Text),
      dataPath gs path dir (.file mode c') = dataPath fs path dir (.file mode c) := by
    intro mode c c'
    rw [dataPath, dataPath]
    · rcases h.readFile_eq_or (below dir gitName) with heq | ⟨content, site, v, hfind, hfs, hgs⟩
      · rw [heq]
      · have hline := gitdir_line_fill hfind v
        rw [hfs, hgs]
        dsimp only
        cases hbefore : Text.dropLead? gitdirMark content with
        | none =>
          rw [hbefore, Option.map_none, Option.map_eq_none_iff] at hline
          rw [hline]
        | some rest =>
          rw [hbefore, Option.map_some] at hline
          obtain ⟨rest', hafter, hsame⟩ := Option.map_eq_some_iff.1 hline
          rw [hafter]
          dsimp only
          rw [hsame]
    all_goals simp
  rcases hkind with rfl | ⟨mode, c, c', rfl, rfl⟩
  · cases node' with
    | directory mode => rfl
    | file mode c => exact hfile mode c c
    | link target => exact hfile 0 [] []
  · exact hfile mode c c'

/-- The entry that marks a repository is met before as it is after. -/
theorem stat_gitName (dir : Text) :
    (∃ e, gs.stat (below dir gitName) = .error e ∧ fs.stat (below dir gitName) = .error e)
      ∨ ∃ node node', gs.stat (below dir gitName) = .ok node
        ∧ fs.stat (below dir gitName) = .ok node'
        ∧ ∀ path, dataPath gs path dir node = dataPath fs path dir node' := by
  rcases h.sameShape.stat_eq_or (below dir gitName) with heq | ⟨mode, c, c', hfs, hgs⟩
  · cases hstat : fs.stat (below dir gitName) with
    | error e => exact Or.inl ⟨e, heq.trans hstat, rfl⟩
    | ok node =>
      exact Or.inr ⟨node, node, heq.trans hstat, rfl, fun path => h.dataPath_eq path dir (Or.inl rfl)⟩
  · exact Or.inr ⟨_, _, hgs, hfs, fun path => h.dataPath_eq path dir (Or.inr ⟨mode, c, c', rfl, rfl⟩)⟩

theorem searchUpwards_eq (names : List Text) : searchUpwards gs names = searchUpwards fs names := by
  induction names with
  | nil =>
    rw [searchUpwards, searchUpwards]
    rcases h.stat_gitName (FileSystem.textOf []) with ⟨e, hg, hf⟩ | ⟨node, node', hg, hf, hdata⟩
    · simp only [hg, hf]
    · simp only [hg, hf, hdata]
  | cons name parents ih =>
    rw [searchUpwards, searchUpwards, ih]
    rcases h.sameShape.stat_eq_or (FileSystem.textOf (name :: parents).reverse) with
      heq | ⟨mode, c, c', hfs, hgs⟩
    · rw [heq]
      split
      · rfl
      · next dir _ =>
        rcases h.stat_gitName dir with ⟨e, hg, hf⟩ | ⟨node, node', hg, hf, hdata⟩
        · simp only [hg, hf]
        · simp only [hg, hf, hdata]
    · rw [hfs, hgs]
      dsimp only
      rcases h.stat_gitName (FileSystem.textOf parents.reverse) with
        ⟨e, hg, hf⟩ | ⟨node, node', hg, hf, hdata⟩
      · simp only [hg, hf]
      · simp only [hg, hf, hdata]

/-- **The worktree around a directory stays the same.** -/
theorem openWorktree_unique {host : Host} {dir : Text} {wt wt' : Worktree}
    (hbefore : openWorktree host fs dir = .ok wt) (hafter : openWorktree host gs dir = .ok wt') :
    wt' = wt := by
  have hfind : findWorktree host.env gs dir = findWorktree host.env fs dir := by
    unfold findWorktree
    simp only [h.sameShape.absolutePath_eq, h.searchUpwards_eq]
  unfold openWorktree at hbefore hafter
  rw [hfind] at hafter
  split at hbefore
  · cases hbefore
  · cases hbefore
  next data found hfound =>
  rw [hfound] at hafter
  dsimp only at hafter
  rw [h.sameShape.realLocation_eq, h.sameShape.realLocation_eq] at hafter
  split at hbefore
  · cases hbefore
  split at hbefore
  · cases hbefore
  split at hafter
  · cases hafter
  split at hafter
  · cases hafter
  split at hbefore
  · next gitDir top hdata htop =>
    rw [hdata, htop] at hafter
    rw [← Except.ok.inj hbefore, ← Except.ok.inj hafter]
  · cases hbefore
  · cases hbefore

/-! ## Ignore patterns -/

section Patterns

variable (hnodes : gs.nodes.map Prod.fst = fs.nodes.map Prod.fst)
include hnodes

theorem directoryNames_eq (loc : Location) : directoryNames gs loc = directoryNames fs loc := by
  have hnames : gs.names loc = fs.names loc := by
    have hlast : ∀ hs : FileSystem, hs.names loc
        = Text.sort (Text.distinct ((hs.nodes.map Prod.fst).filterMap fun l =>
            if l.dropLast = loc then l.getLast? else none)) := by
      intro hs
      rw [List.filterMap_map]
      rfl
    rw [hlast, hlast, hnodes]
  rw [directoryNames, directoryNames, hnames]
  apply List.filter_congr
  intro name _
  rcases h.sameShape.node (loc ++ [name]) with heq | ⟨mode, c, c', hfs, hgs⟩
  · rw [heq]
  · rw [hfs, hgs]

/-- **If no manifest is a file of patterns, the patterns stay.** -/
theorem ignorePatterns_eq {top : Location}
    (hnot : ∀ c ∈ changes, ∀ loc, fs.resolve true (ws.manifestPath c.member) = .ok loc →
      ¬ IsPatternFile fs top loc) : ignorePatterns gs top = ignorePatterns fs top := by
  have hin : ∀ domain file, file = ascii ".gitignore" ∨ file = ascii ".git/info/exclude" →
      patternsIn gs top domain file = patternsIn fs top domain file := by
    intro domain file hfile
    rw [patternsIn, patternsIn, h.readFile_of_untouched]
    intro c hc loc hloc hpath
    exact hnot c hc loc hloc ⟨domain, file, hfile, hpath⟩
  have hbelow : ∀ depth domain,
      patternsBelow gs top depth domain = patternsBelow fs top depth domain := by
    intro depth
    induction depth with
    | zero => exact fun _ => rfl
    | succ depth ih =>
      intro domain
      rw [patternsBelow, patternsBelow, hin domain _ (Or.inl rfl), hin domain _ (Or.inr rfl),
        h.directoryNames_eq hnodes]
      simp only [ih]
  have hlength : gs.nodes.length = fs.nodes.length := by
    rw [← List.length_map Prod.fst, hnodes, List.length_map]
  rw [ignorePatterns, ignorePatterns, hlength, hbelow]

end Patterns

end Rewrites

/-! ## Locations -/

theorem map_fst_setVersion (fs : FileSystem) (loc : Location) (v : Text) :
    (fs.setVersion loc v).nodes.map Prod.fst = fs.nodes.map Prod.fst := by
  unfold FileSystem.setVersion
  split
  · rw [FileSystem.setContent, List.map_map]
    rfl
  · rfl

/-- Writing versions makes no node and removes none. -/
theorem map_fst_applyAfter (ws : Workspace) (written : List Text) (fs : FileSystem)
    (writes : List (Text × Text)) :
    (applyAfter ws written fs writes).files.nodes.map Prod.fst = fs.nodes.map Prod.fst := by
  induction writes generalizing written fs with
  | nil => rfl
  | cons e rest ih =>
    obtain ⟨member, v⟩ := e
    rw [applyAfter, Workspace.writeVersion_eq]
    cases ws.versionTarget fs member with
    | error reason => rfl
    | ok loc => exact (ih _ _).trans (map_fst_setVersion fs loc v)

end CrateBump
