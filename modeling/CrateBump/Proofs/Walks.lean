/-
# Walks and the links they follow

A walk is described by a relation that counts the links it follows, so that walks can be put together
and taken apart: the system's own walks are those with few enough links (`exists_walks`,
`Walks.walk_append`).  In a proper file system, where nodes hang below directories, a location that
was walked to from the root is walked to by its own names, without any link (`walks_of_reached`).
-/
import CrateBump.FileSystem.Walk
import CrateBump.Proofs.CleanPaths
import Mathlib.Data.List.Induction
import Mathlib.Data.List.Nodup

namespace CrateBump

namespace FileSystem

/-! ## Proper file systems -/

/-- A name that a node can have. -/
structure IsName (t : Text) : Prop extends Path.IsElement t where
  zero_not_mem : 0 ∉ t
  length_le : t.length ≤ maxName

/-- Each location has one node, the node above it is a directory, and the current directory is one. -/
structure Proper (fs : FileSystem) : Prop where
  nodup : (fs.nodes.map Prod.fst).Nodup
  parent : ∀ loc name node, fs.node? (loc ++ [name]) = some node →
    IsName name ∧ ∃ mode, fs.node? loc = some (.directory mode)
  current : ∃ mode, fs.node? fs.current = some (.directory mode)

/-- Whether a directory stands at a location. -/
def isDirectoryAt (fs : FileSystem) (loc : Location) : Bool :=
  match fs.node? loc with
  | some (.directory _) => true
  | _ => false

/-- There is a directory at a location exactly if its node is one. -/
theorem isDirectoryAt_iff {fs : FileSystem} {loc : Location} :
    fs.isDirectoryAt loc = true ↔ ∃ mode, fs.node? loc = some (.directory mode) := by
  unfold isDirectoryAt
  split
  · next mode hnode => simp [hnode]
  · next hnot => simpa using hnot

instance (t : Text) : Decidable (IsName t) :=
  decidable_of_iff
    ((t ≠ [] ∧ t ≠ Path.here ∧ t ≠ Path.up ∧ slash ∉ t) ∧ 0 ∉ t ∧ t.length ≤ maxName)
    ⟨fun h => ⟨⟨h.1.1, h.1.2.1, h.1.2.2.1, h.1.2.2.2⟩, h.2.1, h.2.2⟩,
      fun h => ⟨⟨h.ne_nil, h.ne_here, h.ne_up, h.slash_not_mem⟩, h.zero_not_mem, h.length_le⟩⟩

/-- A list of nodes makes a proper file system if each of them has a name and a directory above. -/
theorem proper_of_nodes {fs : FileSystem} (hnodup : (fs.nodes.map Prod.fst).Nodup)
    (hparent : ∀ entry ∈ fs.nodes, ∀ name ∈ entry.1.getLast?,
      IsName name ∧ fs.isDirectoryAt entry.1.dropLast = true)
    (hcurrent : fs.isDirectoryAt fs.current = true) : fs.Proper where
  nodup := hnodup
  parent := by
    intro loc name node hnode
    have hentry := hparent _ (mem_of_lookup hnode) name (by simp)
    rw [List.dropLast_concat] at hentry
    exact ⟨hentry.1, isDirectoryAt_iff.1 hentry.2⟩
  current := isDirectoryAt_iff.1 hcurrent

namespace Proper

variable {fs : FileSystem} (h : fs.Proper)
include h

/-- A proper file system has the nodes it lists. -/
theorem node?_eq_some_iff {loc : Location} {node : Node} :
    fs.node? loc = some node ↔ (loc, node) ∈ fs.nodes := by
  refine lookup_eq_some_iff_mem fun a b c hb hc => ?_
  exact (Prod.mk.inj (List.inj_on_of_nodup_map h.nodup hb hc rfl)).2

/-- Every name on the way to a node is one that nodes can have. -/
theorem isName {loc : Location} {node : Node} (hnode : fs.node? loc = some node) :
    ∀ t ∈ loc, IsName t := by
  induction loc using List.reverseRecOn generalizing node with
  | nil => exact fun t ht => absurd ht List.not_mem_nil
  | append_singleton loc name ih =>
    obtain ⟨hname, mode, hparent⟩ := h.parent loc name node hnode
    intro t ht
    rcases List.mem_append.1 ht with ht | ht
    · exact ih hparent t ht
    · exact (List.mem_singleton.1 ht) ▸ hname

/-- Every location above a directory is a directory. -/
theorem directory_of_append {loc names : List Text} {mode : Mode}
    (hnode : fs.node? (loc ++ names) = some (.directory mode)) :
    ∃ mode, fs.node? loc = some (.directory mode) := by
  induction names using List.reverseRecOn generalizing mode with
  | nil => exact ⟨mode, by rw [← hnode, List.append_nil]⟩
  | append_singleton names name ih =>
    rw [← List.append_assoc] at hnode
    obtain ⟨-, mode', hparent⟩ := h.parent (loc ++ names) name _ hnode
    exact ih hparent

/-- Every location above a node is a directory. -/
theorem directory_above {loc names : List Text} {node : Node} (hne : names ≠ [])
    (hnode : fs.node? (loc ++ names) = some node) :
    ∃ mode, fs.node? loc = some (.directory mode) := by
  rcases List.eq_nil_or_concat names with rfl | ⟨names, name, rfl⟩
  · exact absurd rfl hne
  · rw [List.concat_eq_append, ← List.append_assoc] at hnode
    obtain ⟨-, mode, hparent⟩ := h.parent (loc ++ names) name _ hnode
    exact h.directory_of_append hparent

end Proper

/-! ## Walks -/

/-- Walking names from a location through `k` links ends at `stop`. -/
inductive Walks (fs : FileSystem) : Location → List Text → (k : Nat) → (stop : Location) → Prop
  | done (loc : Location) : Walks fs loc [] 0 loc
  | here {loc stop : Location} {rest : List Text} {k : Nat} (hopen : fs.obstacle? loc = none)
      (hrest : Walks fs loc rest k stop) : Walks fs loc (Path.here :: rest) k stop
  | up {loc stop : Location} {rest : List Text} {k : Nat} (hopen : fs.obstacle? loc = none)
      (hrest : Walks fs loc.dropLast rest k stop) : Walks fs loc (Path.up :: rest) k stop
  | enter {loc stop : Location} {name : Text} {rest : List Text} {k : Nat} {node : Node}
      (hopen : fs.obstacle? loc = none) (hhere : name ≠ Path.here) (hup : name ≠ Path.up)
      (hlength : name.length ≤ maxName) (hnode : fs.node? (loc ++ [name]) = some node)
      (hlink : ∀ target, node ≠ .link target) (hrest : Walks fs (loc ++ [name]) rest k stop) :
      Walks fs loc (name :: rest) k stop
  | link {loc stop : Location} {name : Text} {rest : List Text} {k : Nat} {target : Text}
      (hopen : fs.obstacle? loc = none) (hhere : name ≠ Path.here) (hup : name ≠ Path.up)
      (hlength : name.length ≤ maxName) (hnode : fs.node? (loc ++ [name]) = some (.link target))
      (hrest : Walks fs (if isRooted target then [] else loc) (steps target ++ rest) k stop) :
      Walks fs loc (name :: rest) (k + 1) stop

section Steps

variable {fs : FileSystem} {follow : Bool} {n : Nat} {loc : Location} {rest : List Text}

theorem walk_nil : walk fs follow n loc [] = .ok loc := by
  cases n <;> rfl

/-- Nothing is entered from a location that stops a walk. -/
theorem walk_of_obstacle {name : Text} {reason : Reason} (h : fs.obstacle? loc = some reason) :
    walk fs follow n loc (name :: rest) = .error reason := by
  cases n <;> simp only [walk, walkWith, h]

theorem walk_here (h : fs.obstacle? loc = none) :
    walk fs follow n loc (Path.here :: rest) = walk fs follow n loc rest := by
  cases n <;> simp only [walk, walkWith, h, if_true]

theorem walk_up (h : fs.obstacle? loc = none) :
    walk fs follow n loc (Path.up :: rest) = walk fs follow n loc.dropLast rest := by
  have hne : Path.up ≠ Path.here := by decide
  cases n <;> simp only [walk, walkWith, h, if_neg hne, if_true]

variable {name : Text} (hopen : fs.obstacle? loc = none) (hhere : name ≠ Path.here)
  (hup : name ≠ Path.up) (hlength : name.length ≤ maxName)
include hopen hhere hup hlength

/-- A node that is no link is entered. -/
theorem walk_enter {node : Node} (hnode : fs.node? (loc ++ [name]) = some node)
    (hlink : ∀ target, node ≠ .link target) :
    walk fs follow n loc (name :: rest) = walk fs follow n (loc ++ [name]) rest := by
  cases node with
  | link target => exact absurd rfl (hlink target)
  | directory mode =>
    cases n <;> simp only [walk, walkWith, hopen, if_neg hhere, if_neg hup,
      if_neg (Nat.not_lt.2 hlength), hnode]
  | file mode content =>
    cases n <;> simp only [walk, walkWith, hopen, if_neg hhere, if_neg hup,
      if_neg (Nat.not_lt.2 hlength), hnode]

/-- A link is followed from where it stands, or from the root if its target starts there. -/
theorem walk_link {target : Text} (hnode : fs.node? (loc ++ [name]) = some (.link target))
    (hgo : follow = true ∨ rest ≠ []) :
    walk fs follow (n + 1) loc (name :: rest)
      = walk fs follow n (if isRooted target then [] else loc) (steps target ++ rest) := by
  have hnot : ¬ (rest.isEmpty && !follow) = true := by
    rcases hgo with rfl | hne
    · simp
    · simp [hne]
  simp only [walk, walkWith, hopen, if_neg hhere, if_neg hup, if_neg (Nat.not_lt.2 hlength), hnode,
    if_neg hnot]

end Steps

namespace Walks

variable {fs : FileSystem} {loc mid stop : Location} {s t : List Text} {j k : Nat}

/-- A walk goes on where the walk of its first names ends. -/
theorem walk_append (h : Walks fs loc s k mid) {follow : Bool} (hgo : follow = true ∨ t ≠ [])
    (n : Nat) : walk fs follow (n + k) loc (s ++ t) = walk fs follow n mid t := by
  induction h with
  | done loc => rfl
  | here hopen _ ih => rw [List.cons_append, walk_here hopen, ih]
  | up hopen _ ih => rw [List.cons_append, walk_up hopen, ih]
  | enter hopen hhere hup hlength hnode hlink _ ih =>
    rw [List.cons_append, walk_enter hopen hhere hup hlength hnode hlink, ih]
  | @link _ _ _ rest _ _ hopen hhere hup hlength hnode _ ih =>
    have hgo' : follow = true ∨ rest ++ t ≠ [] := by
      rcases hgo with hfollow | hne
      · exact Or.inl hfollow
      · exact Or.inr (List.append_ne_nil_of_right_ne_nil rest hne)
    rw [List.cons_append, ← Nat.add_assoc, walk_link hopen hhere hup hlength hnode hgo',
      ← List.append_assoc, ih]

/-- With links enough, the system's walk gets there. -/
theorem walk_eq (h : Walks fs loc s k stop) {n : Nat} (hn : k ≤ n) :
    walk fs true n loc s = .ok stop := by
  have hwalk := h.walk_append (t := []) (Or.inl rfl) (n - k)
  rw [Nat.sub_add_cancel hn, List.append_nil, walk_nil] at hwalk
  exact hwalk

/-- A walk without links is the same whether links are followed or not. -/
theorem walk_eq_of_zero (h : Walks fs loc s 0 stop) (follow : Bool) (n : Nat) :
    walk fs follow n loc s = .ok stop := by
  generalize hzero : 0 = links at h
  induction h with
  | done loc => exact walk_nil
  | here hopen _ ih => rw [walk_here hopen, ih hzero]
  | up hopen _ ih => rw [walk_up hopen, ih hzero]
  | enter hopen hhere hup hlength hnode hlink _ ih =>
    rw [walk_enter hopen hhere hup hlength hnode hlink, ih hzero]
  | link => cases hzero

/-- Two walks that meet are one walk. -/
theorem append (h : Walks fs loc s j mid) (h' : Walks fs mid t k stop) :
    Walks fs loc (s ++ t) (k + j) stop := by
  induction h with
  | done loc => exact h'
  | here hopen _ ih => exact .here hopen (ih h')
  | up hopen _ ih => exact .up hopen (ih h')
  | enter hopen hhere hup hlength hnode hlink _ ih =>
    exact .enter hopen hhere hup hlength hnode hlink (ih h')
  | link hopen hhere hup hlength hnode _ ih =>
    have hrest := ih h'
    rw [List.append_assoc] at hrest
    exact .link hopen hhere hup hlength hnode hrest

/-- A walk can be stopped behind any of its names. -/
theorem exists_split (h : Walks fs loc (s ++ t) k stop) :
    ∃ i j mid, Walks fs loc s i mid ∧ Walks fs mid t j stop ∧ k = j + i := by
  generalize hnames : s ++ t = names at h
  induction h generalizing s with
  | done loc =>
    obtain ⟨rfl, rfl⟩ := List.append_eq_nil_iff.1 hnames
    exact ⟨0, 0, loc, .done loc, .done loc, rfl⟩
  | @here loc _ _ _ hopen hrest ih =>
    cases s with
    | nil =>
      obtain rfl : t = _ := hnames
      exact ⟨0, _, loc, .done loc, .here hopen hrest, rfl⟩
    | cons name s =>
      obtain ⟨rfl, htail⟩ := List.cons.inj hnames
      obtain ⟨i, j, mid, hs, ht, hk⟩ := ih htail
      exact ⟨i, j, mid, .here hopen hs, ht, hk⟩
  | @up loc _ _ _ hopen hrest ih =>
    cases s with
    | nil =>
      obtain rfl : t = _ := hnames
      exact ⟨0, _, loc, .done loc, .up hopen hrest, rfl⟩
    | cons name s =>
      obtain ⟨rfl, htail⟩ := List.cons.inj hnames
      obtain ⟨i, j, mid, hs, ht, hk⟩ := ih htail
      exact ⟨i, j, mid, .up hopen hs, ht, hk⟩
  | @enter loc _ _ _ _ _ hopen hhere hup hlength hnode hlink hrest ih =>
    cases s with
    | nil =>
      obtain rfl : t = _ := hnames
      exact ⟨0, _, loc, .done loc, .enter hopen hhere hup hlength hnode hlink hrest, rfl⟩
    | cons name s =>
      obtain ⟨rfl, htail⟩ := List.cons.inj hnames
      obtain ⟨i, j, mid, hs, ht, hk⟩ := ih htail
      exact ⟨i, j, mid, .enter hopen hhere hup hlength hnode hlink hs, ht, hk⟩
  | @link loc _ _ _ _ target hopen hhere hup hlength hnode hrest ih =>
    cases s with
    | nil =>
      obtain rfl : t = _ := hnames
      exact ⟨0, _, loc, .done loc, .link hopen hhere hup hlength hnode hrest, rfl⟩
    | cons name s =>
      -- what the link stands for belongs to the first part
      obtain ⟨rfl, rfl⟩ := List.cons.inj hnames
      obtain ⟨i, j, mid, hs, ht, hk⟩ := ih (s := steps target ++ s) (List.append_assoc ..)
      exact ⟨i + 1, j, mid, .link hopen hhere hup hlength hnode hs, ht, by omega⟩

/-- A walk leads to one location. -/
theorem stop_unique {stop' : Location} (h : Walks fs loc s j stop) (h' : Walks fs loc s k stop') :
    stop = stop' := by
  have hwalk := h.walk_eq (Nat.le_max_left j k)
  rw [h'.walk_eq (Nat.le_max_right j k)] at hwalk
  exact (Except.ok.inj hwalk).symm

end Walks

/-- The system's walk step by step, if the walks behind links are known. -/
theorem exists_walks_of_walkWith {fs : FileSystem} {n : Nat}
    {onLink : Location → List Text → Except Reason Location}
    (honLink : ∀ {loc stop : Location} {names : List Text}, onLink loc names = .ok stop →
      ∃ k, k + 1 ≤ n ∧ Walks fs loc names k stop)
    {loc stop : Location} {names : List Text} (h : walkWith fs true onLink loc names = .ok stop) :
    ∃ k, k ≤ n ∧ Walks fs loc names k stop := by
  induction names generalizing loc with
  | nil =>
    obtain rfl := Except.ok.inj h
    exact ⟨0, Nat.zero_le n, .done loc⟩
  | cons name rest ih =>
    rw [walkWith] at h
    split at h
    · cases h
    next hopen =>
    split at h
    · next hhere =>
      subst hhere
      obtain ⟨k, hk, hrest⟩ := ih h
      exact ⟨k, hk, .here hopen hrest⟩
    next hhere =>
    split at h
    · next hup =>
      subst hup
      obtain ⟨k, hk, hrest⟩ := ih h
      exact ⟨k, hk, .up hopen hrest⟩
    next hup =>
    split at h
    · cases h
    next hlength =>
    have hlength := Nat.not_lt.1 hlength
    split at h
    · cases h
    · next target hnode =>
      rw [if_neg (by simp)] at h
      obtain ⟨k, hk, hrest⟩ := honLink h
      exact ⟨k + 1, hk, .link hopen hhere hup hlength hnode hrest⟩
    · next node hlink hnode =>
      obtain ⟨k, hk, hrest⟩ := ih h
      exact ⟨k, hk, .enter hopen hhere hup hlength hnode hlink hrest⟩

/-- **What the system walks is a walk with no more links than it was given.** -/
theorem exists_walks {fs : FileSystem} {n : Nat} {loc stop : Location} {names : List Text}
    (h : walk fs true n loc names = .ok stop) : ∃ k, k ≤ n ∧ Walks fs loc names k stop := by
  induction n generalizing loc names stop with
  | zero =>
    refine exists_walks_of_walkWith (fun hlink => ?_) h
    cases hlink
  | succ n ih =>
    refine exists_walks_of_walkWith (fun hlink => ?_) h
    obtain ⟨k, hk, hwalks⟩ := ih hlink
    exact ⟨k, Nat.succ_le_succ hk, hwalks⟩

/-- A path that leads somewhere is walked from the root or from the current directory. -/
theorem resolve_eq_ok {fs : FileSystem} {follow : Bool} {path : Text} {loc : Location}
    (h : fs.resolve follow path = .ok loc) :
    0 ∉ path ∧ walk fs follow maxLinks (if isRooted path then [] else fs.current) (steps path)
      = .ok loc := by
  unfold resolve at h
  split at h
  · cases h
  next hzero =>
  split at h
  · cases h
  split at h
  · cases h
  exact ⟨by simpa using hzero, h⟩

/-! ## Locations that were reached -/

/-- Nothing stops a walk at a location exactly if there is a directory that can be searched. -/
theorem obstacle?_eq_none_iff {fs : FileSystem} {loc : Location} :
    fs.obstacle? loc = none
      ↔ ∃ mode, fs.node? loc = some (.directory mode) ∧ mode.canSearch = true := by
  unfold obstacle?
  split
  · next hnode => simp [hnode]
  · next mode hnode =>
    rw [hnode]
    by_cases hsearch : mode.canSearch = true <;> simp [hsearch]
  · next node hnot hnode =>
    rw [hnode]
    constructor
    · intro h
      cases h
    · rintro ⟨mode, hdirectory, -⟩
      exact absurd (Option.some.inj hdirectory) (hnot mode)

/-- All locations above a location are directories that can be searched. -/
def Reached (fs : FileSystem) (loc : Location) : Prop :=
  ∀ above, above <+: loc → above ≠ loc → fs.obstacle? above = none

theorem reached_nil (fs : FileSystem) : fs.Reached [] := by
  intro above h hne
  exact absurd (List.prefix_nil.1 h) hne

namespace Reached

variable {fs : FileSystem} {loc : Location}

theorem concat (h : fs.Reached loc) (hopen : fs.obstacle? loc = none) (name : Text) :
    fs.Reached (loc ++ [name]) := by
  intro above hpre hne
  rcases List.prefix_concat_iff.1 hpre with heq | hpre
  · exact absurd heq hne
  · by_cases heq : above = loc
    · exact heq ▸ hopen
    · exact h above hpre heq

/-- What lies above a reached location is reached. -/
theorem of_above (h : fs.Reached loc) {above : Location} (hpre : above <+: loc) :
    fs.Reached above := by
  intro higher hhigher hne
  refine h higher (hhigher.trans hpre) ?_
  rintro rfl
  exact hne (hhigher.eq_of_length_le hpre.length_le)

end Reached

/-- Walks that start at a reached location lead to one. -/
theorem Walks.reached {fs : FileSystem} {loc stop : Location} {names : List Text} {k : Nat}
    (h : Walks fs loc names k stop) (hloc : fs.Reached loc) : fs.Reached stop := by
  induction h with
  | done loc => exact hloc
  | here _ _ ih => exact ih hloc
  | up _ _ ih => exact ih (hloc.of_above (List.dropLast_prefix _))
  | enter hopen _ _ _ _ _ _ ih => exact ih (hloc.concat hopen _)
  | @link loc _ _ _ _ target _ _ _ _ _ _ ih =>
    refine ih ?_
    split
    · exact reached_nil fs
    · exact hloc

/-- A node that was reached and is no link can be walked to from any location above it, by name. -/
theorem walks_of_reached {fs : FileSystem} (hfs : fs.Proper) {loc names : List Text} {node : Node}
    (hreached : fs.Reached (loc ++ names)) (hnode : fs.node? (loc ++ names) = some node)
    (hlink : ∀ target, node ≠ .link target) : Walks fs loc names 0 (loc ++ names) := by
  induction names generalizing loc with
  | nil =>
    rw [List.append_nil]
    exact .done loc
  | cons name rest ih =>
    have hsplit : loc ++ name :: rest = loc ++ [name] ++ rest := by
      rw [List.append_assoc, List.singleton_append]
    have hopen : fs.obstacle? loc = none :=
      hreached loc (List.prefix_append _ _) (by simp)
    have hname : IsName name := hfs.isName hnode name (by simp)
    have hrest : Walks fs (loc ++ [name]) rest 0 (loc ++ name :: rest) := by
      rw [hsplit]
      exact ih (hsplit ▸ hreached) (hsplit ▸ hnode)
    -- behind the name there is a directory, or the node itself
    have hnext : ∃ next, fs.node? (loc ++ [name]) = some next ∧ ∀ target, next ≠ .link target := by
      cases rest with
      | nil => exact ⟨node, hnode, hlink⟩
      | cons first rest =>
        obtain ⟨mode, hmode, -⟩ := obstacle?_eq_none_iff.1
          (hreached (loc ++ [name]) ⟨first :: rest, by simp⟩ (by simp))
        exact ⟨_, hmode, by simp⟩
    obtain ⟨next, hnext, hnolink⟩ := hnext
    exact .enter hopen hname.ne_here hname.ne_up hname.length_le hnext hnolink hrest

/-- A node that is reached and no link is led to by its own location. -/
theorem walks_from_root {fs : FileSystem} (hfs : fs.Proper) {loc : Location} {node : Node}
    (hreached : fs.Reached loc) (hnode : fs.node? loc = some node)
    (hlink : ∀ target, node ≠ .link target) : Walks fs [] loc 0 loc := by
  rw [← List.nil_append loc] at hreached hnode
  exact walks_of_reached hfs hreached hnode hlink

/-- A directory can be walked to by name, unless one on the way cannot be searched, and then nothing
is found behind it. -/
theorem walks_or_denied {fs : FileSystem} (hfs : fs.Proper) {loc names : List Text} {mode : Mode}
    (hnode : fs.node? (loc ++ names) = some (.directory mode)) :
    Walks fs loc names 0 (loc ++ names)
      ∨ ∀ follow n rest, walk fs follow n loc (names ++ rest) = .error .denied := by
  induction names generalizing loc with
  | nil =>
    rw [List.append_nil]
    exact Or.inl (.done loc)
  | cons name rest ih =>
    have hsplit : loc ++ name :: rest = loc ++ [name] ++ rest := by
      rw [List.append_assoc, List.singleton_append]
    obtain ⟨own, hown⟩ := hfs.directory_of_append hnode
    by_cases hsearch : own.canSearch = true
    · have hopen : fs.obstacle? loc = none := obstacle?_eq_none_iff.2 ⟨own, hown, hsearch⟩
      have hname : IsName name := hfs.isName hnode name (by simp)
      rw [hsplit] at hnode ⊢
      obtain ⟨next, hnext⟩ := hfs.directory_of_append hnode
      have hnolink : ∀ target, Node.directory next ≠ .link target := by simp
      rcases ih hnode with hwalks | hdenied
      · exact Or.inl
          (.enter hopen hname.ne_here hname.ne_up hname.length_le hnext hnolink hwalks)
      · refine Or.inr fun follow n behind => ?_
        rw [List.cons_append,
          walk_enter hopen hname.ne_here hname.ne_up hname.length_le hnext hnolink]
        exact hdenied follow n behind
    · have hdenied : fs.obstacle? loc = some .denied := by
        simp only [obstacle?, hown, if_neg hsearch]
      exact Or.inr fun follow n behind => walk_of_obstacle hdenied

end FileSystem

end CrateBump
