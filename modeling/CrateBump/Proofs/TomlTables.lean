/-
# A value in a document under construction

While a document is read its tables only grow: a value that a key holds is never replaced, and a
table never becomes a value.  What a value says does not matter to anything read after it.  So if two
drafts differ in one value, the same statements lead to drafts that differ in that value again.

Every operation on tables looks a key up, adds an entry if there is none, and otherwise changes the
entry that is there, by its kind (`atKey`, `inTable`).  Main statement: reading on commutes with
putting another value in a place that is taken (`Draft.readAll_put`).
-/
import CrateBump.Entries
import CrateBump.Proofs.TomlLines

namespace CrateBump.Toml

/-! ## Entries under a key -/

variable {key k : Text} {path : List Text} {e e' : Entry} {es es' : Entries} {v : Value} {leaf : Bool}

/-- The entries with those under one key changed. -/
def mapKey (key : Text) (f : Entry → Entry) (es : Entries) : Entries :=
  es.map fun p => (p.1, if p.1 = key then f p.2 else p.2)

theorem replaceEntry_eq (es : Entries) (k : Text) (e : Entry) :
    replaceEntry es k e = mapKey k (fun _ => e) es := rfl

/-- An entry of the changed table is one of the table, changed if it stands under the key. -/
theorem mem_mapKey {f : Entry → Entry} {p : Text × Entry} :
    p ∈ mapKey key f es ↔ ∃ e, (p.1, e) ∈ es ∧ p.2 = if p.1 = key then f e else e := by
  rw [mapKey, List.mem_map]
  constructor
  · rintro ⟨⟨k, e⟩, hmem, rfl⟩
    exact ⟨e, hmem, rfl⟩
  · rintro ⟨e, hmem, heq⟩
    exact ⟨(p.1, e), hmem, by rw [← heq]⟩

/-- A change under a key is seen under that key only. -/
theorem lookup_mapKey (key : Text) (f : Entry → Entry) (es : Entries) (k : Text) :
    (mapKey key f es).lookup k = if k = key then (es.lookup k).map f else es.lookup k := by
  refine (lookup_map_value (fun k e => if k = key then f e else e) es k).trans ?_
  by_cases hk : k = key
  · simp [hk]
  · simp [hk]

/-- A changed entry replaced under the key is the replaced one changed. -/
theorem replaceEntry_mapKey (f : Entry → Entry) (es : Entries) (k : Text) (e : Entry) :
    replaceEntry (mapKey k f es) k (f e) = mapKey k f (replaceEntry es k e) := by
  simp only [replaceEntry_eq, mapKey, List.map_map]
  congr 1
  funext p
  by_cases hp : p.1 = k <;> simp [hp]

/-- A change under one key and a replacement under another do not meet. -/
theorem replaceEntry_mapKey_of_ne (hk : k ≠ key) (f : Entry → Entry) (es : Entries) (e : Entry) :
    replaceEntry (mapKey key f es) k e = mapKey key f (replaceEntry es k e) := by
  simp only [replaceEntry_eq, mapKey, List.map_map]
  congr 1
  funext p
  by_cases hp : p.1 = k
  · simp [hp, hk]
  · simp [hp]

/-- What stood under a key does not matter once it is replaced. -/
theorem replaceEntry_replaced (f : Entry → Entry) (es : Entries) (k : Text) (e : Entry) :
    replaceEntry (mapKey k f es) k e = replaceEntry es k e := by
  simp only [replaceEntry_eq, mapKey, List.map_map]
  congr 1
  funext p
  by_cases hp : p.1 = k <;> simp [hp]

/-- Entries are changed one by one. -/
theorem mapKey_append (f : Entry → Entry) (es es' : Entries) :
    mapKey key f (es ++ es') = mapKey key f es ++ mapKey key f es' := List.map_append

/-- An entry added under another key is not changed. -/
theorem mapKey_append_of_ne (hk : k ≠ key) (f : Entry → Entry) (es : Entries) (e : Entry) :
    mapKey key f (es ++ [(k, e)]) = mapKey key f es ++ [(k, e)] := by
  simp [mapKey, hk]

/-- A change under a key that is free changes nothing. -/
theorem mapKey_of_lookup (h : es.lookup k = none) (f : Entry → Entry) : mapKey k f es = es := by
  have hsame : ∀ p ∈ es, (p.1, if p.1 = k then f p.2 else p.2) = id p := by
    rintro ⟨k', e⟩ hmem
    have hk : k' ≠ k := by
      rintro rfl
      exact not_mem_of_lookup h hmem
    rw [if_neg hk]
    rfl
  rw [mapKey, List.map_congr_left hsame, List.map_id]

/-! ## The value at the end of a path -/

/-- Whether the entry is a value. -/
def Entry.isLeaf : Entry → Bool
  | .leaf _ => true
  | _ => false

/-- The entry with `v` for each value that the path leads to. -/
def Entry.put (v : Value) : (path : List Text) → Entry → Entry
  | [], .leaf _ => .leaf v
  | key :: path, .table origin es => .table origin (mapKey key (Entry.put v path) es)
  | _, e => e

/-- The path leads somewhere, to values only or to no value, as `leaf` says. -/
def Entry.Leads (leaf : Bool) : (path : List Text) → Entry → Prop
  | [], e => e.isLeaf = leaf
  | key :: path, .table _ es =>
    (∃ e, (key, e) ∈ es) ∧ ∀ e, (key, e) ∈ es → Entry.Leads leaf path e
  | _ :: _, _ => False

/-- The entries with `v` for each value that `key` and then `path` lead to. -/
def putIn (v : Value) (key : Text) (path : List Text) (es : Entries) : Entries :=
  mapKey key (Entry.put v path) es

/-- Some entry stands under `key`, and from each the path leads on. -/
def LeadsIn (leaf : Bool) (key : Text) (path : List Text) (es : Entries) : Prop :=
  (∃ e, (key, e) ∈ es) ∧ ∀ e, (key, e) ∈ es → e.Leads leaf path

/-- A path leads on through an entry that was replaced by one it leads through. -/
theorem leadsIn_replaceEntry (h : ∃ e, (key, e) ∈ es) (he : e.Leads leaf path) :
    LeadsIn leaf key path (replaceEntry es key e) := by
  obtain ⟨old, hold⟩ := h
  rw [replaceEntry_eq]
  refine ⟨⟨e, mem_mapKey.2 ⟨old, hold, by rw [if_pos rfl]⟩⟩, fun e' he' => ?_⟩
  obtain ⟨_, _, hsame⟩ := mem_mapKey.1 he'
  have hsame : e' = e := hsame.trans (if_pos rfl)
  exact hsame ▸ he

/-- A path still leads on after an entry was added under another key. -/
theorem leadsIn_append_of_ne (hk : k ≠ key) (h : LeadsIn leaf key path es) (e : Entry) :
    LeadsIn leaf key path (es ++ [(k, e)]) := by
  have hmem : ∀ e', (key, e') ∈ es ++ [(k, e)] ↔ (key, e') ∈ es := by
    intro e'
    simp [Ne.symm hk]
  simpa only [LeadsIn, hmem] using h

/-- A path still leads on after an entry under another key was replaced. -/
theorem leadsIn_replaceEntry_of_ne (hk : k ≠ key) (h : LeadsIn leaf key path es) (e : Entry) :
    LeadsIn leaf key path (replaceEntry es k e) := by
  have hmem : ∀ e', (key, e') ∈ replaceEntry es k e ↔ (key, e') ∈ es := by
    intro e'
    rw [replaceEntry_eq, mem_mapKey]
    simp [Ne.symm hk]
  simpa only [LeadsIn, hmem] using h

/-! ## One shape for all operations -/

/-- Adds the entry `new` under a key that is free, and changes the first entry under one that is
taken. -/
def atKey (k : Text) (new : Option Entry) (change : Entry → Option Entry) (es : Entries) :
    Option Entries :=
  (es.lookup k).elim (new.map fun e => es ++ [(k, e)]) fun e => (change e).map (replaceEntry es k)

/-- Changes a table by its origin and its entries, an array of tables as a whole, and no value. -/
def inTable (origin? : Origin → Option Origin) (change : Entries → Option Entries)
    (changeAll : List Entries → Option (List Entries)) : Entry → Option Entry
  | .table origin es => (origin? origin).bind fun origin => (change es).map (.table origin)
  | .tables items => (changeAll items).map .tables
  | .leaf _ => none

/-- Both results are missing, or `P` holds of the first and the second is the first with `put` done
to it. -/
def Carries {β : Type} (P : β → Prop) (put : β → β) : Option β → Option β → Prop :=
  Option.Rel fun x y => P x ∧ y = put x

section Carries

variable {β γ : Type} {P : β → Prop} {Q : γ → Prop} {put : β → β} {put' : γ → γ}
  {a b : Option β} {x : β}

theorem carries_some (h : P x) : Carries P put (some x) (some (put x)) := .some ⟨h, rfl⟩

/-- A result that the change leaves alone is carried over. -/
theorem carries_self (h : ∀ x, a = some x → P x ∧ x = put x) : Carries P put a a := by
  cases a with
  | none => exact .none
  | some x => exact .some (h x rfl)

/-- What is carried over may be converted. -/
theorem Carries.map {f g : β → γ} (h : Carries P put a b)
    (hf : ∀ x, P x → Q (f x) ∧ g (put x) = put' (f x)) : Carries Q put' (a.map f) (b.map g) := by
  cases h with
  | none => exact .none
  | some h =>
    obtain ⟨hx, rfl⟩ := h
    exact .some (hf _ hx)

/-- One step may follow another. -/
theorem Carries.bind {f g : β → Option γ} (h : Carries P put a b)
    (hf : ∀ x, P x → Carries Q put' (f x) (g (put x))) : Carries Q put' (a.bind f) (b.bind g) := by
  cases h with
  | none => exact .none
  | some h =>
    obtain ⟨hx, rfl⟩ := h
    exact hf _ hx

/-- The result with the value put in is the result, with the value put into it. -/
theorem Carries.eq_map (h : Carries P put a b) : b = a.map put := by
  cases h with
  | none => rfl
  | some h => exact congrArg some h.2

/-- What is carried over has the property. -/
theorem Carries.holds (h : Carries P put a b) (hx : a = some x) : P x := by
  subst hx
  cases h with
  | some h => exact h.1

end Carries

/-- The operation does not look at values that are there, and leaves them. -/
def Keeps (f : Entries → Option Entries) : Prop :=
  ∀ ⦃leaf v key path es⦄, LeadsIn leaf key path es →
    Carries (LeadsIn leaf key path) (putIn v key path) (f es) (f (putIn v key path es))

theorem keeps_some : Keeps some := fun _ _ _ _ _ h => carries_some h

theorem keeps_none : Keeps fun _ => none := fun _ _ _ _ _ _ => .none

section Shape

variable {origin? : Origin → Option Origin} {change : Entries → Option Entries}
  {changeAll : List Entries → Option (List Entries)}

/-- A change of a table looks at no value in it. -/
theorem inTable_put (hchange : Keeps change) (h : e.Leads leaf path) :
    Carries (Entry.Leads leaf path) (Entry.put v path) (inTable origin? change changeAll e)
      (inTable origin? change changeAll (e.put v path)) := by
  cases path with
  | nil =>
    -- at the end of the path a table stays a table, and putting a value in does nothing to it
    cases e with
    | leaf x => exact .none
    | table origin sub =>
      refine carries_self fun e' he' => ?_
      obtain ⟨next, -, he'⟩ := Option.bind_eq_some_iff.1 he'
      obtain ⟨sub', -, rfl⟩ := Option.map_eq_some_iff.1 he'
      exact ⟨h, rfl⟩
    | tables items =>
      refine carries_self fun e' he' => ?_
      obtain ⟨items', -, rfl⟩ := Option.map_eq_some_iff.1 he'
      exact ⟨h, rfl⟩
  | cons key path =>
    cases e with
    | leaf x => exact absurd h not_false
    | tables items => exact absurd h not_false
    | table origin sub =>
      have hsub : LeadsIn leaf key path sub := h
      simp only [inTable, Entry.put]
      cases origin? origin with
      | none => exact .none
      | some next => exact (hchange hsub).map fun sub' hsub' => ⟨hsub', rfl⟩

/-- **An operation of the shape looks at no value.** -/
theorem keeps_atKey (hchange : Keeps change) (k : Text) (new : Option Entry) :
    Keeps (atKey k new (inTable origin? change changeAll)) := by
  intro leaf v key path es h
  unfold atKey putIn
  rw [lookup_mapKey]
  by_cases hk : k = key
  · subst hk
    obtain ⟨e, he⟩ : ∃ e, es.lookup k = some e := by
      rw [← Option.ne_none_iff_exists']
      intro hnone
      obtain ⟨e, hmem⟩ := h.1
      exact not_mem_of_lookup hnone hmem
    rw [if_pos rfl, he, Option.map_some, Option.elim_some, Option.elim_some]
    exact (inTable_put hchange (h.2 e (mem_of_lookup he))).map fun e' he' =>
      ⟨leadsIn_replaceEntry h.1 he', replaceEntry_mapKey _ es k e'⟩
  · -- under another key both tables have the same, and the change does not touch the place
    rw [if_neg hk]
    cases es.lookup k with
    | none =>
      cases new with
      | none => exact .none
      | some e => exact .some ⟨leadsIn_append_of_ne hk h e, (mapKey_append_of_ne hk _ es e).symm⟩
    | some e =>
      rw [Option.elim_some, Option.elim_some]
      cases inTable origin? change changeAll e with
      | none => exact .none
      | some e' =>
        exact .some ⟨leadsIn_replaceEntry_of_ne hk h e', replaceEntry_mapKey_of_ne hk _ es e'⟩

end Shape

/-! ## The operations -/

/-- Opening a table is an operation of the shape. -/
theorem openTable_eq (k : Text) :
    openTable k = atKey k (some (.table .header []))
      (inTable (fun o => if o = .implied then some .header else none) some fun _ => none) := by
  funext es
  rw [openTable, atKey]
  cases es.lookup k with
  | none => rfl
  | some e =>
    cases e with
    | leaf v => rfl
    | tables items => rfl
    | table origin sub => cases origin <;> rfl

/-- So is adding one to an array of tables. -/
theorem addTable_eq (k : Text) :
    addTable k = atKey k (some (.tables [[]]))
      (inTable (fun _ => none) some fun items => some (items ++ [[]])) := by
  funext es
  rw [addTable, atKey]
  cases es.lookup k with
  | none => rfl
  | some e => cases e <;> rfl

/-- So is going down a path, one key after the other. -/
theorem descend_cons_eq (f : Entries → Option Entries) (k : Text) (path : List Text) :
    descend f (k :: path) = atKey k ((descend f path []).map (.table .implied))
      (inTable some (descend f path) (onLast (descend f path))) := by
  funext es
  rw [descend, atKey]
  cases es.lookup k with
  | none =>
    rw [Option.elim_none, Option.map_map]
    rfl
  | some e =>
    cases e with
    | leaf v => rfl
    | table origin sub =>
      simp only [Option.elim_some, inTable, Option.bind_some, Option.map_map]
      rfl
    | tables items =>
      simp only [Option.elim_some, inTable, Option.map_map]
      rfl

/-- So is assigning a value to a key. -/
theorem assign_single_eq (d : Dialect) (current : Nat) (v : Value) (k : Text) :
    assign d current v [k] = atKey k (some (Entry.ofValue d v))
      (inTable (fun o => if o = .implied && d.openTables && !v.isTable then some .header else none)
        some fun _ => none) := by
  funext es
  rw [assign, atKey]
  cases hk : es.lookup k with
  | none => rfl
  | some e =>
    rw [if_neg (by simp), reassign, hk]
    cases e with
    | leaf v => rfl
    | tables items => rfl
    | table origin sub =>
      cases origin with
      | header => rfl
      | dotted n => rfl
      | implied =>
        simp only [Option.elim_some, inTable, decide_true, Bool.true_and]
        split <;> rfl

/-- So is assigning one to a key with dots. -/
theorem assign_cons_eq (d : Dialect) (current : Nat) (v : Value) (k k' : Text) (rest : List Text) :
    assign d current v (k :: k' :: rest)
      = atKey k ((assign d current v (k' :: rest) []).map (.table (.byDot d current)))
          (inTable (Origin.throughDot d current) (assign d current v (k' :: rest))
            fun items =>
              if d.openTables then onLast (assign d current v (k' :: rest)) items else none) := by
  funext es
  rw [assign, atKey]
  cases hk : es.lookup k with
  | none =>
    rw [Option.elim_none, Option.map_map]
    rfl
  | some e =>
    cases e with
    | leaf v => rfl
    | table origin sub =>
      simp only [Option.elim_some, inTable]
      cases origin.throughDot d current with
      | none => rfl
      | some next =>
        simp only [Option.bind_some, Option.map_map]
        rfl
    | tables items =>
      simp only [Option.elim_some, inTable]
      split
      · rw [Option.map_map]
        rfl
      · rfl
  all_goals simp

theorem keeps_openTable (k : Text) : Keeps (openTable k) := by
  rw [openTable_eq]
  exact keeps_atKey keeps_some k _

theorem keeps_addTable (k : Text) : Keeps (addTable k) := by
  rw [addTable_eq]
  exact keeps_atKey keeps_some k _

/-- Going down a path looks at no value, if what is done at its end does not. -/
theorem keeps_descend {f : Entries → Option Entries} (hf : Keeps f) (path : List Text) :
    Keeps (descend f path) := by
  induction path with
  | nil => exact hf
  | cons k path ih =>
    rw [descend_cons_eq]
    exact keeps_atKey ih k _

/-- Assigning a value looks at no other value. -/
theorem keeps_assign (d : Dialect) (current : Nat) (v : Value) (ks : List Text) :
    Keeps (assign d current v ks) := by
  induction ks with
  | nil => exact keeps_none
  | cons k ks ih =>
    cases ks with
    | nil =>
      rw [assign_single_eq]
      exact keeps_atKey keeps_some k _
    | cons k' rest =>
      rw [assign_cons_eq]
      exact keeps_atKey ih k _

/-! ## Reading on -/

section Reading

variable {d : Dialect} {draft next last : Draft} {t u w : Text}

/-- The draft with `v` for each value that `key` and then `path` lead to. -/
def Draft.put (v : Value) (key : Text) (path : List Text) (draft : Draft) : Draft :=
  { draft with entries := putIn v key path draft.entries }

/-- A header is followed alike whatever value stands in a place that is taken. -/
theorem Draft.openHeader_put (double : Bool) (ks : List Text)
    (h : LeadsIn leaf key path draft.entries) :
    Carries (fun next => LeadsIn leaf key path next.entries) (Draft.put v key path)
      (draft.openHeader double ks) ((draft.put v key path).openHeader double ks) := by
  unfold Draft.openHeader
  cases ks.getLast? with
  | none => exact .none
  | some last =>
    have hkeeps : Keeps (if double then addTable last else openTable last) := by
      cases double with
      | true => exact keeps_addTable last
      | false => exact keeps_openTable last
    exact (keeps_descend hkeeps ks.dropLast h).map fun es hes => ⟨hes, rfl⟩

/-- A statement is followed alike whatever value stands in a place that is taken. -/
theorem Draft.follow_put (x : Statement) (h : LeadsIn leaf key path draft.entries) :
    Carries (fun next => LeadsIn leaf key path next.entries) (Draft.put v key path)
      (draft.follow d x) ((draft.put v key path).follow d x) := by
  cases x with
  | header double ks => exact Draft.openHeader_put double ks h
  | pair ks value =>
    have hkeeps := keeps_descend (keeps_assign d draft.headers value ks) draft.path
    exact (hkeeps h).map fun es hes => ⟨hes, rfl⟩

/-- **What is read behind a value does not depend on it**, and it stays where it is. -/
theorem Draft.readAll_put (t : Text) (h : LeadsIn leaf key path draft.entries) :
    Carries (fun last => LeadsIn leaf key path last.entries) (Draft.put v key path)
      (draft.readAll d t) ((draft.put v key path).readAll d t) := by
  unfold Draft.readAll
  generalize t.length + 1 = n
  induction n generalizing draft t with
  | zero => exact .none
  | succ n ih =>
    rw [Draft.lines_succ, Draft.lines_succ]
    split
    · exact carries_some h
    cases statement? d (skipAllGaps t) with
    | none => exact .none
    | some p => exact (Draft.follow_put p.1 h).bind fun next hnext => ih p.2 hnext

/-- What a path led to before some lines it leads to behind them. -/
theorem Draft.leadsIn_of_readAll (h : LeadsIn leaf key path draft.entries)
    (hlast : draft.readAll d t = some last) : LeadsIn leaf key path last.entries :=
  (Draft.readAll_put (v := .null) t h).holds hlast

/-! ## Giving a value to a key of the open table -/

/-- Going down one key that stands for a table changes that table. -/
theorem descend_single {f : Entries → Option Entries} {origin : Origin} {sub : Entries}
    (htable : es.lookup key = some (.table origin sub)) (h : descend f [key] es = some es') :
    ∃ sub', f sub = some sub' ∧ es' = replaceEntry es key (.table origin sub') := by
  rw [descend, htable] at h
  obtain ⟨sub', hsub, rfl⟩ := Option.map_eq_some_iff.1 h
  exact ⟨sub', hsub, rfl⟩

theorem lookup_replaceEntry (h : es.lookup key = some e) (e' : Entry) :
    (replaceEntry es key e').lookup key = some e' := by
  rw [replaceEntry_eq, lookup_mapKey, if_pos rfl, h]
  rfl

/-- The table that `key` names is open. -/
structure Draft.InTable (draft : Draft) (key : Text) : Prop where
  path : draft.path = [key]
  entry : ∃ origin sub, draft.entries.lookup key = some (.table origin sub)

/-- A header opens its table. -/
theorem Draft.inTable_of_header (h : draft.follow d (.header false [key]) = some next) :
    next.InTable key := by
  obtain ⟨es, hes, rfl⟩ := Option.map_eq_some_iff.1 h
  refine ⟨rfl, ?_⟩
  have hopen : openTable key draft.entries = some es := hes
  unfold openTable at hopen
  split at hopen
  · next hnone =>
    obtain rfl := Option.some.inj hopen
    exact ⟨.header, [], by simp [List.lookup_append, hnone]⟩
  · next sub hsub =>
    obtain rfl := Option.some.inj hopen
    exact ⟨.header, sub, lookup_replaceEntry hsub _⟩
  · cases hopen

/-- An assignment leaves its table open. -/
theorem Draft.InTable.follow_pair {ks : List Text} (h : draft.InTable key)
    (hnext : draft.follow d (.pair ks v) = some next) : next.InTable key := by
  obtain ⟨es, hes, rfl⟩ := Option.map_eq_some_iff.1 hnext
  obtain ⟨origin, sub, htable⟩ := h.entry
  rw [h.path] at hes
  obtain ⟨sub', -, rfl⟩ := descend_single htable hes
  exact ⟨h.path, origin, sub', lookup_replaceEntry htable _⟩

/-- A text given to a key of the open table stands there, and any other text would be put in the same
place; unless the key names a table, which then stays. -/
theorem Draft.InTable.follow_text (h : draft.InTable key)
    (hnext : draft.follow d (.pair [k] (.text u)) = some next) :
    LeadsIn false key [k] next.entries
      ∨ LeadsIn true key [k] next.entries
        ∧ ∀ w, draft.follow d (.pair [k] (.text w)) = some (next.put (.text w) key [k]) := by
  obtain ⟨es, hes, rfl⟩ := Option.map_eq_some_iff.1 hnext
  obtain ⟨origin, sub, htable⟩ := h.entry
  rw [h.path] at hes
  obtain ⟨sub', hsub, rfl⟩ := descend_single htable hes
  have hthere : ∃ e, (key, e) ∈ draft.entries := ⟨_, mem_of_lookup htable⟩
  cases hk : sub.lookup k with
  | none =>
    have hnew : ∀ w, assign d draft.headers (.text w) [k] sub
        = some (sub ++ [(k, .leaf (.text w))]) := by
      intro w
      rw [assign, hk]
      rfl
    obtain rfl := Option.some.inj ((hnew u).symm.trans hsub)
    have hnewMem : (k, Entry.leaf (.text u)) ∈ sub ++ [(k, .leaf (.text u))] :=
      List.mem_append_right _ List.mem_cons_self
    refine Or.inr ⟨leadsIn_replaceEntry hthere ⟨⟨_, hnewMem⟩, ?_⟩, fun w => ?_⟩
    · intro e he
      rcases List.mem_append.1 he with he | he
      · exact absurd he (not_mem_of_lookup hk)
      · rw [(Prod.mk.inj (List.mem_singleton.1 he)).2]
        rfl
    · -- the text goes behind the other entries of the table, where the first one stood
      have hput : Entry.put (.text w) [k] (.table origin (sub ++ [(k, .leaf (.text u))]))
          = .table origin (sub ++ [(k, .leaf (.text w))]) := by
        rw [Entry.put, mapKey_append, mapKey_of_lookup hk]
        simp [mapKey, Entry.put]
      simp only [Draft.follow, h.path, descend, htable, hnew, Option.map_some, Draft.put, putIn,
        ← replaceEntry_mapKey, hput, replaceEntry_replaced]
  | some e =>
    -- the one entry under which a text is accepted is an implied table, and it stays a table
    rw [assign, if_neg (by simp [hk]), reassign, hk] at hsub
    split at hsub
    · next sub₂ heq =>
      split at hsub
      · obtain rfl := Option.some.inj hsub
        refine Or.inl (leadsIn_replaceEntry hthere ?_)
        exact leadsIn_replaceEntry ⟨_, mem_of_lookup hk⟩ rfl
      · cases hsub
    · cases hsub

end Reading

end CrateBump.Toml
