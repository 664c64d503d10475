/-
# Package labels and the value they are read from

The labels of a package are read off the finished tables.  A key counts in any case, so two entries of
one table may claim the same label, and then the order decides in which they are visited.  Where no key
is spelled in two ways, every order gives the same labels (`ofDocument?_eq_written`); a text put under
`version` in the package table is then the version, and the name does not notice (`labels?_putIn`).
-/
import CrateBump.Package
import CrateBump.Proofs.TomlTables

namespace CrateBump.PackageInfo

open CrateBump.Toml

/-! ## Keys and their spellings -/

section Spellings

variable {key k : Text} {entries visited : List (Text × Value)} {v : Value}

theorem spellings_perm (h : visited.Perm entries) :
    (spellings key visited).Perm (spellings key entries) := h.filter _

/-- One spelling is visited in any order. -/
theorem spellings_visit (order : KeyOrder) (hone : (spellings key entries).length ≤ 1) :
    spellings key (order.visit entries) = spellings key entries := by
  have hperm : (spellings key (order.visit entries)).Perm (spellings key entries) :=
    spellings_perm (order.perm entries)
  match hentries : spellings key entries, hone with
  | [], _ => exact List.perm_nil.1 (hentries ▸ hperm)
  | [e], _ => exact List.perm_singleton.1 (hentries ▸ hperm)

theorem sameKey_self (key : Text) : sameKey key key = true := beq_self_eq_true _

/-- An entry under exactly the key is the only one, if there is one spelling. -/
theorem spellings_eq_singleton (hmem : (key, v) ∈ entries)
    (hone : (spellings key entries).length ≤ 1) : spellings key entries = [(key, v)] := by
  have hspelled : (key, v) ∈ spellings key entries := List.mem_filter.2 ⟨hmem, sameKey_self key⟩
  match hentries : spellings key entries, hone with
  | [], _ =>
    rw [hentries] at hspelled
    cases hspelled
  | [e], _ =>
    rw [hentries, List.mem_singleton] at hspelled
    rw [hspelled]

/-- How often a key is spelled depends on the keys alone. -/
theorem length_spellings (key : Text) (entries : List (Text × Value)) :
    (spellings key entries).length = (entries.map Prod.fst).countP fun k => sameKey k key := by
  rw [spellings, ← List.countP_eq_length_filter, List.countP_map]
  rfl

end Spellings

/-- No key that leads to a label is spelled in two ways. -/
structure OneSpelling (document : Value) : Prop where
  package : (spellings (ascii "package") document.entries).length ≤ 1
  labels : ∀ e ∈ spellings (ascii "package") document.entries,
    ∀ key ∈ [ascii "name", ascii "version"], (spellings key e.2.entries).length ≤ 1

instance (document : Value) : Decidable (OneSpelling document) :=
  decidable_of_iff ((spellings (ascii "package") document.entries).length ≤ 1
      ∧ ∀ e ∈ spellings (ascii "package") document.entries,
        ∀ key ∈ [ascii "name", ascii "version"], (spellings key e.2.entries).length ≤ 1)
    ⟨fun h => ⟨h.1, h.2⟩, fun h => ⟨h.package, h.labels⟩⟩

/-! ## The order of keys -/

section Order

variable {key before : Text} {entries : List (Text × Value)} {info : PackageInfo}

theorem textUnder?_visit (order : KeyOrder) (hone : (spellings key entries).length ≤ 1) :
    textUnder? key before (order.visit entries) = textUnder? key before entries := by
  rw [textUnder?, textUnder?, spellings_visit order hone]

theorem fill?_eq_written (order : KeyOrder) {table : Value}
    (hone : ∀ key ∈ [ascii "name", ascii "version"], (spellings key table.entries).length ≤ 1) :
    fill? order info table = fill? .written info table := by
  cases table with
  | table es =>
    have hname : (spellings (ascii "name") es).length ≤ 1 := hone _ (by simp)
    have hversion : (spellings (ascii "version") es).length ≤ 1 := hone _ (by simp)
    simp only [fill?, textUnder?_visit order hname, textUnder?_visit order hversion]
    rfl
  | _ => rfl

/-- **Where no key is spelled in two ways, the order in which keys are visited does not matter.** -/
theorem ofDocument?_eq_written (order : KeyOrder) {document : Value} (h : OneSpelling document) :
    ofDocument? order document = ofDocument? .written document := by
  rw [ofDocument?, ofDocument?, spellings_visit order h.package, spellings_visit .written h.package]
  have hlabels := h.labels
  match spellings (ascii "package") document.entries, h.package, hlabels with
  | [], _, _ => rfl
  | [e], _, hlabels =>
    simp only [List.foldlM_cons, List.foldlM_nil, bind_pure]
    exact fill?_eq_written order (hlabels e List.mem_cons_self)

end Order

/-! ## Finished tables -/

section Finished

variable {key k : Text} {es : Entries} {f : Entry → Entry} {e : Entry}

theorem valuesOf_eq_map (es : Entries) : valuesOf es = es.map fun p => (p.1, p.2.toValue) := by
  induction es with
  | nil => rw [valuesOf]; rfl
  | cons p es ih => rw [valuesOf, ih]; rfl

theorem mem_valuesOf (h : (key, e) ∈ es) : (key, e.toValue) ∈ valuesOf es := by
  rw [valuesOf_eq_map]
  exact List.mem_map_of_mem (f := fun p : Text × Entry => (p.1, p.2.toValue)) h

/-- A change under a key keeps all keys. -/
theorem length_spellings_mapKey (key k : Text) (f : Entry → Entry) (es : Entries) :
    (spellings key (valuesOf (mapKey k f es))).length = (spellings key (valuesOf es)).length := by
  rw [length_spellings, length_spellings, valuesOf_eq_map, valuesOf_eq_map, mapKey]
  simp only [List.map_map]
  rfl

/-- A change under another key does not show, whatever the case of the letters. -/
theorem spellings_mapKey_of_not (hk : sameKey k key = false) (f : Entry → Entry) (es : Entries) :
    spellings key (valuesOf (mapKey k f es)) = spellings key (valuesOf es) := by
  induction es with
  | nil => rfl
  | cons p es ih =>
    have hrest : spellings key (valuesOf (mapKey k f (p :: es)))
        = spellings key ((p.1, (if p.1 = k then f p.2 else p.2).toValue)
          :: valuesOf (mapKey k f es)) := rfl
    rw [hrest, show valuesOf (p :: es) = (p.1, p.2.toValue) :: valuesOf es from rfl, spellings,
      spellings, List.filter_cons, List.filter_cons]
    unfold spellings at ih
    by_cases hp : p.1 = k
    · simp only [hp, hk, Bool.false_eq_true, if_false, ih]
    · simp only [hp, if_false, ih]

/-- The entry that was changed is the only one under its key. -/
theorem spellings_mapKey (hmem : (key, e) ∈ es)
    (hone : (spellings key (valuesOf es)).length ≤ 1) (f : Entry → Entry) :
    spellings key (valuesOf (mapKey key f es)) = [(key, (f e).toValue)] := by
  have hchanged : (key, f e) ∈ mapKey key f es := mem_mapKey.2 ⟨e, hmem, by rw [if_pos rfl]⟩
  refine spellings_eq_singleton (mem_valuesOf hchanged) ?_
  rw [length_spellings_mapKey]
  exact hone

end Finished

/-! ## Labels -/

/-- The labels in the finished tables of a document. -/
def labels? (order : KeyOrder) (es : Entries) : Option PackageInfo :=
  ofDocument? order (.table (valuesOf es))

section Labels

variable {es sub : Entries} {info : PackageInfo}

/-- One package table tells the labels. -/
theorem labels?_eq_fill? {table : Value}
    (h : spellings (ascii "package") (valuesOf es) = [(ascii "package", table)]) :
    labels? .written es = fill? .written ⟨[], []⟩ table := by
  have hvisited : spellings (ascii "package") (KeyOrder.written.visit (Value.table (valuesOf es)).entries)
      = [(ascii "package", table)] := h
  rw [labels?, ofDocument?, hvisited]
  simp only [List.foldlM_cons, List.foldlM_nil, bind_pure]

theorem textUnder?_of_spellings {key before : Text} {entries : List (Text × Value)} {v : Value}
    (h : spellings key entries = [(key, v)]) : textUnder? key before entries = text? v := by
  rw [textUnder?, h]
  simp only [List.foldlM_cons, List.foldlM_nil, bind_pure]

/-- What a package table with one entry under `version` tells. -/
theorem fill?_of_version {entries : List (Text × Value)} {v : Value}
    (h : spellings (ascii "version") entries = [(ascii "version", v)]) :
    fill? .written info (.table entries)
      = (textUnder? (ascii "name") info.name entries).bind fun name =>
        (text? v).map fun version => ⟨name, version⟩ := by
  have hversion : textUnder? (ascii "version") info.version (KeyOrder.written.visit entries) = text? v :=
    textUnder?_of_spellings h
  simp only [fill?, hversion]
  rw [show KeyOrder.written.visit entries = entries from rfl]
  cases textUnder? (ascii "name") info.name entries <;> cases text? v <;> rfl

/-- The package table that a path leads through is the only one. -/
theorem exists_package {leaf : Bool} (hone : OneSpelling (.table (valuesOf es)))
    (hleads : LeadsIn leaf (ascii "package") [ascii "version"] es) :
    ∃ origin sub, (ascii "package", Entry.table origin sub) ∈ es
      ∧ LeadsIn leaf (ascii "version") [] sub
      ∧ spellings (ascii "package") (valuesOf es) = [(ascii "package", .table (valuesOf sub))]
      ∧ ∀ key ∈ [ascii "name", ascii "version"], (spellings key (valuesOf sub)).length ≤ 1 := by
  obtain ⟨e, he⟩ := hleads.1
  have hentry := hleads.2 e he
  cases e with
  | leaf v => exact absurd hentry not_false
  | tables items => exact absurd hentry not_false
  | table origin sub =>
    have hspelled : spellings (ascii "package") (valuesOf es)
        = [(ascii "package", .table (valuesOf sub))] := by
      have hvalue := mem_valuesOf he
      rw [Entry.toValue] at hvalue
      exact spellings_eq_singleton hvalue hone.package
    refine ⟨origin, sub, he, hentry, hspelled, fun key hkey => ?_⟩
    have hlabels := hone.labels (ascii "package", .table (valuesOf sub)) (by
      rw [show (Value.table (valuesOf es)).entries = valuesOf es from rfl, hspelled]
      exact List.mem_cons_self)
    exact hlabels key hkey

/-- **A text under `version` in the package table is the version, and the name does not notice.** -/
theorem labels?_putIn (hone : OneSpelling (.table (valuesOf es)))
    (hleads : LeadsIn true (ascii "package") [ascii "version"] es)
    (h : labels? .written es = some info) (w : Text) (order : KeyOrder) :
    labels? order (putIn (.text w) (ascii "package") [ascii "version"] es)
      = some { info with version := w } := by
  obtain ⟨origin, sub, hmem, hsub, hspelled, hlabels⟩ := exists_package hone hleads
  obtain ⟨e, he⟩ := hsub.1
  -- the tables after the change
  let sub' := putIn (.text w) (ascii "version") [] sub
  have hput : (Entry.put (.text w) [ascii "version"] (.table origin sub)).toValue
      = .table (valuesOf sub') := by
    rw [Entry.put, Entry.toValue]
    rfl
  have hspelled' : spellings (ascii "package")
      (valuesOf (putIn (.text w) (ascii "package") [ascii "version"] es))
        = [(ascii "package", .table (valuesOf sub'))] := by
    rw [putIn, spellings_mapKey hmem hone.package, hput]
  have hlabels' : ∀ key ∈ [ascii "name", ascii "version"],
      (spellings key (valuesOf sub')).length ≤ 1 := by
    intro key hkey
    rw [show sub' = mapKey (ascii "version") _ sub from rfl, length_spellings_mapKey]
    exact hlabels key hkey
  have hone' : OneSpelling
      (.table (valuesOf (putIn (.text w) (ascii "package") [ascii "version"] es))) := by
    constructor
    · rw [show ∀ entries, (Value.table entries).entries = entries from fun _ => rfl, hspelled']
      exact Nat.le_refl 1
    · rw [show ∀ entries, (Value.table entries).entries = entries from fun _ => rfl, hspelled']
      intro p hp
      obtain rfl := List.mem_singleton.1 hp
      exact hlabels'
  -- the labels before the change and after it
  have hversion : spellings (ascii "version") (valuesOf sub) = [(ascii "version", e.toValue)] :=
    spellings_eq_singleton (mem_valuesOf he) (hlabels _ (by simp))
  have hversion' : spellings (ascii "version") (valuesOf sub') = [(ascii "version", .text w)] := by
    have hleaf : e.isLeaf = true := hsub.2 e he
    have htext : (Entry.put (.text w) [] e).toValue = .text w := by
      cases e with
      | leaf v => rfl
      | table origin es => cases hleaf
      | tables items => cases hleaf
    rw [show sub' = mapKey (ascii "version") (Entry.put (.text w) []) sub from rfl,
      spellings_mapKey he (hlabels _ (by simp)), htext]
  have hname : textUnder? (ascii "name") [] (valuesOf sub')
      = textUnder? (ascii "name") [] (valuesOf sub) := by
    have hother : sameKey (ascii "version") (ascii "name") = false := by decide +kernel
    rw [textUnder?, textUnder?, show sub' = mapKey (ascii "version") _ sub from rfl,
      spellings_mapKey_of_not hother]
  rw [labels?_eq_fill? hspelled, fill?_of_version hversion] at h
  obtain ⟨name, hread, h⟩ := Option.bind_eq_some_iff.1 h
  obtain ⟨version, -, rfl⟩ := Option.map_eq_some_iff.1 h
  rw [labels?, ofDocument?_eq_written order hone', ← labels?, labels?_eq_fill? hspelled',
    fill?_of_version hversion', hname, hread]
  rfl

/-- A package table whose `version` is a table has no labels. -/
theorem labels?_eq_none (hone : OneSpelling (.table (valuesOf es)))
    (hleads : LeadsIn false (ascii "package") [ascii "version"] es) : labels? .written es = none := by
  obtain ⟨origin, sub, -, hsub, hspelled, hlabels⟩ := exists_package hone hleads
  obtain ⟨e, he⟩ := hsub.1
  have hversion : spellings (ascii "version") (valuesOf sub) = [(ascii "version", e.toValue)] :=
    spellings_eq_singleton (mem_valuesOf he) (hlabels _ (by simp))
  have hnoText : text? e.toValue = none := by
    have hleaf : e.isLeaf = false := hsub.2 e he
    cases e with
    | leaf v => cases hleaf
    | table origin es => rw [Entry.toValue]; rfl
    | tables items => rw [Entry.toValue]; rfl
  rw [labels?_eq_fill? hspelled, fill?_of_version hversion, hnoText]
  cases textUnder? (ascii "name") [] (valuesOf sub) <;> rfl

end Labels

end CrateBump.PackageInfo
