/-
# Entries by key

Nodes by location, snapshots by path, tables by name, repositories by their place: each is a list of
entries in which a key is looked up, and the first entry counts.  Entries are changed and left out by
their keys, so that every key keeps its own answer.
-/

namespace CrateBump

section Entries

variable {κ α β : Type} [BEq κ] [LawfulBEq κ] {entries : List (κ × α)} {k : κ} {a : α}

/-- What is found under a key is one of the entries. -/
theorem mem_of_lookup (h : entries.lookup k = some a) : (k, a) ∈ entries := by
  obtain ⟨before, after, rfl, -⟩ := List.lookup_eq_some_iff.1 h
  exact List.mem_append_right before List.mem_cons_self

/-- Where nothing is found under a key there is no entry under it. -/
theorem not_mem_of_lookup (h : entries.lookup k = none) : (k, a) ∉ entries := fun hmem => by
  simpa using List.lookup_eq_none_iff.1 h (k, a) hmem

/-- In a list that says one thing about each key, what it says is what is looked up. -/
theorem lookup_eq_some_iff_mem (hone : ∀ k a b, (k, a) ∈ entries → (k, b) ∈ entries → a = b) :
    entries.lookup k = some a ↔ (k, a) ∈ entries := by
  refine ⟨mem_of_lookup, fun hmem => ?_⟩
  cases hlookup : entries.lookup k with
  | none => exact absurd hmem (not_mem_of_lookup hlookup)
  | some b => rw [hone k a b hmem (mem_of_lookup hlookup)]

/-- Entries that are left out by their keys are not found any more, and all others are. -/
theorem lookup_filter_key (keep : κ → Bool) (entries : List (κ × α)) (k : κ) :
    (entries.filter fun e => keep e.1).lookup k = if keep k then entries.lookup k else none := by
  induction entries with
  | nil => simp
  | cons e entries ih =>
    obtain ⟨key, a⟩ := e
    rw [List.filter_cons, List.lookup_cons]
    by_cases hk : k = key
    · subst hk
      cases hkeep : keep k with
      | true => simp
      | false => simpa [hkeep] using ih
    · have hother : (k == key) = false := beq_false_of_ne hk
      cases keep key <;> simp [ih, List.lookup_cons, hother]

/-- What stands under a key is changed as its key says. -/
theorem lookup_map_value (f : κ → α → β) (entries : List (κ × α)) (k : κ) :
    (entries.map fun e => (e.1, f e.1 e.2)).lookup k = (entries.lookup k).map (f k) := by
  induction entries with
  | nil => rfl
  | cons e entries ih =>
    rw [List.map_cons, List.lookup_cons, List.lookup_cons, ih]
    by_cases hk : k = e.1
    · subst hk
      simp
    · rw [beq_false_of_ne hk]

end Entries

end CrateBump
