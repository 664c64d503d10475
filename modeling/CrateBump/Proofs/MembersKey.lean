/-
# The key of the members array

A reader expects the members of a manifest under the key `members`, which starts a line.  The search
takes the first place where an array opens, and an opening counts on any line behind any text: in
another key that ends in `members`, in a comment, in a string.  So the lines in front of the key do not
matter as long as no array opens in them, and from the first one that does open there the members are
read instead.

Main statement: the entries under the key are found exactly if the first array that opens in an earlier
line, if there is one, has the same entries (`findMembers?_under_key_iff`).
-/
import CrateBump.Proofs.ArrayEntries
import CrateBump.Proofs.Declaration

namespace CrateBump

/-! ## The key at the start of a line -/

/-- An array at the front of a line, behind blanks: the text up to its bracket and what follows. -/
def membersLine? (t : Text) : Option (Text × Text) :=
  (membersOpening? (Text.skipBlanks t)).map fun (opening, inner) => (leadBlanks t ++ opening, inner)

theorem membersLine?_eq_some {t lead inner : Text} (h : membersLine? t = some (lead, inner)) :
    ∃ a o, AllBlank a ∧ IsMembersOpening o ∧ lead = a ++ o ∧ t = lead ++ inner := by
  obtain ⟨⟨o, rest⟩, hopening, heq⟩ := Option.map_eq_some_iff.1 h
  obtain ⟨rfl, rfl⟩ := Prod.mk.inj heq
  obtain ⟨ho, hskip⟩ := membersOpening?_eq_some hopening
  refine ⟨leadBlanks t, o, allBlank_leadBlanks t, ho, rfl, ?_⟩
  rw [List.append_assoc, ← hskip, leadBlanks_append_skipBlanks]

/-- The members under the key: the entries of the first array whose key starts a line. -/
def membersUnderKey? (content : Text) : Option (List Text) :=
  match searchLines membersLine? true content with
  | some (_, _, inner) => if inner.contains 93 then some (entries (arrayBody inner)) else none
  | none => none

/-! ## Arrays in earlier lines -/

/-- Blanks behind a text open no array. -/
theorem opens_append_blanks_iff {s a : Text} (ha : AllBlank a) : Opens (s ++ a) ↔ Opens s := by
  constructor
  · rintro ⟨skip, o, rest, ho, heq⟩
    obtain ⟨front, rfl⟩ := ho.exists_bracket
    have hbracket : 91 ∉ a := by
      intro hmem
      exact absurd (ha 91 hmem) (by decide)
    have hsplit : skip ++ front ++ 91 :: rest = s ++ a := by rw [heq]; simp
    obtain ⟨more, rfl, -⟩ := exists_append_eq_of_not_mem hbracket hsplit
    exact ⟨skip, front ++ [91], more, ho, by simp⟩
  · rintro ⟨skip, o, rest, ho, rfl⟩
    exact ⟨skip, o, rest ++ a, ho, by simp⟩

/-- A text in which an array opens has a first opening. -/
theorem Opens.exists_first {t : Text} (h : Opens t) :
    ∃ skip o rest, t = skip ++ (o ++ rest) ∧ IsMembersOpening o ∧ ¬ Opens skip := by
  rcases opening_or_noOpening t with ⟨skip, o, rest, ht, ho, hskip⟩ | hnone
  · exact ⟨skip, o, rest, ht, ho, (noOpening_opening_iff ho skip rest).1 hskip⟩
  · exact absurd h (noOpening_nil_iff.1 hnone)

/-- **The members under the key are found exactly if no other array in front of it gets in the way.**
Where a key `members` starts a line and its array is closed, the search agrees with the entries of that
array whatever the earlier lines are, unless an array opens in them, in whatever place; and then exactly
if the first array that opens there has, up to the next closing bracket, the same entries. -/
theorem findMembers?_under_key_iff {content before lead inner : Text}
    (h : searchLines membersLine? true content = some (before, lead, inner)) (hclosed : 93 ∈ inner) :
    findMembers? content = membersUnderKey? content
      ↔ ∀ skip o rest, before = skip ++ (o ++ rest) → IsMembersOpening o → ¬ Opens skip →
          entries (arrayBody (rest ++ (lead ++ inner))) = entries (arrayBody inner) := by
  have hkey : membersUnderKey? content = some (entries (arrayBody inner)) := by
    rw [membersUnderKey?, h]
    exact if_pos (List.contains_iff_mem.2 hclosed)
  obtain ⟨line, rfl, -, -, hline⟩ := searchLines_eq_some_iff.1 h
  obtain ⟨a, key, ha, hopening, rfl, rfl⟩ := membersLine?_eq_some hline
  have hearlier : ∀ skip o rest, before = skip ++ (o ++ rest) → IsMembersOpening o → ¬ Opens skip →
      findMembers? (before ++ (a ++ key ++ inner))
        = some (entries (arrayBody (rest ++ (a ++ key ++ inner)))) := by
    rintro skip o rest rfl ho hskip
    rw [List.append_assoc, List.append_assoc o]
    exact findMembers?_opening hskip ho (by simp [hclosed])
  rw [hkey]
  by_cases hopens : Opens before
  · obtain ⟨skip, o, rest, hbefore, ho, hskip⟩ := hopens.exists_first
    constructor
    · intro heq skip' o' rest' hbefore' ho' hskip'
      rw [hearlier skip' o' rest' hbefore' ho' hskip', Option.some.injEq] at heq
      exact heq
    · intro hsame
      rw [hearlier skip o rest hbefore ho hskip, hsame skip o rest hbefore ho hskip]
  · have hfirst : ¬ Opens (before ++ a) := fun hopens' => hopens ((opens_append_blanks_iff ha).1 hopens')
    have hfound := findMembers?_opening hfirst hopening hclosed
    simp only [List.append_assoc] at hfound ⊢
    refine ⟨fun _ skip o rest hbefore ho _ => ?_, fun _ => hfound⟩
    exact absurd ⟨skip, o, rest, ho, hbefore⟩ hopens

/-- Earlier lines with the word, with brackets and with a value that is no array. -/
theorem under_key_behind_lines :
    findMembers? (ascii "# members: [\"old\"]\n[workspace]\nmembers2 = [\"x\"]\n\tmembers = [\"m\"]")
      = some [ascii "m"] := by
  have hsearch : searchLines membersLine? true
      (ascii "# members: [\"old\"]\n[workspace]\nmembers2 = [\"x\"]\n\tmembers = [\"m\"]")
      = some (ascii "# members: [\"old\"]\n[workspace]\nmembers2 = [\"x\"]\n", ascii "\tmembers = [",
        ascii "\"m\"]") := by decide +kernel
  have hfree : ¬ Opens (ascii "# members: [\"old\"]\n[workspace]\nmembers2 = [\"x\"]\n") := by
    decide +kernel
  have hagree := (findMembers?_under_key_iff hsearch (by decide)).2
    fun skip o rest hbefore ho _ => absurd ⟨skip, o, rest, ho, hbefore⟩ hfree
  rw [hagree]
  decide +kernel

/-- Another key that ends in `members` and a comment, each in front of the key: the members are read
from there. -/
theorem under_key_hidden :
    (membersUnderKey? (ascii "default-members = [\"d\"]\nmembers = [\"m\"]") = some [ascii "m"]
      ∧ findMembers? (ascii "default-members = [\"d\"]\nmembers = [\"m\"]") = some [ascii "d"])
    ∧ membersUnderKey? (ascii "# members = [\"old\"]\nmembers = [\"m\"]") = some [ascii "m"]
      ∧ findMembers? (ascii "# members = [\"old\"]\nmembers = [\"m\"]") = some [ascii "old"] := by
  decide +kernel

end CrateBump
