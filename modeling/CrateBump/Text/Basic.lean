/-
# Text as bytes

Manifests, answers, paths and messages are byte strings: nothing promises that a file is valid
UTF-8, and every offset the library reports counts bytes.  `Text` is therefore a plain list of
bytes, and this module has the few cutting and joining operations the rest is written with.
-/

namespace CrateBump

/-- A byte string. -/
abbrev Text := List UInt8

/-- The bytes of an ASCII literal. -/
def ascii (s : String) : Text := s.toList.map Char.toUInt8

/-- The line feed that ends a line. -/
abbrev lineFeed : UInt8 := 10

/-- The double quote around a value. -/
abbrev doubleQuote : UInt8 := 34

/-- The slash between path elements. -/
abbrev slash : UInt8 := 47

/-- The dot between version components. -/
abbrev dot : UInt8 := 46

namespace Text

/-! ## Byte classes -/

/-- A space or a tab, the blanks that may indent a line. -/
def isBlank (b : UInt8) : Bool := b == 32 || b == 9

/-- A space, tab, line feed, form feed or carriage return. -/
def isSpace (b : UInt8) : Bool := b == 32 || b == 9 || b == 10 || b == 12 || b == 13

/-- A decimal digit. -/
def isDigit (b : UInt8) : Bool := 48 ≤ b && b ≤ 57

/-- An ASCII letter. -/
def isLetter (b : UInt8) : Bool := (65 ≤ b && b ≤ 90) || (97 ≤ b && b ≤ 122)

/-- The lower case of an ASCII letter, and any other byte as it is. -/
def lowerByte (b : UInt8) : UInt8 := if 65 ≤ b && b ≤ 90 then b + 32 else b

/-- The upper case of an ASCII letter, and any other byte as it is. -/
def upperByte (b : UInt8) : UInt8 := if 97 ≤ b && b ≤ 122 then b - 32 else b

/-! ## Digits -/

/-- The value of a hexadecimal digit. -/
def hexValue? (b : UInt8) : Option Nat :=
  if isDigit b then some (b.toNat - 48)
  else if 97 ≤ b && b ≤ 102 then some (b.toNat - 87)
  else if 65 ≤ b && b ≤ 70 then some (b.toNat - 55)
  else none

/-- The value of a run of digits in some base. -/
def digitsValue? (digit? : UInt8 → Option Nat) (base : Nat) (t : Text) : Option Nat :=
  t.foldl (fun acc b => match acc, digit? b with
    | some n, some d => some (base * n + d)
    | _, _ => none) (some 0)

/-! ## Cutting and joining -/

/-- The text behind any blanks at the front. -/
def skipBlanks (t : Text) : Text := t.dropWhile isBlank

/-- The pieces between the occurrences of `sep`; there is always at least one. -/
def splitOn (sep : UInt8) : Text → List Text
  | [] => [[]]
  | b :: rest =>
    if b = sep then [] :: splitOn sep rest
    else match splitOn sep rest with
      | [] => [[b]]
      | piece :: pieces => (b :: piece) :: pieces

theorem splitOn_ne_nil (sep : UInt8) (t : Text) : splitOn sep t ≠ [] := by
  cases t with
  | nil => simp [splitOn]
  | cons b rest =>
    unfold splitOn
    split
    · simp
    · split <;> simp

/-- The texts one after another with `sep` between neighbours. -/
def joinWith (sep : Text) : List Text → Text
  | [] => []
  | [t] => t
  | t :: u :: rest => t ++ sep ++ joinWith sep (u :: rest)

/-- Joining the pieces gives the text back. -/
theorem joinWith_splitOn (sep : UInt8) (t : Text) : joinWith [sep] (splitOn sep t) = t := by
  induction t with
  | nil => rfl
  | cons b rest ih =>
    unfold splitOn
    split
    · next h =>
      cases hr : splitOn sep rest with
      | nil => exact absurd hr (splitOn_ne_nil sep rest)
      | cons piece pieces => rw [hr] at ih; simp [joinWith, ih, h]
    · cases hr : splitOn sep rest with
      | nil => exact absurd hr (splitOn_ne_nil sep rest)
      | cons piece pieces =>
        rw [hr] at ih
        cases pieces with
        | nil => simp only [joinWith] at ih ⊢; rw [ih]
        | cons q qs => simp only [joinWith, List.cons_append] at ih ⊢; rw [ih]

theorem splitOn_of_not_mem {sep : UInt8} {t : Text} (h : sep ∉ t) : splitOn sep t = [t] := by
  induction t with
  | nil => rfl
  | cons b t ih =>
    rw [List.mem_cons, not_or] at h
    rw [splitOn, if_neg (Ne.symm h.1), ih h.2]

/-- A separator ends the pieces of the text before it. -/
theorem splitOn_append_cons (sep : UInt8) (s t : Text) :
    splitOn sep (s ++ sep :: t) = splitOn sep s ++ splitOn sep t := by
  induction s with
  | nil => simp [splitOn]
  | cons b s ih =>
    rw [List.cons_append, splitOn, splitOn]
    split
    · rw [ih, List.cons_append]
    · rw [ih]
      cases hs : splitOn sep s with
      | nil => exact absurd hs (splitOn_ne_nil sep s)
      | cons piece pieces => rfl

theorem not_mem_of_mem_splitOn {sep : UInt8} {t piece : Text} (h : piece ∈ splitOn sep t) :
    sep ∉ piece := by
  induction t generalizing piece with
  | nil => simp_all [splitOn]
  | cons b t ih =>
    rw [splitOn] at h
    split at h
    · rcases List.mem_cons.1 h with rfl | h
      · exact List.not_mem_nil
      · exact ih h
    · next hb =>
      cases hs : splitOn sep t with
      | nil => exact absurd hs (splitOn_ne_nil sep t)
      | cons first pieces =>
        rw [hs] at h ih
        rcases List.mem_cons.1 h with rfl | h
        · rw [List.mem_cons, not_or]
          exact ⟨Ne.symm hb, ih List.mem_cons_self⟩
        · exact ih (List.mem_cons_of_mem _ h)

/-- Splitting gives the joined pieces back, if none of them has the separator in it. -/
theorem splitOn_joinWith {sep : UInt8} {ts : List Text} (hne : ts ≠ [])
    (h : ∀ t ∈ ts, sep ∉ t) : splitOn sep (joinWith [sep] ts) = ts := by
  induction ts with
  | nil => exact absurd rfl hne
  | cons t ts ih =>
    have ht : splitOn sep t = [t] := splitOn_of_not_mem (h t List.mem_cons_self)
    cases ts with
    | nil => exact ht
    | cons u ts =>
      have hrest := ih (List.cons_ne_nil u ts) fun v hv => h v (List.mem_cons_of_mem _ hv)
      rw [joinWith, List.append_assoc, List.singleton_append, splitOn_append_cons, ht, hrest,
        List.singleton_append]

/-- Text behind a byte does not change what stands before its first occurrence. -/
theorem takeWhile_append_of_mem {c : UInt8} {s : Text} (h : c ∈ s) (t : Text) :
    (s ++ t).takeWhile (· != c) = s.takeWhile (· != c) := by
  induction s with
  | nil => cases h
  | cons b s ih =>
    by_cases hb : b = c
    · simp [hb]
    · have hmem : c ∈ s := by
        rcases List.mem_cons.1 h with hc | hc
        · exact absurd hc.symm hb
        · exact hc
      simp only [List.cons_append, List.takeWhile_cons, bne_iff_ne.2 hb, if_true, ih hmem]

/-- What follows `lead`, if the text starts with it. -/
def dropLead? (lead t : Text) : Option Text :=
  match lead, t with
  | [], t => some t
  | _ :: _, [] => none
  | a :: lead, b :: t => if a = b then dropLead? lead t else none

theorem dropLead?_eq_some_iff {lead t rest : Text} :
    dropLead? lead t = some rest ↔ t = lead ++ rest := by
  induction lead generalizing t with
  | nil => simp [dropLead?, eq_comm]
  | cons a lead ih =>
    cases t with
    | nil => simp [dropLead?]
    | cons b t =>
      by_cases h : a = b
      · simp [dropLead?, h, ih]
      · simp [dropLead?, h, Ne.symm h]

/-- Whether the text starts with `lead`. -/
def startsWith (lead t : Text) : Bool := (dropLead? lead t).isSome

/-- Whether the text ends with `tail`. -/
def endsWith (tail t : Text) : Bool := startsWith tail.reverse t.reverse

/-- Whether `part` occurs somewhere in the text. -/
def hasInfix (part : Text) : Text → Bool
  | [] => part.isEmpty
  | b :: rest => startsWith part (b :: rest) || hasInfix part rest

/-- The text without the bytes of class `p` at its end. -/
def dropEndWhile (p : UInt8 → Bool) (t : Text) : Text := (t.reverse.dropWhile p).reverse

/-! ## Order -/

/-- Byte-wise lexicographic order. -/
def le : Text → Text → Bool
  | [], _ => true
  | _ :: _, [] => false
  | a :: s, b :: t => a < b || (a == b && le s t)

/-- The texts in ascending byte order. -/
def sort (ts : List Text) : List Text := ts.mergeSort le

/-- Each text once, at its first place. -/
def distinct (ts : List Text) : List Text := ts.eraseDups

end Text

end CrateBump
