/-
# Reading TOML line by line

What a line says does not depend on the lines before it: a line is read as a statement, which the
draft of the document then follows.  A document is therefore read by a run from line to line
(`Run`), and it can be read in two parts that meet at a line start (`Run.readAll_append`).
-/
import CrateBump.Proofs.TomlValues

namespace CrateBump.Toml

variable {d : Dialect} {n m : Nat} {t s : Text}

/-! ## Statements -/

/-- What a line says. -/
inductive Statement where
  /-- A header, in double brackets or not. -/
  | header (double : Bool) (key : List Text)
  /-- The assignment of a value to a key. -/
  | pair (key : List Text) (v : Value)

/-- A header behind its opening brackets, up to the last closing one. -/
def headerPart? (d : Dialect) (double : Bool) (t : Text) : Option (Statement × Text) :=
  (key? d t).bind fun p =>
    onByte 93
      (if double then onByte 93 (fun u => some (.header true p.1, u)) (fun _ => none)
        else fun u => some (.header false p.1, u))
      (fun _ => none) p.2

/-- An assignment up to the end of its value. -/
def pairPart? (d : Dialect) (t : Text) : Option (Statement × Text) :=
  (key? d t).bind fun p =>
    onByte 61
      (fun u => (value? d (2 * u.length + 2) (Text.skipBlanks u)).map fun q => (.pair p.1 q.1, q.2))
      (fun _ => none) p.2

/-- A statement up to the end of its last part. -/
def statementPart? (d : Dialect) : Text → Option (Statement × Text) :=
  onByte 91 (onByte 91 (headerPart? d true) (headerPart? d false)) (pairPart? d)

/-- A statement and the next line. -/
def statement? (d : Dialect) (t : Text) : Option (Statement × Text) :=
  (statementPart? d t).bind fun p => (endOfLine? p.2).map fun u => (p.1, u)

/-- The draft after a statement. -/
def Draft.follow (d : Dialect) (draft : Draft) : Statement → Option Draft
  | .header double key => draft.openHeader double key
  | .pair key v => (descend (assign d draft.headers v key) draft.path draft.entries).map fun es =>
      { draft with entries := es }

/-- A header is its brackets and then the end of a line. -/
theorem header?_eq (d : Dialect) (double : Bool) (t : Text) :
    (header? d double t).map (fun p => (Statement.header double p.1, p.2))
      = (headerPart? d double t).bind fun p => (endOfLine? p.2).map fun u => (p.1, u) := by
  rw [header?, headerPart?]
  split
  · next key rest hkey =>
    rw [hkey, Option.bind_some, onByte_cons]
    cases double with
    | false =>
      simp only [Bool.false_eq_true, if_false, Option.bind_some, Option.map_map]
      rfl
    | true =>
      simp only [if_true]
      split
      · next u =>
        rw [onByte_cons, Option.bind_some, Option.map_map]
        rfl
      · next hclose =>
        rw [onByte_of_ne _ _ hclose]
        rfl
  · next hkey =>
    rw [key?_bind_onByte_of_not _ hkey]
    rfl

/-- An assignment is its pair and then the end of a line. -/
theorem assignment?_eq (d : Dialect) (t : Text) :
    (assignment? d t).map (fun p => (Statement.pair p.1 p.2.1, p.2.2))
      = (pairPart? d t).bind fun p => (endOfLine? p.2).map fun u => (p.1, u) := by
  rw [assignment?, pairPart?]
  split
  · next key rest hkey =>
    rw [hkey, Option.bind_some, onByte_cons]
    cases value? d (2 * rest.length + 2) (Text.skipBlanks rest) with
    | none => rfl
    | some q =>
      obtain ⟨v, u⟩ := q
      simp only [Option.map_some, Option.bind_some, Option.map_map]
      rfl
  · next hkey =>
    rw [key?_bind_onByte_of_not _ hkey]
    rfl

/-- A line is read as a statement, which the draft then follows. -/
theorem Draft.line_eq (d : Dialect) (draft : Draft) (t : Text) :
    draft.line d t = (statement? d t).bind fun p =>
      (draft.follow d p.1).map fun next => (next, p.2) := by
  rw [statement?, statementPart?]
  unfold Draft.line
  split
  · next rest =>
    rw [onByte_cons, onByte_cons, ← header?_eq]
    cases header? d true rest with
    | none => rfl
    | some p =>
      show (draft.openHeader true p.1).bind _ = (draft.openHeader true p.1).map _
      rw [Option.map_eq_bind]
      rfl
  · next rest hdouble =>
    rw [onByte_cons, onByte_of_ne _ _ hdouble, ← header?_eq]
    cases header? d false rest with
    | none => rfl
    | some p =>
      show (draft.openHeader false p.1).bind _ = (draft.openHeader false p.1).map _
      rw [Option.map_eq_bind]
      rfl
  · next hdouble hsingle =>
    rw [onByte_of_ne _ _ hsingle, ← assignment?_eq]
    cases assignment? d t with
    | none => rfl
    | some p =>
      show (descend (assign d draft.headers p.2.1 p.1) draft.path draft.entries).bind _
        = ((descend (assign d draft.headers p.2.1 p.1) draft.path draft.entries).map _).map _
      rw [Option.map_map, Option.map_eq_bind]
      rfl

/-- A header ends in the line in which it starts, whatever follows. -/
theorem headerPart?_continues (d : Dialect) (double : Bool) :
    Continues (headerPart? d double) (headerPart? d double) := by
  cases double with
  | false =>
    exact fun t => (key?_continues d t).bind fun key =>
      onByte_only_continues (by decide) (continues_const _)
  | true =>
    exact fun t => (key?_continues d t).bind fun key =>
      onByte_only_continues (by decide) (onByte_only_continues (by decide) (continues_const _))

/-- A pair stops where its value ends, whatever follows. -/
theorem pairPart?_continues (d : Dialect) : Continues (pairPart? d) (pairPart? d) := by
  have hvalue : Continues (fun u => value? d (2 * u.length + 2) (Text.skipBlanks u))
      (fun u => value? d (2 * u.length + 2) (Text.skipBlanks u)) := fun u =>
    continuesAt_of_fuel (fun n u => value? d n (Text.skipBlanks u)) (2 * · + 2) (fun _ _ h => by omega)
      fun _ hm => (value?_continues d hm).behindBlanks u
  exact fun t => (key?_continues d t).bind fun key =>
    onByte_only_continues (by decide) fun u => (hvalue u).map (Statement.pair key)

theorem statementPart?_continues (d : Dialect) : Continues (statementPart? d) (statementPart? d) :=
  onByte_continues (by decide)
    (onByte_continues (by decide) (headerPart?_continues d true) (headerPart?_continues d false))
    (pairPart?_continues d)

/-- A statement is read alike whatever follows the text that ends its line. -/
theorem statement?_append (ht : EndsLine t) {x : Statement} (h : statement? d t = some (x, s))
    (r : Text) : statement? d (t ++ r) = some (x, s ++ r) := by
  obtain ⟨⟨y, u⟩, hpart, hu⟩ := Option.bind_eq_some_iff.1 h
  obtain ⟨v, hend, heq⟩ := Option.map_eq_some_iff.1 hu
  obtain ⟨rfl, rfl⟩ := Prod.mk.inj heq
  obtain ⟨hends, hlong⟩ := (statementPart?_continues d t hpart).2 ht
  rw [statement?, hlong, Option.bind_some, endOfLine?_append hends hend]
  rfl

/-- A statement ends with the text or at a line feed. -/
theorem statement?_ends {x : Statement} (h : statement? d t = some (x, s)) :
    s = [] ∨ ∃ p, t = p ++ lineFeed :: s := by
  obtain ⟨⟨y, u⟩, hpart, hu⟩ := Option.bind_eq_some_iff.1 h
  obtain ⟨v, hend, heq⟩ := Option.map_eq_some_iff.1 hu
  obtain ⟨rfl, rfl⟩ := Prod.mk.inj heq
  obtain ⟨w, rfl⟩ := (statementPart?_continues d t hpart).1
  rcases endOfLine?_eq_some hend with hnil | ⟨p, hp⟩
  · exact Or.inl hnil
  · exact Or.inr ⟨w ++ p, by rw [show u = p ++ lineFeed :: v from hp, List.append_assoc]⟩

/-- A statement takes bytes. -/
theorem statement?_length_lt {x : Statement} (h : statement? d t = some (x, s)) :
    s.length < t.length := by
  rcases statement?_ends h with rfl | ⟨p, rfl⟩
  · cases t with
    | nil => cases h
    | cons b t => simp
  · simp
    omega

/-! ## Documents -/

/-- Lines are read one by one: a gap, a statement, and what it does to the draft. -/
theorem Draft.lines_succ (d : Dialect) (n : Nat) (draft : Draft) (t : Text) :
    Draft.lines d (n + 1) draft t
      = if skipAllGaps t = [] then some draft
        else (statement? d (skipAllGaps t)).bind fun p => (draft.follow d p.1).bind fun next =>
          Draft.lines d n next p.2 := by
  rw [Draft.lines]
  split
  · next hnil => rw [if_pos hnil]
  next hne =>
  rw [if_neg hne, Draft.line_eq]
  cases statement? d (skipAllGaps t) with
  | none => rfl
  | some p =>
    rw [Option.bind_some, Option.bind_some]
    cases draft.follow d p.1 <;> rfl

/-- More fuel than bytes makes no difference. -/
theorem Draft.lines_fuel {draft : Draft} (hn : t.length < n) (hm : t.length < m) :
    Draft.lines d n draft t = Draft.lines d m draft t := by
  induction n generalizing draft t m with
  | zero => omega
  | succ n ih =>
    obtain ⟨m, rfl⟩ : ∃ k, m = k + 1 := ⟨m - 1, by omega⟩
    rw [Draft.lines_succ, Draft.lines_succ]
    split
    · rfl
    cases hs : statement? d (skipAllGaps t) with
    | none => rfl
    | some p =>
      have hgaps := (skipAllGaps_suffix t).length_le
      have hshort := statement?_length_lt hs
      simp only [Option.bind_some]
      congr 1
      funext next
      exact ih (by omega) (by omega)

/-- The draft after all lines of a text. -/
def Draft.readAll (d : Dialect) (draft : Draft) (t : Text) : Option Draft :=
  Draft.lines d (t.length + 1) draft t

/-- The equation of reading lines, without fuel. -/
theorem Draft.readAll_eq (d : Dialect) (draft : Draft) (t : Text) :
    draft.readAll d t
      = if skipAllGaps t = [] then some draft
        else (statement? d (skipAllGaps t)).bind fun p => (draft.follow d p.1).bind fun next =>
          next.readAll d p.2 := by
  rw [Draft.readAll, Draft.lines_succ]
  split
  · rfl
  cases hs : statement? d (skipAllGaps t) with
  | none => rfl
  | some p =>
    have hgaps := (skipAllGaps_suffix t).length_le
    have hshort := statement?_length_lt hs
    simp only [Option.bind_some]
    congr 1
    funext next
    exact Draft.lines_fuel (by omega) (Nat.lt_succ_self _)

/-- `Run d draft t last`: reading `t` line by line leads from `draft` to `last`. -/
inductive Run (d : Dialect) : Draft → Text → Draft → Prop where
  | done {draft : Draft} {t : Text} (h : skipAllGaps t = []) : Run d draft t draft
  | line {draft next last : Draft} {t s : Text} {x : Statement} (hne : skipAllGaps t ≠ [])
      (hx : statement? d (skipAllGaps t) = some (x, s)) (hnext : draft.follow d x = some next)
      (hrest : Run d next s last) : Run d draft t last

/-- What a run leads to is what is read. -/
theorem Run.readAll {draft last : Draft} (h : Run d draft t last) :
    draft.readAll d t = some last := by
  induction h with
  | done h => rw [Draft.readAll_eq, if_pos h]
  | line hne hx hnext _ ih =>
    rw [Draft.readAll_eq, if_neg hne, hx, Option.bind_some, hnext, Option.bind_some, ih]

theorem run_of_readAll {draft last : Draft} (h : draft.readAll d t = some last) :
    Run d draft t last := by
  -- by induction on the fuel, which only has to be more than the bytes that are left
  rw [Draft.readAll] at h
  generalize hn : t.length + 1 = n at h
  have hlt : t.length < n := by omega
  clear hn
  induction n generalizing draft t with
  | zero => omega
  | succ n ih =>
    rw [Draft.lines_succ] at h
    split at h
    · next hnil =>
      obtain rfl := Option.some.inj h
      exact .done hnil
    next hne =>
    obtain ⟨⟨x, s⟩, hx, h⟩ := Option.bind_eq_some_iff.1 h
    obtain ⟨next, hnext, h⟩ := Option.bind_eq_some_iff.1 h
    have hgaps := (skipAllGaps_suffix t).length_le
    have hshort := statement?_length_lt hx
    exact .line hne hx hnext (ih h (by omega))

/-- **A document can be read in two parts that meet at a line start.** -/
theorem Run.readAll_append {draft last : Draft} (h : Run d draft t last)
    (ht : t = [] ∨ EndsLine t) (r : Text) : draft.readAll d (t ++ r) = last.readAll d r := by
  induction h with
  | @done draft t h =>
    rcases ht with rfl | ht
    · rfl
    · rw [Draft.readAll_eq, skipAllGaps_append_of_nil ht h, ← Draft.readAll_eq]
  | @line draft next last t s x hne hx hnext hrest ih =>
    -- the statement is the same with more behind it, and what it leaves ends a line or is empty
    have hlong : EndsLine t := ht.resolve_left (by rintro rfl; exact hne rfl)
    have hends : EndsLine (skipAllGaps t) := hlong.of_suffix (skipAllGaps_suffix t) hne
    have hrestEnds : s = [] ∨ EndsLine s := by
      rcases statement?_ends hx with rfl | ⟨p, hp⟩
      · exact Or.inl rfl
      · by_cases hs : s = []
        · exact Or.inl hs
        · exact Or.inr (hends.of_suffix ⟨p ++ [lineFeed], by rw [hp]; simp⟩ hs)
    rw [Draft.readAll_eq, skipAllGaps_append hlong hne, if_neg (by simp [hne]),
      statement?_append hends hx, Option.bind_some, hnext, Option.bind_some, ih hrestEnds]

end CrateBump.Toml
