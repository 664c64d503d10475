/-
# Wildcards

Patterns for single names: `*` stands for any run of characters, `?` for one character, brackets for
one character of a class, and a backslash takes the next character literally.  A malformed pattern
fits no name.
-/
import CrateBump.Text.Utf8

namespace CrateBump.Git.Wildcard

/-- One character of a class, perhaps behind a backslash, and what follows it in the pattern. -/
def classChar? : List Nat → Option (Nat × List Nat)
  | [] => none
  | 45 :: _ => none
  | 93 :: _ => none
  | 92 :: c :: rest => if rest.isEmpty then none else some (c, rest)
  | [92] => none
  | c :: rest => if rest.isEmpty then none else some (c, rest)

/-- The ranges of a class up to its closing bracket, and what follows it. -/
def classRanges : (fuel : Nat) → List (Nat × Nat) → List Nat → Option (List (Nat × Nat) × List Nat)
  | 0, _, _ => none
  | fuel + 1, before, pattern =>
    match pattern, before with
    | 93 :: rest, _ :: _ => some (before, rest)
    | _, _ =>
      match classChar? pattern with
      | none => none
      | some (lo, 45 :: rest) =>
        match classChar? rest with
        | none => none
        | some (hi, rest) => classRanges fuel (before ++ [(lo, hi)]) rest
      | some (lo, rest) => classRanges fuel (before ++ [(lo, lo)]) rest

/-- Whether a character is in a class, and what follows the class; from behind its opening
bracket. -/
def inClass? (pattern : List Nat) (c : Nat) : Option (Bool × List Nat) :=
  let (negated, body) := match pattern with
    | 94 :: rest => (true, rest)
    | _ => (false, pattern)
  (classRanges (body.length + 1) [] body).map fun (ranges, rest) =>
    ((ranges.any fun r => r.1 ≤ c && c ≤ r.2) != negated, rest)

/-- Whether characters fit a pattern.  Each step shortens one of the two. -/
def fitsWithin : (fuel : Nat) → (pattern name : List Nat) → Bool
  | 0, _, _ => false
  | fuel + 1, pattern, name =>
    match pattern, name with
    | [], [] => true
    | [], _ :: _ => false
    | 42 :: rest, [] => fitsWithin fuel rest []
    | 42 :: rest, c :: more =>
      fitsWithin fuel rest (c :: more) || fitsWithin fuel (42 :: rest) more
    | _ :: _, [] => false
    | 63 :: rest, _ :: more => fitsWithin fuel rest more
    | 91 :: rest, c :: more =>
      match inClass? rest c with
      | some (true, rest) => fitsWithin fuel rest more
      | _ => false
    | 92 :: p :: rest, c :: more => p == c && fitsWithin fuel rest more
    | p :: rest, c :: more => p != 92 && p == c && fitsWithin fuel rest more

/-- Whether a name fits a pattern. -/
def fits (pattern name : Text) : Bool :=
  let p := Text.codes pattern
  let n := Text.codes name
  fitsWithin (p.length + n.length + 1) p n

end CrateBump.Git.Wildcard
