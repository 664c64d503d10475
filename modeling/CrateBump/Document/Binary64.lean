/-
# Binary floating-point numbers

A number written in decimal is kept as the nearest number of 53 binary digits, a tie going to the
even one.  It is written back with the fewest decimal digits that read as the same number.  All
arithmetic is exact on natural numbers.
-/
import CrateBump.Decimal

namespace CrateBump

/-- A binary floating-point number. -/
inductive Binary64 where
  /-- The number `± mantissa * 2 ^ exponent`. -/
  | finite (negative : Bool) (mantissa : Nat) (exponent : Int)
  | infinite (negative : Bool)
  | notANumber
  deriving DecidableEq, Repr

namespace Binary64

/-- The least mantissa that uses all of its bits. -/
def fullMantissa : Nat := 0x10000000000000

/-- The least exponent. -/
def minExponent : Int := -1074

/-- The greatest exponent of a number with a full mantissa. -/
def maxExponent : Int := 971

/-- A fraction `num / den` scaled by a power of two, as numerator and denominator. -/
def scaleTwo (num den : Nat) (power : Int) : Nat × Nat :=
  if 0 ≤ power then (num <<< power.toNat, den) else (num, den <<< (-power).toNat)

/-- A fraction `num / den` scaled by a power of ten, as numerator and denominator. -/
def scaleTen (num den : Nat) (power : Int) : Nat × Nat :=
  if 0 ≤ power then (num * Nat.pow 10 power.toNat, den) else (num, den * Nat.pow 10 (-power).toNat)

/-- The quotient rounded to the nearest natural number, a tie to the even one. -/
def roundDiv (num den : Nat) : Nat :=
  let q := num / den
  let r := num % den
  if 2 * r < den then q
  else if den < 2 * r then q + 1
  else if q % 2 = 0 then q else q + 1

/-- The greatest `e` with `2 ^ e ≤ num / den`, for positive `num` and `den`. -/
def floorLog (num den : Nat) : Int :=
  let guess := (Nat.log2 num : Int) - Nat.log2 den
  let (n, d) := scaleTwo num den (-guess)
  if d ≤ n then guess else guess - 1

/-- The nearest number to a positive fraction, unless it is too large. -/
def nearest? (negative : Bool) (num den : Nat) : Option Binary64 :=
  let e := max (floorLog num den - 52) minExponent
  let (n, d) := scaleTwo num den (-e)
  let m := roundDiv n d
  let (m, e) := if m = 2 * fullMantissa then (fullMantissa, e + 1) else (m, e)
  if maxExponent < e then none else some (finite negative m e)

/-- The nearest number to `digits * 10 ^ power`, unless it is too large.  Exponents that decide the
matter at once are not expanded. -/
def ofDecimal? (negative : Bool) (digits : Nat) (power : Int) : Option Binary64 :=
  if digits = 0 then some (finite negative 0 0)
  else
    let magnitude := (Decimal.ofNat digits).length + power
    if 310 < magnitude then none
    else if magnitude < -330 then some (finite negative 0 0)
    else
      let (num, den) := scaleTen digits 1 power
      nearest? negative num den

/-! ## Fewest digits -/

/-- The ends of the interval that reads as `m * 2 ^ e`, in units of `2 ^ (e - 2)`. -/
def ends (m : Nat) (e : Int) : Nat × Nat :=
  (if m = fullMantissa ∧ minExponent < e then 4 * m - 1 else 4 * m - 2, 4 * m + 2)

/-- Whether `digits * 10 ^ power` reads as `m * 2 ^ e`. -/
def readsAs (m : Nat) (e : Int) (digits : Nat) (power : Int) : Bool :=
  let (lo, hi) := ends m e
  let (num, den) := scaleTen digits 1 power
  let (num, den) := scaleTwo num den (2 - e)
  if m % 2 = 0 then lo * den ≤ num && num ≤ hi * den else lo * den < num && num < hi * den

/-- The decimal exponent of the first digit of a positive fraction. -/
def firstPlace (num den : Nat) : Int :=
  if den ≤ num then (Decimal.ofNat (num / den)).length - 1
  else
    let guess := -((Decimal.ofNat (den / num)).length : Int)
    let (n, d) := scaleTen num den (-(guess + 1))
    if d ≤ n then guess + 1 else guess

/-- Of the two neighbours of the number on the grid of `10 ^ power`, the nearer that reads as it. -/
def onGrid? (m : Nat) (e : Int) (power : Int) : Option Nat :=
  let (num, den) := scaleTwo m 1 e
  let (num, den) := scaleTen num den (-power)
  let low := num / den
  let lowNear := 2 * (num % den) ≤ den
  match readsAs m e low power, readsAs m e (low + 1) power with
  | true, true => some (if lowNear then low else low + 1)
  | true, false => some low
  | false, true => some (low + 1)
  | false, false => none

/-- The first grid with a hit among those of at least `count` digits. -/
def fewestFrom (m : Nat) (e first : Int) : (tries : Nat) → (count : Nat) → Nat × Int
  | 0, count => (m, first - count + 1)
  | tries + 1, count =>
    match onGrid? m e (first - count + 1) with
    | some digits => (digits, first - count + 1)
    | none => fewestFrom m e first tries (count + 1)

/-- The fewest digits that read as `m * 2 ^ e`, with the power of ten of the last one. -/
def fewest (m : Nat) (e : Int) : Nat × Int :=
  let (num, den) := scaleTwo m 1 e
  fewestFrom m e (firstPlace num den) 17 1

/-- Digits and a power of ten in positional notation. -/
def positionalDigits (digits : Nat) (power : Int) : Text :=
  let written := Decimal.ofNat digits
  if 0 ≤ power then written ++ List.replicate power.toNat 48
  else
    let places := (-power).toNat
    let padded := List.replicate (places + 1 - written.length) 48 ++ written
    let cut := padded.length - places
    let fraction := Text.dropEndWhile (· == 48) (padded.drop cut)
    padded.take cut ++ if fraction.isEmpty then [] else dot :: fraction

/-- The number in positional notation with the fewest digits. -/
def positional : Binary64 → Text
  | notANumber => ascii "NaN"
  | infinite true => ascii "-Inf"
  | infinite false => ascii "+Inf"
  | finite negative m e =>
    let sign := if negative then [45] else []
    if m = 0 then sign ++ [48]
    else
      let (digits, power) := fewest m e
      sign ++ positionalDigits digits power

/-- Whether the number is a zero of either sign. -/
def isZero : Binary64 → Bool
  | finite _ m _ => m == 0
  | _ => false

end Binary64

end CrateBump
