/-
# Decimal numerals

Natural numbers as digits, both ways.  `Decimal.ofNat` writes no leading zeros; `Decimal.value` reads
any run of digits, leading zeros included.  Main statement: reading what was written gives the number
back (`value_ofNat`).
-/
import CrateBump.Text.Basic

namespace CrateBump.Decimal

/-- The digit of a number below ten. -/
def digit (n : Nat) : UInt8 := (48 + n).toUInt8

/-- The number a digit stands for. -/
def digitValue (b : UInt8) : Nat := b.toNat - 48

/-- The digits of `n`, most significant first, with at most `fuel` of them. -/
def digitsWithin : (fuel : Nat) → Nat → Text
  | 0, _ => []
  | fuel + 1, n => if n < 10 then [digit n] else digitsWithin fuel (n / 10) ++ [digit (n % 10)]

/-- The decimal digits of a number, without leading zeros. -/
def ofNat (n : Nat) : Text := digitsWithin (n + 1) n

/-- An integer in decimal, with a minus sign where it is negative. -/
def ofInt : Int → Text
  | .ofNat n => ofNat n
  | .negSucc n => 45 :: ofNat (n + 1)

/-- The number a run of digits stands for. -/
def value (t : Text) : Nat := t.foldl (fun n b => 10 * n + digitValue b) 0

/-! ## Reading what was written -/

theorem digitsWithin_eq_of_lt {fuel fuel' n : Nat} (h : n < fuel) (h' : n < fuel') :
    digitsWithin fuel n = digitsWithin fuel' n := by
  induction fuel generalizing fuel' n with
  | zero => omega
  | succ fuel ih =>
    cases fuel' with
    | zero => omega
    | succ fuel' =>
      simp only [digitsWithin]
      split
      · rfl
      · rw [ih (by omega) (by omega : n / 10 < fuel')]

/-- A number is written as its tenth part followed by its last digit. -/
theorem ofNat_eq (n : Nat) :
    ofNat n = if n < 10 then [digit n] else ofNat (n / 10) ++ [digit (n % 10)] := by
  unfold ofNat
  rw [digitsWithin]
  split
  · rfl
  · rw [digitsWithin_eq_of_lt (by omega) (by omega : n / 10 < n / 10 + 1)]

theorem isDigit_digit {n : Nat} (h : n < 10) : Text.isDigit (digit n) = true := by
  have : n = 0 ∨ n = 1 ∨ n = 2 ∨ n = 3 ∨ n = 4 ∨ n = 5 ∨ n = 6 ∨ n = 7 ∨ n = 8 ∨ n = 9 := by omega
  rcases this with h | h | h | h | h | h | h | h | h | h <;> subst h <;> decide

theorem digitValue_digit {n : Nat} (h : n < 10) : digitValue (digit n) = n := by
  have : n = 0 ∨ n = 1 ∨ n = 2 ∨ n = 3 ∨ n = 4 ∨ n = 5 ∨ n = 6 ∨ n = 7 ∨ n = 8 ∨ n = 9 := by omega
  rcases this with h | h | h | h | h | h | h | h | h | h <;> subst h <;> decide

theorem ofNat_ne_nil (n : Nat) : ofNat n ≠ [] := by
  rw [ofNat_eq]
  split <;> simp

theorem isDigit_of_mem_ofNat {n : Nat} {b : UInt8} (h : b ∈ ofNat n) : Text.isDigit b = true := by
  induction n using Nat.strongRecOn with
  | _ n ih =>
    rw [ofNat_eq] at h
    split at h
    · next hn => rw [List.mem_singleton.1 h]; exact isDigit_digit hn
    · rcases List.mem_append.1 h with h | h
      · exact ih (n / 10) (by omega) h
      · rw [List.mem_singleton.1 h]; exact isDigit_digit (by omega)

/-- Reading what was written gives the number back. -/
theorem value_ofNat (n : Nat) : value (ofNat n) = n := by
  induction n using Nat.strongRecOn with
  | _ n ih =>
    rw [ofNat_eq]
    split
    · next hn => simp [value, digitValue_digit hn]
    · have := ih (n / 10) (by omega)
      simp only [value, List.foldl_append, List.foldl_cons, List.foldl_nil] at this ⊢
      rw [this, digitValue_digit (by omega)]
      omega

end CrateBump.Decimal
