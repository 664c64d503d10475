/-
# Numerals

What digits stand for and how numbers are written.  The digit loop of a version component reads the
runs of digits whose value fits a word of 64 bits, and no other text; numbers are written with the
digits of their decimal representation, without leading zeros.

Main statements: the loop reads exactly these runs (`number?_eq_some_iff`), a run stands for the
number with these digits in base ten (`value_eq_ofDigits`), and of two numerals without leading
zeros the longer one is the greater (`value_lt_of_length_lt`).
-/
import Mathlib.Data.Nat.Digits.Defs
import CrateBump.Version.Triple

namespace CrateBump

/-! ## Values -/

namespace Decimal

theorem digitValue_lt_ten {b : UInt8} (h : Text.isDigit b = true) : digitValue b < 10 := by
  have hle : b ≤ 57 := by
    rw [Text.isDigit, Bool.and_eq_true] at h
    exact of_decide_eq_true h.2
  have hnat : b.toNat ≤ 57 := UInt8.le_iff_toNat_le.1 hle
  unfold digitValue
  omega

/-- The value of a run of digits is the number with these digits in base ten. -/
theorem value_eq_ofDigits (t : Text) : value t = Nat.ofDigits 10 (t.map digitValue).reverse := by
  rw [Nat.ofDigits_eq_foldr, List.foldr_reverse, List.foldl_map, value]
  simp only [Nat.cast_id, Nat.add_comm]

/-- The first digit counts for a power of ten that the digits behind it decide. -/
theorem value_cons (b : UInt8) (t : Text) :
    value (b :: t) = digitValue b * 10 ^ t.length + value t := by
  rw [value_eq_ofDigits, value_eq_ofDigits, List.map_cons, List.reverse_cons, Nat.ofDigits_append,
    Nat.ofDigits_singleton, List.length_reverse, List.length_map, Nat.add_comm, Nat.mul_comm]

/-- Digits are worth less than the power of ten of their number. -/
theorem value_lt {t : Text} (h : ∀ b ∈ t, Text.isDigit b = true) : value t < 10 ^ t.length := by
  have hdigits : ∀ n ∈ (t.map digitValue).reverse, n < 10 := by
    intro n hn
    obtain ⟨b, hb, rfl⟩ := List.mem_map.1 (List.mem_reverse.1 hn)
    exact digitValue_lt_ten (h b hb)
  have hlt := Nat.ofDigits_lt_base_pow_length (by decide : 1 < 10) hdigits
  rwa [← value_eq_ofDigits, List.length_reverse, List.length_map] at hlt

end Decimal

/-! ## The digit loop -/

namespace Triple

/-- Below the threshold at which the digit loop stops, ten times a number does not wrap. -/
theorem toNat_mul_ten {n : UInt64} (h : n < full) : (n * 10).toNat = 10 * n.toNat := by
  have hn : n.toNat < 1844674407370955162 := UInt64.lt_iff_toNat_lt.1 h
  have hfits : n.toNat * 10 < 2 ^ 64 := by omega
  rw [UInt64.toNat_mul]
  exact (Nat.mod_eq_of_lt hfits).trans (Nat.mul_comm _ _)

/-- A digit is refused exactly if the number does not fit a word with it. -/
theorem appendDigit?_eq_some_iff {n m : UInt64} {b : UInt8} :
    appendDigit? n b = some m
      ↔ Text.isDigit b = true ∧ 10 * n.toNat + Decimal.digitValue b = m.toNat := by
  unfold appendDigit?
  by_cases hb : Text.isDigit b = true
  case neg => simp [hb]
  have hdigit := Decimal.digitValue_lt_ten hb
  have hm := m.toNat_lt
  rw [if_neg (by simp [hb])]
  by_cases hfull : full ≤ n
  · have hn : 1844674407370955162 ≤ n.toNat := UInt64.le_iff_toNat_le.1 hfull
    rw [if_pos hfull]
    simp only [reduceCtorEq, false_iff, not_and]
    omega
  have hlt : n < full := UInt64.not_le.1 hfull
  have hn : n.toNat < 1844674407370955162 := UInt64.lt_iff_toNat_lt.1 hlt
  have hshifted := toNat_mul_ten hlt
  have happended : (n * 10 + UInt64.ofNat (Decimal.digitValue b)).toNat
      = (10 * n.toNat + Decimal.digitValue b) % 2 ^ 64 := by
    rw [UInt64.toNat_add, hshifted, UInt64.toNat_ofNat_of_lt' (by show _ < 2 ^ 64; omega)]
  -- the sum wrapped exactly if it came out below its first summand
  rw [if_neg hfull]
  dsimp only
  rw [Option.ite_none_left_eq_some, UInt64.lt_iff_toNat_lt, hshifted, happended, Option.some_inj,
    ← UInt64.toNat_inj, happended, and_iff_right hb]
  omega

/-- The digit loop from any number on. -/
theorem foldlM_appendDigit?_eq_some_iff {part : Text} {n m : UInt64} :
    part.foldlM appendDigit? n = some m
      ↔ (∀ b ∈ part, Text.isDigit b = true)
        ∧ n.toNat * 10 ^ part.length + Decimal.value part = m.toNat := by
  induction part generalizing n with
  | nil => simp [Decimal.value, UInt64.toNat_inj]
  | cons b part ih =>
    rw [List.foldlM_cons, List.forall_mem_cons, Decimal.value_cons, List.length_cons,
      Nat.pow_succ]
    have hplaces : n.toNat * (10 ^ part.length * 10)
          + (Decimal.digitValue b * 10 ^ part.length + Decimal.value part)
        = (10 * n.toNat + Decimal.digitValue b) * 10 ^ part.length + Decimal.value part := by
      grind
    rw [hplaces]
    constructor
    · intro h
      obtain ⟨k, hk, hrest⟩ := Option.bind_eq_some_iff.1 h
      obtain ⟨hb, hvalue⟩ := appendDigit?_eq_some_iff.1 hk
      obtain ⟨hdigits, hm⟩ := ih.1 hrest
      rw [hvalue]
      exact ⟨⟨hb, hdigits⟩, hm⟩
    · rintro ⟨⟨hb, hdigits⟩, hm⟩
      -- every number on the way is at most the last one, so it fits a word as well
      have hle : 10 * n.toNat + Decimal.digitValue b ≤ m.toNat := by
        have hpos : 0 < 10 ^ part.length := Nat.pow_pos (by decide)
        have := Nat.le_mul_of_pos_right (10 * n.toNat + Decimal.digitValue b) hpos
        omega
      have hk : (UInt64.ofNat (10 * n.toNat + Decimal.digitValue b)).toNat
          = 10 * n.toNat + Decimal.digitValue b :=
        UInt64.toNat_ofNat_of_lt' (Nat.lt_of_le_of_lt hle m.toNat_lt)
      refine Option.bind_eq_some_iff.2 ⟨_, appendDigit?_eq_some_iff.2 ⟨hb, hk.symm⟩, ih.2 ?_⟩
      rw [hk]
      exact ⟨hdigits, hm⟩

/-- The digit loop reads the runs of digits whose value fits a word, and no other text. -/
theorem number?_eq_some_iff {part : Text} {n : UInt64} :
    number? part = some n
      ↔ part ≠ [] ∧ (∀ b ∈ part, Text.isDigit b = true) ∧ Decimal.value part = n.toNat := by
  unfold number?
  rw [Option.ite_none_left_eq_some, foldlM_appendDigit?_eq_some_iff, List.isEmpty_iff]
  simp

end Triple

/-! ## Numbers as they are written -/

theorem ascii_append (s t : String) : ascii (s ++ t) = ascii s ++ ascii t := by
  simp [ascii]

theorem ascii_singleton (c : Char) : ascii (String.singleton c) = [c.toUInt8] := by
  simp [ascii]

namespace Decimal

theorem toUInt8_digitChar {n : Nat} (h : n < 10) : (Nat.digitChar n).toUInt8 = digit n := by
  have hall : ∀ m, m < 10 → (Nat.digitChar m).toUInt8 = digit m := by decide
  exact hall n h

/-- A number is written with the digits of its decimal representation. -/
theorem ofNat_eq_ascii (n : Nat) : ofNat n = ascii (toString n) := by
  change ofNat n = ascii n.repr
  induction n using Nat.strongRecOn with
  | _ n ih =>
    rw [ofNat_eq]
    split
    · next h => rw [Nat.repr_of_lt h, ascii_singleton, toUInt8_digitChar h]
    · next h =>
      have hlast : n % 10 < 10 := Nat.mod_lt _ (by decide)
      rw [Nat.repr_of_ge (Nat.le_of_not_lt h), ascii_append, ascii_singleton,
        toUInt8_digitChar hlast, ih (n / 10) (by omega)]

/-- A number as it is written: digits of which the first is zero only if there are no others. -/
structure IsNumeral (t : Text) : Prop where
  ne_nil : t ≠ []
  digits : ∀ b ∈ t, Text.isDigit b = true
  alone : ∀ rest, t = 48 :: rest → rest = []

/-- A number that is written with a leading zero is zero. -/
theorem ofNat_eq_zero_cons {n : Nat} {rest : Text} (h : ofNat n = 48 :: rest) : rest = [] := by
  induction n using Nat.strongRecOn generalizing rest with
  | _ n ih =>
    rw [ofNat_eq] at h
    split at h
    · exact (List.cons.inj h).2.symm
    next hn =>
    cases htens : ofNat (n / 10) with
    | nil => exact absurd htens (ofNat_ne_nil _)
    | cons b tens =>
      rw [htens, List.cons_append] at h
      rw [(List.cons.inj h).1] at htens
      -- the digits before the last one are then a zero on their own, so there are none
      have hzero : value (ofNat (n / 10)) = 0 := by
        rw [htens, ih (n / 10) (by omega) htens]
        rfl
      rw [value_ofNat] at hzero
      omega

/-- Numbers are written as numerals. -/
theorem isNumeral_ofNat (n : Nat) : IsNumeral (ofNat n) where
  ne_nil := ofNat_ne_nil n
  digits := fun _ hb => isDigit_of_mem_ofNat hb
  alone := fun _ h => ofNat_eq_zero_cons h

theorem digitValue_pos {b : UInt8} (h : Text.isDigit b = true) (hzero : b ≠ 48) :
    0 < digitValue b := by
  rw [Text.isDigit, Bool.and_eq_true] at h
  have hle : 48 ≤ b.toNat := UInt8.le_iff_toNat_le.1 (of_decide_eq_true h.1)
  have hne : b.toNat ≠ 48 := fun heq => hzero (UInt8.toNat_inj.1 heq)
  unfold digitValue
  omega

/-- Digits are ordered as bytes like their values. -/
theorem digitValue_lt_iff {a b : UInt8} (ha : Text.isDigit a = true) (hb : Text.isDigit b = true) :
    a < b ↔ digitValue a < digitValue b := by
  rw [Text.isDigit, Bool.and_eq_true] at ha hb
  have hale : 48 ≤ a.toNat := UInt8.le_iff_toNat_le.1 (of_decide_eq_true ha.1)
  have hble : 48 ≤ b.toNat := UInt8.le_iff_toNat_le.1 (of_decide_eq_true hb.1)
  rw [UInt8.lt_iff_toNat_lt]
  unfold digitValue
  omega

/-- A numeral with more digits stands for a greater number. -/
theorem value_lt_of_length_lt {s t : Text} (hs : IsNumeral s) (ht : IsNumeral t)
    (h : s.length < t.length) : value s < value t := by
  cases t with
  | nil => cases h
  | cons b t =>
    have hlength : s.length ≤ t.length := Nat.le_of_lt_succ h
    have hb : b ≠ 48 := by
      rintro rfl
      have hnil := ht.alone t rfl
      have hpos := List.length_pos_iff.2 hs.ne_nil
      rw [hnil] at hlength
      exact absurd (Nat.le_zero.1 hlength) (Nat.pos_iff_ne_zero.1 hpos)
    calc value s < 10 ^ s.length := value_lt hs.digits
      _ ≤ 10 ^ t.length := Nat.pow_le_pow_right (by decide) hlength
      _ ≤ digitValue b * 10 ^ t.length :=
        Nat.le_mul_of_pos_left _ (digitValue_pos (ht.digits b List.mem_cons_self) hb)
      _ ≤ value (b :: t) := by rw [value_cons]; exact Nat.le_add_right _ _

/-- A first digit that is smaller decides. -/
theorem value_cons_lt {a b : UInt8} {s t : Text} (hs : ∀ c ∈ s, Text.isDigit c = true)
    (hlength : s.length = t.length) (h : digitValue a < digitValue b) :
    value (a :: s) < value (b :: t) := by
  rw [value_cons, value_cons, ← hlength]
  calc digitValue a * 10 ^ s.length + value s
      < digitValue a * 10 ^ s.length + 10 ^ s.length := Nat.add_lt_add_left (value_lt hs) _
    _ = (digitValue a + 1) * 10 ^ s.length := (Nat.succ_mul _ _).symm
    _ ≤ digitValue b * 10 ^ s.length := Nat.mul_le_mul_right _ h
    _ ≤ digitValue b * 10 ^ s.length + value t := Nat.le_add_right _ _

end Decimal

end CrateBump
