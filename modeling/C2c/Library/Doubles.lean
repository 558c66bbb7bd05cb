import C2c.Library.JsonText
import Mathlib.Algebra.Order.Floor.Ring
import Mathlib.Data.Rat.Floor
import Mathlib.Tactic.FieldSimp
import Mathlib.Tactic.Ring

/-!
Whole numbers that a binary64 number holds.
-/

namespace C2c.Library.JsonText

theorem twoPower_eq (e : Int) : twoPower e = (2 : Rat) ^ e := by
  unfold twoPower
  split
  · rename_i h
    obtain ⟨n, rfl⟩ := Int.exists_eq_neg_ofNat h.le
    simp [Rat.mkRat_eq_div]
  · rename_i h
    obtain ⟨n, rfl⟩ := Int.eq_ofNat_of_zero_le (not_lt.mp h)
    simp [Rat.mkRat_eq_div]

theorem roundEven_intCast (n : Int) : roundEven n = n := by
  simp [roundEven, Rat.mkRat_eq_div]

theorem binaryExponent_natCast {n : Nat} (h : n ≠ 0) : binaryExponent n = Nat.log2 n := by
  have hle : (2 : Rat) ^ Nat.log2 n ≤ n := by exact_mod_cast Nat.log2_self_le h
  have hone : Nat.log2 1 = 0 := rfl
  unfold binaryExponent
  simp only [Rat.num_natCast, Rat.den_natCast, Int.natAbs_natCast, hone, Nat.cast_zero, sub_zero,
    twoPower_eq, zpow_natCast]
  rw [if_neg (not_lt.mpr hle)]

/-- A number of at most 53 binary digits is held as it is. -/
theorem nearestDouble_natCast {n : Nat} (h : n < 2 ^ 53) : nearestDouble n = some (n : Rat) := by
  by_cases hzero : n = 0
  · subst hzero
    rfl
  · obtain ⟨shift, hshift⟩ := Nat.exists_eq_add_of_le
      (Nat.lt_succ_iff.mp ((Nat.log2_lt hzero).mpr h))
    have hpositive : ¬ (n : Rat) < 0 := not_lt.mpr (Nat.cast_nonneg n)
    have hunit : max (binaryExponent n - 52) (-1074) = -(shift : Int) := by
      rw [binaryExponent_natCast hzero]
      omega
    have hquotient : (n : Rat) / (2 : Rat) ^ (-(shift : Int)) = ((n * 2 ^ shift : Nat) : Int) := by
      push_cast
      rw [zpow_neg, zpow_natCast, div_inv_eq_mul]
    have hback : (((n * 2 ^ shift : Nat) : Int) : Rat) * (2 : Rat) ^ (-(shift : Int)) = n := by
      push_cast
      rw [zpow_neg, zpow_natCast]
      field_simp
    have hsmall : (n : Rat) < (2 : Rat) ^ (1024 : Int) :=
      calc (n : Rat) < (2 : Rat) ^ (53 : Int) := by exact_mod_cast h
        _ ≤ (2 : Rat) ^ (1024 : Int) := zpow_le_zpow_right₀ one_le_two (by decide)
    have hlarge : -(2 : Rat) ^ (1024 : Int) < n :=
      (neg_lt_zero.mpr (zpow_pos two_pos _)).trans_le (Nat.cast_nonneg n)
    unfold nearestDouble
    simp only [Nat.cast_eq_zero, hzero, if_false, hpositive, hunit, twoPower_eq, hquotient,
      roundEven_intCast, hback]
    rw [if_neg (not_or.mpr ⟨not_le.mpr hsmall, not_le.mpr hlarge⟩)]

end C2c.Library.JsonText
