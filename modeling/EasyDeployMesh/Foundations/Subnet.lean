import Mathlib.Data.BitVec
import Mathlib.Data.Nat.Factorization.Basic

/-!
# Contiguous masks

A mask whose set bits are the highest ones keeps the leading bits of a number. The numbers between
two with the same leading bits have them too.

## Main definitions

* `Foundations.IsContiguous`: the test that a mask is contiguous.

## Main results

* `Foundations.IsContiguous.toNat_and`: what a contiguous mask keeps.
* `Foundations.IsContiguous.and_eq_of_between`: masked numbers on an interval.
-/

namespace Foundations

/-- The mask is not zero, and filling the bits below its lowest one gives all bits. -/
def IsContiguous (mask : UInt32) : Prop := mask ≠ 0 ∧ mask ||| (mask - 1) = 0xFFFFFFFF

instance (mask : UInt32) : Decidable (IsContiguous mask) := inferInstanceAs (Decidable (_ ∧ _))

/-- An odd number keeps its bits when those of its predecessor are added. -/
theorem or_pred_of_odd {n : ℕ} (h : n % 2 = 1) : n ||| (n - 1) = n := by
  refine Nat.eq_of_testBit_eq fun i => ?_
  cases i with
  | zero => simp [Nat.testBit_zero, h]
  | succ i =>
    have hhalf : (n - 1) / 2 = n / 2 := by omega
    rw [Nat.testBit_or, Nat.testBit_succ, Nat.testBit_succ, hhalf, Bool.or_self]

/-- Filling the bits below the lowest one of a number adds the numbers below it. -/
theorem or_pred_two_pow_mul {k m : ℕ} (hm : m % 2 = 1) :
    2 ^ k * m ||| (2 ^ k * m - 1) = 2 ^ k * m + (2 ^ k - 1) := by
  have hpos : 0 < 2 ^ k := Nat.two_pow_pos k
  have hpred : 2 ^ k * m - 1 = 2 ^ k * (m - 1) + (2 ^ k - 1) := by
    obtain ⟨m, rfl⟩ : ∃ m', m = m' + 1 := ⟨m - 1, by omega⟩
    rw [Nat.mul_succ, Nat.add_sub_cancel]
    omega
  have hlow : 2 ^ k - 1 < 2 ^ k := by omega
  rw [hpred, Nat.two_pow_add_eq_or_of_lt hlow, Nat.two_pow_add_eq_or_of_lt hlow, ← Nat.or_assoc]
  congr 1
  rw [Nat.mul_comm, Nat.mul_comm _ (m - 1), ← Nat.shiftLeft_eq, ← Nat.shiftLeft_eq,
    ← Nat.shiftLeft_or_distrib, or_pred_of_odd hm]

namespace IsContiguous

variable {mask a first last : UInt32}

/-- A contiguous mask leaves out the numbers below a power of two. -/
theorem exists_toNat_eq (h : IsContiguous mask) :
    ∃ k ≤ 32, mask.toNat = 2 ^ k * (2 ^ (32 - k) - 1) := by
  obtain ⟨hzero, hfill⟩ := h
  have hne : mask.toNat ≠ 0 := fun heq => hzero (UInt32.toNat_inj.mp heq)
  obtain ⟨k, m, hodd, hmask⟩ := Nat.exists_eq_two_pow_mul_odd hne
  have hpred : (mask - 1).toNat = mask.toNat - 1 :=
    UInt32.toNat_sub_of_le _ _ (UInt32.le_iff_toNat_le.mpr (Nat.one_le_iff_ne_zero.mpr hne))
  have hsum : 2 ^ k * m + (2 ^ k - 1) = 2 ^ 32 - 1 := by
    rw [← or_pred_two_pow_mul (Nat.odd_iff.mp hodd), ← hmask, ← hpred, ← UInt32.toNat_or, hfill]
    rfl
  have hpos : 0 < 2 ^ k := Nat.two_pow_pos k
  have hpow : 2 ^ k * (m + 1) = 2 ^ 32 := by
    rw [Nat.mul_succ]
    omega
  have hk : k ≤ 32 := (Nat.pow_dvd_pow_iff_le_right (by decide)).mp ⟨m + 1, hpow.symm⟩
  refine ⟨k, hk, ?_⟩
  have hm : m + 1 = 2 ^ (32 - k) := by
    refine Nat.eq_of_mul_eq_mul_left hpos ?_
    rw [hpow, ← Nat.pow_add, Nat.add_sub_cancel' hk]
  rw [hmask, ← hm, Nat.add_sub_cancel]

/-- A contiguous mask keeps the leading bits. -/
theorem exists_toNat_and (h : IsContiguous mask) :
    ∃ k, ∀ a : UInt32, (a &&& mask).toNat = 2 ^ k * (a.toNat / 2 ^ k) := by
  obtain ⟨k, hk, hmask⟩ := h.exists_toNat_eq
  refine ⟨k, fun a => ?_⟩
  rw [UInt32.toNat_and, hmask]
  refine Nat.eq_of_testBit_eq fun i => ?_
  rw [Nat.testBit_and, Nat.testBit_two_pow_mul, Nat.testBit_two_pow_mul,
    Nat.testBit_two_pow_sub_one, Nat.testBit_div_two_pow]
  by_cases hi : k ≤ i
  · rw [decide_eq_true hi, Bool.true_and, Bool.true_and, Nat.sub_add_cancel hi]
    by_cases hlow : i < 32
    · rw [decide_eq_true (show i - k < 32 - k by omega), Bool.and_true]
    · have hhigh : a.toNat.testBit i = false :=
        Nat.testBit_lt_two_pow (a.toNat_lt.trans_le (Nat.pow_le_pow_right (by decide) (by omega)))
      rw [hhigh, Bool.false_and]
  · rw [decide_eq_false hi, Bool.false_and, Bool.false_and, Bool.and_false]

/-- Between two numbers with the same leading bits, all have them. -/
theorem and_eq_of_between (h : IsContiguous mask) (hsame : first &&& mask = last &&& mask)
    (hfirst : first ≤ a) (hlast : a ≤ last) : a &&& mask = first &&& mask := by
  obtain ⟨k, hkeeps⟩ := h.exists_toNat_and
  have hpos : 0 < 2 ^ k := Nat.two_pow_pos k
  have hends : first.toNat / 2 ^ k = last.toNat / 2 ^ k := by
    refine Nat.eq_of_mul_eq_mul_left hpos ?_
    rw [← hkeeps, ← hkeeps, hsame]
  have hbelow := Nat.div_le_div_right (c := 2 ^ k) (UInt32.le_iff_toNat_le.mp hfirst)
  have habove := Nat.div_le_div_right (c := 2 ^ k) (UInt32.le_iff_toNat_le.mp hlast)
  refine UInt32.toNat_inj.mp ?_
  rw [hkeeps, hkeeps, Nat.le_antisymm (habove.trans_eq hends.symm) hbelow]

end IsContiguous

end Foundations
