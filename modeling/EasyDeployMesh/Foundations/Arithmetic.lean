import Mathlib.Algebra.Ring.Nat
import Mathlib.Tactic.Common
import Mathlib.Algebra.BigOperators.Group.List.Basic

/-!
# Saturating and checked arithmetic of `u64`

The operations of Rust on `u64` that saturate at the ends of the range, and those that are defined
only when the exact result is in range (an overflow panics).

## Main definitions

* `Foundations.saturatingAdd`, `Foundations.saturatingSub`, `Foundations.saturatingMul`,
  `Foundations.divCeil`.
* `Foundations.checkedAdd`, `Foundations.checkedSub`, `Foundations.checkedMul`,
  `Foundations.checkedSum`.

## Main results

* `Foundations.toNat_saturatingAdd`, `Foundations.toNat_foldl_saturatingAdd`: the saturated sums as
  numbers.
* `Foundations.toNat_divCeil`: the rounded-up quotient.
* `Foundations.exists_checkedAdd`, `Foundations.exists_checkedSum`, `Foundations.exists_checkedSub`:
  exact results in range.
-/

namespace Foundations

/-- `u64::saturating_add`. -/
def saturatingAdd (a b : UInt64) : UInt64 := UInt64.ofNat (min (a.toNat + b.toNat) (2 ^ 64 - 1))

/-- `u64::saturating_sub`. -/
def saturatingSub (a b : UInt64) : UInt64 := UInt64.ofNat (a.toNat - b.toNat)

/-- `u64::saturating_mul`. -/
def saturatingMul (a b : UInt64) : UInt64 := UInt64.ofNat (min (a.toNat * b.toNat) (2 ^ 64 - 1))

/-- `u64::div_ceil`. -/
def divCeil (a b : UInt64) : UInt64 := if a % b = 0 then a / b else a / b + 1

/-- The sum, when it is in range. -/
def checkedAdd (a b : UInt64) : Option UInt64 :=
  if a.toNat + b.toNat < 2 ^ 64 then some (a + b) else none

/-- The difference, when it is in range. -/
def checkedSub (a b : UInt64) : Option UInt64 := if b ≤ a then some (a - b) else none

/-- The product, when it is in range. -/
def checkedMul (a b : UInt64) : Option UInt64 :=
  if a.toNat * b.toNat < 2 ^ 64 then some (a * b) else none

/-- The sum of a list, when no partial sum leaves the range. -/
def checkedSum (l : List UInt64) : Option UInt64 := l.foldlM checkedAdd 0

@[simp] theorem toNat_saturatingAdd (a b : UInt64) :
    (saturatingAdd a b).toNat = min (a.toNat + b.toNat) (2 ^ 64 - 1) := by
  rw [saturatingAdd, UInt64.toNat_ofNat', Nat.mod_eq_of_lt (by omega)]

@[simp] theorem toNat_saturatingSub (a b : UInt64) :
    (saturatingSub a b).toNat = a.toNat - b.toNat := by
  have hlt := a.toNat_lt
  rw [saturatingSub, UInt64.toNat_ofNat', Nat.mod_eq_of_lt (by omega)]

@[simp] theorem toNat_saturatingMul (a b : UInt64) :
    (saturatingMul a b).toNat = min (a.toNat * b.toNat) (2 ^ 64 - 1) := by
  rw [saturatingMul, UInt64.toNat_ofNat', Nat.mod_eq_of_lt (by omega)]

/-- The rounded-up quotient by a divisor other than one, as a number. -/
theorem toNat_divCeil {a b : UInt64} (h : 2 ≤ b.toNat) :
    (divCeil a b).toNat = (a.toNat + b.toNat - 1) / b.toNat := by
  have hlt := a.toNat_lt
  have hdiv : a.toNat / b.toNat ≤ a.toNat / 2 := Nat.div_le_div_left h (by decide)
  have hmod := Nat.div_add_mod a.toNat b.toNat
  have hmodlt := Nat.mod_lt a.toNat (show 0 < b.toNat by omega)
  unfold divCeil
  split_ifs with hzero
  · have hzero : a.toNat % b.toNat = 0 := by rw [← UInt64.toNat_mod, hzero, UInt64.toNat_zero]
    rw [UInt64.toNat_div]
    refine (Nat.div_eq_of_lt_le ?_ ?_).symm
    · rw [Nat.mul_comm]
      omega
    · rw [Nat.add_mul, Nat.mul_comm, Nat.one_mul]
      omega
  · have hpos : 0 < a.toNat % b.toNat := by
      refine Nat.pos_of_ne_zero fun h => hzero (UInt64.toNat_inj.1 ?_)
      rw [UInt64.toNat_mod, h, UInt64.toNat_zero]
    rw [UInt64.toNat_add, UInt64.toNat_div, UInt64.toNat_one, Nat.mod_eq_of_lt (by omega)]
    refine (Nat.div_eq_of_lt_le ?_ ?_).symm
    · rw [Nat.add_mul, Nat.mul_comm, Nat.one_mul]
      omega
    · rw [Nat.add_mul, Nat.add_mul, Nat.mul_comm, Nat.one_mul]
      omega

/-- A saturated sum of a list, as a number. -/
theorem toNat_foldl_saturatingAdd (l : List UInt64) (a : UInt64) :
    (l.foldl saturatingAdd a).toNat =
      min (a.toNat + (l.map UInt64.toNat).sum) (2 ^ 64 - 1) := by
  induction l generalizing a with
  | nil =>
    have hlt := a.toNat_lt
    simp only [List.foldl_nil, List.map_nil, List.sum_nil]
    omega
  | cons b l ih =>
    simp only [List.foldl_cons, List.map_cons, List.sum_cons, ih, toNat_saturatingAdd]
    omega

/-- A checked sum of two numbers is exact. -/
theorem toNat_of_checkedAdd {a b s : UInt64} (h : checkedAdd a b = some s) :
    s.toNat = a.toNat + b.toNat := by
  unfold checkedAdd at h
  split_ifs at h with hlt
  rw [← Option.some.inj h, UInt64.toNat_add, Nat.mod_eq_of_lt hlt]

theorem exists_checkedAdd {a b : UInt64} (h : a.toNat + b.toNat < 2 ^ 64) :
    ∃ s, checkedAdd a b = some s ∧ s.toNat = a.toNat + b.toNat :=
  ⟨a + b, if_pos h, toNat_of_checkedAdd (if_pos h)⟩

private theorem exists_foldlM_checkedAdd (l : List UInt64) (a : UInt64)
    (h : a.toNat + (l.map UInt64.toNat).sum < 2 ^ 64) :
    ∃ s, l.foldlM checkedAdd a = some s ∧ s.toNat = a.toNat + (l.map UInt64.toNat).sum := by
  induction l generalizing a with
  | nil => exact ⟨a, rfl, by simp⟩
  | cons b l ih =>
    simp only [List.map_cons, List.sum_cons] at h ⊢
    have hadd : (a + b).toNat = a.toNat + b.toNat := by
      rw [UInt64.toNat_add, Nat.mod_eq_of_lt (by omega)]
    obtain ⟨s, hs, hsum⟩ := ih (a + b) (by omega)
    refine ⟨s, ?_, by omega⟩
    rw [List.foldlM_cons, checkedAdd, if_pos (by omega)]
    exact hs

/-- A list whose sum is in range has a checked sum. -/
theorem exists_checkedSum {l : List UInt64} (h : (l.map UInt64.toNat).sum < 2 ^ 64) :
    ∃ s, checkedSum l = some s ∧ s.toNat = (l.map UInt64.toNat).sum := by
  obtain ⟨s, hs, hsum⟩ := exists_foldlM_checkedAdd l 0 (by simpa using h)
  exact ⟨s, hs, by simpa using hsum⟩

private theorem toNat_of_foldlM_checkedAdd {l : List UInt64} {a s : UInt64}
    (h : l.foldlM checkedAdd a = some s) : s.toNat = a.toNat + (l.map UInt64.toNat).sum := by
  induction l generalizing a with
  | nil => simpa using (congrArg UInt64.toNat (Option.some.inj h)).symm
  | cons b l ih =>
    rw [List.foldlM_cons] at h
    obtain ⟨c, hc, h⟩ := Option.bind_eq_some_iff.1 h
    rw [ih h, toNat_of_checkedAdd hc, List.map_cons, List.sum_cons, Nat.add_assoc]

/-- A checked sum is exact. -/
theorem toNat_of_checkedSum {l : List UInt64} {s : UInt64} (h : checkedSum l = some s) :
    s.toNat = (l.map UInt64.toNat).sum := by
  rw [toNat_of_foldlM_checkedAdd h, UInt64.toNat_zero, Nat.zero_add]

/-- A checked product is exact. -/
theorem toNat_of_checkedMul {a b m : UInt64} (h : checkedMul a b = some m) :
    m.toNat = a.toNat * b.toNat := by
  unfold checkedMul at h
  split_ifs at h with hlt
  rw [← Option.some.inj h, UInt64.toNat_mul, Nat.mod_eq_of_lt hlt]

/-- A checked difference is exact. -/
theorem toNat_of_checkedSub {a b d : UInt64} (h : checkedSub a b = some d) :
    d.toNat + b.toNat = a.toNat := by
  unfold checkedSub at h
  split_ifs at h with hle
  have hle' := UInt64.le_iff_toNat_le.1 hle
  rw [← Option.some.inj h, UInt64.toNat_sub_of_le a b hle]
  omega

theorem exists_checkedSub {a b : UInt64} (h : b.toNat ≤ a.toNat) :
    ∃ d, checkedSub a b = some d ∧ d.toNat = a.toNat - b.toNat := by
  have hle : b ≤ a := UInt64.le_iff_toNat_le.2 h
  exact ⟨a - b, if_pos hle, UInt64.toNat_sub_of_le a b hle⟩

end Foundations
