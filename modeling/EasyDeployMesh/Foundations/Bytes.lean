import Mathlib.Algebra.Ring.Nat
import Mathlib.Tactic.Common
import Mathlib.Data.List.Basic

/-!
# Byte strings

Little-endian numbers in byte strings, and the search for the first place of a list at which a
pattern of bounded width occurs. A search that goes through a list window by window, where the
windows overlap by all but one element of the pattern, finds the same place as a search through the
whole list.

## Main definitions

* `Foundations.readLE`, `Foundations.writeLE`: little-endian numbers.
* `Foundations.findSuffix`: the first suffix that a pattern accepts.
* `Foundations.HasWidth`: a pattern looks at exactly `w` elements.

## Main results

* `Foundations.readLE_writeLE`: a number that fits is read back.
* `Foundations.findSuffix_eq_some_iff`: what is found is the first place.
* `Foundations.findSuffix_of_take_eq_some`, `Foundations.findSuffix_of_take_eq_none`: searching in a
  window.
-/

namespace Foundations

/-! ### Numbers -/

/-- The number with the given bytes, the lowest one first. -/
def readLE : List UInt8 → ℕ
  | [] => 0
  | b :: l => b.toNat + 256 * readLE l

/-- The lowest `k` bytes of a number, the lowest one first. -/
def writeLE : ℕ → ℕ → List UInt8
  | 0, _ => []
  | k + 1, n => UInt8.ofNat n :: writeLE k (n / 256)

@[simp] theorem length_writeLE (k n : ℕ) : (writeLE k n).length = k := by
  induction k generalizing n with
  | zero => rfl
  | succ k ih => simp [writeLE, ih]

theorem readLE_writeLE {k n : ℕ} (h : n < 256 ^ k) : readLE (writeLE k n) = n := by
  induction k generalizing n with
  | zero =>
    have hzero : n = 0 := by simpa using h
    simp [hzero, writeLE, readLE]
  | succ k ih =>
    have hdiv : n / 256 < 256 ^ k := by
      rw [Nat.pow_succ] at h
      exact Nat.div_lt_of_lt_mul (by omega)
    rw [writeLE, readLE, ih hdiv, UInt8.toNat_ofNat']
    omega

theorem readLE_lt (l : List UInt8) : readLE l < 256 ^ l.length := by
  induction l with
  | nil => simp [readLE]
  | cons b l ih =>
    have hb := b.toNat_lt
    rw [readLE, List.length_cons, Nat.pow_succ]
    omega

/-! ### The first place of a pattern -/

variable {α β : Type*} {p : List α → Option β} {l : List α} {i w n : ℕ} {b : β}

/-- The first suffix that `p` accepts: where it starts, and what `p` makes of it. -/
def findSuffix (p : List α → Option β) : List α → Option (ℕ × β)
  | [] => none
  | a :: l =>
    match p (a :: l) with
    | some b => some (0, b)
    | none => (findSuffix p l).map fun r => (r.1 + 1, r.2)

/-- The pattern looks at `w` elements, and needs all of them. -/
structure HasWidth (p : List α → Option β) (w : ℕ) : Prop where
  pos : 0 < w
  take : ∀ l, p (l.take w) = p l
  short : ∀ l, l.length < w → p l = none

theorem findSuffix_eq_some_iff : findSuffix p l = some (i, b) ↔
    i < l.length ∧ p (l.drop i) = some b ∧ ∀ j < i, p (l.drop j) = none := by
  induction l generalizing i with
  | nil => simp [findSuffix]
  | cons a l ih =>
    cases h : p (a :: l) with
    | some c =>
      cases i with
      | zero => simp [findSuffix, h]
      | succ i =>
        simp only [findSuffix, h, Option.some.injEq, Prod.mk.injEq, reduceCtorEq, false_and,
          false_iff, not_and, not_forall]
        exact fun _ _ => ⟨0, i.succ_pos, by simp [h]⟩
    | none =>
      cases i with
      | zero => simp [findSuffix, h]
      | succ i =>
        have hmap : findSuffix p (a :: l) = some (i + 1, b) ↔ findSuffix p l = some (i, b) := by
          simp [findSuffix, h]
        rw [hmap, ih]
        simp only [List.length_cons, Nat.add_lt_add_iff_right, List.drop_succ_cons]
        refine and_congr_right fun _ => and_congr_right fun _ => ⟨fun hall j hj => ?_, ?_⟩
        · cases j with
          | zero => simpa using h
          | succ j => exact hall j (by omega)
        · exact fun hall j hj => hall (j + 1) (by omega)

theorem findSuffix_eq_none_iff : findSuffix p l = none ↔ ∀ j < l.length, p (l.drop j) = none := by
  induction l with
  | nil => simp [findSuffix]
  | cons a l ih =>
    cases h : p (a :: l) with
    | some c => simpa [findSuffix, h] using ⟨0, by simp, by simp [h]⟩
    | none =>
      rw [show findSuffix p (a :: l) = (findSuffix p l).map fun r => (r.1 + 1, r.2) by
        simp [findSuffix, h], Option.map_eq_none_iff, ih]
      constructor
      · rintro hall (_ | j) hj
        · simpa using h
        · exact hall j (by simpa using hj)
      · exact fun hall j hj => hall (j + 1) (by simpa using hj)

namespace HasWidth

variable (hp : HasWidth p w)

include hp

/-- What a pattern accepts is long enough. -/
theorem le_length (h : p l = some b) : w ≤ l.length := by
  by_contra hlt
  simp [hp.short l (by omega)] at h

/-- The pattern looks the same in a window that holds it. -/
theorem drop_take (h : i + w ≤ n) : p ((l.take n).drop i) = p (l.drop i) := by
  rw [List.drop_take, ← hp.take ((l.drop i).take (n - i)), ← hp.take (l.drop i), List.take_take,
    Nat.min_eq_left (by omega)]

theorem add_le_of_findSuffix (h : findSuffix p l = some (i, b)) : i + w ≤ l.length := by
  obtain ⟨hi, hpi, -⟩ := findSuffix_eq_some_iff.1 h
  have hle := hp.le_length hpi
  rw [List.length_drop] at hle
  omega

/-- A place that is found in a window is the first place. -/
theorem findSuffix_of_take_eq_some (h : findSuffix p (l.take n) = some (i, b)) :
    findSuffix p l = some (i, b) := by
  have hle := hp.add_le_of_findSuffix h
  obtain ⟨-, hpi, hfirst⟩ := findSuffix_eq_some_iff.1 h
  rw [List.length_take] at hle
  have hpos := hp.pos
  refine findSuffix_eq_some_iff.2 ⟨by omega, ?_, fun j hj => ?_⟩
  · rw [← hpi, hp.drop_take (by omega)]
  · rw [← hfirst j hj, hp.drop_take (by omega)]

/-- When nothing is found in a window, the search goes on with the last `w - 1` elements of it. -/
theorem findSuffix_of_take_eq_none (h : findSuffix p (l.take n) = none) (hn : w ≤ n)
    (hl : n ≤ l.length) : findSuffix p l =
      (findSuffix p (l.drop (n - (w - 1)))).map fun r => (n - (w - 1) + r.1, r.2) := by
  have hnone : ∀ j < n - (w - 1), p (l.drop j) = none := by
    intro j hj
    have hpos := hp.pos
    rw [← hp.drop_take (n := n) (by omega)]
    exact findSuffix_eq_none_iff.1 h j (by rw [List.length_take]; omega)
  have hpos := hp.pos
  cases hrest : findSuffix p (l.drop (n - (w - 1))) with
  | none =>
    refine findSuffix_eq_none_iff.2 fun j hj => ?_
    by_cases hlt : j < n - (w - 1)
    · exact hnone j hlt
    · have hdrop := findSuffix_eq_none_iff.1 hrest (j - (n - (w - 1)))
        (by rw [List.length_drop]; omega)
      rwa [List.drop_drop, show n - (w - 1) + (j - (n - (w - 1))) = j by omega] at hdrop
  | some r =>
    obtain ⟨i, b⟩ := r
    obtain ⟨hi, hpi, hfirst⟩ := findSuffix_eq_some_iff.1 hrest
    rw [List.length_drop] at hi
    rw [List.drop_drop] at hpi
    refine findSuffix_eq_some_iff.2 ⟨by omega, hpi, fun j hj => ?_⟩
    by_cases hlt : j < n - (w - 1)
    · exact hnone j hlt
    · have hdrop := hfirst (j - (n - (w - 1))) (by omega)
      rwa [List.drop_drop, show n - (w - 1) + (j - (n - (w - 1))) = j by omega] at hdrop

end HasWidth

end Foundations
