import Mathlib.Tactic.Common
import Mathlib.Data.List.Basic

/-!
# A mutex among numbered processes

Processes are the elements of a list, and a mutex is held by at most one of them, known by its
number. Whether a process is in a part of its code that runs under the mutex is a predicate on its
state.

## Main definitions

* `Foundations.HeldBy`: a process in a locked part of its code is the holder of the mutex.

## Main results

* `Foundations.HeldBy.unique`: two processes in locked parts are the same process.
* `Foundations.HeldBy.append`, `Foundations.HeldBy.acquire`, `Foundations.HeldBy.set`,
  `Foundations.HeldBy.release`: the steps that keep this.
-/

namespace Foundations

variable {σ : Type*}

/-- Every process in a locked part of its code is the holder. -/
def HeldBy (locked : σ → Prop) (holder : Option ℕ) (processes : List σ) : Prop :=
  ∀ i p, processes[i]? = some p → locked p → holder = some i

variable {locked : σ → Prop} {holder : Option ℕ} {processes : List σ} {i j : ℕ} {p q : σ}

/-- A process after another one was given a new state. -/
theorem getElem?_set_cases (h : (processes.set i p)[j]? = some q) :
    (j = i ∧ q = p) ∨ (j ≠ i ∧ processes[j]? = some q) := by
  rw [List.getElem?_set] at h
  split_ifs at h with hij hlt
  · exact Or.inl ⟨hij.symm, (Option.some.inj h).symm⟩
  · exact Or.inr ⟨fun heq => hij heq.symm, h⟩

/-- A process after another one has joined. -/
theorem getElem?_concat_cases (h : (processes ++ [p])[j]? = some q) :
    q = p ∨ processes[j]? = some q := by
  rcases Nat.lt_or_ge j processes.length with hlt | hge
  · exact Or.inr (by rwa [List.getElem?_append_left hlt] at h)
  · rw [List.getElem?_append_right hge] at h
    exact Or.inl (List.mem_singleton.1 (List.mem_of_getElem? h))

namespace HeldBy

theorem nil : HeldBy locked holder [] := by
  intro i p h
  simp at h

/-- Two processes in locked parts of their code are the same. -/
theorem unique (h : HeldBy locked holder processes) (hi : processes[i]? = some p) (hp : locked p)
    (hj : processes[j]? = some q) (hq : locked q) : i = j :=
  Option.some.inj ((h i p hi hp).symm.trans (h j q hj hq))

/-- A new process starts outside the locked parts. -/
theorem append (h : HeldBy locked holder processes) (hp : ¬ locked p) :
    HeldBy locked holder (processes ++ [p]) := by
  intro j q hj hq
  rcases getElem?_concat_cases hj with rfl | hj
  · exact absurd hq hp
  · exact h j q hj hq

/-- The process `i` acquires the free mutex. -/
theorem acquire (h : HeldBy locked none processes) :
    HeldBy locked (some i) (processes.set i p) := by
  intro j q hj hq
  rcases getElem?_set_cases hj with ⟨rfl, rfl⟩ | ⟨-, hj⟩
  · rfl
  · exact absurd (h j q hj hq) (by simp)

/-- The process `i` goes on, and needs the mutex in a locked part only. -/
theorem set (h : HeldBy locked holder processes) (hp : locked p → holder = some i) :
    HeldBy locked holder (processes.set i p) := by
  intro j q hj hq
  rcases getElem?_set_cases hj with ⟨rfl, rfl⟩ | ⟨-, hj⟩
  · exact hp hq
  · exact h j q hj hq

/-- The holder leaves the locked part and releases the mutex. -/
theorem release (h : HeldBy locked (some i) processes) (hp : ¬ locked p) :
    HeldBy locked none (processes.set i p) := by
  intro j q hj hq
  rcases getElem?_set_cases hj with ⟨rfl, rfl⟩ | ⟨hne, hj⟩
  · exact absurd hq hp
  · exact absurd (Option.some.inj (h j q hj hq)).symm hne

end HeldBy

end Foundations
