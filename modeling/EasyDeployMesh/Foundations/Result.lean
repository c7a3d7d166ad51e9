import Mathlib.Tactic.Common

/-!
# Results of fallible computations

When a computation in `Except` succeeds: a sequence succeeds when each of its parts does, a check
when its condition fails, and a change of the error keeps the successes.

## Main results

* `Foundations.bind_eq_ok_iff`, `Foundations.bind_eq_error_iff`, `Foundations.bind_unit_eq_ok_iff`,
  `Foundations.exists_bind_eq_ok_iff`, `Foundations.map_eq_ok_iff`,
  `Foundations.exists_map_eq_ok_iff`, `Foundations.forM_eq_ok_iff`: sequences and images.
* `Foundations.check_eq_error_iff`, `Foundations.mapError_eq_error_iff`,
  `Foundations.elim_eq_error_iff`: failures.
* `Foundations.pure_eq_ok_iff`, `Foundations.check_eq_ok_iff`, `Foundations.mapError_eq_ok_iff`,
  `Foundations.toOption_eq_some_iff`, `Foundations.elim_eq_ok_iff`: the rest.
-/

namespace Foundations

variable {ε δ α β : Type}

theorem bind_eq_ok_iff {x : Except ε α} {f : α → Except ε β} {b : β} :
    (x >>= f) = .ok b ↔ ∃ a, x = .ok a ∧ f a = .ok b := by
  cases x <;> simp [bind, Except.bind]

/-- A sequence fails where one of its parts does. -/
theorem bind_eq_error_iff {x : Except ε α} {f : α → Except ε β} {error : ε} :
    (x >>= f) = .error error ↔ x = .error error ∨ ∃ a, x = .ok a ∧ f a = .error error := by
  cases x <;> simp [bind, Except.bind]

theorem bind_unit_eq_ok_iff {x : Except ε Unit} {f : Unit → Except ε β} {b : β} :
    (x >>= f) = .ok b ↔ x = .ok () ∧ f () = .ok b := by
  cases x <;> simp [bind, Except.bind]

/-- A sequence has a result when both of its parts have one. -/
theorem exists_bind_eq_ok_iff {x : Except ε α} {f : α → Except ε β} :
    (∃ b, (x >>= f) = .ok b) ↔ ∃ a, x = .ok a ∧ ∃ b, f a = .ok b := by
  cases x <;> simp [bind, Except.bind]

/-- A check that stops with an error passes when its condition fails. -/
theorem check_eq_ok_iff {c : Prop} [Decidable c] {error : ε} {f : α → Except ε β} {x : Except ε β}
    {b : β} : (if c then Except.error error >>= f else x) = .ok b ↔ ¬ c ∧ x = .ok b := by
  split_ifs with h <;> simp [h, bind, Except.bind]

theorem check_eq_error_iff {c : Prop} [Decidable c] {error other : ε} {f : α → Except ε β}
    {x : Except ε β} : (if c then Except.error error >>= f else x) = .error other ↔
      (c ∧ error = other) ∨ (¬ c ∧ x = .error other) := by
  split_ifs with h <;> simp [h, bind, Except.bind]

theorem mapError_eq_error_iff {x : Except ε α} {f : ε → δ} {error : δ} :
    x.mapError f = .error error ↔ ∃ source, x = .error source ∧ f source = error := by
  cases x <;> simp [Except.mapError]

theorem elim_eq_error_iff {x : Option α} {error other : ε} :
    x.elim (.error error) .ok = (.error other : Except ε α) ↔ x = none ∧ error = other := by
  cases x <;> simp

theorem pure_eq_ok_iff {a b : α} : (pure a : Except ε α) = .ok b ↔ a = b :=
  ⟨Except.ok.inj, congrArg _⟩

theorem exists_map_eq_ok_iff {x : Except ε α} {f : α → β} :
    (∃ b, x.map f = .ok b) ↔ ∃ a, x = .ok a := by
  cases x <;> simp [Except.map]

theorem map_eq_ok_iff {x : Except ε α} {f : α → β} {b : β} :
    x.map f = .ok b ↔ ∃ a, x = .ok a ∧ f a = b := by
  cases x <;> simp [Except.map]

theorem mapError_eq_ok_iff {x : Except ε α} {f : ε → δ} {a : α} :
    x.mapError f = .ok a ↔ x = .ok a := by
  cases x <;> simp [Except.mapError]

theorem toOption_eq_some_iff {x : Except ε α} {a : α} : x.toOption = some a ↔ x = .ok a := by
  cases x <;> simp [Except.toOption]

theorem exists_ok_of_isSome_toOption {x : Except ε α} (h : x.toOption.isSome = true) :
    ∃ a, x = .ok a := by
  obtain ⟨a, ha⟩ := Option.isSome_iff_exists.1 h
  exact ⟨a, toOption_eq_some_iff.1 ha⟩

/-- An optional value as a result. -/
theorem elim_eq_ok_iff {x : Option α} {error : ε} {a : α} :
    x.elim (.error error) .ok = Except.ok a ↔ x = some a := by
  cases x <;> simp

/-- A computation for each element of a list succeeds when all of them do. -/
theorem forM_eq_ok_iff {l : List α} {f : α → Except ε Unit} :
    l.forM f = .ok () ↔ ∀ a ∈ l, f a = .ok () := by
  rw [List.forM_eq_forM]
  induction l with
  | nil => exact iff_of_true rfl (by simp)
  | cons a l ih => rw [List.forM_cons, bind_unit_eq_ok_iff, List.forall_mem_cons, ih]

end Foundations
