import Mathlib.Algebra.Ring.Nat
import Mathlib.Tactic.Common

/-!
# Runs that may fail, panic or go on for ever

A computation with a state ends with a value or with an error, it panics, or it is still running
when its fuel is used up. `Ends` says of a computation that it ends, without a panic, and what holds
of its value; `Answers` says that it ends as a computation in `Except` does. Both are proved part by
part.

## Main definitions

* `Foundations.Outcome`, `Foundations.Run`: outcomes, and computations with a state.
* `Foundations.Run.plus`, `Foundations.Run.minus`, `Foundations.Run.slice`: arithmetic on 64 bits
  and slices, which panic.
* `Foundations.Ends`, `Foundations.Answers`: how a computation ends.

## Main results

* `Foundations.Ends.bind`, `Foundations.Answers.bind`: sequences.
-/

namespace Foundations

variable {ε σ α β : Type}

/-- How a computation ends, if it does. -/
inductive Outcome (ε α : Type)
  | ok (value : α)
  | error (error : ε)
  | panic
  /-- The fuel is used up. -/
  | running
  deriving DecidableEq

namespace Outcome

/-- What comes next after a value. -/
def bind (x : Outcome ε α) (f : α → Outcome ε β) : Outcome ε β :=
  match x with
  | ok a => f a
  | error e => error e
  | panic => panic
  | running => running

instance : Monad (Outcome ε) where
  pure := ok
  bind := bind

instance : MonadExcept ε (Outcome ε) where
  throw := error
  tryCatch x handle := match x with
    | error e => handle e
    | x => x

end Outcome

/-- A computation with a state. -/
abbrev Run (ε σ : Type) := StateT σ (Outcome ε)

namespace Run

/-- Ends the program without a result. -/
def panic : Run ε σ α := fun _ => .panic

/-- The fuel is used up. -/
def running : Run ε σ α := fun _ => .running

/-- Stops with an error, and nothing more is done. -/
def fail (error : ε) : Run ε σ α := fun _ => .error error

/-- The outcome of a computation in `Except`. -/
def ofExcept : Except ε α → Run ε σ α
  | .ok a => pure a
  | .error error => fail error

/-- `a + b` on 64 bits. -/
def plus (a b : ℕ) : Run ε σ ℕ := if a + b < 2 ^ 64 then pure (a + b) else panic

/-- `a.checked_add(b).ok_or(error)` on 64 bits. -/
def checkedPlus (error : ε) (a b : ℕ) : Run ε σ ℕ :=
  if a + b < 2 ^ 64 then pure (a + b) else fail error

/-- `a - b`. -/
def minus (a b : ℕ) : Run ε σ ℕ := if b ≤ a then pure (a - b) else panic

/-- `l[start..stop]`. -/
def slice (l : List α) (start stop : ℕ) : Run ε σ (List α) :=
  if start ≤ stop ∧ stop ≤ l.length then pure ((l.drop start).take (stop - start)) else panic

end Run

/-! ### Computations that end -/

/-- From every state the computation ends, with an error or with a value such that `post` holds. -/
structure Ends (run : Run ε σ α) (post : α → Prop) : Prop where
  outcome : ∀ s, match run s with
    | .ok (a, _) => post a
    | .error _ => True
    | .panic => False
    | .running => False

/-- From every state the computation ends as the other one does. -/
structure Answers (run : Run ε σ α) (answer : Except ε α) : Prop where
  outcome : ∀ s, match answer with
    | .ok a => ∃ t, run s = .ok (a, t)
    | .error error => run s = .error error

section Rules

variable {run : Run ε σ α} {next : α → Run ε σ β} {post post' : α → Prop} {post₂ : β → Prop}
  {answer : Except ε α} {nextAnswer : α → Except ε β} {a b m n : ℕ}

theorem Run.bind_eq_of_ok {s t : σ} {a : α} (h : run s = .ok (a, t)) :
    (run >>= next) s = next a t := by
  show Outcome.bind (run s) _ = _
  rw [h]
  rfl

theorem Run.bind_eq_of_error {s : σ} {error : ε} (h : run s = .error error) :
    (run >>= next) s = .error error := by
  show Outcome.bind (run s) _ = _
  rw [h]
  rfl

namespace Ends

theorem pure {a : α} (h : post a) : Ends (pure a : Run ε σ α) post := ⟨fun _ => h⟩

theorem fail (error : ε) : Ends (Run.fail error : Run ε σ α) post :=
  ⟨fun _ => trivial⟩

theorem mono (hrun : Ends run post) (h : ∀ a, post a → post' a) : Ends run post' := by
  refine ⟨fun s => ?_⟩
  have hs := hrun.outcome s
  cases hcase : run s with
  | ok result =>
    rw [hcase] at hs
    exact h _ hs
  | error error => trivial
  | panic => rw [hcase] at hs; exact hs
  | running => rw [hcase] at hs; exact hs

/-- A sequence ends when each of its parts does. -/
theorem bind (hrun : Ends run post) (hnext : ∀ a, post a → Ends (next a) post₂) :
    Ends (run >>= next) post₂ := by
  refine ⟨fun s => ?_⟩
  have hs := hrun.outcome s
  cases hcase : run s with
  | ok result =>
    rw [hcase] at hs
    rw [Run.bind_eq_of_ok hcase]
    exact (hnext result.1 hs).outcome result.2
  | error error =>
    rw [Run.bind_eq_of_error hcase]
    trivial
  | panic => rw [hcase] at hs; exact hs.elim
  | running => rw [hcase] at hs; exact hs.elim

theorem ofExcept {x : Except ε α} (h : ∀ a, x = .ok a → post a) :
    Ends (Run.ofExcept x : Run ε σ α) post := by
  cases x with
  | ok a => exact pure (h a rfl)
  | error error => exact fail error

theorem of_ofExcept (x : Except ε α) : Ends (Run.ofExcept x : Run ε σ α) fun _ => True :=
  ofExcept fun _ _ => trivial

theorem plus (h : a + b < 2 ^ 64) : Ends (Run.plus a b : Run ε σ ℕ) (· = a + b) := by
  rw [Run.plus, if_pos h]
  exact pure rfl

theorem checkedPlus {error : ε} :
    Ends (Run.checkedPlus error a b : Run ε σ ℕ) (· = a + b) := by
  unfold Run.checkedPlus
  split_ifs
  · exact pure rfl
  · exact fail error

theorem minus (h : b ≤ a) : Ends (Run.minus a b : Run ε σ ℕ) (· = a - b) := by
  rw [Run.minus, if_pos h]
  exact pure rfl

theorem slice {l : List α} (hmn : m ≤ n) (hn : n ≤ l.length) :
    Ends (Run.slice l m n : Run ε σ (List α)) (· = (l.drop m).take (n - m)) := by
  rw [Run.slice, if_pos ⟨hmn, hn⟩]
  exact pure rfl

end Ends

namespace Answers

theorem pure (a : α) : Answers (pure a : Run ε σ α) (.ok a) := ⟨fun s => ⟨s, rfl⟩⟩

theorem fail (error : ε) : Answers (Run.fail error : Run ε σ α) (.error error) :=
  ⟨fun _ => rfl⟩

/-- A sequence ends as the sequence of the answers does. -/
theorem bind (hrun : Answers run answer) (hnext : ∀ a, answer = .ok a →
    Answers (next a) (nextAnswer a)) : Answers (run >>= next) (answer >>= nextAnswer) := by
  cases answer with
  | error error => exact ⟨fun s => Run.bind_eq_of_error (hrun.outcome s)⟩
  | ok a =>
    have hsecond := hnext a rfl
    show Answers (run >>= next) (nextAnswer a)
    cases hcase : nextAnswer a with
    | ok b =>
      rw [hcase] at hsecond
      refine ⟨fun s => ?_⟩
      obtain ⟨t, ht⟩ := hrun.outcome s
      show ∃ t, (run >>= next) s = .ok (b, t)
      rw [Run.bind_eq_of_ok ht]
      exact hsecond.outcome t
    | error error =>
      rw [hcase] at hsecond
      refine ⟨fun s => ?_⟩
      obtain ⟨t, ht⟩ := hrun.outcome s
      show (run >>= next) s = .error error
      rw [Run.bind_eq_of_ok ht]
      exact hsecond.outcome t

/-- A part that is sure of its value. -/
theorem bind_pure {a : α} (hrun : Answers run (.ok a)) {answer : Except ε β}
    (hnext : Answers (next a) answer) : Answers (run >>= next) answer :=
  @bind _ _ _ _ _ _ _ (fun _ => answer) hrun fun _ h => (Except.ok.inj h) ▸ hnext

theorem ofExcept (x : Except ε α) : Answers (Run.ofExcept x : Run ε σ α) x := by
  cases x with
  | ok a => exact pure a
  | error error => exact fail error

theorem plus (h : a + b < 2 ^ 64) : Answers (Run.plus a b : Run ε σ ℕ) (.ok (a + b)) := by
  rw [Run.plus, if_pos h]
  exact pure _

theorem minus (h : b ≤ a) : Answers (Run.minus a b : Run ε σ ℕ) (.ok (a - b)) := by
  rw [Run.minus, if_pos h]
  exact pure _

theorem slice {l : List α} (hmn : m ≤ n) (hn : n ≤ l.length) :
    Answers (Run.slice l m n : Run ε σ (List α)) (.ok ((l.drop m).take (n - m))) := by
  rw [Run.slice, if_pos ⟨hmn, hn⟩]
  exact pure _

end Answers

end Rules

end Foundations
