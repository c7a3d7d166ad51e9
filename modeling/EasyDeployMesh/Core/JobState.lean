import Mathlib.Tactic.Common

/-!
# The life cycle of a job

The seven states of a deployment job and the guarded transition between them
(`crates/core/src/job.rs`). A job ends in `succeeded` or `cancelled`; a `failed` job may still be
queued again, so it is not terminal.

## Main definitions

* `EasyDeployMesh.JobState`, `EasyDeployMesh.JobState.transition`,
  `EasyDeployMesh.JobState.isTerminal`.
* `EasyDeployMesh.JobState.isActive`: an Agent may hold a job in this state.

## Main results

* `EasyDeployMesh.JobState.transition_eq_ok_iff`: the transition succeeds exactly on the allowed
  pairs, and then returns the requested state.
* `EasyDeployMesh.JobState.not_allows_of_isTerminal`: no transition leaves a terminal state.
-/

namespace EasyDeployMesh

/-- The states of a job. -/
inductive JobState
  | draft
  | waiting
  | running
  | paused
  | succeeded
  | failed
  | cancelled
  deriving DecidableEq, Repr

/-- A transition that the table of states does not have. -/
structure JobTransitionError where
  source : JobState
  target : JobState
  deriving DecidableEq, Repr

namespace JobState

/-- The pairs of states that a transition may connect. -/
def allows : JobState → JobState → Bool
  | draft, waiting | draft, cancelled => true
  | waiting, running | waiting, cancelled => true
  | running, paused | running, succeeded | running, failed | running, cancelled => true
  | paused, running | paused, succeeded | paused, failed | paused, cancelled => true
  | failed, waiting => true
  | _, _ => false

/-- Applies a guarded state transition. -/
def transition (current next : JobState) : Except JobTransitionError JobState :=
  if current.allows next then .ok next else .error { source := current, target := next }

/-- The states that no transition leaves. -/
def isTerminal : JobState → Bool
  | succeeded | cancelled => true
  | _ => false

/-- The states in which the lease of a job may be presented. -/
def isActive : JobState → Bool
  | running | paused => true
  | _ => false

variable {current next result : JobState}

theorem transition_eq_ok_iff :
    current.transition next = .ok result ↔ current.allows next = true ∧ result = next := by
  unfold transition
  split_ifs with h
  · simp [h, eq_comm]
  · simp [h]

theorem not_allows_of_isTerminal (h : current.isTerminal = true) :
    current.allows next = false := by
  cases current <;> cases next <;> simp_all [isTerminal, allows]

/-- A job enters `running` from `waiting` or from `paused`. -/
theorem allows_running_iff :
    current.allows running = true ↔ current = waiting ∨ current = paused := by
  cases current <;> simp [allows]

/-- A job is queued from `draft`, or again from `failed`. -/
theorem allows_waiting_iff :
    current.allows waiting = true ↔ current = draft ∨ current = failed := by
  cases current <;> simp [allows]

/-- A job is paused only while it runs. -/
theorem allows_paused_iff : current.allows paused = true ↔ current = running := by
  cases current <;> simp [allows]

/-- A job that an Agent may hold is completed in either way. -/
theorem allows_of_isActive (h : current.isActive = true) :
    current.allows succeeded = true ∧ current.allows failed = true := by
  cases current <;> simp_all [isActive, allows]

theorem isActive_iff : current.isActive = true ↔ current = running ∨ current = paused := by
  cases current <;> simp [isActive]

end JobState

end EasyDeployMesh
