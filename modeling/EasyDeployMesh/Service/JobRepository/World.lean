import EasyDeployMesh.Service.JobRepository.Model
import EasyDeployMesh.Foundations.Run

/-!
# Runs of the job repository

The repository as a system that takes one call after the other. Every call takes the lock of the
jobs, so the calls of concurrent clients form a sequence. An event is a call with its arguments and
with what the environment answers to it: the readings of the clock, the UUID it mints, and what
becomes of its write. The clock never goes back, and a minted UUID was never minted before; an event
that violates this cannot occur.

## Main definitions

* `EasyDeployMesh.JobEvent`: one call, with the answers of the environment.
* `EasyDeployMesh.RepositoryWorld`: the repository, the last reading of the clock under the lock,
  and the UUIDs that were minted.
* `EasyDeployMesh.RepositoryWorld.step`, `EasyDeployMesh.RepositoryWorld.empty`: the step function
  and the start of a run.

## Main results

* `EasyDeployMesh.RepositoryWorld.step_eq_some_iff`: which events can occur, and what they lead to.
-/

namespace EasyDeployMesh

open Foundations

/-- A call on the repository together with what the environment answers to it. `started` is a
reading of the clock before the lock is taken; `now` and `later` are readings under the lock. -/
inductive JobEvent
  | create (request : CreateDeploymentJob) (now : Instant) (id : Uuid) (write : WriteOutcome)
  | enqueue (request : CreateDeploymentJob) (now : Instant) (id : Uuid) (write : WriteOutcome)
  | transition (id : Uuid) (nextState : JobState) (now : Instant) (write : WriteOutcome)
  | leaseForDeviceIf (deviceId : Uuid) (duration : Duration) (isEligible : DeploymentJob → Bool)
      (now : Instant) (leaseId : Uuid) (write : WriteOutcome)
  | markInstallerBooting (jobId deviceId imageId : Uuid) (now : Instant) (write : WriteOutcome)
  | leaseInstallerJob (jobId deviceId imageId : Uuid) (duration : Duration) (now : Instant)
      (leaseId : Uuid) (write : WriteOutcome)
  | reportInstallerProgress (jobId deviceId leaseId : Uuid) (leaseDuration : Duration)
      (stage : DeploymentStage) (progressPercent : UInt8) (message : Option String)
      (started now later : Instant) (write : WriteOutcome)
  | completeInstaller (jobId deviceId leaseId : Uuid) (succeeded : Bool)
      (errorMessage : Option String) (now later : Instant) (write : WriteOutcome)
  | reportProgress (jobId deviceId : Uuid) (leaseDuration : Duration) (progress : AgentJobProgress)
      (started now later : Instant) (write : WriteOutcome)
  | authorizedLease (jobId deviceId leaseId : Uuid) (now : Instant)
  | complete (jobId deviceId leaseId : Uuid) (succeeded : Bool) (errorMessage : Option String)
      (now later : Instant) (write : WriteOutcome)
  | renewControlLease (jobId deviceId leaseId : Uuid) (duration : Duration) (now : Instant)
      (write : WriteOutcome)
  | remove (id : Uuid) (write : WriteOutcome)
  /-- The service stops, and opens its manifest again. -/
  | reopen
  /-- The clock is read at `now` while no call holds the lock. -/
  | idle (now : Instant)

namespace JobEvent

/-- The readings of the clock under the lock, in the order in which they are taken. -/
def readings : JobEvent → List Instant
  | create .. | enqueue .. | remove .. | reopen => []
  | transition _ _ now _ | leaseForDeviceIf _ _ _ now _ _ | markInstallerBooting _ _ _ now _
  | leaseInstallerJob _ _ _ _ now _ _ | authorizedLease _ _ _ now
  | renewControlLease _ _ _ _ now _ | idle now => [now]
  | reportInstallerProgress _ _ _ _ _ _ _ _ now later _ | completeInstaller _ _ _ _ _ now later _
  | reportProgress _ _ _ _ _ now later _ | complete _ _ _ _ _ now later _ => [now, later]

/-- The reading before the lock is not later than the readings under it. -/
def startsInTime : JobEvent → Bool
  | reportInstallerProgress _ _ _ _ _ _ _ started now _ _
  | reportProgress _ _ _ _ started now _ _ => started ≤ now
  | _ => true

/-- The UUID that the call mints if it comes to that. -/
def mint : JobEvent → Option Uuid
  | create _ _ id _ | enqueue _ _ id _ => some id
  | leaseForDeviceIf _ _ _ _ leaseId _ | leaseInstallerJob _ _ _ _ _ leaseId _ => some leaseId
  | _ => none

/-- The request for a new job. -/
def request : JobEvent → Option CreateDeploymentJob
  | create request _ _ _ | enqueue request _ _ _ => some request
  | _ => none

/-- The repository after the event; `none` when the manifest cannot be opened again. -/
def apply (repo : JobRepository) : JobEvent → Option JobRepository
  | create request now id write => some (repo.create request now id write).2
  | enqueue request now id write => some (repo.enqueue request now id write).2
  | transition id nextState now write => some (repo.transition id nextState now write).2
  | leaseForDeviceIf deviceId duration isEligible now leaseId write =>
    some (repo.leaseForDeviceIf deviceId duration isEligible now leaseId write).2
  | markInstallerBooting jobId deviceId imageId now write =>
    some (repo.markInstallerBooting jobId deviceId imageId now write).2
  | leaseInstallerJob jobId deviceId imageId duration now leaseId write =>
    some (repo.leaseInstallerJob jobId deviceId imageId duration now leaseId write).2
  | reportInstallerProgress jobId deviceId leaseId leaseDuration stage progressPercent message
      started now later write =>
    some (repo.reportInstallerProgress jobId deviceId leaseId leaseDuration stage progressPercent
      message started now later write).2
  | completeInstaller jobId deviceId leaseId succeeded errorMessage now later write =>
    some (repo.completeInstaller jobId deviceId leaseId succeeded errorMessage now later write).2
  | reportProgress jobId deviceId leaseDuration progress started now later write =>
    some (repo.reportProgress jobId deviceId leaseDuration progress started now later write).2
  | authorizedLease .. => some repo
  | complete jobId deviceId leaseId succeeded errorMessage now later write =>
    some (repo.complete jobId deviceId leaseId succeeded errorMessage now later write).2
  | renewControlLease jobId deviceId leaseId duration now write =>
    some (repo.renewControlLease jobId deviceId leaseId duration now write).2
  | remove id write => some (repo.remove id write).2
  | reopen => (JobRepository.openManifest repo.manifestPath repo.manifestFile).toOption
  | idle _ => some repo

end JobEvent

/-- The repository, the last reading of the clock under the lock, and the UUIDs minted so far. -/
structure RepositoryWorld where
  repo : JobRepository
  clock : Instant
  minted : List Uuid
  deriving DecidableEq

namespace RepositoryWorld

/-- The repository over a directory without manifest, with the clock at `clock`. -/
def empty (manifestPath : String) (clock : Instant) : RepositoryWorld where
  repo := { manifestPath, jobs := [], manifestFile := .absent }
  clock := clock
  minted := []

/-- The environment can produce the event: the clock does not go back, and the UUID is fresh. -/
def admits (w : RepositoryWorld) (e : JobEvent) : Bool :=
  decide ((w.clock :: e.readings).IsChain (· ≤ ·)) && e.startsInTime &&
    e.mint.all fun id => !w.minted.contains id

/-- One call; the clock does not run back and no identifier is drawn twice. -/
def step (w : RepositoryWorld) (e : JobEvent) : Option RepositoryWorld :=
  if w.admits e then
    (e.apply w.repo).map fun repo =>
      { repo, clock := e.readings.getLastD w.clock, minted := e.mint.toList ++ w.minted }
  else none

variable {w w' : RepositoryWorld} {e : JobEvent}

theorem step_eq_some_iff : w.step e = some w' ↔ w.admits e = true ∧
    e.apply w.repo = some w'.repo ∧ w'.clock = e.readings.getLastD w.clock ∧
      w'.minted = e.mint.toList ++ w.minted := by
  unfold step
  split_ifs with h
  · rw [Option.map_eq_some_iff]
    constructor
    · rintro ⟨repo, happly, rfl⟩
      exact ⟨h, happly, rfl, rfl⟩
    · rintro ⟨-, happly, hclock, hminted⟩
      exact ⟨w'.repo, happly, by rw [← hclock, ← hminted]⟩
  · simp [h]

theorem notMem_minted_of_mint {id : Uuid} (h : w.step e = some w') (hid : e.mint = some id) :
    id ∉ w.minted := by
  have hadmits := (step_eq_some_iff.1 h).1
  simp only [admits, hid, Option.all_some, Bool.and_eq_true, Bool.not_eq_true',
    List.contains_eq_mem, decide_eq_false_iff_not] at hadmits
  exact hadmits.2

theorem minted_subset (h : w.step e = some w') : w.minted ⊆ w'.minted := by
  rw [(step_eq_some_iff.1 h).2.2.2]
  exact List.subset_append_right _ _

theorem mem_minted_of_mint {id : Uuid} (h : w.step e = some w') (hid : e.mint = some id) :
    id ∈ w'.minted := by
  rw [(step_eq_some_iff.1 h).2.2.2, hid]
  simp

/-- The readings under the lock are not earlier than the last reading. -/
theorem clock_le_of_mem_readings (h : w.step e = some w') {now : Instant}
    (hnow : now ∈ e.readings) :
    w.clock ≤ now := by
  have hadmits := (step_eq_some_iff.1 h).1
  simp only [admits, Bool.and_eq_true, decide_eq_true_eq] at hadmits
  have hchain := hadmits.1.1
  rw [List.isChain_iff_pairwise, List.pairwise_cons] at hchain
  exact hchain.1 now hnow

/-- The clock does not go back. -/
theorem clock_le (h : w.step e = some w') : w.clock ≤ w'.clock := by
  rw [(step_eq_some_iff.1 h).2.2.1]
  cases hreadings : e.readings with
  | nil => simp
  | cons now later =>
    refine clock_le_of_mem_readings h ?_
    rw [hreadings]
    simp [List.getLast?_eq_some_getLast]

end RepositoryWorld

/-! ### Two requests -/

/-- A Windows deployment to the device 7. -/
def windowsRequest : CreateDeploymentJob where
  name := "Classroom 1"
  operation := .deployWim
  imageId := 9
  targets :=
    [{ deviceId := 7, targetDiskId := "\\\\.\\PHYSICALDRIVE0", targetDiskModel := "NVMe",
       targetDiskSerial := some "S-1", targetDiskSizeBytes := 256000000000 }]
  options := { imageIndex := 1, partitionPlan := PartitionPlan.uefiGpt, linuxInstall := none }

/-- An Ubuntu installation on the device 8. -/
def linuxRequest : CreateDeploymentJob where
  name := "Laboratory 2"
  operation := .installLinux
  imageId := 5
  targets :=
    [{ deviceId := 8, targetDiskId := "/dev/sda", targetDiskModel := "SSD 870",
       targetDiskSerial := some "L-8", targetDiskSizeBytes := 512000000000 }]
  options :=
    { imageIndex := 0, partitionPlan := PartitionPlan.uefiGpt,
      linuxInstall := some
        { hostname := "lab-2", username := "student",
          sshAuthorizedKeys := ["ssh-ed25519 AAAAC3NzaC1lZDI1NTE5"] } }

/-- The requests are valid. -/
example : validateRequest windowsRequest = .ok () ∧ validateRequest linuxRequest = .ok () := by
  decide

end EasyDeployMesh
