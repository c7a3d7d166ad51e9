import EasyDeployMesh.Core.JobState
import EasyDeployMesh.Core.PartitionPlan
import EasyDeployMesh.Core.LinuxInstall

/-!
# Deployment jobs

The records that the host persists and exchanges with an Agent (`crates/core/src/job.rs`): the
target of a job with its disk fingerprint, the job itself, the request that creates one, the lease
that an Agent receives, and what the Agent reports.

## Main definitions

* `EasyDeployMesh.DeploymentTarget`, `EasyDeployMesh.DeploymentTarget.matchesDisk`.
* `EasyDeployMesh.DeploymentJob`, `EasyDeployMesh.CreateDeploymentJob`,
  `EasyDeployMesh.AgentJobLease`, `EasyDeployMesh.AgentJobProgress`,
  `EasyDeployMesh.AgentJobCompletion`.
* `EasyDeployMesh.DeploymentJob.targetsDevice`: the job has a target on the device.
-/

namespace EasyDeployMesh

open Foundations

/-- The device of a job and the fingerprint of the disk that is written. -/
structure DeploymentTarget where
  deviceId : Uuid
  targetDiskId : String
  targetDiskModel : String
  targetDiskSerial : Option String
  targetDiskSizeBytes : UInt64
  deriving DecidableEq

/-- `u64::abs_diff`. -/
def absDiff (a b : UInt64) : UInt64 := if a ≤ b then b - a else a - b

/-- Confirms that the physical disk still has the fingerprint selected by the service. -/
def DeploymentTarget.matchesDisk (target : DeploymentTarget) (disk : Disk) : Bool :=
  Text.eqIgnoreAsciiCase disk.id (Text.trim target.targetDiskId) &&
    Text.eqIgnoreAsciiCase (Text.trim disk.model) (Text.trim target.targetDiskModel) &&
    absDiff disk.sizeBytes target.targetDiskSizeBytes ≤ 1024 * 1024 &&
    target.targetDiskSerial.all fun expected =>
      disk.serial.any fun actual =>
        Text.eqIgnoreAsciiCase (Text.trim actual) (Text.trim expected)

/-- The choices of the operator for a job. -/
structure DeploymentOptions where
  imageIndex : UInt32
  partitionPlan : PartitionPlan
  linuxInstall : Option LinuxInstallOptions
  deriving DecidableEq

/-- The stages that an Agent reports. -/
inductive DeploymentStage
  | preflight
  | bootingInstaller
  | validatingTarget
  | partitioning
  | downloadingImage
  | applyingImage
  | installingSystem
  | configuringBoot
  | finalizing
  | awaitingFirstBoot
  | rebooting
  deriving DecidableEq, Repr

/-- The record of a job. -/
structure DeploymentJob where
  id : Uuid
  name : String
  operation : Operation
  imageId : Uuid
  targets : List DeploymentTarget
  options : DeploymentOptions
  state : JobState
  stage : Option DeploymentStage
  progressPercent : UInt8
  statusMessage : Option String
  errorMessage : Option String
  leaseId : Option Uuid
  leaseExpiresAt : Option Instant
  createdAt : Instant
  updatedAt : Instant
  deriving DecidableEq

/-- The request of the operator for a new job. -/
structure CreateDeploymentJob where
  name : String
  operation : Operation
  imageId : Uuid
  targets : List DeploymentTarget
  options : DeploymentOptions
  deriving DecidableEq

/-! ### What an Agent receives and reports -/

/-- The image of a lease, as the Agent receives it. -/
structure AgentDeploymentImage where
  id : Uuid
  name : String
  format : ImageFormat
  sizeBytes : UInt64
  sha256 : String
  downloadUrl : String
  index : UInt32
  deriving DecidableEq

/-- The part of a lease that only the deployment of a GHO image needs. -/
structure AgentGhoDeployment where
  sourcePartition : UInt32
  expandedSizeBytes : UInt64
  expandedSha256 : String
  parserVersion : UInt32
  deriving DecidableEq

/-- The lease of a job: what the Agent is told to do until it expires. -/
structure AgentJobLease where
  jobId : Uuid
  leaseId : Uuid
  expiresAt : Instant
  operation : Operation
  image : AgentDeploymentImage
  target : DeploymentTarget
  partitionPlan : PartitionPlan
  gho : Option AgentGhoDeployment
  deriving DecidableEq

/-- A report of progress under a lease. -/
structure AgentJobProgress where
  leaseId : Uuid
  stage : DeploymentStage
  progressPercent : UInt8
  message : Option String
  deriving DecidableEq

/-- The report of the result of a lease. -/
structure AgentJobCompletion where
  leaseId : Uuid
  succeeded : Bool
  errorMessage : Option String
  deriving DecidableEq

namespace DeploymentJob

/-- Some target of the job is on the device. -/
def targetsDevice (job : DeploymentJob) (deviceId : Uuid) : Bool :=
  job.targets.any fun target => target.deviceId == deviceId

/-- The job has exactly one target, and it is on the device. -/
def hasSoleTarget (job : DeploymentJob) (deviceId : Uuid) : Bool :=
  match job.targets with
  | [target] => target.deviceId == deviceId
  | _ => false

/-- The lease of the job has not expired at `now`; a job without expiry holds no such lease. -/
def leaseCurrentAt (job : DeploymentJob) (now : Instant) : Bool :=
  job.leaseExpiresAt.any fun expiresAt => now ≤ expiresAt

variable {job : DeploymentJob} {deviceId : Uuid}

theorem targetsDevice_of_hasSoleTarget (h : job.hasSoleTarget deviceId = true) :
    job.targetsDevice deviceId = true := by
  unfold hasSoleTarget at h
  split at h
  · simp_all [targetsDevice]
  · simp at h

theorem exists_target_of_hasSoleTarget (h : job.hasSoleTarget deviceId = true) :
    ∃ target, job.targets = [target] ∧ target.deviceId = deviceId := by
  unfold hasSoleTarget at h
  split at h
  · exact ⟨_, by assumption, by simpa using h⟩
  · simp at h

theorem hasSoleTarget_of_length (hlength : job.targets.length = 1)
    (h : job.targetsDevice deviceId = true) : job.hasSoleTarget deviceId = true := by
  obtain ⟨target, htarget⟩ := List.length_eq_one_iff.1 hlength
  simpa [hasSoleTarget, targetsDevice, htarget] using h

end DeploymentJob

end EasyDeployMesh
