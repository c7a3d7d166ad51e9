import EasyDeployMesh.Agent.Deployment
import EasyDeployMesh.Service.JobRepository.World

/-!
# What the host accepts and what the Agent accepts

The host validates the request of a deployment, and `claim_job` of
`crates/service/src/control_plane.rs` leases the job when some disk of the inventory has the
fingerprint of its target. The Agent finds the disk again and writes the scripts. For plans without
a recovery partition that fit on the disk, the Agent accepts every such lease except those whose
disk is no physical drive, those whose MBR plan needs an extended partition that does not come last,
and those whose Windows partition has no `u32` number.

## Main definitions

* `EasyDeployMesh.DeploymentJob.agentLease`: the lease that the control plane returns.
* `EasyDeployMesh.HostLeases`, `EasyDeployMesh.AgentAccepts`.

## Main results

* `EasyDeployMesh.agentAccepts_iff_of_hostLeases`: which leases of the host the Agent accepts.
* `EasyDeployMesh.agentAccepts_fails_of_dataBeforeWindows`: an MBR plan that the Agent refuses.
-/

namespace EasyDeployMesh

open Foundations

/-- The lease that `claim_job` returns for a leased job, with the image and the metadata of a GHO
deployment. -/
def DeploymentJob.agentLease (job : DeploymentJob) (image : AgentDeploymentImage)
    (gho : Option AgentGhoDeployment) : Option AgentJobLease := do
  let target ← job.targets.head?
  let leaseId ← job.leaseId
  let expiresAt ← job.leaseExpiresAt
  pure
    { jobId := job.id, leaseId, expiresAt, operation := job.operation,
      image := { image with index := job.options.imageIndex }, target,
      partitionPlan := job.options.partitionPlan, gho }

/-- The operations that `validate_deployment_compatibility` allows for the image of a Windows
job. -/
def compatibleFormat : Operation → ImageFormat → Bool
  | .deployWim, .wim | .deployWim, .esd | .deployGho, .gho => true
  | _, _ => false

/-- The host accepts the request, and leases its job because a disk of the inventory has the
fingerprint of the target. -/
structure HostLeases (request : CreateDeploymentJob) (disks : List Disk) (lease : AgentJobLease) :
    Prop where
  valid : validateRequest request = .ok ()
  windows : request.operation = .deployWim ∨ request.operation = .deployGho
  job : ∃ (job : DeploymentJob) (image : AgentDeploymentImage) (gho : Option AgentGhoDeployment),
    job.operation = request.operation ∧ job.targets = request.targets ∧
    job.options = request.options ∧ job.targets.length = 1 ∧ job.agentLease image gho = some lease
  format : compatibleFormat lease.operation lease.image.format = true
  matched : disks.any lease.target.matchesDisk = true

/-- The plan has no recovery partition. -/
def NoRecovery (lease : AgentJobLease) : Prop :=
  ∀ partition ∈ lease.partitionPlan.partitions, partition.role ≠ .recovery

/-- The plan and the image fit on every disk that has the fingerprint of the target. -/
def WithinCapacity (lease : AgentJobLease) (disks : List Disk) : Prop :=
  ∀ disk ∈ disks, lease.target.matchesDisk disk = true →
    lease.partitionPlan.validateCapacity disk.sizeBytes lease.image.sizeBytes = .ok () ∧
    ∀ gho, lease.gho = some gho → lease.partitionPlan.validateWindowsPayloadCapacity disk.sizeBytes
      lease.image.sizeBytes gho.expandedSizeBytes = .ok ()

/-- The Agent finds the disk of its lease and writes the scripts. -/
def AgentAccepts (lease : AgentJobLease) (disks : List Disk) : Prop :=
  ∃ disk layout, matchingDisk lease disks = .ok disk ∧ prepareLayout lease disk = .ok layout

/-- The first disk with the id of the target is a physical drive with the fingerprint of the
target. -/
def FirstDiskFits (lease : AgentJobLease) (disks : List Disk) : Prop :=
  ∀ disk, disks.find? (fun disk => Text.eqIgnoreAsciiCase disk.id lease.target.targetDiskId) =
      some disk →
    lease.target.matchesDisk disk = true ∧ ∃ number, physicalDriveNumber disk.id = .ok number

/-- An MBR plan that needs an extended partition has its data partitions last. -/
def ExtendedPartitionLast (plan : PartitionPlan) : Prop :=
  plan.usesMbrExtendedPartition = true → plan.dataPartitionsLast = true

/-- The number of the Windows partition is a `u32`. -/
def WindowsNumbered (plan : PartitionPlan) : Prop :=
  ∀ entry ∈ plan.partitions.zipIdx, entry.1.role = .windows → entry.2 + 1 < 2 ^ 32

section

variable {request : CreateDeploymentJob} {disks : List Disk} {lease : AgentJobLease} {disk : Disk}

/-- The request of a Windows deployment names an image index and a valid plan. -/
theorem plan_valid_of_validateRequest (h : validateRequest request = .ok ())
    (hwindows : request.operation ≠ .installLinux) :
    request.options.partitionPlan.validate = .ok () ∧ request.options.imageIndex ≠ 0 := by
  simp only [validateRequest, check_eq_ok_iff, hwindows, if_false, bind_unit_eq_ok_iff,
    mapError_eq_ok_iff] at h
  obtain ⟨-, -, -, hindex, hvalid, -⟩ := h
  exact ⟨hvalid, hindex⟩

/-- The plan and the index of a lease of the host have passed its validation. -/
private theorem HostLeases.plan_valid (h : HostLeases request disks lease) :
    lease.partitionPlan.validate = .ok () ∧ lease.image.index ≠ 0 := by
  obtain ⟨job, image, gho, -, -, hoptions, -, hlease⟩ := h.job
  have hwindows : request.operation ≠ .installLinux := by
    rcases h.windows with hoperation | hoperation <;> simp [hoperation]
  simp only [DeploymentJob.agentLease, Option.bind_eq_bind, Option.bind_eq_some_iff,
    Option.pure_def, Option.some.injEq] at hlease
  obtain ⟨target, -, leaseId, -, expiresAt, -, rfl⟩ := hlease
  rw [hoptions]
  exact plan_valid_of_validateRequest h.valid hwindows

private theorem format_of_compatibleFormat {operation : Operation} {format : ImageFormat}
    (h : compatibleFormat operation format = true) :
    format = .wim ∨ format = .esd ∨ format = .gho := by
  cases operation <;> cases format <;> simp_all [compatibleFormat]

/-- The Agent finds a disk with the id of the target when the host has matched one and the id has no
surrounding white space. -/
private theorem HostLeases.exists_find? (h : HostLeases request disks lease)
    (htrim : Text.trim lease.target.targetDiskId = lease.target.targetDiskId) :
    ∃ disk, disks.find? (fun disk => Text.eqIgnoreAsciiCase disk.id lease.target.targetDiskId) =
      some disk := by
  obtain ⟨disk, hdisk, hmatches⟩ := List.any_eq_true.1 h.matched
  simp only [DeploymentTarget.matchesDisk, htrim, Bool.and_eq_true] at hmatches
  exact Option.isSome_iff_exists.1 (List.find?_isSome.2 ⟨disk, hdisk, hmatches.1.1.1⟩)

/-- The Agent accepts a lease of the host exactly when the first disk with the id of the target
fits, an extended partition comes last, and the Windows partition has a number. -/
theorem agentAccepts_iff_of_hostLeases (h : HostLeases request disks lease)
    (htrim : Text.trim lease.target.targetDiskId = lease.target.targetDiskId)
    (hrecovery : NoRecovery lease) (hcapacity : WithinCapacity lease disks) :
    AgentAccepts lease disks ↔ FirstDiskFits lease disks ∧
      ExtendedPartitionLast lease.partitionPlan ∧ WindowsNumbered lease.partitionPlan := by
  obtain ⟨found, hfound⟩ := h.exists_find? htrim
  constructor
  · rintro ⟨disk, layout, hdisk, hlayout⟩
    obtain ⟨hfind, hmatches⟩ := matchingDisk_eq_ok_iff.1 hdisk
    obtain ⟨-, hnumber, hextended, hwindows, -⟩ := exists_prepareLayout_iff.1 ⟨layout, hlayout⟩
    refine ⟨fun other hother => ?_, hextended, hwindows⟩
    obtain rfl := Option.some.inj (hother.symm.trans hfind)
    exact ⟨hmatches, hnumber⟩
  · rintro ⟨hfits, hextended, hwindows⟩
    obtain ⟨hmatches, hnumber⟩ := hfits found hfound
    obtain ⟨hvalid, hindex⟩ := h.plan_valid
    obtain ⟨hfixed, hpayload⟩ := hcapacity found (List.mem_of_find?_eq_some hfound) hmatches
    have hcheck : checkPlan lease found = .ok () :=
      checkPlan_eq_ok_iff.2 ⟨hvalid, hindex, hrecovery, hfixed, hpayload⟩
    obtain ⟨layout, hlayout⟩ := exists_prepareLayout_iff.2
      ⟨hcheck, hnumber, hextended, hwindows, format_of_compatibleFormat h.format⟩
    exact ⟨found, layout, matchingDisk_eq_ok_iff.2 ⟨hfound, hmatches⟩, hlayout⟩

end

/-! ### Two plans -/

/-- The disk of `windowsRequest`. -/
def physicalDisk : Disk where
  id := "\\\\.\\PHYSICALDRIVE0"
  model := "NVMe"
  serial := some "S-1"
  sizeBytes := 256000000000
  isSystem := false

/-- A data volume on either side of the Windows partition. -/
def dataBeforeWindows : PartitionPlan where
  table := .mbr
  partitions :=
    [{ role := .system, sizeMib := some 550, fileSystem := some .ntfs, label := "System Reserved",
       driveLetter := none },
     { role := .data, sizeMib := some 40960, fileSystem := some .ntfs, label := "Software",
       driveLetter := some 'D' },
     { role := .windows, sizeMib := some 61440, fileSystem := some .ntfs, label := "Windows",
       driveLetter := none },
     { role := .data, sizeMib := none, fileSystem := some .ntfs, label := "Data",
       driveLetter := some 'E' }]

/-- `windowsRequest` with another plan. -/
def plannedRequest (plan : PartitionPlan) : CreateDeploymentJob :=
  { windowsRequest with options := { windowsRequest.options with partitionPlan := plan } }

/-- The job of `plannedRequest`, as an Agent has leased it. -/
def plannedJob (plan : PartitionPlan) : DeploymentJob where
  id := 1
  name := (plannedRequest plan).name
  operation := (plannedRequest plan).operation
  imageId := (plannedRequest plan).imageId
  targets := (plannedRequest plan).targets
  options := (plannedRequest plan).options
  state := .running
  stage := some .preflight
  progressPercent := 0
  statusMessage := some "Agent claimed deployment task"
  errorMessage := none
  leaseId := some 2
  leaseExpiresAt := some (minutes 121)
  createdAt := 0
  updatedAt := minutes 1

/-- The image of the job. -/
def plannedImage : AgentDeploymentImage where
  id := 9
  name := "Windows 11"
  format := .wim
  sizeBytes := 5000000000
  sha256 := "7804a56a5c7636cc05814736f44139e32920810d3bd51aa099a5df932e754ce9"
  downloadUrl := "/api/v1/agents/7/jobs/1/image?leaseId=2"
  index := 1

/-- The lease of the job. -/
def plannedLease (plan : PartitionPlan) : AgentJobLease :=
  ((plannedJob plan).agentLease plannedImage none).get rfl

/-- The target of `windowsRequest`. -/
def windowsTarget : DeploymentTarget where
  deviceId := 7
  targetDiskId := "\\\\.\\PHYSICALDRIVE0"
  targetDiskModel := "NVMe"
  targetDiskSerial := some "S-1"
  targetDiskSizeBytes := 256000000000

private theorem target_plannedLease (plan : PartitionPlan) :
    (plannedLease plan).target = windowsTarget := rfl

private theorem hostLeases_planned {plan : PartitionPlan}
    (hvalid : validateRequest (plannedRequest plan) = .ok ()) :
    HostLeases (plannedRequest plan) [physicalDisk] (plannedLease plan) where
  valid := hvalid
  windows := Or.inl rfl
  job := ⟨plannedJob plan, plannedImage, none, rfl, rfl, rfl, rfl, (Option.some_get _).symm⟩
  format := rfl
  matched := by
    rw [target_plannedLease]
    decide +kernel

private theorem withinCapacity_planned {plan : PartitionPlan}
    (hcapacity : plan.validateCapacity physicalDisk.sizeBytes plannedImage.sizeBytes = .ok ()) :
    WithinCapacity (plannedLease plan) [physicalDisk] := by
  intro disk hdisk _
  obtain rfl := List.mem_singleton.1 hdisk
  exact ⟨hcapacity, fun gho hgho => by simp [plannedLease, DeploymentJob.agentLease] at hgho⟩

private theorem noRecovery_planned {plan : PartitionPlan}
    (h : ∀ partition ∈ plan.partitions, partition.role ≠ .recovery) :
    NoRecovery (plannedLease plan) := h

/-- The Agent accepts the recommended plan on a disk that fits. -/
theorem agentAccepts_uefiGpt :
    AgentAccepts (plannedLease PartitionPlan.uefiGpt) [physicalDisk] := by
  have hfits : FirstDiskFits (plannedLease PartitionPlan.uefiGpt) [physicalDisk] := by
    intro disk hfind
    obtain rfl := List.mem_singleton.1 (List.mem_of_find?_eq_some hfind)
    refine ⟨by rw [target_plannedLease]; decide +kernel, 0, by decide +kernel⟩
  refine (agentAccepts_iff_of_hostLeases (hostLeases_planned (by decide)) (by decide +kernel)
    (noRecovery_planned (by decide)) (withinCapacity_planned (by decide +kernel))).2
    ⟨hfits, fun hextended => absurd hextended (by decide), ?_⟩
  intro entry hentry _
  have hindex : ∀ entry ∈ PartitionPlan.uefiGpt.partitions.zipIdx, entry.2 + 1 < 2 ^ 32 := by decide
  exact hindex entry hentry

/-- The host leases a job whose MBR plan puts a data volume before the Windows partition, and the
Agent refuses it. -/
theorem agentAccepts_fails_of_dataBeforeWindows :
    HostLeases (plannedRequest dataBeforeWindows) [physicalDisk] (plannedLease dataBeforeWindows) ∧
      NoRecovery (plannedLease dataBeforeWindows) ∧
      WithinCapacity (plannedLease dataBeforeWindows) [physicalDisk] ∧
      ¬ AgentAccepts (plannedLease dataBeforeWindows) [physicalDisk] := by
  refine ⟨hostLeases_planned (by decide), noRecovery_planned (by decide),
    withinCapacity_planned (by decide +kernel), ?_⟩
  rintro ⟨disk, layout, -, hlayout⟩
  obtain ⟨-, -, hextended, -⟩ := exists_prepareLayout_iff.1 ⟨layout, hlayout⟩
  exact absurd (hextended (by decide)) (by decide)

end EasyDeployMesh
