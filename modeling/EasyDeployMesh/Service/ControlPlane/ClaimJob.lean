import EasyDeployMesh.Gho.BlockFraming
import EasyDeployMesh.Service.ControlPlane.JobEndpoints
import EasyDeployMesh.Service.DeviceRegistry.World
import EasyDeployMesh.Service.ImageLibrary.Deployment

/-!
# Claiming a job

The endpoint `claim_job` of `crates/service/src/control_plane.rs`. It validates the images of the
jobs that the device might run, leases one of them against the current inventory, and builds the
answer from the catalog. Between its accesses to the stores other calls may change them, so every
access reads a state of its own. The lease is written before the answer is built, and what fails
behind it leaves a running job whose lease no Agent has received.

## Main definitions

* `EasyDeployMesh.ValidationKey`, `EasyDeployMesh.ImageReadings.validates`: the validation of an
  image.
* `EasyDeployMesh.ClaimReadings`: what the call reads, in the order in which it reads it.
* `EasyDeployMesh.claimable`, `EasyDeployMesh.answerLease`, `EasyDeployMesh.claimJob`: the part
  before the lease, the part behind it, and the endpoint.
* `EasyDeployMesh.ClaimReadings.Selects`, `EasyDeployMesh.ClaimReadings.Answers`: the job that a
  call comes to lease, and what its answer needs.

## Main results

* `EasyDeployMesh.claimJob_error_unchanged_iff`: when an error leaves the repository unchanged.
* `EasyDeployMesh.claimJob_loses_lease`: a lease that no Agent receives.
-/

namespace EasyDeployMesh

open Foundations Gho

/-! ### The images of the candidates -/

/-- The job is a deployment of Windows. -/
def Operation.deploysWindows : Operation → Bool
  | .deployWim | .deployGho => true
  | .captureGho | .installLinux => false

/-- What the image of a job is validated for. -/
structure ValidationKey where
  imageId : Uuid
  imageIndex : UInt32
  operation : Operation
  deriving DecidableEq

/-- The parts of a job on which the validation of its image depends. -/
def DeploymentJob.validationKey (job : DeploymentJob) : ValidationKey where
  imageId := job.imageId
  imageIndex := job.options.imageIndex
  operation := job.operation

/-- The validation of an image succeeds. -/
def ImageReadings.validates (sha256 : List UInt8 → String) (r : ImageReadings)
    (key : ValidationKey) :
    Bool :=
  match key.operation with
  | .deployWim =>
    (r.library.revalidateForDeployment sha256 r.files key.imageId key.imageIndex).isOk
  | .deployGho =>
    (ImageLibrary.prepareGhoPartitionDeployment sha256 r key.imageId key.imageIndex).isOk
  | .captureGho | .installLinux => false

/-- The only target of the job is a disk of the device. -/
def DeploymentJob.hasTargetOn (job : DeploymentJob) (deviceId : Uuid) (disks : List Disk) : Bool :=
  match job.targets with
  | [target] => target.deviceId == deviceId && disks.any target.matchesDisk
  | _ => false

/-- The jobs whose images are validated. -/
def DeploymentJob.isCandidate (job : DeploymentJob) (deviceId : Uuid) (device : Device)
    (now : Instant) : Bool :=
  (job.state == .waiting ||
      (job.state == .running && job.leaseExpiresAt.any fun expiresAt => expiresAt < now)) &&
    job.hasTargetOn deviceId device.disks && job.operation.deploysWindows

/-- The candidates whose images are valid. Candidates with one key share its validation. -/
def eligibleJobIds (sha256 : List UInt8 → String) (readings : ValidationKey → ImageReadings)
    (candidates : List DeploymentJob) : List Uuid :=
  (candidates.filter fun job =>
    (readings job.validationKey).validates sha256 job.validationKey).map DeploymentJob.id

/-- The predicate under which a job is leased. -/
def isEligible (eligibleJobIds : List Uuid) (deviceId : Uuid) (currentDevice : Device)
    (job : DeploymentJob) : Bool :=
  eligibleJobIds.contains job.id && job.operation.deploysWindows &&
    job.hasTargetOn deviceId currentDevice.disks

/-- Runs one decision against the authoritative inventory. -/
def DeviceRegistry.withCurrent {α : Type} (registry : DeviceRegistry) (id : Uuid)
    (inspect : Device → α) : Except DeviceRegistryError α :=
  match registry.devices.find? fun record => record.device.id == id with
  | none => .error (.notFound id)
  | some current => .ok (inspect current.device)

/-! ### The endpoint -/

/-- The path segment of a request, when it parses as a UUID, and the authorization header. -/
structure ClaimRequest where
  deviceId : Option Uuid
  authorization : Option String

/-- What the call reads and what the environment answers, in this order. -/
structure ClaimReadings where
  /-- The registry when the token is checked. -/
  authenticated : DeviceRegistry
  /-- The registry when the devices are listed, and the reading of the clock. -/
  listed : DeviceRegistry
  listedAt : Instant
  /-- The reading of the clock, and the repository when the jobs are listed. -/
  now : Instant
  jobs : JobRepository
  /-- What the validation of each key reads, unless the task fails. -/
  validation : Except String (ValidationKey → ImageReadings)
  /-- The registry and the repository when the job is leased. -/
  current : DeviceRegistry
  repo : JobRepository
  leasedAt : Instant
  leaseId : Uuid
  write : WriteOutcome
  /-- The catalog behind the lease. -/
  images : ImageLibrary
  preparation : ImageReadings

/-- The device as the list of the devices has it. -/
def deviceSnapshot (registered : List RegisteredDevice) (deviceId : Uuid) :
    Except ApiError Device :=
  (registered.find? fun registered => registered.device.id == deviceId).elim (.error .notFound)
    fun registered => .ok registered.device

section Endpoint

variable (digest : String → String) (sha256 : List UInt8 → String) (request : ClaimRequest)
  (r : ClaimReadings)

/-- The device and the eligible jobs; there is nothing to lease to a device without disks. -/
def claimable : Except ApiError (Option (Uuid × List Uuid)) := do
  let deviceId ← authenticatedDevice digest r.authenticated request.deviceId request.authorization
  let deviceSnapshot ← deviceSnapshot (r.listed.list r.listedAt) deviceId
  if deviceSnapshot.disks.isEmpty then return none
  let candidates := r.jobs.list.filter fun job => job.isCandidate deviceId deviceSnapshot r.now
  let readings ← r.validation.mapError fun error =>
    .conflict ("image validation task failed: " ++ error)
  return some (deviceId, eligibleJobIds sha256 readings candidates)

/-- The metadata of a GHO deployment. -/
def agentGhoDeployment (capability : GhoImageCapability) : Except ApiError AgentGhoDeployment := do
  let sourcePartition ← capability.sourcePartition.elim
    (.error (.conflict "GHO source partition is missing")) .ok
  let expandedSizeBytes ← capability.expandedSizeBytes.elim
    (.error (.conflict "GHO expanded size is missing")) .ok
  let expandedSha256 ← capability.expandedSha256.elim
    (.error (.conflict "GHO expanded checksum is missing")) .ok
  pure
    { sourcePartition, expandedSizeBytes, expandedSha256,
      parserVersion := capability.parserVersion }

/-- The metadata of a GHO image, and the size and the digest of the download. -/
def downloadOf (job : DeploymentJob) (image : ImageArtifact) (preparation : ImageReadings) :
    Except ApiError (Option AgentGhoDeployment × UInt64 × String) :=
  if job.operation = .deployGho then do
    let prepared ← (ImageLibrary.prepareGhoPartitionDeployment sha256 preparation job.imageId
      job.options.imageIndex).mapError fun _ => .images
    let metadata ← agentGhoDeployment prepared.capability
    pure (some metadata, prepared.downloadSizeBytes, prepared.downloadSha256)
  else do
    let checksum ← image.sha256.elim (.error (.conflict "deployment image has no checksum")) .ok
    pure (none, image.sizeBytes, checksum)

/-- The answer for a leased job. -/
def answerLease (deviceId : Uuid) (job : DeploymentJob) (images : ImageLibrary)
    (preparation : ImageReadings) : Except ApiError AgentJobLease := do
  let target ← job.targets.head?.elim (.error (.conflict "leased job has no target")) .ok
  let image ← (images.get job.imageId).elim (.error .notFound) .ok
  let leaseId ← job.leaseId.elim (.error (.conflict "leased job has no lease id")) .ok
  let expiresAt ← job.leaseExpiresAt.elim (.error (.conflict "leased job has no expiry")) .ok
  let downloadUrl := "/api/v1/agents/" ++ deviceId.hyphenated ++ "/jobs/" ++ job.id.hyphenated ++
    "/image?leaseId=" ++ leaseId.hyphenated
  let (gho, downloadSizeBytes, downloadSha256) ← downloadOf sha256 job image preparation
  pure
    { jobId := job.id, leaseId, expiresAt, operation := job.operation,
      image :=
        { id := image.id, name := image.name, format := image.format,
          sizeBytes := downloadSizeBytes, sha256 := downloadSha256, downloadUrl,
          index := job.options.imageIndex },
      target, partitionPlan := job.options.partitionPlan, gho }

/-- The answer of the endpoint and the repository it leaves behind. -/
def claimJob : Except ApiError (Option AgentJobLease) × JobRepository :=
  match claimable digest sha256 request r with
  | .error error => (.error error, r.repo)
  | .ok none => (.ok none, r.repo)
  | .ok (some (deviceId, eligibleJobIds)) =>
    match r.current.withCurrent deviceId fun currentDevice =>
      r.repo.leaseForDeviceIf deviceId (minutes jobLeaseMinutes)
        (isEligible eligibleJobIds deviceId currentDevice) r.leasedAt r.leaseId r.write with
    | .error error => (.error (.registry error), r.repo)
    | .ok (.error error, repo) => (.error (.jobs error), repo)
    | .ok (.ok none, repo) => (.ok none, repo)
    | .ok (.ok (some job), repo) =>
      ((answerLease sha256 deviceId job r.images r.preparation).map some, repo)

end Endpoint

/-! ### The lease -/

/-- A job as an Agent has claimed it. -/
def DeploymentJob.claimed (job : DeploymentJob) (duration : Duration) (now : Instant)
    (leaseId : Uuid) : DeploymentJob :=
  { job with
    state := .running, stage := some .preflight, progressPercent := 0,
    statusMessage := some "Agent claimed deployment task", errorMessage := none,
    leaseId := some leaseId, leaseExpiresAt := some (now + duration), updatedAt := now }

section Lease

variable {repo : JobRepository} {deviceId leaseId : Uuid} {duration : Duration} {now : Instant}
  {job : DeploymentJob} {isEligible : DeploymentJob → Bool}

/-- The edit of a claim does not fail. -/
theorem DeploymentJob.claim_eq_ok (h : job.isClaimable deviceId now = true) :
    job.claim duration now leaseId = .ok (job.claimed duration now leaseId) := by
  obtain ⟨-, hstate | ⟨hstate, -⟩, -⟩ := isClaimable_iff.1 h <;>
  · simp only [claim, hstate, JobState.transition, JobState.allows]
    rfl

/-- A lease that lasts is another one than the lease before. -/
theorem DeploymentJob.ne_claimed (h : job.isClaimable deviceId now = true)
    (hduration : 0 < duration) :
    job ≠ job.claimed duration now leaseId := by
  intro heq
  obtain ⟨-, hstate | ⟨-, expiresAt, hexpires, hlt⟩, -⟩ := isClaimable_iff.1 h
  · have hrunning : job.state = .running := by rw [heq, claimed]
    exact absurd (hstate.symm.trans hrunning) (by decide)
  · have hnew : job.leaseExpiresAt = some (now + duration) := by rw [heq, claimed]
    have hsame : expiresAt = now + duration := Option.some.inj (hexpires.symm.trans hnew)
    rw [hsame] at hlt
    exact absurd hlt (not_lt.2 (le_add_of_nonneg_right hduration.le))

variable (write : WriteOutcome)

theorem JobRepository.leaseForDeviceIf_of_find?_eq_none
    (h : repo.jobs.find? (fun job => job.isClaimable deviceId now && isEligible job) = none) :
    repo.leaseForDeviceIf deviceId duration isEligible now leaseId write = (.ok none, repo) := by
  rw [find?_eq_map_focus, Option.map_eq_none_iff] at h
  rw [leaseForDeviceIf, h]

/-- The first job that can be claimed is replaced by the claimed one, if the write succeeds. -/
theorem JobRepository.leaseForDeviceIf_of_find?_eq_some
    (h : repo.jobs.find? (fun job => job.isClaimable deviceId now && isEligible job) = some job) :
    ∃ next, Replaces repo.jobs job (job.claimed duration now leaseId) next ∧
      repo.leaseForDeviceIf deviceId duration isEligible now leaseId write =
        repo.commit next (some (job.claimed duration now leaseId)) write := by
  have hfound := List.find?_some h
  have hclaim : job.isClaimable deviceId now = true := (Bool.and_eq_true_iff.1 hfound).1
  rw [find?_eq_map_focus, Option.map_eq_some_iff] at h
  obtain ⟨⟨found, put⟩, hfocus, rfl⟩ := h
  refine ⟨_, Replaces.of_focus hfocus _, ?_⟩
  rw [leaseForDeviceIf, hfocus]
  simp only [DeploymentJob.claim_eq_ok hclaim]

end Lease

/-! ### When an error leaves the repository unchanged -/

section Atomicity

variable {digest : String → String} {sha256 : List UInt8 → String} {request : ClaimRequest}
  {r : ClaimReadings} {deviceId : Uuid} {job : DeploymentJob}

variable (digest sha256 request) in
/-- The call comes to lease the job: the device is authenticated and has disks, and the job is the
first one in the repository that can be claimed, fits the current inventory, and was a candidate
with a valid image. -/
def ClaimReadings.Selects (r : ClaimReadings) (deviceId : Uuid) (job : DeploymentJob) : Prop :=
  ∃ snapshot readings record,
    authenticatedDevice digest r.authenticated request.deviceId request.authorization =
      .ok deviceId ∧
    deviceSnapshot (r.listed.list r.listedAt) deviceId = .ok snapshot ∧ snapshot.disks ≠ [] ∧
    r.validation = .ok readings ∧
    r.current.devices.find? (fun record => record.device.id == deviceId) = some record ∧
    r.repo.jobs.find? (fun job => job.isClaimable deviceId r.leasedAt &&
      isEligible (eligibleJobIds sha256 readings (r.jobs.list.filter fun job =>
        job.isCandidate deviceId snapshot r.now)) deviceId record.device job) = some job

variable (sha256) in
/-- The answer for the job can be built: its image is in the catalog, and a GHO image can be
prepared again, or another image has a digest. -/
def ClaimReadings.Answers (r : ClaimReadings) (job : DeploymentJob) : Prop :=
  ∃ image, r.images.get job.imageId = some image ∧
    (job.operation = .deployGho → ∃ prepared, ImageLibrary.prepareGhoPartitionDeployment sha256
      r.preparation job.imageId job.options.imageIndex = .ok prepared) ∧
    (job.operation ≠ .deployGho → ∃ checksum, image.sha256 = some checksum)

theorem claimable_eq_ok_some_iff {eligible : List Uuid} :
    claimable digest sha256 request r = .ok (some (deviceId, eligible)) ↔
      ∃ snapshot readings,
        authenticatedDevice digest r.authenticated request.deviceId request.authorization =
          .ok deviceId ∧
        deviceSnapshot (r.listed.list r.listedAt) deviceId = .ok snapshot ∧ snapshot.disks ≠ [] ∧
        r.validation = .ok readings ∧ eligible = eligibleJobIds sha256 readings
          (r.jobs.list.filter fun job => job.isCandidate deviceId snapshot r.now) := by
  simp only [claimable, bind_eq_ok_iff]
  constructor
  · rintro ⟨device, hdevice, snapshot, hsnapshot, h⟩
    split_ifs at h with hdisks
    · simp [pure_eq_ok_iff] at h
    · obtain ⟨readings, hreadings, h⟩ := bind_eq_ok_iff.1 h
      obtain ⟨rfl, rfl⟩ := Prod.mk.inj (Option.some.inj (pure_eq_ok_iff.1 h))
      exact ⟨snapshot, readings, hdevice, hsnapshot, by simpa using hdisks,
        mapError_eq_ok_iff.1 hreadings, rfl⟩
  · rintro ⟨snapshot, readings, hdevice, hsnapshot, hdisks, hreadings, rfl⟩
    refine ⟨deviceId, hdevice, snapshot, hsnapshot, ?_⟩
    rw [if_neg (by simpa using hdisks)]
    exact bind_eq_ok_iff.2 ⟨readings, mapError_eq_ok_iff.2 hreadings, rfl⟩

/-- A call that selects no job leaves the repository unchanged and answers without a lease. -/
theorem claimJob_of_not_selects
    (h : ∀ deviceId job, ¬ r.Selects digest sha256 request deviceId job) :
    (claimJob digest sha256 request r).2 = r.repo ∧
      ∀ lease, (claimJob digest sha256 request r).1 ≠ .ok (some lease) := by
  unfold claimJob
  split
  · exact ⟨rfl, by simp⟩
  · exact ⟨rfl, by simp⟩
  · rename_i deviceId eligible hclaimable
    obtain ⟨snapshot, readings, hdevice, hsnapshot, hdisks, hreadings, rfl⟩ :=
      claimable_eq_ok_some_iff.1 hclaimable
    unfold DeviceRegistry.withCurrent
    cases hrecord : r.current.devices.find? (fun record => record.device.id == deviceId) with
    | none => exact ⟨rfl, by simp⟩
    | some record =>
      have hnone := Option.eq_none_iff_forall_ne_some.2 fun job hjob => h deviceId job
        ⟨snapshot, readings, record, hdevice, hsnapshot, hdisks, hreadings, hrecord, hjob⟩
      simp [JobRepository.leaseForDeviceIf_of_find?_eq_none r.write hnone]

/-- A call that selects a job claims it, and answers when the claim has been written. -/
theorem claimJob_of_selects (h : r.Selects digest sha256 request deviceId job) :
    ∃ leased next, leased = job.claimed (minutes jobLeaseMinutes) r.leasedAt r.leaseId ∧
      Replaces r.repo.jobs job leased next ∧
      claimJob digest sha256 request r =
        match r.repo.commit next leased r.write with
        | (.ok leased, repo) =>
          ((answerLease sha256 deviceId leased r.images r.preparation).map some, repo)
        | (.error error, repo) => (.error (.jobs error), repo) := by
  obtain ⟨snapshot, readings, record, hdevice, hsnapshot, hdisks, hreadings, hrecord, hjob⟩ := h
  have hclaimable : claimable digest sha256 request r = .ok (some (deviceId, _)) :=
    claimable_eq_ok_some_iff.2 ⟨snapshot, readings, hdevice, hsnapshot, hdisks, hreadings, rfl⟩
  obtain ⟨next, hreplaces, hlease⟩ := JobRepository.leaseForDeviceIf_of_find?_eq_some r.write hjob
  refine ⟨_, next, rfl, hreplaces, ?_⟩
  simp only [claimJob, hclaimable, DeviceRegistry.withCurrent, hrecord, hlease]
  cases r.write <;> rfl

/-- The metadata of a prepared GHO image is complete. -/
theorem exists_agentGhoDeployment {readings : ImageReadings} {id : Uuid} {sourcePartition : UInt32}
    {prepared : PreparedGhoDeployment}
    (h : ImageLibrary.prepareGhoPartitionDeployment sha256 readings id sourcePartition =
      .ok prepared) : ∃ metadata, agentGhoDeployment prepared.capability = .ok metadata := by
  obtain ⟨-, ⟨artifact, expected, selected, -, -, -, hpartition, hsize, hdigest⟩, -⟩ :=
    ImageLibrary.of_prepareGhoPartitionDeployment h
  rw [agentGhoDeployment, hpartition, hsize, hdigest]
  exact ⟨_, rfl⟩

theorem exists_downloadOf_iff {image : ImageArtifact} {preparation : ImageReadings} :
    (∃ download, downloadOf sha256 job image preparation = .ok download) ↔
      (job.operation = .deployGho → ∃ prepared, ImageLibrary.prepareGhoPartitionDeployment sha256
        preparation job.imageId job.options.imageIndex = .ok prepared) ∧
      (job.operation ≠ .deployGho → ∃ checksum, image.sha256 = some checksum) := by
  unfold downloadOf
  split_ifs with hgho
  · simp only [exists_bind_eq_ok_iff, mapError_eq_ok_iff, hgho, ne_eq, not_true_eq_false,
      IsEmpty.forall_iff, and_true, forall_const]
    refine exists_congr fun prepared => and_iff_left_of_imp fun hprepared => ?_
    obtain ⟨metadata, hmetadata⟩ := exists_agentGhoDeployment hprepared
    exact ⟨metadata, hmetadata, _, rfl⟩
  · simp only [exists_bind_eq_ok_iff, elim_eq_ok_iff, hgho, ne_eq, not_false_eq_true,
      IsEmpty.forall_iff, true_and, forall_const]
    exact exists_congr fun checksum => and_iff_left ⟨_, rfl⟩

/-- The answer for a claimed job. -/
theorem exists_answerLease_iff {duration : Duration} {now : Instant} {leaseId : Uuid}
    (hsole : job.hasSoleTarget deviceId = true) :
    (∃ lease, answerLease sha256 deviceId (job.claimed duration now leaseId) r.images
      r.preparation = .ok lease) ↔ r.Answers sha256 job := by
  obtain ⟨target, htargets, -⟩ := DeploymentJob.exists_target_of_hasSoleTarget hsole
  simp only [answerLease, exists_bind_eq_ok_iff, elim_eq_ok_iff, DeploymentJob.claimed, htargets,
    List.head?_cons, Option.some.injEq, exists_eq_left']
  refine exists_congr fun image => and_congr_right fun _ => ?_
  rw [← exists_downloadOf_iff]
  exact exists_congr fun download => and_iff_left ⟨_, rfl⟩

/-- A lease is the answer for a claimed job. -/
theorem selects_of_claimJob {lease : AgentJobLease}
    (h : (claimJob digest sha256 request r).1 = .ok (some lease)) :
    ∃ deviceId job, r.Selects digest sha256 request deviceId job ∧
      answerLease sha256 deviceId (job.claimed (minutes jobLeaseMinutes) r.leasedAt r.leaseId)
        r.images r.preparation = .ok lease := by
  by_cases hselects : ∃ deviceId job, r.Selects digest sha256 request deviceId job
  · obtain ⟨deviceId, job, hselects⟩ := hselects
    obtain ⟨leased, next, rfl, -, hclaim⟩ := claimJob_of_selects hselects
    refine ⟨deviceId, job, hselects, ?_⟩
    cases hwrite : r.write with
    | written =>
      rw [hclaim, hwrite, JobRepository.commit, JobRepository.persist, map_eq_ok_iff] at h
      obtain ⟨found, hfound, hlease⟩ := h
      rw [hfound, Option.some.inj hlease]
    | refused source | interrupted source =>
      rw [hclaim, hwrite, JobRepository.commit, JobRepository.persist] at h
      cases h
  · exact absurd h ((claimJob_of_not_selects fun deviceId job hjob =>
      hselects ⟨deviceId, job, hjob⟩).2 lease)

/-- What an answer contains. -/
theorem of_answerLease {lease : AgentJobLease} {images : ImageLibrary} {preparation : ImageReadings}
    (h : answerLease sha256 deviceId job images preparation = .ok lease) :
    lease.jobId = job.id ∧ lease.operation = job.operation ∧
      lease.partitionPlan = job.options.partitionPlan ∧ job.targets.head? = some lease.target ∧
      ∃ image, images.get job.imageId = some image ∧ lease.image.id = image.id ∧
        downloadOf sha256 job image preparation =
          .ok (lease.gho, lease.image.sizeBytes, lease.image.sha256) := by
  simp only [answerLease, bind_eq_ok_iff, elim_eq_ok_iff, pure_eq_ok_iff] at h
  obtain ⟨target, htarget, image, himage, leaseId, -, expiresAt, -, download, hdownload, rfl⟩ := h
  exact ⟨rfl, rfl, rfl, htarget, image, himage, rfl, hdownload⟩

/-- A job that a call selects is claimable, so its claim is another job. -/
theorem ClaimReadings.Selects.claimable (h : r.Selects digest sha256 request deviceId job) :
    job.isClaimable deviceId r.leasedAt = true := by
  obtain ⟨snapshot, readings, record, -, -, -, -, -, hjob⟩ := h
  have hfound := List.find?_some hjob
  exact (Bool.and_eq_true_iff.1 hfound).1

/-- An error leaves the repository unchanged exactly when, for the job that the call comes to lease,
a lease that is written can be answered, and a write that stops in the middle finds the manifest
truncated already. -/
theorem claimJob_error_unchanged_iff :
    (∀ error, (claimJob digest sha256 request r).1 = .error error →
      (claimJob digest sha256 request r).2 = r.repo) ↔
    ∀ deviceId job, r.Selects digest sha256 request deviceId job →
      (r.write = .written → r.Answers sha256 job) ∧
        ∀ source, r.write = .interrupted source → r.repo.manifestFile = .truncated := by
  constructor
  · intro hunchanged deviceId job hselects
    have hclaimable := hselects.claimable
    obtain ⟨leased, next, rfl, hreplaces, hclaim⟩ := claimJob_of_selects hselects
    constructor
    · intro hwrite
      rw [hwrite, JobRepository.commit, JobRepository.persist] at hclaim
      by_contra hanswers
      rw [← exists_answerLease_iff (DeploymentJob.isClaimable_iff.1 hclaimable).2.2] at hanswers
      cases hanswer : answerLease sha256 deviceId
          (job.claimed (minutes jobLeaseMinutes) r.leasedAt r.leaseId) r.images r.preparation with
      | ok lease => exact hanswers ⟨lease, hanswer⟩
      | error error =>
        simp only [hanswer, Except.map] at hclaim
        have hrepo := hunchanged error (by rw [hclaim])
        rw [hclaim] at hrepo
        -- the list with the claimed job is not the list without it
        have hnext : next = r.repo.jobs := congrArg JobRepository.jobs hrepo
        rw [hnext] at hreplaces
        exact DeploymentJob.ne_claimed hclaimable (by decide) hreplaces.eq_of_self
    · intro source hwrite
      rw [hwrite, JobRepository.commit, JobRepository.persist] at hclaim
      have hrepo := hunchanged (.jobs (.write r.repo.manifestPath source)) (by rw [hclaim])
      rw [hclaim] at hrepo
      exact (congrArg JobRepository.manifestFile hrepo).symm
  · intro h error herror
    by_cases hselects : ∃ deviceId job, r.Selects digest sha256 request deviceId job
    · obtain ⟨deviceId, job, hselects⟩ := hselects
      obtain ⟨hanswers, htruncated⟩ := h deviceId job hselects
      obtain ⟨leased, next, rfl, -, hclaim⟩ := claimJob_of_selects hselects
      cases hwrite : r.write with
      | written =>
        have hsole := (DeploymentJob.isClaimable_iff.1 hselects.claimable).2.2
        have hanswer : ∃ lease, answerLease sha256 deviceId
            (job.claimed (minutes jobLeaseMinutes) r.leasedAt r.leaseId) r.images r.preparation =
              .ok lease := (exists_answerLease_iff hsole).2 (hanswers hwrite)
        obtain ⟨lease, hlease⟩ := hanswer
        rw [hclaim, hwrite, JobRepository.commit, JobRepository.persist] at herror
        simp only [hlease, Except.map, reduceCtorEq] at herror
      | refused source =>
        rw [hclaim, hwrite]
        rfl
      | interrupted source =>
        rw [hclaim, hwrite, JobRepository.commit, JobRepository.persist,
          ← htruncated source hwrite]
    · exact (claimJob_of_not_selects fun deviceId job hjob => hselects ⟨deviceId, job, hjob⟩).1

end Atomicity

/-! ### A lease that no Agent receives -/

/-- What the inspection of the image finds. -/
def labCapability : GhoImageCapability where
  deployable := true
  compression := some "z0"
  expandedSizeBytes := some 11
  expandedSha256 := some "31d8233ca5e09344616973de6908c8eb0d6b6792d6aac6950e44b92ad796fb52"
  partitionCount := some 1
  sourcePartition := some 1
  partitions :=
    [{ sourcePartition := 1, fileSystem := "ntfs", expandedSizeBytes := 11,
       expandedSha256 := "31d8233ca5e09344616973de6908c8eb0d6b6792d6aac6950e44b92ad796fb52" }]
  parserVersion := ghoParserVersion
  blockedReason := none

/-- The image in the catalog. -/
def labArtifact : ImageArtifact where
  id := 9
  name := "Laboratory"
  format := .gho
  sourcePath := "/images/objects/4c1d7a0e-6a55-4f5b-9f0e-2f6f1f3c8a11/lab.gho"
  sizeBytes := 1077
  sha256 := some "9e484614c096157a32b3a4b89020d59a74b8d4361a4bea4580b6606bb9100419"
  spans := []
  verified := true
  ghoCapability := some labCapability
  installerCapability := none
  createdAt := 0

/-- The library of the host of the example. -/
def labLibrary : ImageLibrary where
  manifestPath := "images.json"
  images := [labArtifact]
  manifestFile := .complete { schemaVersion := imageManifestSchemaVersion, images := [labArtifact] }

/-- The files of the image. -/
def labFiles : DeploymentFiles where
  content path := if path = labArtifact.sourcePath then some labGhoImage else none
  resolveManagedFile _ path := .ok path
  validateWimWithDism _ _ := .ok ()
  ghoObjectFiles artifact := .ok [artifact.sourcePath]
  discoverGhostSpans _ _ := .ok []
  ghoFile _ path _ := .ok ("lab.gho", path)
  inspectNativeGho _ _ := labCapability

/-- The image is as it was imported. -/
def labReadings : ImageReadings where
  library := labLibrary
  files := labFiles
  lookup := labLibrary
  inspected := labFiles
  streamed := labFiles

/-- The machine of `windowsRequest`. -/
def claimingRecord : DeviceRecord where
  device :=
    { (labInventory "02:00:00:00:00:07").toDevice 7 "192.0.2.27" 0 with
      disks :=
        [{ id := "\\\\.\\PHYSICALDRIVE0", model := "NVMe", serial := some "S-1",
           sizeBytes := 256000000000, isSystem := false }] }
  agentVersion := "0.1.0"
  firstSeenAt := 0
  tokenDigest := deviceDigest (generateSecret "easydeploymesh_device" 11 12)

/-- The registry of the host of the example. -/
def claimingRegistry : DeviceRegistry where
  manifestPath := "devices.json"
  devices := [claimingRecord]
  manifestFile :=
    .complete { schemaVersion := deviceManifestSchemaVersion, devices := [claimingRecord] }

/-- The request of a deployment of the image to the machine. -/
def ghoRequest : CreateDeploymentJob := { windowsRequest with operation := .deployGho }

/-- The job waits for the machine. -/
def waitingRepository : JobRepository :=
  (JobRepository.enqueue { manifestPath := "jobs.json", jobs := [], manifestFile := .absent }
    ghoRequest 0 1 .written).2

/-- The machine asks for a job. -/
def labClaim : ClaimRequest where
  deviceId := some 7
  authorization := some ("Bearer " ++ generateSecret "easydeploymesh_device" 11 12)

/-- The image is valid when the candidates are validated, and its file cannot be opened any more
when the answer is built. -/
def lostReadings : ClaimReadings where
  authenticated := claimingRegistry
  listed := claimingRegistry
  listedAt := minutes 1
  now := minutes 1
  jobs := waitingRepository
  validation := .ok fun _ => labReadings
  current := claimingRegistry
  repo := waitingRepository
  leasedAt := minutes 1
  leaseId := 2
  write := .written
  images := labLibrary
  preparation := { labReadings with files := { labFiles with content := fun _ => none } }

/-- The Agent receives an error, and its job runs under a lease that it does not know. -/
theorem claimJob_loses_lease :
    (HttpResponse.ofResult 200 (claimJob deviceDigest labSha256 labClaim lostReadings).1).status =
      422 ∧
      lostReadings.repo.jobs.map (fun job => (job.state, job.leaseId)) = [(.waiting, none)] ∧
      (claimJob deviceDigest labSha256 labClaim lostReadings).2.jobs.map
        (fun job => (job.state, job.leaseId)) = [(.running, some 2)] ∧
      ¬ ∀ error, (claimJob deviceDigest labSha256 labClaim lostReadings).1 = .error error →
        (claimJob deviceDigest labSha256 labClaim lostReadings).2 = lostReadings.repo := by
  have hstatus : (HttpResponse.ofResult 200
      (claimJob deviceDigest labSha256 labClaim lostReadings).1).status = 422 := by decide +kernel
  have hwaiting : lostReadings.repo.jobs.map (fun job => (job.state, job.leaseId)) =
      [(.waiting, none)] := by decide +kernel
  have hrunning : (claimJob deviceDigest labSha256 labClaim lostReadings).2.jobs.map
      (fun job => (job.state, job.leaseId)) = [(.running, some 2)] := by decide +kernel
  refine ⟨hstatus, hwaiting, hrunning, fun hunchanged => ?_⟩
  cases hresult : (claimJob deviceDigest labSha256 labClaim lostReadings).1 with
  | ok lease =>
    rw [hresult] at hstatus
    exact absurd hstatus (by simp [HttpResponse.ofResult])
  | error error =>
    rw [hunchanged error hresult, hwaiting] at hrunning
    exact absurd hrunning (by decide)

end EasyDeployMesh
