import EasyDeployMesh.Core.Job
import EasyDeployMesh.Foundations.Focus
import EasyDeployMesh.Service.Manifest

/-!
# The job repository

`crates/service/src/job_repository.rs`: the list of jobs behind a lock and the manifest file that
holds it. Every call runs under the lock, so a call is one function from the repository to a result
and the next repository. A mutating call clones the jobs, edits the clone, writes the manifest and
only then installs the clone; the clock readings, the minted UUID and the outcome of the write are
arguments of the call.

## Main definitions

* `EasyDeployMesh.JobRepositoryError`, `EasyDeployMesh.JobManifest`, `EasyDeployMesh.JobRepository`.
* `EasyDeployMesh.JobRepository.commit`, `EasyDeployMesh.JobRepository.editJob`: the common shape of
  the mutating calls.
* The calls: `create`, `enqueue`, `transition`, `remove`, `leaseForDeviceIf`,
  `markInstallerBooting`, `leaseInstallerJob`, `reportInstallerProgress`, `completeInstaller`,
  `reportProgress`, `authorizedLease`, `complete`, `renewControlLease` and the queries `list`,
  `referencesImage`, `referencesDevice`.
-/

namespace EasyDeployMesh

open Foundations

/-- The errors of the repository. -/
inductive JobRepositoryError
  | missingName
  | missingTargets
  | requiresSingleTarget
  | targetAlreadyHasJob (deviceId : Uuid)
  | invalidImageIndex
  | incompleteDiskFingerprint (diskId : String)
  | invalidPartitionPlan (source : PartitionPlanError)
  | notFound (id : Uuid)
  | notTerminal
  | invalidLease
  | wrongDevice (deviceId : Uuid)
  | invalidProgress
  | wrongExecutionProtocol
  | missingLinuxInstallOptions
  | unexpectedLinuxInstallOptions
  | missingLinuxTargetSerial
  | invalidLinuxInstallOptions (source : LinuxInstallOptionsError)
  | installerHandoffUnavailable
  | installerControlUnavailable
  | installerProgressRegression
  | invalidTransition (source : JobTransitionError)
  | write (path source : String)
  | invalidManifest
  /-- The call panics at an `expect` with this message. -/
  | panicked (message : String)
  deriving DecidableEq

/-! ### The manifest file -/

/-- The version of the manifest that this host writes. -/
def manifestSchemaVersion : UInt32 := 1

/-- The contents of the manifest of the repository. -/
structure JobManifest where
  schemaVersion : UInt32
  jobs : List DeploymentJob
  deriving DecidableEq

/-- The jobs under the lock, and the file at `manifestPath`. -/
structure JobRepository where
  manifestPath : String
  jobs : List DeploymentJob
  manifestFile : ManifestFile JobManifest
  deriving DecidableEq

/-- Whether an installer stage comes before another one. -/
def installerStageRank : DeploymentStage → ℕ
  | .preflight => 0
  | .bootingInstaller => 1
  | .downloadingImage => 2
  | .validatingTarget => 3
  | .partitioning => 4
  | .applyingImage | .installingSystem => 5
  | .configuringBoot => 6
  | .finalizing => 7
  | .rebooting => 8
  | .awaitingFirstBoot => 9

/-- A reported message: trimmed, cut to `limit` characters, and dropped when nothing remains. -/
def boundedMessage (limit : ℕ) (message : Option String) : Option String :=
  (message.map fun value => Text.takeChars limit (Text.trim value)).filter fun value =>
    !value.isEmpty

/-- The later of the recorded expiry and the renewed one. -/
def extendExpiry (renewedUntil : Instant) (current : Option Instant) : Option Instant :=
  some (match current with
    | none => renewedUntil
    | some current => max current renewedUntil)

/-- The first check that a request fails. -/
def validateRequest (request : CreateDeploymentJob) : Except JobRepositoryError Unit := do
  if (Text.trim request.name).isEmpty then .error .missingName
  if request.targets.isEmpty then .error .missingTargets
  if request.operation = .installLinux then
    match request.options.linuxInstall with
    | none => .error .missingLinuxInstallOptions
    | some options => options.validate.mapError .invalidLinuxInstallOptions
  else
    if request.options.linuxInstall.isSome then .error .unexpectedLinuxInstallOptions
    if request.options.imageIndex = 0 then .error .invalidImageIndex
    request.options.partitionPlan.validate.mapError .invalidPartitionPlan
  match request.targets.find? (fun target => (Text.trim target.targetDiskId).isEmpty ||
      (Text.trim target.targetDiskModel).isEmpty || target.targetDiskSizeBytes == 0) with
  | some target => .error (.incompleteDiskFingerprint target.targetDiskId)
  | none => .ok ()
  if request.operation = .installLinux ∧ request.targets.any (fun target =>
      target.targetDiskSerial.all fun serial => (Text.trim serial).isEmpty) then
    .error .missingLinuxTargetSerial
  else .ok ()

namespace JobRepository

/-- `open`: the repository over the content of the manifest file. -/
def openManifest (manifestPath : String) (file : ManifestFile JobManifest) :
    Except JobRepositoryError JobRepository :=
  match file with
  | .absent => .ok { manifestPath, jobs := [], manifestFile := file }
  | .complete manifest => .ok { manifestPath, jobs := manifest.jobs, manifestFile := file }
  | .truncated => .error .invalidManifest

variable (repo : JobRepository)

/-! ### Queries -/

/-- The jobs, the most recently created first. -/
def list : List DeploymentJob :=
  repo.jobs.insertionSort fun a b => b.createdAt ≤ a.createdAt

/-- Some job, whatever its state, names the image. -/
def referencesImage (imageId : Uuid) : Bool :=
  repo.jobs.any fun job => job.imageId == imageId

/-- Some job that is not yet over targets the device. -/
def referencesDevice (deviceId : Uuid) : Bool :=
  repo.jobs.any fun job => !job.state.isTerminal && job.targetsDevice deviceId

/-! ### Persisting -/

/-- Writes the jobs to the manifest file. -/
def persist (jobs : List DeploymentJob) (write : WriteOutcome) :
    Except JobRepositoryError Unit × ManifestFile JobManifest :=
  match write with
  | .written => (.ok (), .complete { schemaVersion := manifestSchemaVersion, jobs })
  | .refused source => (.error (.write repo.manifestPath source), repo.manifestFile)
  | .interrupted source => (.error (.write repo.manifestPath source), .truncated)

/-- Persists the next jobs and, when that succeeds, installs them and returns `value`. -/
def commit {α : Type} (nextJobs : List DeploymentJob) (value : α) (write : WriteOutcome) :
    Except JobRepositoryError α × JobRepository :=
  match repo.persist nextJobs write with
  | (.ok (), file) => (.ok value, { repo with jobs := nextJobs, manifestFile := file })
  | (.error error, file) => (.error error, { repo with manifestFile := file })

/-- Edits the job `id` in a clone of the jobs and commits the clone. -/
def editJob (id : Uuid) (edit : DeploymentJob → Except JobRepositoryError DeploymentJob)
    (write : WriteOutcome) : Except JobRepositoryError DeploymentJob × JobRepository :=
  match focus (fun job => job.id == id) repo.jobs with
  | none => (.error (.notFound id), repo)
  | some (job, put) =>
    match edit job with
    | .error error => (.error error, repo)
    | .ok updated => repo.commit (put updated) updated write

/-! ### Creating and removing jobs -/

/-- A new job in the given state, unless its device has a job already. -/
def insert (request : CreateDeploymentJob) (initialState : JobState) (now : Instant) (id : Uuid)
    (write : WriteOutcome) : Except JobRepositoryError DeploymentJob × JobRepository :=
  match validateRequest request with
  | .error error => (.error error, repo)
  | .ok () =>
    match request.targets with
    | [target] =>
      let job : DeploymentJob :=
        { id, name := Text.trim request.name, operation := request.operation,
          imageId := request.imageId, targets := request.targets, options := request.options,
          state := initialState, stage := none, progressPercent := 0, statusMessage := none,
          errorMessage := none, leaseId := none, leaseExpiresAt := none, createdAt := now,
          updatedAt := now }
      if repo.referencesDevice target.deviceId then
        (.error (.targetAlreadyHasJob target.deviceId), repo)
      else repo.commit (repo.jobs ++ [job]) job write
    | _ => (.error .requiresSingleTarget, repo)

/-- A new job that waits for the operator. -/
def create (request : CreateDeploymentJob) (now : Instant) (id : Uuid) (write : WriteOutcome) :
    Except JobRepositoryError DeploymentJob × JobRepository :=
  repo.insert request .draft now id write

/-- A new job that waits to be claimed. -/
def enqueue (request : CreateDeploymentJob) (now : Instant) (id : Uuid) (write : WriteOutcome) :
    Except JobRepositoryError DeploymentJob × JobRepository :=
  repo.insert request .waiting now id write

/-- The states in which a job may be deleted. -/
def isDeletable : JobState → Bool
  | .succeeded | .failed | .cancelled => true
  | _ => false

/-- The repository without a job; a job that may go on is kept. -/
def remove (id : Uuid) (write : WriteOutcome) : Except JobRepositoryError Bool × JobRepository :=
  match repo.jobs.find? (fun job => job.id == id) with
  | none => (.ok false, repo)
  | some job =>
    if !isDeletable job.state then (.error .notTerminal, repo)
    else repo.commit (repo.jobs.filter fun job => job.id != id) true write

end JobRepository

/-! ### The edits of one job -/

namespace DeploymentJob

/-- The operator may not start, pause, cancel or complete a Linux installation; once it runs, the
operator may only declare it failed. -/
def installerControls (job : DeploymentJob) (nextState : JobState) : Bool :=
  job.operation == .installLinux &&
    ((job.state == .waiting && nextState == .running) ||
      ((job.state == .running || job.state == .paused) && nextState != .failed))

/-- The edit of `transition`. -/
def applyTransition (nextState : JobState) (now : Instant) (job : DeploymentJob) :
    Except JobRepositoryError DeploymentJob :=
  if job.installerControls nextState then .error .installerControlUnavailable
  else match job.state.transition nextState with
    | .error error => .error (.invalidTransition error)
    | .ok state =>
      if nextState = .succeeded then
        .ok { job with
          state, updatedAt := now, progressPercent := 100, statusMessage := none,
          errorMessage := none }
      else .ok { job with state, updatedAt := now }

/-- The jobs that `lease_for_device_if` may hand to an Agent: queued ones, and running ones whose
lease has expired. -/
def isClaimable (job : DeploymentJob) (deviceId : Uuid) (now : Instant) : Bool :=
  job.operation != .installLinux &&
    (job.state == .waiting ||
      (job.state == .running && job.leaseExpiresAt.any fun expiresAt => expiresAt < now)) &&
    job.hasSoleTarget deviceId

/-- The edit of `lease_for_device_if`. -/
def claim (duration : Duration) (now : Instant) (leaseId : Uuid) (job : DeploymentJob) :
    Except JobRepositoryError DeploymentJob :=
  let started : Except JobRepositoryError JobState :=
    if job.state = .waiting then (job.state.transition .running).mapError .invalidTransition
    else .ok job.state
  started.map fun state =>
    { job with
      state, stage := some .preflight, progressPercent := 0,
      statusMessage := some "Agent claimed deployment task", errorMessage := none,
      leaseId := some leaseId, leaseExpiresAt := some (now + duration), updatedAt := now }

/-- What both installer calls on a waiting job require of it. -/
def awaitsInstaller (job : DeploymentJob) (deviceId imageId : Uuid) :
    Except JobRepositoryError Unit :=
  if job.operation ≠ .installLinux then .error .wrongExecutionProtocol
  else if job.state ≠ .waiting ∨ job.imageId ≠ imageId ∨ !job.hasSoleTarget deviceId then
    .error .installerHandoffUnavailable
  else .ok ()

/-- The edit of `mark_installer_booting`. -/
def markBooting (deviceId imageId : Uuid) (now : Instant) (job : DeploymentJob) :
    Except JobRepositoryError DeploymentJob :=
  (job.awaitsInstaller deviceId imageId).map fun () =>
    { job with
      stage := some .bootingInstaller,
      statusMessage := some "Linux installer is booting; destructive work is not authorized",
      errorMessage := none, updatedAt := now }

/-- The edit of `lease_installer_job`. -/
def handOff (deviceId imageId : Uuid) (duration : Duration) (now : Instant) (leaseId : Uuid)
    (job : DeploymentJob) : Except JobRepositoryError DeploymentJob :=
  match job.awaitsInstaller deviceId imageId with
  | .error error => .error error
  | .ok () => ((job.state.transition .running).mapError .invalidTransition).map fun state =>
    { job with
      state, stage := some .validatingTarget, progressPercent := 1,
      statusMessage := some "Linux installer target guard authorized", errorMessage := none,
      leaseId := some leaseId, leaseExpiresAt := some (now + duration), updatedAt := now }

/-- The checks of `authorized_lease` and `update_leased_job`: the lease of an Agent job. -/
def checkAgentLease (job : DeploymentJob) (deviceId leaseId : Uuid) (now : Instant) :
    Except JobRepositoryError Unit :=
  if job.operation = .installLinux then .error .wrongExecutionProtocol
  else if !job.targetsDevice deviceId then .error (.wrongDevice deviceId)
  else if !job.state.isActive ∨ job.leaseId ≠ some leaseId ∨ !job.leaseCurrentAt now then
    .error .invalidLease
  else .ok ()

/-- The checks of `update_installer_job`: the lease of a Linux installation. -/
def checkInstallerLease (job : DeploymentJob) (deviceId leaseId : Uuid) (now : Instant) :
    Except JobRepositoryError Unit :=
  if job.operation ≠ .installLinux then .error .wrongExecutionProtocol
  else if !job.hasSoleTarget deviceId then .error (.wrongDevice deviceId)
  else if job.state ≠ .running ∨ job.leaseId ≠ some leaseId ∨ !job.leaseCurrentAt now then
    .error .invalidLease
  else .ok ()

/-- The closure of `report_installer_progress`. -/
def advanceInstaller (renewedUntil : Instant) (stage : DeploymentStage) (progressPercent : UInt8)
    (message : Option String) (job : DeploymentJob) : Except JobRepositoryError DeploymentJob :=
  if installerStageRank stage < (job.stage.map installerStageRank).getD 0 ∨
      progressPercent < job.progressPercent then
    .error .installerProgressRegression
  else .ok { job with
    stage := some stage, progressPercent, statusMessage := boundedMessage 512 message,
    leaseExpiresAt := extendExpiry renewedUntil job.leaseExpiresAt }

/-- The closure of `complete_installer`. -/
def finishInstaller (succeeded : Bool) (errorMessage : Option String) (job : DeploymentJob) :
    Except JobRepositoryError DeploymentJob :=
  ((job.state.transition (if succeeded then .succeeded else .failed)).mapError
      .invalidTransition).map fun state =>
    if succeeded then
      { job with
        state, stage := some .finalizing, progressPercent := 100,
        statusMessage := some "Linux installation completed on first boot", errorMessage := none,
        leaseId := none, leaseExpiresAt := none }
    else
      { job with
        state, statusMessage := none,
        errorMessage := (boundedMessage 2048 errorMessage).or
          (some "Linux installer reported a failure"),
        leaseId := none, leaseExpiresAt := none }

/-- The closure of `report_progress`. -/
def advance (renewedUntil : Instant) (progress : AgentJobProgress) (job : DeploymentJob) :
    Except JobRepositoryError DeploymentJob :=
  .ok { job with
    stage := some progress.stage, progressPercent := progress.progressPercent,
    statusMessage := boundedMessage 512 progress.message,
    leaseExpiresAt := extendExpiry renewedUntil job.leaseExpiresAt }

/-- The closure of `complete`. -/
def finish (succeeded : Bool) (errorMessage : Option String) (job : DeploymentJob) :
    Except JobRepositoryError DeploymentJob :=
  match job.state.transition (if succeeded then .succeeded else .failed) with
  | .error _ => .error (.panicked "leased jobs must be running")
  | .ok state =>
    if succeeded then
      .ok { job with
        state, progressPercent := 100, statusMessage := some "Deployment completed",
        errorMessage := none, leaseId := none, leaseExpiresAt := none }
    else
      .ok { job with
        state, statusMessage := none,
        errorMessage := (boundedMessage 2048 errorMessage).or
          (some "Agent reported deployment failure"),
        leaseId := none, leaseExpiresAt := none }

/-- The checks of `renew_control_lease`; the expiry of the lease is not among them. -/
def checkControlLease (job : DeploymentJob) (deviceId leaseId : Uuid) :
    Except JobRepositoryError Unit :=
  if job.operation = .installLinux then .error .wrongExecutionProtocol
  else if !job.targetsDevice deviceId then .error (.wrongDevice deviceId)
  else if !job.state.isActive ∨ job.leaseId ≠ some leaseId then .error .invalidLease
  else .ok ()

/-- The recorded expiry lies so far ahead that a control poll leaves it as it is. -/
def leaseIsFresh (job : DeploymentJob) (duration : Duration) (now : Instant) : Bool :=
  job.leaseExpiresAt.any fun expiresAt => now + duration / 2 ≤ expiresAt

/-! ### When the checks pass -/

variable {job : DeploymentJob} {deviceId imageId leaseId : Uuid} {now : Instant}

theorem checkAgentLease_eq_ok_iff : job.checkAgentLease deviceId leaseId now = .ok () ↔
    job.operation ≠ .installLinux ∧ job.targetsDevice deviceId = true ∧
      job.state.isActive = true ∧ job.leaseId = some leaseId ∧ job.leaseCurrentAt now = true := by
  unfold checkAgentLease
  split_ifs <;> grind

theorem checkInstallerLease_eq_ok_iff : job.checkInstallerLease deviceId leaseId now = .ok () ↔
    job.operation = .installLinux ∧ job.hasSoleTarget deviceId = true ∧
      job.state = .running ∧ job.leaseId = some leaseId ∧ job.leaseCurrentAt now = true := by
  unfold checkInstallerLease
  split_ifs <;> grind

theorem checkControlLease_eq_ok_iff : job.checkControlLease deviceId leaseId = .ok () ↔
    job.operation ≠ .installLinux ∧ job.targetsDevice deviceId = true ∧
      job.state.isActive = true ∧ job.leaseId = some leaseId := by
  unfold checkControlLease
  split_ifs <;> grind

theorem awaitsInstaller_eq_ok_iff : job.awaitsInstaller deviceId imageId = .ok () ↔
    job.operation = .installLinux ∧ job.state = .waiting ∧ job.imageId = imageId ∧
      job.hasSoleTarget deviceId = true := by
  unfold awaitsInstaller
  split_ifs <;> grind

theorem isClaimable_iff : job.isClaimable deviceId now = true ↔
    job.operation ≠ .installLinux ∧
      (job.state = .waiting ∨ job.state = .running ∧
        ∃ expiresAt, job.leaseExpiresAt = some expiresAt ∧ expiresAt < now) ∧
      job.hasSoleTarget deviceId = true := by
  simp [isClaimable, and_assoc, Option.any_eq_true]

theorem leaseCurrentAt_iff :
    job.leaseCurrentAt now = true ↔ ∃ expiresAt, job.leaseExpiresAt = some expiresAt ∧
      now ≤ expiresAt := by
  simp [leaseCurrentAt, Option.any_eq_true]

/-- A Linux job is refused by every check of an Agent call. -/
theorem checkAgentLease_of_installLinux (h : job.operation = .installLinux) :
    job.checkAgentLease deviceId leaseId now = .error .wrongExecutionProtocol := by
  simp [checkAgentLease, h]

theorem checkControlLease_of_installLinux (h : job.operation = .installLinux) :
    job.checkControlLease deviceId leaseId = .error .wrongExecutionProtocol := by
  simp [checkControlLease, h]

end DeploymentJob

/-! ### Operator, Agent and installer calls -/

namespace JobRepository

variable (repo : JobRepository)

/-- A job moves on by command of the operator. -/
def transition (id : Uuid) (nextState : JobState) (now : Instant) (write : WriteOutcome) :
    Except JobRepositoryError DeploymentJob × JobRepository :=
  repo.editJob id (DeploymentJob.applyTransition nextState now) write

/-- The first claimable job of a device that passes the filter gets a lease. -/
def leaseForDeviceIf (deviceId : Uuid) (duration : Duration) (isEligible : DeploymentJob → Bool)
    (now : Instant) (leaseId : Uuid) (write : WriteOutcome) :
    Except JobRepositoryError (Option DeploymentJob) × JobRepository :=
  match focus (fun job => job.isClaimable deviceId now && isEligible job) repo.jobs with
  | none => (.ok none, repo)
  | some (job, put) =>
    match job.claim duration now leaseId with
    | .error error => (.error error, repo)
    | .ok leased => repo.commit (put leased) (some leased) write

/-- Records that a waiting Linux job has entered its installer boot attempt without authorizing any
destructive work. -/
def markInstallerBooting (jobId deviceId imageId : Uuid) (now : Instant) (write : WriteOutcome) :
    Except JobRepositoryError DeploymentJob × JobRepository :=
  repo.editJob jobId (DeploymentJob.markBooting deviceId imageId now) write

/-- Atomically performs the one-way Linux installer handoff. -/
def leaseInstallerJob (jobId deviceId imageId : Uuid) (duration : Duration) (now : Instant)
    (leaseId : Uuid) (write : WriteOutcome) :
    Except JobRepositoryError DeploymentJob × JobRepository :=
  repo.editJob jobId (DeploymentJob.handOff deviceId imageId duration now leaseId) write

/-- An update under the lease of an installer. -/
def updateInstallerJob (jobId deviceId leaseId : Uuid)
    (update : DeploymentJob → Except JobRepositoryError DeploymentJob) (now later : Instant)
    (write : WriteOutcome) : Except JobRepositoryError DeploymentJob × JobRepository :=
  repo.editJob jobId (fun job => do
    job.checkInstallerLease deviceId leaseId now
    let updated ← update job
    pure { updated with updatedAt := later }) write

/-- `started` is the reading of the clock before the lock is taken. -/
def reportInstallerProgress (jobId deviceId leaseId : Uuid) (leaseDuration : Duration)
    (stage : DeploymentStage) (progressPercent : UInt8) (message : Option String)
    (started now later : Instant) (write : WriteOutcome) :
    Except JobRepositoryError DeploymentJob × JobRepository :=
  if progressPercent > 99 then (.error .invalidProgress, repo)
  else repo.updateInstallerJob jobId deviceId leaseId
    (DeploymentJob.advanceInstaller (started + leaseDuration) stage progressPercent message)
    now later write

/-- The result of an installer, under its lease. -/
def completeInstaller (jobId deviceId leaseId : Uuid) (succeeded : Bool)
    (errorMessage : Option String) (now later : Instant) (write : WriteOutcome) :
    Except JobRepositoryError DeploymentJob × JobRepository :=
  repo.updateInstallerJob jobId deviceId leaseId
    (DeploymentJob.finishInstaller succeeded errorMessage) now later write

/-- An update under the lease of an Agent. -/
def updateLeasedJob (jobId deviceId leaseId : Uuid)
    (update : DeploymentJob → Except JobRepositoryError DeploymentJob) (now later : Instant)
    (write : WriteOutcome) : Except JobRepositoryError DeploymentJob × JobRepository :=
  repo.editJob jobId (fun job => do
    job.checkAgentLease deviceId leaseId now
    let updated ← update job
    pure { updated with updatedAt := later }) write

/-- `started` is the reading of the clock before the lock is taken. -/
def reportProgress (jobId deviceId : Uuid) (leaseDuration : Duration) (progress : AgentJobProgress)
    (started now later : Instant) (write : WriteOutcome) :
    Except JobRepositoryError DeploymentJob × JobRepository :=
  if progress.progressPercent > 100 then (.error .invalidProgress, repo)
  else repo.updateLeasedJob jobId deviceId progress.leaseId
    (DeploymentJob.advance (started + leaseDuration) progress) now later write

/-- The job, if the lease of an Agent is still good. -/
def authorizedLease (jobId deviceId leaseId : Uuid) (now : Instant) :
    Except JobRepositoryError DeploymentJob :=
  match repo.jobs.find? (fun job => job.id == jobId) with
  | none => .error (.notFound jobId)
  | some job => (job.checkAgentLease deviceId leaseId now).map fun () => job

/-- The result of an Agent, under its lease. -/
def complete (jobId deviceId leaseId : Uuid) (succeeded : Bool) (errorMessage : Option String)
    (now later : Instant) (write : WriteOutcome) :
    Except JobRepositoryError DeploymentJob × JobRepository :=
  repo.updateLeasedJob jobId deviceId leaseId (DeploymentJob.finish succeeded errorMessage)
    now later write

/-- A poll of an Agent, which prolongs its lease and reads the state of the job. -/
def renewControlLease (jobId deviceId leaseId : Uuid) (duration : Duration) (now : Instant)
    (write : WriteOutcome) : Except JobRepositoryError JobState × JobRepository :=
  match focus (fun job => job.id == jobId) repo.jobs with
  | none => (.error (.notFound jobId), repo)
  | some (job, put) =>
    match job.checkControlLease deviceId leaseId with
    | .error error => (.error error, repo)
    | .ok () =>
      if job.leaseIsFresh duration now then (.ok job.state, repo)
      else repo.commit (put { job with leaseExpiresAt := some (now + duration) }) job.state write

end JobRepository

end EasyDeployMesh
