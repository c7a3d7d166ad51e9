import EasyDeployMesh.Service.InstallerDeployment.Autoinstall
import EasyDeployMesh.Service.JobRepository.World

/-!
# The installer deployment service

The calls of `crates/service/src/installer_deployment.rs`, cut where a call takes a lock. Between
two cuts a call runs one critical section: under the lock of the sessions, under the lock of the
jobs, or under that of the device registry, together with the code around it that touches no shared
state. What a call keeps between two sections is its state; the answers of the environment to one
section are its input. The digest of secrets is a parameter.

## Main definitions

* `EasyDeployMesh.SessionTable.authenticateSession`, `EasyDeployMesh.SessionTable.setSessionPhase`,
  `EasyDeployMesh.SessionTable.markSessionCompleted`, `EasyDeployMesh.SessionTable.offer`,
  `EasyDeployMesh.SessionTable.recordHandOff`: the sections under the lock of the sessions.
* `EasyDeployMesh.uniquelyMatchingDisk`, `EasyDeployMesh.requireBoundJob`: the checks of a guard.
* `EasyDeployMesh.DiscoverState`, `EasyDeployMesh.GuardState`, `EasyDeployMesh.EventState`,
  `EasyDeployMesh.FirstBootState`, `EasyDeployMesh.FetchState` with their `advance` functions: the
  calls, section by section.
* `EasyDeployMesh.InstallerCall`: a call with its arguments and its state.
-/

namespace EasyDeployMesh

open Foundations

/-! ### Sections under the lock of the sessions -/

namespace SessionTable

variable (sessions : SessionTable)

/-- The binding of a session, once its token was found right and in time. -/
def authenticateSession (digest : String → String) (sessionId : Uuid) (token : String)
    (now : Instant) : Except InstallerDeploymentError SessionBinding :=
  if token.isEmpty || maxSessionTokenBytes < token.utf8ByteSize then .error .unauthorized
  else match sessions.lookup sessionId with
    | none => .error .unauthorized
    | some session =>
      if !secretMatches digest session.tokenDigest token then .error .unauthorized
      else if session.expiresAt < now then .error .expired
      else .ok (session.binding sessionId)

/-- A session moves on, if it is still in the expected phase. -/
def setSessionPhase (sessionId : Uuid) (expected next : InstallerSessionPhase) :
    Except InstallerDeploymentError Unit × SessionTable :=
  match sessions.lookup sessionId with
  | none => (.error .unauthorized, sessions)
  | some session =>
    if session.phase ≠ expected then (.error .invalidSessionState, sessions)
    else (.ok (), sessions.insert sessionId { session with phase := next })

/-- A session ends, whatever its phase is. -/
def markSessionCompleted (sessionId : Uuid) :
    Except InstallerDeploymentError Unit × SessionTable :=
  match sessions.lookup sessionId with
  | none => (.error .unauthorized, sessions)
  | some session => (.ok (), sessions.insert sessionId { session with phase := .completed })

/-- The sessions that the last section of `discover` leaves in the table: the unexpired ones of
other jobs. -/
def prune (jobId : Uuid) (now : Instant) : SessionTable :=
  (sessions.retain fun _ session => now ≤ session.expiresAt).retain fun _ session =>
    session.jobId != jobId

/-- The last section of `discover`. -/
def offer (sessionId : Uuid) (session : InstallerSession) (now : Instant) :
    Except InstallerDeploymentError Unit × SessionTable :=
  let sessions := sessions.prune session.jobId now
  if maxInstallerSessions ≤ sessions.entries.length then (.error .sessionCapacity, sessions)
  else (.ok (), sessions.insert sessionId session)

/-- The last section of an initial guard authorization. -/
def recordHandOff (sessionId leaseId : Uuid) (expiresAt : Instant) :
    Except InstallerDeploymentError Unit × SessionTable :=
  match sessions.lookup sessionId with
  | none => (.error .unauthorized, sessions)
  | some session =>
    if session.phase ≠ .authorizing then (.error .invalidSessionState, sessions)
    else (.ok (), sessions.insert sessionId
      { session with phase := .handedOff, leaseId := some leaseId, expiresAt })

end SessionTable

/-! ### Checks -/

/-- The names of the one architecture that the installer is built for. -/
def isX86_64Architecture (value : String) : Bool :=
  ["x86_64", "amd64", "x86-64"].contains (Text.toAsciiLowercase (Text.trim value))

/-- The names of the one platform that the installer is built for. -/
def isUefiPlatform (value : String) : Bool :=
  ["efi", "uefi"].contains (Text.toAsciiLowercase (Text.trim value))

/-- The observed disk has the model, the size and the serial number of the target. -/
def matchesTarget (target : DeploymentTarget) (expectedSerial : String)
    (disk : LinuxInstallerObservedDisk) : Bool :=
  Text.eqIgnoreAsciiCase (Text.trim disk.model) (Text.trim target.targetDiskModel) &&
    absDiff disk.sizeBytes target.targetDiskSizeBytes ≤ diskSizeToleranceBytes &&
    disk.serial.any fun serial => Text.eqIgnoreAsciiCase (Text.trim serial) expectedSerial

/-- The serial number that a target asks for, unless it is blank. -/
def expectedSerial (target : DeploymentTarget) : Option String :=
  (target.targetDiskSerial.map Text.trim).filter fun serial => !serial.isEmpty

/-- The one observed disk that is the target. -/
def uniquelyMatchingDisk (target : DeploymentTarget) (disks : List LinuxInstallerObservedDisk) :
    Except InstallerDeploymentError LinuxInstallerObservedDisk :=
  match expectedSerial target with
  | none => .error .targetDiskMismatch
  | some serial =>
    match disks.filter (matchesTarget target serial) with
    | [disk] => .ok disk
    | _ => .error .targetDiskMismatch

/-- The job of a binding, unchanged and in the required state. -/
def requireBoundJob (repo : JobRepository) (binding : SessionBinding) (requiredState : JobState) :
    Except InstallerDeploymentError DeploymentJob :=
  match repo.list.find? (fun job => job.id == binding.jobId) with
  | none => .error .invalidSessionState
  | some job =>
    if job.operation ≠ .installLinux ∨ job.imageId ≠ binding.imageId ∨ job.state ≠ requiredState ∨
        !job.hasSoleTarget binding.deviceId then
      .error .invalidSessionState
    else .ok job

/-- What the image library answers to `prepare_linux_iso`; an error is not told apart from
another. -/
abbrev Preparation := Option PreparedLinuxIso

/-- The checks of `perform_initial_guard_authorization` before the handoff. -/
def initialConfiguration (repo : JobRepository) (binding : SessionBinding) (token : String)
    (request : LinuxInstallerGuardRequest) (preparation : Preparation) :
    Except InstallerDeploymentError String :=
  match preparation with
  | none => .error .mediaIntegrity
  | some prepared =>
    if prepared.artifactId ≠ binding.imageId ∨
        !Text.eqIgnoreAsciiCase prepared.iso.sha256 request.imageSha256 then
      .error .mediaIntegrity
    else match requireBoundJob repo binding .waiting with
      | .error error => .error error
      | .ok job =>
        match job.targets with
        | [] => .error .invalidSessionState
        | target :: _ =>
          match uniquelyMatchingDisk target request.disks with
          | .error error => .error error
          | .ok disk =>
            if disk.sizeBytes < prepared.capability.minimumDiskBytes then .error .targetDiskMismatch
            else match job.options.linuxInstall with
              | none => .error .configuration
              | some options =>
                if options.validate.toOption.isNone then .error .configuration
                else renderFinalAutoinstall binding token options disk.path

/-- `replay_guard_authorization`. -/
def replayGuardAuthorization (repo : JobRepository) (binding : SessionBinding) (token : String)
    (request : LinuxInstallerGuardRequest) (preparation : Preparation) :
    Except InstallerDeploymentError GuardAuthorization :=
  match preparation with
  | none => .error .mediaIntegrity
  | some prepared =>
    if !Text.eqIgnoreAsciiCase prepared.iso.sha256 request.imageSha256 then .error .mediaIntegrity
    else match requireBoundJob repo binding .running with
      | .error error => .error error
      | .ok job =>
        if job.leaseId ≠ binding.leaseId then .error .invalidSessionState
        else match job.targets with
          | [] => .error .invalidSessionState
          | target :: _ =>
            match uniquelyMatchingDisk target request.disks with
            | .error error => .error error
            | .ok disk =>
              match job.options.linuxInstall with
              | none => .error .configuration
              | some options =>
                (renderFinalAutoinstall binding token options disk.path).map fun autoinstall =>
                  { autoinstall, job }

/-- The progress that an event of the installer stands for. -/
def installerEventProgress : InstallerEventKind → DeploymentStage × UInt8
  | .partitioning => (.partitioning, 10)
  | .installingSystem => (.installingSystem, 45)
  | .configuringBoot => (.configuringBoot, 75)
  | .finalizing => (.finalizing, 90)
  | .awaitingFirstBoot => (.awaitingFirstBoot, 99)
  | .failed => (.finalizing, 99)

/-- The message that an event of the installer leaves in the job. -/
def installerEventMessage : InstallerEventKind → String
  | .partitioning => "Linux installer is partitioning the authorized disk"
  | .installingSystem => "Linux installer is installing the system"
  | .configuringBoot => "Linux installer is configuring UEFI boot"
  | .finalizing => "Linux installer is finalizing the installation"
  | .awaitingFirstBoot => "Linux installer is awaiting first-boot confirmation"
  | .failed => "Linux installer reported a failure"

/-! ### Sections -/

/-- The answers of the environment to one critical section: the readings of the clock before and
under the lock, what the image library prepares, what becomes of a write of the jobs, and the UUIDs
that are minted. -/
structure SectionInput where
  started : Instant
  now : Instant
  later : Instant
  preparation : Preparation
  write : WriteOutcome
  leaseId : Uuid
  sessionId : Uuid
  attemptId : Uuid
  secret : Uuid × Uuid
  deriving DecidableEq

/-- What one section does: the next state of the call, the sessions, the call on the job repository
that the section consists of, and the UUIDs minted outside the repository. -/
structure SectionResult (σ : Type) where
  state : σ
  sessions : SessionTable
  jobs : Option JobEvent
  minted : List Uuid

/-- The same section of a call that keeps more than this state. -/
def SectionResult.map {σ τ : Type} (f : σ → τ) (r : SectionResult σ) : SectionResult τ where
  state := f r.state
  sessions := r.sessions
  jobs := r.jobs
  minted := r.minted

/-- A section that takes no lock or only reads under one. -/
def SectionResult.quiet {σ : Type} (sessions : SessionTable) (state : σ) : SectionResult σ where
  state := state
  sessions := sessions
  jobs := none
  minted := []

/-- A section under the lock of the sessions that reads the clock. -/
def SectionResult.timed {σ : Type} (sessions : SessionTable) (now : Instant) (state : σ) :
    SectionResult σ where
  state := state
  sessions := sessions
  jobs := some (.idle now)
  minted := []

/-- A section under the lock of the jobs. -/
def SectionResult.ofJobs {σ : Type} (sessions : SessionTable) (e : JobEvent) (state : σ) :
    SectionResult σ where
  state := state
  sessions := sessions
  jobs := some e
  minted := []

end EasyDeployMesh
