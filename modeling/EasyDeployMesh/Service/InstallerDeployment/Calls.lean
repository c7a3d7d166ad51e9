import EasyDeployMesh.Service.InstallerDeployment.Model

/-!
# The calls of the installer deployment service

Every public call of `InstallerDeployment` as a machine over its own state: `advance` runs the next
critical section. The arguments of a call do not change, and a call that has returned does not
advance.

## Main definitions

* `EasyDeployMesh.DiscoverState.advance`: a machine asks for an assignment.
* `EasyDeployMesh.GuardState.advance`: an installer asks for the authorization to write the disk.
* `EasyDeployMesh.EventState.advance`, `EasyDeployMesh.FirstBootState.advance`: an installer reports
  an event, and the installed system its first boot.
* `EasyDeployMesh.FetchState.advance`: an installer fetches its first documents and its media.
* `EasyDeployMesh.InstallerCall`, `EasyDeployMesh.InstallerCall.advance`.
-/

namespace EasyDeployMesh

open Foundations

/-! ### discover -/

/-- The query of a booting device. -/
structure BootQuery where
  macAddress : String
  architecture : String
  platform : String
  baseUrl : String
  deriving DecidableEq

namespace BootQuery

/-- A field of the query is longer than the service accepts. -/
def isOversized (query : BootQuery) : Bool :=
  64 < query.macAddress.utf8ByteSize || 32 < query.architecture.utf8ByteSize ||
    32 < query.platform.utf8ByteSize || 512 < query.baseUrl.utf8ByteSize

/-- The job that the machine may be offered, or the outcome without one. -/
def findAssignment (query : BootQuery) (device : Device) (repo : JobRepository) :
    Except BootOutcome DeploymentJob :=
  match repo.list.filter (fun job => job.operation == .installLinux && !job.state.isTerminal &&
      job.hasSoleTarget device.id) with
  | [] => .error .noAssignment
  | [job] =>
    if job.state ≠ .waiting then .error .denied
    else if !isX86_64Architecture query.architecture || !isUefiPlatform query.platform ||
        device.architecture != .x86_64 || device.bootMode != .uefi then
      .error .denied
    else match job.options.linuxInstall with
      | none => .error .denied
      | some options =>
        if options.validate.toOption.isNone || job.targets.head?.all (fun target =>
            target.targetDiskSerial.all fun serial => (Text.trim serial).isEmpty) then
          .error .denied
        else .ok job
  | _ => .error .denied

end BootQuery

/-- The prepared image fits the device and the job. -/
def acceptsImage (device : Device) (job : DeploymentJob) (preparation : Preparation) : Bool :=
  preparation.any fun prepared =>
    prepared.artifactId == job.imageId && prepared.capability.architecture == .x86_64 &&
      prepared.capability.minimumMemoryBytes ≤ device.memoryBytes &&
      job.targets.head?.any fun target =>
        prepared.capability.minimumDiskBytes ≤ target.targetDiskSizeBytes

/-- The places in the answer to a boot query at which another call may come between. -/
inductive DiscoverState
  | start
  | found (device : Device)
  | assigned (device : Device) (job : DeploymentJob)
  | booting (device : Device) (job : DeploymentJob)
  | returned (result : Except InstallerDeploymentError BootOutcome)

/-- The session that a boot offer opens. -/
def offeredSession (digest : String → String) (query : BootQuery) (device : Device)
    (job : DeploymentJob) (token : String) (input : SectionInput) : InstallerSession where
  tokenDigest := digest token
  attemptId := input.attemptId
  deviceId := device.id
  jobId := job.id
  imageId := job.imageId
  baseUrl := query.baseUrl
  expiresAt := input.started + minutes offerTtlMinutes
  phase := .offered
  leaseId := none

/-- One section of the answer to a boot query. -/
def DiscoverState.advance (digest : String → String) (registry : DeviceRegistry)
    (repo : JobRepository) (sessions : SessionTable) (query : BootQuery) (input : SectionInput) :
    DiscoverState → Option (SectionResult DiscoverState)
  | .start =>
    if query.isOversized then some (.quiet sessions (.returned (.ok .denied)))
    else match registry.findByMac query.macAddress with
      | .error error => some (.quiet sessions (.returned (.error (.registry error))))
      | .ok none => some (.quiet sessions (.returned (.ok .denied)))
      | .ok (some device) => some (.quiet sessions (.found device))
  | .found device =>
    match query.findAssignment device repo with
    | .error outcome => some (.quiet sessions (.returned (.ok outcome)))
    | .ok job => some (.quiet sessions (.assigned device job))
  | .assigned device job =>
    if !acceptsImage device job input.preparation then
      some (.quiet sessions (.returned (.ok .denied)))
    else
      let mark := JobEvent.markInstallerBooting job.id device.id job.imageId input.now input.write
      match (repo.markInstallerBooting job.id device.id job.imageId input.now input.write).1 with
      | .error _ => some (.ofJobs sessions mark (.returned (.ok .denied)))
      | .ok _ => some (.ofJobs sessions mark (.booting device job))
  | .booting device job =>
    let token := generateSecret "easydeploymesh_installer" input.secret.1 input.secret.2
    let session := offeredSession digest query device job token input
    let minted := [input.sessionId, input.attemptId, input.secret.1, input.secret.2]
    if input.started ≤ input.now then
      match sessions.offer input.sessionId session input.now with
      | (.error error, sessions) =>
        some { SectionResult.timed sessions input.now (.returned (.error error)) with minted }
      | (.ok (), sessions) =>
        let assignment : BootAssignment :=
          { sessionId := input.sessionId, attemptId := input.attemptId, token,
            expiresAt := session.expiresAt, baseUrl := query.baseUrl }
        some { SectionResult.timed sessions input.now
          (.returned (.ok (.assigned assignment))) with minted }
    else none
  | .returned _ => none

/-! ### authorize_guard -/

/-- The report of the installer before it writes to a disk. -/
structure GuardCall where
  sessionId : Uuid
  token : String
  request : LinuxInstallerGuardRequest
  deriving DecidableEq

/-- The places in the guard at which another call may come between. -/
inductive GuardState
  | start
  | offered (binding : SessionBinding)
  | authorizing (binding : SessionBinding)
  /-- The checks have passed; the job is not leased yet. -/
  | checked (binding : SessionBinding) (autoinstall : String)
  /-- The job is leased; the session does not record the lease yet. -/
  | leased (binding : SessionBinding) (autoinstall : String) (job : DeploymentJob) (leaseId : Uuid)
      (expiresAt : Instant)
  /-- The authorization has failed; the phase of the session is not reset yet. -/
  | refused (binding : SessionBinding) (error : InstallerDeploymentError)
  | replaying (binding : SessionBinding)
  | returned (result : Except InstallerDeploymentError GuardAuthorization)

/-- One section of the guard. -/
def GuardState.advance (digest : String → String) (repo : JobRepository) (sessions : SessionTable)
    (call : GuardCall) (input : SectionInput) : GuardState → Option (SectionResult GuardState)
  | .start =>
    match call.request.validate with
    | .error _ => some (.quiet sessions (.returned (.error .invalidRequest)))
    | .ok () =>
      match sessions.authenticateSession digest call.sessionId call.token input.now with
      | .error error => some (.timed sessions input.now (.returned (.error error)))
      | .ok binding =>
        match binding.phase with
        | .authorizing =>
          some (.timed sessions input.now (.returned (.error .authorizationInProgress)))
        | .completed => some (.timed sessions input.now (.returned (.error .invalidSessionState)))
        | .handedOff | .awaitingFirstBoot => some (.timed sessions input.now (.replaying binding))
        | .offered => some (.timed sessions input.now (.offered binding))
  | .offered binding =>
    match sessions.setSessionPhase call.sessionId .offered .authorizing with
    | (.error error, sessions) => some (.quiet sessions (.returned (.error error)))
    | (.ok (), sessions) => some (.quiet sessions (.authorizing binding))
  | .authorizing binding =>
    match initialConfiguration repo binding call.token call.request input.preparation with
    | .error error => some (.quiet sessions (.refused binding error))
    | .ok autoinstall => some (.quiet sessions (.checked binding autoinstall))
  | .checked binding autoinstall =>
    let lease := JobEvent.leaseInstallerJob binding.jobId binding.deviceId binding.imageId
      (minutes installerLeaseMinutes) input.now input.leaseId input.write
    match (repo.leaseInstallerJob binding.jobId binding.deviceId binding.imageId
        (minutes installerLeaseMinutes) input.now input.leaseId input.write).1 with
    | .error error => some (.ofJobs sessions lease (.refused binding (.jobs error)))
    | .ok job =>
      match job.leaseId, job.leaseExpiresAt with
      | some leaseId, some expiresAt =>
        some (.ofJobs sessions lease (.leased binding autoinstall job leaseId expiresAt))
      | _, _ => some (.ofJobs sessions lease (.refused binding .invalidSessionState))
  | .leased binding autoinstall job leaseId expiresAt =>
    match sessions.recordHandOff binding.sessionId leaseId expiresAt with
    | (.error error, sessions) => some (.quiet sessions (.refused binding error))
    | (.ok (), sessions) => some (.quiet sessions (.returned (.ok { autoinstall, job })))
  | .refused _ error =>
    some (.quiet (sessions.setSessionPhase call.sessionId .authorizing .offered).2
      (.returned (.error error)))
  | .replaying binding =>
    some (.quiet sessions (.returned
      (replayGuardAuthorization repo binding call.token call.request input.preparation)))
  | .returned _ => none

/-! ### report_event -/

/-- A report of the installer. -/
structure EventCall where
  sessionId : Uuid
  token : String
  request : InstallerEventRequest
  deriving DecidableEq

/-- The message of the request is longer than the service accepts, or holds a null character. -/
def InstallerEventRequest.isInvalid (request : InstallerEventRequest) : Bool :=
  request.message.any fun message =>
    2048 < message.utf8ByteSize || message.toList.any fun c => c.toNat == 0

/-- The places in the report of an event at which another call may come between. -/
inductive EventState
  | start
  | reporting (binding : SessionBinding) (leaseId : Uuid)
  /-- The repository has accepted the event; the phase of the session is not set yet. -/
  | reported (binding : SessionBinding) (job : DeploymentJob)
  | returned (result : Except InstallerDeploymentError DeploymentJob)

/-- One section of the report of an event. -/
def EventState.advance (digest : String → String) (repo : JobRepository) (sessions : SessionTable)
    (call : EventCall) (input : SectionInput) : EventState → Option (SectionResult EventState)
  | .start =>
    if call.request.isInvalid then some (.quiet sessions (.returned (.error .invalidRequest)))
    else match sessions.authenticateSession digest call.sessionId call.token input.now with
      | .error error => some (.timed sessions input.now (.returned (.error error)))
      | .ok binding =>
        match binding.phase, binding.leaseId with
        | .handedOff, some leaseId | .awaitingFirstBoot, some leaseId =>
          some (.timed sessions input.now (.reporting binding leaseId))
        | _, _ => some (.timed sessions input.now (.returned (.error .invalidSessionState)))
  | .reporting binding leaseId =>
    if call.request.kind = .failed then
      let complete := JobEvent.completeInstaller binding.jobId binding.deviceId leaseId false none
        input.now input.later input.write
      match (repo.completeInstaller binding.jobId binding.deviceId leaseId false none input.now
          input.later input.write).1 with
      | .error error => some (.ofJobs sessions complete (.returned (.error (.jobs error))))
      | .ok job => some (.ofJobs sessions complete (.reported binding job))
    else
      let (stage, progress) := installerEventProgress call.request.kind
      let message := some (installerEventMessage call.request.kind)
      let report := JobEvent.reportInstallerProgress binding.jobId binding.deviceId leaseId
        (minutes installerLeaseMinutes) stage progress message input.started input.now input.later
        input.write
      match (repo.reportInstallerProgress binding.jobId binding.deviceId leaseId
          (minutes installerLeaseMinutes) stage progress message input.started input.now input.later
          input.write).1 with
      | .error error => some (.ofJobs sessions report (.returned (.error (.jobs error))))
      | .ok job =>
        if call.request.kind = .awaitingFirstBoot ∧ binding.phase = .handedOff then
          some (.ofJobs sessions report (.reported binding job))
        else some (.ofJobs sessions report (.returned (.ok job)))
  | .reported _ job =>
    let (result, sessions) :=
      if call.request.kind = .failed then sessions.markSessionCompleted call.sessionId
      else sessions.setSessionPhase call.sessionId .handedOff .awaitingFirstBoot
    some (.quiet sessions (.returned (result.map fun () => job)))
  | .returned _ => none

/-! ### complete_first_boot -/

/-- The report of the installed system at its first boot. -/
structure FirstBootCall where
  sessionId : Uuid
  token : String
  attemptId : Uuid
  deriving DecidableEq

/-- The places in the report of the first boot at which another call may come between. -/
inductive FirstBootState
  | start
  | completing (binding : SessionBinding) (leaseId : Uuid)
  /-- The job has succeeded; the session is not marked as completed yet. -/
  | completed (binding : SessionBinding) (job : DeploymentJob)
  | returned (result : Except InstallerDeploymentError (Option DeploymentJob))

/-- One section of the report of the first boot. -/
def FirstBootState.advance (digest : String → String) (repo : JobRepository)
    (sessions : SessionTable) (call : FirstBootCall) (input : SectionInput) :
    FirstBootState → Option (SectionResult FirstBootState)
  | .start =>
    match sessions.authenticateSession digest call.sessionId call.token input.now with
    | .error error => some (.timed sessions input.now (.returned (.error error)))
    | .ok binding =>
      if binding.attemptId ≠ call.attemptId then
        some (.timed sessions input.now (.returned (.error .invalidSessionState)))
      else match binding.phase, binding.leaseId with
        | .completed, _ => some (.timed sessions input.now (.returned (.ok none)))
        | .handedOff, some leaseId | .awaitingFirstBoot, some leaseId =>
          some (.timed sessions input.now (.completing binding leaseId))
        | _, _ => some (.timed sessions input.now (.returned (.error .invalidSessionState)))
  | .completing binding leaseId =>
    let complete := JobEvent.completeInstaller binding.jobId binding.deviceId leaseId true none
      input.now input.later input.write
    match (repo.completeInstaller binding.jobId binding.deviceId leaseId true none input.now
        input.later input.write).1 with
    | .error error => some (.ofJobs sessions complete (.returned (.error (.jobs error))))
    | .ok job => some (.ofJobs sessions complete (.completed binding job))
  | .completed _ job =>
    let (result, sessions) := sessions.markSessionCompleted call.sessionId
    some (.quiet sessions (.returned (result.map fun () => some job)))
  | .returned _ => none

/-! ### Documents and media -/

/-- What an installer fetches: the user data and the meta data of its seed, and its media. -/
inductive FetchKind
  | userData
  | metaData
  | media (kind : InstallerMediaKind)
  deriving DecidableEq

/-- What the installer fetches. -/
inductive Fetched
  | text (content : String)
  | media (media : InstallerMedia)
  deriving DecidableEq

/-- A request for a text or a file of a session. -/
structure FetchCall where
  sessionId : Uuid
  token : String
  kind : FetchKind
  deriving DecidableEq

/-- A prepared file as it is served. -/
def mediaFromPrepared (asset : PreparedLinuxIsoAsset) (contentType fileName : String) :
    InstallerMedia where
  canonicalPath := asset.canonicalPath
  sizeBytes := asset.sizeBytes
  sha256 := asset.sha256
  contentType := contentType
  fileName := fileName

/-- The rest of `initial_user_data` and `initial_meta_data` after authentication. -/
def initialDocument (repo : JobRepository) (binding : SessionBinding) (document : String) :
    Except InstallerDeploymentError Fetched :=
  if binding.phase ≠ .offered then .error .invalidSessionState
  else (requireBoundJob repo binding .waiting).map fun _ => .text document

/-- The rest of `media` after authentication. -/
def media (repo : JobRepository) (binding : SessionBinding) (kind : InstallerMediaKind)
    (preparation : Preparation) : Except InstallerDeploymentError Fetched := do
  match binding.phase with
  | .offered => let _ ← requireBoundJob repo binding .waiting
  | .handedOff | .awaitingFirstBoot =>
    let job ← requireBoundJob repo binding .running
    if job.leaseId ≠ binding.leaseId then .error .invalidSessionState
  | .authorizing | .completed => .error .invalidSessionState
  match preparation with
  | none => .error .mediaIntegrity
  | some prepared =>
    if prepared.artifactId ≠ binding.imageId then .error .mediaIntegrity
    else match kind with
      | .kernel =>
        .ok (.media (mediaFromPrepared prepared.kernel "application/octet-stream" "vmlinuz"))
      | .initrd =>
        .ok (.media (mediaFromPrepared prepared.initrd "application/octet-stream" "initrd"))
      | .iso =>
        .ok (.media (mediaFromPrepared prepared.iso "application/x-iso9660-image" "ubuntu.iso"))

/-- The places in a fetch at which another call may come between. -/
inductive FetchState
  | start
  | authenticated (binding : SessionBinding)
  | returned (result : Except InstallerDeploymentError Fetched)

/-- One section of a fetch. -/
def FetchState.advance (digest : String → String) (repo : JobRepository) (sessions : SessionTable)
    (call : FetchCall) (input : SectionInput) : FetchState → Option (SectionResult FetchState)
  | .start =>
    match sessions.authenticateSession digest call.sessionId call.token input.now with
    | .error error => some (.timed sessions input.now (.returned (.error error)))
    | .ok binding => some (.timed sessions input.now (.authenticated binding))
  | .authenticated binding =>
    some (.quiet sessions (.returned (match call.kind with
      | .userData => initialDocument repo binding (renderInitialUserData binding call.token)
      | .metaData => initialDocument repo binding (renderInitialMetaData binding)
      | .media kind => media repo binding kind input.preparation)))
  | .returned _ => none

/-! ### All calls -/

/-- A call on the installer service, at the place it has reached. -/
inductive InstallerCall
  | discover (query : BootQuery) (state : DiscoverState)
  | authorizeGuard (call : GuardCall) (state : GuardState)
  | reportEvent (call : EventCall) (state : EventState)
  | completeFirstBoot (call : FirstBootCall) (state : FirstBootState)
  | fetch (call : FetchCall) (state : FetchState)

namespace InstallerCall

/-- The call has not run a section yet. -/
def isFresh : InstallerCall → Bool
  | discover _ .start | authorizeGuard _ .start | reportEvent _ .start
  | completeFirstBoot _ .start | fetch _ .start => true
  | _ => false

/-- Runs the next section of the call. -/
def advance (digest : String → String) (registry : DeviceRegistry) (repo : JobRepository)
    (sessions : SessionTable) (input : SectionInput) :
    InstallerCall → Option (SectionResult InstallerCall)
  | discover query state =>
    (state.advance digest registry repo sessions query input).map (.map (discover query))
  | authorizeGuard call state =>
    (state.advance digest repo sessions call input).map (.map (authorizeGuard call))
  | reportEvent call state =>
    (state.advance digest repo sessions call input).map (.map (reportEvent call))
  | completeFirstBoot call state =>
    (state.advance digest repo sessions call input).map (.map (completeFirstBoot call))
  | fetch call state =>
    (state.advance digest repo sessions call input).map (.map (fetch call))

end InstallerCall

end EasyDeployMesh
