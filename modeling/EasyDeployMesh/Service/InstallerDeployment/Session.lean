import EasyDeployMesh.Service.DeviceRegistry
import EasyDeployMesh.Service.JobRepository.Model

/-!
# Installer sessions

The data of `crates/service/src/installer_deployment.rs`: the session that a boot offer opens, the
binding that authentication reads out of it, and the requests, answers and errors of the service.

## Main definitions

* `EasyDeployMesh.InstallerSession`, `EasyDeployMesh.InstallerSessionPhase`,
  `EasyDeployMesh.SessionTable`.
* `EasyDeployMesh.SessionBinding`, `EasyDeployMesh.InstallerSession.binding`.
* `EasyDeployMesh.PreparedLinuxIso`: what the image library answers.
* `EasyDeployMesh.InstallerDeploymentError` and the results of the calls.
-/

namespace EasyDeployMesh

/-- How long an offer may wait for the guard. -/
def offerTtlMinutes : ℤ := 120

/-- How long the lease of an installer lasts. -/
def installerLeaseMinutes : ℤ := 240

/-- The largest number of sessions. -/
def maxInstallerSessions : ℕ := 4096

/-- The longest token that is looked at. -/
def maxSessionTokenBytes : ℕ := 256

/-- How far the sizes of the target and of the observed disk may differ. -/
def diskSizeToleranceBytes : UInt64 := 1024 * 1024

/-! ### Sessions -/

/-- The phases of a session. -/
inductive InstallerSessionPhase
  | offered
  | authorizing
  | handedOff
  | awaitingFirstBoot
  | completed
  deriving DecidableEq, Repr

/-- A session: of its token only the digest is kept. -/
structure InstallerSession where
  tokenDigest : String
  attemptId : Uuid
  deviceId : Uuid
  jobId : Uuid
  imageId : Uuid
  baseUrl : String
  expiresAt : Instant
  phase : InstallerSessionPhase
  leaseId : Option Uuid
  deriving DecidableEq

/-- The sessions behind the lock, by their ids. -/
abbrev SessionTable := AList fun _ : Uuid => InstallerSession

/-- What a call keeps of a session after the lock is released. -/
structure SessionBinding where
  sessionId : Uuid
  attemptId : Uuid
  deviceId : Uuid
  jobId : Uuid
  imageId : Uuid
  baseUrl : String
  phase : InstallerSessionPhase
  leaseId : Option Uuid
  deriving DecidableEq

/-- What a session tells the calls that present its token. -/
def InstallerSession.binding (session : InstallerSession) (sessionId : Uuid) : SessionBinding where
  sessionId := sessionId
  attemptId := session.attemptId
  deviceId := session.deviceId
  jobId := session.jobId
  imageId := session.imageId
  baseUrl := session.baseUrl
  phase := session.phase
  leaseId := session.leaseId

/-! ### The image library -/

/-- A file of a prepared installer image. -/
structure PreparedLinuxIsoAsset where
  canonicalPath : String
  sizeBytes : UInt64
  sha256 : String
  deriving DecidableEq

/-- An installer image whose files are prepared for serving. -/
structure PreparedLinuxIso where
  artifactId : Uuid
  iso : PreparedLinuxIsoAsset
  kernel : PreparedLinuxIsoAsset
  initrd : PreparedLinuxIsoAsset
  capability : InstallerCapability
  deriving DecidableEq

/-! ### Requests and answers -/

/-- The errors of the installer service. -/
inductive InstallerDeploymentError
  | invalidRequest
  | unauthorized
  | expired
  | invalidSessionState
  | authorizationInProgress
  | mediaIntegrity
  | targetDiskMismatch
  | sessionCapacity
  | registry (source : DeviceRegistryError)
  | jobs (source : JobRepositoryError)
  | configuration
  deriving DecidableEq

/-- The session that a booting device is given. -/
structure BootAssignment where
  sessionId : Uuid
  attemptId : Uuid
  token : String
  expiresAt : Instant
  baseUrl : String
  deriving DecidableEq

/-- The outcomes of a boot query. -/
inductive BootOutcome
  | noAssignment
  | denied
  | assigned (assignment : BootAssignment)
  deriving DecidableEq

/-- The files that an installer fetches. -/
inductive InstallerMediaKind
  | kernel
  | initrd
  | iso
  deriving DecidableEq

/-- A file as it is served to an installer. -/
structure InstallerMedia where
  canonicalPath : String
  sizeBytes : UInt64
  sha256 : String
  contentType : String
  fileName : String
  deriving DecidableEq

/-- What the guard releases: the configuration and the leased job. -/
structure GuardAuthorization where
  autoinstall : String
  job : DeploymentJob
  deriving DecidableEq

/-- The events that an installer reports. -/
inductive InstallerEventKind
  | partitioning
  | installingSystem
  | configuringBoot
  | finalizing
  | awaitingFirstBoot
  | failed
  deriving DecidableEq, Repr

/-- An event with its message. -/
structure InstallerEventRequest where
  kind : InstallerEventKind
  message : Option String
  deriving DecidableEq

end EasyDeployMesh
