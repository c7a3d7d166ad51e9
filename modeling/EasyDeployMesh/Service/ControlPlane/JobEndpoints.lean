import EasyDeployMesh.Service.InstallerDeployment.Session
import EasyDeployMesh.Service.JobRepository.LeaseLife

/-!
# The job endpoints of the control plane

The endpoints of `crates/service/src/control_plane.rs` with which an Agent polls the state of its
job and reports its completion, and the status of every error. An endpoint authenticates the device
and makes one call on the job repository; its result is the answer and this call. The path segments
of a request are given as they parse, and an answer by its status and by the body of a success: the
texts of the errors are read by no Agent.

## Main definitions

* `EasyDeployMesh.ApiError`, `EasyDeployMesh.ApiError.status`, `EasyDeployMesh.HttpResponse`.
* `EasyDeployMesh.authenticatedDevice`, `EasyDeployMesh.jobControlState`,
  `EasyDeployMesh.completeJob`.
* `EasyDeployMesh.ControlPlane`: the repository and the registry behind the endpoints.

## Main results

* `EasyDeployMesh.ApiError.isError_status`: no error is answered with a status of success.
-/

namespace EasyDeployMesh

open Foundations

/-- How long the lease of an Agent lasts. -/
def jobLeaseMinutes : ℤ := 120

/-! ### Answers -/

/-- The errors of the endpoints. -/
inductive ApiError
  | unauthorized
  | notFound
  | registry (source : DeviceRegistryError)
  | jobs (source : JobRepositoryError)
  | images
  | conflict (message : String)
  | installer (source : InstallerDeploymentError)
  | installerTask
  | rangeNotSatisfiable (length : UInt64)

/-! The statuses of `into_response`. -/

/-- The HTTP status of an error of the registry. -/
def DeviceRegistryError.status : DeviceRegistryError → ℕ
  | unauthorized => 401
  | notFound _ => 404
  | _ => 422

/-- The HTTP status of an error of the job repository. -/
def JobRepositoryError.status : JobRepositoryError → ℕ
  | notFound _ => 404
  | invalidLease | wrongDevice _ => 403
  | _ => 422

/-- The HTTP status of an error of the installer service. -/
def InstallerDeploymentError.status : InstallerDeploymentError → ℕ
  | unauthorized => 401
  | expired => 410
  | authorizationInProgress | invalidSessionState => 409
  | invalidRequest | targetDiskMismatch => 422
  | mediaIntegrity => 409
  | sessionCapacity | registry _ | jobs _ | configuration => 503

/-- The HTTP status of an error of an endpoint. -/
def ApiError.status : ApiError → ℕ
  | unauthorized => 401
  | notFound => 404
  | registry source => source.status
  | jobs source => source.status
  | images => 422
  | conflict _ => 409
  | installer source => source.status
  | installerTask => 503
  | rangeNotSatisfiable _ => 416

/-- The status of an answer and its decoded body. -/
structure HttpResponse (α : Type) where
  status : ℕ
  body : Option α

namespace HttpResponse

variable {α : Type}

/-- The answer with the result of an endpoint. -/
def ofResult (success : ℕ) : Except ApiError α → HttpResponse α
  | .ok body => { status := success, body := some body }
  | .error error => { status := error.status, body := none }

/-- The status is that of an error of the client or of the server. -/
def isError (response : HttpResponse α) : Bool :=
  400 ≤ response.status && response.status < 600

end HttpResponse

/-- An error of the registry or of the repository is an error of the client. -/
theorem DeviceRegistryError.status_cases (error : DeviceRegistryError) :
    error.status = 401 ∨ error.status = 404 ∨ error.status = 422 := by
  cases error <;> simp [status]

theorem JobRepositoryError.status_cases (error : JobRepositoryError) :
    error.status = 403 ∨ error.status = 404 ∨ error.status = 422 := by
  cases error with
  | notFound => exact Or.inr (Or.inl rfl)
  | invalidLease | wrongDevice => exact Or.inl rfl
  | _ => exact Or.inr (Or.inr rfl)

/-- No error is answered with a status of success. -/
theorem ApiError.isError_status {α : Type} (success : ℕ) (error : ApiError) :
    (HttpResponse.ofResult success (.error error) : HttpResponse α).isError = true := by
  have hstatus : 400 ≤ error.status ∧ error.status < 600 := by
    cases error with
    | registry source => rcases source.status_cases with h | h | h <;> simp [status, h]
    | jobs source => rcases source.status_cases with h | h | h <;> simp [status, h]
    | installer source => cases source <;> simp [status, InstallerDeploymentError.status]
    | _ => simp [status]
  simp [HttpResponse.isError, HttpResponse.ofResult, hstatus]

/-! ### The endpoints -/

/-- A request about a job: the path segments, when they parse as UUIDs, the text of the
authorization header, and what the query or the body says. -/
structure JobRequest (α : Type) where
  deviceId : Option Uuid
  jobId : Option Uuid
  authorization : Option String
  body : α

/-- The token of an `Authorization` header; an empty one is no token. -/
def bearerToken (authorization : Option String) : Option String :=
  (authorization.bind (Text.stripPrefix "Bearer ")).filter fun token => !token.isEmpty

section Endpoints

variable (digest : String → String) (registry : DeviceRegistry)

/-- The device of a request, once its token has been checked. -/
def authenticatedDevice (deviceId : Option Uuid) (authorization : Option String) :
    Except ApiError Uuid := do
  let deviceId ← deviceId.elim (.error .notFound) .ok
  let token ← (bearerToken authorization).elim (.error .unauthorized) .ok
  (registry.authenticate digest deviceId token).mapError .registry
  pure deviceId

/-- The ids of the authenticated device and of the job. -/
def JobRequest.ids {α : Type} (request : JobRequest α) : Except ApiError (Uuid × Uuid) := do
  let deviceId ← authenticatedDevice digest registry request.deviceId request.authorization
  let jobId ← request.jobId.elim (.error .notFound) .ok
  pure (deviceId, jobId)

/-- The query names the lease. -/
def jobControlState (repo : JobRepository) (request : JobRequest Uuid) (now : Instant)
    (write : WriteOutcome) : Except ApiError JobState × Option JobEvent :=
  match request.ids digest registry with
  | .error error => (.error error, none)
  | .ok (deviceId, jobId) =>
    ((repo.renewControlLease jobId deviceId request.body (minutes jobLeaseMinutes) now
        write).1.mapError .jobs,
      some (.renewControlLease jobId deviceId request.body (minutes jobLeaseMinutes) now write))

/-- The answer to the report of a result and the call it makes on the repository. -/
def completeJob (repo : JobRepository) (request : JobRequest AgentJobCompletion)
    (now later : Instant) (write : WriteOutcome) : Except ApiError Unit × Option JobEvent :=
  match request.ids digest registry with
  | .error error => (.error error, none)
  | .ok (deviceId, jobId) =>
    (((repo.complete jobId deviceId request.body.leaseId request.body.succeeded
        request.body.errorMessage now later write).1.mapError .jobs).map fun _ => (),
      some (.complete jobId deviceId request.body.leaseId request.body.succeeded
        request.body.errorMessage now later write))

end Endpoints

/-- The job repository and the device registry behind the endpoints. -/
structure ControlPlane where
  jobs : RepositoryWorld
  registry : DeviceRegistry

namespace ControlPlane

/-- The control plane over an empty directory. -/
def empty (manifestPath : String) (clock : Instant) (registry : DeviceRegistry) : ControlPlane where
  jobs := .empty manifestPath clock
  registry := registry

variable (digest : String → String) (plane : ControlPlane)

/-- The call of an endpoint on the repository, if it makes one. -/
def call (event : Option JobEvent) : Option ControlPlane :=
  (event.elim (some plane.jobs) plane.jobs.step).map fun jobs => { plane with jobs }

/-- The answer of `job_control_state`, and the control plane after it. -/
def control (request : JobRequest Uuid) (now : Instant) (write : WriteOutcome) :
    Option (HttpResponse JobState × ControlPlane) :=
  let (result, event) := jobControlState digest plane.registry plane.jobs.repo request now write
  (plane.call event).map fun plane => (.ofResult 200 result, plane)

end ControlPlane

/-! ### What the endpoints answer -/

section Answers

variable {digest : String → String} {registry : DeviceRegistry} {repo : JobRepository}
  {now later : Instant} {write : WriteOutcome}

/-- A control poll is accepted when the device is authenticated, its job holds the lease, and the
renewal need not be written or is written. -/
theorem jobControlState_eq_ok_iff {request : JobRequest Uuid} {state : JobState} :
    (jobControlState digest registry repo request now write).1 = .ok state ↔
      ∃ deviceId jobId job put, request.ids digest registry = .ok (deviceId, jobId) ∧
        focus (fun job => job.id == jobId) repo.jobs = some (job, put) ∧
        job.checkControlLease deviceId request.body = .ok () ∧
        (job.leaseIsFresh (minutes jobLeaseMinutes) now = true ∨ write = .written) ∧
        job.state = state := by
  unfold jobControlState
  split
  · rename_i error hids
    simp [hids]
  · rename_i deviceId jobId hids
    rw [mapError_eq_ok_iff, JobRepository.renewControlLease_eq_ok_iff]
    constructor
    · rintro ⟨job, put, hrest⟩
      exact ⟨deviceId, jobId, job, put, hids, hrest⟩
    · rintro ⟨_, _, job, put, hids', hrest⟩
      obtain ⟨rfl, rfl⟩ := Prod.mk.inj (Except.ok.inj (hids.symm.trans hids'))
      exact ⟨job, put, hrest⟩

/-- A report is accepted when the device is authenticated and the repository accepts it. -/
theorem completeJob_eq_ok_iff {request : JobRequest AgentJobCompletion} :
    (completeJob digest registry repo request now later write).1 = .ok () ↔
      ∃ deviceId jobId job, request.ids digest registry = .ok (deviceId, jobId) ∧
        (repo.complete jobId deviceId request.body.leaseId request.body.succeeded
          request.body.errorMessage now later write).1 = .ok job := by
  unfold completeJob
  split
  · rename_i error hids
    simp [hids]
  · rename_i deviceId jobId hids
    rw [map_eq_ok_iff]
    constructor
    · rintro ⟨job, hjob, -⟩
      exact ⟨deviceId, jobId, job, hids, mapError_eq_ok_iff.1 hjob⟩
    · rintro ⟨_, _, job, hids', hjob⟩
      obtain ⟨rfl, rfl⟩ := Prod.mk.inj (Except.ok.inj (hids.symm.trans hids'))
      exact ⟨job, mapError_eq_ok_iff.2 hjob, rfl⟩

private theorem status_of_ids_eq_error {α : Type} {request : JobRequest α} {error : ApiError}
    (h : request.ids digest registry = .error error) :
    error.status = 401 ∨ error.status = 404 ∨ error.status = 422 := by
  simp only [JobRequest.ids, authenticatedDevice, bind, Except.bind] at h
  cases hdevice : request.deviceId with
  | none =>
    obtain rfl : ApiError.notFound = error := by simpa [hdevice] using h
    exact Or.inr (Or.inl rfl)
  | some deviceId =>
    cases htoken : bearerToken request.authorization with
    | none =>
      obtain rfl : ApiError.unauthorized = error := by simpa [hdevice, htoken] using h
      exact Or.inl rfl
    | some token =>
      cases hauth : registry.authenticate digest deviceId token with
      | error refused =>
        obtain rfl : ApiError.registry refused = error := by
          simpa [hdevice, htoken, hauth, Except.mapError] using h
        exact refused.status_cases
      | ok u =>
        cases hjob : request.jobId with
        | none =>
          obtain rfl : ApiError.notFound = error := by
            simpa [hdevice, htoken, hauth, hjob, Except.mapError, pure, Except.pure] using h
          exact Or.inr (Or.inl rfl)
        | some jobId => simp [hdevice, htoken, hauth, hjob, Except.mapError, pure, Except.pure] at h

/-- The status of a refused report is that of a permanent error of the client. -/
theorem status_of_completeJob_eq_error {request : JobRequest AgentJobCompletion} {error : ApiError}
    (h : (completeJob digest registry repo request now later write).1 = .error error) :
    error.status = 401 ∨ error.status = 403 ∨ error.status = 404 ∨ error.status = 422 := by
  unfold completeJob at h
  split at h
  · rename_i refused hids
    obtain rfl := Except.error.inj h
    exact (status_of_ids_eq_error hids).imp_right Or.inr
  · rename_i deviceId jobId hids
    cases hjob : (repo.complete jobId deviceId request.body.leaseId request.body.succeeded
        request.body.errorMessage now later write).1 with
    | ok job => simp [hjob, Except.mapError, Except.map] at h
    | error refused =>
      obtain rfl : ApiError.jobs refused = error := by
        simpa [hjob, Except.mapError, Except.map] using h
      exact Or.inr refused.status_cases

end Answers

end EasyDeployMesh
