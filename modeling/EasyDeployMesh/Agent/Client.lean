import EasyDeployMesh.Service.ControlPlane.JobEndpoints

/-!
# The requests of the Agent

What `crates/agent/src/main.rs` makes of an answer of the control plane, or of its absence: a
request without an answer is an error without status, an answer with an error status is turned into
an error by `error_for_status`, and `is_transient_request_error` tells which errors are worth
another attempt.

## Main definitions

* `EasyDeployMesh.RequestError`, `EasyDeployMesh.HttpResponse.errorForStatus`,
  `EasyDeployMesh.isTransientRequestError`.
* `EasyDeployMesh.Delivery`: what the network does to a request and to its answer.
* `EasyDeployMesh.AgentRegistration.jobRequest`: a request about the leased job.

## Main results

* `EasyDeployMesh.HttpResponse.json_errorForStatus_ofResult`: what the Agent reads of the result of
  an endpoint.
* `EasyDeployMesh.not_isTransientRequestError_of_status`: a refusal of a job endpoint is permanent.
-/

namespace EasyDeployMesh

open Foundations

/-- The errors of a request that `error_for_status` and the reading of a body leave to the
caller. -/
inductive RequestError
  /-- No answer was received. -/
  | transport
  /-- The answer has an error status. -/
  | status (code : ℕ)
  /-- The body of the answer could not be read. -/
  | decode
  deriving DecidableEq

/-- `reqwest::Error::status`. -/
def RequestError.statusCode : RequestError → Option ℕ
  | status code => some code
  | transport | decode => none

/-- Another attempt may succeed. -/
def isTransientRequestError (error : RequestError) : Bool :=
  error.statusCode.all fun code => (500 ≤ code && code < 600) || [408, 425, 429].contains code

namespace HttpResponse

variable {α : Type}

/-- `error_for_status`. -/
def errorForStatus (response : HttpResponse α) : Except RequestError (HttpResponse α) :=
  if response.isError then .error (.status response.status) else .ok response

/-- The decoded body of an answer. -/
def json (response : HttpResponse α) : Except RequestError α :=
  response.body.elim (.error .decode) .ok

theorem errorForStatus_ok {success : ℕ} (hsuccess : success < 400) (body : α) :
    (ofResult success (.ok body)).errorForStatus = .ok (ofResult success (.ok body)) := by
  have hok : (ofResult success (.ok body)).isError = false := by
    simp [isError, ofResult, Nat.not_le.2 hsuccess]
  simp [errorForStatus, hok]

theorem errorForStatus_error (success : ℕ) (error : ApiError) :
    (ofResult success (.error error) : HttpResponse α).errorForStatus =
      .error (.status error.status) := by
  rw [errorForStatus, if_pos (error.isError_status success)]
  rfl

/-- What the Agent reads of an answer is the result of the endpoint, with a status for an error. -/
theorem json_errorForStatus_ofResult {success : ℕ} (hsuccess : success < 400)
    (result : Except ApiError α) : (ofResult success result).errorForStatus.bind json =
      result.mapError fun error => .status error.status := by
  cases result with
  | error error =>
    rw [errorForStatus_error]
    rfl
  | ok body =>
    rw [errorForStatus_ok hsuccess]
    rfl

end HttpResponse

/-- What the network does to a request and to its answer. -/
inductive Delivery
  | requestLost
  | responseLost
  | answered
  deriving DecidableEq

/-- What the sender of a request sees of the answer. -/
def Delivery.receive {α : Type} (delivery : Delivery) (result : Except RequestError α) :
    Except RequestError α :=
  match delivery with
  | .requestLost | .responseLost => .error .transport
  | .answered => result

/-- A request about the leased job, with the token of the registration. -/
def AgentRegistration.jobRequest {α : Type} (registration : AgentRegistration)
    (lease : AgentJobLease) (body : α) : JobRequest α where
  deviceId := some registration.deviceId
  jobId := some lease.jobId
  authorization := some ("Bearer " ++ registration.deviceToken)
  body := body

/-- A request of the Agent is about its own device and the leased job, and is authenticated by the
token of the registration. -/
theorem ids_jobRequest_eq_ok_iff {α : Type} {digest : String → String} {registry : DeviceRegistry}
    {registration : AgentRegistration} {lease : AgentJobLease} {body : α} {deviceId jobId : Uuid} :
    (registration.jobRequest lease body).ids digest registry = .ok (deviceId, jobId) ↔
      (registration.deviceToken ≠ "" ∧
        registry.authenticate digest registration.deviceId registration.deviceToken = .ok ()) ∧
      registration.deviceId = deviceId ∧ lease.jobId = jobId := by
  have hbearer : bearerToken (some ("Bearer " ++ registration.deviceToken)) =
      (some registration.deviceToken).filter fun token => !token.isEmpty := by
    simp [bearerToken, Text.stripPrefix_append]
  simp only [JobRequest.ids, authenticatedDevice, AgentRegistration.jobRequest, hbearer]
  by_cases htoken : registration.deviceToken = ""
  · simp [htoken, Option.filter, bind, Except.bind]
  · cases hauth : registry.authenticate digest registration.deviceId registration.deviceToken <;>
      simp [htoken, hauth, Option.filter, bind, Except.bind, Except.mapError, pure, Except.pure]

/-- The errors with which the job endpoints refuse a request are permanent. -/
theorem not_isTransientRequestError_of_status {code : ℕ}
    (h : code = 401 ∨ code = 403 ∨ code = 404 ∨ code = 422) :
    isTransientRequestError (.status code) = false := by
  rcases h with rfl | rfl | rfl | rfl <;> decide

end EasyDeployMesh
