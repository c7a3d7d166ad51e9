import EasyDeployMesh.Agent.Client
import EasyDeployMesh.Service.DeviceRegistry.World

/-!
# An external process of a deployment

`run_checked` of `crates/agent/src/deployment.rs` starts a Windows process that writes the disk and
polls the state of the job until the process ends. Here it runs against the control plane: the
operator and other devices call the repository, the registry changes, and requests and answers get
lost.

## Main definitions

* `EasyDeployMesh.runCheckedPass`: one pass of the loop.
* `EasyDeployMesh.RunCheckedWorld`, `EasyDeployMesh.RunCheckedWorld.step`.
* `EasyDeployMesh.RunCheckedWorld.StopReachesTarget`: the first answered poll after the operator has
  stopped the job kills the process.

## Main results

* `EasyDeployMesh.RunCheckedWorld.stopReachesTarget_iff`: when this holds along a run.
* `EasyDeployMesh.RunCheckedWorld.stopReachesTarget_fails_of_cancel`: a cancelled job goes on
  writing.
-/

namespace EasyDeployMesh

open Foundations

/-! ### The loop -/

/-- The errors of `run_checked`. -/
inductive RunError
  | setProcessSuspended (suspended : Bool) (status : Int32)
  | unexpectedState (state : JobState)
  | tryWait (source : String)
  | exited (status : UInt32)
  deriving DecidableEq

/-- Before the process is started, while it is awaited, and after `run_checked` has returned. -/
inductive RunnerState
  | idle
  | waiting (suspended : Bool)
  | returned (result : Except RunError Unit) (killed : Bool)
  deriving DecidableEq

/-- `status` is the `NTSTATUS` of the call. -/
def setProcessSuspended (suspended : Bool) (status : Int32) : Except RunError Unit :=
  if status < 0 then .error (.setProcessSuspended suspended status) else .ok ()

/-- The end of a pass: `exit` is what `try_wait` answers. -/
def awaitExit (suspended : Bool) (exit : Except String (Option UInt32)) : RunnerState :=
  match exit with
  | .error source => .returned (.error (.tryWait source)) false
  | .ok none => .waiting suspended
  | .ok (some status) =>
    if status = 0 then .returned (.ok ()) false else .returned (.error (.exited status)) false

/-- One pass of the loop of `run_checked`, with the answer of `control_state`. -/
def runCheckedPass (suspended : Bool) (requestedState : Except RequestError JobState)
    (status : Int32) (exit : Except String (Option UInt32)) : RunnerState :=
  match requestedState with
  -- Keeps the last applied process state during a transient control-plane outage.
  | .error _ => .waiting suspended
  | .ok .paused =>
    if suspended then awaitExit suspended exit
    else match setProcessSuspended true status with
      | .error error => .returned (.error error) true
      | .ok () => awaitExit true exit
  | .ok .running =>
    if !suspended then awaitExit suspended exit
    else match setProcessSuspended false status with
      | .error error => .returned (.error error) true
      | .ok () => awaitExit false exit
  | .ok state => .returned (.error (.unexpectedState state)) true

/-- `run_checked` has killed the process and returned an error. -/
def RunnerState.isKilled : RunnerState → Bool
  | returned (.error _) killed => killed
  | _ => false

@[simp] theorem isKilled_waiting (suspended : Bool) :
    (RunnerState.waiting suspended).isKilled = false := rfl

@[simp] theorem isKilled_returned_error (error : RunError) (killed : Bool) :
    (RunnerState.returned (.error error) killed).isKilled = killed := rfl

/-- The state of the job for which a pass switches the process. -/
def switchedState (suspended : Bool) : JobState := if suspended then .running else .paused

@[simp] theorem isKilled_awaitExit (suspended : Bool) (exit : Except String (Option UInt32)) :
    (awaitExit suspended exit).isKilled = false := by
  unfold awaitExit
  split
  · rfl
  · rfl
  · split_ifs <;> rfl

/-- The process is killed when the answer is a state other than running and paused, or when the
process cannot be switched to the state that was asked for. -/
theorem isKilled_runCheckedPass_iff {suspended : Bool}
    {requestedState : Except RequestError JobState} {status : Int32}
    {exit : Except String (Option UInt32)} :
    (runCheckedPass suspended requestedState status exit).isKilled = true ↔
      ∃ state, requestedState = .ok state ∧
        (state.isActive = false ∨ state = switchedState suspended ∧ status < 0) := by
  unfold runCheckedPass setProcessSuspended
  cases requestedState with
  | error error => simp
  | ok state =>
    cases state <;> cases suspended <;> by_cases hstatus : status < 0 <;>
      simp [JobState.isActive, switchedState, hstatus]

/-! ### Runs -/

/-- The host and the process runner of one Agent. -/
structure RunCheckedWorld where
  plane : ControlPlane
  runner : RunnerState

/-- What happens to the host and to the process runner. -/
inductive RunCheckedEvent
  /-- A call on the repository, by the operator or by another client. -/
  | jobs (e : JobEvent)
  /-- Devices register, report and are removed. -/
  | registry (registry : DeviceRegistry)
  /-- `run_checked` starts a process. -/
  | spawn
  /-- One pass of the loop. -/
  | poll (delivery : Delivery) (now : Instant) (write : WriteOutcome) (status : Int32)
      (exit : Except String (Option UInt32))

/-- The Agent receives an answer to this poll. -/
def RunCheckedEvent.isAnswered : RunCheckedEvent → Bool
  | poll .answered .. => true
  | _ => false

namespace RunCheckedWorld

/-- No process runs, over an empty repository. -/
def empty (manifestPath : String) (clock : Instant) (registry : DeviceRegistry) :
    RunCheckedWorld where
  plane := .empty manifestPath clock registry
  runner := .idle

section

variable (digest : String → String) (registration : AgentRegistration) (lease : AgentJobLease)

/-- `control_state`: what the Agent sees, and the control plane after the request. -/
def controlState (plane : ControlPlane) (delivery : Delivery) (now : Instant)
    (write : WriteOutcome) : Option (Except RequestError JobState × ControlPlane) :=
  if delivery = .requestLost then some (.error .transport, plane)
  else (plane.control digest (registration.jobRequest lease lease.leaseId) now write).map
    fun (response, plane) =>
      (delivery.receive (response.errorForStatus.bind HttpResponse.json), plane)

/-- One event on the host, on the registry or on the runner; only an idle runner starts a
process. -/
def step (w : RunCheckedWorld) : RunCheckedEvent → Option RunCheckedWorld
  | .jobs e => (w.plane.call (some e)).map fun plane => { w with plane }
  | .registry registry => some { w with plane := { w.plane with registry } }
  | .spawn =>
    match w.runner with
    | .waiting _ => none
    | .idle | .returned .. => some { w with runner := .waiting false }
  | .poll delivery now write status exit =>
    match w.runner with
    | .waiting suspended =>
      (controlState digest registration lease w.plane delivery now write).map
        fun (requestedState, plane) =>
          { plane, runner := runCheckedPass suspended requestedState status exit }
    | .idle | .returned .. => none

/-- The operator moves the leased job from running or paused to cancelled or failed. -/
def StopsJob (w : RunCheckedWorld) (e : RunCheckedEvent) : Prop :=
  ∃ nextState now, e = .jobs (.transition lease.jobId nextState now .written) ∧
    (nextState = .cancelled ∨ nextState = .failed) ∧
    ∃ job ∈ w.plane.jobs.repo.jobs, job.id = lease.jobId ∧ job.operation ≠ .installLinux ∧
      job.state.isActive = true ∧ job.leaseId = some lease.leaseId

/-- Along the run of `es` from `w`, the operator stops the job while a process is awaited, and
`poll` is the first answered poll after that: it leads from `u` to `v`. -/
def FirstPollAfterStop (w : RunCheckedWorld) (es : List RunCheckedEvent) (u : RunCheckedWorld)
    (poll : RunCheckedEvent) (v : RunCheckedWorld) : Prop :=
  ∃ pre stop mid post m n suspended, es = pre ++ stop :: (mid ++ poll :: post) ∧
    Leads (step digest registration lease) w pre m ∧ m.runner = .waiting suspended ∧
    StopsJob lease m stop ∧ step digest registration lease m stop = some n ∧
    Leads (step digest registration lease) n mid u ∧ (∀ e ∈ mid, e.isAnswered = false) ∧
    poll.isAnswered = true ∧ step digest registration lease u poll = some v

/-- The first answered poll after a stop kills the process and returns an error. -/
def StopReachesTarget (w : RunCheckedWorld) (es : List RunCheckedEvent) : Prop :=
  ∀ u poll v, FirstPollAfterStop digest registration lease w es u poll v → v.runner.isKilled = true

/-- The stop is gone: the job is running or paused again under the same lease, the poll renews the
lease, the process is not in the state of the job, and Windows refuses to switch it. -/
def RefusesSwitch (u : RunCheckedWorld) (poll : RunCheckedEvent) : Prop :=
  ∃ now write status exit suspended job put,
    poll = .poll .answered now write status exit ∧ u.runner = .waiting suspended ∧
    (registration.deviceToken ≠ "" ∧ u.plane.registry.authenticate digest registration.deviceId
      registration.deviceToken = .ok ()) ∧
    focus (fun job => job.id == lease.jobId) u.plane.jobs.repo.jobs = some (job, put) ∧
    job.checkControlLease registration.deviceId lease.leaseId = .ok () ∧
    (job.leaseIsFresh (minutes jobLeaseMinutes) now = true ∨ write = .written) ∧
    job.state = switchedState suspended ∧ status < 0

end

variable {digest : String → String} {registration : AgentRegistration} {lease : AgentJobLease}
  {w u v : RunCheckedWorld} {poll : RunCheckedEvent} {es : List RunCheckedEvent}

/-- An answered poll tells the Agent what the endpoint answers. -/
theorem controlState_answered {plane plane' : ControlPlane} {now : Instant} {write : WriteOutcome}
    {requestedState : Except RequestError JobState}
    (h : controlState digest registration lease plane .answered now write =
      some (requestedState, plane')) :
    requestedState = (jobControlState digest plane.registry plane.jobs.repo
      (registration.jobRequest lease lease.leaseId) now write).1.mapError
        fun error => .status error.status := by
  simp only [controlState, reduceCtorEq, if_false, Option.map_eq_some_iff,
    ControlPlane.control] at h
  obtain ⟨⟨response, plane''⟩, ⟨after, -, hresponse⟩, hreceive⟩ := h
  obtain ⟨rfl, -⟩ := Prod.mk.inj hresponse
  obtain ⟨rfl, -⟩ := Prod.mk.inj hreceive
  exact HttpResponse.json_errorForStatus_ofResult (by decide) _

/-- A poll whose answer is lost is an error to the Agent. -/
theorem controlState_lost {plane plane' : ControlPlane} {delivery : Delivery} {now : Instant}
    {write : WriteOutcome} {requestedState : Except RequestError JobState}
    (hlost : delivery ≠ .answered)
    (h : controlState digest registration lease plane delivery now write =
      some (requestedState, plane')) : requestedState = .error .transport := by
  cases delivery with
  | requestLost =>
    obtain ⟨rfl, -⟩ := Prod.mk.inj (Option.some.inj h)
    rfl
  | responseLost =>
    simp only [controlState, reduceCtorEq, if_false, Option.map_eq_some_iff] at h
    obtain ⟨_, -, hreceive⟩ := h
    exact (Prod.mk.inj hreceive).1.symm
  | answered => exact absurd rfl hlost

/-- An answered poll kills the process exactly when the stop is gone and Windows refuses the
switch. -/
theorem isKilled_of_poll_iff (hanswered : poll.isAnswered = true)
    (hstep : step digest registration lease u poll = some v) :
    v.runner.isKilled = true ↔ RefusesSwitch digest registration lease u poll := by
  cases poll with
  | jobs | registry | spawn => simp [RunCheckedEvent.isAnswered] at hanswered
  | poll delivery now write status exit =>
    cases delivery with
    | requestLost | responseLost => simp [RunCheckedEvent.isAnswered] at hanswered
    | answered =>
      simp only [step] at hstep
      split at hstep
      · rename_i suspended hrunner
        obtain ⟨⟨requestedState, plane⟩, hcontrol, rfl⟩ := Option.map_eq_some_iff.1 hstep
        obtain rfl := controlState_answered hcontrol
        simp only [isKilled_runCheckedPass_iff, mapError_eq_ok_iff, jobControlState_eq_ok_iff]
        constructor
        · rintro ⟨_, ⟨_, _, job, put, hids, hfocus, hcheck, hrenewed, rfl⟩,
            hinactive | ⟨hswitch, hstatus⟩⟩
          · have hactive := (DeploymentJob.checkControlLease_eq_ok_iff.1 hcheck).2.2.1
            simp [hactive] at hinactive
          · obtain ⟨hauth, rfl, rfl⟩ := ids_jobRequest_eq_ok_iff.1 hids
            exact ⟨now, write, status, exit, suspended, job, put, rfl, hrunner, hauth,
              hfocus, hcheck, hrenewed, hswitch, hstatus⟩
        · rintro ⟨_, _, _, _, _, job, put, heq, hrunner', hauth, hfocus, hcheck, hrenewed, hswitch,
            hstatus⟩
          cases heq
          obtain rfl := RunnerState.waiting.inj (hrunner.symm.trans hrunner')
          exact ⟨job.state, ⟨registration.deviceId, lease.jobId, job, put,
            ids_jobRequest_eq_ok_iff.2 ⟨hauth, rfl, rfl⟩, hfocus, hcheck, hrenewed, rfl⟩,
            Or.inr ⟨hswitch, hstatus⟩⟩
      · simp at hstep
      · simp at hstep

/-- A stop reaches the process along a run exactly when the first answered poll after it finds the
stop undone and cannot switch the process. -/
theorem stopReachesTarget_iff : StopReachesTarget digest registration lease w es ↔
    ∀ u poll v, FirstPollAfterStop digest registration lease w es u poll v →
      RefusesSwitch digest registration lease u poll := by
  constructor
  · intro h u poll v hfirst
    obtain ⟨_, _, _, _, _, _, _, -, -, -, -, -, -, -, hanswered, hstep⟩ := id hfirst
    exact (isKilled_of_poll_iff hanswered hstep).1 (h u poll v hfirst)
  · intro h u poll v hfirst
    obtain ⟨_, _, _, _, _, _, _, -, -, -, -, -, -, -, hanswered, hstep⟩ := id hfirst
    exact (isKilled_of_poll_iff hanswered hstep).2 (h u poll v hfirst)

/-- While the job stays stopped, no poll ends the wait: a refused poll counts as an outage. -/
theorem runner_of_poll_of_stopped {suspended : Bool} (hrunner : u.runner = .waiting suspended)
    (hstopped : ∀ job ∈ u.plane.jobs.repo.jobs, job.id = lease.jobId → job.state.isActive = false)
    {delivery : Delivery} {now : Instant} {write : WriteOutcome} {status : Int32}
    {exit : Except String (Option UInt32)}
    (hstep : step digest registration lease u (.poll delivery now write status exit) = some v) :
    v.runner = .waiting suspended := by
  simp only [step, hrunner] at hstep
  obtain ⟨⟨requestedState, plane⟩, hcontrol, rfl⟩ := Option.map_eq_some_iff.1 hstep
  cases hrequested : requestedState with
  | error error => rfl
  | ok state =>
    have hanswered : delivery = .answered := by
      by_contra hlost
      simp [controlState_lost hlost hcontrol] at hrequested
    subst hanswered
    obtain ⟨_, _, job, put, hids, hfocus, hcheck, -⟩ := jobControlState_eq_ok_iff.1
      (mapError_eq_ok_iff.1 ((controlState_answered hcontrol).symm.trans hrequested))
    obtain ⟨-, -, rfl⟩ := ids_jobRequest_eq_ok_iff.1 hids
    obtain ⟨_, _, hjobs, -, hid, -⟩ := focus_eq_some_iff.1 hfocus
    have hactive := (DeploymentJob.checkControlLease_eq_ok_iff.1 hcheck).2.2.1
    rw [hstopped job (by simp [hjobs]) (by simpa using hid)] at hactive
    exact absurd hactive (by decide)

end RunCheckedWorld

/-! ### A cancelled deployment -/

/-- The record of the machine of `windowsRequest`. -/
def agentRecord : DeviceRecord where
  device := (labInventory "02:00:00:00:00:07").toDevice 7 "192.0.2.27" 0
  agentVersion := "0.1.0"
  firstSeenAt := 0
  tokenDigest := deviceDigest (generateSecret "easydeploymesh_device" 11 12)

/-- The machine of `windowsRequest` is registered. -/
def agentRegistry : DeviceRegistry where
  manifestPath := "devices.json"
  devices := [agentRecord]
  manifestFile :=
    .complete { schemaVersion := deviceManifestSchemaVersion, devices := [agentRecord] }

/-- The answer of the host to the registration of the Agent of the example. -/
def agentRegistration : AgentRegistration where
  deviceId := 7
  deviceToken := generateSecret "easydeploymesh_device" 11 12
  heartbeatIntervalSeconds := defaultHeartbeatIntervalSeconds

/-- The lease 2 of the job 1 of `windowsRequest`. -/
def agentLease : AgentJobLease where
  jobId := 1
  leaseId := 2
  expiresAt := minutes 121
  operation := .deployWim
  image :=
    { id := 9, name := "Windows 11", format := .wim, sizeBytes := 5000000000,
      sha256 := "7804a56a5c7636cc05814736f44139e32920810d3bd51aa099a5df932e754ce9",
      downloadUrl := "/api/v1/agents/7/jobs/1/image?leaseId=2", index := 1 }
  target :=
    { deviceId := 7, targetDiskId := "\\\\.\\PHYSICALDRIVE0", targetDiskModel := "NVMe",
      targetDiskSerial := some "S-1", targetDiskSizeBytes := 256000000000 }
  partitionPlan := PartitionPlan.uefiGpt
  gho := none

/-- The job is leased, and the Agent waits for a process. -/
def waitingEvents : List RunCheckedEvent :=
  [.jobs (.enqueue windowsRequest 0 1 .written),
   .jobs (.leaseForDeviceIf 7 (minutes 120) (fun _ => true) (minutes 1) 2 .written),
   .spawn,
   .poll .answered (minutes 2) .written 0 (.ok none)]

/-- The operator cancels the job. -/
def cancelEvent : RunCheckedEvent := .jobs (.transition 1 .cancelled (minutes 3) .written)

/-- The Agent receives the answer to its next poll. -/
def cancelledPoll : RunCheckedEvent := .poll .answered (minutes 4) .written 0 (.ok none)

namespace RunCheckedWorld

private theorem waitingEvents_end :
    (runFrom (step deviceDigest agentRegistration agentLease) (empty "jobs.json" 0 agentRegistry)
      waitingEvents).map (fun w => (decide (w.runner = .waiting false),
        w.plane.jobs.repo.jobs.any fun job => job.id == 1 && job.operation != .installLinux &&
          job.state == .running && job.leaseId == some 2)) = some (true, true) := by
  decide +kernel

private theorem cancelEvents_end :
    (runFrom (step deviceDigest agentRegistration agentLease) (empty "jobs.json" 0 agentRegistry)
      (waitingEvents ++ cancelEvent :: [cancelledPoll])).map (fun w => w.runner) =
      some (.waiting false) := by
  decide +kernel

/-- The process of a cancelled job is not killed by the answered poll, and `run_checked` waits
on. -/
theorem stopReachesTarget_fails_of_cancel :
    ¬ StopReachesTarget deviceDigest agentRegistration agentLease
      (empty "jobs.json" 0 agentRegistry) (waitingEvents ++ cancelEvent :: [cancelledPoll]) := by
  intro hlaw
  obtain ⟨v, hv, hrunner⟩ := exists_leads_of_map cancelEvents_end
  obtain ⟨m, u, hm, hstop, hu⟩ := Leads.split hv
  obtain ⟨v', hpoll, hend⟩ := leads_cons.1 hu
  obtain rfl := leads_nil.1 hend
  obtain ⟨m', hm', hwaits⟩ := exists_leads_of_map waitingEvents_end
  obtain rfl := hm.unique hm'
  obtain ⟨hwaiting, hjob⟩ := Prod.mk.inj hwaits
  simp only [List.any_eq_true, Bool.and_eq_true, beq_iff_eq, bne_iff_ne, ne_eq] at hjob
  obtain ⟨job, hjob, ⟨⟨hid, hwindows⟩, hstate⟩, hlease⟩ := hjob
  have hkilled := hlaw u cancelledPoll _ ⟨waitingEvents, cancelEvent, [], [], m, u, false, rfl, hm,
    of_decide_eq_true hwaiting, ⟨.cancelled, minutes 3, rfl, Or.inl rfl, job, hjob, hid, hwindows,
      by rw [hstate]; rfl, hlease⟩, hstop, leads_nil.2 rfl, by simp, rfl, hpoll⟩
  rw [hrunner] at hkilled
  exact absurd hkilled (by decide)

end RunCheckedWorld

end EasyDeployMesh
