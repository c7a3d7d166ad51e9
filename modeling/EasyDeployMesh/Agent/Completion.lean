import EasyDeployMesh.Agent.RunChecked

/-!
# Reporting the completion of a deployment

After a deployment, `execute_lease` of `crates/agent/src/main.rs` reports its result until the
report is confirmed or refused for good. Here the loop runs against the control plane: reports and
their answers get lost, a report that the Agent has given up may still arrive, and other clients
call the repository.

## Main definitions

* `EasyDeployMesh.reportPass`: one pass of the loop.
* `EasyDeployMesh.CompletionWorld`, `EasyDeployMesh.CompletionWorld.step`.
* `EasyDeployMesh.CompletionWorld.CompletionSurvives`: a report that arrives after the repository
  has applied the completion is answered with a confirmation, and the Agent does not stop after the
  deployment has been recorded as succeeded.

## Main results

* `EasyDeployMesh.CompletionWorld.completionSurvives_iff`: when this holds along a run.
* `EasyDeployMesh.CompletionWorld.completionSurvives_fails_of_lostResponse`: one lost answer stops
  the Agent.
-/

namespace EasyDeployMesh

open Foundations

/-! ### The loop -/

/-- What the Agent is doing about the lease. -/
inductive LeaseState
  | deploying
  | reporting
  /-- The completion is confirmed after a success. -/
  | rebooting
  /-- The completion is confirmed after a failure, and the Agent goes on. -/
  | continuing
  /-- The Agent stops before it claims another job. -/
  | unconfirmed (error : RequestError)
  deriving DecidableEq

/-- The lease of the Agent ended with a result that the host has not acknowledged. -/
def LeaseState.isUnconfirmed : LeaseState → Bool
  | unconfirmed _ => true
  | _ => false

/-- The report of the result of a deployment. -/
def AgentJobLease.completion (lease : AgentJobLease) (result : Except String Unit) :
    AgentJobCompletion where
  leaseId := lease.leaseId
  succeeded := result.isOk
  errorMessage := match result with
    | .ok () => none
    | .error error => some error

/-- The state after the completion has been confirmed. -/
def LeaseState.confirmed (result : Except String Unit) : LeaseState :=
  if result.isOk then .rebooting else .continuing

/-- One pass of the loop, with what the Agent sees of the answer to its report. -/
def reportPass (result : Except String Unit) (response : Except RequestError Unit) : LeaseState :=
  match response with
  | .ok () => .confirmed result
  | .error error => if isTransientRequestError error then .reporting else .unconfirmed error

/-! ### Runs -/

/-- The host and the lease of one Agent. -/
structure CompletionWorld where
  plane : ControlPlane
  agent : LeaseState

/-- What happens to the host and to the Agent. -/
inductive CompletionEvent
  /-- A call on the repository by another client. -/
  | jobs (e : JobEvent)
  /-- Devices register, report and are removed. -/
  | registry (registry : DeviceRegistry)
  /-- The deployment returns its result. -/
  | finished
  /-- A report of the completion is sent, or one that was sent arrives. -/
  | report (delivery : Delivery) (now later : Instant) (write : WriteOutcome)

/-! ### A completed lease -/

namespace RepositoryWorld

variable {w w' : RepositoryWorld} {e : JobEvent} {jobId leaseId : Uuid}

/-- The lease was minted, and its job does not record it any more. -/
structure LeaseRetired (w : RepositoryWorld) (jobId leaseId : Uuid) : Prop where
  minted : leaseId ∈ w.minted
  job : ∀ job ∈ w.repo.jobs, job.id = jobId → job.leaseId ≠ some leaseId

theorem LeaseRetired.not_holds (h : w.LeaseRetired jobId leaseId) : ¬ w.repo.Holds jobId leaseId :=
  fun ⟨job, hjob, hid, _, _, hlease⟩ => h.job job hjob hid hlease

/-- A lease is not minted twice, so it stays retired. -/
theorem LeaseRetired.of_step (h : w.LeaseRetired jobId leaseId) (hw : w.Coherent)
    (hstep : w.step e = some w') : w'.LeaseRetired jobId leaseId where
  minted := minted_subset hstep h.minted
  job job hjob hid hlease := by
    rcases hw.lease_after_cases hstep hjob hlease with ⟨old, hold, hsame, hlease⟩ | ⟨hmint, -⟩
    · exact h.job old hold (hsame.id.symm.trans hid) hlease
    · exact notMem_minted_of_mint hstep hmint h.minted

/-- An accepted completion retires its lease. -/
theorem Coherent.leaseRetired_of_complete (hw : w.Coherent) {deviceId : Uuid} {succeeded : Bool}
    {errorMessage : Option String} {now later : Instant} {write : WriteOutcome}
    {job : DeploymentJob}
    (hok : (w.repo.complete jobId deviceId leaseId succeeded errorMessage now later write).1 =
      .ok job)
    (hstep : w.step (.complete jobId deviceId leaseId succeeded errorMessage now later write) =
      some w') : w'.LeaseRetired jobId leaseId := by
  have hrepo : (w.repo.complete jobId deviceId leaseId succeeded errorMessage now later write).2 =
      w'.repo := Option.some.inj (step_eq_some_iff.1 hstep).2.1
  obtain ⟨-, old, hold, hsame, hedge, hreplaces⟩ := JobRepository.complete_accepted hok
  rw [hrepo] at hreplaces
  cases hedge with
  | finish hid hcheck _ hnone =>
    have hlease := (DeploymentJob.checkAgentLease_eq_ok_iff.1 hcheck).2.2.2.1
    refine ⟨minted_subset hstep ((hw.jobs.job old hold).lease_minted leaseId hlease), ?_⟩
    intro other hother hother' hrecorded
    obtain rfl := (hw.of_step hstep).jobs.eq_of_id_eq hother hreplaces.mem_new
      (hother'.trans (hsame.id.trans hid).symm)
    simp [hnone] at hrecorded

end RepositoryWorld

namespace CompletionWorld

/-- A deployment is under way, over an empty repository. -/
def empty (manifestPath : String) (clock : Instant) (registry : DeviceRegistry) :
    CompletionWorld where
  plane := .empty manifestPath clock registry
  agent := .deploying

section

variable (digest : String → String) (registration : AgentRegistration) (lease : AgentJobLease)
  (result : Except String Unit)

/-- What the control plane answers to a report, as the Agent reads it, and the call that the report
makes on the repository. -/
def report (plane : ControlPlane) (now later : Instant) (write : WriteOutcome) :
    Except RequestError Unit × Option JobEvent :=
  let (completed, event) := completeJob digest plane.registry plane.jobs.repo
    (registration.jobRequest lease (lease.completion result)) now later write
  ((HttpResponse.ofResult 204 completed).errorForStatus.map fun _ => (), event)

/-- The call on the repository that a step consists of, if it is one. -/
def jobEvent (w : CompletionWorld) : CompletionEvent → Option JobEvent
  | .jobs e => some e
  | .report .responseLost now later write | .report .answered now later write =>
    (report digest registration lease result w.plane now later write).2
  | .registry _ | .finished | .report .requestLost .. => none

/-- The state of the Agent after an event. -/
def agentAfter (w : CompletionWorld) : CompletionEvent → Option LeaseState
  | .jobs _ | .registry _ => some w.agent
  | .finished => if w.agent = .deploying then some .reporting else none
  | .report .requestLost .. =>
    if w.agent = .reporting then some (reportPass result (.error .transport)) else none
  -- The Agent has seen a timeout, and may have sent another report since.
  | .report .responseLost .. => if w.agent = .deploying then none else some w.agent
  | .report .answered now later write =>
    if w.agent = .reporting then
      some (reportPass result (report digest registration lease result w.plane now later write).1)
    else none

/-- The registry after an event. -/
def registryAfter (w : CompletionWorld) : CompletionEvent → DeviceRegistry
  | .registry registry => registry
  | _ => w.plane.registry

/-- One event: the Agent reads the answer of the host as it stands before the call takes effect. -/
def step (w : CompletionWorld) (e : CompletionEvent) : Option CompletionWorld :=
  (agentAfter digest registration lease result w e).bind fun agent =>
    (w.plane.call (jobEvent digest registration lease result w e)).map fun plane =>
      { plane := { plane with registry := registryAfter w e }, agent }

/-- The step is an accepted call of `complete` with the lease. -/
def Completes (w : CompletionWorld) (e : CompletionEvent) : Prop :=
  ∃ deviceId succeeded errorMessage now later write job,
    jobEvent digest registration lease result w e =
      some (.complete lease.jobId deviceId lease.leaseId succeeded errorMessage now later write) ∧
    (w.plane.jobs.repo.complete lease.jobId deviceId lease.leaseId succeeded errorMessage now later
      write).1 = .ok job

/-- The deployment is recorded as succeeded. -/
def RecordedSucceeded (w : CompletionWorld) : Prop :=
  ∃ job ∈ w.plane.jobs.repo.jobs, job.id = lease.jobId ∧ job.state = .succeeded

/-- Along the run of `es` from `w`: a report that arrives after the completion has been applied is
answered with a confirmation, and while the deployment is recorded as succeeded the Agent does not
stop with an unconfirmed completion. -/
structure CompletionSurvives (w : CompletionWorld) (es : List CompletionEvent) : Prop where
  confirmed : ∀ pre delivery now later write post m n,
    es = pre ++ .report delivery now later write :: post →
    Leads (step digest registration lease result) w pre m →
    step digest registration lease result m (.report delivery now later write) = some n →
    Sometime (step digest registration lease result) (Completes digest registration lease result)
      w pre →
    delivery ≠ .requestLost →
    reportPass result (report digest registration lease result m.plane now later write).1 =
      .confirmed result
  proceeds : ∀ pre e post m n, es = pre ++ e :: post →
    Leads (step digest registration lease result) w pre m →
    step digest registration lease result m e = some n → m.RecordedSucceeded lease →
    m.agent.isUnconfirmed = false → n.agent.isUnconfirmed = false

/-- Along the run of `es` from `w`, no report arrives once the completion has been applied, and the
Agent receives no answer to a report while the deployment is recorded as succeeded. -/
def NoneArrivesLate (w : CompletionWorld) (es : List CompletionEvent) : Prop :=
  ∀ pre delivery now later write post m n, es = pre ++ .report delivery now later write :: post →
    Leads (step digest registration lease result) w pre m →
    step digest registration lease result m (.report delivery now later write) = some n →
    (delivery ≠ .requestLost → ¬ Sometime (step digest registration lease result)
      (Completes digest registration lease result) w pre) ∧
    (delivery = .answered → ¬ m.RecordedSucceeded lease)

end

variable {digest : String → String} {registration : AgentRegistration} {lease : AgentJobLease}
  {result : Except String Unit} {w w' m n : CompletionWorld} {e : CompletionEvent}
  {es : List CompletionEvent}

theorem step_eq_some_iff : step digest registration lease result w e = some w' ↔
    agentAfter digest registration lease result w e = some w'.agent ∧
      (jobEvent digest registration lease result w e).elim (some w.plane.jobs) w.plane.jobs.step =
        some w'.plane.jobs ∧ w'.plane.registry = registryAfter w e := by
  simp only [step, ControlPlane.call, Option.bind_eq_some_iff, Option.map_map,
    Option.map_eq_some_iff, Function.comp_apply]
  constructor
  · rintro ⟨agent, hagent, jobs, hjobs, rfl⟩
    exact ⟨hagent, hjobs, rfl⟩
  · rintro ⟨hagent, hjobs, hregistry⟩
    exact ⟨w'.agent, hagent, w'.plane.jobs, hjobs, by rw [← hregistry]⟩

/-- A step is at most one step of the repository. -/
theorem jobs_of_step (h : step digest registration lease result w e = some w') :
    (jobEvent digest registration lease result w e = none ∧ w'.plane.jobs = w.plane.jobs) ∨
      ∃ event, jobEvent digest registration lease result w e = some event ∧
        w.plane.jobs.step event = some w'.plane.jobs := by
  obtain ⟨-, hjobs, -⟩ := step_eq_some_iff.1 h
  cases hevent : jobEvent digest registration lease result w e with
  | none =>
    rw [hevent] at hjobs
    exact Or.inl ⟨rfl, (Option.some.inj hjobs).symm⟩
  | some event =>
    rw [hevent] at hjobs
    exact Or.inr ⟨event, rfl, hjobs⟩

theorem coherent_of_step (hw : w.plane.jobs.Coherent)
    (h : step digest registration lease result w e = some w') : w'.plane.jobs.Coherent := by
  rcases jobs_of_step h with ⟨-, heq⟩ | ⟨event, -, hstep⟩
  · exact heq ▸ hw
  · exact hw.of_step hstep

/-- Once a completion has been applied, its lease is retired. -/
theorem leaseRetired_of_sometime (hw : w.plane.jobs.Coherent)
    (hrun : Leads (step digest registration lease result) w es w')
    (happlied : Sometime (step digest registration lease result)
      (Completes digest registration lease result) w es) :
    w'.plane.jobs.LeaseRetired lease.jobId lease.leaseId := by
  obtain ⟨pre, e, post, m, rfl, hm, hcompletes⟩ := happlied
  obtain ⟨m', n, hm', hstep, hpost⟩ := hrun.split
  obtain rfl := hm.unique hm'
  have hcoherent : m.plane.jobs.Coherent := hm.invariant hw fun _ _ _ => coherent_of_step
  have hretired : n.plane.jobs.LeaseRetired lease.jobId lease.leaseId := by
    obtain ⟨deviceId, succeeded, errorMessage, now, later, write, job, hevent, hok⟩ := hcompletes
    rcases jobs_of_step hstep with ⟨hnone, -⟩ | ⟨event, hsome, hjobs⟩
    · simp [hevent] at hnone
    · obtain rfl := Option.some.inj (hevent.symm.trans hsome)
      exact hcoherent.leaseRetired_of_complete hok hjobs
  refine (hpost.invariant (I := fun x => x.plane.jobs.Coherent ∧
    x.plane.jobs.LeaseRetired lease.jobId lease.leaseId)
    ⟨coherent_of_step hcoherent hstep, hretired⟩ ?_).2
  rintro x f y ⟨hx, hretired⟩ hstep
  refine ⟨coherent_of_step hx hstep, ?_⟩
  rcases jobs_of_step hstep with ⟨-, heq⟩ | ⟨event, -, hjobs⟩
  · exact heq ▸ hretired
  · exact hretired.of_step hx hjobs

/-- A job that is recorded as succeeded holds no lease. -/
theorem RecordedSucceeded.not_holds (hw : w.plane.jobs.Coherent) (h : w.RecordedSucceeded lease) :
    ¬ w.plane.jobs.repo.Holds lease.jobId lease.leaseId := by
  rintro ⟨holder, hholder, hid, -, hactive, -⟩
  obtain ⟨job, hjob, hid', hstate⟩ := h
  obtain rfl := hw.jobs.eq_of_id_eq hholder hjob (hid.trans hid'.symm)
  rw [hstate] at hactive
  exact absurd hactive (by decide)

/-- The report of a lease that its job does not hold is refused for good. -/
theorem reportPass_of_not_holds (digest : String → String) (registration : AgentRegistration)
    (result : Except String Unit) {plane : ControlPlane} (now later : Instant)
    (write : WriteOutcome) (h : ¬ plane.jobs.repo.Holds lease.jobId lease.leaseId) :
    ∃ error, reportPass result
      (report digest registration lease result plane now later write).1 = .unconfirmed error := by
  cases hcompleted : (completeJob digest plane.registry plane.jobs.repo
      (registration.jobRequest lease (lease.completion result)) now later write).1 with
  | ok u =>
    obtain ⟨_, _, job, hids, hjob⟩ := completeJob_eq_ok_iff.1 hcompleted
    obtain ⟨-, -, rfl⟩ := ids_jobRequest_eq_ok_iff.1 hids
    exact absurd (JobRepository.Accepts.completed hjob).holds h
  | error error =>
    have hpermanent : isTransientRequestError (.status error.status) = false :=
      not_isTransientRequestError_of_status (status_of_completeJob_eq_error hcompleted)
    refine ⟨.status error.status, ?_⟩
    simp [report, hcompleted, HttpResponse.errorForStatus_error, Except.map, reportPass, hpermanent]

private theorem confirmed_ne_unconfirmed (error : RequestError) :
    LeaseState.confirmed result ≠ .unconfirmed error := by
  unfold LeaseState.confirmed
  split_ifs <;> simp

/-- An answered report is sent while the Agent reports, and ends its pass. -/
private theorem agent_of_answered {now later : Instant} {write : WriteOutcome}
    (h : step digest registration lease result m (.report .answered now later write) = some n) :
    m.agent = .reporting ∧ n.agent = reportPass result
      (report digest registration lease result m.plane now later write).1 := by
  obtain ⟨hagent, -⟩ := step_eq_some_iff.1 h
  simp only [agentAfter] at hagent
  split_ifs at hagent with hreporting
  exact ⟨hreporting, (Option.some.inj hagent).symm⟩

/-- Only an answered report makes the Agent stop. -/
private theorem isUnconfirmed_of_step
    (h : step digest registration lease result m e = some n)
    (hanswered : ∀ now later write, e ≠ .report .answered now later write)
    (hagent : m.agent.isUnconfirmed = false) : n.agent.isUnconfirmed = false := by
  obtain ⟨hafter, -⟩ := step_eq_some_iff.1 h
  cases e with
  | jobs | registry => rwa [← Option.some.inj hafter]
  | finished =>
    simp only [agentAfter] at hafter
    split_ifs at hafter
    rw [← Option.some.inj hafter]
    rfl
  | report delivery now later write =>
    cases delivery with
    | requestLost =>
      simp only [agentAfter] at hafter
      split_ifs at hafter
      rw [← Option.some.inj hafter]
      rfl
    | responseLost =>
      simp only [agentAfter] at hafter
      split_ifs at hafter
      rwa [← Option.some.inj hafter]
    | answered => exact absurd rfl (hanswered now later write)

/-- A completion survives lost answers along a run exactly when no report arrives once it has been
applied, and none is answered while the deployment is recorded as succeeded. -/
theorem completionSurvives_iff {manifestPath : String} {clock : Instant}
    {registry : DeviceRegistry} :
    CompletionSurvives digest registration lease result (empty manifestPath clock registry) es ↔
      NoneArrivesLate digest registration lease result (empty manifestPath clock registry) es := by
  have hstart : (empty manifestPath clock registry).plane.jobs.Coherent :=
    RepositoryWorld.coherent_empty manifestPath clock
  constructor
  · rintro ⟨hconfirmed, hproceeds⟩ pre delivery now later write post m n rfl hpre hstep
    refine ⟨fun hdelivery happlied => ?_, fun hanswered hrecorded => ?_⟩
    · obtain ⟨error, herror⟩ := reportPass_of_not_holds digest registration result now later write
        (leaseRetired_of_sometime hstart hpre happlied).not_holds
      have hconfirmed := hconfirmed pre delivery now later write post m n rfl hpre hstep happlied
        hdelivery
      exact confirmed_ne_unconfirmed error (hconfirmed.symm.trans herror)
    · subst hanswered
      have hcoherent : m.plane.jobs.Coherent := hpre.invariant hstart fun _ _ _ => coherent_of_step
      obtain ⟨hreporting, hagent⟩ := agent_of_answered hstep
      obtain ⟨error, herror⟩ := reportPass_of_not_holds digest registration result now later write
        (hrecorded.not_holds hcoherent)
      have hstops := hproceeds pre _ post m n rfl hpre hstep hrecorded (by rw [hreporting]; rfl)
      rw [hagent, herror] at hstops
      exact absurd hstops (by simp [LeaseState.isUnconfirmed])
  · intro hlate
    refine ⟨?_, ?_⟩
    · intro pre delivery now later write post m n hes hpre hstep happlied hdelivery
      exact absurd happlied
        ((hlate pre delivery now later write post m n hes hpre hstep).1 hdelivery)
    · intro pre e post m n hes hpre hstep hrecorded hagent
      refine isUnconfirmed_of_step hstep ?_ hagent
      rintro now later write rfl
      exact (hlate pre .answered now later write post m n hes hpre hstep).2 rfl hrecorded

/-! ### One lost answer -/

/-- The job is leased, and its deployment ends. -/
def finishedEvents : List CompletionEvent :=
  [.jobs (.enqueue windowsRequest 0 1 .written),
   .jobs (.leaseForDeviceIf 7 (minutes 120) (fun _ => true) (minutes 1) 2 .written),
   .finished]

/-- The first report arrives, and the answer to it is lost. -/
def lostResponse : CompletionEvent := .report .responseLost (minutes 30) (minutes 30) .written

/-- The Agent receives the answer to its second report. -/
def secondReport : CompletionEvent := .report .answered (minutes 31) (minutes 31) .written

/-- When the first report arrives, the Agent is authenticated and its lease is current. -/
private theorem finishedEvents_end :
    (runFrom (step deviceDigest agentRegistration agentLease (.ok ())) (empty "jobs.json" 0
      agentRegistry) finishedEvents).map (fun m =>
        (decide (m.plane.registry.authenticate deviceDigest 7 agentRegistration.deviceToken =
            .ok ()),
          decide ((m.plane.jobs.repo.authorizedLease 1 7 2 (minutes 30)).isOk))) =
      some (true, true) := by
  decide +kernel

/-- The completion is applied, and the Agent goes on reporting. -/
private theorem lostResponse_end :
    (runFrom (step deviceDigest agentRegistration agentLease (.ok ())) (empty "jobs.json" 0
      agentRegistry) (finishedEvents ++ [lostResponse])).map (fun m =>
        (m.plane.jobs.repo.jobs.any fun job => job.id == 1 && job.state == .succeeded, m.agent)) =
      some (true, .reporting) := by
  decide +kernel

private theorem secondReport_end :
    (runFrom (step deviceDigest agentRegistration agentLease (.ok ())) (empty "jobs.json" 0
      agentRegistry) ((finishedEvents ++ [lostResponse]) ++ [secondReport])).map
        (fun n => n.agent) =
      some (.unconfirmed (.status 403)) := by
  decide +kernel

/-- The lease is current when the first report arrives; its answer is lost, the deployment is
recorded as succeeded, and the Agent stops at the answer to its second report. -/
theorem completionSurvives_fails_of_lostResponse :
    (∃ m, Leads (step deviceDigest agentRegistration agentLease (.ok ()))
        (empty "jobs.json" 0 agentRegistry) finishedEvents m ∧
      m.plane.registry.authenticate deviceDigest 7 agentRegistration.deviceToken = .ok () ∧
      (m.plane.jobs.repo.authorizedLease 1 7 2 (minutes 30)).isOk = true) ∧
    ¬ CompletionSurvives deviceDigest agentRegistration agentLease (.ok ())
      (empty "jobs.json" 0 agentRegistry)
      ((finishedEvents ++ [lostResponse]) ++ [secondReport]) := by
  constructor
  · obtain ⟨m, hm, hvalid⟩ := exists_leads_of_map finishedEvents_end
    obtain ⟨hauth, hlease⟩ := Prod.mk.inj hvalid
    exact ⟨m, hm, of_decide_eq_true hauth, of_decide_eq_true hlease⟩
  · intro hlaw
    obtain ⟨n, hn, hstopped⟩ := exists_leads_of_map secondReport_end
    obtain ⟨m, hm, hstep⟩ := leads_concat.1 hn
    obtain ⟨m', hm', hlost⟩ := exists_leads_of_map lostResponse_end
    obtain rfl := hm.unique hm'
    obtain ⟨hjob, hagent⟩ := Prod.mk.inj hlost
    simp only [List.any_eq_true, Bool.and_eq_true, beq_iff_eq] at hjob
    have hproceeds := hlaw.proceeds _ secondReport [] m n rfl hm hstep hjob (by rw [hagent]; rfl)
    rw [hstopped] at hproceeds
    exact absurd hproceeds (by decide)

end CompletionWorld

end EasyDeployMesh
