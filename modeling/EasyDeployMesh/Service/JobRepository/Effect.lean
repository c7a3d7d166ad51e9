import EasyDeployMesh.Foundations.Result
import EasyDeployMesh.Service.JobRepository.World

/-!
# What a call can do to the jobs

The inversion of every call of the repository. A call leaves the jobs as they are, adds one fresh
job, rewrites one job along an edge of its life cycle, or removes one job; the write of the manifest
either puts the same list into the file or leaves the jobs under the lock unchanged. Everything that
is proved about runs of the repository is derived from these cases.

## Main definitions

* `EasyDeployMesh.SameTask`: the fields of a job that no call rewrites.
* `EasyDeployMesh.JobEdge`: the edges of the life cycle, each with the call that takes it and with
  what the call requires of the job.
* `EasyDeployMesh.JobsEdge`, `EasyDeployMesh.CallEffect`: the effect of a call on the list of jobs
  and on the repository.
* `EasyDeployMesh.JobRepository.Mirrored`: the manifest file holds the jobs under the lock.

## Main results

* `EasyDeployMesh.JobsEdge.task_cases`: where the jobs after a call come from.
* `EasyDeployMesh.JobEvent.callEffect_of_apply`: every call has one of these effects.
* `EasyDeployMesh.JobRepository.Mirrored.of_callEffect`: every call keeps the file in step.
* `EasyDeployMesh.JobRepository.editJob_eq_ok_iff`: when a call that edits one job is accepted.
-/

namespace EasyDeployMesh

open Foundations

/-- What no call rewrites in a job. -/
structure SameTask (old new : DeploymentJob) : Prop where
  id : new.id = old.id
  operation : new.operation = old.operation
  imageId : new.imageId = old.imageId
  targets : new.targets = old.targets
  options : new.options = old.options

theorem SameTask.refl (job : DeploymentJob) : SameTask job job := ⟨rfl, rfl, rfl, rfl, rfl⟩

theorem SameTask.trans {a b c : DeploymentJob} (h : SameTask a b) (h' : SameTask b c) :
    SameTask a c :=
  ⟨h'.id.trans h.id, h'.operation.trans h.operation, h'.imageId.trans h.imageId,
    h'.targets.trans h.targets, h'.options.trans h.options⟩

/-- One call rewrites the job `old` to `new`: the call, what it requires of the job, and what it
records as state, lease and expiry. -/
inductive JobEdge (old new : DeploymentJob) : JobEvent → Prop
  | transition {id : Uuid} {nextState : JobState} {now : Instant} (hid : old.id = id)
      (hcontrol : old.installerControls nextState = false)
      (hallows : old.state.allows nextState = true) (hstate : new.state = nextState)
      (hlease : new.leaseId = old.leaseId) (hexpiry : new.leaseExpiresAt = old.leaseExpiresAt) :
      JobEdge old new (.transition id nextState now .written)
  | claim {deviceId leaseId : Uuid} {duration : Duration} {isEligible : DeploymentJob → Bool}
      {now : Instant} (hclaim : old.isClaimable deviceId now = true)
      (heligible : isEligible old = true) (hstate : new.state = .running)
      (hlease : new.leaseId = some leaseId) (hexpiry : new.leaseExpiresAt = some (now + duration)) :
      JobEdge old new (.leaseForDeviceIf deviceId duration isEligible now leaseId .written)
  | markBooting {jobId deviceId imageId : Uuid} {now : Instant} (hid : old.id = jobId)
      (hawaits : old.awaitsInstaller deviceId imageId = .ok ()) (hstate : new.state = old.state)
      (hlease : new.leaseId = old.leaseId) (hexpiry : new.leaseExpiresAt = old.leaseExpiresAt) :
      JobEdge old new (.markInstallerBooting jobId deviceId imageId now .written)
  | handOff {jobId deviceId imageId leaseId : Uuid} {duration : Duration} {now : Instant}
      (hid : old.id = jobId) (hawaits : old.awaitsInstaller deviceId imageId = .ok ())
      (hstate : new.state = .running) (hlease : new.leaseId = some leaseId)
      (hexpiry : new.leaseExpiresAt = some (now + duration)) :
      JobEdge old new (.leaseInstallerJob jobId deviceId imageId duration now leaseId .written)
  | advanceInstaller {jobId deviceId leaseId : Uuid} {leaseDuration : Duration}
      {stage : DeploymentStage} {progressPercent : UInt8} {message : Option String}
      {started now later : Instant} (hid : old.id = jobId)
      (hcheck : old.checkInstallerLease deviceId leaseId now = .ok ())
      (hstate : new.state = old.state) (hlease : new.leaseId = old.leaseId)
      (hexpiry : new.leaseExpiresAt = extendExpiry (started + leaseDuration) old.leaseExpiresAt) :
      JobEdge old new (.reportInstallerProgress jobId deviceId leaseId leaseDuration stage
        progressPercent message started now later .written)
  | finishInstaller {jobId deviceId leaseId : Uuid} {succeeded : Bool}
      {errorMessage : Option String} {now later : Instant} (hid : old.id = jobId)
      (hcheck : old.checkInstallerLease deviceId leaseId now = .ok ())
      (hstate : new.state = if succeeded then .succeeded else .failed)
      (hlease : new.leaseId = none) (hexpiry : new.leaseExpiresAt = none) :
      JobEdge old new
        (.completeInstaller jobId deviceId leaseId succeeded errorMessage now later .written)
  | advance {jobId deviceId : Uuid} {leaseDuration : Duration} {progress : AgentJobProgress}
      {started now later : Instant} (hid : old.id = jobId)
      (hcheck : old.checkAgentLease deviceId progress.leaseId now = .ok ())
      (hstate : new.state = old.state) (hlease : new.leaseId = old.leaseId)
      (hexpiry : new.leaseExpiresAt = extendExpiry (started + leaseDuration) old.leaseExpiresAt) :
      JobEdge old new
        (.reportProgress jobId deviceId leaseDuration progress started now later .written)
  | finish {jobId deviceId leaseId : Uuid} {succeeded : Bool} {errorMessage : Option String}
      {now later : Instant} (hid : old.id = jobId)
      (hcheck : old.checkAgentLease deviceId leaseId now = .ok ())
      (hstate : new.state = if succeeded then .succeeded else .failed)
      (hlease : new.leaseId = none) (hexpiry : new.leaseExpiresAt = none) :
      JobEdge old new (.complete jobId deviceId leaseId succeeded errorMessage now later .written)
  | renew {jobId deviceId leaseId : Uuid} {duration : Duration} {now : Instant}
      (hid : old.id = jobId)
      (hcheck : old.checkControlLease deviceId leaseId = .ok ()) (hstate : new.state = old.state)
      (hlease : new.leaseId = old.leaseId) (hexpiry : new.leaseExpiresAt = some (now + duration)) :
      JobEdge old new (.renewControlLease jobId deviceId leaseId duration now .written)

/-- One call replaces the list of jobs by another list. -/
inductive JobsEdge (jobs : List DeploymentJob) (e : JobEvent) : List DeploymentJob → Prop
  | added (job : DeploymentJob) (target : DeploymentTarget) (hmint : e.mint = some job.id)
      (hstate : job.state = .draft ∨ job.state = .waiting) (hlease : job.leaseId = none)
      (hexpiry : job.leaseExpiresAt = none) (htargets : job.targets = [target])
      (hfree : ∀ other ∈ jobs, other.state.isTerminal = false →
        other.targetsDevice target.deviceId = false)
      (hrequest : ∃ request, e.request = some request ∧ job.imageId = request.imageId ∧
        job.targets = request.targets) : JobsEdge jobs e (jobs ++ [job])
  | edited {jobs' : List DeploymentJob} {old new : DeploymentJob} (hsame : SameTask old new)
      (hedge : JobEdge old new e) (hreplaces : Replaces jobs old new jobs') : JobsEdge jobs e jobs'
  | removed {id : Uuid} {job : DeploymentJob} (he : e = .remove id .written) (hmem : job ∈ jobs)
      (hid : job.id = id) (hdeletable : JobRepository.isDeletable job.state = true) :
      JobsEdge jobs e (jobs.filter fun job => job.id != id)

/-- What a call can do to the repository. -/
inductive CallEffect (repo : JobRepository) (e : JobEvent) : JobRepository → Prop
  | kept : CallEffect repo e repo
  /-- The write failed in the middle. -/
  | interrupted : CallEffect repo e { repo with manifestFile := .truncated }
  | committed {jobs : List DeploymentJob} (hedge : JobsEdge repo.jobs e jobs) :
      CallEffect repo e { repo with
        jobs, manifestFile := .complete { schemaVersion := manifestSchemaVersion, jobs } }
  | reopened {repo' : JobRepository} (he : e = .reopen)
      (hopen : JobRepository.openManifest repo.manifestPath repo.manifestFile = .ok repo') :
      CallEffect repo e repo'

/-- A job after a call has the task of a job before it, or it is a new job for the request. -/
theorem JobsEdge.task_cases {jobs jobs' : List DeploymentJob} {e : JobEvent}
    (h : JobsEdge jobs e jobs') {job : DeploymentJob} (hjob : job ∈ jobs') :
    (∃ old ∈ jobs, SameTask old job) ∨ ∃ request, e.request = some request ∧
      job.imageId = request.imageId ∧ job.targets = request.targets := by
  cases h with
  | added new _ _ _ _ _ _ _ hrequest =>
    rcases List.mem_append.1 hjob with hold | hnew
    · exact Or.inl ⟨job, hold, SameTask.refl job⟩
    · obtain rfl := List.mem_singleton.1 hnew
      exact Or.inr hrequest
  | edited hsame _ hreplaces =>
    rcases hreplaces.of_mem hjob with rfl | hold
    · exact Or.inl ⟨_, hreplaces.mem_old, hsame⟩
    · exact Or.inl ⟨job, hold, SameTask.refl job⟩
  | removed => exact Or.inl ⟨job, (List.mem_filter.1 hjob).1, SameTask.refl job⟩

/-! ### The edits of one job -/

/-- A checked update succeeds when the check passes and the update succeeds. -/
theorem checked_eq_ok_iff {ε α β : Type} {check : Except ε Unit} {update : Except ε α} {f : α → β}
    {b : β} : (do check; let a ← update; pure (f a)) = Except.ok (ε := ε) b ↔
      check = .ok () ∧ ∃ a, update = .ok a ∧ f a = b := by
  cases check <;> cases update <;> simp [bind, Except.bind, pure, Except.pure]

section Edits

variable {old new : DeploymentJob}

private theorem edge_of_applyTransition {id : Uuid} {nextState : JobState} {now : Instant}
    (hid : old.id = id) (h : old.applyTransition nextState now = .ok new) :
    SameTask old new ∧ JobEdge old new (.transition id nextState now .written) := by
  unfold DeploymentJob.applyTransition at h
  split at h
  · simp at h
  · rename_i hcontrol
    split at h
    · simp at h
    · rename_i state hstate
      obtain ⟨hallows, rfl⟩ := JobState.transition_eq_ok_iff.1 hstate
      have hcontrol : old.installerControls state = false := by simpa using hcontrol
      split_ifs at h <;> cases h
      · exact ⟨⟨rfl, rfl, rfl, rfl, rfl⟩, .transition hid hcontrol hallows rfl rfl rfl⟩
      · exact ⟨⟨rfl, rfl, rfl, rfl, rfl⟩, .transition hid hcontrol hallows rfl rfl rfl⟩

private theorem edge_of_claim {deviceId leaseId : Uuid} {duration : Duration}
    {isEligible : DeploymentJob → Bool} {now : Instant}
    (hclaim : old.isClaimable deviceId now = true) (heligible : isEligible old = true)
    (h : old.claim duration now leaseId = .ok new) :
    SameTask old new ∧
      JobEdge old new (.leaseForDeviceIf deviceId duration isEligible now leaseId .written) := by
  have hrunning : old.state = .waiting ∨ old.state = .running := by
    obtain ⟨-, hstate | ⟨hstate, -⟩, -⟩ := DeploymentJob.isClaimable_iff.1 hclaim
    · exact Or.inl hstate
    · exact Or.inr hstate
  have hnew : new.state = .running ∧ new.leaseId = some leaseId ∧
      new.leaseExpiresAt = some (now + duration) ∧ SameTask old new := by
    rcases hrunning with hstate | hstate <;>
    · simp only [DeploymentJob.claim, hstate, JobState.transition, JobState.allows] at h
      cases h
      exact ⟨rfl, rfl, rfl, rfl, rfl, rfl, rfl, rfl⟩
  exact ⟨hnew.2.2.2, .claim hclaim heligible hnew.1 hnew.2.1 hnew.2.2.1⟩

private theorem edge_of_markBooting {jobId deviceId imageId : Uuid} {now : Instant}
    (hid : old.id = jobId) (h : old.markBooting deviceId imageId now = .ok new) :
    SameTask old new ∧
      JobEdge old new (.markInstallerBooting jobId deviceId imageId now .written) := by
  unfold DeploymentJob.markBooting at h
  cases hawaits : old.awaitsInstaller deviceId imageId with
  | error error => simp [hawaits, Except.map] at h
  | ok u =>
    simp only [hawaits, Except.map, Except.ok.injEq] at h
    subst h
    exact ⟨⟨rfl, rfl, rfl, rfl, rfl⟩, .markBooting hid hawaits rfl rfl rfl⟩

private theorem edge_of_handOff {jobId deviceId imageId leaseId : Uuid} {duration : Duration}
    {now : Instant} (hid : old.id = jobId)
    (h : old.handOff deviceId imageId duration now leaseId = .ok new) :
    SameTask old new ∧
      JobEdge old new
        (.leaseInstallerJob jobId deviceId imageId duration now leaseId .written) := by
  unfold DeploymentJob.handOff at h
  cases hawaits : old.awaitsInstaller deviceId imageId with
  | error error => simp [hawaits] at h
  | ok u =>
    have hwaiting := (DeploymentJob.awaitsInstaller_eq_ok_iff.1 hawaits).2.1
    simp only [hawaits, hwaiting, JobState.transition, JobState.allows] at h
    cases h
    exact ⟨⟨rfl, rfl, rfl, rfl, rfl⟩, .handOff hid hawaits rfl rfl rfl⟩

private theorem edge_of_advanceInstaller {jobId deviceId leaseId : Uuid} {leaseDuration : Duration}
    {stage : DeploymentStage} {progressPercent : UInt8} {message : Option String}
    {started now later : Instant} (hid : old.id = jobId)
    (hcheck : old.checkInstallerLease deviceId leaseId now = .ok ())
    (h : old.advanceInstaller (started + leaseDuration) stage progressPercent message = .ok new) :
    SameTask old { new with updatedAt := later } ∧ JobEdge old { new with updatedAt := later }
      (.reportInstallerProgress jobId deviceId leaseId leaseDuration stage progressPercent message
        started now later .written) := by
  unfold DeploymentJob.advanceInstaller at h
  split_ifs at h
  cases h
  exact ⟨⟨rfl, rfl, rfl, rfl, rfl⟩, .advanceInstaller hid hcheck rfl rfl rfl⟩

private theorem edge_of_finishInstaller {jobId deviceId leaseId : Uuid} {succeeded : Bool}
    {errorMessage : Option String} {now later : Instant} (hid : old.id = jobId)
    (hcheck : old.checkInstallerLease deviceId leaseId now = .ok ())
    (h : old.finishInstaller succeeded errorMessage = .ok new) :
    SameTask old { new with updatedAt := later } ∧ JobEdge old { new with updatedAt := later }
      (.completeInstaller jobId deviceId leaseId succeeded errorMessage now later .written) := by
  have hrunning := (DeploymentJob.checkInstallerLease_eq_ok_iff.1 hcheck).2.2.1
  cases succeeded <;>
  · simp only [DeploymentJob.finishInstaller, hrunning, JobState.transition, JobState.allows] at h
    cases h
    exact ⟨⟨rfl, rfl, rfl, rfl, rfl⟩, .finishInstaller hid hcheck rfl rfl rfl⟩

private theorem edge_of_finish {jobId deviceId leaseId : Uuid} {succeeded : Bool}
    {errorMessage : Option String} {now later : Instant} (hid : old.id = jobId)
    (hcheck : old.checkAgentLease deviceId leaseId now = .ok ())
    (h : old.finish succeeded errorMessage = .ok new) :
    SameTask old { new with updatedAt := later } ∧ JobEdge old { new with updatedAt := later }
      (.complete jobId deviceId leaseId succeeded errorMessage now later .written) := by
  unfold DeploymentJob.finish at h
  split at h
  · simp at h
  · rename_i state hstate
    obtain ⟨-, rfl⟩ := JobState.transition_eq_ok_iff.1 hstate
    cases succeeded <;> cases h
    · exact ⟨⟨rfl, rfl, rfl, rfl, rfl⟩, .finish hid hcheck rfl rfl rfl⟩
    · exact ⟨⟨rfl, rfl, rfl, rfl, rfl⟩, .finish hid hcheck rfl rfl rfl⟩

end Edits

/-! ### Commits and edits of the repository -/

namespace JobRepository

variable {repo : JobRepository} {e : JobEvent} {write : WriteOutcome}

/-- A call that commits a list of jobs has an effect of `CallEffect` when the list is one that the
written call may install. -/
private theorem commit_callEffect {α : Type} {jobs : List DeploymentJob} (value : α)
    (h : write = .written → JobsEdge repo.jobs e jobs) :
    CallEffect repo e (repo.commit jobs value write).2 := by
  cases write with
  | written => exact .committed (h rfl)
  | refused source => exact .kept
  | interrupted source => exact .interrupted

private theorem editJob_callEffect {id : Uuid}
    {edit : DeploymentJob → Except JobRepositoryError DeploymentJob}
    (h : write = .written → ∀ old new, old.id = id → edit old = .ok new →
      SameTask old new ∧ JobEdge old new e) :
    CallEffect repo e (repo.editJob id edit write).2 := by
  unfold editJob
  split
  · exact .kept
  · rename_i old put hfocus
    split
    · exact .kept
    · rename_i new hnew
      have hid : old.id = id := by
        obtain ⟨_, _, -, -, hid, -⟩ := focus_eq_some_iff.1 hfocus
        simpa using hid
      refine commit_callEffect new fun hwrite => ?_
      obtain ⟨hsame, hedge⟩ := h hwrite old new hid hnew
      exact .edited hsame hedge (.of_focus hfocus new)

private theorem insert_callEffect {request : CreateDeploymentJob} {initialState : JobState}
    {now : Instant} {id : Uuid} (hmint : e.mint = some id) (hrequest : e.request = some request)
    (hstate : initialState = .draft ∨ initialState = .waiting) :
    CallEffect repo e (repo.insert request initialState now id write).2 := by
  unfold insert
  split
  · exact .kept
  · split
    · rename_i target htargets
      dsimp only
      split_ifs with hfree
      · exact .kept
      · refine commit_callEffect _ fun _ => ?_
        refine .added _ target hmint hstate rfl rfl htargets (fun other hother hactive => ?_)
          ⟨request, hrequest, rfl, rfl⟩
        simp only [referencesDevice, List.any_eq_true, not_exists, not_and] at hfree
        simpa [hactive] using hfree other hother
    · exact .kept

/-- When a call that edits one job is accepted: the job is there, the edit accepts it, and the
manifest is written. -/
theorem editJob_eq_ok_iff {id : Uuid} {new : DeploymentJob}
    {edit : DeploymentJob → Except JobRepositoryError DeploymentJob} :
    (repo.editJob id edit write).1 = .ok new ↔ write = .written ∧
      ∃ old put, focus (fun job => job.id == id) repo.jobs = some (old, put) ∧
        edit old = .ok new := by
  unfold editJob
  split
  · rename_i hfocus
    simp [hfocus]
  · rename_i old put hfocus
    split
    · rename_i error herror
      simp [hfocus, herror]
    · rename_i new' hnew
      cases write <;> simp [hfocus, hnew, commit, persist]

/-- What an accepted edit did: it wrote the manifest, and one job moved along an edge. -/
private theorem editJob_accepted {id : Uuid} {new : DeploymentJob}
    {edit : DeploymentJob → Except JobRepositoryError DeploymentJob}
    (h : (repo.editJob id edit write).1 = .ok new)
    (hedge : ∀ old, old.id = id → edit old = .ok new → SameTask old new ∧ JobEdge old new e) :
    write = .written ∧ ∃ old ∈ repo.jobs, SameTask old new ∧ JobEdge old new e ∧
      Replaces repo.jobs old new (repo.editJob id edit write).2.jobs := by
  obtain ⟨rfl, old, put, hfocus, hedit⟩ := editJob_eq_ok_iff.1 h
  obtain ⟨_, _, -, -, hid, -⟩ := focus_eq_some_iff.1 hfocus
  have hreplaces := Replaces.of_focus hfocus new
  obtain ⟨hsame, hedge⟩ := hedge old (by simpa using hid) hedit
  refine ⟨rfl, old, hreplaces.mem_old, hsame, hedge, ?_⟩
  simpa only [editJob, hfocus, hedit, commit, persist] using hreplaces

theorem leaseInstallerJob_accepted {jobId deviceId imageId leaseId : Uuid} {duration : Duration}
    {now : Instant} {new : DeploymentJob}
    (h : (repo.leaseInstallerJob jobId deviceId imageId duration now leaseId write).1 = .ok new) :
    write = .written ∧ ∃ old ∈ repo.jobs, SameTask old new ∧
      JobEdge old new (.leaseInstallerJob jobId deviceId imageId duration now leaseId .written) ∧
      Replaces repo.jobs old new
        (repo.leaseInstallerJob jobId deviceId imageId duration now leaseId write).2.jobs :=
  editJob_accepted h fun _ hid hedit => edge_of_handOff hid hedit

theorem completeInstaller_accepted {jobId deviceId leaseId : Uuid} {succeeded : Bool}
    {errorMessage : Option String} {now later : Instant} {new : DeploymentJob}
    (h : (repo.completeInstaller jobId deviceId leaseId succeeded errorMessage now later write).1 =
      .ok new) :
    write = .written ∧ ∃ old ∈ repo.jobs, SameTask old new ∧ JobEdge old new
      (.completeInstaller jobId deviceId leaseId succeeded errorMessage now later .written) ∧
      Replaces repo.jobs old new
        (repo.completeInstaller jobId deviceId leaseId succeeded errorMessage now later
          write).2.jobs := by
  refine editJob_accepted h fun _ hid hedit => ?_
  obtain ⟨hcheck, updated, hupdated, rfl⟩ := checked_eq_ok_iff.1 hedit
  exact edge_of_finishInstaller hid hcheck hupdated

theorem complete_accepted {jobId deviceId leaseId : Uuid} {succeeded : Bool}
    {errorMessage : Option String} {now later : Instant} {new : DeploymentJob}
    (h : (repo.complete jobId deviceId leaseId succeeded errorMessage now later write).1 =
      .ok new) :
    write = .written ∧ ∃ old ∈ repo.jobs, SameTask old new ∧ JobEdge old new
      (.complete jobId deviceId leaseId succeeded errorMessage now later .written) ∧
      Replaces repo.jobs old new
        (repo.complete jobId deviceId leaseId succeeded errorMessage now later write).2.jobs := by
  refine editJob_accepted h fun _ hid hedit => ?_
  obtain ⟨hcheck, updated, hupdated, rfl⟩ := checked_eq_ok_iff.1 hedit
  exact edge_of_finish hid hcheck hupdated

/-- When a control poll is accepted: the job holds the lease, and the renewal is not due or is
written. -/
theorem renewControlLease_eq_ok_iff {jobId deviceId leaseId : Uuid} {duration : Duration}
    {now : Instant} {state : JobState} :
    (repo.renewControlLease jobId deviceId leaseId duration now write).1 = .ok state ↔
      ∃ job put, focus (fun job => job.id == jobId) repo.jobs = some (job, put) ∧
        job.checkControlLease deviceId leaseId = .ok () ∧
        (job.leaseIsFresh duration now = true ∨ write = .written) ∧ job.state = state := by
  unfold renewControlLease
  split
  · rename_i hfocus
    simp [hfocus]
  · rename_i job put hfocus
    simp only [hfocus, Option.some.injEq, Prod.mk.injEq, existsAndEq, true_and]
    split
    · rename_i error herror
      simp [herror]
    · rename_i hcheck
      split_ifs with hfresh
      · simp [hcheck, hfresh]
      · cases write <;> simp [hcheck, hfresh, commit, persist]

/-- With distinct ids, a job is found under its own id. -/
theorem exists_focus_id (hnodup : (repo.jobs.map DeploymentJob.id).Nodup) {job : DeploymentJob}
    (hjob : job ∈ repo.jobs) :
    ∃ put, focus (fun other => other.id == job.id) repo.jobs = some (job, put) :=
  exists_focus_eq DeploymentJob.id hnodup hjob

theorem find?_id_eq_some (hnodup : (repo.jobs.map DeploymentJob.id).Nodup) {job : DeploymentJob}
    (hjob : job ∈ repo.jobs) :
    repo.jobs.find? (fun other => other.id == job.id) = some job :=
  find?_key_eq_some DeploymentJob.id hnodup hjob

/-- An edit that accepts a job of the repository takes its place when the write succeeds. -/
theorem editJob_written (hnodup : (repo.jobs.map DeploymentJob.id).Nodup) {job new : DeploymentJob}
    (hjob : job ∈ repo.jobs) {edit : DeploymentJob → Except JobRepositoryError DeploymentJob}
    (hedit : edit job = .ok new) : (repo.editJob job.id edit .written).1 = .ok new ∧
      new ∈ (repo.editJob job.id edit .written).2.jobs := by
  obtain ⟨put, hfocus⟩ := exists_focus_id hnodup hjob
  have hput := (Replaces.of_focus hfocus new).mem_new
  simp only [editJob, hfocus, hedit, commit, persist]
  exact ⟨trivial, hput⟩

end JobRepository

/-! ### The effect of every call -/

namespace JobRepository

variable {repo : JobRepository} {e : JobEvent} {write : WriteOutcome}

private theorem transition_callEffect {id : Uuid} {nextState : JobState} {now : Instant} :
    CallEffect repo (.transition id nextState now write)
      (repo.transition id nextState now write).2 := by
  refine editJob_callEffect ?_
  rintro rfl old new hid hnew
  exact edge_of_applyTransition hid hnew

private theorem leaseForDeviceIf_callEffect {deviceId leaseId : Uuid} {duration : Duration}
    {isEligible : DeploymentJob → Bool} {now : Instant} :
    CallEffect repo (.leaseForDeviceIf deviceId duration isEligible now leaseId write)
      (repo.leaseForDeviceIf deviceId duration isEligible now leaseId write).2 := by
  unfold leaseForDeviceIf
  split
  · exact .kept
  · rename_i old put hfocus
    split
    · exact .kept
    · rename_i new hnew
      refine commit_callEffect _ ?_
      rintro rfl
      obtain ⟨_, _, -, -, hold, -⟩ := focus_eq_some_iff.1 hfocus
      obtain ⟨hclaim, heligible⟩ := Bool.and_eq_true_iff.1 hold
      obtain ⟨hsame, hedge⟩ := edge_of_claim hclaim heligible hnew
      exact .edited hsame hedge (.of_focus hfocus new)

private theorem markInstallerBooting_callEffect {jobId deviceId imageId : Uuid} {now : Instant} :
    CallEffect repo (.markInstallerBooting jobId deviceId imageId now write)
      (repo.markInstallerBooting jobId deviceId imageId now write).2 := by
  refine editJob_callEffect ?_
  rintro rfl old new hid hnew
  exact edge_of_markBooting hid hnew

private theorem leaseInstallerJob_callEffect {jobId deviceId imageId leaseId : Uuid}
    {duration : Duration} {now : Instant} :
    CallEffect repo (.leaseInstallerJob jobId deviceId imageId duration now leaseId write)
      (repo.leaseInstallerJob jobId deviceId imageId duration now leaseId write).2 := by
  refine editJob_callEffect ?_
  rintro rfl old new hid hnew
  exact edge_of_handOff hid hnew

/-- An update under the lease of an installer has the effect of its edge. -/
private theorem updateInstallerJob_callEffect {jobId deviceId leaseId : Uuid} {now later : Instant}
    {update : DeploymentJob → Except JobRepositoryError DeploymentJob}
    (h : write = .written → ∀ old new, old.id = jobId →
      old.checkInstallerLease deviceId leaseId now = .ok () → update old = .ok new →
      SameTask old { new with updatedAt := later } ∧
        JobEdge old { new with updatedAt := later } e) :
    CallEffect repo e
      (repo.updateInstallerJob jobId deviceId leaseId update now later write).2 := by
  refine editJob_callEffect fun hwrite old new hid hnew => ?_
  obtain ⟨hcheck, updated, hupdated, rfl⟩ := checked_eq_ok_iff.1 hnew
  exact h hwrite old updated hid hcheck hupdated

private theorem reportInstallerProgress_callEffect {jobId deviceId leaseId : Uuid}
    {leaseDuration : Duration} {stage : DeploymentStage} {progressPercent : UInt8}
    {message : Option String} {started now later : Instant} :
    CallEffect repo
      (.reportInstallerProgress jobId deviceId leaseId leaseDuration stage progressPercent message
        started now later write)
      (repo.reportInstallerProgress jobId deviceId leaseId leaseDuration stage progressPercent
        message started now later write).2 := by
  unfold reportInstallerProgress
  split_ifs with hprogress
  · exact .kept
  · refine updateInstallerJob_callEffect ?_
    rintro rfl old new hid hcheck hnew
    exact edge_of_advanceInstaller hid hcheck hnew

private theorem completeInstaller_callEffect {jobId deviceId leaseId : Uuid} {succeeded : Bool}
    {errorMessage : Option String} {now later : Instant} :
    CallEffect repo
      (.completeInstaller jobId deviceId leaseId succeeded errorMessage now later write)
      (repo.completeInstaller jobId deviceId leaseId succeeded errorMessage now later
        write).2 := by
  refine updateInstallerJob_callEffect ?_
  rintro rfl old new hid hcheck hnew
  exact edge_of_finishInstaller hid hcheck hnew

/-- An update under the lease of an Agent has the effect of its edge. -/
private theorem updateLeasedJob_callEffect {jobId deviceId leaseId : Uuid} {now later : Instant}
    {update : DeploymentJob → Except JobRepositoryError DeploymentJob}
    (h : write = .written → ∀ old new, old.id = jobId →
      old.checkAgentLease deviceId leaseId now = .ok () → update old = .ok new →
      SameTask old { new with updatedAt := later } ∧
        JobEdge old { new with updatedAt := later } e) :
    CallEffect repo e (repo.updateLeasedJob jobId deviceId leaseId update now later write).2 := by
  refine editJob_callEffect fun hwrite old new hid hnew => ?_
  obtain ⟨hcheck, updated, hupdated, rfl⟩ := checked_eq_ok_iff.1 hnew
  exact h hwrite old updated hid hcheck hupdated

private theorem reportProgress_callEffect {jobId deviceId : Uuid} {leaseDuration : Duration}
    {progress : AgentJobProgress} {started now later : Instant} :
    CallEffect repo (.reportProgress jobId deviceId leaseDuration progress started now later write)
      (repo.reportProgress jobId deviceId leaseDuration progress started now later write).2 := by
  unfold reportProgress
  split_ifs with hprogress
  · exact .kept
  · refine updateLeasedJob_callEffect ?_
    rintro rfl old new hid hcheck hnew
    obtain rfl := Except.ok.inj hnew
    exact ⟨⟨rfl, rfl, rfl, rfl, rfl⟩, .advance hid hcheck rfl rfl rfl⟩

private theorem complete_callEffect {jobId deviceId leaseId : Uuid} {succeeded : Bool}
    {errorMessage : Option String} {now later : Instant} :
    CallEffect repo (.complete jobId deviceId leaseId succeeded errorMessage now later write)
      (repo.complete jobId deviceId leaseId succeeded errorMessage now later write).2 := by
  refine updateLeasedJob_callEffect ?_
  rintro rfl old new hid hcheck hnew
  exact edge_of_finish hid hcheck hnew

private theorem renewControlLease_callEffect {jobId deviceId leaseId : Uuid} {duration : Duration}
    {now : Instant} :
    CallEffect repo (.renewControlLease jobId deviceId leaseId duration now write)
      (repo.renewControlLease jobId deviceId leaseId duration now write).2 := by
  unfold renewControlLease
  split
  · exact .kept
  · rename_i old put hfocus
    split
    · exact .kept
    · rename_i hcheck
      split_ifs with hfresh
      · exact .kept
      · refine commit_callEffect _ ?_
        rintro rfl
        obtain ⟨_, _, -, -, hid, -⟩ := focus_eq_some_iff.1 hfocus
        refine .edited ?_ ?_ (Replaces.of_focus hfocus _)
        · exact ⟨rfl, rfl, rfl, rfl, rfl⟩
        · exact .renew (by simpa using hid) hcheck rfl rfl rfl

private theorem remove_callEffect {id : Uuid} :
    CallEffect repo (.remove id write) (repo.remove id write).2 := by
  unfold remove
  split
  · exact .kept
  · rename_i job hfind
    split_ifs with hdeletable
    · exact .kept
    · refine commit_callEffect _ ?_
      rintro rfl
      exact .removed rfl (List.mem_of_find?_eq_some hfind) (by simpa using List.find?_some hfind)
        (by simpa using hdeletable)

end JobRepository

/-- Every call has one of the effects of `CallEffect`. -/
theorem JobEvent.callEffect_of_apply {repo repo' : JobRepository} {e : JobEvent}
    (h : e.apply repo = some repo') : CallEffect repo e repo' := by
  cases e with
  | reopen =>
    refine .reopened rfl ?_
    cases hopen : JobRepository.openManifest repo.manifestPath repo.manifestFile with
    | error error => simp [apply, hopen, Except.toOption] at h
    | ok reopened =>
      simp only [apply, hopen, Except.toOption, Option.some.injEq] at h
      rw [h]
  | create request now id write =>
    obtain rfl := Option.some.inj h
    exact JobRepository.insert_callEffect rfl rfl (Or.inl rfl)
  | enqueue request now id write =>
    obtain rfl := Option.some.inj h
    exact JobRepository.insert_callEffect rfl rfl (Or.inr rfl)
  | transition id nextState now write =>
    obtain rfl := Option.some.inj h
    exact JobRepository.transition_callEffect
  | leaseForDeviceIf deviceId duration isEligible now leaseId write =>
    obtain rfl := Option.some.inj h
    exact JobRepository.leaseForDeviceIf_callEffect
  | markInstallerBooting jobId deviceId imageId now write =>
    obtain rfl := Option.some.inj h
    exact JobRepository.markInstallerBooting_callEffect
  | leaseInstallerJob jobId deviceId imageId duration now leaseId write =>
    obtain rfl := Option.some.inj h
    exact JobRepository.leaseInstallerJob_callEffect
  | reportInstallerProgress jobId deviceId leaseId leaseDuration stage progressPercent message
      started now later write =>
    obtain rfl := Option.some.inj h
    exact JobRepository.reportInstallerProgress_callEffect
  | completeInstaller jobId deviceId leaseId succeeded errorMessage now later write =>
    obtain rfl := Option.some.inj h
    exact JobRepository.completeInstaller_callEffect
  | reportProgress jobId deviceId leaseDuration progress started now later write =>
    obtain rfl := Option.some.inj h
    exact JobRepository.reportProgress_callEffect
  | complete jobId deviceId leaseId succeeded errorMessage now later write =>
    obtain rfl := Option.some.inj h
    exact JobRepository.complete_callEffect
  | renewControlLease jobId deviceId leaseId duration now write =>
    obtain rfl := Option.some.inj h
    exact JobRepository.renewControlLease_callEffect
  | remove id write =>
    obtain rfl := Option.some.inj h
    exact JobRepository.remove_callEffect
  | authorizedLease jobId deviceId leaseId now =>
    obtain rfl := Option.some.inj h
    exact .kept
  | idle now =>
    obtain rfl := Option.some.inj h
    exact .kept

/-! ### The manifest mirrors the memory -/

/-- The manifest file holds the jobs under the lock, unless a write failed in the middle. -/
def JobRepository.Mirrored (repo : JobRepository) : Prop :=
  repo.manifestFile = .truncated ∨
    repo.manifestFile = .complete { schemaVersion := manifestSchemaVersion, jobs := repo.jobs } ∨
      (repo.manifestFile = .absent ∧ repo.jobs = [])

namespace JobRepository.Mirrored

variable {repo repo' : JobRepository} {e : JobEvent}

/-- A repository opened over a mirroring manifest is the repository that wrote it. -/
theorem openManifest_eq (h : repo.Mirrored)
    (hopen : openManifest repo.manifestPath repo.manifestFile = .ok repo') : repo' = repo := by
  obtain ⟨manifestPath, jobs, manifestFile⟩ := repo
  simp only [Mirrored] at h
  rcases h with rfl | rfl | ⟨rfl, rfl⟩
  · simp [openManifest] at hopen
  · exact (Except.ok.inj hopen).symm
  · exact (Except.ok.inj hopen).symm

theorem of_callEffect (h : repo.Mirrored) (heffect : CallEffect repo e repo') : repo'.Mirrored := by
  cases heffect with
  | kept => exact h
  | interrupted => exact Or.inl rfl
  | committed hedge => exact Or.inr (Or.inl rfl)
  | reopened he hopen =>
    rw [h.openManifest_eq hopen]
    exact h

/-- Over a mirroring manifest, a call keeps the jobs or replaces them along one edge. -/
theorem jobs_of_callEffect (h : repo.Mirrored) (heffect : CallEffect repo e repo') :
    repo'.jobs = repo.jobs ∨ JobsEdge repo.jobs e repo'.jobs := by
  cases heffect with
  | kept => exact Or.inl rfl
  | interrupted => exact Or.inl rfl
  | committed hedge => exact Or.inr hedge
  | reopened he hopen => exact Or.inl (by rw [h.openManifest_eq hopen])

end JobRepository.Mirrored

end EasyDeployMesh
