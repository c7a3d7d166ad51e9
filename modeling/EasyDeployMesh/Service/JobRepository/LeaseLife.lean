import EasyDeployMesh.Service.JobRepository.Invariant

/-!
# The life of an Agent lease

A lease is dead once its job is neither running nor paused, and a running job is held under a
current lease or can be claimed. Every writer of the repository keeps both laws except one: the
operator may move a queued Windows job to `running` by hand. The job then runs under the lease it
recorded last, which revives a dead lease, or under none, which strands the job. Both laws hold in
exactly the runs in which the operator does not take that step on such a job.

## Main definitions

* `EasyDeployMesh.JobRepository.Accepts`: some Agent call that presents the lease is accepted.
* `EasyDeployMesh.JobEvent.StartsByHand`: the operator starts a queued Windows job.
* `EasyDeployMesh.RepositoryWorld.LeasesStayDead`, `EasyDeployMesh.JobRepository.NoneStranded`: the
  two laws.

## Main results

* `EasyDeployMesh.RepositoryWorld.leasesStayDead_iff`: no lease revives in a run exactly when the
  operator starts no queued Windows job that still records a lease.
* `EasyDeployMesh.RepositoryWorld.noneStranded_iff`: no job is stranded along a run exactly when the
  operator starts no queued Windows job without a lease.
-/

namespace EasyDeployMesh

open Foundations

/-! ### Starting a job by hand -/

/-- The operator moves the queued Windows job to `running`, and the manifest is written. -/
def JobEvent.StartsByHand (e : JobEvent) (job : DeploymentJob) : Prop :=
  (∃ now, e = .transition job.id .running now .written) ∧ job.operation ≠ .installLinux ∧
    job.state = .waiting

/-- A Windows job becomes active along an edge only by a fresh lease or by the operator. -/
theorem JobEdge.startsByHand_or_mint {old new : DeploymentJob} {e : JobEvent}
    (h : JobEdge old new e) (hwindows : old.operation ≠ .installLinux)
    (hold : old.state.isActive = false) (hnew : new.state.isActive = true) :
    (e.StartsByHand old ∧ new.leaseId = old.leaseId) ∨
      ∃ leaseId, new.leaseId = some leaseId ∧ e.mint = some leaseId := by
  have hkept : new.state = old.state → False := by
    intro heq
    rw [heq, hold] at hnew
    exact Bool.false_ne_true hnew
  cases h with
  | @transition id nextState now hid hcontrol hallows hstate hlease =>
    refine Or.inl ⟨⟨⟨now, ?_⟩, hwindows, ?_⟩, hlease⟩
    · rcases JobState.isActive_iff.1 hnew with hrunning | hpaused
      · rw [hid, ← hstate, hrunning]
      · have hrunning := JobState.allows_paused_iff.1 (hpaused ▸ hstate ▸ hallows)
        simp [hrunning, JobState.isActive] at hold
    · rcases JobState.isActive_iff.1 hnew with hrunning | hpaused
      · rcases JobState.allows_running_iff.1 (hrunning ▸ hstate ▸ hallows) with hwaiting | hpaused
        · exact hwaiting
        · simp [hpaused, JobState.isActive] at hold
      · have hrunning := JobState.allows_paused_iff.1 (hpaused ▸ hstate ▸ hallows)
        simp [hrunning, JobState.isActive] at hold
  | claim _ _ _ hlease => exact Or.inr ⟨_, hlease, rfl⟩
  | handOff _ _ _ hlease => exact Or.inr ⟨_, hlease, rfl⟩
  | markBooting _ _ hstate | advanceInstaller _ _ hstate | advance _ _ hstate
  | renew _ _ hstate => exact (hkept hstate).elim
  | @finishInstaller _ _ _ succeeded _ _ _ _ _ hstate
  | @finish _ _ _ succeeded _ _ _ _ _ hstate =>
    rw [hstate] at hnew
    cases succeeded <;> simp [JobState.isActive] at hnew

/-- What starting a job by hand does: the job runs, and its lease stays as it was. -/
theorem RepositoryWorld.Coherent.exists_of_startsByHand {w w' : RepositoryWorld} (h : w.Coherent)
    {e : JobEvent} {job : DeploymentJob} (hjob : job ∈ w.repo.jobs) (he : e.StartsByHand job)
    (hstep : w.step e = some w') :
    ∃ started ∈ w'.repo.jobs, started.id = job.id ∧ started.operation ≠ .installLinux ∧
      started.state = .running ∧ started.leaseId = job.leaseId := by
  obtain ⟨⟨now, rfl⟩, hwindows, hwaiting⟩ := he
  have hedit : job.applyTransition .running now =
      .ok { job with state := .running, updatedAt := now } := by
    simp [DeploymentJob.applyTransition, DeploymentJob.installerControls, hwindows, hwaiting,
      JobState.transition, JobState.allows]
  obtain ⟨-, hmem⟩ := JobRepository.editJob_written h.jobs.ids_nodup hjob hedit
  have hrepo : (w.repo.transition job.id .running now .written).2 = w'.repo :=
    Option.some.inj (RepositoryWorld.step_eq_some_iff.1 hstep).2.1
  rw [← hrepo]
  exact ⟨_, hmem, rfl, hwindows, rfl, rfl⟩

/-! ### Presenting a lease -/

namespace JobRepository

variable {repo : JobRepository} {minted : List Uuid} {jobId leaseId : Uuid}

/-- A call of an Agent that presents the lease for the job is accepted. -/
inductive Accepts (repo : JobRepository) (jobId leaseId : Uuid) : Prop
  | authorized {deviceId : Uuid} {now : Instant} {job : DeploymentJob}
      (h : repo.authorizedLease jobId deviceId leaseId now = .ok job)
  | renewed {deviceId : Uuid} {duration : Duration} {now : Instant} {write : WriteOutcome}
      {state : JobState}
      (h : (repo.renewControlLease jobId deviceId leaseId duration now write).1 = .ok state)
  | reported {deviceId : Uuid} {leaseDuration : Duration} {progress : AgentJobProgress}
      {started now later : Instant} {write : WriteOutcome} {job : DeploymentJob}
      (hlease : progress.leaseId = leaseId)
      (h : (repo.reportProgress jobId deviceId leaseDuration progress started now later write).1 =
        .ok job)
  | completed {deviceId : Uuid} {succeeded : Bool} {errorMessage : Option String}
      {now later : Instant} {write : WriteOutcome} {job : DeploymentJob}
      (h : (repo.complete jobId deviceId leaseId succeeded errorMessage now later write).1 =
        .ok job)

/-- The job holds the lease: it is a Windows job that is running or paused and records it. -/
def Holds (repo : JobRepository) (jobId leaseId : Uuid) : Prop :=
  ∃ job ∈ repo.jobs, job.id = jobId ∧ job.operation ≠ .installLinux ∧ job.state.isActive = true ∧
    job.leaseId = some leaseId

private theorem holds_of_focus {job : DeploymentJob} {put : DeploymentJob → List DeploymentJob}
    (hfocus : focus (fun other => other.id == jobId) repo.jobs = some (job, put)) {deviceId : Uuid}
    (hcheck : job.checkControlLease deviceId leaseId = .ok ()) : repo.Holds jobId leaseId := by
  obtain ⟨_, _, hjobs, -, hid, -⟩ := focus_eq_some_iff.1 hfocus
  obtain ⟨hwindows, -, hactive, hlease⟩ := DeploymentJob.checkControlLease_eq_ok_iff.1 hcheck
  exact ⟨job, by simp [hjobs], by simpa using hid, hwindows, hactive, hlease⟩

/-- What passes the check of an Agent call passes the check of a control poll. -/
private theorem checkControlLease_of_checkAgentLease {job : DeploymentJob} {deviceId : Uuid}
    {now : Instant} (h : job.checkAgentLease deviceId leaseId now = .ok ()) :
    job.checkControlLease deviceId leaseId = .ok () := by
  obtain ⟨hwindows, hdevice, hactive, hlease, -⟩ := DeploymentJob.checkAgentLease_eq_ok_iff.1 h
  exact DeploymentJob.checkControlLease_eq_ok_iff.2 ⟨hwindows, hdevice, hactive, hlease⟩

private theorem holds_of_updateLeasedJob {deviceId : Uuid} {now later : Instant}
    {update : DeploymentJob → Except JobRepositoryError DeploymentJob} {write : WriteOutcome}
    {updated : DeploymentJob}
    (h : (repo.updateLeasedJob jobId deviceId leaseId update now later write).1 = .ok updated) :
    repo.Holds jobId leaseId := by
  obtain ⟨-, job, put, hfocus, hedit⟩ := editJob_eq_ok_iff.1 h
  obtain ⟨hcheck, -⟩ := checked_eq_ok_iff.1 hedit
  exact holds_of_focus hfocus (checkControlLease_of_checkAgentLease hcheck)

theorem Accepts.holds (h : repo.Accepts jobId leaseId) : repo.Holds jobId leaseId := by
  cases h with
  | @authorized deviceId now _ h =>
    unfold authorizedLease at h
    split at h
    · simp at h
    · rename_i job hfind
      have hcheck : job.checkAgentLease deviceId leaseId now = .ok () := by
        cases hcheck : job.checkAgentLease deviceId leaseId now with
        | error error => simp [hcheck, Except.map] at h
        | ok u => rfl
      obtain ⟨hwindows, -, hactive, hlease, -⟩ := DeploymentJob.checkAgentLease_eq_ok_iff.1 hcheck
      exact ⟨job, List.mem_of_find?_eq_some hfind, by simpa using List.find?_some hfind, hwindows,
        hactive, hlease⟩
  | @renewed deviceId duration now write state h =>
    unfold renewControlLease at h
    split at h
    · simp at h
    · rename_i job put hfocus
      split at h
      · simp at h
      · rename_i hcheck
        exact holds_of_focus hfocus hcheck
  | reported hlease h =>
    unfold reportProgress at h
    split_ifs at h
    exact hlease ▸ holds_of_updateLeasedJob h
  | completed h => exact holds_of_updateLeasedJob h

/-- The lease of a job that holds it is accepted by a control poll. -/
theorem Holds.accepts (hjobs : JobsCoherent minted repo.jobs) (h : repo.Holds jobId leaseId) :
    repo.Accepts jobId leaseId := by
  obtain ⟨job, hjob, rfl, hwindows, hactive, hlease⟩ := h
  obtain ⟨target, htargets⟩ := List.length_eq_one_iff.1 (hjobs.job job hjob).sole_target
  obtain ⟨put, hfocus⟩ := exists_focus_id hjobs.ids_nodup hjob
  have hcheck : job.checkControlLease target.deviceId leaseId = .ok () :=
    DeploymentJob.checkControlLease_eq_ok_iff.2
      ⟨hwindows, by simp [DeploymentJob.targetsDevice, htargets], hactive, hlease⟩
  have hrenew : (repo.renewControlLease job.id target.deviceId leaseId 0 0 .written).1 =
      .ok job.state := by
    simp only [renewControlLease, hfocus, hcheck, commit, persist]
    split_ifs <;> rfl
  exact .renewed hrenew

end JobRepository

/-! ### A dead lease -/

namespace RepositoryWorld

variable {w w' : RepositoryWorld} {e : JobEvent} {es : List JobEvent} {jobId leaseId : Uuid}

/-- The operator starts by hand a queued Windows job that still records a lease. -/
def ResumesStaleLease (w : RepositoryWorld) (e : JobEvent) : Prop :=
  ∃ job ∈ w.repo.jobs, e.StartsByHand job ∧ job.leaseId.isSome = true

/-- Along the run of `es` from `w`: once a Windows job has recorded a lease and was later neither
running nor paused, no later call that presents the lease for the job is accepted. -/
def LeasesStayDead (w : RepositoryWorld) (es : List JobEvent) : Prop :=
  ∀ issue stop after rest m n u, es = issue ++ stop ++ after ++ rest →
    Leads step w issue m → Leads step m stop n → Leads step n after u →
    ∀ held ∈ m.repo.jobs, held.operation ≠ .installLinux →
    ∀ leaseId, held.leaseId = some leaseId →
    ∀ stopped ∈ n.repo.jobs, stopped.id = held.id → stopped.state ≠ .running →
      stopped.state ≠ .paused → ¬ u.repo.Accepts held.id leaseId

/-- A lease that no job holds is not held after a step, unless the operator resumes it. -/
private theorem not_holds_of_step (h : w.Coherent) (hminted : leaseId ∈ w.minted)
    (hnot : ¬ w.repo.Holds jobId leaseId) (hguard : ¬ w.ResumesStaleLease e)
    (hstep : w.step e = some w') : ¬ w'.repo.Holds jobId leaseId := by
  rintro ⟨job, hjob, hid, hwindows, hactive, hlease⟩
  have hkept : job ∉ w.repo.jobs := fun hold => hnot ⟨job, hold, hid, hwindows, hactive, hlease⟩
  have hfresh : ∀ fresh, job.leaseId = some fresh → e.mint ≠ some fresh := by
    intro fresh hnew hmint
    obtain rfl : leaseId = fresh := Option.some.inj (hlease.symm.trans hnew)
    exact notMem_minted_of_mint hstep hmint hminted
  rcases h.mem_after_cases hstep hjob with hold | ⟨-, -, hnone⟩ | ⟨old, hold, hsame, hedge⟩
  · exact hkept hold
  · simp [hnone] at hlease
  · have hwindows' : old.operation ≠ .installLinux := hsame.operation ▸ hwindows
    by_cases hactive' : old.state.isActive = true
    · rcases hedge.leaseId_cases with heq | ⟨hnone, -⟩ | ⟨fresh, hnew, hmint⟩
      · exact hnot ⟨old, hold, hsame.id.symm.trans hid, hwindows', hactive', heq.symm.trans hlease⟩
      · simp [hnone] at hlease
      · exact hfresh fresh hnew hmint
    · rcases hedge.startsByHand_or_mint hwindows' (by simpa using hactive') hactive with
        ⟨hstarts, heq⟩ | ⟨fresh, hnew, hmint⟩
      · exact hguard ⟨old, hold, hstarts, by rw [← heq, hlease]; rfl⟩
      · exact hfresh fresh hnew hmint

/-- A run without a resumed lease keeps a lease dead. -/
private theorem not_holds_of_leads (h : w.Coherent) (hminted : leaseId ∈ w.minted)
    (hnot : ¬ w.repo.Holds jobId leaseId) (hrun : Leads step w es w')
    (hguard : Along step (fun m e => ¬ m.ResumesStaleLease e) w es) :
    ¬ w'.repo.Holds jobId leaseId := by
  have hinv := hrun.invariant_along
    (I := fun m => m.Coherent ∧ leaseId ∈ m.minted ∧ ¬ m.repo.Holds jobId leaseId) hguard
    ⟨h, hminted, hnot⟩ ?_
  · exact hinv.2.2
  · rintro m e n ⟨hm, hmem, hnot⟩ hguard hstep
    exact ⟨hm.of_step hstep, minted_subset hstep hmem,
      not_holds_of_step hm hmem hnot hguard hstep⟩

/-- The minted UUIDs of a run only grow. -/
theorem minted_subset_of_leads (hrun : Leads step w es w') : w.minted ⊆ w'.minted :=
  hrun.transfer (I := fun _ => True) (R := fun m n => m.minted ⊆ n.minted) trivial
    (fun _ _ _ _ _ => trivial) (fun _ => List.Subset.refl _)
    (fun _ _ _ => List.Subset.trans) fun _ _ _ _ => minted_subset

/-- No lease revives along a run exactly when the operator never starts by hand a queued Windows
job that still records a lease. -/
theorem leasesStayDead_iff {manifestPath : String} {clock : Instant}
    (hrun : Leads step (empty manifestPath clock) es w) :
    (empty manifestPath clock).LeasesStayDead es ↔
      Along step (fun m e => ¬ m.ResumesStaleLease e) (empty manifestPath clock) es := by
  constructor
  · rintro hdead pre e post m rfl hpre ⟨job, hjob, hstarts, hlease⟩
    obtain ⟨m', n, hpre', hstep, -⟩ := hrun.split
    obtain rfl := hpre.unique hpre'
    have hcoherent := coherent_of_leads hpre
    obtain ⟨leaseId, hleaseId⟩ := Option.isSome_iff_exists.1 hlease
    obtain ⟨started, hstarted, hid, hwindows, hrunning, hkept⟩ :=
      hcoherent.exists_of_startsByHand hjob hstarts hstep
    have hholds : n.repo.Holds job.id leaseId :=
      ⟨started, hstarted, hid, hwindows, by rw [hrunning]; rfl, hkept.trans hleaseId⟩
    have haccepts := hholds.accepts (hcoherent.of_step hstep).jobs
    refine hdead pre [] [e] post m m n (by simp) hpre (leads_nil.2 rfl) ?_ job hjob hstarts.2.1
      leaseId hleaseId job hjob rfl ?_ ?_ haccepts
    · exact leads_cons.2 ⟨n, hstep, leads_nil.2 rfl⟩
    · simp [hstarts.2.2]
    · simp [hstarts.2.2]
  · rintro hguard issue stop after rest m n u rfl hissue hstop hafter held hheld hwindows leaseId
      hlease stopped hstopped hid hrunning hpaused haccepts
    have hm := coherent_of_leads hissue
    have hn := hm.of_leads hstop
    have hminted : leaseId ∈ n.minted :=
      minted_subset_of_leads hstop ((hm.jobs.job held hheld).lease_minted leaseId hlease)
    have hnot : ¬ n.repo.Holds held.id leaseId := by
      rintro ⟨holder, hholder, hid', -, hactive, -⟩
      obtain rfl := hn.jobs.eq_of_id_eq hholder hstopped (hid'.trans hid.symm)
      rcases JobState.isActive_iff.1 hactive with h | h
      · exact hrunning h
      · exact hpaused h
    exact not_holds_of_leads hn hminted hnot hafter
      ((hguard.init.tail (hissue.trans hstop))) haccepts.holds

/-- The job is leased for two hours; the operator fails it, queues it again and starts it by
hand. -/
def resumeEvents : List JobEvent :=
  [.enqueue windowsRequest 0 1 .written,
   .leaseForDeviceIf 7 (minutes 120) (fun _ => true) (minutes 1) 2 .written,
   .transition 1 .failed (minutes 2) .written, .transition 1 .waiting (minutes 3) .written,
   .transition 1 .running (minutes 4) .written]

/-- The job of the example under its first lease. -/
private def leasedWorld : RepositoryWorld :=
  (runFrom step (empty "jobs.json" 0) (resumeEvents.take 2)).get (by decide)

/-- The failed job is queued again. -/
private def retriedWorld : RepositoryWorld :=
  (runFrom step leasedWorld ((resumeEvents.drop 2).take 2)).get (by decide)

/-- The job is leased once more. -/
private def resumedWorld : RepositoryWorld :=
  (runFrom step retriedWorld (resumeEvents.drop 4)).get (by decide)

/-- The lease 2 of the job that was stopped is authorized again after the start by hand. -/
theorem leasesStayDead_fails_of_resume :
    (runFrom step (empty "jobs.json" 0) resumeEvents).isSome = true ∧
      ¬ (empty "jobs.json" 0).LeasesStayDead resumeEvents := by
  refine ⟨by decide, fun hdead => ?_⟩
  have hleased : Leads step (empty "jobs.json" 0) (resumeEvents.take 2) leasedWorld :=
    (Option.some_get _).symm
  have hretried : Leads step leasedWorld ((resumeEvents.drop 2).take 2) retriedWorld :=
    (Option.some_get _).symm
  have hresumed : Leads step retriedWorld (resumeEvents.drop 4) resumedWorld :=
    (Option.some_get _).symm
  have haccepts : resumedWorld.repo.Accepts 1 2 := by
    have hauthorized : resumedWorld.repo.authorizedLease 1 7 2 (minutes 5) =
        .ok (resumedWorld.repo.jobs.get ⟨0, by decide⟩) := by decide
    exact .authorized hauthorized
  have hnot := hdead _ _ _ [] _ _ _ (by simp [resumeEvents]) hleased hretried hresumed
    (leasedWorld.repo.jobs.get ⟨0, by decide⟩) (List.get_mem _ _) (by decide) 2 (by decide)
    (retriedWorld.repo.jobs.get ⟨0, by decide⟩) (List.get_mem _ _) (by decide) (by decide)
    (by decide)
  exact hnot haccepts

theorem leasesStayDead_iff_resumeEvents :
    (empty "jobs.json" 0).LeasesStayDead resumeEvents ↔
      Along step (fun m e => ¬ m.ResumesStaleLease e) (empty "jobs.json" 0) resumeEvents :=
  leasesStayDead_iff (Option.some_get (by decide)).symm

end RepositoryWorld

/-! ### A stranded job -/

namespace JobRepository

variable {repo : JobRepository} {minted : List Uuid}

/-- Every Windows job that runs has a lease with an expiry; at every instant that lease is
authorized, or it has expired and a claim for the device that accepts the job hands it out again. -/
def NoneStranded (repo : JobRepository) : Prop :=
  ∀ job ∈ repo.jobs, job.operation ≠ .installLinux → job.state = .running →
    ∃ leaseId expiresAt, job.leaseId = some leaseId ∧ job.leaseExpiresAt = some expiresAt ∧
      ∀ deviceId, job.targetsDevice deviceId = true → ∀ now,
        repo.authorizedLease job.id deviceId leaseId now = .ok job ∨
          (expiresAt < now ∧ ∀ duration isEligible fresh, isEligible job = true →
            ∃ leased, (repo.leaseForDeviceIf deviceId duration isEligible now fresh .written).1 =
              .ok (some leased) ∧ leased.id = job.id)

/-- Every active Windows job records a lease. -/
def ActiveLeased (repo : JobRepository) : Prop :=
  ∀ job ∈ repo.jobs, job.operation ≠ .installLinux → job.state.isActive = true →
    job.leaseId.isSome = true

/-- A claim for the device of an expired running job that accepts the job hands it out. -/
private theorem exists_leased_of_expired (h : JobsCoherent minted repo.jobs) {job : DeploymentJob}
    (hjob : job ∈ repo.jobs) (hwindows : job.operation ≠ .installLinux)
    (hrunning : job.state = .running) {expiresAt now : Instant}
    (hexpiry : job.leaseExpiresAt = some expiresAt) (hexpired : expiresAt < now) {deviceId : Uuid}
    (hdevice : job.targetsDevice deviceId = true) (duration : Duration)
    {isEligible : DeploymentJob → Bool} (heligible : isEligible job = true) (fresh : Uuid) :
    ∃ leased, (repo.leaseForDeviceIf deviceId duration isEligible now fresh .written).1 =
      .ok (some leased) ∧ leased.id = job.id := by
  have hsole := DeploymentJob.hasSoleTarget_of_length (h.job job hjob).sole_target hdevice
  have hclaim : job.isClaimable deviceId now = true :=
    DeploymentJob.isClaimable_iff.2
      ⟨hwindows, Or.inr ⟨hrunning, expiresAt, hexpiry, hexpired⟩, hsole⟩
  cases hfocus : focus
    (fun other => other.isClaimable deviceId now && isEligible other) repo.jobs with
  | none =>
    have hfalse := focus_eq_none_iff.1 hfocus job hjob
    simp [hclaim, heligible] at hfalse
  | some found =>
    obtain ⟨other, put⟩ := found
    obtain ⟨_, _, hjobs, -, hother, -⟩ := focus_eq_some_iff.1 hfocus
    have hmem : other ∈ repo.jobs := by simp [hjobs]
    obtain ⟨-, hstate, hsole'⟩ :=
      DeploymentJob.isClaimable_iff.1 (Bool.and_eq_true_iff.1 hother).1
    -- the device has one job that is not terminal, so the claim finds this job
    have hactive : other.state.isTerminal = false := by
      rcases hstate with hstate | ⟨hstate, -⟩ <;> rw [hstate] <;> rfl
    obtain rfl : other = job := h.device_free other hmem job hjob hactive (by rw [hrunning]; rfl)
      deviceId (DeploymentJob.targetsDevice_of_hasSoleTarget hsole') hdevice
    obtain ⟨leased, hleased, hid⟩ : ∃ leased, other.claim duration now fresh = .ok leased ∧
        leased.id = other.id := by
      simp [DeploymentJob.claim, hrunning, Except.map]
    refine ⟨leased, ?_, hid⟩
    simp only [leaseForDeviceIf, hfocus, hleased, commit, persist]

theorem noneStranded_of_activeLeased (h : JobsCoherent minted repo.jobs)
    (hleased : repo.ActiveLeased) : repo.NoneStranded := by
  intro job hjob hwindows hrunning
  have hactive : job.state.isActive = true := by rw [hrunning]; rfl
  have hlease := hleased job hjob hwindows hactive
  have hexpiry : job.leaseExpiresAt.isSome = true := (h.job job hjob).expiry_iff.trans hlease
  obtain ⟨leaseId, hleaseId⟩ := Option.isSome_iff_exists.1 hlease
  obtain ⟨expiresAt, hexpiresAt⟩ := Option.isSome_iff_exists.1 hexpiry
  refine ⟨leaseId, expiresAt, hleaseId, hexpiresAt, fun deviceId hdevice now => ?_⟩
  by_cases hcurrent : now ≤ expiresAt
  · have hcheck : job.checkAgentLease deviceId leaseId now = .ok () :=
      DeploymentJob.checkAgentLease_eq_ok_iff.2 ⟨hwindows, hdevice, hactive, hleaseId,
        DeploymentJob.leaseCurrentAt_iff.2 ⟨expiresAt, hexpiresAt, hcurrent⟩⟩
    refine Or.inl ?_
    simp only [authorizedLease, find?_id_eq_some h.ids_nodup hjob, hcheck, Except.map]
  · exact Or.inr ⟨not_le.1 hcurrent, fun duration _ fresh heligible =>
      exists_leased_of_expired h hjob hwindows hrunning hexpiresAt (not_le.1 hcurrent) hdevice
        duration heligible fresh⟩

end JobRepository

namespace RepositoryWorld

variable {w w' : RepositoryWorld} {e : JobEvent} {es : List JobEvent}

/-- The operator starts by hand a queued Windows job that records no lease. -/
def StartsUnleased (w : RepositoryWorld) (e : JobEvent) : Prop :=
  ∃ job ∈ w.repo.jobs, e.StartsByHand job ∧ job.leaseId = none

/-- Active Windows jobs record a lease after every step but the one of the operator. -/
private theorem activeLeased_of_step (h : w.Coherent) (hleased : w.repo.ActiveLeased)
    (hguard : ¬ w.StartsUnleased e) (hstep : w.step e = some w') : w'.repo.ActiveLeased := by
  intro job hjob hwindows hactive
  rcases h.mem_after_cases hstep hjob with hold | ⟨-, hstate, -⟩ | ⟨old, hold, hsame, hedge⟩
  · exact hleased job hold hwindows hactive
  · rcases hstate with hstate | hstate <;> simp [hstate, JobState.isActive] at hactive
  · have hwindows' : old.operation ≠ .installLinux := hsame.operation ▸ hwindows
    by_cases hactive' : old.state.isActive = true
    · have hlease := hleased old hold hwindows' hactive'
      rcases hedge.leaseId_cases with heq | ⟨-, hended⟩ | ⟨fresh, hnew, -⟩
      · rwa [heq]
      · rw [hactive] at hended
        exact Bool.noConfusion hended
      · simp [hnew]
    · rcases hedge.startsByHand_or_mint hwindows' (by simpa using hactive') hactive with
        ⟨hstarts, heq⟩ | ⟨fresh, hnew, -⟩
      · rw [heq, Option.isSome_iff_ne_none]
        exact fun hnone => hguard ⟨old, hold, hstarts, hnone⟩
      · simp [hnew]

/-- No Windows job is stranded in any state of a run exactly when the operator never starts by hand
a queued Windows job that records no lease. -/
theorem noneStranded_iff {manifestPath : String} {clock : Instant}
    (hrun : Leads step (empty manifestPath clock) es w) :
    (∀ pre post m, es = pre ++ post → Leads step (empty manifestPath clock) pre m →
      m.repo.NoneStranded) ↔
      Along step (fun m e => ¬ m.StartsUnleased e) (empty manifestPath clock) es := by
  constructor
  · rintro hnone pre e post m rfl hpre ⟨job, hjob, hstarts, hlease⟩
    obtain ⟨m', n, hpre', hstep, -⟩ := hrun.split
    obtain rfl := hpre.unique hpre'
    obtain ⟨started, hstarted, -, hwindows, hrunning, hkept⟩ :=
      (coherent_of_leads hpre).exists_of_startsByHand hjob hstarts hstep
    obtain ⟨leaseId, -, hsome, -⟩ :=
      hnone (pre ++ [e]) post n (by simp) (hpre.concat hstep) started hstarted hwindows hrunning
    simp [hkept, hlease] at hsome
  · rintro hguard pre post m rfl hpre
    have hinv := hpre.invariant_along (I := fun m => m.Coherent ∧ m.repo.ActiveLeased) hguard.init
      ⟨coherent_empty manifestPath clock, by simp [JobRepository.ActiveLeased, empty]⟩ ?_
    · exact JobRepository.noneStranded_of_activeLeased hinv.1.jobs hinv.2
    · rintro m e n ⟨hm, hleased⟩ hguard hstep
      exact ⟨hm.of_step hstep, activeLeased_of_step hm hleased hguard hstep⟩

/-- The operator starts the queued job before an Agent has claimed it. -/
def strandEvents : List JobEvent :=
  [.enqueue windowsRequest 0 1 .written, .transition 1 .running (minutes 1) .written]

/-- The state at the end of `strandEvents`. -/
def strandedWorld : RepositoryWorld :=
  (runFrom step (empty "jobs.json" 0) strandEvents).get (by decide)

/-- The job runs without a lease, and no claim hands it out. -/
theorem noneStranded_fails_of_start :
    Leads step (empty "jobs.json" 0) strandEvents strandedWorld ∧
      ¬ strandedWorld.repo.NoneStranded := by
  refine ⟨(Option.some_get _).symm, fun hnone => ?_⟩
  obtain ⟨leaseId, -, hlease, -⟩ := hnone (strandedWorld.repo.jobs.get ⟨0, by decide⟩)
    (List.get_mem _ _) (by decide) (by decide)
  have hunleased : (strandedWorld.repo.jobs.get ⟨0, by decide⟩).leaseId = none := by decide
  exact absurd (hunleased.symm.trans hlease) (by simp)

theorem noneStranded_iff_strandEvents :
    (∀ pre post m, strandEvents = pre ++ post → Leads step (empty "jobs.json" 0) pre m →
      m.repo.NoneStranded) ↔
      Along step (fun m e => ¬ m.StartsUnleased e) (empty "jobs.json" 0) strandEvents :=
  noneStranded_iff (Option.some_get (by decide)).symm

end RepositoryWorld

end EasyDeployMesh
