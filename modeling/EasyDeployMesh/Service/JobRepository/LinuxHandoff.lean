import EasyDeployMesh.Service.JobRepository.Invariant

/-!
# The Linux handoff is one-way

A Linux installation is handed to the installer of the target machine, which then writes the disk
without asking again. The job runs only through `lease_installer_job`; from then on it is neither
paused nor cancelled nor handed off again, until it has failed and the operator has queued it again
explicitly. No call of a Windows Agent reaches it.

## Main definitions

* `EasyDeployMesh.RepositoryWorld.HandsOff`, `EasyDeployMesh.RepositoryWorld.Requeues`: the two
  steps that begin and end an attempt.
* `EasyDeployMesh.JobRepository.AgentRefused`: no call of an Agent succeeds on the job or changes
  it.
* `EasyDeployMesh.RepositoryWorld.OneWayHandoff`: the law of a run.

## Main results

* `EasyDeployMesh.RepositoryWorld.oneWayHandoff_empty`: every run obeys the law.
* `EasyDeployMesh.RepositoryWorld.Coherent.exists_completeInstaller`: a Linux job succeeds only by
  the call of the installer that presents its current lease.
-/

namespace EasyDeployMesh

open Foundations

/-! ### Agent calls -/

namespace JobRepository

variable {repo : JobRepository} {minted : List Uuid} {job : DeploymentJob}

/-- No call of an Agent succeeds on the job or changes it. -/
structure AgentRefused (repo : JobRepository) (job : DeploymentJob) : Prop where
  leaseForDeviceIf : ∀ deviceId duration isEligible now leaseId write,
    (∀ leased, (repo.leaseForDeviceIf deviceId duration isEligible now leaseId write).1 =
      .ok (some leased) → leased.id ≠ job.id) ∧
    job ∈ (repo.leaseForDeviceIf deviceId duration isEligible now leaseId write).2.jobs
  authorizedLease : ∀ deviceId leaseId now, ∃ error,
    repo.authorizedLease job.id deviceId leaseId now = .error error
  reportProgress : ∀ deviceId leaseDuration progress started now later write, ∃ error,
    repo.reportProgress job.id deviceId leaseDuration progress started now later write =
      (.error error, repo)
  complete : ∀ deviceId leaseId succeeded errorMessage now later write, ∃ error,
    repo.complete job.id deviceId leaseId succeeded errorMessage now later write =
      (.error error, repo)
  renewControlLease : ∀ deviceId leaseId duration now write, ∃ error,
    repo.renewControlLease job.id deviceId leaseId duration now write = (.error error, repo)

private theorem updateLeasedJob_of_linux (h : JobsCoherent minted repo.jobs)
    (hjob : job ∈ repo.jobs) (hlinux : job.operation = .installLinux) (deviceId leaseId : Uuid)
    (update : DeploymentJob → Except JobRepositoryError DeploymentJob) (now later : Instant)
    (write : WriteOutcome) :
    repo.updateLeasedJob job.id deviceId leaseId update now later write =
      (.error .wrongExecutionProtocol, repo) := by
  obtain ⟨put, hfocus⟩ := exists_focus_id h.ids_nodup hjob
  simp only [updateLeasedJob, editJob, hfocus, DeploymentJob.checkAgentLease_of_installLinux hlinux,
    bind, Except.bind]

private theorem leaseForDeviceIf_of_linux (h : JobsCoherent minted repo.jobs)
    (hjob : job ∈ repo.jobs) (hlinux : job.operation = .installLinux) (deviceId : Uuid)
    (duration : Duration) (isEligible : DeploymentJob → Bool) (now : Instant) (leaseId : Uuid)
    (write : WriteOutcome) :
    (∀ leased, (repo.leaseForDeviceIf deviceId duration isEligible now leaseId write).1 =
      .ok (some leased) → leased.id ≠ job.id) ∧
    job ∈ (repo.leaseForDeviceIf deviceId duration isEligible now leaseId write).2.jobs := by
  unfold JobRepository.leaseForDeviceIf
  split
  · exact ⟨by simp, hjob⟩
  · rename_i found put hfocus
    split
    · exact ⟨by simp, hjob⟩
    · rename_i claimed hclaimed
      have hreplaces := Replaces.of_focus hfocus claimed
      obtain ⟨_, _, -, -, hfound, -⟩ := focus_eq_some_iff.1 hfocus
      have hclaim := (Bool.and_eq_true_iff.1 hfound).1
      have hne : job ≠ found := by
        rintro rfl
        exact (DeploymentJob.isClaimable_iff.1 hclaim).1 hlinux
      have hid : claimed.id = found.id := by
        unfold DeploymentJob.claim at hclaimed
        obtain ⟨state, -, rfl⟩ := map_eq_ok_iff.1 hclaimed
        rfl
      have hclaimedId : claimed.id ≠ job.id := fun heq =>
        hne (h.eq_of_id_eq hjob hreplaces.mem_old (heq.symm.trans hid))
      cases write with
      | written =>
        refine ⟨?_, hreplaces.mem_of_ne hjob hne⟩
        rintro leased hleased
        obtain rfl : claimed = leased := Option.some.inj (Except.ok.inj hleased)
        exact hclaimedId
      | refused source => exact ⟨by simp [commit, persist], hjob⟩
      | interrupted source => exact ⟨by simp [commit, persist], hjob⟩

theorem agentRefused_of_linux (h : JobsCoherent minted repo.jobs) (hjob : job ∈ repo.jobs)
    (hlinux : job.operation = .installLinux) : repo.AgentRefused job where
  leaseForDeviceIf := leaseForDeviceIf_of_linux h hjob hlinux
  authorizedLease deviceId leaseId now := by
    refine ⟨.wrongExecutionProtocol, ?_⟩
    simp only [JobRepository.authorizedLease, find?_id_eq_some h.ids_nodup hjob,
      DeploymentJob.checkAgentLease_of_installLinux hlinux, Except.map]
  reportProgress deviceId leaseDuration progress started now later write := by
    unfold JobRepository.reportProgress
    split_ifs
    · exact ⟨_, rfl⟩
    · exact ⟨_, updateLeasedJob_of_linux h hjob hlinux _ _ _ _ _ _⟩
  complete deviceId leaseId succeeded errorMessage now later write :=
    ⟨_, updateLeasedJob_of_linux h hjob hlinux _ _ _ _ _ _⟩
  renewControlLease deviceId leaseId duration now write := by
    obtain ⟨put, hfocus⟩ := exists_focus_id h.ids_nodup hjob
    refine ⟨.wrongExecutionProtocol, ?_⟩
    simp only [JobRepository.renewControlLease, hfocus,
      DeploymentJob.checkControlLease_of_installLinux hlinux]

end JobRepository

namespace RepositoryWorld

variable {w w' m n : RepositoryWorld} {e : JobEvent} {es : List JobEvent} {jobId : Uuid}

/-! ### One step -/

/-- The step hands the job to its installer: `lease_installer_job` accepts it. -/
def HandsOff (w : RepositoryWorld) (e : JobEvent) (jobId : Uuid) : Prop :=
  ∃ deviceId imageId duration now leaseId leased,
    e = .leaseInstallerJob jobId deviceId imageId duration now leaseId .written ∧
      (w.repo.leaseInstallerJob jobId deviceId imageId duration now leaseId .written).1 = .ok leased

/-- The step is the explicit retry: the operator moves the failed job to `waiting`. -/
def Requeues (w : RepositoryWorld) (e : JobEvent) (jobId : Uuid) : Prop :=
  (∃ now, e = .transition jobId .waiting now .written) ∧
    ∃ job ∈ w.repo.jobs, job.id = jobId ∧ job.state = .failed

/-- The step is the success that the installer of the job reports under its current lease. -/
def CompletesUnderLease (e : JobEvent) (job : DeploymentJob) : Prop :=
  ∃ deviceId leaseId errorMessage now later,
    e = .completeInstaller job.id deviceId leaseId true errorMessage now later .written ∧
      job.leaseId = some leaseId ∧ job.leaseCurrentAt now = true

/-- The handoff takes a queued Linux job, which then runs. -/
theorem exists_of_handsOff (h : w.HandsOff e jobId) (hstep : w.step e = some w') :
    ∃ old ∈ w.repo.jobs, ∃ new ∈ w'.repo.jobs, old.id = jobId ∧ SameTask old new ∧
      old.operation = .installLinux ∧ old.state = .waiting ∧ new.state = .running := by
  obtain ⟨deviceId, imageId, duration, now, leaseId, leased, rfl, hleased⟩ := h
  obtain ⟨-, old, hold, hsame, hedge, hreplaces⟩ :=
    JobRepository.leaseInstallerJob_accepted hleased
  have hrepo : (w.repo.leaseInstallerJob jobId deviceId imageId duration now leaseId .written).2 =
      w'.repo := Option.some.inj (step_eq_some_iff.1 hstep).2.1
  cases hedge with
  | handOff hid hawaits hstate =>
    obtain ⟨hlinux, hwaiting, -, -⟩ := DeploymentJob.awaitsInstaller_eq_ok_iff.1 hawaits
    exact ⟨old, hold, leased, hrepo ▸ hreplaces.mem_new, hid, hsame, hlinux, hwaiting, hstate⟩

theorem exists_waiting_of_handsOff (h : w.HandsOff e jobId) :
    ∃ job ∈ w.repo.jobs, job.id = jobId ∧ job.state = .waiting := by
  obtain ⟨deviceId, imageId, duration, now, leaseId, leased, rfl, hleased⟩ := h
  obtain ⟨-, old, hold, -, hedge, -⟩ := JobRepository.leaseInstallerJob_accepted hleased
  cases hedge with
  | handOff hid hawaits =>
    exact ⟨old, hold, hid, (DeploymentJob.awaitsInstaller_eq_ok_iff.1 hawaits).2.1⟩

/-- A queued Linux job is accepted by the handoff for its device and image. -/
private theorem handsOff_of_awaitsInstaller (h : w.Coherent) {job : DeploymentJob}
    (hjob : job ∈ w.repo.jobs) {deviceId imageId leaseId : Uuid} {duration : Duration}
    {now : Instant} (hawaits : job.awaitsInstaller deviceId imageId = .ok ()) :
    w.HandsOff
      (.leaseInstallerJob job.id deviceId imageId duration now leaseId .written) job.id := by
  have hwaiting := (DeploymentJob.awaitsInstaller_eq_ok_iff.1 hawaits).2.1
  obtain ⟨leased, hleased⟩ :
      ∃ leased, job.handOff deviceId imageId duration now leaseId = .ok leased := by
    simp [DeploymentJob.handOff, hawaits, hwaiting, JobState.transition, JobState.allows,
      Except.mapError, Except.map]
  exact ⟨_, _, _, _, _, leased, rfl,
    (JobRepository.editJob_written h.jobs.ids_nodup hjob hleased).1⟩

/-- A Linux job that runs after a step ran before it, or was handed off by it. -/
theorem Coherent.linux_enters_running (h : w.Coherent) (hstep : w.step e = some w')
    {job : DeploymentJob} (hjob : job ∈ w'.repo.jobs) (hlinux : job.operation = .installLinux)
    (hrunning : job.state = .running) :
    (∃ old ∈ w.repo.jobs, old.id = job.id ∧ old.state = .running ∧ old.leaseId = job.leaseId) ∨
      w.HandsOff e job.id := by
  rcases h.mem_after_cases hstep hjob with hold | ⟨-, hstate, -⟩ | ⟨old, hold, hsame, hedge⟩
  · exact Or.inl ⟨job, hold, rfl, hrunning, rfl⟩
  · rcases hstate with hstate | hstate <;> simp [hstate] at hrunning
  · have hlinux' : old.operation = .installLinux := hsame.operation ▸ hlinux
    have hpaused := (h.jobs.job old hold).linux_ne_paused hlinux'
    rcases hedge.linux_running_cases hlinux' hpaused hrunning with
      ⟨hrunning', hlease⟩ | ⟨_, _, _, _, _, rfl, hawaits, -⟩
    · exact Or.inl ⟨old, hold, hsame.id.symm, hrunning', hlease.symm⟩
    · rw [hsame.id]
      exact Or.inr (handsOff_of_awaitsInstaller h hold hawaits)

/-- A running Linux job keeps running, fails, or succeeds under its current lease. -/
theorem Coherent.linux_leaves_running (h : w.Coherent) (hstep : w.step e = some w')
    {job : DeploymentJob} (hjob : job ∈ w.repo.jobs) (hlinux : job.operation = .installLinux)
    (hrunning : job.state = .running) :
    ∃ new ∈ w'.repo.jobs, new.id = job.id ∧ (new.state = .running ∨ new.state = .failed ∨
      (new.state = .succeeded ∧ CompletesUnderLease e job)) := by
  rcases h.mem_before_cases hstep hjob with hkept | ⟨-, hdeletable⟩ | ⟨new, hnew, hsame, hedge⟩
  · exact ⟨job, hkept, rfl, Or.inl hrunning⟩
  · simp [hrunning, JobRepository.isDeletable] at hdeletable
  · refine ⟨new, hnew, hsame.id, ?_⟩
    rcases hedge.linux_handed_off_cases hlinux (Or.inl hrunning) with
      ⟨hstate, -, -⟩ | ⟨-, hfailed, -⟩ | ⟨-, hsucceeded, hcompletes⟩ | ⟨hfailed, -, -⟩
    · exact Or.inl (hstate.trans hrunning)
    · exact Or.inr (Or.inl hfailed)
    · obtain ⟨deviceId, leaseId, errorMessage, now, later, he, hcheck⟩ := hcompletes
      obtain ⟨-, -, -, hlease, hcurrent⟩ := DeploymentJob.checkInstallerLease_eq_ok_iff.1 hcheck
      exact Or.inr (Or.inr ⟨hsucceeded, _, _, _, _, _, he, hlease, hcurrent⟩)
    · simp [hrunning] at hfailed

/-- A step makes a Linux job succeed only as the success that its installer reports under the
current lease. -/
theorem Coherent.exists_completeInstaller (h : w.Coherent) (hstep : w.step e = some w')
    {job : DeploymentJob} (hjob : job ∈ w'.repo.jobs) (hlinux : job.operation = .installLinux)
    (hsucceeded : job.state = .succeeded) :
    (∃ old ∈ w.repo.jobs, SameTask old job ∧ old.state = .succeeded) ∨
      ∃ old ∈ w.repo.jobs, SameTask old job ∧ ∃ deviceId leaseId errorMessage now later,
        e = .completeInstaller job.id deviceId leaseId true errorMessage now later .written ∧
          old.checkInstallerLease deviceId leaseId now = .ok () := by
  rcases h.mem_after_cases hstep hjob with hold | ⟨-, hstate, -⟩ | ⟨old, hold, hsame, hedge⟩
  · exact Or.inl ⟨job, hold, .refl job, hsucceeded⟩
  · rcases hstate with hstate | hstate <;> simp [hstate] at hsucceeded
  · have hlinux' : old.operation = .installLinux := hsame.operation ▸ hlinux
    rcases hedge.state_eq_or_allows with heq | hallows
    · exact Or.inl ⟨old, hold, hsame, heq.symm.trans hsucceeded⟩
    · have hrunning : old.state = .running := by
        have hpaused := (h.jobs.job old hold).linux_ne_paused hlinux'
        rw [hsucceeded] at hallows
        cases hstate : old.state <;> simp_all [JobState.allows]
      rcases hedge.linux_handed_off_cases hlinux' (Or.inl hrunning) with
        ⟨hstate, -, -⟩ | ⟨-, hfailed, -⟩ | ⟨-, -, hcompletes⟩ | ⟨hfailed, -, -⟩
      · simp [hstate, hrunning] at hsucceeded
      · simp [hfailed] at hsucceeded
      · rw [← hsame.id] at hcompletes
        exact Or.inr ⟨old, hold, hsame, hcompletes⟩
      · simp [hrunning] at hfailed

/-! ### An attempt -/

/-- The job was handed off, and has not been queued again since. -/
private def Started (w : RepositoryWorld) (jobId : Uuid) : Prop :=
  jobId ∈ w.minted ∧ ∀ job ∈ w.repo.jobs, job.id = jobId → job.operation = .installLinux ∧
    (job.state = .running ∨ job.state = .failed ∨ job.state = .succeeded)

private theorem started_of_handsOff (h : w.Coherent) (hhands : w.HandsOff e jobId)
    (hstep : w.step e = some w') : w'.Started jobId := by
  obtain ⟨old, hold, new, hnew, rfl, hsame, hlinux, -, hrunning⟩ := exists_of_handsOff hhands hstep
  refine ⟨minted_subset hstep (h.jobs.job old hold).id_minted, fun job hjob hid => ?_⟩
  obtain rfl := (h.of_step hstep).jobs.eq_of_id_eq hjob hnew (hid.trans hsame.id.symm)
  exact ⟨hsame.operation.trans hlinux, Or.inl hrunning⟩

private theorem started_of_step (h : w.Coherent) (hstarted : w.Started jobId)
    (hnot : ¬ w.Requeues e jobId) (hstep : w.step e = some w') : w'.Started jobId := by
  refine ⟨minted_subset hstep hstarted.1, fun job hjob hid => ?_⟩
  rcases h.mem_after_cases hstep hjob with hold | ⟨hmint, -, -⟩ | ⟨old, hold, hsame, hedge⟩
  · exact hstarted.2 job hold hid
  · exact absurd hstarted.1 (notMem_minted_of_mint hstep (hid ▸ hmint))
  · have hid' : old.id = jobId := hsame.id.symm.trans hid
    obtain ⟨hlinux, hstate⟩ := hstarted.2 old hold hid'
    refine ⟨hsame.operation.trans hlinux, ?_⟩
    rcases hedge.linux_handed_off_cases hlinux hstate with
      ⟨hkept, -, -⟩ | ⟨-, hfailed, -⟩ | ⟨-, hsucceeded, -⟩ | ⟨hfailed, -, hretry⟩
    · rwa [hkept]
    · exact Or.inr (Or.inl hfailed)
    · exact Or.inr (Or.inr hsucceeded)
    · exact absurd ⟨hid' ▸ hretry, old, hold, hid', hfailed⟩ hnot

/-- After a handoff the job stays started, until the operator queues it again. -/
private theorem started_of_leads (h : w.Coherent) (hstarted : w.Started jobId)
    (hrun : Leads step w es w') (hnot : Along step (fun m e => ¬ m.Requeues e jobId) w es) :
    w'.Started jobId := by
  have hinv := hrun.invariant_along (I := fun m => m.Coherent ∧ m.Started jobId) hnot
    ⟨h, hstarted⟩ ?_
  · exact hinv.2
  · rintro m e n ⟨hm, hstarted⟩ hnot hstep
    exact ⟨hm.of_step hstep, started_of_step hm hstarted hnot hstep⟩

/-- The job was handed off under the lease, which has expired. -/
private def Lapsed (w : RepositoryWorld) (jobId leaseId : Uuid) (expiresAt : Instant) : Prop :=
  (jobId ∈ w.minted ∧ expiresAt < w.clock) ∧ ∀ job ∈ w.repo.jobs, job.id = jobId →
    job.operation = .installLinux ∧ (job.state = .running ∨ job.state = .failed) ∧
      job.leaseId = some leaseId ∧ job.leaseExpiresAt = some expiresAt

private theorem lapsed_of_step (h : w.Coherent) {leaseId : Uuid} {expiresAt : Instant}
    (hlapsed : w.Lapsed jobId leaseId expiresAt) (hnot : ¬ w.Requeues e jobId)
    (hstep : w.step e = some w') : w'.Lapsed jobId leaseId expiresAt := by
  obtain ⟨⟨hminted, hexpired⟩, hjobs⟩ := hlapsed
  refine ⟨⟨minted_subset hstep hminted, lt_of_lt_of_le hexpired (clock_le hstep)⟩,
    fun job hjob hid => ?_⟩
  rcases h.mem_after_cases hstep hjob with hold | ⟨hmint, -, -⟩ | ⟨old, hold, hsame, hedge⟩
  · exact hjobs job hold hid
  · exact absurd hminted (notMem_minted_of_mint hstep (hid ▸ hmint))
  · have hid' : old.id = jobId := hsame.id.symm.trans hid
    obtain ⟨hlinux, hstate, hlease, hexpiry⟩ := hjobs old hold hid'
    have hover : ∀ now ∈ e.readings, old.leaseCurrentAt now = true → False := by
      intro now hnow hcurrent
      obtain ⟨expiresAt', hexpiry', hle⟩ := DeploymentJob.leaseCurrentAt_iff.1 hcurrent
      obtain rfl : expiresAt = expiresAt' := Option.some.inj (hexpiry.symm.trans hexpiry')
      exact absurd (lt_of_lt_of_le hexpired (clock_le_of_mem_readings hstep hnow)) (not_lt.2 hle)
    refine ⟨hsame.operation.trans hlinux, ?_⟩
    have hstarted : old.state = .running ∨ old.state = .failed ∨ old.state = .succeeded :=
      hstate.imp_right Or.inl
    rcases hedge.linux_handed_off_cases hlinux hstarted with
      ⟨hkept, hlease', hexpiry'⟩ | ⟨-, hfailed, hlease'⟩ | ⟨-, -, hcompletes⟩ | ⟨hfailed, -, hretry⟩
    · rcases hexpiry' with hexpiry' | ⟨now, hnow, hcurrent⟩
      · exact ⟨by rwa [hkept], hlease'.trans hlease, hexpiry'.trans hexpiry⟩
      · exact (hover now hnow hcurrent).elim
    · rcases hlease' with ⟨hlease', hexpiry'⟩ | ⟨now, hnow, hcurrent⟩
      · exact ⟨Or.inr hfailed, hlease'.trans hlease, hexpiry'.trans hexpiry⟩
      · exact (hover now hnow hcurrent).elim
    · obtain ⟨deviceId, leaseId, errorMessage, now, later, rfl, hcheck⟩ := hcompletes
      have hcurrent := (DeploymentJob.checkInstallerLease_eq_ok_iff.1 hcheck).2.2.2.2
      exact (hover now (by simp [JobEvent.readings]) hcurrent).elim
    · exact absurd ⟨hid' ▸ hretry, old, hold, hid', hfailed⟩ hnot

/-! ### Every run -/

/-- The law of the Linux handoff along the run of `es` from `w`. -/
structure OneWayHandoff (w : RepositoryWorld) (es : List JobEvent) : Prop where
  /-- A Linux job enters `running` only through `lease_installer_job`. -/
  enters : ∀ pre e post m n, es = pre ++ e :: post → Leads step w pre m → step m e = some n →
    ∀ job ∈ n.repo.jobs, job.operation = .installLinux → job.state = .running →
      (∃ old ∈ m.repo.jobs, old.id = job.id ∧ old.state = .running) ∨ m.HandsOff e job.id
  /-- It leaves `running` only to `failed`, or to `succeeded` by `complete_installer` with its
  current lease. -/
  leaves : ∀ pre e post m n, es = pre ++ e :: post → Leads step w pre m → step m e = some n →
    ∀ job ∈ m.repo.jobs, job.operation = .installLinux → job.state = .running →
      ∃ new ∈ n.repo.jobs, new.id = job.id ∧ (new.state = .running ∨ new.state = .failed ∨
        (new.state = .succeeded ∧ CompletesUnderLease e job))
  never_paused : ∀ pre post m, es = pre ++ post → Leads step w pre m →
    ∀ job ∈ m.repo.jobs, job.operation = .installLinux → job.state ≠ .paused
  /-- It is cancelled after a handoff only when it was queued again in between. -/
  cancelled_requeued : ∀ pre e mid post m n u, es = pre ++ e :: (mid ++ post) →
    Leads step w pre m → step m e = some n → Leads step n mid u →
    ∀ job ∈ u.repo.jobs, m.HandsOff e job.id → job.state = .cancelled →
      Sometime step (fun s e => s.Requeues e job.id) n mid
  /-- It is handed off again only when it was queued again in between. -/
  handed_off_requeued : ∀ pre e mid e' post m n u, es = pre ++ e :: (mid ++ e' :: post) →
    Leads step w pre m → step m e = some n → Leads step n mid u →
    ∀ jobId, m.HandsOff e jobId → u.HandsOff e' jobId →
      Sometime step (fun s e => s.Requeues e jobId) n mid
  /-- An expired lease is neither renewed nor replaced until the job was queued again. -/
  lease_requeued : ∀ pre mid post m u, es = pre ++ (mid ++ post) → Leads step w pre m →
    Leads step m mid u → ∀ job ∈ m.repo.jobs, job.operation = .installLinux →
    job.state = .running → ∀ expiresAt, job.leaseExpiresAt = some expiresAt →
    expiresAt < m.clock → ∀ later ∈ u.repo.jobs, later.id = job.id →
      (later.leaseId = job.leaseId ∧ later.leaseExpiresAt = some expiresAt) ∨
        Sometime step (fun s e => s.Requeues e job.id) m mid
  agent_refused : ∀ pre post m, es = pre ++ post → Leads step w pre m →
    ∀ job ∈ m.repo.jobs, job.operation = .installLinux → m.repo.AgentRefused job

private theorem cancelled_requeued_of_coherent (hm : m.Coherent) (hstep : m.step e = some n)
    (hrun : Leads step n es w) {job : DeploymentJob} (hjob : job ∈ w.repo.jobs)
    (hhands : m.HandsOff e job.id) (hcancelled : job.state = .cancelled) :
    Sometime step (fun s e => s.Requeues e job.id) n es := by
  rcases sometime_or_along (fun s e => s.Requeues e job.id) n es with hrequeued | hnot
  · exact hrequeued
  · have hstarted := started_of_leads (hm.of_step hstep) (started_of_handsOff hm hhands hstep) hrun
      hnot
    have hstate := (hstarted.2 job hjob rfl).2
    rw [hcancelled] at hstate
    exact absurd hstate (by decide)

private theorem handed_off_requeued_of_coherent (hm : m.Coherent) (hstep : m.step e = some n)
    (hrun : Leads step n es w) {e' : JobEvent} (hhands : m.HandsOff e jobId)
    (hagain : w.HandsOff e' jobId) : Sometime step (fun s e => s.Requeues e jobId) n es := by
  rcases sometime_or_along (fun s e => s.Requeues e jobId) n es with hrequeued | hnot
  · exact hrequeued
  · have hstarted := started_of_leads (hm.of_step hstep) (started_of_handsOff hm hhands hstep) hrun
      hnot
    obtain ⟨job, hjob, hid, hwaiting⟩ := exists_waiting_of_handsOff hagain
    have hstate := (hstarted.2 job hjob hid).2
    rw [hwaiting] at hstate
    exact absurd hstate (by decide)

private theorem lease_requeued_of_coherent (hm : m.Coherent) (hrun : Leads step m es w)
    {job later : DeploymentJob} (hjob : job ∈ m.repo.jobs)
    (hlinux : job.operation = .installLinux) (hrunning : job.state = .running) {expiresAt : Instant}
    (hexpiry : job.leaseExpiresAt = some expiresAt) (hexpired : expiresAt < m.clock)
    (hlater : later ∈ w.repo.jobs) (hid : later.id = job.id) :
    (later.leaseId = job.leaseId ∧ later.leaseExpiresAt = some expiresAt) ∨
      Sometime step (fun s e => s.Requeues e job.id) m es := by
  rcases sometime_or_along (fun s e => s.Requeues e job.id) m es with hrequeued | hnot
  · exact Or.inr hrequeued
  · obtain ⟨leaseId, hlease⟩ :=
      Option.isSome_iff_exists.1 ((hm.jobs.job job hjob).linux_leased hlinux hrunning)
    have hlapsed : m.Lapsed job.id leaseId expiresAt := by
      refine ⟨⟨(hm.jobs.job job hjob).id_minted, hexpired⟩, fun other hother hid' => ?_⟩
      obtain rfl := hm.jobs.eq_of_id_eq hother hjob hid'
      exact ⟨hlinux, Or.inl hrunning, hlease, hexpiry⟩
    have hinv := hrun.invariant_along
      (I := fun s => s.Coherent ∧ s.Lapsed job.id leaseId expiresAt) hnot ⟨hm, hlapsed⟩ ?_
    · obtain ⟨-, -, hlease', hexpiry'⟩ := hinv.2.2 later hlater hid
      exact Or.inl ⟨hlease'.trans hlease.symm, hexpiry'⟩
    · rintro s e t ⟨hs, hlapsed⟩ hnot hstep
      exact ⟨hs.of_step hstep, lapsed_of_step hs hlapsed hnot hstep⟩

/-- Every run from the empty repository obeys the law of the Linux handoff. -/
theorem oneWayHandoff_empty (manifestPath : String) (clock : Instant) (es : List JobEvent) :
    (empty manifestPath clock).OneWayHandoff es where
  enters pre e post m n _ hpre hstep job hjob hlinux hrunning := by
    rcases (coherent_of_leads hpre).linux_enters_running hstep hjob hlinux hrunning with
      ⟨old, hold, hid, hrunning', -⟩ | hhands
    · exact Or.inl ⟨old, hold, hid, hrunning'⟩
    · exact Or.inr hhands
  leaves pre e post m n _ hpre hstep job hjob hlinux hrunning :=
    (coherent_of_leads hpre).linux_leaves_running hstep hjob hlinux hrunning
  never_paused pre post m _ hpre job hjob hlinux :=
    ((coherent_of_leads hpre).jobs.job job hjob).linux_ne_paused hlinux
  cancelled_requeued pre e mid post m n u _ hpre hstep hmid job hjob hhands hcancelled :=
    cancelled_requeued_of_coherent (coherent_of_leads hpre) hstep hmid hjob hhands hcancelled
  handed_off_requeued pre e mid e' post m n u _ hpre hstep hmid jobId hhands hagain :=
    handed_off_requeued_of_coherent (coherent_of_leads hpre) hstep hmid hhands hagain
  lease_requeued pre mid post m u _ hpre hmid job hjob hlinux hrunning expiresAt hexpiry hexpired
      later hlater hid :=
    lease_requeued_of_coherent (coherent_of_leads hpre) hmid hjob hlinux hrunning hexpiry hexpired
      hlater hid
  agent_refused pre post m _ hpre job hjob hlinux :=
    JobRepository.agentRefused_of_linux (coherent_of_leads hpre).jobs hjob hlinux

/-- The job is handed off, fails, is queued again and handed off once more, and succeeds. -/
def retryEvents : List JobEvent :=
  [.enqueue linuxRequest 0 1 .written,
   .leaseInstallerJob 1 8 5 (minutes 240) (minutes 1) 2 .written,
   .transition 1 .failed (minutes 2) .written, .transition 1 .waiting (minutes 3) .written,
   .leaseInstallerJob 1 8 5 (minutes 240) (minutes 4) 3 .written,
   .completeInstaller 1 8 3 true none (minutes 5) (minutes 5) .written]

example : (runFrom step (empty "jobs.json" 0) retryEvents).map (fun w =>
    w.repo.jobs.map fun job => job.state) = some [.succeeded] := by decide

end RepositoryWorld

end EasyDeployMesh
