import EasyDeployMesh.Service.JobRepository.Invariant

/-!
# The progress of a Linux installation

The stage, the percentage and the expiry of a Linux job are written by the marking of its boot, by
its handoff, by the reports of its installer, by its completion, and by the operator. A report is
compared with what is recorded, which may stem from an earlier attempt; but a job comes to run only
by the handoff, which records a fresh lease and starts again, so under one lease the progress never
goes back.

## Main definitions

* `EasyDeployMesh.ProgressLe`: a later progress of the same attempt.
* `EasyDeployMesh.ProgressEdge`: what a call does to the progress of a Linux job.
* `EasyDeployMesh.RepositoryWorld.MonotoneProgress`: the law of a run.

## Main results

* `EasyDeployMesh.RepositoryWorld.Coherent.progressEdge_of_step`: a step takes one of the edges.
* `EasyDeployMesh.RepositoryWorld.monotoneProgress_empty`: every run obeys the law.
-/

namespace EasyDeployMesh

open Foundations

/-- The rank of the recorded stage. -/
def DeploymentJob.stageRank (job : DeploymentJob) : ℕ :=
  (job.stage.map installerStageRank).getD 0

/-- The percentage is 100 when the job has succeeded, and at most 99 otherwise. -/
def DeploymentJob.PercentFits (job : DeploymentJob) : Prop :=
  if job.state = .succeeded then job.progressPercent = 100 else job.progressPercent ≤ 99

/-- The progress of `new` is not behind that of `old`. -/
structure ProgressLe (old new : DeploymentJob) : Prop where
  stage : old.stageRank ≤ new.stageRank
  percent : old.progressPercent ≤ new.progressPercent
  expiry : ∀ expiresAt, old.leaseExpiresAt = some expiresAt →
    ∃ later, new.leaseExpiresAt = some later ∧ expiresAt ≤ later

theorem ProgressLe.refl (job : DeploymentJob) : ProgressLe job job where
  stage := le_refl _
  percent := UInt8.le_refl _
  expiry expiresAt h := ⟨expiresAt, h, le_refl _⟩

theorem ProgressLe.trans {a b c : DeploymentJob} (h : ProgressLe a b) (h' : ProgressLe b c) :
    ProgressLe a c where
  stage := h.stage.trans h'.stage
  percent := UInt8.le_trans h.percent h'.percent
  expiry expiresAt hexpiry := by
    obtain ⟨later, hlater, hle⟩ := h.expiry expiresAt hexpiry
    obtain ⟨last, hlast, hle'⟩ := h'.expiry later hlater
    exact ⟨last, hlast, hle.trans hle'⟩

/-- What a call does to the state and the progress of a Linux job. -/
inductive ProgressEdge (old new : DeploymentJob) : Prop
  | kept (hpercent : new.progressPercent = old.progressPercent) (hold : old.state ≠ .succeeded)
      (hnew : new.state ≠ .succeeded) (hidle : new.state ≠ .running)
  | handedOff (hpercent : new.progressPercent = 1) (hold : old.state = .waiting)
      (hnew : new.state = .running)
  | advanced (hpercent : new.progressPercent ≤ 99) (hle : ProgressLe old new)
      (hnew : new.state = .running)
  | succeeded (hpercent : new.progressPercent = 100) (hnew : new.state = .succeeded)

namespace ProgressEdge

variable {old new : DeploymentJob}

theorem percentFits (h : ProgressEdge old new) (hold : old.PercentFits) : new.PercentFits := by
  unfold DeploymentJob.PercentFits at hold ⊢
  cases h with
  | kept hpercent hstate hnew =>
    rw [if_neg hstate] at hold
    rw [if_neg hnew, hpercent]
    exact hold
  | handedOff hpercent _ hnew =>
    rw [if_neg (by simp [hnew]), hpercent]
    decide
  | advanced hpercent _ hnew =>
    rw [if_neg (by simp [hnew])]
    exact hpercent
  | succeeded hpercent hnew => rw [if_pos hnew, hpercent]

/-- While a job runs, its progress does not go back. -/
theorem progressLe (h : ProgressEdge old new) (hold : old.state = .running)
    (hnew : new.state = .running) : ProgressLe old new := by
  cases h with
  | kept _ _ _ hidle => exact absurd hnew hidle
  | handedOff _ hwaiting =>
    rw [hold] at hwaiting
    cases hwaiting
  | advanced _ hle => exact hle
  | succeeded _ hstate =>
    rw [hnew] at hstate
    cases hstate

end ProgressEdge

/-! ### The edits of a Linux job -/

section

variable {old new updated : DeploymentJob}

/-- The operator neither starts nor completes a Linux job. -/
private theorem ne_of_installerControls {next : JobState} (hlinux : old.operation = .installLinux)
    (hpaused : old.state ≠ .paused) (hcontrol : old.installerControls next = false)
    (hallows : old.state.allows next = true) :
    old.state ≠ .succeeded ∧ next ≠ .succeeded ∧ next ≠ .running := by
  simp only [DeploymentJob.installerControls, hlinux] at hcontrol
  cases hold : old.state <;> cases next <;> simp_all [JobState.allows]

private theorem progressEdge_of_applyTransition {nextState : JobState} {now : Instant}
    (hlinux : old.operation = .installLinux) (hpaused : old.state ≠ .paused)
    (h : old.applyTransition nextState now = .ok new) : ProgressEdge old new := by
  unfold DeploymentJob.applyTransition at h
  split at h
  · cases h
  · rename_i hcontrol
    split at h
    · cases h
    · rename_i state hstate
      obtain ⟨hallows, rfl⟩ := JobState.transition_eq_ok_iff.1 hstate
      obtain ⟨hold, hnew, hidle⟩ :=
        ne_of_installerControls hlinux hpaused (Bool.not_eq_true _ ▸ hcontrol) hallows
      rw [if_neg hnew] at h
      cases h
      exact .kept rfl hold hnew hidle

private theorem progressEdge_of_markBooting {deviceId imageId : Uuid} {now : Instant}
    (h : old.markBooting deviceId imageId now = .ok new) : ProgressEdge old new := by
  unfold DeploymentJob.markBooting at h
  obtain ⟨u, hawaits, rfl⟩ := map_eq_ok_iff.1 h
  have hwaiting := (DeploymentJob.awaitsInstaller_eq_ok_iff.1 hawaits).2.1
  exact .kept rfl (by simp [hwaiting]) (by simp [hwaiting]) (by simp [hwaiting])

private theorem progressEdge_of_handOff {deviceId imageId leaseId : Uuid} {duration : Duration}
    {now : Instant} (h : old.handOff deviceId imageId duration now leaseId = .ok new) :
    ProgressEdge old new := by
  unfold DeploymentJob.handOff at h
  cases hawaits : old.awaitsInstaller deviceId imageId with
  | error error => simp [hawaits] at h
  | ok u =>
    have hwaiting := (DeploymentJob.awaitsInstaller_eq_ok_iff.1 hawaits).2.1
    simp only [hawaits, hwaiting, JobState.transition, JobState.allows] at h
    cases h
    exact .handedOff rfl hwaiting rfl

/-- A report records a progress that is not behind the recorded one, and extends the lease. -/
private theorem progressEdge_of_advanceInstaller {renewedUntil later : Instant}
    {stage : DeploymentStage} {progressPercent : UInt8} {message : Option String}
    (hrunning : old.state = .running) (hpercent : progressPercent ≤ 99)
    (h : old.advanceInstaller renewedUntil stage progressPercent message = .ok updated) :
    ProgressEdge old { updated with updatedAt := later } := by
  unfold DeploymentJob.advanceInstaller at h
  split_ifs at h with hregression
  obtain ⟨hstage, hle⟩ := not_or.1 hregression
  cases h
  refine .advanced hpercent
    ⟨not_lt.1 hstage, UInt8.not_lt.1 hle, fun expiresAt hexpiry => ?_⟩ hrunning
  exact ⟨max expiresAt renewedUntil, by simp [hexpiry, extendExpiry], le_max_left _ _⟩

private theorem progressEdge_of_finishInstaller {succeeded : Bool} {errorMessage : Option String}
    {later : Instant} (hrunning : old.state = .running)
    (h : old.finishInstaller succeeded errorMessage = .ok updated) :
    ProgressEdge old { updated with updatedAt := later } := by
  cases succeeded with
  | true =>
    simp only [DeploymentJob.finishInstaller, hrunning, JobState.transition, JobState.allows] at h
    cases h
    exact .succeeded rfl rfl
  | false =>
    simp only [DeploymentJob.finishInstaller, hrunning, JobState.transition, JobState.allows] at h
    cases h
    exact .kept rfl (by simp [hrunning]) (by simp) (by simp)

end

/-! ### One step -/

namespace JobRepository

variable {repo : JobRepository}

/-- After a call that edits the job `old`, the job with its id is the old one or the edited one. -/
theorem editJob_mem_cases (hnodup : (repo.jobs.map DeploymentJob.id).Nodup)
    {edit : DeploymentJob → Except JobRepositoryError DeploymentJob} {write : WriteOutcome}
    {old new : DeploymentJob} (hold : old ∈ repo.jobs)
    (hnew : new ∈ (repo.editJob old.id edit write).2.jobs) (hid : new.id = old.id) :
    new = old ∨ edit old = .ok new := by
  have hkept (hmem : new ∈ repo.jobs) : new = old :=
    List.inj_on_of_nodup_map hnodup hmem hold hid
  obtain ⟨put, hfocus⟩ := exists_focus_id hnodup hold
  simp only [editJob, hfocus] at hnew
  cases hedit : edit old with
  | error error =>
    rw [hedit] at hnew
    exact Or.inl (hkept hnew)
  | ok updated =>
    rw [hedit] at hnew
    cases write with
    | written =>
      rcases (Replaces.of_focus hfocus updated).of_mem hnew with rfl | hmem
      · exact Or.inr rfl
      · exact Or.inl (hkept hmem)
    | refused | interrupted => exact Or.inl (hkept hnew)

/-- A new job has made no progress. -/
theorem insert_mem_cases {request : CreateDeploymentJob} {initialState : JobState} {now : Instant}
    {id : Uuid} {write : WriteOutcome} {job : DeploymentJob}
    (hjob : job ∈ (repo.insert request initialState now id write).2.jobs) :
    job ∈ repo.jobs ∨ job.progressPercent = 0 := by
  unfold insert at hjob
  split at hjob
  · exact Or.inl hjob
  · split at hjob
    · dsimp only at hjob
      split_ifs at hjob
      · exact Or.inl hjob
      · cases write with
        | written =>
          rcases List.mem_append.1 hjob with hmem | hmem
          · exact Or.inl hmem
          · rw [List.mem_singleton.1 hmem]
            exact Or.inr rfl
        | refused | interrupted => exact Or.inl hjob
    · exact Or.inl hjob

end JobRepository

namespace RepositoryWorld

variable {w w' : RepositoryWorld} {e : JobEvent} {es : List JobEvent} {old new job : DeploymentJob}

/-- A step leaves a Linux job, or takes one of the edges of its progress. -/
theorem Coherent.progressEdge_of_step (h : w.Coherent) (hstep : w.step e = some w')
    (hold : old ∈ w.repo.jobs) (hnew : new ∈ w'.repo.jobs) (hid : new.id = old.id)
    (hlinux : old.operation = .installLinux) (hedge : JobEdge old new e) :
    new = old ∨ ProgressEdge old new := by
  have hrepo := (step_eq_some_iff.1 hstep).2.1
  have hnodup := h.jobs.ids_nodup
  cases hedge with
  | transition hjob =>
    subst hjob
    rw [← Option.some.inj hrepo] at hnew
    refine (JobRepository.editJob_mem_cases hnodup hold hnew hid).imp_right fun hedit => ?_
    exact progressEdge_of_applyTransition hlinux ((h.jobs.job old hold).linux_ne_paused hlinux)
      hedit
  | markBooting hjob =>
    subst hjob
    rw [← Option.some.inj hrepo] at hnew
    exact (JobRepository.editJob_mem_cases hnodup hold hnew hid).imp_right
      progressEdge_of_markBooting
  | handOff hjob =>
    subst hjob
    rw [← Option.some.inj hrepo] at hnew
    exact (JobRepository.editJob_mem_cases hnodup hold hnew hid).imp_right progressEdge_of_handOff
  | @advanceInstaller _ _ _ _ _ progressPercent _ _ _ _ hjob =>
    subst hjob
    rw [← Option.some.inj hrepo] at hnew
    unfold JobRepository.reportInstallerProgress at hnew
    split_ifs at hnew with hpercent
    · exact Or.inl (List.inj_on_of_nodup_map hnodup hnew hold hid)
    · refine (JobRepository.editJob_mem_cases hnodup hold hnew hid).imp_right fun hedit => ?_
      obtain ⟨hcheck, updated, hupdated, rfl⟩ := checked_eq_ok_iff.1 hedit
      have hrunning := (DeploymentJob.checkInstallerLease_eq_ok_iff.1 hcheck).2.2.1
      exact progressEdge_of_advanceInstaller hrunning (UInt8.not_lt.1 hpercent) hupdated
  | finishInstaller hjob =>
    subst hjob
    rw [← Option.some.inj hrepo] at hnew
    refine (JobRepository.editJob_mem_cases hnodup hold hnew hid).imp_right fun hedit => ?_
    obtain ⟨hcheck, updated, hupdated, rfl⟩ := checked_eq_ok_iff.1 hedit
    have hrunning := (DeploymentJob.checkInstallerLease_eq_ok_iff.1 hcheck).2.2.1
    exact progressEdge_of_finishInstaller hrunning hupdated
  | claim hclaim => exact absurd hlinux (DeploymentJob.isClaimable_iff.1 hclaim).1
  | advance _ hcheck | finish _ hcheck =>
    exact absurd hlinux (DeploymentJob.checkAgentLease_eq_ok_iff.1 hcheck).1
  | renew _ hcheck => exact absurd hlinux (DeploymentJob.checkControlLease_eq_ok_iff.1 hcheck).1

/-! ### The percentage -/

/-- The percentage of a job that was not there before a step. -/
private theorem Coherent.percent_of_added (h : w.Coherent) (hstep : w.step e = some w')
    (hjob : job ∈ w'.repo.jobs) :
    job ∈ w.repo.jobs ∨ (job.progressPercent = 0 ∧ (job.state = .draft ∨ job.state = .waiting)) ∨
      ∃ old ∈ w.repo.jobs, SameTask old job ∧ JobEdge old job e := by
  rcases h.jobsEdge_of_step hstep with heq | hedge
  · exact Or.inl (heq ▸ hjob)
  · have hrepo := (step_eq_some_iff.1 hstep).2.1
    generalize heq : w'.repo.jobs = jobs' at hedge
    cases hedge with
    | added added _ _ hstate _ _ _ _ hrequest =>
      obtain ⟨request, hrequest, -⟩ := hrequest
      have hnew : job ∈ w.repo.jobs ∨ job.progressPercent = 0 := by
        cases e with
        | create | enqueue =>
          rw [← Option.some.inj hrepo] at hjob
          exact JobRepository.insert_mem_cases hjob
        | transition | leaseForDeviceIf | markInstallerBooting | leaseInstallerJob
        | reportInstallerProgress | completeInstaller | reportProgress | authorizedLease | complete
        | renewControlLease | remove | reopen | idle => cases hrequest
      rw [heq] at hjob
      rcases List.mem_append.1 hjob with hold | hmem
      · exact Or.inl hold
      · rw [← List.mem_singleton.1 hmem] at hstate
        exact hnew.imp_right fun hpercent => Or.inl ⟨hpercent, hstate⟩
    | edited hsame hedge hreplaces =>
      rw [heq] at hjob
      rcases hreplaces.of_mem hjob with rfl | hold
      · exact Or.inr (Or.inr ⟨_, hreplaces.mem_old, hsame, hedge⟩)
      · exact Or.inl hold
    | removed => exact Or.inl (List.mem_filter.1 (heq ▸ hjob)).1

/-- The percentages of the Linux jobs fit their states. -/
def PercentsFit (w : RepositoryWorld) : Prop :=
  ∀ job ∈ w.repo.jobs, job.operation = .installLinux → job.PercentFits

theorem PercentsFit.of_step (h : w.PercentsFit) (hw : w.Coherent) (hstep : w.step e = some w') :
    w'.PercentsFit := by
  intro job hjob hlinux
  rcases hw.percent_of_added hstep hjob with
    hold | ⟨hpercent, hstate⟩ | ⟨old, hold, hsame, hedge⟩
  · exact h job hold hlinux
  · rcases hstate with hstate | hstate <;> simp [DeploymentJob.PercentFits, hstate, hpercent]
  · have hlinux' : old.operation = .installLinux := hsame.operation ▸ hlinux
    rcases hw.progressEdge_of_step hstep hold hjob hsame.id hlinux' hedge with rfl | hprogress
    · exact h job hold hlinux
    · exact hprogress.percentFits (h old hold hlinux')

/-! ### One lease -/

/-- The Linux job `id`, while it runs under the lease, has made at least the progress of `job`. -/
def ProgressSince (w : RepositoryWorld) (job : DeploymentJob) : Prop :=
  ∀ new ∈ w.repo.jobs, new.id = job.id → new.state = .running → new.leaseId = job.leaseId →
    ProgressLe job new

theorem ProgressSince.of_step (h : w.ProgressSince job) (hw : w.Coherent) {leaseId : Uuid}
    (hlease : job.leaseId = some leaseId) (hminted : leaseId ∈ w.minted)
    (hlinux : ∀ other ∈ w.repo.jobs, other.id = job.id → other.operation = .installLinux)
    (hstep : w.step e = some w') : w'.ProgressSince job := by
  intro new hnew hid hrunning hkept
  rcases hw.mem_after_cases hstep hnew with hold | ⟨-, -, hnone⟩ | ⟨old, hold, hsame, hedge⟩
  · exact h new hold hid hrunning hkept
  · rw [hkept, hlease] at hnone
    cases hnone
  · have hlinux' := hlinux old hold (hsame.id.symm.trans hid)
    have hpaused := (hw.jobs.job old hold).linux_ne_paused hlinux'
    rcases hedge.linux_running_cases hlinux' hpaused hrunning with
      ⟨hrunning', hkept'⟩ | ⟨_, _, _, _, fresh, rfl, -, hfresh⟩
    · have hle := h old hold (hsame.id.symm.trans hid) hrunning' (hkept'.symm.trans hkept)
      rcases hw.progressEdge_of_step hstep hold hnew hsame.id hlinux' hedge with rfl | hprogress
      · exact hle
      · exact hle.trans (hprogress.progressLe hrunning' hrunning)
    · -- the handoff mints a lease, and the one of the job was minted before
      obtain rfl : fresh = leaseId := Option.some.inj (hfresh.symm.trans (hkept.trans hlease))
      exact absurd hminted (notMem_minted_of_mint hstep rfl)

/-! ### The law -/

/-- The law of the progress along the run of `es`. -/
structure MonotoneProgress (start : RepositoryWorld) (es : List JobEvent) : Prop where
  /-- The stage, the percentage and the expiry of a Linux job do not decrease while it runs under
  one lease. -/
  monotone : ∀ pre mid post m n, es = pre ++ mid ++ post → Leads step start pre m →
    Leads step m mid n → ∀ old ∈ m.repo.jobs, ∀ new ∈ n.repo.jobs, new.id = old.id →
    old.operation = .installLinux → old.state = .running → new.state = .running →
    new.leaseId = old.leaseId → ProgressLe old new
  /-- The percentage of a Linux job is at most 99 unless the job has succeeded, and 100 exactly when
  it has. -/
  percent : ∀ pre post m, es = pre ++ post → Leads step start pre m → ∀ job ∈ m.repo.jobs,
    job.operation = .installLinux → (job.state ≠ .succeeded → job.progressPercent ≤ 99) ∧
      (job.progressPercent = 100 ↔ job.state = .succeeded)

private theorem percentsFit_of_leads {manifestPath : String} {clock : Instant}
    (hrun : Leads step (empty manifestPath clock) es w) : w.PercentsFit := by
  have hend := hrun.invariant (I := fun w => w.Coherent ∧ w.PercentsFit)
    ⟨coherent_empty manifestPath clock, by simp [PercentsFit, empty]⟩
    fun m e n hm hstep => ⟨hm.1.of_step hstep, hm.2.of_step hm.1 hstep⟩
  exact hend.2

/-- What a job is known to have made under its lease is kept along a run. -/
private theorem progressSince_of_leads (hw : w.Coherent) (hrun : Leads step w es w')
    (hjob : job ∈ w.repo.jobs) (hlinux : job.operation = .installLinux) {leaseId : Uuid}
    (hlease : job.leaseId = some leaseId) : w'.ProgressSince job := by
  have hend := hrun.invariant (I := fun m => m.Coherent ∧ leaseId ∈ m.minted ∧
    m.OfJob job.id (fun other => other.operation = .installLinux) ∧ m.ProgressSince job) ?_ ?_
  · exact hend.2.2.2
  · refine ⟨hw, (hw.jobs.job job hjob).lease_minted leaseId hlease, ?_, ?_⟩
    · refine ⟨(hw.jobs.job job hjob).id_minted, fun other hother hid => ?_⟩
      rw [hw.jobs.eq_of_id_eq hother hjob hid, hlinux]
    · intro other hother hid _ _
      rw [hw.jobs.eq_of_id_eq hother hjob hid]
      exact .refl job
  · rintro m e n ⟨hm, hminted, hof, hsince⟩ hstep
    refine ⟨hm.of_step hstep, minted_subset hstep hminted, hof.of_step hm hstep ?_,
      hsince.of_step hm hlease hminted hof.job hstep⟩
    exact fun _ _ hsame hold => hsame.operation.trans hold

/-- Every run from the empty repository obeys the law of the progress. -/
theorem monotoneProgress_empty (manifestPath : String) (clock : Instant) (es : List JobEvent) :
    MonotoneProgress (empty manifestPath clock) es where
  monotone pre mid post m n _ hpre hmid old hold new hnew hid hlinux hrunning hrunning' hkept := by
    have hm := coherent_of_leads hpre
    have hsome := (hm.jobs.job old hold).linux_leased hlinux hrunning
    obtain ⟨leaseId, hlease⟩ := Option.isSome_iff_exists.1 hsome
    exact progressSince_of_leads hm hmid hold hlinux hlease new hnew hid hrunning' hkept
  percent pre post m _ hpre job hjob hlinux := by
    have hfits := percentsFit_of_leads hpre job hjob hlinux
    unfold DeploymentJob.PercentFits at hfits
    split_ifs at hfits with hstate
    · exact ⟨fun hnot => absurd hstate hnot, iff_of_true hfits hstate⟩
    · refine ⟨fun _ => hfits, iff_of_false (fun hfull => ?_) hstate⟩
      rw [hfull] at hfits
      exact absurd hfits (by decide)

end RepositoryWorld

end EasyDeployMesh
