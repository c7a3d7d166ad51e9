import EasyDeployMesh.Service.JobRepository.Effect

/-!
# The invariant of the job repository

What holds of the jobs in every state that a run of the repository reaches. Each part is preserved
because of what one edge of the life cycle does; no call is looked at again.

## Main definitions

* `EasyDeployMesh.JobCoherent`: what holds of one job.
* `EasyDeployMesh.JobsCoherent`: what holds of the list of jobs; in particular at most one job of a
  device can still run.
* `EasyDeployMesh.RepositoryWorld.Coherent`: the invariant of a run.
* `EasyDeployMesh.RepositoryWorld.OfJob`: what is known of a job id for good.

## Main results

* `EasyDeployMesh.JobCoherent.of_jobEdge`, `EasyDeployMesh.JobsCoherent.of_jobsEdge`: one edge.
* `EasyDeployMesh.RepositoryWorld.Coherent.of_step`,
  `EasyDeployMesh.RepositoryWorld.coherent_of_leads`: one step, and a whole run.
* `EasyDeployMesh.RepositoryWorld.Coherent.jobsEdge_of_step`: what a step does to the jobs.
-/

namespace EasyDeployMesh

open Foundations

/-! ### Facts about every edge -/

namespace JobEdge

variable {old new : DeploymentJob} {e : JobEvent}

/-- An edge keeps the state of the job or follows an allowed transition. -/
theorem state_eq_or_allows (h : JobEdge old new e) :
    new.state = old.state ∨ old.state.allows new.state = true := by
  cases h with
  | transition hid hcontrol hallows hstate => exact Or.inr (hstate ▸ hallows)
  | claim hclaim heligible hstate =>
    obtain ⟨-, hold | ⟨hold, -⟩, -⟩ := DeploymentJob.isClaimable_iff.1 hclaim
    · rw [hstate, hold]
      exact Or.inr rfl
    · exact Or.inl (hstate.trans hold.symm)
  | markBooting hid hawaits hstate => exact Or.inl hstate
  | handOff hid hawaits hstate =>
    rw [hstate, (DeploymentJob.awaitsInstaller_eq_ok_iff.1 hawaits).2.1]
    exact Or.inr rfl
  | advanceInstaller hid hcheck hstate => exact Or.inl hstate
  | @finishInstaller _ _ _ succeeded _ _ _ hid hcheck hstate =>
    rw [hstate, (DeploymentJob.checkInstallerLease_eq_ok_iff.1 hcheck).2.2.1]
    cases succeeded <;> exact Or.inr rfl
  | advance hid hcheck hstate => exact Or.inl hstate
  | @finish _ _ _ succeeded _ _ _ hid hcheck hstate =>
    have hactive := (DeploymentJob.checkAgentLease_eq_ok_iff.1 hcheck).2.2.1
    obtain ⟨hsucceeded, hfailed⟩ := JobState.allows_of_isActive hactive
    rw [hstate]
    cases succeeded
    · exact Or.inr hfailed
    · exact Or.inr hsucceeded
  | renew hid hcheck hstate => exact Or.inl hstate

/-- No edge leaves a terminal state. -/
theorem isTerminal_eq_false (h : JobEdge old new e) (hnew : new.state.isTerminal = false) :
    old.state.isTerminal = false := by
  rcases h.state_eq_or_allows with heq | hallows
  · rwa [← heq]
  · by_contra hold
    rw [JobState.not_allows_of_isTerminal (by simpa using hold)] at hallows
    exact Bool.false_ne_true hallows

/-- An edge keeps the lease, drops it when the job ends, or records the UUID that its call mints. -/
theorem leaseId_cases (h : JobEdge old new e) :
    new.leaseId = old.leaseId ∨ (new.leaseId = none ∧ new.state.isActive = false) ∨
      ∃ leaseId, new.leaseId = some leaseId ∧ e.mint = some leaseId := by
  have hended : ∀ {succeeded : Bool}, new.state = (if succeeded then .succeeded else .failed) →
      new.state.isActive = false := by
    intro succeeded hstate
    rw [hstate]
    cases succeeded <;> rfl
  cases h with
  | transition _ _ _ _ hlease => exact Or.inl hlease
  | claim _ _ _ hlease => exact Or.inr (Or.inr ⟨_, hlease, rfl⟩)
  | markBooting _ _ _ hlease => exact Or.inl hlease
  | handOff _ _ _ hlease => exact Or.inr (Or.inr ⟨_, hlease, rfl⟩)
  | advanceInstaller _ _ _ hlease => exact Or.inl hlease
  | finishInstaller _ _ hstate hlease => exact Or.inr (Or.inl ⟨hlease, hended hstate⟩)
  | advance _ _ _ hlease => exact Or.inl hlease
  | finish _ _ hstate hlease => exact Or.inr (Or.inl ⟨hlease, hended hstate⟩)
  | renew _ _ _ hlease => exact Or.inl hlease

/-- A Linux job runs after an edge only if it ran before under the same lease, or the edge is the
installer handoff of the queued job. -/
theorem linux_running_cases (h : JobEdge old new e) (hlinux : old.operation = .installLinux)
    (hpaused : old.state ≠ .paused) (hrunning : new.state = .running) :
    (old.state = .running ∧ new.leaseId = old.leaseId) ∨
      ∃ deviceId imageId duration now leaseId,
        e = .leaseInstallerJob old.id deviceId imageId duration now leaseId .written ∧
          old.awaitsInstaller deviceId imageId = .ok () ∧ new.leaseId = some leaseId := by
  cases h with
  | transition _ hcontrol hallows hstate hlease =>
    obtain rfl : _ = JobState.running := hstate.symm.trans hrunning
    rcases JobState.allows_running_iff.1 hallows with hold | hold
    · simp [DeploymentJob.installerControls, hlinux, hold] at hcontrol
    · exact absurd hold hpaused
  | claim hclaim => exact absurd hlinux (DeploymentJob.isClaimable_iff.1 hclaim).1
  | markBooting _ hawaits hstate =>
    have hwaiting := (DeploymentJob.awaitsInstaller_eq_ok_iff.1 hawaits).2.1
    rw [hstate, hwaiting] at hrunning
    exact absurd hrunning (by decide)
  | handOff hid hawaits _ hlease =>
    exact Or.inr ⟨_, _, _, _, _, by rw [hid], hawaits, hlease⟩
  | advanceInstaller _ _ hstate hlease => exact Or.inl ⟨hstate ▸ hrunning, hlease⟩
  | @finishInstaller _ _ _ succeeded _ _ _ _ _ hstate =>
    rw [hrunning] at hstate
    cases succeeded <;> simp at hstate
  | advance _ hcheck => exact absurd hlinux (DeploymentJob.checkAgentLease_eq_ok_iff.1 hcheck).1
  | finish _ hcheck => exact absurd hlinux (DeploymentJob.checkAgentLease_eq_ok_iff.1 hcheck).1
  | renew _ hcheck => exact absurd hlinux (DeploymentJob.checkControlLease_eq_ok_iff.1 hcheck).1

/-- What an edge does to a Linux job that was handed off: it keeps its state and its lease, it
fails, it succeeds by the installer that presents its current lease, or the operator queues the
failed job again. Its expiry changes only while its lease is current. -/
theorem linux_handed_off_cases (h : JobEdge old new e) (hlinux : old.operation = .installLinux)
    (hold : old.state = .running ∨ old.state = .failed ∨ old.state = .succeeded) :
    (new.state = old.state ∧ new.leaseId = old.leaseId ∧
        (new.leaseExpiresAt = old.leaseExpiresAt ∨
          ∃ now ∈ e.readings, old.leaseCurrentAt now = true)) ∨
      (old.state = .running ∧ new.state = .failed ∧
        ((new.leaseId = old.leaseId ∧ new.leaseExpiresAt = old.leaseExpiresAt) ∨
          ∃ now ∈ e.readings, old.leaseCurrentAt now = true)) ∨
      (old.state = .running ∧ new.state = .succeeded ∧
        ∃ deviceId leaseId errorMessage now later,
          e = .completeInstaller old.id deviceId leaseId true errorMessage now later .written ∧
            old.checkInstallerLease deviceId leaseId now = .ok ()) ∨
      (old.state = .failed ∧ new.state = .waiting ∧
        ∃ now, e = .transition old.id .waiting now .written) := by
  cases h with
  | @transition id nextState now hid hcontrol hallows hstate hlease hexpiry =>
    rcases hold with hold | hold | hold
    · have hfailed : nextState = .failed := by
        simpa [DeploymentJob.installerControls, hlinux, hold] using hcontrol
      exact Or.inr (Or.inl ⟨hold, hstate.trans hfailed, Or.inl ⟨hlease, hexpiry⟩⟩)
    · rw [hold] at hallows
      have hwaiting : nextState = .waiting := by
        cases nextState <;> simp_all [JobState.allows]
      subst hwaiting
      exact Or.inr (Or.inr (Or.inr ⟨hold, hstate, now, by rw [hid]⟩))
    · rw [hold, JobState.not_allows_of_isTerminal rfl] at hallows
      exact absurd hallows (by decide)
  | claim hclaim => exact absurd hlinux (DeploymentJob.isClaimable_iff.1 hclaim).1
  | markBooting _ _ hstate hlease hexpiry => exact Or.inl ⟨hstate, hlease, Or.inl hexpiry⟩
  | handOff _ hawaits =>
    rw [(DeploymentJob.awaitsInstaller_eq_ok_iff.1 hawaits).2.1] at hold
    exact absurd hold (by decide)
  | @advanceInstaller _ _ _ _ _ _ _ _ now later _ hcheck hstate hlease =>
    have hcurrent := (DeploymentJob.checkInstallerLease_eq_ok_iff.1 hcheck).2.2.2.2
    exact Or.inl ⟨hstate, hlease, Or.inr ⟨now, by simp [JobEvent.readings], hcurrent⟩⟩
  | @finishInstaller _ _ _ succeeded _ now later hid hcheck hstate =>
    obtain ⟨-, -, hrunning, -, hcurrent⟩ := DeploymentJob.checkInstallerLease_eq_ok_iff.1 hcheck
    cases succeeded with
    | false =>
      exact Or.inr (Or.inl ⟨hrunning, hstate, Or.inr ⟨now, by simp [JobEvent.readings], hcurrent⟩⟩)
    | true => exact Or.inr (Or.inr (Or.inl ⟨hrunning, hstate, _, _, _, _, _, by rw [hid], hcheck⟩))
  | advance _ hcheck => exact absurd hlinux (DeploymentJob.checkAgentLease_eq_ok_iff.1 hcheck).1
  | finish _ hcheck => exact absurd hlinux (DeploymentJob.checkAgentLease_eq_ok_iff.1 hcheck).1
  | renew _ hcheck => exact absurd hlinux (DeploymentJob.checkControlLease_eq_ok_iff.1 hcheck).1

end JobEdge

/-! ### One job -/

/-- What holds of a job in every reachable state: it has one target, its ids were minted, its lease
and its expiry are recorded together, and a Linux job is never paused and runs under a lease. -/
structure JobCoherent (minted : List Uuid) (job : DeploymentJob) : Prop where
  sole_target : job.targets.length = 1
  id_minted : job.id ∈ minted
  lease_minted : ∀ leaseId, job.leaseId = some leaseId → leaseId ∈ minted
  expiry_iff : job.leaseExpiresAt.isSome = job.leaseId.isSome
  linux_ne_paused : job.operation = .installLinux → job.state ≠ .paused
  linux_leased : job.operation = .installLinux → job.state = .running → job.leaseId.isSome = true

namespace JobCoherent

variable {minted minted' : List Uuid} {job old new : DeploymentJob} {e : JobEvent}

theorem mono (h : JobCoherent minted job) (hminted : minted ⊆ minted') :
    JobCoherent minted' job where
  sole_target := h.sole_target
  id_minted := hminted h.id_minted
  lease_minted leaseId hlease := hminted (h.lease_minted leaseId hlease)
  expiry_iff := h.expiry_iff
  linux_ne_paused := h.linux_ne_paused
  linux_leased := h.linux_leased

/-- The lease and the expiry stay together along an edge. -/
private theorem expiry_iff_of_jobEdge (h : JobCoherent minted old) (hedge : JobEdge old new e) :
    new.leaseExpiresAt.isSome = new.leaseId.isSome := by
  have hcurrent : ∀ {now}, old.leaseCurrentAt now = true → old.leaseId.isSome = true := by
    intro now hnow
    obtain ⟨expiresAt, hexpiry, -⟩ := DeploymentJob.leaseCurrentAt_iff.1 hnow
    rw [← h.expiry_iff, hexpiry, Option.isSome_some]
  cases hedge with
  | transition _ _ _ _ hlease hexpiry | markBooting _ _ _ hlease hexpiry =>
    rw [hlease, hexpiry, h.expiry_iff]
  | claim _ _ _ hlease hexpiry | handOff _ _ _ hlease hexpiry => simp [hlease, hexpiry]
  | advanceInstaller _ hcheck _ hlease hexpiry =>
    have hlease' := hcurrent (DeploymentJob.checkInstallerLease_eq_ok_iff.1 hcheck).2.2.2.2
    rw [hlease, hexpiry, hlease']
    rfl
  | finishInstaller _ _ _ hlease hexpiry | finish _ _ _ hlease hexpiry => simp [hlease, hexpiry]
  | advance _ hcheck _ hlease hexpiry =>
    have hlease' := hcurrent (DeploymentJob.checkAgentLease_eq_ok_iff.1 hcheck).2.2.2.2
    rw [hlease, hexpiry, hlease']
    rfl
  | renew _ hcheck _ hlease hexpiry =>
    rw [hlease, hexpiry, (DeploymentJob.checkControlLease_eq_ok_iff.1 hcheck).2.2.2,
      Option.isSome_some, Option.isSome_some]

/-- A Linux job is not paused by an edge. -/
private theorem linux_ne_paused_of_jobEdge (hlinux : old.operation = .installLinux)
    (hedge : JobEdge old new e) (hold : old.state ≠ .paused) : new.state ≠ .paused := by
  intro hpaused
  rcases hedge.state_eq_or_allows with heq | hallows
  · exact hold (heq ▸ hpaused)
  · rw [hpaused] at hallows
    have hrunning := JobState.allows_paused_iff.1 hallows
    cases hedge with
    | transition _ hcontrol _ hstate =>
      obtain rfl : _ = JobState.paused := hstate.symm.trans hpaused
      simp [DeploymentJob.installerControls, hlinux, hrunning] at hcontrol
    | claim _ _ hstate => exact absurd (hpaused.symm.trans hstate) (by decide)
    | handOff _ _ hstate => exact absurd (hpaused.symm.trans hstate) (by decide)
    | markBooting _ _ hstate | advanceInstaller _ _ hstate | advance _ _ hstate
    | renew _ _ hstate => exact hold (hstate ▸ hpaused)
    | @finishInstaller _ _ _ succeeded _ _ _ _ _ hstate
    | @finish _ _ _ succeeded _ _ _ _ _ hstate =>
      rw [hpaused] at hstate
      cases succeeded <;> simp at hstate

theorem of_jobEdge (h : JobCoherent minted old) (hsame : SameTask old new)
    (hedge : JobEdge old new e) (hminted : minted ⊆ minted')
    (hmint : ∀ id, e.mint = some id → id ∈ minted') : JobCoherent minted' new where
  sole_target := hsame.targets ▸ h.sole_target
  id_minted := hsame.id ▸ hminted h.id_minted
  lease_minted leaseId hlease := by
    rcases hedge.leaseId_cases with heq | ⟨hnone, -⟩ | ⟨minted, hnew, hmint'⟩
    · exact hminted (h.lease_minted leaseId (heq ▸ hlease))
    · simp [hnone] at hlease
    · obtain rfl : minted = leaseId := Option.some.inj (hnew.symm.trans hlease)
      exact hmint minted hmint'
  expiry_iff := h.expiry_iff_of_jobEdge hedge
  linux_ne_paused hlinux := by
    rw [hsame.operation] at hlinux
    exact linux_ne_paused_of_jobEdge hlinux hedge (h.linux_ne_paused hlinux)
  linux_leased hlinux hrunning := by
    rw [hsame.operation] at hlinux
    rcases hedge.linux_running_cases hlinux (h.linux_ne_paused hlinux) hrunning with
      ⟨hold, hlease⟩ | ⟨_, _, _, _, leaseId, _, -, hlease⟩
    · rw [hlease]
      exact h.linux_leased hlinux hold
    · rw [hlease, Option.isSome_some]

end JobCoherent

/-! ### The list of jobs -/

/-- What holds of the list of jobs in every reachable state: the jobs have distinct ids, a device is
the target of at most one job that is not terminal, and no lease is recorded twice. -/
structure JobsCoherent (minted : List Uuid) (jobs : List DeploymentJob) : Prop where
  job : ∀ job ∈ jobs, JobCoherent minted job
  ids_nodup : (jobs.map DeploymentJob.id).Nodup
  device_free : ∀ a ∈ jobs, ∀ b ∈ jobs, a.state.isTerminal = false → b.state.isTerminal = false →
    ∀ deviceId, a.targetsDevice deviceId = true → b.targetsDevice deviceId = true → a = b
  leases_distinct : ∀ a ∈ jobs, ∀ b ∈ jobs, ∀ leaseId, a.leaseId = some leaseId →
    b.leaseId = some leaseId → a = b

namespace JobsCoherent

variable {minted minted' : List Uuid} {jobs jobs' : List DeploymentJob} {e : JobEvent}

theorem nil : JobsCoherent minted [] where
  job := by simp
  ids_nodup := by simp
  device_free := by simp
  leases_distinct := by simp

theorem mono (h : JobsCoherent minted jobs) (hminted : minted ⊆ minted') :
    JobsCoherent minted' jobs where
  job job hjob := (h.job job hjob).mono hminted
  ids_nodup := h.ids_nodup
  device_free := h.device_free
  leases_distinct := h.leases_distinct

/-- Two jobs with the same id are one job. -/
theorem eq_of_id_eq (h : JobsCoherent minted jobs) {a b : DeploymentJob} (ha : a ∈ jobs)
    (hb : b ∈ jobs) (hid : a.id = b.id) : a = b :=
  eq_of_key_eq DeploymentJob.id h.ids_nodup ha hb hid

/-- A sublist of the jobs is coherent. -/
private theorem sublist (h : JobsCoherent minted jobs) (hsub : jobs'.Sublist jobs) :
    JobsCoherent minted jobs' where
  job job hjob := h.job job (hsub.subset hjob)
  ids_nodup := h.ids_nodup.sublist (hsub.map _)
  device_free a ha b hb := h.device_free a (hsub.subset ha) b (hsub.subset hb)
  leases_distinct a ha b hb := h.leases_distinct a (hsub.subset ha) b (hsub.subset hb)

/-- A fresh job that is alone on its device joins the jobs. -/
private theorem added (h : JobsCoherent minted jobs) {job : DeploymentJob}
    {target : DeploymentTarget} (hjob : JobCoherent minted' job) (hminted : minted ⊆ minted')
    (hfresh : job.id ∉ minted) (hlease : job.leaseId = none) (htargets : job.targets = [target])
    (hfree : ∀ other ∈ jobs, other.state.isTerminal = false →
      other.targetsDevice target.deviceId = false) : JobsCoherent minted' (jobs ++ [job]) where
  job other hother := by
    rcases List.mem_append.1 hother with hother | hother
    · exact (h.job other hother).mono hminted
    · exact List.mem_singleton.1 hother ▸ hjob
  ids_nodup := by
    rw [List.map_append, List.nodup_append]
    refine ⟨h.ids_nodup, by simp, fun id hid id' hid' => ?_⟩
    obtain ⟨other, hother, rfl⟩ := List.mem_map.1 hid
    obtain rfl : id' = job.id := by simpa using hid'
    intro heq
    exact hfresh (heq ▸ (h.job other hother).id_minted)
  device_free a ha b hb hactive hactive' deviceId hdevice hdevice' := by
    have halone : ∀ other ∈ jobs, other.state.isTerminal = false →
        other.targetsDevice deviceId = true → job.targetsDevice deviceId = true → False := by
      intro other hother hother' hdevice hjob'
      have htarget : target.deviceId = deviceId := by
        simpa [DeploymentJob.targetsDevice, htargets] using hjob'
      have hfalse := hfree other hother hother'
      rw [htarget, hdevice] at hfalse
      exact Bool.true_eq_false_eq_False hfalse
    rcases List.mem_append.1 ha with haOld | haNew <;>
      rcases List.mem_append.1 hb with hbOld | hbNew
    · exact h.device_free a haOld b hbOld hactive hactive' deviceId hdevice hdevice'
    · obtain rfl := List.mem_singleton.1 hbNew
      exact (halone a haOld hactive hdevice hdevice').elim
    · obtain rfl := List.mem_singleton.1 haNew
      exact (halone b hbOld hactive' hdevice' hdevice).elim
    · rw [List.mem_singleton.1 haNew, List.mem_singleton.1 hbNew]
  leases_distinct a ha b hb leaseId hleaseA hleaseB := by
    rcases List.mem_append.1 ha with ha | ha
    · rcases List.mem_append.1 hb with hb | hb
      · exact h.leases_distinct a ha b hb leaseId hleaseA hleaseB
      · rw [List.mem_singleton.1 hb, hlease] at hleaseB
        simp at hleaseB
    · rw [List.mem_singleton.1 ha, hlease] at hleaseA
      simp at hleaseA

/-- One job moves along an edge. -/
private theorem edited (h : JobsCoherent minted jobs) {old new : DeploymentJob}
    (hsame : SameTask old new) (hedge : JobEdge old new e) (hreplaces : Replaces jobs old new jobs')
    (hminted : minted ⊆ minted') (hmint : ∀ id, e.mint = some id → id ∈ minted')
    (hfresh : ∀ id, e.mint = some id → id ∉ minted) : JobsCoherent minted' jobs' := by
  have hmem {c : DeploymentJob} : c ∈ jobs' ↔ c = new ∨ (c ∈ jobs ∧ c.id ≠ old.id) :=
    hreplaces.mem_iff DeploymentJob.id hsame.id h.ids_nodup
  have hold := hreplaces.mem_old
  -- an old job on a device of the new one, or with its lease, is the job that was rewritten
  have hdevice : ∀ c ∈ jobs, c.id ≠ old.id → c.state.isTerminal = false →
      new.state.isTerminal = false → ∀ deviceId, c.targetsDevice deviceId = true →
        new.targetsDevice deviceId = true → False := by
    intro c hc hne hactive hactive' deviceId hcd hnd
    have hod : old.targetsDevice deviceId = true := by
      simpa only [DeploymentJob.targetsDevice, hsame.targets] using hnd
    have heq := h.device_free c hc old hold hactive (hedge.isTerminal_eq_false hactive') deviceId
      hcd hod
    exact hne (congrArg DeploymentJob.id heq)
  have hlease : ∀ c ∈ jobs, c.id ≠ old.id → ∀ leaseId, c.leaseId = some leaseId →
      new.leaseId = some leaseId → False := by
    intro c hc hne leaseId hcl hnl
    rcases hedge.leaseId_cases with heq | ⟨hnone, -⟩ | ⟨fresh, hnew, hfresh'⟩
    · have heq' := h.leases_distinct c hc old hold leaseId hcl (heq ▸ hnl)
      exact hne (congrArg DeploymentJob.id heq')
    · simp [hnone] at hnl
    · obtain rfl : fresh = leaseId := Option.some.inj (hnew.symm.trans hnl)
      exact hfresh fresh hfresh' ((h.job c hc).lease_minted fresh hcl)
  refine ⟨fun c hc => ?_, ?_, fun a ha b hb hactive hactive' deviceId had hbd => ?_,
    fun a ha b hb leaseId hal hbl => ?_⟩
  · rcases hmem.1 hc with rfl | ⟨hc, -⟩
    · exact (h.job old hold).of_jobEdge hsame hedge hminted hmint
    · exact (h.job c hc).mono hminted
  · rw [hreplaces.map_eq DeploymentJob.id hsame.id]
    exact h.ids_nodup
  · rcases hmem.1 ha with rfl | ⟨ha, hane⟩ <;> rcases hmem.1 hb with rfl | ⟨hb, hbne⟩
    · rfl
    · exact (hdevice b hb hbne hactive' hactive deviceId hbd had).elim
    · exact (hdevice a ha hane hactive hactive' deviceId had hbd).elim
    · exact h.device_free a ha b hb hactive hactive' deviceId had hbd
  · rcases hmem.1 ha with rfl | ⟨ha, hane⟩ <;> rcases hmem.1 hb with rfl | ⟨hb, hbne⟩
    · rfl
    · exact (hlease b hb hbne leaseId hbl hal).elim
    · exact (hlease a ha hane leaseId hal hbl).elim
    · exact h.leases_distinct a ha b hb leaseId hal hbl

theorem of_jobsEdge (h : JobsCoherent minted jobs) (hedge : JobsEdge jobs e jobs')
    (hminted : minted ⊆ minted') (hmint : ∀ id, e.mint = some id → id ∈ minted')
    (hfresh : ∀ id, e.mint = some id → id ∉ minted) : JobsCoherent minted' jobs' := by
  cases hedge with
  | added job target hid hstate hlease hexpiry htargets hfree _ =>
    refine h.added ⟨?_, hmint _ hid, ?_, ?_, ?_, ?_⟩ hminted (hfresh _ hid) hlease htargets hfree
    · rw [htargets, List.length_singleton]
    · simp [hlease]
    · simp [hlease, hexpiry]
    · rintro -
      rcases hstate with hstate | hstate <;> simp [hstate]
    · rintro - hrunning
      rcases hstate with hstate | hstate <;> simp [hstate] at hrunning
  | edited hsame hedge hreplaces => exact h.edited hsame hedge hreplaces hminted hmint hfresh
  | removed => exact (h.sublist List.filter_sublist).mono hminted

end JobsCoherent

/-! ### The repository -/

namespace RepositoryWorld

variable {w w' : RepositoryWorld} {e : JobEvent}

/-- The invariant of a run: the jobs are coherent, and the manifest mirrors them. -/
structure Coherent (w : RepositoryWorld) : Prop where
  jobs : JobsCoherent w.minted w.repo.jobs
  mirrored : w.repo.Mirrored

theorem coherent_empty (manifestPath : String) (clock : Instant) :
    (empty manifestPath clock).Coherent where
  jobs := .nil
  mirrored := Or.inr (Or.inr ⟨rfl, rfl⟩)

/-- A step keeps the jobs, or replaces them along one edge. -/
theorem Coherent.jobsEdge_of_step (h : w.Coherent) (hstep : w.step e = some w') :
    w'.repo.jobs = w.repo.jobs ∨ JobsEdge w.repo.jobs e w'.repo.jobs :=
  h.mirrored.jobs_of_callEffect (JobEvent.callEffect_of_apply (step_eq_some_iff.1 hstep).2.1)

/-- A job after a step was there before, is fresh, or moved along an edge. -/
theorem Coherent.mem_after_cases (h : w.Coherent) (hstep : w.step e = some w') {job : DeploymentJob}
    (hjob : job ∈ w'.repo.jobs) :
    job ∈ w.repo.jobs ∨
      (e.mint = some job.id ∧ (job.state = .draft ∨ job.state = .waiting) ∧ job.leaseId = none) ∨
      ∃ old ∈ w.repo.jobs, SameTask old job ∧ JobEdge old job e := by
  rcases h.jobsEdge_of_step hstep with heq | hedge
  · exact Or.inl (heq ▸ hjob)
  · generalize w'.repo.jobs = jobs' at hedge hjob
    cases hedge with
    | added added target hmint hstate hlease =>
      rcases List.mem_append.1 hjob with hold | hnew
      · exact Or.inl hold
      · obtain rfl := List.mem_singleton.1 hnew
        exact Or.inr (Or.inl ⟨hmint, hstate, hlease⟩)
    | @edited _ old new hsame hedge hreplaces =>
      rcases hreplaces.of_mem hjob with rfl | hold
      · exact Or.inr (Or.inr ⟨old, hreplaces.mem_old, hsame, hedge⟩)
      · exact Or.inl hold
    | removed => exact Or.inl (List.mem_filter.1 hjob).1

/-- A job before a step stays, is removed after its end, or moves along an edge. -/
theorem Coherent.mem_before_cases (h : w.Coherent) (hstep : w.step e = some w')
    {job : DeploymentJob} (hjob : job ∈ w.repo.jobs) :
    job ∈ w'.repo.jobs ∨
      (e = .remove job.id .written ∧ JobRepository.isDeletable job.state = true) ∨
      ∃ new ∈ w'.repo.jobs, SameTask job new ∧ JobEdge job new e := by
  rcases h.jobsEdge_of_step hstep with heq | hedge
  · exact Or.inl (heq ▸ hjob)
  · generalize w'.repo.jobs = jobs' at hedge
    cases hedge with
    | added => exact Or.inl (List.mem_append_left _ hjob)
    | @edited _ old new hsame hedge hreplaces =>
      by_cases heq : job = old
      · exact Or.inr (Or.inr ⟨new, hreplaces.mem_new, heq ▸ hsame, heq ▸ hedge⟩)
      · exact Or.inl (hreplaces.mem_of_ne hjob heq)
    | @removed id found he hmem hid hdeletable =>
      by_cases heq : job.id = id
      · obtain rfl := h.jobs.eq_of_id_eq hmem hjob (hid.trans heq.symm)
        exact Or.inr (Or.inl ⟨hid ▸ he, hdeletable⟩)
      · exact Or.inl (List.mem_filter.2 ⟨hjob, by simpa using heq⟩)

/-- A job that holds a lease after a step held it before, or the step minted it for this job. -/
theorem Coherent.lease_after_cases (h : w.Coherent) (hstep : w.step e = some w')
    {job : DeploymentJob} {leaseId : Uuid} (hjob : job ∈ w'.repo.jobs)
    (hlease : job.leaseId = some leaseId) :
    (∃ old ∈ w.repo.jobs, SameTask old job ∧ old.leaseId = some leaseId) ∨
      (e.mint = some leaseId ∧ ∃ old ∈ w.repo.jobs, SameTask old job ∧ JobEdge old job e) := by
  rcases h.mem_after_cases hstep hjob with hold | ⟨-, -, hnone⟩ | ⟨old, hold, hsame, hedge⟩
  · exact Or.inl ⟨job, hold, .refl job, hlease⟩
  · simp [hnone] at hlease
  · rcases hedge.leaseId_cases with heq | ⟨hnone, -⟩ | ⟨fresh, hnew, hmint⟩
    · exact Or.inl ⟨old, hold, hsame, heq ▸ hlease⟩
    · simp [hnone] at hlease
    · obtain rfl : fresh = leaseId := Option.some.inj (hnew.symm.trans hlease)
      exact Or.inr ⟨hmint, old, hold, hsame, hedge⟩

theorem Coherent.of_step (h : w.Coherent) (hstep : w.step e = some w') : w'.Coherent where
  jobs := by
    rcases h.jobsEdge_of_step hstep with heq | hedge
    · rw [heq]
      exact h.jobs.mono (minted_subset hstep)
    · exact h.jobs.of_jobsEdge hedge (minted_subset hstep) (fun _ => mem_minted_of_mint hstep)
        fun _ => notMem_minted_of_mint hstep
  mirrored :=
    h.mirrored.of_callEffect (JobEvent.callEffect_of_apply (step_eq_some_iff.1 hstep).2.1)

/-- Every state that a run reaches from a coherent state is coherent. -/
theorem Coherent.of_leads {es : List JobEvent} (h : w.Coherent) (hrun : Leads step w es w') :
    w'.Coherent :=
  hrun.invariant h fun _ _ _ => Coherent.of_step

/-- Every state that a run reaches from the empty repository is coherent. -/
theorem coherent_of_leads {manifestPath : String} {clock : Instant} {es : List JobEvent}
    (hrun : Leads step (empty manifestPath clock) es w) : w.Coherent :=
  (coherent_empty manifestPath clock).of_leads hrun

/-! ### What is known of a job for good -/

variable {jobId : Uuid} {P Q : DeploymentJob → Prop}

/-- The id was minted, and a job that bears it satisfies `P`. -/
structure OfJob (w : RepositoryWorld) (jobId : Uuid) (P : DeploymentJob → Prop) : Prop where
  minted : jobId ∈ w.minted
  job : ∀ job ∈ w.repo.jobs, job.id = jobId → P job

theorem OfJob.mono (h : w.OfJob jobId P) (hPQ : ∀ job, P job → Q job) : w.OfJob jobId Q where
  minted := h.minted
  job job hjob hid := hPQ job (h.job job hjob hid)

/-- Ids are not used twice, so what no call rewrites is known for good. -/
theorem OfJob.of_step (h : w.OfJob jobId P) (hw : w.Coherent) (hstep : w.step e = some w')
    (hP : ∀ old new, SameTask old new → P old → P new) : w'.OfJob jobId P where
  minted := minted_subset hstep h.minted
  job job hjob hid := by
    rcases hw.mem_after_cases hstep hjob with hold | ⟨hmint, -⟩ | ⟨old, hold, hsame, -⟩
    · exact h.job job hold hid
    · exact absurd h.minted (notMem_minted_of_mint hstep (hid ▸ hmint))
    · exact hP old job hsame (h.job old hold (hsame.id.symm.trans hid))

/-- Every later state of a run knows it, too. -/
theorem OfJob.of_leads {es : List JobEvent} (h : w.OfJob jobId P) (hw : w.Coherent)
    (hrun : Leads step w es w') (hP : ∀ old new, SameTask old new → P old → P new) :
    w'.OfJob jobId P :=
  (hrun.invariant (I := fun w => w.Coherent ∧ w.OfJob jobId P) ⟨hw, h⟩ fun _ _ _ hI hstep =>
    ⟨hI.1.of_step hstep, hI.2.of_step hI.1 hstep hP⟩).2

/-- A job of the repository is known by its id. -/
theorem Coherent.ofJob (hw : w.Coherent) {job : DeploymentJob} (hjob : job ∈ w.repo.jobs) :
    w.OfJob job.id (SameTask job) where
  minted := (hw.jobs.job job hjob).id_minted
  job other hother hid := by
    obtain rfl := hw.jobs.eq_of_id_eq hother hjob hid
    exact .refl other

end RepositoryWorld

end EasyDeployMesh
