import EasyDeployMesh.Service.JobRepository.Invariant

/-!
# One job and one lease for a device

The reason for the single target of a job and for the check of `insert` against the other jobs: at
every moment at most one party may write to the disks of a machine. A lease of a device is
authorized only while its job runs or is paused, so a device with one job that can still run has at
most one authorized lease, and a call that mints a lease takes a job whose lease, if it has one, is
not authorized any more.

## Main definitions

* `EasyDeployMesh.JobRepository.LeasePasses`: a lease passes the authorization test for a device.
* `EasyDeployMesh.JobRepository.DeviceExclusive`: the exclusivity of devices in one state.

## Main results

* `EasyDeployMesh.RepositoryWorld.deviceExclusive_of_leads`: every state of every run is exclusive.
-/

namespace EasyDeployMesh

open Foundations

namespace JobRepository

variable {repo : JobRepository} {minted : List Uuid} {deviceId leaseId : Uuid} {now : Instant}

/-- The lease passes the test of `authorized_lease` and `update_leased_job`, or the test of
`update_installer_job`, for some job on the device. -/
def LeasePasses (repo : JobRepository) (deviceId leaseId : Uuid) (now : Instant) : Prop :=
  ∃ job ∈ repo.jobs, job.checkAgentLease deviceId leaseId now = .ok () ∨
    job.checkInstallerLease deviceId leaseId now = .ok ()

/-- At most one job that is not terminal and at most one authorized lease for a device; a lease is
minted for a device only when no lease of the device is authorized. -/
structure DeviceExclusive (repo : JobRepository) : Prop where
  sole_target : ∀ job ∈ repo.jobs, ∃ target, job.targets = [target]
  one_job : ∀ deviceId, (repo.jobs.filter fun job =>
    !job.state.isTerminal && job.targetsDevice deviceId).length ≤ 1
  one_lease : ∀ deviceId leaseId leaseId' now, repo.LeasePasses deviceId leaseId now →
    repo.LeasePasses deviceId leaseId' now → leaseId = leaseId'
  agent_mint : ∀ deviceId duration isEligible now leaseId write leased,
    (repo.leaseForDeviceIf deviceId duration isEligible now leaseId write).1 = .ok (some leased) →
      ∀ other, ¬ repo.LeasePasses deviceId other now
  installer_mint : ∀ jobId deviceId imageId duration now leaseId write leased,
    (repo.leaseInstallerJob jobId deviceId imageId duration now leaseId write).1 = .ok leased →
      ∀ other, ¬ repo.LeasePasses deviceId other now

/-- A job whose lease passes the test is not terminal, is on the device, and holds the lease. -/
private theorem exists_of_leasePasses (h : repo.LeasePasses deviceId leaseId now) :
    ∃ job ∈ repo.jobs, job.state.isActive = true ∧ job.targetsDevice deviceId = true ∧
      job.leaseId = some leaseId ∧ job.leaseCurrentAt now = true := by
  obtain ⟨job, hjob, hcheck | hcheck⟩ := h
  · obtain ⟨-, hdevice, hactive, hlease, hcurrent⟩ :=
      DeploymentJob.checkAgentLease_eq_ok_iff.1 hcheck
    exact ⟨job, hjob, hactive, hdevice, hlease, hcurrent⟩
  · obtain ⟨-, hdevice, hrunning, hlease, hcurrent⟩ :=
      DeploymentJob.checkInstallerLease_eq_ok_iff.1 hcheck
    exact ⟨job, hjob, JobState.isActive_iff.2 (Or.inl hrunning),
      DeploymentJob.targetsDevice_of_hasSoleTarget hdevice, hlease, hcurrent⟩

private theorem isTerminal_of_isActive {state : JobState} (h : state.isActive = true) :
    state.isTerminal = false := by
  rcases JobState.isActive_iff.1 h with rfl | rfl <;> rfl

/-- A list without duplicates whose members are all equal has at most one element. -/
private theorem length_le_one {α : Type} {l : List α} (hnodup : l.Nodup)
    (heq : ∀ a ∈ l, ∀ b ∈ l, a = b) : l.length ≤ 1 := by
  match l, hnodup, heq with
  | [], _, _ => simp
  | [a], _, _ => simp
  | a :: b :: l, hnodup, heq =>
    obtain rfl : a = b := heq a (by simp) b (by simp)
    simp at hnodup

private theorem one_job_of_coherent (h : JobsCoherent minted repo.jobs) (deviceId : Uuid) :
    (repo.jobs.filter fun job =>
      !job.state.isTerminal && job.targetsDevice deviceId).length ≤ 1 := by
  refine length_le_one ((List.Nodup.of_map _ h.ids_nodup).filter _) fun a ha b hb => ?_
  simp only [List.mem_filter, Bool.and_eq_true, Bool.not_eq_true'] at ha hb
  exact h.device_free a ha.1 b hb.1 ha.2.1 hb.2.1 deviceId ha.2.2 hb.2.2

/-- The job of a lease that passes is the only job of the device that can still run. -/
private theorem eq_of_leasePasses (h : JobsCoherent minted repo.jobs)
    (hpasses : repo.LeasePasses deviceId leaseId now) {job : DeploymentJob} (hjob : job ∈ repo.jobs)
    (hactive : job.state.isTerminal = false) (hdevice : job.targetsDevice deviceId = true) :
    job.state.isActive = true ∧ job.leaseId = some leaseId ∧ job.leaseCurrentAt now = true := by
  obtain ⟨holder, hholder, hactive', hdevice', hlease, hcurrent⟩ := exists_of_leasePasses hpasses
  have heq : job = holder := h.device_free job hjob holder hholder hactive
    (isTerminal_of_isActive hactive') deviceId hdevice hdevice'
  exact heq ▸ ⟨hactive', hlease, hcurrent⟩

private theorem one_lease_of_coherent (h : JobsCoherent minted repo.jobs) {leaseId' : Uuid}
    (hpasses : repo.LeasePasses deviceId leaseId now)
    (hpasses' : repo.LeasePasses deviceId leaseId' now) : leaseId = leaseId' := by
  obtain ⟨holder, hholder, hactive, hdevice, hlease, -⟩ := exists_of_leasePasses hpasses
  have hlease' := (eq_of_leasePasses h hpasses' hholder (isTerminal_of_isActive hactive)
    hdevice).2.1
  exact Option.some.inj (hlease.symm.trans hlease')

/-- A job that an Agent can claim holds no lease that passes. -/
private theorem not_leasePasses_of_isClaimable (h : JobsCoherent minted repo.jobs)
    {job : DeploymentJob} (hjob : job ∈ repo.jobs) (hclaim : job.isClaimable deviceId now = true)
    (other : Uuid) : ¬ repo.LeasePasses deviceId other now := by
  intro hpasses
  obtain ⟨-, hstate, hsole⟩ := DeploymentJob.isClaimable_iff.1 hclaim
  have hdevice := DeploymentJob.targetsDevice_of_hasSoleTarget hsole
  rcases hstate with hwaiting | ⟨hrunning, expiresAt, hexpiry, hexpired⟩
  · have hholder := eq_of_leasePasses h hpasses hjob (by rw [hwaiting]; rfl) hdevice
    rw [hwaiting] at hholder
    exact absurd hholder.1 (by decide)
  · have hholder := eq_of_leasePasses h hpasses hjob (by rw [hrunning]; rfl) hdevice
    obtain ⟨expiresAt', hexpiry', hcurrent⟩ := DeploymentJob.leaseCurrentAt_iff.1 hholder.2.2
    obtain rfl : expiresAt = expiresAt' := Option.some.inj (hexpiry.symm.trans hexpiry')
    exact absurd hexpired (not_lt.2 hcurrent)

theorem deviceExclusive_of_coherent (h : JobsCoherent minted repo.jobs) : repo.DeviceExclusive where
  sole_target job hjob := List.length_eq_one_iff.1 (h.job job hjob).sole_target
  one_job := one_job_of_coherent h
  one_lease _ _ _ _ := one_lease_of_coherent h
  agent_mint deviceId duration isEligible now leaseId write leased hleased other := by
    unfold leaseForDeviceIf at hleased
    split at hleased
    · simp at hleased
    · rename_i job put hfocus
      obtain ⟨_, _, hjobs, -, hclaim, -⟩ := focus_eq_some_iff.1 hfocus
      have hjob : job ∈ repo.jobs := by simp [hjobs]
      exact not_leasePasses_of_isClaimable h hjob (Bool.and_eq_true_iff.1 hclaim).1 other
  installer_mint jobId deviceId imageId duration now leaseId write leased hleased other := by
    intro hpasses
    obtain ⟨-, job, put, hfocus, hhandoff⟩ := editJob_eq_ok_iff.1 hleased
    obtain ⟨_, _, hjobs, -, -, -⟩ := focus_eq_some_iff.1 hfocus
    have hjob : job ∈ repo.jobs := by simp [hjobs]
    have hawaits : job.awaitsInstaller deviceId imageId = .ok () := by
      unfold DeploymentJob.handOff at hhandoff
      split at hhandoff
      · simp at hhandoff
      · assumption
    obtain ⟨-, hwaiting, -, hsole⟩ := DeploymentJob.awaitsInstaller_eq_ok_iff.1 hawaits
    have hholder := eq_of_leasePasses h hpasses hjob (by rw [hwaiting]; rfl)
      (DeploymentJob.targetsDevice_of_hasSoleTarget hsole)
    rw [hwaiting] at hholder
    exact absurd hholder.1 (by decide)

end JobRepository

namespace RepositoryWorld

/-- In every state that a run of the repository reaches, a device has at most one job that is not
terminal and at most one authorized lease, and a new lease is minted for it only while none is
authorized. -/
theorem deviceExclusive_of_leads {manifestPath : String} {clock : Instant} {es : List JobEvent}
    {w : RepositoryWorld} (hrun : Leads step (empty manifestPath clock) es w) :
    w.repo.DeviceExclusive :=
  JobRepository.deviceExclusive_of_coherent (coherent_of_leads hrun).jobs

/-! ### A run with a reclaimed lease -/

/-- The job is leased for two hours, the lease expires, and the job is leased again. -/
def reclaimEvents : List JobEvent :=
  [.enqueue windowsRequest 0 1 .written,
   .leaseForDeviceIf 7 (minutes 120) (fun _ => true) (minutes 1) 2 .written,
   .leaseForDeviceIf 7 (minutes 120) (fun _ => true) (minutes 122) 3 .written]

/-- The state at the end of `reclaimEvents`. -/
def reclaimed : RepositoryWorld :=
  (runFrom step (empty "jobs.json" 0) reclaimEvents).get (by decide)

theorem deviceExclusive_reclaimed :
    reclaimed.repo.jobs.map (fun job => job.leaseId) = [some 3] ∧ reclaimed.repo.DeviceExclusive :=
  ⟨by decide, deviceExclusive_of_leads (Option.some_get _).symm⟩

end RepositoryWorld

end EasyDeployMesh
