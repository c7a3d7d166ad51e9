import EasyDeployMesh.Service.InstallerDeployment.Table

/-!
# The invariant of the deployment service

What ties the sessions and the calls in flight to the jobs, in every state that a run of the service
reaches. A session is bound to one Linux job with its device and image; it records a lease exactly
when its installer has been handed off; a lease is recorded by at most one session, and only jobs of
that session ever held it; and at most one guard has moved a session to `authorizing`. What a call
has read of its session stays true while the session is in the table.

## Main definitions

* `EasyDeployMesh.RepositoryWorld.LeaseOf`: what is known of a lease for good.
* `EasyDeployMesh.ServiceWorld.SessionCoherent`, `EasyDeployMesh.ServiceWorld.CallCoherent`,
  `EasyDeployMesh.ServiceWorld.Coherent`: the invariant of a session, of a call, and of the service.

## Main results

* `EasyDeployMesh.ServiceWorld.Coherent.of_step`, `EasyDeployMesh.ServiceWorld.coherent_of_leads`:
  one step, and a whole run.
-/

namespace EasyDeployMesh

open Foundations

/-! ### What is known of a lease for good -/

namespace RepositoryWorld

variable {w w' : RepositoryWorld} {e : JobEvent} {jobId leaseId : Uuid}

/-- The lease was minted, and only the job `jobId` can hold it. -/
structure LeaseOf (w : RepositoryWorld) (leaseId jobId : Uuid) : Prop where
  minted : leaseId ∈ w.minted
  job : ∀ job ∈ w.repo.jobs, job.leaseId = some leaseId → job.id = jobId

theorem LeaseOf.of_step (h : w.LeaseOf leaseId jobId) (hw : w.Coherent)
    (hstep : w.step e = some w') : w'.LeaseOf leaseId jobId where
  minted := minted_subset hstep h.minted
  job job hjob hlease := by
    rcases hw.lease_after_cases hstep hjob hlease with ⟨old, hold, hsame, hlease⟩ | ⟨hmint, -⟩
    · exact hsame.id.trans (h.job old hold hlease)
    · exact absurd h.minted (notMem_minted_of_mint hstep hmint)

/-- The lease that the handoff of a job mints belongs to this job. -/
theorem Coherent.leaseOf_of_leaseInstallerJob (h : w.Coherent) {deviceId imageId : Uuid}
    {duration : Duration} {now : Instant} {write : WriteOutcome}
    (hstep :
      w.step (.leaseInstallerJob jobId deviceId imageId duration now leaseId write) = some w') :
    w'.LeaseOf leaseId jobId where
  minted := mem_minted_of_mint hstep rfl
  job job hjob hlease := by
    rcases h.lease_after_cases hstep hjob hlease with
      ⟨old, hold, -, hlease⟩ | ⟨-, old, -, hsame, hedge⟩
    · exact absurd ((h.jobs.job old hold).lease_minted leaseId hlease)
        (notMem_minted_of_mint hstep rfl)
    · cases hedge with
      | handOff hid => exact hsame.id.trans hid

end RepositoryWorld

/-! ### Sessions and calls -/

theorem AuthorizesDisk.of_sameTask {call : GuardCall} {binding : SessionBinding}
    {autoinstall : String} {old new : DeploymentJob} (hsame : SameTask old new)
    (h : AuthorizesDisk call binding autoinstall old) :
    AuthorizesDisk call binding autoinstall new := by
  obtain ⟨target, disk, options, htargets, hdisk, hrender⟩ := h
  exact ⟨target, disk, options, hsame.targets.trans htargets, hdisk, hrender⟩

/-- What a call has read of the session. -/
structure SessionBinding.Reads (binding : SessionBinding) (session : InstallerSession) : Prop where
  attemptId : binding.attemptId = session.attemptId
  deviceId : binding.deviceId = session.deviceId
  jobId : binding.jobId = session.jobId
  imageId : binding.imageId = session.imageId
  leaseId : ∀ leaseId, binding.leaseId = some leaseId → session.leaseId = some leaseId

/-- The lease that a guard holds for its session, which does not record it yet. -/
def InstallerCall.unrecordedLease : InstallerCall → Option Uuid
  | authorizeGuard _ (.leased _ _ _ leaseId _) => some leaseId
  | _ => none

section

variable {c : InstallerCall}

theorem InstallerCall.isUnbound_of_isFresh (h : c.isFresh = true) : c.isUnbound = true := by
  cases c with
  | discover query state => cases state <;> simp_all [isFresh, isUnbound]
  | authorizeGuard call state => cases state <;> simp_all [isFresh, isUnbound]
  | reportEvent call state => cases state <;> simp_all [isFresh, isUnbound]
  | completeFirstBoot call state => cases state <;> simp_all [isFresh, isUnbound]
  | fetch call state => rfl

theorem InstallerCall.owner_of_isUnbound (h : c.isUnbound = true) : c.owner = none := by
  cases c with
  | authorizeGuard call state => cases state <;> simp_all [isUnbound, owner]
  | discover | reportEvent | completeFirstBoot | fetch => rfl

theorem InstallerCall.unrecordedLease_of_isUnbound (h : c.isUnbound = true) :
    c.unrecordedLease = none := by
  cases c with
  | authorizeGuard call state => cases state <;> simp_all [isUnbound, unrecordedLease]
  | discover | reportEvent | completeFirstBoot | fetch => rfl

variable {digest : String → String} {repo : JobRepository} {sessions : SessionTable}
  {input : SectionInput} {r : SectionResult InstallerCall}

/-- A call owns a session after a section if it owned it before, or has just claimed it. -/
theorem SectionEdge.owner_cases (h : SectionEdge digest repo sessions input c r) {sessionId : Uuid}
    (howner : r.state.owner = some sessionId) :
    c.owner = some sessionId ∨
      ∃ session, sessions.lookup sessionId = some session ∧ session.phase = .offered := by
  cases h with
  | unbound _ hunbound | rejected _ hunbound =>
    have hnone := InstallerCall.owner_of_isUnbound hunbound
    exact absurd (hnone.symm.trans howner) (by simp)
  | claimed hlookup hphase =>
    obtain rfl := Option.some.inj howner
    exact Or.inr ⟨_, hlookup, hphase⟩
  | checked | failedCheck | leased | failedLease | failedRecord => exact Or.inl howner
  | assigned | marked | overflowed | opened | offered | replaying | recorded | released
  | notReleased | replayed | reporting | reported | eventCompleted | eventAwaits | completing
  | completed | bootCompleted => exact absurd howner.symm (Option.some_ne_none _)

/-- A guard comes to hold a lease by the handoff that mints it. -/
theorem SectionEdge.mint_of_unrecordedLease (h : SectionEdge digest repo sessions input c r)
    {leaseId : Uuid} (hlease : r.state.unrecordedLease = some leaseId) :
    ∃ e, r.jobs = some e ∧ e.mint = some leaseId := by
  cases h with
  | unbound _ hunbound | rejected _ hunbound =>
    have hnone := InstallerCall.unrecordedLease_of_isUnbound hunbound
    exact absurd (hnone.symm.trans hlease) (by simp)
  | leased hok hnew =>
    obtain ⟨-, old, -, -, hedge, -⟩ := JobRepository.leaseInstallerJob_accepted hok
    cases hedge with
    | handOff _ _ _ hminted =>
      exact ⟨_, rfl, hminted.symm.trans (hnew.trans hlease)⟩
  | assigned | marked | overflowed | opened | offered | replaying | claimed | checked | failedCheck
  | failedLease | recorded | failedRecord | released | notReleased | replayed | reporting | reported
  | eventCompleted | eventAwaits | completing | completed | bootCompleted =>
    exact absurd hlease.symm (Option.some_ne_none _)

end

namespace ServiceWorld

variable {digest : String → String} {w w' : ServiceWorld} {e : ServiceEvent}

/-- What a session in the table satisfies. -/
structure SessionCoherent (w : ServiceWorld) (sessionId : Uuid) (session : InstallerSession) :
    Prop where
  minted : sessionId ∈ w.minted
  bound : w.repository.OfJob session.jobId
    (DeploymentJob.IsInstallOf session.deviceId session.imageId)
  lease_none_iff : session.leaseId = none ↔ session.phase = .offered ∨ session.phase = .authorizing
  lease : ∀ leaseId, session.leaseId = some leaseId → w.repository.LeaseOf leaseId session.jobId

/-- A call has read the binding of the session `sessionId`. -/
structure Binds (w : ServiceWorld) (sessionId : Uuid) (binding : SessionBinding) : Prop where
  id : binding.sessionId = sessionId
  minted : sessionId ∈ w.minted
  bound : w.repository.OfJob binding.jobId
    (DeploymentJob.IsInstallOf binding.deviceId binding.imageId)
  reads : ∀ session, w.sessions.lookup sessionId = some session → binding.Reads session

/-- The session, as long as it is in the table, waits for a guard to finish its authorization. -/
def Owned (w : ServiceWorld) (sessionId : Uuid) : Prop :=
  ∀ session, w.sessions.lookup sessionId = some session → session.phase = .authorizing

/-- No session records the lease. -/
def Unrecorded (w : ServiceWorld) (leaseId : Uuid) : Prop :=
  ∀ sessionId session, w.sessions.lookup sessionId = some session → session.leaseId ≠ some leaseId

/-- What a guard knows of the job that it has leased. -/
structure LeasedJob (w : ServiceWorld) (call : GuardCall) (binding : SessionBinding)
    (autoinstall : String) (job : DeploymentJob) (leaseId : Uuid) : Prop where
  id : job.id = binding.jobId
  install : job.IsInstallOf binding.deviceId binding.imageId
  running : job.state = .running
  lease : job.leaseId = some leaseId
  leaseOf : w.repository.LeaseOf leaseId binding.jobId
  unrecorded : w.Unrecorded leaseId
  authorizes : AuthorizesDisk call binding autoinstall job

/-- What a call satisfies between two sections. -/
def CallCoherent (w : ServiceWorld) : InstallerCall → Prop
  | .discover _ (.assigned device job) | .discover _ (.booting device job) =>
    w.repository.OfJob job.id (DeploymentJob.IsInstallOf device.id job.imageId)
  | .authorizeGuard call (.offered binding) => w.Binds call.sessionId binding
  | .authorizeGuard call (.authorizing binding) | .authorizeGuard call (.refused binding _) =>
    w.Binds call.sessionId binding ∧ w.Owned call.sessionId
  | .authorizeGuard call (.checked binding autoinstall) =>
    (w.Binds call.sessionId binding ∧ w.Owned call.sessionId) ∧
      w.repository.OfJob binding.jobId (AuthorizesDisk call binding autoinstall)
  | .authorizeGuard call (.leased binding autoinstall job leaseId _) =>
    (w.Binds call.sessionId binding ∧ w.Owned call.sessionId) ∧
      w.LeasedJob call binding autoinstall job leaseId
  | .authorizeGuard call (.replaying binding) =>
    w.Binds call.sessionId binding ∧ binding.leaseId.isSome = true
  | .reportEvent call (.reporting binding leaseId) =>
    w.Binds call.sessionId binding ∧ binding.leaseId = some leaseId
  | .reportEvent call (.reported binding _) =>
    w.Binds call.sessionId binding ∧ binding.leaseId.isSome = true
  | .completeFirstBoot call (.completing binding leaseId) =>
    w.Binds call.sessionId binding ∧ binding.leaseId = some leaseId
  | .completeFirstBoot call (.completed binding _) =>
    w.Binds call.sessionId binding ∧ binding.leaseId.isSome = true
  | _ => True

/-- The invariant of a run of the service. -/
structure Coherent (w : ServiceWorld) : Prop where
  repository : w.repository.Coherent
  session : ∀ sessionId session, w.sessions.lookup sessionId = some session →
    w.SessionCoherent sessionId session
  leases_distinct : ∀ a b s t leaseId, w.sessions.lookup a = some s → w.sessions.lookup b = some t →
    s.leaseId = some leaseId → t.leaseId = some leaseId → a = b
  call : ∀ (i : ℕ) c, w.calls[i]? = some c → w.CallCoherent c
  owners_distinct : ∀ (i j : ℕ) c d sessionId, w.calls[i]? = some c → w.calls[j]? = some d →
    c.owner = some sessionId → d.owner = some sessionId → i = j
  unrecorded_distinct : ∀ (i j : ℕ) c d leaseId, w.calls[i]? = some c → w.calls[j]? = some d →
    c.unrecordedLease = some leaseId → d.unrecordedLease = some leaseId → i = j

theorem coherent_empty (manifestPath : String) (clock : Instant) (registry : DeviceRegistry) :
    (empty manifestPath clock registry).Coherent where
  repository := RepositoryWorld.coherent_empty manifestPath clock
  session := by simp [empty]
  leases_distinct := by simp [empty]
  call := by simp [empty]
  owners_distinct := by simp [empty]
  unrecorded_distinct := by simp [empty]

/-! ### What every step keeps -/

/-- What is known of a job id for good, in the service. -/
theorem Coherent.ofJob_of_step (h : w.Coherent) (hstep : w.step digest e = some w') {jobId : Uuid}
    {P : DeploymentJob → Prop} (hjob : w.repository.OfJob jobId P)
    (hP : ∀ old new, SameTask old new → P old → P new) : w'.repository.OfJob jobId P := by
  rcases repository_of_step hstep with ⟨-, heq⟩ | ⟨jobEvent, -, hjobs⟩
  · rwa [heq]
  · exact hjob.of_step h.repository hjobs hP

theorem Coherent.isInstallOf_of_step (h : w.Coherent) (hstep : w.step digest e = some w')
    {jobId deviceId imageId : Uuid}
    (hjob : w.repository.OfJob jobId (DeploymentJob.IsInstallOf deviceId imageId)) :
    w'.repository.OfJob jobId (DeploymentJob.IsInstallOf deviceId imageId) :=
  h.ofJob_of_step hstep hjob fun _ _ hsame hold => hold.of_sameTask hsame

theorem Coherent.leaseOf_of_step (h : w.Coherent) (hstep : w.step digest e = some w')
    {leaseId jobId : Uuid} (hlease : w.repository.LeaseOf leaseId jobId) :
    w'.repository.LeaseOf leaseId jobId := by
  rcases repository_of_step hstep with ⟨-, heq⟩ | ⟨jobEvent, -, hjobs⟩
  · rwa [heq]
  · exact hlease.of_step h.repository hjobs

theorem Coherent.repository_coherent_of_step (h : w.Coherent) (hstep : w.step digest e = some w') :
    w'.repository.Coherent := by
  rcases repository_of_step hstep with ⟨-, heq⟩ | ⟨jobEvent, -, hjobs⟩
  · rw [heq]
    exact h.repository
  · exact h.repository.of_step hjobs

/-- A guard that is about to record a lease does so for the session of its request. -/
theorem Coherent.sessionId_of_leased (h : w.Coherent) {i : ℕ} {call : GuardCall}
    {binding : SessionBinding} {autoinstall : String} {job : DeploymentJob} {leaseId : Uuid}
    {expiresAt : Instant} (hcall : w.calls[i]? =
      some (.authorizeGuard call (.leased binding autoinstall job leaseId expiresAt))) :
    binding.sessionId = call.sessionId :=
  (h.call i _ hcall).1.1.id

/-- The rewriting of a session keeps its lease, or records the lease that a guard holds for it. -/
theorem Coherent.leaseId_of_sessionEdge (h : w.Coherent) {i : ℕ} {c : InstallerCall}
    {sessionId : Uuid} {old new : InstallerSession} (hcall : w.calls[i]? = some c)
    (hold : w.sessions.lookup sessionId = some old) (hedge : SessionEdge c sessionId old new) :
    new.leaseId = old.leaseId ∨ (old.leaseId = none ∧ c.owner = some sessionId ∧
      ∃ leaseId, new.leaseId = some leaseId ∧ c.unrecordedLease = some leaseId) := by
  cases hedge with
  | claimed | released | awaits | failed | booted => exact Or.inl rfl
  | @recorded call binding autoinstall job leaseId expiresAt hc hid hphase =>
    subst hc
    have hnone : old.leaseId = none :=
      (h.session sessionId old hold).lease_none_iff.2 (Or.inr hphase)
    have howner : call.sessionId = sessionId := (h.sessionId_of_leased hcall).symm.trans hid
    exact Or.inr ⟨hnone, congrArg some howner, leaseId, rfl, rfl⟩

/-- A session that is in the table after a step and was opened before it is the same offer, and has
kept its lease. -/
theorem Coherent.exists_lookup_before (h : w.Coherent) (hstep : w.step digest e = some w')
    {sessionId : Uuid} {session : InstallerSession} (hminted : sessionId ∈ w.minted)
    (hlookup : w'.sessions.lookup sessionId = some session) :
    ∃ old, w.sessions.lookup sessionId = some old ∧ SameOffer old session ∧
      ∀ leaseId, old.leaseId = some leaseId → session.leaseId = some leaseId := by
  rcases lookup_after_cases hstep hlookup with
    hold | ⟨i, input, c, r, old, hadvances, hold, hedge⟩ |
      ⟨_, _, _, _, _, _, _, -, -, -, -, hfresh, -⟩
  · exact ⟨session, hold, .refl session, fun leaseId hlease => hlease⟩
  · refine ⟨old, hold, hedge.sameOffer, fun leaseId hlease => ?_⟩
    rcases h.leaseId_of_sessionEdge hadvances.call hold hedge with heq | ⟨hnone, -⟩
    · exact heq.trans hlease
    · simp [hnone] at hlease
  · exact absurd hminted hfresh

theorem Coherent.binds_of_step (h : w.Coherent) (hstep : w.step digest e = some w')
    {sessionId : Uuid} {binding : SessionBinding} (hbinds : w.Binds sessionId binding) :
    w'.Binds sessionId binding where
  id := hbinds.id
  minted := minted_subset hstep hbinds.minted
  bound := h.isInstallOf_of_step hstep hbinds.bound
  reads session hlookup := by
    obtain ⟨old, hold, hsame, hkeep⟩ := h.exists_lookup_before hstep hbinds.minted hlookup
    have hreads := hbinds.reads old hold
    exact ⟨hreads.attemptId.trans hsame.attemptId.symm, hreads.deviceId.trans hsame.deviceId.symm,
      hreads.jobId.trans hsame.jobId.symm, hreads.imageId.trans hsame.imageId.symm,
      fun leaseId hlease => hkeep leaseId (hreads.leaseId leaseId hlease)⟩

/-- A call that has read a lease finds it in the session. -/
theorem Binds.leaseId_isSome {sessionId : Uuid} {binding : SessionBinding}
    {session : InstallerSession} (hbinds : w.Binds sessionId binding)
    (hlease : binding.leaseId.isSome = true)
    (hlookup : w.sessions.lookup sessionId = some session) : session.leaseId.isSome = true := by
  obtain ⟨leaseId, heq⟩ := Option.isSome_iff_exists.1 hlease
  rw [(hbinds.reads session hlookup).leaseId leaseId heq, Option.isSome_some]

/-- A session that waits for its guard is rewritten only by this guard. -/
theorem Coherent.owner_of_sessionEdge (h : w.Coherent) {i : ℕ} {c : InstallerCall}
    {sessionId : Uuid} {old new : InstallerSession} (hcall : w.calls[i]? = some c)
    (hold : w.sessions.lookup sessionId = some old) (hphase : old.phase = .authorizing)
    (hedge : SessionEdge c sessionId old new) : c.owner = some sessionId := by
  have hnone : old.leaseId = none := (h.session sessionId old hold).lease_none_iff.2 (Or.inr hphase)
  have hcompletes : ∀ {binding : SessionBinding}, w.Binds sessionId binding →
      binding.leaseId.isSome = true → False := by
    intro binding hbinds hlease
    have hsome := hbinds.leaseId_isSome hlease hold
    simp [hnone] at hsome
  cases hedge with
  | claimed _ _ hoffered => simp [hphase] at hoffered
  | recorded hc hid =>
    subst hc
    exact congrArg some ((h.sessionId_of_leased hcall).symm.trans hid)
  | released hc hid =>
    subst hc
    exact congrArg some hid
  | awaits _ _ hhandedOff => simp [hphase] at hhandedOff
  | failed hc hid | booted hc hid =>
    subst hc hid
    obtain ⟨hbinds, hlease⟩ := h.call i _ hcall
    exact (hcompletes hbinds hlease).elim

/-- A session keeps waiting for its guard until the guard itself moves it. -/
theorem Coherent.owned_of_step (h : w.Coherent) (hstep : w.step digest e = some w')
    {sessionId : Uuid} (hminted : sessionId ∈ w.minted) (howned : w.Owned sessionId)
    (hother : ∀ i input c r, Advances digest w e w' i input c r → c.owner ≠ some sessionId) :
    w'.Owned sessionId := by
  intro session hlookup
  rcases lookup_after_cases hstep hlookup with
    hold | ⟨i, input, c, r, old, hadvances, hold, hedge⟩ |
      ⟨_, _, _, _, _, _, _, -, -, -, -, hfresh, -⟩
  · exact howned session hold
  · exact absurd (h.owner_of_sessionEdge hadvances.call hold (howned old hold) hedge)
      (hother i input c r hadvances)
  · exact absurd hminted hfresh

/-- A session that records a lease after a step recorded it before, or a guard has recorded it. -/
theorem Coherent.lease_after_cases (h : w.Coherent) (hstep : w.step digest e = some w')
    {sessionId leaseId : Uuid} {session : InstallerSession}
    (hlookup : w'.sessions.lookup sessionId = some session)
    (hlease : session.leaseId = some leaseId) :
    (∃ old, w.sessions.lookup sessionId = some old ∧ SameOffer old session ∧
        old.leaseId = some leaseId) ∨
      ∃ i input c r, Advances digest w e w' i input c r ∧ c.owner = some sessionId ∧
        c.unrecordedLease = some leaseId := by
  rcases lookup_after_cases hstep hlookup with
    hold | ⟨i, input, c, r, old, hadvances, hold, hedge⟩ |
      ⟨_, _, _, _, _, _, _, -, -, -, hsession, -⟩
  · exact Or.inl ⟨session, hold, .refl session, hlease⟩
  · rcases h.leaseId_of_sessionEdge hadvances.call hold hedge with
      heq | ⟨-, howner, recorded, hnew, hunrecorded⟩
    · exact Or.inl ⟨old, hold, hedge.sameOffer, heq.symm.trans hlease⟩
    · obtain rfl : recorded = leaseId := Option.some.inj (hnew.symm.trans hlease)
      exact Or.inr ⟨i, input, c, r, hadvances, howner, hunrecorded⟩
  · simp [hsession, offeredSession] at hlease

theorem Coherent.owned_of_call (h : w.Coherent) {i : ℕ} {c : InstallerCall} {sessionId : Uuid}
    (hcall : w.calls[i]? = some c) (howner : c.owner = some sessionId) : w.Owned sessionId := by
  have hcoherent := h.call i c hcall
  cases c with
  | authorizeGuard call state =>
    cases state with
    | start | offered | replaying | returned => simp [InstallerCall.owner] at howner
    | authorizing | refused => exact Option.some.inj howner ▸ hcoherent.2
    | checked | leased => exact Option.some.inj howner ▸ hcoherent.1.2
  | discover | reportEvent | completeFirstBoot | fetch => simp [InstallerCall.owner] at howner

/-- What is known of a lease that a guard holds and its session does not record yet. -/
private theorem Coherent.leased_of_call (h : w.Coherent) {i : ℕ} {c : InstallerCall}
    {leaseId : Uuid} (hcall : w.calls[i]? = some c) (hlease : c.unrecordedLease = some leaseId) :
    leaseId ∈ w.repository.minted ∧ w.Unrecorded leaseId := by
  have hcoherent := h.call i c hcall
  cases c with
  | authorizeGuard call state =>
    cases state with
    | start | offered | authorizing | checked | refused | replaying | returned =>
      simp [InstallerCall.unrecordedLease] at hlease
    | leased binding autoinstall job held expiresAt =>
      obtain rfl := Option.some.inj hlease
      exact ⟨hcoherent.2.leaseOf.minted, hcoherent.2.unrecorded⟩
  | discover | reportEvent | completeFirstBoot | fetch =>
    simp [InstallerCall.unrecordedLease] at hlease

theorem Coherent.minted_of_unrecordedLease (h : w.Coherent) {i : ℕ} {c : InstallerCall}
    {leaseId : Uuid} (hcall : w.calls[i]? = some c) (hlease : c.unrecordedLease = some leaseId) :
    leaseId ∈ w.repository.minted :=
  (h.leased_of_call hcall hlease).1

theorem Coherent.unrecorded_of_call (h : w.Coherent) {i : ℕ} {c : InstallerCall} {leaseId : Uuid}
    (hcall : w.calls[i]? = some c) (hlease : c.unrecordedLease = some leaseId) :
    w.Unrecorded leaseId :=
  (h.leased_of_call hcall hlease).2

/-- A lease that no session records stays so until the guard that holds it records it. -/
theorem Coherent.unrecorded_of_step (h : w.Coherent) (hstep : w.step digest e = some w')
    {leaseId : Uuid} (hunrecorded : w.Unrecorded leaseId)
    (hother : ∀ i input c r, Advances digest w e w' i input c r →
      c.unrecordedLease ≠ some leaseId) : w'.Unrecorded leaseId := by
  intro sessionId session hlookup hlease
  rcases h.lease_after_cases hstep hlookup hlease with
    ⟨old, hold, -, hlease⟩ | ⟨i, input, c, r, hadvances, -, heq⟩
  · exact hunrecorded sessionId old hold hlease
  · exact hother i input c r hadvances heq

/-- What a call knows stays true while other calls run. -/
theorem Coherent.callCoherent_of_step (h : w.Coherent) (hstep : w.step digest e = some w') {j : ℕ}
    {c : InstallerCall} (hcall : w.calls[j]? = some c) (hother : ∀ input, e ≠ .advance j input) :
    w'.CallCoherent c := by
  have hne : ∀ {i input c r}, Advances digest w e w' i input c r → i ≠ j := by
    rintro i input c r hadvances rfl
    exact hother input hadvances.event
  have howned : ∀ {sessionId binding}, w.Binds sessionId binding → w.Owned sessionId →
      c.owner = some sessionId → w'.Binds sessionId binding ∧ w'.Owned sessionId := by
    intro sessionId binding hbinds howned howner
    refine ⟨h.binds_of_step hstep hbinds, h.owned_of_step hstep hbinds.minted howned ?_⟩
    intro i input d r hadvances howner'
    exact hne hadvances (h.owners_distinct i j d c sessionId hadvances.call hcall howner' howner)
  have hcoherent := h.call j c hcall
  cases c with
  | discover query state =>
    cases state with
    | start | found | returned => trivial
    | assigned device job | booting device job => exact h.isInstallOf_of_step hstep hcoherent
  | authorizeGuard call state =>
    cases state with
    | start | returned => trivial
    | offered binding => exact h.binds_of_step hstep hcoherent
    | authorizing binding | refused binding error => exact howned hcoherent.1 hcoherent.2 rfl
    | checked binding autoinstall =>
      refine ⟨howned hcoherent.1.1 hcoherent.1.2 rfl, h.ofJob_of_step hstep hcoherent.2 ?_⟩
      exact fun _ _ hsame hold => hold.of_sameTask hsame
    | leased binding autoinstall job leaseId expiresAt =>
      obtain ⟨⟨hbinds, howns⟩, hleased⟩ := hcoherent
      refine ⟨howned hbinds howns rfl, ?_⟩
      refine ⟨hleased.id, hleased.install, hleased.running, hleased.lease,
        h.leaseOf_of_step hstep hleased.leaseOf,
        h.unrecorded_of_step hstep hleased.unrecorded ?_, hleased.authorizes⟩
      intro i input d r hadvances heq
      exact hne hadvances (h.unrecorded_distinct i j d _ leaseId hadvances.call hcall heq rfl)
    | replaying binding => exact ⟨h.binds_of_step hstep hcoherent.1, hcoherent.2⟩
  | reportEvent call state =>
    cases state with
    | start | returned => trivial
    | reporting binding leaseId | reported binding job =>
      exact ⟨h.binds_of_step hstep hcoherent.1, hcoherent.2⟩
  | completeFirstBoot call state =>
    cases state with
    | start | returned => trivial
    | completing binding leaseId | completed binding job =>
      exact ⟨h.binds_of_step hstep hcoherent.1, hcoherent.2⟩
  | fetch call state => trivial

theorem callCoherent_of_isUnbound {c : InstallerCall} (h : c.isUnbound = true) :
    w.CallCoherent c := by
  cases c with
  | discover query state => cases state <;> trivial
  | authorizeGuard call state => cases state <;> trivial
  | reportEvent call state => cases state <;> trivial
  | completeFirstBoot call state => cases state <;> trivial
  | fetch call state => trivial

/-- A request that is authenticated reads a session of the table. -/
theorem Coherent.binds_of_authenticateSession (h : w.Coherent) {sessionId : Uuid} {token : String}
    {now : Instant} {binding : SessionBinding}
    (hauth : w.sessions.authenticateSession digest sessionId token now = .ok binding) :
    w.Binds sessionId binding ∧
      (binding.leaseId = none ↔ binding.phase = .offered ∨ binding.phase = .authorizing) := by
  obtain ⟨-, -, session, hlookup, -, -, rfl⟩ := SessionTable.authenticateSession_eq_ok_iff.1 hauth
  have hsession := h.session sessionId session hlookup
  refine ⟨⟨rfl, hsession.minted, hsession.bound, fun other hother => ?_⟩, hsession.lease_none_iff⟩
  obtain rfl := Option.some.inj (hlookup.symm.trans hother)
  exact ⟨rfl, rfl, rfl, rfl, fun leaseId hlease => hlease⟩

/-- The state that a call reaches by a section is coherent. -/
theorem Coherent.callCoherent_of_advances (h : w.Coherent) (hstep : w.step digest e = some w')
    {i : ℕ} {input : SectionInput} {c : InstallerCall} {r : SectionResult InstallerCall}
    (hadvances : Advances digest w e w' i input c r) : w'.CallCoherent r.state := by
  have hcoherent := h.call i c hadvances.call
  -- a section that leaves the table leaves a session with its guard
  have howned : ∀ {sessionId}, r.sessions = w.sessions → w.Owned sessionId →
      w'.Owned sessionId := by
    intro sessionId heq howned session hlookup
    rw [hadvances.sessions, heq] at hlookup
    exact howned session hlookup
  have hsessions := hadvances.sessions
  have hjobs := hadvances.jobs
  have hedge := hadvances.edge
  cases hedge with
  | unbound _ hunbound => exact callCoherent_of_isUnbound hunbound
  | rejected _ hunbound => exact callCoherent_of_isUnbound hunbound
  | assigned hfind =>
    obtain ⟨hmem, hinstall, -⟩ := BootQuery.findAssignment_ok hfind
    refine h.isInstallOf_of_step hstep ⟨(h.repository.jobs.job _ hmem).id_minted, ?_⟩
    intro other hother hid
    rw [h.repository.jobs.eq_of_id_eq hother hmem hid]
    exact hinstall
  | marked => exact h.isInstallOf_of_step hstep hcoherent
  | overflowed | opened | recorded | released | notReleased | replayed | eventCompleted
  | eventAwaits | bootCompleted => trivial
  | offered hauth hphase =>
    exact h.binds_of_step hstep (h.binds_of_authenticateSession hauth).1
  | replaying hauth hphase =>
    obtain ⟨hbinds, hnone⟩ := h.binds_of_authenticateSession hauth
    refine ⟨h.binds_of_step hstep hbinds, Option.isSome_iff_ne_none.2 fun heq => ?_⟩
    rcases hnone.1 heq with hoffered | hauthorizing
    · rcases hphase with hphase | hphase <;> simp [hphase] at hoffered
    · rcases hphase with hphase | hphase <;> simp [hphase] at hauthorizing
  | claimed hlookup hphase =>
    refine ⟨h.binds_of_step hstep hcoherent, fun session hlookup' => ?_⟩
    have hinsert := hlookup'
    rw [hsessions] at hinsert
    obtain rfl := Option.some.inj ((AList.lookup_insert _).symm.trans hinsert)
    rfl
  | checked hconfig =>
    obtain ⟨-, job, hmem, hid, -, hauthorizes⟩ := initialConfiguration_ok hconfig
    refine ⟨⟨h.binds_of_step hstep hcoherent.1, howned rfl hcoherent.2⟩,
      h.ofJob_of_step hstep ⟨hid ▸ (h.repository.jobs.job _ hmem).id_minted, ?_⟩ ?_⟩
    · intro other hother hid'
      rw [h.repository.jobs.eq_of_id_eq hother hmem (hid'.trans hid.symm)]
      exact hauthorizes
    · exact fun _ _ hsame hold => hold.of_sameTask hsame
  | failedCheck => exact ⟨h.binds_of_step hstep hcoherent.1, howned rfl hcoherent.2⟩
  | @leased call binding autoinstall job leaseId expiresAt hok hlease hexpiry =>
    obtain ⟨⟨hbinds, howns⟩, hauthorizes⟩ := hcoherent
    obtain ⟨hwrite, old, hold, hsame, hedge, -⟩ := JobRepository.leaseInstallerJob_accepted hok
    have hjobs' : w.repository.step (.leaseInstallerJob binding.jobId binding.deviceId
        binding.imageId (minutes installerLeaseMinutes) input.now input.leaseId input.write) =
        some w'.repository := hjobs
    cases hedge with
    | handOff hid hawaits hstate hnew hnewExpiry =>
      obtain rfl : input.leaseId = leaseId := Option.some.inj (hnew.symm.trans hlease)
      obtain ⟨hlinux, -, himage, hsole⟩ := DeploymentJob.awaitsInstaller_eq_ok_iff.1 hawaits
      have hinstall : old.IsInstallOf binding.deviceId binding.imageId := ⟨hlinux, himage, hsole⟩
      refine ⟨⟨h.binds_of_step hstep hbinds, howned rfl howns⟩, ?_⟩
      refine ⟨hsame.id.trans hid, hinstall.of_sameTask hsame, hstate, hlease,
        h.repository.leaseOf_of_leaseInstallerJob hjobs', ?_,
        (hauthorizes.job old hold hid).of_sameTask hsame⟩
      intro sessionId session hlookup hrecorded
      rw [hsessions] at hlookup
      exact RepositoryWorld.notMem_minted_of_mint hjobs' rfl
        ((h.session sessionId session hlookup).lease _ hrecorded).minted
  | failedLease =>
    exact ⟨h.binds_of_step hstep hcoherent.1.1, howned rfl hcoherent.1.2⟩
  | failedRecord =>
    exact ⟨h.binds_of_step hstep hcoherent.1.1, howned rfl hcoherent.1.2⟩
  | reporting hauth hlease =>
    exact ⟨h.binds_of_step hstep (h.binds_of_authenticateSession hauth).1, hlease⟩
  | @reported call binding leaseId job state e he hstate =>
    rcases hstate with rfl | rfl
    · exact ⟨h.binds_of_step hstep hcoherent.1, by rw [hcoherent.2, Option.isSome_some]⟩
    · trivial
  | completing hauth hattempt hlease =>
    exact ⟨h.binds_of_step hstep (h.binds_of_authenticateSession hauth).1, hlease⟩
  | completed =>
    exact ⟨h.binds_of_step hstep hcoherent.1, by rw [hcoherent.2, Option.isSome_some]⟩

/-! ### One step, and a run -/

theorem SessionCoherent.of_step {sessionId : Uuid} {session : InstallerSession}
    (hsession : w.SessionCoherent sessionId session) (h : w.Coherent)
    (hstep : w.step digest e = some w') : w'.SessionCoherent sessionId session where
  minted := minted_subset hstep hsession.minted
  bound := h.isInstallOf_of_step hstep hsession.bound
  lease_none_iff := hsession.lease_none_iff
  lease leaseId hlease := h.leaseOf_of_step hstep (hsession.lease leaseId hlease)

/-- A section that rewrites a session keeps what the session satisfies. -/
private theorem Coherent.sessionCoherent_of_sessionEdge (h : w.Coherent)
    {i : ℕ} {c : InstallerCall} {sessionId : Uuid} {old new : InstallerSession}
    (hcall : w.calls[i]? = some c) (hold : w.sessions.lookup sessionId = some old)
    (hedge : SessionEdge c sessionId old new) : w.SessionCoherent sessionId new := by
  have hsession := h.session sessionId old hold
  have hlease := hsession.lease_none_iff
  have hcoherent := h.call i c hcall
  cases hedge with
  | claimed hc hid hphase =>
    refine ⟨hsession.minted, hsession.bound, ?_, hsession.lease⟩
    simpa using hlease.2 (Or.inl hphase)
  | @recorded call binding autoinstall job leaseId expiresAt hc hid hphase =>
    subst hc
    obtain ⟨⟨hbinds, -⟩, hleased⟩ := hcoherent
    have hjobId : binding.jobId = old.jobId :=
      (hbinds.reads old (by rw [← hbinds.id, hid, hold])).jobId
    refine ⟨hsession.minted, hsession.bound, by simp, fun other hother => ?_⟩
    obtain rfl := Option.some.inj hother
    exact hjobId ▸ hleased.leaseOf
  | released hc hid hphase =>
    refine ⟨hsession.minted, hsession.bound, ?_, hsession.lease⟩
    simpa using hlease.2 (Or.inr hphase)
  | awaits hc hid hphase =>
    refine ⟨hsession.minted, hsession.bound, ?_, hsession.lease⟩
    simpa [hphase] using hlease
  | failed hc hid | booted hc hid =>
    subst hc hid
    refine ⟨hsession.minted, hsession.bound, ?_, hsession.lease⟩
    have hsome := hcoherent.1.leaseId_isSome hcoherent.2 hold
    simpa [Option.isSome_iff_ne_none] using hsome

/-- A call that owns a session after a step owned it before, or has found it in the phase
`offered`. -/
private theorem owner_after_cases (hstep : w.step digest e = some w') {j : ℕ} {c' : InstallerCall}
    {sessionId : Uuid} (hcall : w'.calls[j]? = some c') (howner : c'.owner = some sessionId) :
    (∃ c, w.calls[j]? = some c ∧ c.owner = some sessionId) ∨
      ((∃ input, e = .advance j input) ∧ ∃ session, w.sessions.lookup sessionId = some session ∧
        session.phase = .offered) := by
  rcases call_after_cases hstep hcall with ⟨hold, -⟩ | ⟨-, hfresh⟩ | ⟨input, c, r, hadvances, rfl⟩
  · exact Or.inl ⟨c', hold, howner⟩
  · rw [InstallerCall.owner_of_isUnbound (InstallerCall.isUnbound_of_isFresh hfresh)] at howner
    simp at howner
  · rcases hadvances.edge.owner_cases howner with hold | hsession
    · exact Or.inl ⟨c, hadvances.call, hold⟩
    · exact Or.inr ⟨⟨input, hadvances.event⟩, hsession⟩

/-- A lease that a guard holds unrecorded after a step was held before, or the step minted it. -/
theorem unrecordedLease_after_cases (hstep : w.step digest e = some w') {j : ℕ}
    {c' : InstallerCall} {leaseId : Uuid} (hcall : w'.calls[j]? = some c')
    (hlease : c'.unrecordedLease = some leaseId) :
    (∃ c, w.calls[j]? = some c ∧ c.unrecordedLease = some leaseId) ∨
      ((∃ input, e = .advance j input) ∧ leaseId ∉ w.repository.minted) := by
  rcases call_after_cases hstep hcall with ⟨hold, -⟩ | ⟨-, hfresh⟩ | ⟨input, c, r, hadvances, rfl⟩
  · exact Or.inl ⟨c', hold, hlease⟩
  · rw [InstallerCall.unrecordedLease_of_isUnbound (InstallerCall.isUnbound_of_isFresh hfresh)]
      at hlease
    simp at hlease
  · obtain ⟨jobEvent, hjobs, hmint⟩ := hadvances.edge.mint_of_unrecordedLease hlease
    have hstep' : w.repository.step jobEvent = some w'.repository := by
      have hjobs' := hadvances.jobs
      rwa [hjobs] at hjobs'
    exact Or.inr ⟨⟨input, hadvances.event⟩, RepositoryWorld.notMem_minted_of_mint hstep' hmint⟩

private theorem index_eq_of_event {i j : ℕ} (hi : ∃ input, e = .advance i input)
    (hj : ∃ input, e = .advance j input) : i = j := by
  obtain ⟨input, rfl⟩ := hi
  obtain ⟨input', heq⟩ := hj
  injection heq

theorem Coherent.of_step (h : w.Coherent) (hstep : w.step digest e = some w') : w'.Coherent where
  repository := h.repository_coherent_of_step hstep
  session sessionId session hlookup := by
    rcases lookup_after_cases hstep hlookup with
      hold | ⟨i, input, c, r, old, hadvances, hold, hedge⟩ |
        ⟨i, input, query, device, job, r, token, hadvances, -, -, rfl, -, hminted⟩
    · exact (h.session sessionId session hold).of_step h hstep
    · exact (h.sessionCoherent_of_sessionEdge hadvances.call hold hedge).of_step h hstep
    · exact ⟨hminted, h.isInstallOf_of_step hstep (h.call i _ hadvances.call),
        by simp [offeredSession], by simp [offeredSession]⟩
  leases_distinct a b s t leaseId ha hb hs ht := by
    rcases h.lease_after_cases hstep ha hs with
        ⟨olda, holda, -, hlease⟩ | ⟨i, input, c, r, hadvances, howner, hunrecorded⟩ <;>
      rcases h.lease_after_cases hstep hb ht with
        ⟨oldb, holdb, -, hlease'⟩ | ⟨j, input', d, r', hadvances', howner', hunrecorded'⟩
    · exact h.leases_distinct a b olda oldb leaseId holda holdb hlease hlease'
    · exact absurd hlease (h.unrecorded_of_call hadvances'.call hunrecorded' a olda holda)
    · exact absurd hlease' (h.unrecorded_of_call hadvances.call hunrecorded b oldb holdb)
    · obtain rfl := index_eq_of_event ⟨input, hadvances.event⟩ ⟨input', hadvances'.event⟩
      obtain rfl := Option.some.inj (hadvances.call.symm.trans hadvances'.call)
      exact Option.some.inj (howner.symm.trans howner')
  call j c' hcall := by
    rcases call_after_cases hstep hcall with
      ⟨hold, hother⟩ | ⟨-, hfresh⟩ | ⟨input, c, r, hadvances, rfl⟩
    · exact h.callCoherent_of_step hstep hold hother
    · exact callCoherent_of_isUnbound (InstallerCall.isUnbound_of_isFresh hfresh)
    · exact h.callCoherent_of_advances hstep hadvances
  owners_distinct i j c d sessionId hc hd hownerc hownerd := by
    rcases owner_after_cases hstep hc hownerc with
        ⟨c, hold, howner⟩ | ⟨hevent, session, hlookup, hoffered⟩ <;>
      rcases owner_after_cases hstep hd hownerd with
        ⟨d, hold', howner'⟩ | ⟨hevent', session', hlookup', hoffered'⟩
    · exact h.owners_distinct i j c d sessionId hold hold' howner howner'
    · have hphase := h.owned_of_call hold howner session' hlookup'
      simp [hoffered'] at hphase
    · have hphase := h.owned_of_call hold' howner' session hlookup
      simp [hoffered] at hphase
    · exact index_eq_of_event hevent hevent'
  unrecorded_distinct i j c d leaseId hc hd hleasec hleased := by
    rcases unrecordedLease_after_cases hstep hc hleasec with
        ⟨c, hold, hlease⟩ | ⟨hevent, hfresh⟩ <;>
      rcases unrecordedLease_after_cases hstep hd hleased with
        ⟨d, hold', hlease'⟩ | ⟨hevent', hfresh'⟩
    · exact h.unrecorded_distinct i j c d leaseId hold hold' hlease hlease'
    · exact absurd (h.minted_of_unrecordedLease hold hlease) hfresh'
    · exact absurd (h.minted_of_unrecordedLease hold' hlease') hfresh
    · exact index_eq_of_event hevent hevent'

/-- Every state that a run reaches from the empty service is coherent. -/
theorem coherent_of_leads {manifestPath : String} {clock : Instant} {registry : DeviceRegistry}
    {es : List ServiceEvent}
    (hrun : Leads (step digest) (empty manifestPath clock registry) es w) : w.Coherent :=
  hrun.invariant (coherent_empty manifestPath clock registry) fun _ _ _ hm hn => hm.of_step hn

end ServiceWorld

end EasyDeployMesh
