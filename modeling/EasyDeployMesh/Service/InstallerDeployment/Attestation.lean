import EasyDeployMesh.Service.InstallerDeployment.GuardSafety
import EasyDeployMesh.Service.JobRepository.LinuxHandoff

/-!
# The attested success of an installation

A Linux job succeeds only in the section of `complete_first_boot` that presents the lease of its
session. The session was opened with the attempt id of the request; a guard leased the job for it,
returned the authorization, and from then on the job ran under the lease of this session until the
success.

## Main definitions

* `EasyDeployMesh.ServiceWorld.RunsUnder`, `EasyDeployMesh.ServiceWorld.Lapsed`: a Linux job runs
  under a lease, or not any more.
* `EasyDeployMesh.ServiceWorld.Completes`: the section of `complete_first_boot` that reports the
  success.
* `EasyDeployMesh.ServiceWorld.GuardedUnder`, `EasyDeployMesh.ServiceWorld.AttestedBy`: what has
  happened before it.
* `EasyDeployMesh.ServiceWorld.SuccessAttested`: the law of a run.

## Main results

* `EasyDeployMesh.ServiceWorld.successAttested_empty`: every run obeys the law.
-/

namespace EasyDeployMesh

open Foundations

namespace ServiceWorld

variable {digest : String → String} {start w m n : ServiceWorld} {e : ServiceEvent}
  {es : List ServiceEvent} {i : ℕ} {jobId leaseId : Uuid} {job : DeploymentJob}
  {manifestPath : String} {clock : Instant} {registry : DeviceRegistry}

/-! ### The job under its lease -/

/-- The Linux job runs under the lease. -/
def RunsUnder (w : ServiceWorld) (jobId leaseId : Uuid) : Prop :=
  ∃ job ∈ w.repository.repo.jobs, job.id = jobId ∧ job.operation = .installLinux ∧
    job.state = .running ∧ job.leaseId = some leaseId

/-- The lease was minted, and the job does not run under it. -/
def Lapsed (w : ServiceWorld) (jobId leaseId : Uuid) : Prop :=
  leaseId ∈ w.repository.minted ∧ ¬ w.RunsUnder jobId leaseId

/-- A job does not come back to a lease. -/
theorem Lapsed.of_step (h : m.Lapsed jobId leaseId) (hm : m.Coherent)
    (hstep : m.step digest e = some n) : n.Lapsed jobId leaseId := by
  obtain ⟨hminted, hnot⟩ := h
  rcases repository_of_step hstep with ⟨-, heq⟩ | ⟨jobEvent, -, hjobs⟩
  · exact ⟨heq ▸ hminted, by rwa [RunsUnder, heq]⟩
  · refine ⟨RepositoryWorld.minted_subset hjobs hminted, ?_⟩
    rintro ⟨job, hjob, hid, hlinux, hrunning, hlease⟩
    rcases hm.repository.mem_after_cases hjobs hjob with
      hold | ⟨-, -, hnone⟩ | ⟨old, hold, hsame, hedge⟩
    · exact hnot ⟨job, hold, hid, hlinux, hrunning, hlease⟩
    · simp [hnone] at hlease
    · have hlinux' : old.operation = .installLinux := hsame.operation ▸ hlinux
      have hpaused := (hm.repository.jobs.job old hold).linux_ne_paused hlinux'
      rcases hedge.linux_running_cases hlinux' hpaused hrunning with
        ⟨hrunning', hkept⟩ | ⟨_, _, _, _, fresh, rfl, -, hfresh⟩
      · exact hnot ⟨old, hold, hsame.id.symm.trans hid, hlinux', hrunning', hkept ▸ hlease⟩
      · obtain rfl : fresh = leaseId := Option.some.inj (hfresh.symm.trans hlease)
        exact RepositoryWorld.notMem_minted_of_mint hjobs rfl hminted

/-- A job that runs at the end of a run under a lease that was minted before has run under it all
the time. -/
private theorem runsUnder_of_leads (hm : m.Coherent) (hminted : leaseId ∈ m.repository.minted)
    (hrun : Leads (step digest) m es w) (hend : w.RunsUnder jobId leaseId)
    {mid rest : List ServiceEvent} {u : ServiceWorld} (hes : es = mid ++ rest)
    (hu : Leads (step digest) m mid u) :
    u.RunsUnder jobId leaseId := by
  subst hes
  obtain ⟨v, hv, hrest⟩ := leads_append.1 hrun
  obtain rfl := hu.unique hv
  by_contra hnot
  have hmids : u.Coherent ∧ leaseId ∈ u.repository.minted := by
    refine hu.invariant (I := fun x => x.Coherent ∧ leaseId ∈ x.repository.minted) ⟨hm, hminted⟩ ?_
    rintro x e y ⟨hx, hmem⟩ hstep
    refine ⟨hx.of_step hstep, ?_⟩
    rcases repository_of_step hstep with ⟨-, heq⟩ | ⟨_, -, hjobs⟩
    · rwa [heq]
    · exact RepositoryWorld.minted_subset hjobs hmem
  have hlapsed := hrest.invariant (I := fun x => x.Coherent ∧ x.Lapsed jobId leaseId)
    ⟨hmids.1, hmids.2, hnot⟩ fun x e y hx hstep => ⟨hx.1.of_step hstep, hx.2.of_step hx.1 hstep⟩
  exact hlapsed.2.2 hend

/-- A guard that leases a job makes it run under the minted lease. -/
private theorem runsUnder_of_leases {sessionId : Uuid} {now : Instant}
    (h : m.Leases i sessionId jobId leaseId now e) (hstep : m.step digest e = some n) :
    leaseId ∈ n.repository.minted ∧ n.RunsUnder jobId leaseId := by
  obtain ⟨input, call, binding, autoinstall, job, rfl, hcall, -, rfl, rfl, rfl, hok⟩ := h
  obtain ⟨c, r, hadvances⟩ := exists_advances hstep
  obtain rfl := Option.some.inj (hadvances.call.symm.trans hcall)
  have hjobs := hadvances.jobs
  cases hadvances.edge with
  | unbound hstop | rejected hstop => simp [InstallerCall.mayStop] at hstop
  | failedLease herror => exact absurd (hok.symm.trans herror) (by simp)
  | leased =>
    refine ⟨RepositoryWorld.mem_minted_of_mint hjobs rfl, ?_⟩
    obtain ⟨-, old, hold, hsame, hedge, hreplaces⟩ := JobRepository.leaseInstallerJob_accepted hok
    have hrepo := Option.some.inj (RepositoryWorld.step_eq_some_iff.1 hjobs).2.1
    cases hedge with
    | handOff hid hawaits hrunning hlease =>
      have hlinux := (DeploymentJob.awaitsInstaller_eq_ok_iff.1 hawaits).1
      exact ⟨job, hrepo ▸ hreplaces.mem_new, hsame.id.trans hid, hsame.operation.trans hlinux,
        hrunning, hlease⟩

/-! ### The success -/

/-- The Linux job is there, and has succeeded. -/
def HasSucceeded (w : ServiceWorld) (jobId : Uuid) : Prop :=
  ∃ job ∈ w.repository.repo.jobs, job.id = jobId ∧ job.operation = .installLinux ∧
    job.state = .succeeded

/-- The step is the section of the call `i` to `complete_first_boot` that reports the success of the
job of its session under the lease. -/
def Completes (i : ℕ) (call : FirstBootCall) (binding : SessionBinding) (leaseId : Uuid)
    (w : ServiceWorld) (e : ServiceEvent) : Prop :=
  ∃ input, e = .advance i input ∧
    w.calls[i]? = some (.completeFirstBoot call (.completing binding leaseId))

/-- A section whose call on the repository makes a Linux job succeed. -/
private theorem completes_of_advances {input : SectionInput} {c : InstallerCall}
    {r : SectionResult InstallerCall} (hadvances : Advances digest m e n i input c r)
    (hjob : job ∈ n.repository.repo.jobs) {deviceId : Uuid} {message : Option String}
    {now later : Instant}
    (hr : r.jobs =
      some (.completeInstaller job.id deviceId leaseId true message now later .written)) :
    job ∈ m.repository.repo.jobs ∨
      ∃ call binding, m.Completes i call binding leaseId e ∧ binding.jobId = job.id := by
  obtain rfl := hadvances.event
  have hcall := hadvances.call
  have hjobs := hadvances.jobs
  rw [hr] at hjobs
  cases hadvances.edge with
  | unbound _ _ hidle => rcases hidle with rfl | rfl <;> simp at hr
  | rejected _ _ hkeeps =>
    obtain rfl := Option.some.inj hr
    rw [hkeeps _ (RepositoryWorld.step_eq_some_iff.1 hjobs).2.1] at hjob
    exact Or.inl hjob
  | reported he => cases he <;> simp [SectionResult.ofJobs] at hr
  | completed =>
    injection Option.some.inj hr with hid _ hlease
    subst hlease
    exact Or.inr ⟨_, _, ⟨input, rfl, hcall⟩, hid⟩
  | assigned | marked | overflowed | opened | offered | replaying | claimed | checked | failedCheck
  | leased | failedLease | recorded | failedRecord | released | notReleased | replayed | reporting
  | eventCompleted | eventAwaits | completing | bootCompleted =>
    simp [SectionResult.quiet, SectionResult.timed, SectionResult.ofJobs] at hr

/-- A step makes a Linux job succeed only as the section of a `complete_first_boot` that presents
the lease under which the job runs. -/
private theorem completes_of_succeeded (hm : m.Coherent) (hstep : m.step digest e = some n)
    (hjob : job ∈ n.repository.repo.jobs) (hlinux : job.operation = .installLinux)
    (hsucceeded : job.state = .succeeded) :
    m.HasSucceeded job.id ∨
      ∃ i call binding leaseId, m.Completes i call binding leaseId e ∧ binding.jobId = job.id ∧
        m.RunsUnder job.id leaseId := by
  have hkept (hold : job ∈ m.repository.repo.jobs) : m.HasSucceeded job.id :=
    ⟨job, hold, rfl, hlinux, hsucceeded⟩
  have hcause {jobEvent : JobEvent} (hjobs : m.repository.step jobEvent = some n.repository) :=
    hm.repository.exists_completeInstaller hjobs hjob hlinux hsucceeded
  cases e with
  | jobs jobEvent =>
    simp only [step] at hstep
    split_ifs at hstep with hexternal
    obtain ⟨repository, hjobs, rfl⟩ := Option.map_eq_some_iff.1 hstep
    rcases hcause hjobs with ⟨old, hold, hsame, hstate⟩ | ⟨_, _, _, _, _, _, _, _, rfl, -⟩
    · exact Or.inl ⟨old, hold, hsame.id.symm, hsame.operation ▸ hlinux, hstate⟩
    · simp [JobEvent.isExternal] at hexternal
  | registry | call =>
    rcases repository_of_step hstep with ⟨-, heq⟩ | ⟨_, hevent, -⟩
    · exact Or.inl (hkept (heq ▸ hjob))
    · simp [jobEvent] at hevent
  | advance i input =>
    obtain ⟨c, r, hadvances⟩ := exists_advances hstep
    have hjobs := hadvances.jobs
    cases hr : r.jobs with
    | none =>
      rw [hr] at hjobs
      obtain heq := Option.some.inj hjobs
      exact Or.inl (hkept (heq ▸ hjob))
    | some jobEvent =>
      rw [hr] at hjobs
      rcases hcause hjobs with
        ⟨old, hold, hsame, hstate⟩ |
          ⟨old, hold, hsame, deviceId, leaseId, message, now, later, rfl, hcheck⟩
      · exact Or.inl ⟨old, hold, hsame.id.symm, hsame.operation ▸ hlinux, hstate⟩
      · rcases completes_of_advances hadvances hjob hr with hold | ⟨call, binding, hcompletes, hid⟩
        · exact Or.inl (hkept hold)
        · obtain ⟨-, -, hrunning, hlease, -⟩ := DeploymentJob.checkInstallerLease_eq_ok_iff.1 hcheck
          exact Or.inr ⟨i, call, binding, leaseId, hcompletes, hid, old, hold, hsame.id.symm,
            hsame.operation ▸ hlinux, hrunning, hlease⟩

/-! ### What has happened before -/

/-- The step is the section of the guard `j` that records its lease; the call returns the
authorization. -/
def Grants (digest : String → String) (j : ℕ) (call : GuardCall) (leaseId : Uuid)
    (authorization : GuardAuthorization) (w : ServiceWorld) (e : ServiceEvent) : Prop :=
  ∃ binding expiresAt w',
    w.calls[j]? = some (.authorizeGuard call
      (.leased binding authorization.autoinstall authorization.job leaseId expiresAt)) ∧
    w.step digest e = some w' ∧
    w'.calls[j]? = some (.authorizeGuard call (.returned (.ok authorization)))

/-- A guard of the session leased the job, and returned the authorization later; the job has run
under the lease from the handoff to the end of the run. -/
def GuardedUnder (digest : String → String) (start : ServiceWorld) (es : List ServiceEvent)
    (sessionId jobId leaseId : Uuid) (authorization : GuardAuthorization) : Prop :=
  ∃ j call now before handoff after m n, es = before ++ handoff :: after ∧
    Leads (step digest) start before m ∧ m.step digest handoff = some n ∧
    m.Leases j sessionId jobId leaseId now handoff ∧ call.sessionId = sessionId ∧
    Sometime (step digest) (Grants digest j call leaseId authorization) n after ∧
    ∀ mid rest u, after = mid ++ rest → Leads (step digest) n mid u → u.RunsUnder jobId leaseId

/-- The step `e` after the events `es`, which lead to `m`, reports the success of the job; `session`
is the session of the call as the call has read it. -/
structure AttestedBy (digest : String → String) (start : ServiceWorld) (es : List ServiceEvent)
    (m : ServiceWorld) (e : ServiceEvent) (jobId : Uuid) (call : FirstBootCall)
    (session : InstallerSession) (leaseId : Uuid) (authorization : GuardAuthorization) : Prop where
  /-- The step is the section of a `complete_first_boot` that has presented the token of the
  session. -/
  completes : ∃ i, m.Completes i call (session.binding call.sessionId) leaseId e ∧
    Sometime (step digest) (Authenticates digest i call.sessionId call.token session) start es
  /-- The attempt id of the request was generated when the session was offered. -/
  opened : Sometime (step digest) (Opens digest call.sessionId session) start es
  attempt : session.attemptId = call.attemptId
  job : session.jobId = jobId
  lease : session.leaseId = some leaseId
  /-- A guard of the session was authorized for the job, for the same device and image. -/
  guarded : GuardedUnder digest start es call.sessionId jobId leaseId authorization
  authorizedId : authorization.job.id = jobId
  authorizedLease : authorization.job.leaseId = some leaseId
  authorizedInstall : authorization.job.IsInstallOf session.deviceId session.imageId

/-- What is known of a job for good stays known along a run. -/
private theorem ofJob_of_leads (hm : m.Coherent) (hrun : Leads (step digest) m es w)
    {deviceId imageId : Uuid}
    (hjob : m.repository.OfJob jobId (DeploymentJob.IsInstallOf deviceId imageId)) :
    w.repository.OfJob jobId (DeploymentJob.IsInstallOf deviceId imageId) :=
  (hrun.invariant (I := fun x => x.Coherent ∧
      x.repository.OfJob jobId (DeploymentJob.IsInstallOf deviceId imageId))
    ⟨hm, hjob⟩ fun _ _ _ hx hstep => ⟨hx.1.of_step hstep, hx.1.isInstallOf_of_step hstep hx.2⟩).2

private theorem leaseOf_of_leads (hm : m.Coherent) (hrun : Leads (step digest) m es w)
    (hlease : m.repository.LeaseOf leaseId jobId) : w.repository.LeaseOf leaseId jobId :=
  (hrun.invariant (I := fun x => x.Coherent ∧ x.repository.LeaseOf leaseId jobId)
    ⟨hm, hlease⟩ fun _ _ _ hx hstep => ⟨hx.1.of_step hstep, hx.1.leaseOf_of_step hstep hx.2⟩).2

/-- A job has one device and one image. -/
private theorem install_unique {a b c d : Uuid} (h : job.IsInstallOf a b)
    (h' : job.IsInstallOf c d) : a = c ∧ b = d := by
  obtain ⟨target, htargets, hdevice⟩ := DeploymentJob.exists_target_of_hasSoleTarget h.soleTarget
  obtain ⟨target', htargets', hdevice'⟩ :=
    DeploymentJob.exists_target_of_hasSoleTarget h'.soleTarget
  obtain rfl : target = target' := by simpa [htargets] using htargets'
  exact ⟨hdevice.symm.trans hdevice', h.imageId.symm.trans h'.imageId⟩

/-- A guard whose session waits for it returns the authorization when it records the lease. -/
private theorem grants_of_leased (hm : m.Coherent) {j : ℕ} {input : SectionInput}
    {call : GuardCall} {binding : SessionBinding} {authorization : GuardAuthorization}
    {expiresAt : Instant} {session : InstallerSession}
    (hcall : m.calls[j]? = some (.authorizeGuard call
      (.leased binding authorization.autoinstall authorization.job leaseId expiresAt)))
    (hlookup : m.sessions.lookup call.sessionId = some session)
    (hphase : session.phase = .authorizing) (hstep : m.step digest (.advance j input) = some n) :
    m.Grants digest j call leaseId authorization (.advance j input) := by
  refine ⟨binding, expiresAt, n, hcall, hstep, ?_⟩
  rcases call_before_cases hstep hcall with ⟨-, hother⟩ | ⟨input', r, hadvances, hafter⟩
  · exact absurd rfl (hother input)
  · have hsession := hm.sessionId_of_leased hcall
    cases hadvances.edge with
    | unbound hstop | rejected hstop => simp [InstallerCall.mayStop] at hstop
    | recorded => exact hafter
    | failedRecord hnot =>
      rw [hsession] at hnot
      exact absurd hphase (hnot session hlookup)

/-- The guard that recorded the lease of a session had leased the job of this session, which has run
under the lease since. -/
private theorem guardedUnder_of_authorizes
    (hrun : Leads (step digest) (empty manifestPath clock registry) es w) {sessionId : Uuid} {j : ℕ}
    {authorization : GuardAuthorization}
    (hauthorized : Sometime (step digest) (Authorizes j sessionId leaseId authorization)
      (empty manifestPath clock registry) es)
    (hruns : w.RunsUnder jobId leaseId) :
    GuardedUnder digest
      (empty manifestPath clock registry) es sessionId jobId leaseId authorization ∧
      authorization.job.id = jobId ∧ authorization.job.leaseId = some leaseId ∧
      ∃ deviceId imageId, authorization.job.IsInstallOf deviceId imageId ∧
        w.repository.OfJob jobId (DeploymentJob.IsInstallOf deviceId imageId) := by
  obtain ⟨pre, e, post, m, rfl, hpre, input, call, binding, expiresAt, session, rfl, hcall, rfl,
    hlookup, hphase⟩ := hauthorized
  obtain ⟨m', n, hpre', hstep, hpost⟩ := hrun.split
  obtain rfl := hpre.unique hpre'
  have hm := coherent_of_leads hpre
  obtain ⟨⟨hbinds, -⟩, hleased⟩ := hm.call j _ hcall
  -- The lease belongs to the job that runs under it at the end.
  have hrest : Leads (step digest) m (.advance j input :: post) w := leads_cons.2 ⟨n, hstep, hpost⟩
  have hjobId : binding.jobId = jobId := by
    obtain ⟨job, hjob, hid, -, -, hlease⟩ := hruns
    exact ((leaseOf_of_leads hm hrest hleased.leaseOf).job job hjob hlease).symm.trans hid
  obtain ⟨-, now, ⟨before, handoff, mid, h, rfl, hbefore, hleases⟩, -⟩ :=
    (history_of_leads hpre).call j _ hcall
  obtain ⟨h', k, hbefore', hhandoff, hmid⟩ := hpre.split
  obtain rfl := hbefore.unique hbefore'
  rw [hjobId] at hleases
  obtain ⟨hminted, -⟩ := runsUnder_of_leases hleases hhandoff
  have hk := (coherent_of_leads hbefore).of_step hhandoff
  have hafter : Leads (step digest) k (mid ++ .advance j input :: post) w :=
    leads_append.2 ⟨m, hmid, hrest⟩
  refine ⟨⟨j, call, now, before, handoff, mid ++ .advance j input :: post, h, k, by simp, hbefore,
    hhandoff, hleases, rfl,
    ⟨mid, _, post, m, rfl, hmid, grants_of_leased hm hcall hlookup hphase hstep⟩,
    fun _ _ _ hsplit hu => runsUnder_of_leads hk hminted hafter hruns hsplit hu⟩,
    hleased.id.trans hjobId, hleased.lease, binding.deviceId, binding.imageId, hleased.install,
    hjobId ▸ ofJob_of_leads hm hrest hbinds.bound⟩

/-- The success of a job along a run. -/
private theorem attestedBy_of_completes
    (hrun : Leads (step digest) (empty manifestPath clock registry) es m) {call : FirstBootCall}
    {binding : SessionBinding} (hcompletes : m.Completes i call binding leaseId e)
    (hid : binding.jobId = jobId) (hruns : m.RunsUnder jobId leaseId) :
    ∃ session authorization, AttestedBy digest (empty manifestPath clock registry) es m e jobId call
      session leaseId authorization ∧
      m.repository.OfJob jobId (DeploymentJob.IsInstallOf session.deviceId session.imageId) := by
  obtain ⟨input, rfl, hcall⟩ := id hcompletes
  obtain ⟨hbinds, hlease⟩ := (coherent_of_leads hrun).call i _ hcall
  obtain ⟨⟨session, rfl, hauthenticated, hpast⟩, hattempt⟩ := (history_of_leads hrun).call i _ hcall
  obtain ⟨j, authorization, hauthorized⟩ := hpast.authorized leaseId hlease
  obtain ⟨hguarded, hjob, hjobLease, deviceId, imageId, hinstall, hof⟩ :=
    guardedUnder_of_authorizes hrun hauthorized hruns
  have hbound : m.repository.OfJob jobId
      (DeploymentJob.IsInstallOf session.deviceId session.imageId) := hid ▸ hbinds.bound
  obtain ⟨old, hold, holdId, -⟩ := id hruns
  obtain ⟨rfl, rfl⟩ := install_unique (hof.job old hold holdId) (hbound.job old hold holdId)
  exact ⟨session, authorization, ⟨⟨i, hcompletes, hauthenticated⟩, hpast.opened, hattempt, hid,
    hlease, hguarded, hjob, hjobLease, hinstall⟩, hbound⟩

/-! ### The law -/

/-- The step reports the success of the job for a session that was authorized for it. -/
def Attested (digest : String → String) (start : ServiceWorld) (es : List ServiceEvent)
    (m : ServiceWorld) (e : ServiceEvent) (job : DeploymentJob) : Prop :=
  ∃ call session leaseId authorization,
    AttestedBy digest start es m e job.id call session leaseId authorization ∧
      job.IsInstallOf session.deviceId session.imageId

/-- The law of the success along the run of `es`. -/
structure SuccessAttested (digest : String → String) (start : ServiceWorld)
    (es : List ServiceEvent) : Prop where
  /-- No other step makes a Linux job succeed. -/
  step : ∀ pre e post m n, es = pre ++ e :: post → Leads (step digest) start pre m →
    m.step digest e = some n → ∀ job ∈ n.repository.repo.jobs, job.operation = .installLinux →
    job.state = .succeeded →
    m.HasSucceeded job.id ∨
      Attested digest start pre m e job
  /-- A Linux job that has succeeded was attested. -/
  succeeded : ∀ pre post m, es = pre ++ post → Leads (ServiceWorld.step digest) start pre m →
    ∀ job ∈ m.repository.repo.jobs, job.operation = .installLinux → job.state = .succeeded →
    ∃ before e after n, pre = before ++ e :: after ∧
      Leads (ServiceWorld.step digest) start before n ∧ Attested digest start before n e job

/-- A step that makes a Linux job succeed is attested, and the device and the image of the job stay
known. -/
private theorem attested_of_step
    (hrun : Leads (step digest) (empty manifestPath clock registry) es m)
    (hstep : m.step digest e = some n) (hjob : job ∈ n.repository.repo.jobs)
    (hlinux : job.operation = .installLinux) (hsucceeded : job.state = .succeeded)
    (hnot : ¬ m.HasSucceeded job.id) :
    ∃ call session leaseId authorization,
      AttestedBy digest (empty manifestPath clock registry) es m e job.id call session leaseId
        authorization ∧
      n.repository.OfJob job.id (DeploymentJob.IsInstallOf session.deviceId session.imageId) := by
  have hm := coherent_of_leads hrun
  rcases completes_of_succeeded hm hstep hjob hlinux hsucceeded with
    hold | ⟨i, call, binding, leaseId, hcompletes, hid, hruns⟩
  · exact absurd hold hnot
  · obtain ⟨session, authorization, hattested, hof⟩ :=
      attestedBy_of_completes hrun hcompletes hid hruns
    exact ⟨call, session, leaseId, authorization, hattested, hm.isInstallOf_of_step hstep hof⟩

/-- Every run from the empty service obeys the law of the success. -/
theorem successAttested_empty (digest : String → String) (manifestPath : String) (clock : Instant)
    (registry : DeviceRegistry) (es : List ServiceEvent) :
    SuccessAttested digest (empty manifestPath clock registry) es where
  step pre e post m n _ hpre hstep job hjob hlinux hsucceeded := by
    by_cases hold : m.HasSucceeded job.id
    · exact Or.inl hold
    · obtain ⟨call, session, leaseId, authorization, hattested, hof⟩ :=
        attested_of_step hpre hstep hjob hlinux hsucceeded hold
      exact Or.inr ⟨call, session, leaseId, authorization, hattested, hof.job job hjob rfl⟩
  succeeded pre post m _ hpre job hjob hlinux hsucceeded := by
    obtain ⟨before, e, after, n, n', rfl, hbefore, hstep, hafter, hnot,
      ⟨first, hfirst, hid, hlinux', hstate⟩, -⟩ := hpre.exists_last_cause
        (P := fun x => x.HasSucceeded job.id)
        (by simp [HasSucceeded, empty, RepositoryWorld.empty]) ⟨job, hjob, rfl, hlinux, hsucceeded⟩
    have hn := coherent_of_leads hbefore
    obtain ⟨call, session, leaseId, authorization, hattested, hof⟩ :=
      attested_of_step hbefore hstep hfirst hlinux' hstate (by rwa [hid])
    rw [hid] at hattested hof
    refine ⟨before, e, after, n, rfl, hbefore, call, session, leaseId, authorization, hattested, ?_⟩
    exact (ofJob_of_leads (hn.of_step hstep) hafter hof).job job hjob rfl

/-- A whole installation, from the offer to the first boot of the installed system. -/
def installEvents : List ServiceEvent :=
  .jobs (.enqueue linuxRequest 0 1 .written) :: offerEvents 0 (minutes 1) 10 ++
    guardEvents 1 10 (minutes 2) 30 ++ reportEvents 2 10 .installingSystem (minutes 20) 40 ++
    firstBootEvents 3 10 (minutes 60) 50

example :
    (runFrom (ServiceWorld.step labDigest) (empty "jobs.json" 0 labRegistry) installEvents).map
      (fun w => w.repository.repo.jobs.map DeploymentJob.state) = some [.succeeded] := by
  decide +kernel

end ServiceWorld

end EasyDeployMesh
