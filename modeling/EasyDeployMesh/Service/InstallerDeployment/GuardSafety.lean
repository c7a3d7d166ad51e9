import EasyDeployMesh.Service.InstallerDeployment.History

/-!
# What an authorized guard may rely on

The authorization of a guard is the permission to write the disk. It is returned by one of two
paths, the handoff of a queued job and the replay of an earlier handoff, and other calls for the
same machine may run between any two sections of either. Whenever a guard returns an authorization,
its session was authenticated, the job runs under the lease of that session, and the configuration
names the one disk that the job selected.

## Main definitions

* `EasyDeployMesh.ServiceWorld.GuardAuthorized`: what holds of an authorization that a guard
  returns.
* `EasyDeployMesh.ServiceWorld.GuardSafety`: the law of a run.

## Main results

* `EasyDeployMesh.ServiceWorld.guardAuthorized_of_step`: a step that returns an authorization.
* `EasyDeployMesh.ServiceWorld.guardSafety_empty`: every run obeys the law.
-/

namespace EasyDeployMesh

open Foundations

namespace ServiceWorld

variable {digest : String → String} {start m n : ServiceWorld} {e : ServiceEvent}
  {es : List ServiceEvent} {i : ℕ} {call : GuardCall} {authorization : GuardAuthorization}

/-- What holds when the guard `i` returns the authorization in the last of the events `es`, which
leads to `n`; `session` is its session as the guard has read it. -/
structure GuardAuthorized (digest : String → String) (start : ServiceWorld)
    (es : List ServiceEvent) (n : ServiceWorld) (i : ℕ) (call : GuardCall)
    (authorization : GuardAuthorization) (session : InstallerSession) : Prop where
  /-- The presented token was that of the session, which had not expired. -/
  authenticated : Sometime (step digest)
    (Authenticates digest i call.sessionId call.token session) start es
  /-- The session was offered for a job, its device and its image. -/
  offered : Sometime (step digest) (Opens digest call.sessionId session) start es
  job : authorization.job.id = session.jobId
  install : authorization.job.IsInstallOf session.deviceId session.imageId
  running : authorization.job.state = .running
  /-- The lease of the job is the one that the session records. -/
  lease : ∃ leaseId, authorization.job.leaseId = some leaseId ∧
    (session.leaseId = some leaseId ∨
      ∃ now, n.sessions.lookup call.sessionId = some now ∧ now.leaseId = some leaseId) ∧
    ∀ now, n.sessions.lookup call.sessionId = some now → now.leaseId = some leaseId
  /-- The call has read a prepared image with the hash of the request. -/
  prepared : Sometime (step digest) (fun _ => Prepares i call) start es
  /-- One disk of the request matches the target, and the storage section names no other disk; its
  other paths are the two mount points. -/
  disk : ∃ target serial disk, authorization.job.targets = [target] ∧
    expectedSerial target = some serial ∧
    call.request.disks.filter (matchesTarget target serial) = [disk] ∧
    diskPaths false (storageSection authorization.autoinstall) = [Text.jsonString disk.path] ∧
    namedPaths (storageSection authorization.autoinstall) =
      [Text.jsonString disk.path, "/boot/efi", "/"]

/-- The disk that an authorization names. -/
private theorem exists_disk_of_authorizesDisk {binding : SessionBinding} {autoinstall : String}
    {job : DeploymentJob} (h : AuthorizesDisk call binding autoinstall job) :
    ∃ target serial disk, job.targets = [target] ∧ expectedSerial target = some serial ∧
      call.request.disks.filter (matchesTarget target serial) = [disk] ∧
      diskPaths false (storageSection autoinstall) = [Text.jsonString disk.path] ∧
      namedPaths (storageSection autoinstall) = [Text.jsonString disk.path, "/boot/efi", "/"] := by
  obtain ⟨target, disk, options, htargets, hdisk, hrender⟩ := h
  obtain ⟨serial, hserial, hfilter⟩ := uniquelyMatchingDisk_eq_ok_iff.1 hdisk
  exact ⟨target, serial, disk, htargets, hserial, hfilter, diskPaths_of_render hrender,
    namedPaths_of_render hrender⟩

/-- The initial path: the guard records the lease that it holds in its session. -/
private theorem guardAuthorized_of_recorded (hm : m.Coherent) (hhistory : History digest start es m)
    {input : SectionInput} {binding : SessionBinding} {autoinstall : String} {job : DeploymentJob}
    {leaseId : Uuid} {expiresAt : Instant} {session : InstallerSession}
    (hcall : m.calls[i]? =
      some (.authorizeGuard call (.leased binding autoinstall job leaseId expiresAt)))
    (hsessions : n.sessions = m.sessions.insert binding.sessionId
      { session with phase := .handedOff, leaseId := some leaseId, expiresAt }) :
    ∃ read, GuardAuthorized digest start (es ++ [.advance i input]) n i call { autoinstall, job }
      read := by
  obtain ⟨⟨hauth, hprepared⟩, -⟩ := (hhistory.call i _ hcall).append [.advance i input]
  obtain ⟨read, rfl, hauthenticated, hread⟩ := hauth
  obtain ⟨⟨hbinds, -⟩, hleased⟩ := hm.call i _ hcall
  have hlookup : n.sessions.lookup call.sessionId =
      some { session with phase := .handedOff, leaseId := some leaseId, expiresAt } := by
    rw [hsessions, hbinds.id, AList.lookup_insert]
  refine ⟨read, hauthenticated, hread.opened, hleased.id, hleased.install, hleased.running,
    ⟨leaseId, hleased.lease, Or.inr ⟨_, hlookup, rfl⟩, fun now hnow => ?_⟩, hprepared,
    exists_disk_of_authorizesDisk hleased.authorizes⟩
  obtain rfl := Option.some.inj (hlookup.symm.trans hnow)
  rfl

/-- The replay: the guard has read the lease from its session. -/
private theorem guardAuthorized_of_replayed (hrun : Leads (step digest) start es m)
    (hm : m.Coherent) (hhistory : History digest start es m) {input : SectionInput}
    {binding : SessionBinding}
    (hcall : m.calls[i]? = some (.authorizeGuard call (.replaying binding)))
    (hsessions : n.sessions = m.sessions)
    (hreplay : replayGuardAuthorization m.repository.repo binding call.token call.request
      input.preparation = .ok authorization) :
    ∃ read,
      GuardAuthorized digest start (es ++ [.advance i input]) n i call authorization read := by
  have hpast := (hhistory.call i _ hcall).append [.advance i input]
  obtain ⟨read, rfl, hauthenticated, hread⟩ := hpast
  obtain ⟨hbinds, hsome⟩ := hm.call i _ hcall
  obtain ⟨leaseId, hlease⟩ := Option.isSome_iff_exists.1 hsome
  obtain ⟨hprepares, -, hid, hinstall, hrunning, hjobLease, hauthorizes⟩ :=
    replayGuardAuthorization_ok hreplay
  refine ⟨read, hauthenticated, hread.opened, hid, hinstall, hrunning,
    ⟨leaseId, hjobLease.trans hlease, Or.inl hlease, fun now hnow => ?_⟩,
    hrun.sometime ⟨input, rfl, hprepares⟩, exists_disk_of_authorizesDisk hauthorizes⟩
  rw [hsessions] at hnow
  exact (hbinds.reads now hnow).leaseId leaseId hlease

/-- A step in which a guard returns an authorization. -/
theorem guardAuthorized_of_step {manifestPath : String} {clock : Instant}
    {registry : DeviceRegistry}
    (hrun : Leads (step digest) (empty manifestPath clock registry) es m)
    (hstep : m.step digest e = some n)
    (hreturned : n.calls[i]? = some (.authorizeGuard call (.returned (.ok authorization))))
    (hnot : m.calls[i]? ≠ n.calls[i]?) :
    ∃ session, GuardAuthorized digest (empty manifestPath clock registry) (es ++ [e]) n i call
      authorization session := by
  have hm := coherent_of_leads hrun
  have hhistory := history_of_leads hrun
  rcases call_after_cases hstep hreturned with
    ⟨hold, -⟩ | ⟨-, hfresh⟩ | ⟨input, c, r, hadvances, hstate⟩
  · exact absurd (hold.trans hreturned.symm) hnot
  · simp [InstallerCall.isFresh] at hfresh
  · obtain rfl := hadvances.event
    have hcall := hadvances.call
    have hsessions := hadvances.sessions
    have hedge := hadvances.edge
    cases hedge with
    | @unbound _ c' _ _ hunbound | @rejected _ c' _ _ hunbound =>
      obtain rfl : c' = _ := hstate.symm
      simp [InstallerCall.isUnbound] at hunbound
    | recorded hlookup hphase =>
      injection hstate with heq hresult
      subst heq
      obtain rfl : authorization = _ := Except.ok.inj (GuardState.returned.inj hresult)
      exact guardAuthorized_of_recorded hm hhistory hcall hsessions
    | replayed hreplay =>
      injection hstate with heq hresult
      subst heq
      obtain rfl : authorization = _ := Except.ok.inj (GuardState.returned.inj hresult)
      exact guardAuthorized_of_replayed hrun hm hhistory hcall hsessions hreplay
    | assigned | marked | overflowed | opened | offered | replaying | claimed | checked
    | failedCheck | leased | failedLease | failedRecord | released | notReleased | reporting
    | reported | eventCompleted | eventAwaits | completing | completed | bootCompleted =>
      simp [SectionResult.quiet, SectionResult.timed, SectionResult.ofJobs] at hstate

/-- The law of the authorizations along the run of `es`. -/
structure GuardSafety (digest : String → String) (start : ServiceWorld) (es : List ServiceEvent) :
    Prop where
  authorized : ∀ pre e post m n, es = pre ++ e :: post → Leads (step digest) start pre m →
    m.step digest e = some n → ∀ i call authorization,
    n.calls[i]? = some (.authorizeGuard call (.returned (.ok authorization))) →
    m.calls[i]? ≠ n.calls[i]? →
    ∃ session, GuardAuthorized digest start (pre ++ [e]) n i call authorization session
  /-- No lease is recorded in two sessions. -/
  leases_distinct : ∀ pre post m, es = pre ++ post → Leads (step digest) start pre m →
    ∀ a b s t leaseId, m.sessions.lookup a = some s → m.sessions.lookup b = some t →
      s.leaseId = some leaseId → t.leaseId = some leaseId → a = b
  /-- Only the job of a session holds the lease that the session records. -/
  lease_of_job : ∀ pre post m, es = pre ++ post → Leads (step digest) start pre m →
    ∀ a s leaseId, m.sessions.lookup a = some s → s.leaseId = some leaseId →
      ∀ job ∈ m.repository.repo.jobs, job.leaseId = some leaseId → job.id = s.jobId

/-- Every run from the empty service obeys the law of the authorizations. -/
theorem guardSafety_empty (digest : String → String) (manifestPath : String) (clock : Instant)
    (registry : DeviceRegistry) (es : List ServiceEvent) :
    GuardSafety digest (empty manifestPath clock registry) es where
  authorized _ _ _ _ _ _ hpre hstep _ _ _ hreturned hnot :=
    guardAuthorized_of_step hpre hstep hreturned hnot
  leases_distinct _ _ _ _ hpre := (coherent_of_leads hpre).leases_distinct
  lease_of_job _ _ _ _ hpre a s leaseId hlookup hlease :=
    (((coherent_of_leads hpre).session a s hlookup).lease leaseId hlease).job

/-- A guard is authorized, and an installer of the same session asks again. -/
def replayEvents : List ServiceEvent :=
  .jobs (.enqueue linuxRequest 0 1 .written) :: offerEvents 0 (minutes 1) 10 ++
    guardEvents 1 10 (minutes 2) 30 ++
    [.call (.authorizeGuard (labGuard 10) .start), .advance 2 (labInput (minutes 3) 40),
     .advance 2 (labInput (minutes 3) 40)]

/-- The leases of the authorizations that guards have returned. -/
def authorizedLeases (w : ServiceWorld) : List (Option Uuid) :=
  w.calls.filterMap fun
    | .authorizeGuard _ (.returned (.ok authorization)) => some authorization.job.leaseId
    | _ => none

example : (runFrom (step labDigest) (empty "jobs.json" 0 labRegistry) replayEvents).map
    authorizedLeases = some [some 30, some 30] := by decide +kernel

end ServiceWorld

end EasyDeployMesh
