import EasyDeployMesh.Service.InstallerDeployment.World
import EasyDeployMesh.Service.JobRepository.Invariant

/-!
# What a section of a call can do

The inversion of every critical section of an installer call: the states of the call before and
after it, what it does to the sessions, and the call on the repository that it consists of. What is
proved about runs of the service is derived from these cases; no section is looked at again.

## Main definitions

* `EasyDeployMesh.InstallerCall.owner`: the session that a call has moved to `authorizing`.
* `EasyDeployMesh.SectionEdge`: the sections, each with its effect.

## Main results

* `EasyDeployMesh.InstallerCall.sectionEdge_of_advance`: every section has one of these effects.
* `EasyDeployMesh.SessionTable.authenticateSession_eq_ok_iff`: when a request is authenticated.
-/

namespace EasyDeployMesh

open Foundations

namespace InstallerCall

/-- The session that a guard has moved to `authorizing` and not moved on yet. -/
def owner : InstallerCall → Option Uuid
  | authorizeGuard call (.authorizing _) | authorizeGuard call (.checked _ _)
  | authorizeGuard call (.leased _ _ _ _ _) | authorizeGuard call (.refused _ _) =>
    some call.sessionId
  | _ => none

/-- The call keeps nothing of a session or of a job that it still acts on, and has not returned an
authorization. -/
def isUnbound : InstallerCall → Bool
  | discover _ .start | discover _ (.found _) | discover _ (.returned _)
  | authorizeGuard _ .start | authorizeGuard _ (.returned (.error _))
  | reportEvent _ .start | reportEvent _ (.returned _)
  | completeFirstBoot _ .start | completeFirstBoot _ (.returned _) | fetch _ _ => true
  | _ => false

/-- The next section of the call may end it without an effect. -/
def mayStop : InstallerCall → Bool
  | discover _ .start | discover _ (.found _) | discover _ (.assigned _ _)
  | authorizeGuard _ .start | authorizeGuard _ (.offered _) | authorizeGuard _ (.replaying _)
  | reportEvent _ .start | reportEvent _ (.reporting _ _) | reportEvent _ (.reported _ _)
  | completeFirstBoot _ .start | completeFirstBoot _ (.completing _ _)
  | completeFirstBoot _ (.completed _ _) | fetch _ .start | fetch _ (.authenticated _) => true
  | _ => false

end InstallerCall

/-- The calls on the repository with which an installer reports an event under the lease
`leaseId`. -/
inductive ReportsEvent (binding : SessionBinding) (leaseId : Uuid) : JobEvent → Prop
  | failed {now later : Instant} {write : WriteOutcome} :
      ReportsEvent binding leaseId
        (.completeInstaller binding.jobId binding.deviceId leaseId false none now later write)
  | progress {stage : DeploymentStage} {progressPercent : UInt8} {message : Option String}
      {started now later : Instant} {write : WriteOutcome} :
      ReportsEvent binding leaseId
        (.reportInstallerProgress binding.jobId binding.deviceId leaseId
          (minutes installerLeaseMinutes) stage progressPercent message started now later write)

/-- The call leaves the jobs as they are. -/
def JobEvent.KeepsJobs (repo : JobRepository) (e : JobEvent) : Prop :=
  ∀ repo', e.apply repo = some repo' → repo'.jobs = repo.jobs

section

variable (digest : String → String) (repo : JobRepository) (sessions : SessionTable)
  (input : SectionInput)

/-- One section of a call: the call before it, and its result. -/
inductive SectionEdge : InstallerCall → SectionResult InstallerCall → Prop
  /-- The call goes on without a session, or returns an error or a value that grants nothing. -/
  | unbound {c c' : InstallerCall} {jobs : Option JobEvent} (hstop : c.mayStop = true)
      (hunbound : c'.isUnbound = true) (hjobs : jobs = none ∨ jobs = some (.idle input.now)) :
      SectionEdge c { state := c', sessions, jobs, minted := [] }
  /-- The repository refuses the call. -/
  | rejected {c c' : InstallerCall} {e : JobEvent} (hstop : c.mayStop = true)
      (hunbound : c'.isUnbound = true) (hkeeps : e.KeepsJobs repo) :
      SectionEdge c (.ofJobs sessions e c')
  | assigned {query : BootQuery} {device : Device} {job : DeploymentJob}
      (hfind : query.findAssignment device repo = .ok job) :
      SectionEdge (.discover query (.found device))
        (.quiet sessions (.discover query (.assigned device job)))
  | marked {query : BootQuery} {device : Device} {job : DeploymentJob} :
      SectionEdge (.discover query (.assigned device job))
        (.ofJobs sessions
          (.markInstallerBooting job.id device.id job.imageId input.now input.write)
          (.discover query (.booting device job)))
  | overflowed {query : BootQuery} {device : Device} {job : DeploymentJob}
      {error : InstallerDeploymentError} :
      SectionEdge (.discover query (.booting device job))
        { state := .discover query (.returned (.error error))
          sessions := sessions.prune job.id input.now
          jobs := some (.idle input.now)
          minted := [input.sessionId, input.attemptId, input.secret.1, input.secret.2] }
  | opened {query : BootQuery} {device : Device} {job : DeploymentJob} {assignment : BootAssignment}
      (hstarted : input.started ≤ input.now) (hid : assignment.sessionId = input.sessionId)
      (hattempt : assignment.attemptId = input.attemptId)
      (htoken : assignment.token =
        generateSecret "easydeploymesh_installer" input.secret.1 input.secret.2) :
      SectionEdge (.discover query (.booting device job))
        { state := .discover query (.returned (.ok (.assigned assignment)))
          sessions := (sessions.prune job.id input.now).insert input.sessionId
            (offeredSession digest query device job assignment.token input)
          jobs := some (.idle input.now)
          minted := [input.sessionId, input.attemptId, input.secret.1, input.secret.2] }
  | offered {call : GuardCall} {binding : SessionBinding}
      (hauth : sessions.authenticateSession digest call.sessionId call.token input.now =
        .ok binding)
      (hphase : binding.phase = .offered) :
      SectionEdge (.authorizeGuard call .start)
        (.timed sessions input.now (.authorizeGuard call (.offered binding)))
  | replaying {call : GuardCall} {binding : SessionBinding}
      (hauth : sessions.authenticateSession digest call.sessionId call.token input.now =
        .ok binding)
      (hphase : binding.phase = .handedOff ∨ binding.phase = .awaitingFirstBoot) :
      SectionEdge (.authorizeGuard call .start)
        (.timed sessions input.now (.authorizeGuard call (.replaying binding)))
  | claimed {call : GuardCall} {binding : SessionBinding} {session : InstallerSession}
      (hlookup : sessions.lookup call.sessionId = some session)
      (hphase : session.phase = .offered) :
      SectionEdge (.authorizeGuard call (.offered binding))
        (.quiet (sessions.insert call.sessionId { session with phase := .authorizing })
          (.authorizeGuard call (.authorizing binding)))
  | checked {call : GuardCall} {binding : SessionBinding} {autoinstall : String}
      (hconfig : initialConfiguration repo binding call.token call.request input.preparation =
        .ok autoinstall) :
      SectionEdge (.authorizeGuard call (.authorizing binding))
        (.quiet sessions (.authorizeGuard call (.checked binding autoinstall)))
  | failedCheck {call : GuardCall} {binding : SessionBinding} {error : InstallerDeploymentError} :
      SectionEdge (.authorizeGuard call (.authorizing binding))
        (.quiet sessions (.authorizeGuard call (.refused binding error)))
  | leased {call : GuardCall} {binding : SessionBinding} {autoinstall : String}
      {job : DeploymentJob}
      {leaseId : Uuid} {expiresAt : Instant}
      (hok : (repo.leaseInstallerJob binding.jobId binding.deviceId binding.imageId
        (minutes installerLeaseMinutes) input.now input.leaseId input.write).1 = .ok job)
      (hlease : job.leaseId = some leaseId) (hexpiry : job.leaseExpiresAt = some expiresAt) :
      SectionEdge (.authorizeGuard call (.checked binding autoinstall))
        (.ofJobs sessions
          (.leaseInstallerJob binding.jobId binding.deviceId binding.imageId
            (minutes installerLeaseMinutes) input.now input.leaseId input.write)
          (.authorizeGuard call (.leased binding autoinstall job leaseId expiresAt)))
  | failedLease {call : GuardCall} {binding : SessionBinding} {autoinstall : String}
      {error : JobRepositoryError}
      (herror : (repo.leaseInstallerJob binding.jobId binding.deviceId binding.imageId
        (minutes installerLeaseMinutes) input.now input.leaseId input.write).1 = .error error)
      (hkeeps : JobEvent.KeepsJobs repo (.leaseInstallerJob binding.jobId binding.deviceId
        binding.imageId (minutes installerLeaseMinutes) input.now input.leaseId input.write)) :
      SectionEdge (.authorizeGuard call (.checked binding autoinstall))
        (.ofJobs sessions
          (.leaseInstallerJob binding.jobId binding.deviceId binding.imageId
            (minutes installerLeaseMinutes) input.now input.leaseId input.write)
          (.authorizeGuard call (.refused binding (.jobs error))))
  | recorded {call : GuardCall} {binding : SessionBinding} {autoinstall : String}
      {job : DeploymentJob} {leaseId : Uuid} {expiresAt : Instant} {session : InstallerSession}
      (hlookup : sessions.lookup binding.sessionId = some session)
      (hphase : session.phase = .authorizing) :
      SectionEdge (.authorizeGuard call (.leased binding autoinstall job leaseId expiresAt))
        (.quiet (sessions.insert binding.sessionId
            { session with phase := .handedOff, leaseId := some leaseId, expiresAt })
          (.authorizeGuard call (.returned (.ok { autoinstall, job }))))
  | failedRecord {call : GuardCall} {binding : SessionBinding} {autoinstall : String}
      {job : DeploymentJob} {leaseId : Uuid} {expiresAt : Instant}
      {error : InstallerDeploymentError}
      (hsession : ∀ session, sessions.lookup binding.sessionId = some session →
        session.phase ≠ .authorizing) :
      SectionEdge (.authorizeGuard call (.leased binding autoinstall job leaseId expiresAt))
        (.quiet sessions (.authorizeGuard call (.refused binding error)))
  | released {call : GuardCall} {binding : SessionBinding} {error : InstallerDeploymentError}
      {session : InstallerSession} (hlookup : sessions.lookup call.sessionId = some session)
      (hphase : session.phase = .authorizing) :
      SectionEdge (.authorizeGuard call (.refused binding error))
        (.quiet (sessions.insert call.sessionId { session with phase := .offered })
          (.authorizeGuard call (.returned (.error error))))
  | notReleased {call : GuardCall} {binding : SessionBinding} {error : InstallerDeploymentError}
      (hsession : ∀ session, sessions.lookup call.sessionId = some session →
        session.phase ≠ .authorizing) :
      SectionEdge (.authorizeGuard call (.refused binding error))
        (.quiet sessions (.authorizeGuard call (.returned (.error error))))
  | replayed {call : GuardCall} {binding : SessionBinding} {authorization : GuardAuthorization}
      (hreplay : replayGuardAuthorization repo binding call.token call.request input.preparation =
        .ok authorization) :
      SectionEdge (.authorizeGuard call (.replaying binding))
        (.quiet sessions (.authorizeGuard call (.returned (.ok authorization))))
  | reporting {call : EventCall} {binding : SessionBinding} {leaseId : Uuid}
      (hauth : sessions.authenticateSession digest call.sessionId call.token input.now =
        .ok binding)
      (hlease : binding.leaseId = some leaseId) :
      SectionEdge (.reportEvent call .start)
        (.timed sessions input.now (.reportEvent call (.reporting binding leaseId)))
  /-- The repository accepts the event, and the session is to be updated or the call returns. -/
  | reported {call : EventCall} {binding : SessionBinding} {leaseId : Uuid} {job : DeploymentJob}
      {state : EventState} {e : JobEvent} (he : ReportsEvent binding leaseId e)
      (hstate : state = .reported binding job ∨ state = .returned (.ok job)) :
      SectionEdge (.reportEvent call (.reporting binding leaseId))
        (.ofJobs sessions e (.reportEvent call state))
  | eventCompleted {call : EventCall} {binding : SessionBinding} {job : DeploymentJob}
      {session : InstallerSession} {result : Except InstallerDeploymentError DeploymentJob}
      (hlookup : sessions.lookup call.sessionId = some session) :
      SectionEdge (.reportEvent call (.reported binding job))
        (.quiet (sessions.insert call.sessionId { session with phase := .completed })
          (.reportEvent call (.returned result)))
  | eventAwaits {call : EventCall} {binding : SessionBinding} {job : DeploymentJob}
      {session : InstallerSession} {result : Except InstallerDeploymentError DeploymentJob}
      (hlookup : sessions.lookup call.sessionId = some session)
      (hphase : session.phase = .handedOff) :
      SectionEdge (.reportEvent call (.reported binding job))
        (.quiet (sessions.insert call.sessionId { session with phase := .awaitingFirstBoot })
          (.reportEvent call (.returned result)))
  | completing {call : FirstBootCall} {binding : SessionBinding} {leaseId : Uuid}
      (hauth : sessions.authenticateSession digest call.sessionId call.token input.now =
        .ok binding)
      (hattempt : binding.attemptId = call.attemptId) (hlease : binding.leaseId = some leaseId) :
      SectionEdge (.completeFirstBoot call .start)
        (.timed sessions input.now (.completeFirstBoot call (.completing binding leaseId)))
  | completed {call : FirstBootCall} {binding : SessionBinding} {leaseId : Uuid}
      {job : DeploymentJob} :
      SectionEdge (.completeFirstBoot call (.completing binding leaseId))
        (.ofJobs sessions
          (.completeInstaller binding.jobId binding.deviceId leaseId true none input.now input.later
            input.write)
          (.completeFirstBoot call (.completed binding job)))
  | bootCompleted {call : FirstBootCall} {binding : SessionBinding} {job : DeploymentJob}
      {session : InstallerSession}
      {result : Except InstallerDeploymentError (Option DeploymentJob)}
      (hlookup : sessions.lookup call.sessionId = some session) :
      SectionEdge (.completeFirstBoot call (.completed binding job))
        (.quiet (sessions.insert call.sessionId { session with phase := .completed })
          (.completeFirstBoot call (.returned result)))

end

/-! ### What the checks find -/

/-- The Linux job with this device and this image. -/
structure DeploymentJob.IsInstallOf (deviceId imageId : Uuid) (job : DeploymentJob) : Prop where
  operation : job.operation = .installLinux
  imageId : job.imageId = imageId
  soleTarget : job.hasSoleTarget deviceId = true

theorem DeploymentJob.IsInstallOf.of_sameTask {deviceId imageId : Uuid} {old new : DeploymentJob}
    (hsame : SameTask old new) (h : old.IsInstallOf deviceId imageId) :
    new.IsInstallOf deviceId imageId where
  operation := hsame.operation.trans h.operation
  imageId := hsame.imageId.trans h.imageId
  soleTarget := by
    have hsole := h.soleTarget
    unfold hasSoleTarget at hsole ⊢
    rwa [hsame.targets]

theorem JobRepository.mem_list {repo : JobRepository} {job : DeploymentJob} :
    job ∈ repo.list ↔ job ∈ repo.jobs := by
  simp [list]

/-- The job that a machine may be offered is a queued Linux job of its device. -/
theorem BootQuery.findAssignment_ok {query : BootQuery} {device : Device} {repo : JobRepository}
    {job : DeploymentJob} (h : query.findAssignment device repo = .ok job) :
    job ∈ repo.jobs ∧ job.IsInstallOf device.id job.imageId ∧ job.state = .waiting := by
  unfold findAssignment at h
  split at h
  · simp at h
  · rename_i found hfilter
    have hfound : found ∈ repo.list.filter (fun job => job.operation == .installLinux &&
        !job.state.isTerminal && job.hasSoleTarget device.id) := by
      rw [hfilter]
      exact List.mem_singleton_self found
    obtain ⟨hmem, hchecks⟩ := List.mem_filter.1 hfound
    simp only [Bool.and_eq_true, beq_iff_eq] at hchecks
    obtain ⟨⟨hlinux, -⟩, hsole⟩ := hchecks
    split at h
    · simp at h
    · rename_i hwaiting
      split_ifs at h
      split at h
      · simp at h
      · split_ifs at h
        obtain rfl := Except.ok.inj h
        exact ⟨JobRepository.mem_list.1 hmem, ⟨hlinux, rfl, hsole⟩, not_not.1 hwaiting⟩
  · simp at h

theorem requireBoundJob_ok {repo : JobRepository} {binding : SessionBinding}
    {requiredState : JobState} {job : DeploymentJob}
    (h : requireBoundJob repo binding requiredState = .ok job) :
    job ∈ repo.jobs ∧ job.id = binding.jobId ∧
      job.IsInstallOf binding.deviceId binding.imageId ∧ job.state = requiredState := by
  unfold requireBoundJob at h
  split at h
  · simp at h
  · rename_i found hfind
    split_ifs at h with hchecks
    obtain rfl := Except.ok.inj h
    simp only [not_or, ne_eq, not_not, Bool.not_eq_true', Bool.not_eq_false] at hchecks
    obtain ⟨hlinux, himage, hstate, hsole⟩ := hchecks
    exact ⟨JobRepository.mem_list.1 (List.mem_of_find?_eq_some hfind),
      by simpa using List.find?_some hfind, ⟨hlinux, himage, hsole⟩, hstate⟩

/-- The disk that is selected is the only one of the request that matches the target. -/
theorem uniquelyMatchingDisk_eq_ok_iff {target : DeploymentTarget}
    {disks : List LinuxInstallerObservedDisk} {disk : LinuxInstallerObservedDisk} :
    uniquelyMatchingDisk target disks = .ok disk ↔ ∃ serial, expectedSerial target = some serial ∧
      disks.filter (matchesTarget target serial) = [disk] := by
  unfold uniquelyMatchingDisk
  cases hserial : expectedSerial target with
  | none => simp
  | some serial =>
    simp only [Option.some.injEq, exists_eq_left']
    split
    · rename_i found hfound
      simp [hfound]
    · rename_i hnot
      constructor
      · simp
      · intro hfilter
        exact absurd hfilter (hnot disk)

/-- The configuration names the one disk of the request that matches the target of the job. -/
def AuthorizesDisk (call : GuardCall) (binding : SessionBinding) (autoinstall : String)
    (job : DeploymentJob) : Prop :=
  ∃ target disk options, job.targets = [target] ∧
    uniquelyMatchingDisk target call.request.disks = .ok disk ∧
    renderFinalAutoinstall binding call.token options disk.path = .ok autoinstall

/-- The image library answered with an image that has the hash of the request. -/
def GuardCall.AcceptsPreparation (call : GuardCall) (preparation : Preparation) : Prop :=
  ∃ prepared, preparation = some prepared ∧
    Text.eqIgnoreAsciiCase prepared.iso.sha256 call.request.imageSha256 = true

/-- What the checks before the handoff have found. -/
theorem initialConfiguration_ok {repo : JobRepository} {call : GuardCall} {binding : SessionBinding}
    {preparation : Preparation} {autoinstall : String}
    (h : initialConfiguration repo binding call.token call.request preparation = .ok autoinstall) :
    call.AcceptsPreparation preparation ∧
      ∃ job ∈ repo.jobs, job.id = binding.jobId ∧ job.state = .waiting ∧
        AuthorizesDisk call binding autoinstall job := by
  unfold initialConfiguration at h
  split at h
  · simp at h
  · rename_i prepared
    split_ifs at h with hmedia
    simp only [not_or, ne_eq, not_not, Bool.not_eq_true', Bool.not_eq_false] at hmedia
    split at h
    · simp at h
    · rename_i job hjob
      obtain ⟨hmem, hid, hinstall, hstate⟩ := requireBoundJob_ok hjob
      obtain ⟨target, htargets, -⟩ :=
        DeploymentJob.exists_target_of_hasSoleTarget hinstall.soleTarget
      rw [htargets] at h
      dsimp only at h
      split at h
      · simp at h
      · rename_i disk hdisk
        split_ifs at h
        split at h
        · simp at h
        · rename_i options hoptions
          split_ifs at h
          exact ⟨⟨prepared, rfl, hmedia.2⟩, job, hmem, hid, hstate, target, disk, options, htargets,
            hdisk, h⟩

/-- What the checks of a replay have found. -/
theorem replayGuardAuthorization_ok {repo : JobRepository} {call : GuardCall}
    {binding : SessionBinding} {preparation : Preparation} {authorization : GuardAuthorization}
    (h : replayGuardAuthorization repo binding call.token call.request preparation =
      .ok authorization) :
    call.AcceptsPreparation preparation ∧ authorization.job ∈ repo.jobs ∧
      authorization.job.id = binding.jobId ∧
      authorization.job.IsInstallOf binding.deviceId binding.imageId ∧
      authorization.job.state = .running ∧ authorization.job.leaseId = binding.leaseId ∧
      AuthorizesDisk call binding authorization.autoinstall authorization.job := by
  unfold replayGuardAuthorization at h
  split at h
  · simp at h
  · rename_i prepared
    split_ifs at h with hmedia
    simp only [Bool.not_eq_true', Bool.not_eq_false] at hmedia
    split at h
    · simp at h
    · rename_i job hjob
      split_ifs at h with hlease
      obtain ⟨hmem, hid, hinstall, hstate⟩ := requireBoundJob_ok hjob
      obtain ⟨target, htargets, -⟩ :=
        DeploymentJob.exists_target_of_hasSoleTarget hinstall.soleTarget
      rw [htargets] at h
      dsimp only at h
      split at h
      · simp at h
      · rename_i disk hdisk
        split at h
        · simp at h
        · rename_i options hoptions
          obtain ⟨autoinstall, hrender, rfl⟩ := map_eq_ok_iff.1 h
          exact ⟨⟨prepared, rfl, hmedia⟩, hmem, hid, hinstall, hstate, not_not.1 hlease,
            target, disk, options, htargets, hdisk, hrender⟩

/-! ### The inversion of every section -/

/-- An edit that is refused leaves the jobs. -/
theorem JobRepository.editJob_jobs_of_error {repo : JobRepository} {id : Uuid}
    {edit : DeploymentJob → Except JobRepositoryError DeploymentJob} {write : WriteOutcome}
    {error : JobRepositoryError} (h : (repo.editJob id edit write).1 = .error error) :
    (repo.editJob id edit write).2.jobs = repo.jobs := by
  unfold editJob at h ⊢
  split
  · rfl
  · rename_i job put hfocus
    simp only [hfocus] at h
    split
    · rfl
    · rename_i updated hupdated
      simp only [hupdated] at h
      cases write with
      | written => simp [commit, persist] at h
      | refused source => rfl
      | interrupted source => rfl

namespace SessionTable

variable {sessions : SessionTable} {digest : String → String} {sessionId : Uuid}
  {expected next : InstallerSessionPhase}

/-- Setting a phase finds a session in the expected phase, or leaves the table. -/
theorem setSessionPhase_cases (sessions : SessionTable) (sessionId : Uuid)
    (expected next : InstallerSessionPhase) :
    (∃ session, sessions.lookup sessionId = some session ∧ session.phase = expected ∧
      sessions.setSessionPhase sessionId expected next =
        (.ok (), sessions.insert sessionId { session with phase := next })) ∨
    ((∀ session, sessions.lookup sessionId = some session → session.phase ≠ expected) ∧
      ∃ error, sessions.setSessionPhase sessionId expected next = (.error error, sessions)) := by
  unfold setSessionPhase
  cases hlookup : sessions.lookup sessionId with
  | none => exact Or.inr ⟨by simp, _, rfl⟩
  | some session =>
    by_cases hphase : session.phase = expected
    · exact Or.inl ⟨session, rfl, hphase, by simp [hphase]⟩
    · refine Or.inr ⟨fun other hother => ?_, .invalidSessionState, by simp [hphase]⟩
      obtain rfl := Option.some.inj hother
      exact hphase

theorem markSessionCompleted_cases (sessions : SessionTable) (sessionId : Uuid) :
    (∃ session, sessions.lookup sessionId = some session ∧
      sessions.markSessionCompleted sessionId =
        (.ok (), sessions.insert sessionId { session with phase := .completed })) ∨
    sessions.markSessionCompleted sessionId = (.error .unauthorized, sessions) := by
  unfold markSessionCompleted
  cases hlookup : sessions.lookup sessionId with
  | none => exact Or.inr rfl
  | some session => exact Or.inl ⟨session, rfl, rfl⟩

/-- Recording a lease finds the session in the phase `authorizing`, or leaves the table. -/
theorem recordHandOff_cases (sessions : SessionTable) (sessionId leaseId : Uuid)
    (expiresAt : Instant) :
    (∃ session, sessions.lookup sessionId = some session ∧ session.phase = .authorizing ∧
      sessions.recordHandOff sessionId leaseId expiresAt = (.ok (), sessions.insert sessionId
        { session with phase := .handedOff, leaseId := some leaseId, expiresAt })) ∨
    ((∀ session, sessions.lookup sessionId = some session → session.phase ≠ .authorizing) ∧
      ∃ error, sessions.recordHandOff sessionId leaseId expiresAt = (.error error, sessions)) := by
  unfold recordHandOff
  cases hlookup : sessions.lookup sessionId with
  | none => exact Or.inr ⟨by simp, _, rfl⟩
  | some session =>
    by_cases hphase : session.phase = .authorizing
    · exact Or.inl ⟨session, rfl, hphase, by simp [hphase]⟩
    · refine Or.inr ⟨fun other hother => ?_, .invalidSessionState, by simp [hphase]⟩
      obtain rfl := Option.some.inj hother
      exact hphase

/-- When a request is authenticated: the session is in the table, the token is the one of the
session, and the session has not expired. -/
theorem authenticateSession_eq_ok_iff {token : String} {now : Instant} {binding : SessionBinding} :
    sessions.authenticateSession digest sessionId token now = .ok binding ↔
      token ≠ "" ∧ token.utf8ByteSize ≤ maxSessionTokenBytes ∧
        ∃ session, sessions.lookup sessionId = some session ∧
          digest token = session.tokenDigest ∧ now ≤ session.expiresAt ∧
          session.binding sessionId = binding := by
  unfold authenticateSession
  split_ifs with hshape
  · simp only [Bool.or_eq_true, String.isEmpty_iff, decide_eq_true_eq] at hshape
    constructor
    · simp
    · rintro ⟨hne, hle, -⟩
      rcases hshape with rfl | hlt
      · exact absurd rfl hne
      · exact absurd hle (not_le.2 hlt)
  · simp only [Bool.or_eq_true, String.isEmpty_iff, decide_eq_true_eq, not_or, not_lt] at hshape
    simp only [hshape, true_and, ne_eq, not_false_eq_true]
    cases hlookup : sessions.lookup sessionId with
    | none => simp
    | some session =>
      by_cases hmatch : digest token = session.tokenDigest
      · by_cases hexpired : session.expiresAt < now
        · simp [secretMatches, hmatch, hexpired]
        · have hle := not_lt.1 hexpired
          simp [secretMatches, hmatch, if_neg hexpired, hle]
      · have hmatch' : session.tokenDigest ≠ digest token := fun heq => hmatch heq.symm
        simp [secretMatches, hmatch, hmatch']

end SessionTable

section

variable {digest : String → String} {registry : DeviceRegistry} {repo : JobRepository}
  {sessions : SessionTable} {input : SectionInput}

/-- A call on the repository that returns an error leaves the jobs. -/
private theorem keepsJobs_of_editJob {id : Uuid}
    {edit : DeploymentJob → Except JobRepositoryError DeploymentJob} {write : WriteOutcome}
    {error : JobRepositoryError} {e : JobEvent}
    (he : e.apply repo = some (repo.editJob id edit write).2)
    (h : (repo.editJob id edit write).1 = .error error) : e.KeepsJobs repo := by
  intro repo' happly
  obtain rfl := Option.some.inj (he.symm.trans happly)
  exact JobRepository.editJob_jobs_of_error h

private theorem keepsJobs_of_reportInstallerProgress {jobId deviceId leaseId : Uuid}
    {leaseDuration : Duration} {stage : DeploymentStage} {progressPercent : UInt8}
    {message : Option String} {started now later : Instant} {write : WriteOutcome}
    {error : JobRepositoryError}
    (h : (repo.reportInstallerProgress jobId deviceId leaseId leaseDuration stage progressPercent
      message started now later write).1 = .error error) :
    JobEvent.KeepsJobs repo (.reportInstallerProgress jobId deviceId leaseId leaseDuration stage
      progressPercent message started now later write) := by
  intro repo' happly
  obtain rfl := Option.some.inj happly
  unfold JobRepository.reportInstallerProgress at h ⊢
  split_ifs at h ⊢
  · rfl
  · exact JobRepository.editJob_jobs_of_error h

theorem DiscoverState.sectionEdge_of_advance {query : BootQuery} {state : DiscoverState}
    {r : SectionResult DiscoverState}
    (h : state.advance digest registry repo sessions query input = some r) :
    SectionEdge digest repo sessions input (.discover query state) (r.map (.discover query)) := by
  cases state with
  | start =>
    simp only [advance] at h
    split_ifs at h
    · obtain rfl := Option.some.inj h
      exact .unbound rfl rfl (Or.inl rfl)
    · split at h <;> obtain rfl := Option.some.inj h
      · exact .unbound rfl rfl (Or.inl rfl)
      · exact .unbound rfl rfl (Or.inl rfl)
      · exact .unbound rfl rfl (Or.inl rfl)
  | found device =>
    simp only [advance] at h
    split at h <;> obtain rfl := Option.some.inj h
    · exact .unbound rfl rfl (Or.inl rfl)
    · rename_i job hfind
      exact .assigned hfind
  | assigned device job =>
    simp only [advance] at h
    split_ifs at h
    · obtain rfl := Option.some.inj h
      exact .unbound rfl rfl (Or.inl rfl)
    · split at h <;> obtain rfl := Option.some.inj h
      · rename_i error herror
        exact .rejected rfl rfl (keepsJobs_of_editJob rfl herror)
      · exact .marked
  | booting device job =>
    simp only [advance] at h
    split_ifs at h with hstarted
    unfold SessionTable.offer at h
    dsimp only at h
    split_ifs at h with hfull
    · obtain rfl := Option.some.inj h
      exact .overflowed
    · obtain rfl := Option.some.inj h
      exact .opened hstarted rfl rfl rfl
  | returned result => simp [advance] at h

theorem GuardState.sectionEdge_of_advance {call : GuardCall} {state : GuardState}
    {r : SectionResult GuardState} (h : state.advance digest repo sessions call input = some r) :
    SectionEdge digest repo sessions input (.authorizeGuard call state)
      (r.map (.authorizeGuard call)) := by
  cases state with
  | start =>
    simp only [advance] at h
    split at h
    · obtain rfl := Option.some.inj h
      exact .unbound rfl rfl (Or.inl rfl)
    · split at h
      · obtain rfl := Option.some.inj h
        exact .unbound rfl rfl (Or.inr rfl)
      · rename_i binding hauth
        split at h <;> rename_i hphase <;> obtain rfl := Option.some.inj h
        · exact .unbound rfl rfl (Or.inr rfl)
        · exact .unbound rfl rfl (Or.inr rfl)
        · exact .replaying hauth (Or.inl hphase)
        · exact .replaying hauth (Or.inr hphase)
        · exact .offered hauth hphase
  | offered binding =>
    rcases SessionTable.setSessionPhase_cases sessions call.sessionId .offered .authorizing with
      ⟨session, hlookup, hphase, heq⟩ | ⟨-, error, heq⟩
    · simp only [advance, heq] at h
      obtain rfl := Option.some.inj h
      exact .claimed hlookup hphase
    · simp only [advance, heq] at h
      obtain rfl := Option.some.inj h
      exact .unbound rfl rfl (Or.inl rfl)
  | authorizing binding =>
    simp only [advance] at h
    split at h <;> obtain rfl := Option.some.inj h
    · exact .failedCheck
    · rename_i autoinstall hconfig
      exact .checked hconfig
  | checked binding autoinstall =>
    simp only [advance] at h
    split at h
    · rename_i error herror
      obtain rfl := Option.some.inj h
      exact .failedLease herror (keepsJobs_of_editJob rfl herror)
    · rename_i job hok
      obtain ⟨-, old, -, -, hedge, -⟩ := JobRepository.leaseInstallerJob_accepted hok
      cases hedge with
      | handOff _ _ _ hlease hexpiry =>
        simp only [hlease, hexpiry] at h
        obtain rfl := Option.some.inj h
        exact .leased hok hlease hexpiry
  | leased binding autoinstall job leaseId expiresAt =>
    rcases SessionTable.recordHandOff_cases sessions binding.sessionId leaseId expiresAt with
      ⟨session, hlookup, hphase, heq⟩ | ⟨hsession, error, heq⟩
    · simp only [advance, heq] at h
      obtain rfl := Option.some.inj h
      exact .recorded hlookup hphase
    · simp only [advance, heq] at h
      obtain rfl := Option.some.inj h
      exact .failedRecord hsession
  | refused binding error =>
    rcases SessionTable.setSessionPhase_cases sessions call.sessionId .authorizing .offered with
      ⟨session, hlookup, hphase, heq⟩ | ⟨hsession, _, heq⟩
    · simp only [advance, heq] at h
      obtain rfl := Option.some.inj h
      exact .released hlookup hphase
    · simp only [advance, heq] at h
      obtain rfl := Option.some.inj h
      exact .notReleased hsession
  | replaying binding =>
    simp only [advance] at h
    obtain rfl := Option.some.inj h
    cases hreplay : replayGuardAuthorization repo binding call.token call.request
        input.preparation with
    | error error => exact .unbound rfl rfl (Or.inl rfl)
    | ok authorization => exact .replayed hreplay
  | returned result => simp [advance] at h

theorem EventState.sectionEdge_of_advance {call : EventCall} {state : EventState}
    {r : SectionResult EventState} (h : state.advance digest repo sessions call input = some r) :
    SectionEdge digest repo sessions input (.reportEvent call state)
      (r.map (.reportEvent call)) := by
  cases state with
  | start =>
    simp only [advance] at h
    split_ifs at h
    · obtain rfl := Option.some.inj h
      exact .unbound rfl rfl (Or.inl rfl)
    · split at h
      · obtain rfl := Option.some.inj h
        exact .unbound rfl rfl (Or.inr rfl)
      · rename_i binding hauth
        split at h
        · rename_i leaseId _ hlease
          obtain rfl := Option.some.inj h
          exact .reporting hauth hlease
        · rename_i leaseId _ hlease
          obtain rfl := Option.some.inj h
          exact .reporting hauth hlease
        · obtain rfl := Option.some.inj h
          exact .unbound rfl rfl (Or.inr rfl)
  | reporting binding leaseId =>
    simp only [advance] at h
    split_ifs at h
    · split at h <;> obtain rfl := Option.some.inj h
      · rename_i error herror
        exact .rejected rfl rfl (keepsJobs_of_editJob rfl herror)
      · exact .reported .failed (Or.inl rfl)
    · split at h <;> obtain rfl := Option.some.inj h
      · rename_i error herror
        exact .rejected rfl rfl (keepsJobs_of_reportInstallerProgress herror)
      · exact .reported .progress (Or.inl rfl)
    · split at h <;> obtain rfl := Option.some.inj h
      · rename_i error herror
        exact .rejected rfl rfl (keepsJobs_of_reportInstallerProgress herror)
      · exact .reported .progress (Or.inr rfl)
  | reported binding job =>
    simp only [advance] at h
    split_ifs at h
    · rcases SessionTable.markSessionCompleted_cases sessions call.sessionId with
        ⟨session, hlookup, heq⟩ | heq
      · simp only [heq] at h
        obtain rfl := Option.some.inj h
        exact .eventCompleted hlookup
      · simp only [heq] at h
        obtain rfl := Option.some.inj h
        exact .unbound rfl rfl (Or.inl rfl)
    · rcases SessionTable.setSessionPhase_cases sessions call.sessionId .handedOff
        .awaitingFirstBoot with ⟨session, hlookup, hphase, heq⟩ | ⟨-, error, heq⟩
      · simp only [heq] at h
        obtain rfl := Option.some.inj h
        exact .eventAwaits hlookup hphase
      · simp only [heq] at h
        obtain rfl := Option.some.inj h
        exact .unbound rfl rfl (Or.inl rfl)
  | returned result => simp [advance] at h

theorem FirstBootState.sectionEdge_of_advance {call : FirstBootCall} {state : FirstBootState}
    {r : SectionResult FirstBootState}
    (h : state.advance digest repo sessions call input = some r) :
    SectionEdge digest repo sessions input (.completeFirstBoot call state)
      (r.map (.completeFirstBoot call)) := by
  cases state with
  | start =>
    simp only [advance] at h
    split at h
    · obtain rfl := Option.some.inj h
      exact .unbound rfl rfl (Or.inr rfl)
    · rename_i binding hauth
      split_ifs at h with hattempt
      · obtain rfl := Option.some.inj h
        exact .unbound rfl rfl (Or.inr rfl)
      · split at h
        · obtain rfl := Option.some.inj h
          exact .unbound rfl rfl (Or.inr rfl)
        · rename_i leaseId _ hlease
          obtain rfl := Option.some.inj h
          exact .completing hauth (not_not.1 hattempt) hlease
        · rename_i leaseId _ hlease
          obtain rfl := Option.some.inj h
          exact .completing hauth (not_not.1 hattempt) hlease
        · obtain rfl := Option.some.inj h
          exact .unbound rfl rfl (Or.inr rfl)
  | completing binding leaseId =>
    simp only [advance] at h
    split at h <;> obtain rfl := Option.some.inj h
    · rename_i error herror
      exact .rejected rfl rfl (keepsJobs_of_editJob rfl herror)
    · exact .completed
  | completed binding job =>
    rcases SessionTable.markSessionCompleted_cases sessions call.sessionId with
      ⟨session, hlookup, heq⟩ | heq
    · simp only [advance, heq] at h
      obtain rfl := Option.some.inj h
      exact .bootCompleted hlookup
    · simp only [advance, heq] at h
      obtain rfl := Option.some.inj h
      exact .unbound rfl rfl (Or.inl rfl)
  | returned result => simp [advance] at h

theorem FetchState.sectionEdge_of_advance {call : FetchCall} {state : FetchState}
    {r : SectionResult FetchState} (h : state.advance digest repo sessions call input = some r) :
    SectionEdge digest repo sessions input (.fetch call state) (r.map (.fetch call)) := by
  cases state with
  | start =>
    simp only [advance] at h
    split at h <;> obtain rfl := Option.some.inj h
    · exact .unbound rfl rfl (Or.inr rfl)
    · exact .unbound rfl rfl (Or.inr rfl)
  | authenticated binding =>
    simp only [advance] at h
    obtain rfl := Option.some.inj h
    exact .unbound rfl rfl (Or.inl rfl)
  | returned result => simp [advance] at h

/-- Every section has one of the effects of `SectionEdge`. -/
theorem InstallerCall.sectionEdge_of_advance {c : InstallerCall} {r : SectionResult InstallerCall}
    (h : c.advance digest registry repo sessions input = some r) :
    SectionEdge digest repo sessions input c r := by
  cases c with
  | discover query state =>
    obtain ⟨r, hr, rfl⟩ := Option.map_eq_some_iff.1 h
    exact DiscoverState.sectionEdge_of_advance hr
  | authorizeGuard call state =>
    obtain ⟨r, hr, rfl⟩ := Option.map_eq_some_iff.1 h
    exact GuardState.sectionEdge_of_advance hr
  | reportEvent call state =>
    obtain ⟨r, hr, rfl⟩ := Option.map_eq_some_iff.1 h
    exact EventState.sectionEdge_of_advance hr
  | completeFirstBoot call state =>
    obtain ⟨r, hr, rfl⟩ := Option.map_eq_some_iff.1 h
    exact FirstBootState.sectionEdge_of_advance hr
  | fetch call state =>
    obtain ⟨r, hr, rfl⟩ := Option.map_eq_some_iff.1 h
    exact FetchState.sectionEdge_of_advance hr

end

end EasyDeployMesh
