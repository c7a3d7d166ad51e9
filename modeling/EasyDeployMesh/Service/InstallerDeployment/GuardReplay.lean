import EasyDeployMesh.Service.InstallerDeployment.SessionPhases

/-!
# The replayed guard

A guard that asks again after the handoff of its session is answered by
`replay_guard_authorization`, which makes the checks of the first authorization a second time, but
not all of them: the identity of the image, the capacity of the disk and the form of the options are
checked only the first time.

## Main definitions

* `EasyDeployMesh.GuardFinds`: the checks that both paths make.
* `EasyDeployMesh.InitialOnlyChecks`: the checks that only the first authorization makes.
* `EasyDeployMesh.AfterHandoff`: a session and its job before the handoff and after it.
* `EasyDeployMesh.GuardsAgree`: what the first authorization refuses, the replay refuses, and the
  request that was authorized receives the same configuration again.

## Main results

* `EasyDeployMesh.initialConfiguration_eq_ok_iff`,
  `EasyDeployMesh.replayGuardAuthorization_eq_ok_iff`: when the two paths accept.
* `EasyDeployMesh.guardsAgree_iff`: the paths agree exactly when every request that passes the
  common checks passes the others too.
* `EasyDeployMesh.ServiceWorld.afterHandoff_of_leads`: the states of a run at which a session is
  authorized and replayed.
-/

namespace EasyDeployMesh

open Foundations

/-! ### The checks of the two paths -/

/-- The path names a device, as the configuration requires it. -/
def isDevicePath (path : String) : Bool :=
  (Text.stripPrefix "/dev/" path).any isDeviceName

/-- What both paths find in a request: the image is prepared and has the requested hash, one disk
matches the target of the job, its path names a device, and the job has options. -/
structure GuardFinds (request : LinuxInstallerGuardRequest) (preparation : Preparation)
    (job : DeploymentJob) (prepared : PreparedLinuxIso) (disk : LinuxInstallerObservedDisk)
    (options : LinuxInstallOptions) : Prop where
  prepares : preparation = some prepared
  hash : Text.eqIgnoreAsciiCase prepared.iso.sha256 request.imageSha256 = true
  matched : ∃ target, job.targets.head? = some target ∧
    uniquelyMatchingDisk target request.disks = .ok disk
  configured : job.options.linuxInstall = some options
  device : isDevicePath disk.path = true

/-- What only the first authorization checks: the prepared image is the one of the session, the disk
has the capacity that the image needs, and the options are valid. -/
structure InitialOnlyChecks (binding : SessionBinding) (prepared : PreparedLinuxIso)
    (disk : LinuxInstallerObservedDisk) (options : LinuxInstallOptions) : Prop where
  image : prepared.artifactId = binding.imageId
  capacity : prepared.capability.minimumDiskBytes ≤ disk.sizeBytes
  options : options.validate = .ok ()

variable {repo later : JobRepository} {binding replayed : SessionBinding} {token : String}
  {request : LinuxInstallerGuardRequest} {preparation : Preparation} {job : DeploymentJob}
  {autoinstall : String} {authorization : GuardAuthorization} {options : LinuxInstallOptions}

/-- The configuration is rendered for every path that names a device. -/
theorem exists_renderFinalAutoinstall_iff {path : String} :
    (∃ autoinstall, renderFinalAutoinstall binding token options path = .ok autoinstall) ↔
      isDevicePath path = true := by
  unfold renderFinalAutoinstall isDevicePath
  cases Text.stripPrefix "/dev/" path with
  | none => simp
  | some deviceName => by_cases hname : isDeviceName deviceName = true <;> simp [hname]

/-- A request has at most one reading. -/
theorem GuardFinds.unique {prepared prepared' : PreparedLinuxIso}
    {disk disk' : LinuxInstallerObservedDisk} {options' : LinuxInstallOptions}
    (h : GuardFinds request preparation job prepared disk options)
    (h' : GuardFinds request preparation job prepared' disk' options') :
    prepared = prepared' ∧ disk = disk' ∧ options = options' := by
  obtain ⟨hprepares, -, ⟨target, hhead, hdisk⟩, hconfigured, -⟩ := h
  obtain ⟨hprepares', -, ⟨target', hhead', hdisk'⟩, hconfigured', -⟩ := h'
  obtain rfl := Option.some.inj (hhead.symm.trans hhead')
  exact ⟨Option.some.inj (hprepares.symm.trans hprepares'),
    Except.ok.inj (hdisk.symm.trans hdisk'), Option.some.inj (hconfigured.symm.trans hconfigured')⟩

/-- The first authorization passes when the job waits and all checks pass. -/
theorem initialConfiguration_eq_ok_iff :
    initialConfiguration repo binding token request preparation = .ok autoinstall ↔
      ∃ job, requireBoundJob repo binding .waiting = .ok job ∧ ∃ prepared disk options,
        GuardFinds request preparation job prepared disk options ∧
          InitialOnlyChecks binding prepared disk options ∧
          renderFinalAutoinstall binding token options disk.path = .ok autoinstall := by
  constructor
  · intro h
    unfold initialConfiguration at h
    split at h
    · simp at h
    · rename_i prepared
      split_ifs at h with hmedia
      simp only [not_or, ne_eq, not_not, Bool.not_eq_true', Bool.not_eq_false] at hmedia
      split at h
      · simp at h
      · rename_i job hjob
        split at h
        · simp at h
        · rename_i target rest htargets
          split at h
          · simp at h
          · rename_i disk hdisk
            split_ifs at h with hcapacity
            split at h
            · simp at h
            · rename_i options hoptions
              split_ifs at h with hvalid
              have hhead : job.targets.head? = some target := by rw [htargets, List.head?_cons]
              have hvalid' : options.validate = .ok () := by
                cases hresult : options.validate with
                | error error => simp [hresult, Except.toOption] at hvalid
                | ok value => rfl
              exact ⟨job, hjob, prepared, disk, options,
                ⟨rfl, hmedia.2, ⟨target, hhead, hdisk⟩, hoptions,
                  exists_renderFinalAutoinstall_iff.1 ⟨_, h⟩⟩,
                ⟨hmedia.1, UInt64.not_lt.1 hcapacity, hvalid'⟩, h⟩
  · rintro ⟨job, hjob, prepared, disk, options, ⟨rfl, hhash, ⟨target, hhead, hdisk⟩, hoptions, -⟩,
      ⟨himage, hcapacity, hvalid⟩, hrender⟩
    obtain ⟨rest, htargets⟩ := List.head?_eq_some_iff.1 hhead
    simp [initialConfiguration, himage, hhash, hjob, htargets, hdisk, UInt64.not_lt.2 hcapacity,
      hoptions, hvalid, Except.toOption, hrender]

/-- The replay passes when the job runs under the lease of the session and the common checks
pass. -/
theorem replayGuardAuthorization_eq_ok_iff :
    replayGuardAuthorization repo binding token request preparation = .ok authorization ↔
      requireBoundJob repo binding .running = .ok authorization.job ∧
        authorization.job.leaseId = binding.leaseId ∧ ∃ prepared disk options,
          GuardFinds request preparation authorization.job prepared disk options ∧
            renderFinalAutoinstall binding token options disk.path =
              .ok authorization.autoinstall := by
  constructor
  · intro h
    unfold replayGuardAuthorization at h
    split at h
    · simp at h
    · rename_i prepared
      split_ifs at h with hmedia
      simp only [Bool.not_eq_true', Bool.not_eq_false] at hmedia
      split at h
      · simp at h
      · rename_i job hjob
        split_ifs at h with hlease
        split at h
        · simp at h
        · rename_i target rest htargets
          split at h
          · simp at h
          · rename_i disk hdisk
            split at h
            · simp at h
            · rename_i options hoptions
              obtain ⟨autoinstall, hrender, rfl⟩ := map_eq_ok_iff.1 h
              have hhead : job.targets.head? = some target := by rw [htargets, List.head?_cons]
              exact ⟨hjob, not_not.1 hlease, prepared, disk, options,
                ⟨rfl, hmedia, ⟨target, hhead, hdisk⟩, hoptions,
                  exists_renderFinalAutoinstall_iff.1 ⟨_, hrender⟩⟩, hrender⟩
  · rintro ⟨hjob, hlease, prepared, disk, options,
      ⟨rfl, hhash, ⟨target, hhead, hdisk⟩, hoptions, -⟩, hrender⟩
    obtain ⟨rest, htargets⟩ := List.head?_eq_some_iff.1 hhead
    simp [replayGuardAuthorization, hhash, hjob, hlease, htargets, hdisk, hoptions, hrender,
      Except.map]

/-! ### A session before its handoff and after it -/

/-- The bindings are of the same session, of which only the phase and the lease are rewritten. -/
def SameSession (binding replayed : SessionBinding) : Prop :=
  replayed = { binding with phase := replayed.phase, leaseId := replayed.leaseId }

theorem SameSession.render (h : SameSession binding replayed) (path : String) :
    renderFinalAutoinstall replayed token options path =
      renderFinalAutoinstall binding token options path := by
  rw [h]
  rfl

/-- Before the handoff, `repo` holds the waiting job of the session; after it, `later` holds the job
of the session, if it still holds it, with the same target and the same options. -/
structure AfterHandoff (repo later : JobRepository) (binding replayed : SessionBinding)
    (job : DeploymentJob) : Prop where
  waiting : requireBoundJob repo binding .waiting = .ok job
  session : SameSession binding replayed
  task : ∀ running, requireBoundJob later replayed .running = .ok running → SameTask job running

/-- The job runs under the lease of the session. -/
def RunsForSession (later : JobRepository) (replayed : SessionBinding) : Prop :=
  ∃ running, requireBoundJob later replayed .running = .ok running ∧
    running.leaseId = replayed.leaseId

/-- What the first authorization refuses for the waiting job, the replay refuses; and while the job
runs under the lease of the session, the request that was authorized receives the same
configuration. -/
structure GuardsAgree (repo later : JobRepository) (binding replayed : SessionBinding)
    (token : String) (request : LinuxInstallerGuardRequest) (preparation : Preparation) : Prop where
  refused : ∀ error, initialConfiguration repo binding token request preparation = .error error →
    ∃ error, replayGuardAuthorization later replayed token request preparation = .error error
  identical : ∀ autoinstall, initialConfiguration repo binding token request preparation =
      .ok autoinstall → RunsForSession later replayed →
    ∃ running, replayGuardAuthorization later replayed token request preparation =
      .ok { autoinstall, job := running }

theorem guardFinds_iff_of_sameTask {running : DeploymentJob} (hsame : SameTask job running)
    {prepared : PreparedLinuxIso} {disk : LinuxInstallerObservedDisk} :
    GuardFinds request preparation running prepared disk options ↔
      GuardFinds request preparation job prepared disk options := by
  constructor
  · rintro ⟨hprepares, hhash, hmatched, hconfigured, hdevice⟩
    exact ⟨hprepares, hhash, hsame.targets ▸ hmatched, hsame.options ▸ hconfigured, hdevice⟩
  · rintro ⟨hprepares, hhash, hmatched, hconfigured, hdevice⟩
    exact ⟨hprepares, hhash, hsame.targets.symm ▸ hmatched,
      hsame.options.symm ▸ hconfigured, hdevice⟩

/-- The two paths agree exactly when, while the job runs under the lease of the session, a request
that passes the common checks passes those of the first authorization too. -/
theorem guardsAgree_iff (h : AfterHandoff repo later binding replayed job) :
    GuardsAgree repo later binding replayed token request preparation ↔
      (RunsForSession later replayed → ∀ prepared disk options,
        GuardFinds request preparation job prepared disk options →
          InitialOnlyChecks binding prepared disk options) := by
  constructor
  · rintro ⟨hrefused, -⟩ ⟨running, hrunning, hlease⟩ prepared disk options hfinds
    obtain ⟨autoinstall, hrender⟩ : ∃ autoinstall,
        renderFinalAutoinstall replayed token options disk.path = .ok autoinstall :=
      exists_renderFinalAutoinstall_iff.2 hfinds.device
    have hfinds' := (guardFinds_iff_of_sameTask (h.task running hrunning)).2 hfinds
    have hreplay : replayGuardAuthorization later replayed token request preparation =
        .ok { autoinstall, job := running } :=
      replayGuardAuthorization_eq_ok_iff.2
        ⟨hrunning, hlease, prepared, disk, options, hfinds', hrender⟩
    cases hinitial : initialConfiguration repo binding token request preparation with
    | error error =>
      obtain ⟨error', herror'⟩ := hrefused error hinitial
      rw [hreplay] at herror'
      cases herror'
    | ok autoinstall' =>
      obtain ⟨waiting, hwaiting, prepared', disk', options', hfound, hchecks, -⟩ :=
        initialConfiguration_eq_ok_iff.1 hinitial
      obtain rfl := Except.ok.inj (hwaiting.symm.trans h.waiting)
      obtain ⟨rfl, rfl, rfl⟩ := hfinds.unique hfound
      exact hchecks
  · intro hchecks
    refine ⟨fun error herror => ?_, fun autoinstall hok hruns => ?_⟩
    · cases hreplay : replayGuardAuthorization later replayed token request preparation with
      | error error => exact ⟨error, rfl⟩
      | ok authorization =>
        obtain ⟨hrunning, hlease, prepared, disk, options, hfinds, hrender⟩ :=
          replayGuardAuthorization_eq_ok_iff.1 hreplay
        have hfinds' := (guardFinds_iff_of_sameTask (h.task _ hrunning)).1 hfinds
        have hok := initialConfiguration_eq_ok_iff.2
          ⟨job, h.waiting, prepared, disk, options, hfinds',
            hchecks ⟨_, hrunning, hlease⟩ prepared disk options hfinds',
            (h.session.render _).symm.trans hrender⟩
        rw [herror] at hok
        cases hok
    · obtain ⟨waiting, hwaiting, prepared, disk, options, hfinds, -, hrender⟩ :=
        initialConfiguration_eq_ok_iff.1 hok
      obtain rfl := Except.ok.inj (hwaiting.symm.trans h.waiting)
      obtain ⟨running, hrunning, hlease⟩ := hruns
      have hfinds' := (guardFinds_iff_of_sameTask (h.task running hrunning)).2 hfinds
      exact ⟨running, replayGuardAuthorization_eq_ok_iff.2
        ⟨hrunning, hlease, prepared, disk, options, hfinds', (h.session.render _).trans hrender⟩⟩

/-! ### The two paths in a run -/

/-- A session that a run has offered at one instant and replays at another. -/
theorem ServiceWorld.afterHandoff_of_leads {digest : String → String} {m w : ServiceWorld}
    {es : List ServiceEvent} (hm : m.Coherent) (hrun : Leads (step digest) m es w)
    {sessionId : Uuid} {old new : InstallerSession} (hold : m.sessions.lookup sessionId = some old)
    (hnew : w.sessions.lookup sessionId = some new)
    (hwaiting : requireBoundJob m.repository.repo (old.binding sessionId) .waiting = .ok job) :
    AfterHandoff m.repository.repo w.repository.repo (old.binding sessionId) (new.binding sessionId)
      job := by
  obtain ⟨hoffer, -⟩ := later_of_leads hm hrun hold hnew
  obtain ⟨hjob, hid, -, -⟩ := requireBoundJob_ok hwaiting
  have htask :=
    (hrun.invariant (I := fun x => x.Coherent ∧ x.repository.OfJob job.id (SameTask job))
      ⟨hm, hm.repository.ofJob hjob⟩ fun x e y hx hstep => ⟨hx.1.of_step hstep,
        hx.1.ofJob_of_step hstep hx.2 fun _ _ hsame hsame' => hsame'.trans hsame⟩).2
  refine ⟨hwaiting, ?_, fun running hrunning => ?_⟩
  · simp only [SameSession, InstallerSession.binding, hoffer.attemptId, hoffer.deviceId,
      hoffer.jobId, hoffer.imageId, hoffer.baseUrl]
  · obtain ⟨hrunningJob, hrunningId, -, -⟩ := requireBoundJob_ok hrunning
    refine htask.job running hrunningJob (hrunningId.trans ?_)
    exact hoffer.jobId.trans hid.symm

/-! ### A smaller disk after the handoff -/

/-- The job of `linuxRequest`, before and after its handoff. -/
def labTask (state : JobState) (stage : DeploymentStage) (percent : UInt8) (leaseId : Option Uuid)
    (expiresAt : Option Instant) : DeploymentJob where
  id := 1
  name := linuxRequest.name
  operation := linuxRequest.operation
  imageId := linuxRequest.imageId
  targets := linuxRequest.targets
  options := linuxRequest.options
  state := state
  stage := some stage
  progressPercent := percent
  statusMessage := none
  errorMessage := none
  leaseId := leaseId
  leaseExpiresAt := expiresAt
  createdAt := 0
  updatedAt := 0

/-- The job of the example before its lease. -/
def waitingTask : DeploymentJob := labTask .waiting .bootingInstaller 0 none none

/-- The job of the example under its lease. -/
def runningTask : DeploymentJob :=
  labTask .running .validatingTarget 1 (some 30) (some (minutes installerLeaseMinutes))

/-- The jobs of the laboratory. -/
def labJobs (job : DeploymentJob) : JobRepository where
  manifestPath := "jobs.json"
  jobs := [job]
  manifestFile := .complete { schemaVersion := manifestSchemaVersion, jobs := [job] }

/-- The session of the laboratory. -/
def labBinding (phase : InstallerSessionPhase) (leaseId : Option Uuid) : SessionBinding where
  sessionId := 11
  attemptId := 12
  deviceId := 8
  jobId := 1
  imageId := 5
  baseUrl := labQuery.baseUrl
  phase := phase
  leaseId := leaseId

theorem afterHandoff_labTask : AfterHandoff (labJobs waitingTask) (labJobs runningTask)
    (labBinding .offered none) (labBinding .handedOff (some 30)) waitingTask where
  waiting := by decide +kernel
  session := rfl
  task running h := by
    have hrunning : requireBoundJob (labJobs runningTask) (labBinding .handedOff (some 30))
        .running = .ok runningTask := by decide +kernel
    obtain rfl := Except.ok.inj (hrunning.symm.trans h)
    exact ⟨rfl, rfl, rfl, rfl, rfl⟩

/-- The disk of the laboratory with the size that a guard reports. -/
def labDisk (sizeBytes : UInt64) : LinuxInstallerObservedDisk where
  path := "/dev/sda"
  model := "SSD 870"
  serial := some "L-8"
  sizeBytes := sizeBytes

/-- The options of `linuxRequest`. -/
def labOptions : LinuxInstallOptions where
  hostname := "lab-2"
  username := "student"
  sshAuthorizedKeys := ["ssh-ed25519 AAAAC3NzaC1lZDI1NTE5"]

/-- The guard is authorized and replayed with the disk of the job. -/
theorem guardsAgree_labGuard : GuardsAgree (labJobs waitingTask) (labJobs runningTask)
    (labBinding .offered none) (labBinding .handedOff (some 30)) (labGuard 10).token
    (labGuard 10).request (some labImage) := by
  have hlab : GuardFinds (labGuard 10).request (some labImage) waitingTask labImage
      (labDisk 512000000000) labOptions :=
    ⟨rfl, by decide +kernel, ⟨_, rfl, by decide +kernel⟩, rfl, by decide +kernel⟩
  refine (guardsAgree_iff afterHandoff_labTask).2 fun _ prepared disk options hfinds => ?_
  obtain ⟨rfl, rfl, rfl⟩ := hlab.unique hfinds
  exact ⟨rfl, by decide, by decide +kernel⟩

/-- The image of the laboratory for disks of 512 GB. -/
def largeImage : PreparedLinuxIso :=
  { labImage with capability := { labImage.capability with minimumDiskBytes := 512000000000 } }

/-- The disk of the laboratory, reported 1 MiB smaller than the target is recorded. -/
def smallerDisk : LinuxInstallerGuardRequest where
  imageSha256 := labImage.iso.sha256
  disks := [labDisk 511998951424]

/-- The replay issues the configuration for a disk without the capacity that the first authorization
asks for. -/
theorem guardsAgree_fails_of_smallerDisk : smallerDisk.validate = .ok () ∧
    AfterHandoff (labJobs waitingTask) (labJobs runningTask) (labBinding .offered none)
      (labBinding .handedOff (some 30)) waitingTask ∧
    ¬ GuardsAgree (labJobs waitingTask) (labJobs runningTask) (labBinding .offered none)
      (labBinding .handedOff (some 30)) (labGuard 10).token smallerDisk (some largeImage) := by
  have hlab : GuardFinds smallerDisk (some largeImage) waitingTask largeImage
      (labDisk 511998951424) labOptions :=
    ⟨rfl, by decide +kernel, ⟨_, rfl, by decide +kernel⟩, rfl, by decide +kernel⟩
  refine ⟨by decide +kernel, afterHandoff_labTask, fun h => ?_⟩
  have hreplay : (replayGuardAuthorization (labJobs runningTask) (labBinding .handedOff (some 30))
      (labGuard 10).token smallerDisk (some largeImage)).toOption.isSome = true := by decide +kernel
  obtain ⟨authorization, hreplay⟩ := exists_ok_of_isSome_toOption hreplay
  cases hinitial : initialConfiguration (labJobs waitingTask) (labBinding .offered none)
      (labGuard 10).token smallerDisk (some largeImage) with
  | error error =>
    obtain ⟨error', herror'⟩ := h.refused error hinitial
    rw [hreplay] at herror'
    cases herror'
  | ok autoinstall =>
    obtain ⟨waiting, hwaiting, prepared, disk, options, hfinds, hchecks, -⟩ :=
      initialConfiguration_eq_ok_iff.1 hinitial
    obtain rfl := Except.ok.inj (hwaiting.symm.trans afterHandoff_labTask.waiting)
    obtain ⟨rfl, rfl, rfl⟩ := hlab.unique hfinds
    exact absurd hchecks.capacity (by decide)

end EasyDeployMesh
