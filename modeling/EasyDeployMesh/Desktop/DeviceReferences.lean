import EasyDeployMesh.Desktop.World
import EasyDeployMesh.Service.DeviceRegistry.Identity

/-!
# Active jobs and their devices

A device that a waiting, running or paused job targets should stay in the registry. `remove_device`
looks for such a job before it removes the device, but it does not hold the mutex under which jobs
are created, so a job may be queued between the look and the removal. The references hold along a
run exactly when no step orphans a job: no device with an active job leaves the registry, and no job
enters or returns to the queue for a device that has left it.

## Main definitions

* `EasyDeployMesh.JobState.needsDevice`, `EasyDeployMesh.DesktopWorld.ActiveJobsKeepDevice`.
* `EasyDeployMesh.DesktopWorld.Orphans`: a step leaves an active job without its device.

## Main results

* `EasyDeployMesh.DesktopWorld.activeJobsKeepDevice_iff_of_step`: when one step keeps the
  references.
* `EasyDeployMesh.DesktopWorld.keepsActiveDevices_iff`: the references hold along a run if and only
  if none of its steps orphans a job.
* `EasyDeployMesh.DesktopWorld.keepsActiveDevices_fails_of_race`: a run that orphans a job.
-/

namespace EasyDeployMesh

open Foundations

/-- The job waits for its device, or its device works on it. -/
def JobState.needsDevice : JobState → Bool
  | .waiting | .running | .paused => true
  | _ => false

/-! ### The registered devices -/

namespace DeviceRegistry

variable {registry : DeviceRegistry} {id id' : Uuid} {write : WriteOutcome}

theorem contains_iff :
    registry.contains id = true ↔ ∃ record ∈ registry.devices, record.device.id = id := by
  simp [contains]

/-- A removal that is written takes away the device, and only that device. -/
theorem contains_remove_iff : (registry.remove id write).2.contains id' = true ↔
    registry.contains id' = true ∧ (write = .written → id' ≠ id) := by
  have hnext : ((registry.devices.filter fun record => record.device.id != id).any fun record =>
      record.device.id == id') = true ↔ registry.contains id' = true ∧ id' ≠ id := by
    simp only [contains, List.any_eq_true, List.mem_filter, bne_iff_ne, beq_iff_eq]
    constructor
    · rintro ⟨record, ⟨hrecord, hne⟩, rfl⟩
      exact ⟨⟨record, hrecord, rfl⟩, hne⟩
    · rintro ⟨⟨record, hrecord, rfl⟩, hne⟩
      exact ⟨record, ⟨hrecord, hne⟩, rfl⟩
  unfold remove
  dsimp only
  split_ifs with hlength
  · have hsame : (registry.devices.filter fun record => record.device.id != id) =
        registry.devices := List.filter_sublist.eq_of_length hlength
    rw [hsame] at hnext
    exact hnext.trans ⟨fun h => ⟨h.1, fun _ => h.2⟩, fun h => hnext.1 h.1⟩
  · cases write with
    | written => exact hnext.trans (and_congr_right fun _ => ⟨fun hne _ => hne, fun h => h rfl⟩)
    | refused source | interrupted source =>
      exact ⟨fun h => ⟨h, fun hwrite => by cases hwrite⟩, And.left⟩

/-- Agents do not take a device out of the registry. -/
theorem contains_of_isRemote {digest : String → String} {e : RegistryEvent}
    (he : e.isRemote = true) (h : registry.contains id = true) :
    (e.apply digest registry).2.contains id = true := by
  rw [contains_iff] at h ⊢
  obtain ⟨record, hrecord, rfl⟩ := h
  -- a new record replaces the records with its own id
  have hput : ∀ new : DeviceRecord, ∃ kept ∈ (registry.devices.filter fun record =>
      record.device.id != new.device.id) ++ [new], kept.device.id = record.device.id := by
    intro new
    by_cases heq : record.device.id = new.device.id
    · exact ⟨new, List.mem_append_right _ (List.mem_singleton_self new), heq.symm⟩
    · exact ⟨record, List.mem_append_left _ (List.mem_filter.2 ⟨hrecord, by simpa using heq⟩), rfl⟩
  rcases @RegistryEvent.apply_cases digest registry e with ⟨-, heq⟩ | hedge
  · exact ⟨record, heq ▸ hrecord, rfl⟩
  · generalize (e.apply digest registry).1 = outcome,
      (e.apply digest registry).2.devices = devices' at hedge ⊢
    cases hedge with
    | added new _ _ hdevice => simpa [hdevice] using hput new
    | renewed old new _ _ hdevice => simpa [hdevice] using hput new
    | beaten old new _ hid _ hdevice _ hreplaces =>
      have hnew : new.device.id = old.device.id := by simp [hdevice, hid]
      have hmem := List.mem_map_of_mem (f := fun record => record.device.id) hrecord
      rw [← hreplaces.map_eq (fun record => record.device.id) hnew] at hmem
      exact List.mem_map.1 hmem
    | removed => cases he

end DeviceRegistry

/-! ### The jobs that need their device -/

/-- The operator puts a draft or a failed job into the queue. -/
inductive Requeues (job : DeploymentJob) : JobEvent → Prop
  | mk {now : Instant} (hstate : job.state = .draft ∨ job.state = .failed) :
      Requeues job (.transition job.id .waiting now .written)

/-- A job needs its device when it did so before, or when it is put into the queue. -/
theorem JobEdge.needsDevice_cases {old new : DeploymentJob} {e : JobEvent} (h : JobEdge old new e)
    (hnew : new.state.needsDevice = true) :
    old.state.needsDevice = true ∨ Requeues old e := by
  cases h with
  | @transition _ nextState now hid _ hallows hstate =>
    rw [hstate] at hnew
    subst hid
    cases hold : old.state <;> rw [hold] at hallows <;> cases nextState <;> cases hallows <;>
      first
      | exact Or.inl rfl
      | exact Or.inr (.mk (by simp [hold]))
      | cases hnew
  | claim hclaim =>
    obtain ⟨-, hold | ⟨hold, -⟩, -⟩ := DeploymentJob.isClaimable_iff.1 hclaim <;>
    · rw [hold]
      exact Or.inl rfl
  | markBooting _ _ hstate | advanceInstaller _ _ hstate | advance _ _ hstate
  | renew _ _ hstate => exact Or.inl (hstate ▸ hnew)
  | handOff _ hawaits =>
    rw [(DeploymentJob.awaitsInstaller_eq_ok_iff.1 hawaits).2.1]
    exact Or.inl rfl
  | finishInstaller _ _ hstate | finish _ _ hstate =>
    rw [hstate] at hnew
    split_ifs at hnew <;> cases hnew

namespace RepositoryWorld

variable {w w' : RepositoryWorld} {e : JobEvent} {job : DeploymentJob}

/-- Where a job that needs its device comes from, unless it is a new job. -/
theorem Coherent.needsDevice_of_step (h : w.Coherent) (hstep : w.step e = some w')
    (hrequest : e.request = none) (hjob : job ∈ w'.repo.jobs)
    (hneeds : job.state.needsDevice = true) : ∃ old ∈ w.repo.jobs, old.targets = job.targets ∧
      (old.state.needsDevice = true ∨ Requeues old e) := by
  rcases h.jobsEdge_of_step hstep with heq | hedge
  · exact ⟨job, heq ▸ hjob, rfl, Or.inl hneeds⟩
  · generalize w'.repo.jobs = jobs' at hedge hjob
    cases hedge with
    | added _ _ _ _ _ _ _ _ hcreate =>
      obtain ⟨request, he, -⟩ := hcreate
      simp [hrequest] at he
    | @edited _ old new hsame hedge hreplaces =>
      rcases hreplaces.of_mem hjob with rfl | hold
      · exact ⟨old, hreplaces.mem_old, hsame.targets.symm, hedge.needsDevice_cases hneeds⟩
      · exact ⟨job, hold, rfl, Or.inl hneeds⟩
    | removed => exact ⟨job, (List.mem_filter.1 hjob).1, rfl, Or.inl hneeds⟩

end RepositoryWorld

namespace JobRepository

variable {repo : JobRepository} {request : CreateDeploymentJob} {now : Instant} {id : Uuid}
  {write : WriteOutcome}

/-- `enqueue` creates a job for the target: the request is valid, the device has no unfinished job,
and the manifest is written. -/
def accepts (repo : JobRepository) (request : CreateDeploymentJob) (write : WriteOutcome)
    (target : DeploymentTarget) : Prop :=
  validateRequest request = .ok () ∧ request.targets = [target] ∧
    repo.referencesDevice target.deviceId = false ∧ write = .written

/-- `enqueue` keeps the jobs, or adds one waiting job for the target of the request. -/
theorem enqueue_cases (repo : JobRepository) (request : CreateDeploymentJob) (now : Instant)
    (id : Uuid) (write : WriteOutcome) :
    ((∀ target, ¬ repo.accepts request write target) ∧
        (repo.enqueue request now id write).2.jobs = repo.jobs) ∨
      ∃ target, repo.accepts request write target ∧ ∃ job : DeploymentJob,
        job.state = .waiting ∧ job.targets = [target] ∧
          (repo.enqueue request now id write).2.jobs = repo.jobs ++ [job] := by
  unfold enqueue insert
  split
  · rename_i error herror
    exact Or.inl ⟨fun target h => by simp [accepts, herror] at h, rfl⟩
  · rename_i hvalid
    split
    · rename_i target htargets
      dsimp only
      split_ifs with hreferences
      · refine Or.inl ⟨fun other h => ?_, rfl⟩
        obtain rfl : target = other := by simpa [htargets] using h.2.1
        simp [accepts, hreferences] at h
      · cases write with
        | written => exact Or.inr ⟨target, ⟨hvalid, htargets, by simpa using hreferences, rfl⟩,
            _, rfl, htargets, rfl⟩
        | refused source | interrupted source =>
          exact Or.inl ⟨fun other h => by simp [accepts] at h, rfl⟩
    · rename_i hsingle
      exact Or.inl ⟨fun target h => hsingle target h.2.1, rfl⟩

end JobRepository

namespace DesktopWorld

variable {digest : String → String} {w w' : DesktopWorld} {e : DesktopEvent}

/-! ### The references and the steps that break them -/

/-- The devices of the active jobs are registered. -/
def ActiveJobsKeepDevice (w : DesktopWorld) : Prop :=
  ∀ job ∈ w.repository.repo.jobs, job.state.needsDevice = true →
    ∀ target ∈ job.targets, w.registry.contains target.deviceId = true

/-- The step leaves an active job without its device. -/
inductive Orphans (w : DesktopWorld) : DesktopEvent → Prop
  /-- `remove_device` removes a device that an active job targets by now. -/
  | removed {i : ℕ} {input : DesktopInput} {id : Uuid} {job : DeploymentJob}
      (hi : w.commands[i]? = some (.removeDevice (.unreferenced id)))
      (hwrite : input.write = .written) (hjob : job ∈ w.repository.repo.jobs)
      (hneeds : job.state.needsDevice = true) (htarget : job.targetsDevice id = true) :
      Orphans w (.advance i input)
  /-- `create_job` queues a job for a device that is not registered any more. -/
  | enqueued {i : ℕ} {input : DesktopInput} {request : CreateDeploymentJob}
      {target : DeploymentTarget} (hi : w.commands[i]? = some (.createJob (.prepared request)))
      (haccepts : w.repository.repo.accepts request input.write target)
      (hgone : w.registry.contains target.deviceId = false) : Orphans w (.advance i input)
  /-- The operator puts an unfinished job back into the queue whose device is not registered any
  more. -/
  | requeued {i : ℕ} {input : DesktopInput} {job : DeploymentJob} {target : DeploymentTarget}
      (hi : w.commands[i]? = some (.transitionJob (.checked job.id .waiting)))
      (hwrite : input.write = .written) (hjob : job ∈ w.repository.repo.jobs)
      (hstate : job.state = .draft ∨ job.state = .failed) (htarget : target ∈ job.targets)
      (hgone : w.registry.contains target.deviceId = false) : Orphans w (.advance i input)

/-- A call on the job repository that neither creates a job nor returns one to the queue keeps the
references. -/
private theorem ActiveJobsKeepDevice.of_jobEvent {e : JobEvent} (h : w.ActiveJobsKeepDevice)
    (hcoherent : w.repository.Coherent) (hrequest : e.request = none)
    (hstep : w.repository.step e = some w'.repository) (hregistry : w'.registry = w.registry)
    (hrequeues : ∀ job ∈ w.repository.repo.jobs, Requeues job e →
      ∀ target ∈ job.targets, w.registry.contains target.deviceId = true) :
    w'.ActiveJobsKeepDevice := by
  intro job hjob hneeds target htarget
  obtain ⟨old, hold, htargets, hstate⟩ :=
    hcoherent.needsDevice_of_step hstep hrequest hjob hneeds
  rw [← htargets] at htarget
  rw [hregistry]
  rcases hstate with hneeds | hrequeue
  · exact h old hold hneeds target htarget
  · exact hrequeues old hold hrequeue target htarget

private theorem ActiveJobsKeepDevice.of_advance {i : ℕ} {input : DesktopInput} {c : DesktopCommand}
    (h : w.ActiveJobsKeepDevice) (hcoherent : w.repository.Coherent)
    (hnot : ¬ w.Orphans (.advance i input)) (hi : w.commands[i]? = some c)
    (hadvance : w.advance i input c = some w') : w'.ActiveJobsKeepDevice := by
  cases storesEdge_of_advance hadvance with
  | kept hrepository hregistry =>
    intro job hjob
    rw [hrepository] at hjob
    rw [hregistry]
    exact h job hjob
  | @enqueued _ request hstep hregistry =>
    have happly : w'.repository.repo =
        (w.repository.repo.enqueue request input.now input.id input.write).2 :=
      (Option.some.inj (RepositoryWorld.step_eq_some_iff.1 hstep).2.1).symm
    intro job hjob hneeds target htarget
    rw [hregistry]
    rw [happly] at hjob
    rcases JobRepository.enqueue_cases w.repository.repo request input.now input.id input.write with
      ⟨-, heq⟩ | ⟨requested, haccepts, new, -, htargets, heq⟩
    · exact h job (heq ▸ hjob) hneeds target htarget
    · rw [heq] at hjob
      rcases List.mem_append.1 hjob with hold | hnew
      · exact h job hold hneeds target htarget
      · obtain rfl := List.mem_singleton.1 hnew
        rw [htargets] at htarget
        obtain rfl := List.mem_singleton.1 htarget
        by_contra hgone
        exact hnot (.enqueued hi haccepts (by simpa using hgone))
  | jobRemoved hstep hregistry =>
    exact h.of_jobEvent hcoherent rfl hstep hregistry fun _ _ hrequeue => by cases hrequeue
  | transitioned hstep hregistry =>
    refine h.of_jobEvent hcoherent rfl hstep hregistry fun job hjob hrequeue target htarget => ?_
    by_contra hgone
    generalize hwrite : input.write = write at hrequeue
    cases hrequeue with
    | mk hstate => exact hnot (.requeued hi hwrite hjob hstate htarget (by simpa using hgone))
  | deviceRemoved hrepository hregistry =>
    intro job hjob hneeds target htarget
    rw [hrepository] at hjob
    rw [hregistry, DeviceRegistry.contains_remove_iff]
    refine ⟨h job hjob hneeds target htarget, fun hwrite hid => ?_⟩
    refine hnot (.removed hi hwrite hjob hneeds ?_)
    exact List.any_eq_true.2 ⟨target, htarget, by simpa using hid⟩

/-- A step that orphans no job keeps the references. -/
theorem ActiveJobsKeepDevice.of_step (h : w.ActiveJobsKeepDevice)
    (hcoherent : w.repository.Coherent) (hnot : ¬ w.Orphans e)
    (hstep : w.step digest e = some w') : w'.ActiveJobsKeepDevice := by
  cases e with
  | agent e =>
    simp only [step] at hstep
    split_ifs at hstep with hremote
    obtain ⟨repository, hjobs, rfl⟩ := Option.map_eq_some_iff.1 hstep
    refine h.of_jobEvent hcoherent (JobEvent.request_eq_none_of_isRemote hremote) hjobs rfl ?_
    intro job _ hrequeue
    cases hrequeue with
    | mk => cases hremote
  | registry e =>
    simp only [step] at hstep
    split_ifs at hstep with hremote
    obtain rfl := Option.some.inj hstep
    exact fun job hjob hneeds target htarget =>
      DeviceRegistry.contains_of_isRemote hremote (h job hjob hneeds target htarget)
  | importImage files inspection committed now id write =>
    obtain rfl := Option.some.inj hstep
    exact h
  | verifyGhoImage inspect id write =>
    obtain rfl := Option.some.inj hstep
    exact h
  | call c =>
    simp only [step] at hstep
    split_ifs at hstep
    obtain rfl := Option.some.inj hstep
    exact h
  | advance i input =>
    obtain ⟨c, hi, hadvance⟩ := step_advance_iff.1 hstep
    exact h.of_advance hcoherent hnot hi hadvance

/-- After a step that orphans a job, an active job is without its device. -/
theorem Orphans.not_activeJobsKeepDevice (h : w.Orphans e) (hcoherent : w.repository.Coherent)
    (hstep : w.step digest e = some w') : ¬ w'.ActiveJobsKeepDevice := by
  intro hkeeps
  cases h with
  | @removed i input id job hi hwrite hjob hneeds htarget =>
    obtain ⟨c, hc, hadvance⟩ := step_advance_iff.1 hstep
    obtain rfl := Option.some.inj (hi.symm.trans hc)
    obtain rfl := Option.some.inj hadvance
    obtain ⟨target, hmem, hid⟩ := List.any_eq_true.1 htarget
    have hcontains := hkeeps job hjob hneeds target hmem
    exact (DeviceRegistry.contains_remove_iff.1 hcontains).2 hwrite (by simpa using hid)
  | @enqueued i input request target hi haccepts hgone =>
    obtain ⟨c, hc, hadvance⟩ := step_advance_iff.1 hstep
    obtain rfl := Option.some.inj (hi.symm.trans hc)
    obtain ⟨repository, hjobs, rfl⟩ := callJobs_eq_some_iff.1 hadvance
    have happly : repository.repo =
        (w.repository.repo.enqueue request input.now input.id input.write).2 :=
      (Option.some.inj (RepositoryWorld.step_eq_some_iff.1 hjobs).2.1).symm
    rcases JobRepository.enqueue_cases w.repository.repo request input.now input.id input.write with
      ⟨hrefused, -⟩ | ⟨other, hother, job, hstate, htargets, heq⟩
    · exact hrefused target haccepts
    · obtain rfl : target = other := by
        simpa using haccepts.2.1.symm.trans hother.2.1
      have hjob : job ∈ repository.repo.jobs := by
        rw [happly, heq]
        exact List.mem_append_right _ (List.mem_singleton_self job)
      have hcontains : w.registry.contains target.deviceId = true :=
        hkeeps job hjob (hstate ▸ rfl) target (htargets ▸ List.mem_singleton_self target)
      rw [hgone] at hcontains
      cases hcontains
  | @requeued i input job target hi hwrite hjob hstate htarget hgone =>
    obtain ⟨c, hc, hadvance⟩ := step_advance_iff.1 hstep
    obtain rfl := Option.some.inj (hi.symm.trans hc)
    obtain ⟨repository, hjobs, rfl⟩ := callJobs_eq_some_iff.1 hadvance
    have happly : repository.repo =
        (w.repository.repo.transition job.id .waiting input.now input.write).2 :=
      (Option.some.inj (RepositoryWorld.step_eq_some_iff.1 hjobs).2.1).symm
    have hedit : job.applyTransition .waiting input.now =
        .ok { job with state := .waiting, updatedAt := input.now } := by
      rcases hstate with hstate | hstate <;>
      simp [DeploymentJob.applyTransition, DeploymentJob.installerControls, hstate,
        JobState.transition, JobState.allows]
    have hnew := (JobRepository.editJob_written hcoherent.jobs.ids_nodup hjob hedit).2
    have hmem : { job with state := JobState.waiting, updatedAt := input.now } ∈
        repository.repo.jobs := by
      rw [happly, hwrite]
      exact hnew
    have hcontains : w.registry.contains target.deviceId = true :=
      hkeeps _ hmem rfl target htarget
    rw [hgone] at hcontains
    cases hcontains

/-- One step keeps the references exactly when it orphans no job. -/
theorem activeJobsKeepDevice_iff_of_step (h : w.ActiveJobsKeepDevice)
    (hcoherent : w.repository.Coherent) (hstep : w.step digest e = some w') :
    w'.ActiveJobsKeepDevice ↔ ¬ w.Orphans e :=
  ⟨fun hkeeps horphans => horphans.not_activeJobsKeepDevice hcoherent hstep hkeeps,
    fun hnot => h.of_step hcoherent hnot hstep⟩

/-! ### Runs -/

/-- The devices of the active jobs are registered in every state of the run. -/
def KeepsActiveDevices (digest : String → String) (start : DesktopWorld) (es : List DesktopEvent) :
    Prop :=
  ∀ pre post m, es = pre ++ post → Leads (step digest) start pre m → m.ActiveJobsKeepDevice

variable {jobsPath devicesPath imagesPath : String} {clock : Instant} {es : List DesktopEvent}

/-- The devices of the active jobs stay registered along a run if and only if none of its steps
orphans a job. -/
theorem keepsActiveDevices_iff
    (hrun : Leads (step digest) (empty jobsPath devicesPath imagesPath clock) es w) :
    KeepsActiveDevices digest (empty jobsPath devicesPath imagesPath clock) es ↔
      Along (step digest) (fun m e => ¬ m.Orphans e)
        (empty jobsPath devicesPath imagesPath clock) es := by
  constructor
  · rintro hkeeps pre e post m rfl hpre horphans
    obtain ⟨m', n, hm', hstep, -⟩ := hrun.split
    obtain rfl := hm'.unique hpre
    exact horphans.not_activeJobsKeepDevice (coherent_of_leads hpre) hstep
      (hkeeps (pre ++ [e]) post n (by simp) (hpre.concat hstep))
  · rintro halong pre post m rfl hpre
    have hstart : (empty jobsPath devicesPath imagesPath clock).ActiveJobsKeepDevice := by
      simp [ActiveJobsKeepDevice, empty, RepositoryWorld.empty]
    refine (hpre.invariant_along (I := fun m => m.ActiveJobsKeepDevice ∧ m.repository.Coherent)
      (Along.init halong) ⟨hstart, RepositoryWorld.coherent_empty jobsPath clock⟩ ?_).1
    rintro x e y ⟨hx, hcoherent⟩ hnot hstep
    refine ⟨hx.of_step hcoherent hnot hstep, ?_⟩
    rcases repository_of_step hstep with heq | ⟨jobEvent, hjobs⟩
    · exact heq ▸ hcoherent
    · exact hcoherent.of_step hjobs

/-! ### A job that is queued between the check and the removal -/

/-- A new job names registered devices when it is called. -/
def NamesRegisteredDevices (w : DesktopWorld) : DesktopEvent → Prop
  | .call (.createJob (.queued request)) =>
    ∀ target ∈ request.targets, w.registry.contains target.deviceId = true
  | _ => True

instance (w : DesktopWorld) (e : DesktopEvent) : Decidable (w.NamesRegisteredDevices e) :=
  match e with
  | .call (.createJob (.queued request)) =>
    inferInstanceAs (Decidable (∀ target ∈ request.targets,
      w.registry.contains target.deviceId = true))
  | .call (.createJob (.locked _)) | .call (.createJob (.linuxChecked ..))
  | .call (.createJob (.linuxResolved _)) | .call (.createJob (.windowsChecked ..))
  | .call (.createJob (.prepared _)) | .call (.createJob (.finished _)) | .call (.removeImage _)
  | .call (.removeJob _) | .call (.removeDevice _) | .call (.transitionJob _) | .agent _
  | .registry _ | .importImage .. | .verifyGhoImage .. | .advance .. => .isTrue trivial

/-- The device 7 registers and the image 9 is imported; `remove_device` finds no job for the device,
then a job for it is queued, and then the device is removed. -/
def deviceRaceEvents : List DesktopEvent :=
  [.registry (.register (labInventory "02:00:00:00:00:07") "192.0.2.27" 5 (71, 72) 7 .written),
    .importImage managedFiles
      (.ok { name := "Windows 11", format := .wim, sizeBytes := 5000000000, sha256 := "ab",
             stagedPaths := ["install.wim"], stagedSizes := [5000000000], ghoCapability := none })
      (.ok { primary := "images/9/install.wim", spans := [], installerCapability := none }) 5 9
      .written,
    .call (.removeDevice (.started 7)),
    .call (.createJob (.queued windowsRequest)),
    .advance 0 smoothInput,
    .advance 1 smoothInput, .advance 1 smoothInput, .advance 1 smoothInput, .advance 1 smoothInput,
    .advance 0 smoothInput]

private theorem deviceRaceEvents_end :
    (runFrom (step deviceDigest) (empty "jobs.json" "devices.json" "images.json" 0)
      deviceRaceEvents).map (fun w =>
        (w.repository.repo.jobs.map fun job =>
          (job.state, job.targets.map fun target => target.deviceId),
        w.registry.devices.map fun record => record.device.id)) =
      some ([(.waiting, [7])], []) := by
  decide +kernel

/-- The waiting job is left without its device. -/
private theorem not_activeJobsKeepDevice_of_race
    (h : (w.repository.repo.jobs.map fun job =>
          (job.state, job.targets.map fun target => target.deviceId),
        w.registry.devices.map fun record => record.device.id) =
      ([(JobState.waiting, [(7 : Uuid)])], [])) : ¬ w.ActiveJobsKeepDevice := by
  intro hkeeps
  obtain ⟨hjobs, hdevices⟩ := Prod.mk.inj h
  obtain ⟨job, rest, hcons, hjob, -⟩ := List.map_eq_cons_iff.1 hjobs
  obtain ⟨hstate, htargets⟩ := Prod.mk.inj hjob
  obtain ⟨target, targets, htarget, -, -⟩ := List.map_eq_cons_iff.1 htargets
  have hcontains := hkeeps job (hcons ▸ List.mem_cons_self) (hstate ▸ rfl) target
    (htarget ▸ List.mem_cons_self)
  rw [DeviceRegistry.contains, List.map_eq_nil_iff.1 hdevices] at hcontains
  cases hcontains

/-- A job named a registered device when it was called, and waits for a device that is gone. -/
theorem keepsActiveDevices_fails_of_race :
    Along (step deviceDigest) NamesRegisteredDevices
        (empty "jobs.json" "devices.json" "images.json" 0) deviceRaceEvents ∧
      ¬ KeepsActiveDevices deviceDigest (empty "jobs.json" "devices.json" "images.json" 0)
        deviceRaceEvents := by
  refine ⟨by decide +kernel, fun hkeeps => ?_⟩
  obtain ⟨w, hw, hend⟩ := exists_leads_of_map deviceRaceEvents_end
  exact not_activeJobsKeepDevice_of_race hend (hkeeps deviceRaceEvents [] w (by simp) hw)

/-- Some step of that run orphans a job. -/
theorem not_along_orphans_race :
    ¬ Along (step deviceDigest) (fun m e => ¬ m.Orphans e)
      (empty "jobs.json" "devices.json" "images.json" 0) deviceRaceEvents := by
  intro halong
  obtain ⟨w, hw, hend⟩ := exists_leads_of_map deviceRaceEvents_end
  have hkeeps := (keepsActiveDevices_iff hw).2 halong
  exact not_activeJobsKeepDevice_of_race hend (hkeeps deviceRaceEvents [] w (by simp) hw)

end DesktopWorld

end EasyDeployMesh
