import EasyDeployMesh.Desktop.World

/-!
# Jobs and their images

Every job refers to an image of the library, in every state that the application reaches. The mutex
of the coordinator carries the argument: a command that has looked up an image for a new job and a
command that has found an image unreferenced cannot be in flight together, so what either of them
has found still holds when it acts.

## Main definitions

* `EasyDeployMesh.DesktopWorld.ImageReferencesValid`: every job refers to an image of the library.
* `EasyDeployMesh.DesktopWorld.Consistent`: the invariant, with what the commands in flight rely on.

## Main results

* `EasyDeployMesh.DesktopWorld.Consistent.of_step`: every step keeps the invariant.
* `EasyDeployMesh.DesktopWorld.imageReferencesValid_of_leads`: the references are valid in every
  reachable state.
-/

namespace EasyDeployMesh

open Foundations

/-- The image that `create_job` has looked up for the new job. -/
def CreateJobState.lookedUp : CreateJobState → Option Uuid
  | .linuxChecked request _ _ | .linuxResolved request | .windowsChecked request _
  | .prepared request => some request.imageId
  | _ => none

namespace DesktopCommand

/-- The image that a command has found in the library and has yet to write down. -/
def lookedUp : DesktopCommand → Option Uuid
  | createJob state => state.lookedUp
  | _ => none

/-- The image that `remove_image` has found unreferenced. -/
def foundUnreferenced : DesktopCommand → Option Uuid
  | removeImage (.unreferenced id) => some id
  | _ => none

variable {c : DesktopCommand} {id : Uuid}

theorem isLocked_of_lookedUp (h : c.lookedUp = some id) : c.isLocked = true := by
  cases c with
  | createJob state => cases state <;> first | rfl | cases h
  | removeImage | removeJob | removeDevice | transitionJob => cases h

theorem isLocked_of_foundUnreferenced (h : c.foundUnreferenced = some id) :
    c.isLocked = true := by
  cases c with
  | removeImage state => cases state <;> first | rfl | cases h
  | createJob | removeJob | removeDevice | transitionJob => cases h

theorem not_isLocked_of_isFinished (h : c.isFinished = true) : ¬ c.isLocked = true := by
  cases c <;> rename_i state <;> cases state <;> simp_all [isFinished, isLocked]

theorem of_isFresh (h : c.isFresh = true) :
    ¬ c.isLocked = true ∧ c.lookedUp = none ∧ c.foundUnreferenced = none := by
  cases c <;> rename_i state <;> cases state <;>
    simp_all [isFresh, isLocked, lookedUp, CreateJobState.lookedUp, foundUnreferenced]

end DesktopCommand

/-! ### The steps of a new job -/

namespace CreateJobState

variable {request : CreateDeploymentJob} {image : Option ImageArtifact} {b : Bool} {id : Uuid}

/-- A request passes the checks only when its image was found. -/
theorem lookedUp_checkRequest (h : (ofResult (checkRequest request image b)).lookedUp = some id) :
    image.isSome = true ∧ id = request.imageId := by
  cases hresult : checkRequest request image b with
  | error error => simp [hresult, ofResult, lookedUp] at h
  | ok state =>
    simp only [hresult, ofResult] at h
    simp only [checkRequest, bind_eq_ok_iff, elim_eq_ok_iff] at hresult
    obtain ⟨found, rfl, -, -, hresult⟩ := hresult
    refine ⟨rfl, ?_⟩
    by_cases hlinux : request.operation = .installLinux
    · rw [if_pos hlinux] at hresult
      split at hresult
      · simp only [check_eq_ok_iff, bind_eq_ok_iff, elim_eq_ok_iff] at hresult
        obtain ⟨_, _, _, _, _, _, _, hresult⟩ := hresult
        obtain rfl := Except.ok.inj hresult
        exact (Option.some.inj h).symm
      · cases hresult
    · simp only [if_neg hlinux, check_eq_ok_iff, bind_eq_ok_iff] at hresult
      obtain ⟨_, _, _, hresult⟩ := hresult
      obtain rfl := Except.ok.inj hresult
      exact (Option.some.inj h).symm

theorem lookedUp_resolveTarget {requested : DeploymentTarget}
    {capability : CatalogInstallerCapability} {registered : List RegisteredDevice}
    (h : (ofResult (resolveTarget request requested capability registered)).lookedUp = some id) :
    id = request.imageId := by
  cases hresult : resolveTarget request requested capability registered with
  | error error => simp [hresult, ofResult, lookedUp] at h
  | ok state =>
    simp only [hresult, ofResult] at h
    simp only [resolveTarget, bind_eq_ok_iff] at hresult
    obtain ⟨_, _, _, _, hresult⟩ := hresult
    obtain rfl := Except.ok.inj hresult
    exact (Option.some.inj h).symm

theorem lookedUp_checkPayload {found : ImageArtifact}
    {preflight : Except ImageLibraryError (Option UInt64)}
    (h : (ofResult (checkPayload request found preflight)).lookedUp = some id) :
    id = request.imageId := by
  cases hresult : checkPayload request found preflight with
  | error error => simp [hresult, ofResult, lookedUp] at h
  | ok state =>
    simp only [hresult, ofResult] at h
    simp only [checkPayload, bind_eq_ok_iff] at hresult
    obtain ⟨payloadSize, -, hresult⟩ := hresult
    cases payloadSize <;>
    · simp only [bind_eq_ok_iff] at hresult
      obtain ⟨_, _, hresult⟩ := hresult
      obtain rfl := Except.ok.inj hresult
      exact (Option.some.inj h).symm

end CreateJobState

namespace DesktopWorld

variable {digest : String → String} {w w' : DesktopWorld} {i : ℕ} {c old : DesktopCommand}

/-! ### The invariant -/

/-- Every job refers to an image of the library. -/
def ImageReferencesValid (w : DesktopWorld) : Prop :=
  ∀ job ∈ w.repository.repo.jobs, w.images.contains job.imageId = true

/-- The references are valid, and what the commands in flight have found still holds. -/
structure Consistent (w : DesktopWorld) : Prop where
  held : HeldBy (fun c => c.isLocked = true) w.holder w.commands
  references : w.ImageReferencesValid
  lookedUp : ∀ (i : ℕ) (c : DesktopCommand) (id : Uuid), w.commands[i]? = some c →
    c.lookedUp = some id → w.images.contains id = true
  unreferenced : ∀ (i : ℕ) (c : DesktopCommand) (id : Uuid), w.commands[i]? = some c →
    c.foundUnreferenced = some id → w.repository.repo.referencesImage id = false

theorem referencesImage_eq_false_iff {repo : JobRepository} {id : Uuid} :
    repo.referencesImage id = false ↔ ∀ job ∈ repo.jobs, job.imageId ≠ id := by
  simp [JobRepository.referencesImage]

namespace Consistent

theorem empty (jobsPath devicesPath imagesPath : String) (clock : Instant) :
    (empty jobsPath devicesPath imagesPath clock).Consistent where
  held := .nil
  references := by simp [ImageReferencesValid, DesktopWorld.empty, RepositoryWorld.empty]
  lookedUp := by simp [DesktopWorld.empty]
  unreferenced := by simp [DesktopWorld.empty]

/-- A command that is called has not found out anything yet. -/
theorem call (h : w.Consistent) (hc : c.isFresh = true) :
    { w with commands := w.commands ++ [c] }.Consistent := by
  obtain ⟨hlocked, hlookedUp, hunreferenced⟩ := DesktopCommand.of_isFresh hc
  refine ⟨h.held.append hlocked, h.references, fun j d id hj hd => ?_, fun j d id hj hd => ?_⟩
  · rcases getElem?_concat_cases hj with rfl | hj
    · simp [hlookedUp] at hd
    · exact h.lookedUp j d id hj hd
  · rcases getElem?_concat_cases hj with rfl | hj
    · simp [hunreferenced] at hd
    · exact h.unreferenced j d id hj hd

/-- A command that acquires the mutex has not found out anything yet. -/
theorem acquire (h : w.Consistent) (hlookedUp : c.lookedUp = none)
    (hunreferenced : c.foundUnreferenced = none) (hacquire : w.acquire i c = some w') :
    w'.Consistent := by
  obtain ⟨hfree, rfl⟩ := acquire_eq_some_iff.1 hacquire
  refine ⟨(hfree ▸ h.held).acquire, h.references, fun j d id hj hd => ?_, fun j d id hj hd => ?_⟩
  · rcases getElem?_set_cases hj with ⟨-, rfl⟩ | ⟨-, hj⟩
    · simp [hlookedUp] at hd
    · exact h.lookedUp j d id hj hd
  · rcases getElem?_set_cases hj with ⟨-, rfl⟩ | ⟨-, hj⟩
    · simp [hunreferenced] at hd
    · exact h.unreferenced j d id hj hd

/-- A command goes on; what it has found then must hold. -/
theorem put (h : w.Consistent) (hold : w.commands[i]? = some old)
    (hlocked : c.isLocked = true → old.isLocked = true)
    (hlookedUp : ∀ id, c.lookedUp = some id → w.images.contains id = true)
    (hunreferenced : ∀ id, c.foundUnreferenced = some id →
      w.repository.repo.referencesImage id = false) : (w.put i c).Consistent where
  held := by
    unfold DesktopWorld.put
    dsimp only
    split_ifs with hfinished
    · have hheld := h.held
      rw [hfinished.2] at hheld
      exact hheld.release (DesktopCommand.not_isLocked_of_isFinished hfinished.1)
    · exact h.held.set fun hc => h.held i old hold (hlocked hc)
  references := h.references
  lookedUp j d id hj hd := by
    rcases getElem?_set_cases hj with ⟨-, rfl⟩ | ⟨-, hj⟩
    · exact hlookedUp id hd
    · exact h.lookedUp j d id hj hd
  unreferenced j d id hj hd := by
    rcases getElem?_set_cases hj with ⟨-, rfl⟩ | ⟨-, hj⟩
    · exact hunreferenced id hd
    · exact h.unreferenced j d id hj hd

/-- No image is looked up in the device registry. -/
theorem of_registry (h : w.Consistent) (registry : DeviceRegistry) :
    { w with registry }.Consistent :=
  ⟨h.held, h.references, h.lookedUp, h.unreferenced⟩

/-- The jobs change: a new job refers to an image of the library that no command has found
unreferenced. -/
theorem of_repository {repository : RepositoryWorld} (h : w.Consistent)
    (hjobs : ∀ job ∈ repository.repo.jobs,
      (∃ old ∈ w.repository.repo.jobs, old.imageId = job.imageId) ∨
        (w.images.contains job.imageId = true ∧
          ∀ (i : ℕ) (c : DesktopCommand), w.commands[i]? = some c →
            c.foundUnreferenced ≠ some job.imageId)) :
    { w with repository }.Consistent where
  held := h.held
  references job hjob := by
    rcases hjobs job hjob with ⟨old, hold, heq⟩ | ⟨hcontains, -⟩
    · exact heq ▸ h.references old hold
    · exact hcontains
  lookedUp := h.lookedUp
  unreferenced j d id hj hd := by
    refine referencesImage_eq_false_iff.2 fun job hjob heq => ?_
    rcases hjobs job hjob with ⟨old, hold, holdid⟩ | ⟨-, hnone⟩
    · exact referencesImage_eq_false_iff.1 (h.unreferenced j d id hj hd) old hold
        (holdid.trans heq)
    · exact hnone j d hj (heq ▸ hd)

/-- The library changes: an image that leaves it is not referred to, and not looked up. -/
theorem of_images {images : ImageLibrary} (h : w.Consistent)
    (himages : ∀ id, w.images.contains id = true → images.contains id = true ∨
      (w.repository.repo.referencesImage id = false ∧
        ∀ (i : ℕ) (c : DesktopCommand), w.commands[i]? = some c → c.lookedUp ≠ some id)) :
    { w with images }.Consistent where
  held := h.held
  references job hjob := by
    rcases himages job.imageId (h.references job hjob) with hkept | ⟨hnone, -⟩
    · exact hkept
    · exact absurd rfl (referencesImage_eq_false_iff.1 hnone job hjob)
  lookedUp j d id hj hd := by
    rcases himages id (h.lookedUp j d id hj hd) with hkept | ⟨-, hnone⟩
    · exact hkept
    · exact absurd hd (hnone j d hj)
  unreferenced := h.unreferenced

/-! ### The steps -/

/-- A call that is not a request for a new job keeps the references of the jobs. -/
theorem of_jobEvent {repository : RepositoryWorld} {e : JobEvent} (h : w.Consistent)
    (hcoherent : w.repository.Coherent) (hrequest : e.request = none)
    (hstep : w.repository.step e = some repository) : { w with repository }.Consistent := by
  refine h.of_repository fun job hjob => Or.inl ?_
  rcases hcoherent.jobsEdge_of_step hstep with heq | hedge
  · exact ⟨job, heq ▸ hjob, rfl⟩
  · rcases hedge.task_cases hjob with ⟨old, hold, hsame⟩ | ⟨request, he, -⟩
    · exact ⟨old, hold, hsame.imageId.symm⟩
    · simp [hrequest] at he

/-- A command that calls the job repository, but not for a new job. -/
theorem of_callJobs {e : JobEvent} (h : w.Consistent) (hcoherent : w.repository.Coherent)
    (hrequest : e.request = none) (hold : w.commands[i]? = some old)
    (hlocked : c.isLocked = true → old.isLocked = true) (hlookedUp : c.lookedUp = none)
    (hunreferenced : c.foundUnreferenced = none) (hcall : w.callJobs i e c = some w') :
    w'.Consistent := by
  obtain ⟨repository, hstep, rfl⟩ := callJobs_eq_some_iff.1 hcall
  have hput : (w.put i c).Consistent :=
    h.put hold hlocked (fun id hid => by simp [hlookedUp] at hid)
      fun id hid => by simp [hunreferenced] at hid
  exact hput.of_jobEvent hcoherent hrequest hstep

theorem of_advanceCreateJob {input : DesktopInput} {state : CreateJobState} (h : w.Consistent)
    (hcoherent : w.repository.Coherent) (hi : w.commands[i]? = some (.createJob state))
    (hadvance : w.advanceCreateJob i input state = some w') : w'.Consistent := by
  cases state with
  | queued request => exact h.acquire rfl rfl hadvance
  | locked request =>
    obtain rfl := Option.some.inj hadvance
    refine h.put hi (fun _ => rfl) (fun id hid => ?_) fun _ hid => by cases hid
    obtain ⟨hsome, rfl⟩ := CreateJobState.lookedUp_checkRequest hid
    obtain ⟨image, himage⟩ := Option.isSome_iff_exists.1 hsome
    exact (ImageLibrary.contains_of_get himage).1
  | linuxChecked request requested capability =>
    obtain rfl := Option.some.inj hadvance
    refine h.put hi (fun _ => rfl) (fun id hid => ?_) fun _ hid => by cases hid
    exact h.lookedUp i _ id hi (CreateJobState.lookedUp_resolveTarget hid ▸ rfl)
  | linuxResolved request =>
    obtain rfl := Option.some.inj hadvance
    refine h.put hi (fun _ => rfl) (fun id hid => ?_) fun _ hid => by cases hid
    refine h.lookedUp i _ id hi ?_
    cases hpreflight : input.preflight with
    | error error =>
      rw [hpreflight] at hid
      cases hid
    | ok payloadSize =>
      rw [hpreflight] at hid
      exact hid
  | windowsChecked request image =>
    obtain rfl := Option.some.inj hadvance
    refine h.put hi (fun _ => rfl) (fun id hid => ?_) fun _ hid => by cases hid
    exact h.lookedUp i _ id hi (CreateJobState.lookedUp_checkPayload hid ▸ rfl)
  | prepared request =>
    obtain ⟨repository, hstep, rfl⟩ := callJobs_eq_some_iff.1 hadvance
    have hput : (w.put i (.createJob (.finished ((w.repository.repo.enqueue request input.now
        input.id input.write).1.mapError .jobs)))).Consistent :=
      h.put hi (fun _ => rfl) (fun _ hid => by cases hid) fun _ hid => by cases hid
    refine hput.of_repository fun job hjob => ?_
    rcases hcoherent.jobsEdge_of_step hstep with heq | hedge
    · exact Or.inl ⟨job, heq ▸ hjob, rfl⟩
    · rcases hedge.task_cases hjob with ⟨old, hold, hsame⟩ | ⟨request', he, himage, -⟩
      · exact Or.inl ⟨old, hold, hsame.imageId.symm⟩
      · obtain rfl : request = request' := Option.some.inj he
        rw [himage]
        refine Or.inr ⟨h.lookedUp i _ _ hi rfl, fun j d hj hd => ?_⟩
        -- the command holds the mutex, so no other command has found the image unreferenced
        rcases getElem?_set_cases hj with ⟨-, rfl⟩ | ⟨hne, hj⟩
        · cases hd
        · exact hne (h.held.unique hj (DesktopCommand.isLocked_of_foundUnreferenced hd) hi rfl)
  | finished result => cases hadvance

theorem of_advanceRemoveImage {input : DesktopInput} {state : RemoveImageState}
    (h : w.Consistent) (hi : w.commands[i]? = some (.removeImage state))
    (hadvance : w.advanceRemoveImage i input state = some w') : w'.Consistent := by
  cases state with
  | queued id => exact h.acquire rfl rfl hadvance
  | locked id =>
    obtain rfl := Option.some.inj hadvance
    refine h.put hi (fun _ => rfl) (fun _ hid => by cases hid) fun id' hid => ?_
    cases hreferences : w.repository.repo.referencesImage id with
    | true => simp [hreferences, DesktopCommand.foundUnreferenced] at hid
    | false =>
      obtain rfl : id = id' := by
        simpa [hreferences, DesktopCommand.foundUnreferenced] using hid
      exact hreferences
  | unreferenced id =>
    obtain rfl := Option.some.inj hadvance
    have hput : (w.put i (.removeImage (.finished ((w.images.remove input.files id input.write
        input.cleanup).1.mapError .images)))).Consistent :=
      h.put hi (fun _ => rfl) (fun _ hid => by cases hid) fun _ hid => by cases hid
    refine hput.of_images fun id' hcontains => ?_
    by_cases heq : id' = id
    · refine Or.inr ⟨heq ▸ h.unreferenced i _ id hi rfl, fun j d hj hd => ?_⟩
      -- the command holds the mutex, so no other command has looked up an image
      rcases getElem?_set_cases hj with ⟨-, rfl⟩ | ⟨hne, hj⟩
      · cases hd
      · exact hne (h.held.unique hj (DesktopCommand.isLocked_of_lookedUp hd) hi rfl)
    · exact Or.inl (ImageLibrary.contains_remove hcontains heq)
  | finished result => cases hadvance

theorem of_advance {input : DesktopInput} (h : w.Consistent) (hcoherent : w.repository.Coherent)
    (hi : w.commands[i]? = some c) (hadvance : w.advance i input c = some w') : w'.Consistent := by
  cases c with
  | createJob state => exact h.of_advanceCreateJob hcoherent hi hadvance
  | removeImage state => exact h.of_advanceRemoveImage hi hadvance
  | removeJob state =>
    cases state with
    | queued id =>
      simp only [advance, advanceRemoveJob] at hadvance
      exact h.acquire rfl rfl hadvance
    | locked id =>
      simp only [advance, advanceRemoveJob] at hadvance
      exact h.of_callJobs hcoherent rfl hi (fun _ => rfl) rfl rfl hadvance
    | finished result => cases hadvance
  | removeDevice state =>
    cases state with
    | started id =>
      obtain rfl := Option.some.inj hadvance
      exact h.put hi (fun hlocked => by cases hlocked) (fun _ hid => by cases hid)
        fun _ hid => by cases hid
    | unreferenced id =>
      obtain rfl := Option.some.inj hadvance
      refine Consistent.of_registry (h.put hi ?_ (fun _ hid => by cases hid)
        fun _ hid => by cases hid) _
      exact fun hlocked => by cases hlocked
    | finished result => cases hadvance
  | transitionJob state =>
    cases state with
    | started id nextState =>
      obtain rfl := Option.some.inj hadvance
      exact h.put hi (fun hlocked => by cases hlocked) (fun _ hid => by cases hid)
        fun _ hid => by cases hid
    | checked id nextState =>
      simp only [advance, advanceTransitionJob] at hadvance
      refine h.of_callJobs hcoherent rfl hi ?_ rfl rfl hadvance
      exact fun hlocked => by cases hlocked
    | finished result => cases hadvance

/-- Every step keeps the invariant. -/
theorem of_step {e : DesktopEvent} (h : w.Consistent) (hcoherent : w.repository.Coherent)
    (hstep : w.step digest e = some w') : w'.Consistent := by
  cases e with
  | agent e =>
    simp only [step] at hstep
    split_ifs at hstep with hremote
    obtain ⟨repository, hjobs, rfl⟩ := Option.map_eq_some_iff.1 hstep
    exact h.of_jobEvent hcoherent (JobEvent.request_eq_none_of_isRemote hremote) hjobs
  | registry e =>
    simp only [step] at hstep
    split_ifs at hstep
    obtain rfl := Option.some.inj hstep
    exact h.of_registry _
  | importImage files inspection committed now id write =>
    obtain rfl := Option.some.inj hstep
    exact h.of_images fun _ hcontains => Or.inl (ImageLibrary.contains_importImage hcontains)
  | verifyGhoImage inspect id write =>
    obtain rfl := Option.some.inj hstep
    exact h.of_images fun _ hcontains => Or.inl (ImageLibrary.contains_verifyGhoImage hcontains)
  | call c =>
    simp only [step] at hstep
    split_ifs at hstep with hfresh
    obtain rfl := Option.some.inj hstep
    exact h.call hfresh
  | advance i input =>
    obtain ⟨c, hi, hadvance⟩ := step_advance_iff.1 hstep
    exact h.of_advance hcoherent hi hadvance

end Consistent

/-- In every state that a run of the application reaches, every job refers to an image of the
library. -/
theorem imageReferencesValid_of_leads {jobsPath devicesPath imagesPath : String} {clock : Instant}
    {es : List DesktopEvent}
    (h : Leads (step digest) (empty jobsPath devicesPath imagesPath clock) es w) :
    w.ImageReferencesValid := by
  have hinvariant : w.Consistent ∧ w.repository.Coherent := by
    refine h.invariant (I := fun w => w.Consistent ∧ w.repository.Coherent)
      ⟨.empty jobsPath devicesPath imagesPath clock,
        RepositoryWorld.coherent_empty jobsPath clock⟩ fun m e n hm hstep => ?_
    refine ⟨hm.1.of_step hm.2 hstep, ?_⟩
    rcases repository_of_step hstep with heq | ⟨jobEvent, hjobs⟩
    · exact heq ▸ hm.2
    · exact hm.2.of_step hjobs
  exact hinvariant.1.references

/-! ### A removal that waits for a new job -/

/-- A WIM image is imported, and a job for it is created while the image is to be removed. -/
def imageRaceEvents : List DesktopEvent :=
  [.importImage managedFiles
      (.ok { name := "Windows 11", format := .wim, sizeBytes := 5000000000, sha256 := "ab",
             stagedPaths := ["install.wim"], stagedSizes := [5000000000], ghoCapability := none })
      (.ok { primary := "images/9/install.wim", spans := [], installerCapability := none }) 5 9
      .written,
    .call (.createJob (.queued windowsRequest)),
    .call (.removeImage (.queued 9)),
    .advance 0 smoothInput, .advance 0 smoothInput, .advance 0 smoothInput, .advance 0 smoothInput,
    .advance 1 smoothInput, .advance 1 smoothInput]

private theorem imageRaceEvents_end :
    (runFrom (step fun token => token)
      (empty "jobs.json" "devices.json" "images.json" 0) imageRaceEvents).map
      (fun w => (w.repository.repo.jobs.map fun job => (job.state, job.imageId),
        w.images.images.map fun image => image.id, w.commands.map DesktopCommand.isFinished)) =
      some ([(.waiting, 9)], [9], [true, true]) := by
  decide +kernel

/-- The image that is to be removed is still in the library, and the new job refers to it. -/
theorem imageReferencesValid_imageRace : ∃ w : DesktopWorld,
    Leads (step fun token => token) (empty "jobs.json" "devices.json" "images.json" 0)
        imageRaceEvents w ∧
      (w.repository.repo.jobs.map fun job => (job.state, job.imageId)) = [(.waiting, 9)] ∧
      w.ImageReferencesValid := by
  obtain ⟨w, hw, hend⟩ := exists_leads_of_map imageRaceEvents_end
  exact ⟨w, hw, congrArg Prod.fst hend, imageReferencesValid_of_leads hw⟩

end DesktopWorld

end EasyDeployMesh
