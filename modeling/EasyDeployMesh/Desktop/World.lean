import EasyDeployMesh.Desktop.DeploymentMutation
import EasyDeployMesh.Foundations.Mutex
import EasyDeployMesh.Service.JobRepository.Invariant

/-!
# Runs of the desktop application

The three stores of one process with any number of commands in flight. A step is a call of an Agent
or of the installer on the job repository, a registration or a heartbeat, an import or a
verification of an image, the call of a command, or the next step of a command; so the accesses of
concurrent commands interleave in every order that the mutex of the coordinator leaves.

## Main definitions

* `EasyDeployMesh.DesktopEvent`, `EasyDeployMesh.DesktopWorld.step`,
  `EasyDeployMesh.DesktopWorld.empty`.

## Main results

* `EasyDeployMesh.DesktopWorld.step_advance_iff`,
  `EasyDeployMesh.DesktopWorld.callJobs_eq_some_iff`: what the step of a command does.
* `EasyDeployMesh.DesktopWorld.storesEdge_of_advance`: which commands change the jobs and the
  devices.
* `EasyDeployMesh.DesktopWorld.coherent_of_leads`: the jobs of every reachable state are coherent.
-/

namespace EasyDeployMesh

open Foundations

/-- The calls that Agents and the installer make on the job repository, and readings of the
clock. -/
def JobEvent.isRemote : JobEvent → Bool
  | create .. | enqueue .. | transition .. | remove .. | reopen => false
  | _ => true

/-- No remote call creates a job. -/
theorem JobEvent.request_eq_none_of_isRemote {e : JobEvent} (h : e.isRemote = true) :
    e.request = none := by
  cases e <;> first | rfl | cases h

/-- The calls that Agents make on the device registry. -/
def RegistryEvent.isRemote : RegistryEvent → Bool
  | remove .. => false
  | _ => true

/-- What happens to the desktop and its repositories. -/
inductive DesktopEvent
  | agent (e : JobEvent)
  | registry (e : RegistryEvent)
  | importImage (files : ImageFileSystem) (inspection : Except ImageLibraryError StagedInspection)
      (committed : Except ImageLibraryError ManagedImage) (now : Instant) (id : Uuid)
      (write : WriteOutcome)
  | verifyGhoImage (inspect : ImageArtifact → Except ImageLibraryError GhoImageCapability)
      (id : Uuid) (write : WriteOutcome)
  /-- A command is called. -/
  | call (c : DesktopCommand)
  /-- The command with this number takes its next step. -/
  | advance (i : ℕ) (input : DesktopInput)

namespace DesktopWorld

/-- The application over directories without manifests. -/
def empty (jobsPath devicesPath imagesPath : String) (clock : Instant) : DesktopWorld where
  repository := .empty jobsPath clock
  registry := .empty devicesPath
  images := { manifestPath := imagesPath, images := [], manifestFile := .absent }
  holder := none
  commands := []

/-- One event; the calls of an Agent or of a device go to the repositories directly. -/
def step (digest : String → String) (w : DesktopWorld) : DesktopEvent → Option DesktopWorld
  | .agent e =>
    if e.isRemote then (w.repository.step e).map fun repository => { w with repository } else none
  | .registry e =>
    if e.isRemote then some { w with registry := (e.apply digest w.registry).2 } else none
  | .importImage files inspection committed now id write =>
    some { w with images := (w.images.importImage files inspection committed now id write).2 }
  | .verifyGhoImage inspect id write =>
    some { w with images := (w.images.verifyGhoImage inspect id write).2 }
  | .call c => if c.isFresh then some { w with commands := w.commands ++ [c] } else none
  | .advance i input => (w.commands[i]?).bind (w.advance i input)

variable {digest : String → String} {w w' : DesktopWorld} {i : ℕ} {input : DesktopInput}
  {c old : DesktopCommand} {e : JobEvent}

theorem step_advance_iff : w.step digest (.advance i input) = some w' ↔
    ∃ c, w.commands[i]? = some c ∧ w.advance i input c = some w' := by
  simp only [step, Option.bind_eq_some_iff]

theorem callJobs_eq_some_iff : w.callJobs i e c = some w' ↔
    ∃ repository, w.repository.step e = some repository ∧
      { w.put i c with repository } = w' := by
  unfold callJobs
  rw [Option.map_eq_some_iff]

theorem acquire_eq_some_iff : w.acquire i c = some w' ↔
    w.holder = none ∧ { w with commands := w.commands.set i c, holder := some i } = w' := by
  unfold acquire
  split_ifs with h <;> simp [h]

/-! ### The job repository and the device registry -/

/-- What the step of a command does to the job repository and the device registry. -/
inductive StoresEdge (w : DesktopWorld) (input : DesktopInput) :
    DesktopCommand → DesktopWorld → Prop
  | kept {w' : DesktopWorld} (hrepository : w'.repository = w.repository)
      (hregistry : w'.registry = w.registry) (c : DesktopCommand) : StoresEdge w input c w'
  | enqueued {w' : DesktopWorld} {request : CreateDeploymentJob}
      (hstep : w.repository.step (.enqueue request input.now input.id input.write) =
        some w'.repository) (hregistry : w'.registry = w.registry) :
      StoresEdge w input (.createJob (.prepared request)) w'
  | jobRemoved {w' : DesktopWorld} {id : Uuid}
      (hstep : w.repository.step (.remove id input.write) = some w'.repository)
      (hregistry : w'.registry = w.registry) : StoresEdge w input (.removeJob (.locked id)) w'
  | transitioned {w' : DesktopWorld} {id : Uuid} {nextState : JobState}
      (hstep : w.repository.step (.transition id nextState input.now input.write) =
        some w'.repository) (hregistry : w'.registry = w.registry) :
      StoresEdge w input (.transitionJob (.checked id nextState)) w'
  | deviceRemoved {w' : DesktopWorld} {id : Uuid} (hrepository : w'.repository = w.repository)
      (hregistry : w'.registry = (w.registry.remove id input.write).2) :
      StoresEdge w input (.removeDevice (.unreferenced id)) w'

theorem storesEdge_of_advance (h : w.advance i input c = some w') : StoresEdge w input c w' := by
  rcases c with state | state | state | state | state <;> cases state <;>
  simp only [advance, advanceCreateJob, advanceRemoveImage, advanceRemoveJob, advanceRemoveDevice,
    advanceTransitionJob, Option.some.injEq, reduceCtorEq, acquire_eq_some_iff,
    callJobs_eq_some_iff] at h
  case createJob.prepared =>
    obtain ⟨repository, hstep, rfl⟩ := h
    exact .enqueued hstep rfl
  case removeJob.locked =>
    obtain ⟨repository, hstep, rfl⟩ := h
    exact .jobRemoved hstep rfl
  case transitionJob.checked =>
    obtain ⟨repository, hstep, rfl⟩ := h
    exact .transitioned hstep rfl
  case removeDevice.unreferenced =>
    obtain rfl := h
    exact .deviceRemoved rfl rfl
  case createJob.queued | removeImage.queued | removeJob.queued =>
    obtain ⟨-, rfl⟩ := h
    refine .kept ?_ ?_ _ <;> rfl
  all_goals
    obtain rfl := h
    refine .kept ?_ ?_ _ <;> rfl

/-- A step is at most one step of the job repository. -/
theorem repository_of_step {e : DesktopEvent} (h : w.step digest e = some w') :
    w'.repository = w.repository ∨
      ∃ jobEvent, w.repository.step jobEvent = some w'.repository := by
  cases e with
  | agent e =>
    simp only [step] at h
    split_ifs at h
    obtain ⟨repository, hstep, rfl⟩ := Option.map_eq_some_iff.1 h
    exact Or.inr ⟨e, hstep⟩
  | registry e =>
    simp only [step] at h
    split_ifs at h
    obtain rfl := Option.some.inj h
    exact Or.inl rfl
  | importImage files inspection committed now id write =>
    obtain rfl := Option.some.inj h
    exact Or.inl rfl
  | verifyGhoImage inspect id write =>
    obtain rfl := Option.some.inj h
    exact Or.inl rfl
  | call c =>
    simp only [step] at h
    split_ifs at h
    obtain rfl := Option.some.inj h
    exact Or.inl rfl
  | advance i input =>
    obtain ⟨c, -, hadvance⟩ := step_advance_iff.1 h
    cases storesEdge_of_advance hadvance with
    | kept hrepository _ => exact Or.inl hrepository
    | enqueued hstep _ => exact Or.inr ⟨_, hstep⟩
    | jobRemoved hstep _ => exact Or.inr ⟨_, hstep⟩
    | transitioned hstep _ => exact Or.inr ⟨_, hstep⟩
    | deviceRemoved hrepository _ => exact Or.inl hrepository

/-- The jobs are coherent in every state that a run reaches. -/
theorem coherent_of_leads {jobsPath devicesPath imagesPath : String} {clock : Instant}
    {es : List DesktopEvent}
    (h : Leads (step digest) (empty jobsPath devicesPath imagesPath clock) es w) :
    w.repository.Coherent := by
  refine h.invariant (I := fun w => w.repository.Coherent)
    (RepositoryWorld.coherent_empty jobsPath clock) fun m e n hm hstep => ?_
  rcases repository_of_step hstep with heq | ⟨jobEvent, hjobs⟩
  · exact heq ▸ hm
  · exact hm.of_step hjobs

/-! ### An environment in which nothing fails -/

/-- The answers of an environment in which nothing fails. -/
def smoothInput : DesktopInput where
  now := 10
  id := 1
  write := .written
  hasControlDispatcher := true
  preflight := .ok none
  files := managedFiles
  cleanup := .ok ()

end DesktopWorld

end EasyDeployMesh
