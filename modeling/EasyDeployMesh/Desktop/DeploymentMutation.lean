import EasyDeployMesh.Service.DeviceRegistry.World
import EasyDeployMesh.Service.ImageLibrary
import EasyDeployMesh.Service.JobRepository.World

/-!
# The commands of the desktop application

The commands of `apps/desktop/src-tauri/src/lib.rs` that create and remove jobs, images and devices.
A command accesses the three stores one after the other, each access under the lock of that store
only; `DeploymentMutationCoordinator` runs some commands under a mutex of its own. A command is a
state machine whose steps are these accesses, so that commands interleave as their locks allow.

## Main definitions

* `EasyDeployMesh.validateDeploymentCompatibility`, `EasyDeployMesh.resolveLinuxDeploymentTarget`:
  the checks of `create_job`.
* `EasyDeployMesh.DesktopCommand`: the commands and how far they are.
* `EasyDeployMesh.DesktopWorld`: the stores, the mutex and the commands.
* `EasyDeployMesh.DesktopWorld.advance`: the next step of a command.
-/

namespace EasyDeployMesh

open Foundations

/-- The errors that a command of the desktop returns. -/
inductive DesktopError
  | message (text : String)
  | jobs (error : JobRepositoryError)
  | images (error : ImageLibraryError)
  | devices (error : DeviceRegistryError)
  | linuxInstallOptions (error : LinuxInstallOptionsError)
  /-- The target disk is too small for the image. -/
  | capacity (target : DeploymentTarget) (error : PartitionCapacityError)
  /-- The target Windows partition is too small for the payload. -/
  | windowsPayload (target : DeploymentTarget) (error : WindowsPayloadCapacityError)
  | preflight (error : ImageLibraryError)
  deriving DecidableEq

/-! ### The checks of a new job -/

/-- The operation as `Debug` prints it. -/
def Operation.debug : Operation → String
  | .deployGho => "DeployGho"
  | .captureGho => "CaptureGho"
  | .deployWim => "DeployWim"
  | .installLinux => "InstallLinux"

/-- An operation and a verified image whose formats agree. -/
def validateDeploymentCompatibility (operation : Operation) (image : ImageArtifact) :
    Except DesktopError Unit :=
  if !image.verified then
    .error (.message ("deployment image is not verified: " ++ image.id.hyphenated))
  else if operation = .captureGho then
    .error (.message "GHO capture is not supported by the current EasyDeployMesh Agent")
  else match image.format with
    | .iso =>
      if operation = .installLinux ∧
          image.installerCapability.any CatalogInstallerCapability.isSupportedUbuntuServerV1 then
        .ok ()
      else .error (.message
        "the ISO is not a supported, verified Ubuntu Server 24.04 amd64 installer")
    | .gho =>
      if operation = .deployGho then .ok ()
      else .error (.message
        ("deployment operation " ++ operation.debug ++ " does not match a GHO image"))
    | .swm => .error (.message
        "SWM deployment images are not supported by the current EasyDeployMesh Agent")
    | .wim | .esd =>
      if operation ≠ .deployWim then .error (.message
        ("deployment operation " ++ operation.debug ++ " does not match a " ++ image.format.debug ++
          " image; current Agents require DeployWim for WIM/ESD images"))
      else .ok ()

/-- An optional text without its surrounding white space, unless nothing remains of it. -/
def nonEmptyTrimmed (value : Option String) : Option String :=
  (value.map Text.trim).filter fun value => !value.isEmpty

/-- The target as the current inventory describes it, when its fingerprint is stable and unique. -/
def resolveLinuxDeploymentTarget (requested : DeploymentTarget) (registered : RegisteredDevice)
    (capability : CatalogInstallerCapability) : Except DesktopError DeploymentTarget := do
  if !registered.online then
    .error (.message "the Linux deployment target must have a recent inventory")
  if registered.device.architecture ≠ .x86_64 ∨ registered.device.bootMode ≠ .uefi then
    .error (.message "Linux ISO deployment currently requires x86_64 UEFI targets")
  if registered.device.memoryBytes < capability.minimumMemoryBytes then
    .error (.message ("target memory is below the installer minimum of " ++
      toString capability.minimumMemoryBytes ++ " bytes"))
  let selected ← (registered.device.disks.find? fun disk =>
    Text.eqIgnoreAsciiCase disk.id requested.targetDiskId).elim
      (.error (.message "the selected disk is absent from the current inventory")) .ok
  let serial ← (nonEmptyTrimmed selected.serial).elim
    (.error (.message "Linux ISO deployment requires a target disk with a stable serial")) .ok
  let matchingFingerprints := registered.device.disks.countP fun disk =>
    Text.eqIgnoreAsciiCase (Text.trim disk.model) (Text.trim selected.model) &&
      absDiff disk.sizeBytes selected.sizeBytes ≤ 1024 * 1024 &&
      disk.serial.any fun actual => Text.eqIgnoreAsciiCase (Text.trim actual) serial
  if matchingFingerprints ≠ 1 then
    .error (.message "the selected disk does not have a unique stable hardware fingerprint")
  if selected.sizeBytes < capability.minimumDiskBytes then
    .error (.message ("target disk is below the installer minimum of " ++
      toString capability.minimumDiskBytes ++ " bytes"))
  .ok
    { deviceId := registered.device.id
      targetDiskId := selected.id
      targetDiskModel := Text.trim selected.model
      targetDiskSerial := some serial
      targetDiskSizeBytes := selected.sizeBytes }

/-! ### How far a command is -/

/-- The places in `create_job` at which another command may come between. -/
inductive CreateJobState
  /-- The command waits for the mutex. -/
  | queued (request : CreateDeploymentJob)
  | locked (request : CreateDeploymentJob)
  /-- The checks of a Linux job have passed. -/
  | linuxChecked (request : CreateDeploymentJob) (requested : DeploymentTarget)
      (capability : CatalogInstallerCapability)
  /-- The target of a Linux job is the one of the inventory. -/
  | linuxResolved (request : CreateDeploymentJob)
  /-- The checks of a Windows job have passed. -/
  | windowsChecked (request : CreateDeploymentJob) (image : ImageArtifact)
  /-- The preflight of the image has succeeded. -/
  | prepared (request : CreateDeploymentJob)
  | finished (result : Except DesktopError DeploymentJob)

/-- The places in `remove_image` at which another command may come between. -/
inductive RemoveImageState
  | queued (id : Uuid)
  | locked (id : Uuid)
  /-- No job referred to the image. -/
  | unreferenced (id : Uuid)
  | finished (result : Except DesktopError Bool)

/-- The places in `remove_job` at which another command may come between. -/
inductive RemoveJobState
  | queued (id : Uuid)
  | locked (id : Uuid)
  | finished (result : Except DesktopError Bool)

/-- The places in `remove_device`, which takes no mutex. -/
inductive RemoveDeviceState
  | started (id : Uuid)
  /-- No unfinished job referred to the device. -/
  | unreferenced (id : Uuid)
  | finished (result : Except DesktopError Bool)

/-- The places in `transition_job`, which takes no mutex. -/
inductive TransitionJobState
  | started (id : Uuid) (nextState : JobState)
  | checked (id : Uuid) (nextState : JobState)
  | finished (result : Except DesktopError DeploymentJob)

/-- A command of the operator, at the place it has reached. -/
inductive DesktopCommand
  | createJob (state : CreateJobState)
  | removeImage (state : RemoveImageState)
  | removeJob (state : RemoveJobState)
  | removeDevice (state : RemoveDeviceState)
  | transitionJob (state : TransitionJobState)

namespace CreateJobState

/-- A step of `create_job` that may refuse the request. -/
def ofResult : Except DesktopError CreateJobState → CreateJobState
  | .ok state => state
  | .error error => .finished (.error error)

/-- The step of `create_job` after the image was looked up; `hasControlDispatcher` is what
`BootPackage::has_control_dispatcher` finds. -/
def checkRequest (request : CreateDeploymentJob) (image : Option ImageArtifact)
    (hasControlDispatcher : Bool) : Except DesktopError CreateJobState := do
  let image ← image.elim (.error (.message
    ("deployment image was not found: " ++ request.imageId.hyphenated))) .ok
  validateDeploymentCompatibility request.operation image
  if request.operation = .installLinux then
    match request.targets with
    | [requested] => do
      if !hasControlDispatcher then .error (.message
        "start the managed PXE and control services before queuing a Linux installer job")
      let install ← request.options.linuxInstall.elim
        (.error (.message "Linux installer options are required")) .ok
      install.validate.mapError .linuxInstallOptions
      let capability ← (image.installerCapability.filter
        CatalogInstallerCapability.isSupportedUbuntuServerV1).elim (.error (.message
          "the ISO has no supported Ubuntu Server installer capability")) .ok
      .ok (.linuxChecked request requested capability)
    | _ => .error (.message "a Linux installer job requires exactly one target")
  else do
    if request.options.linuxInstall.isSome then
      .error (.message "Linux installer options cannot be used with a Windows job")
    request.targets.forM fun target =>
      (request.options.partitionPlan.validateCapacity target.targetDiskSizeBytes
        image.sizeBytes).mapError (.capacity target)
    .ok (.windowsChecked request image)

/-- The target of a Linux job is replaced by the one of the inventory. -/
def resolveTarget (request : CreateDeploymentJob) (requested : DeploymentTarget)
    (capability : CatalogInstallerCapability) (registered : List RegisteredDevice) :
    Except DesktopError CreateJobState := do
  let registered ← (registered.find? fun registered =>
    registered.device.id == requested.deviceId).elim (.error (.message
      ("deployment device was not found: " ++ requested.deviceId.hyphenated))) .ok
  let target ← resolveLinuxDeploymentTarget requested registered capability
  .ok (.linuxResolved { request with targets := [target] })

/-- The size of the Windows payload, when the preflight finds out about it. -/
def windowsPayloadSize (operation : Operation)
    (preflight : Except ImageLibraryError (Option UInt64)) :
    Except ImageLibraryError (Option UInt64) :=
  match operation with
  | .deployGho => preflight
  | .captureGho => .error (.unsupportedFormat "GHO capture is not supported")
  | .deployWim | .installLinux => preflight.map fun _ => none

/-- Every target disk holds the payload of a Windows image; another image needs no such check. -/
def checkPayload (request : CreateDeploymentJob) (image : ImageArtifact)
    (preflight : Except ImageLibraryError (Option UInt64)) :
    Except DesktopError CreateJobState := do
  match ← (windowsPayloadSize request.operation preflight).mapError DesktopError.preflight with
  | some payloadSize =>
    request.targets.forM fun target =>
      (request.options.partitionPlan.validateWindowsPayloadCapacity target.targetDiskSizeBytes
        image.sizeBytes payloadSize).mapError (.windowsPayload target)
  | none => .ok ()
  .ok (.prepared request)

end CreateJobState

namespace DesktopCommand

/-- The command has just been called. -/
def isFresh : DesktopCommand → Bool
  | createJob (.queued _) | removeImage (.queued _) | removeJob (.queued _)
  | removeDevice (.started _) | transitionJob (.started _ _) => true
  | _ => false

/-- The command has returned. -/
def isFinished : DesktopCommand → Bool
  | createJob (.finished _) | removeImage (.finished _) | removeJob (.finished _)
  | removeDevice (.finished _) | transitionJob (.finished _) => true
  | _ => false

/-- The command runs under the mutex of the coordinator. -/
def isLocked : DesktopCommand → Bool
  | createJob (.locked _) | createJob (.linuxChecked _ _ _) | createJob (.linuxResolved _)
  | createJob (.windowsChecked _ _) | createJob (.prepared _) | removeImage (.locked _)
  | removeImage (.unreferenced _) | removeJob (.locked _) => true
  | _ => false

end DesktopCommand

/-! ### The stores and the commands -/

/-- The three stores, the holder of the mutex of the coordinator, and the commands in the order in
which they were called. -/
structure DesktopWorld where
  repository : RepositoryWorld
  registry : DeviceRegistry
  images : ImageLibrary
  holder : Option ℕ
  commands : List DesktopCommand

/-- The answers of the environment to one step of a command: the reading of the clock, the minted
UUID, what becomes of a write, and what the step finds in the file system. -/
structure DesktopInput where
  now : Instant
  id : Uuid
  write : WriteOutcome
  hasControlDispatcher : Bool
  preflight : Except ImageLibraryError (Option UInt64)
  files : ImageFileSystem
  cleanup : Except ImageLibraryError Unit

namespace DesktopWorld

variable (w : DesktopWorld) (i : ℕ)

/-- The command `i` is now as far as `c`; when it is finished, it releases the mutex. -/
def put (c : DesktopCommand) : DesktopWorld :=
  { w with
    commands := w.commands.set i c
    holder := if c.isFinished ∧ w.holder = some i then none else w.holder }

/-- The command `i` takes the mutex. -/
def acquire (c : DesktopCommand) : Option DesktopWorld :=
  if w.holder = none then some { w with commands := w.commands.set i c, holder := some i } else none

/-- The command `i` calls the job repository. -/
def callJobs (e : JobEvent) (c : DesktopCommand) : Option DesktopWorld :=
  (w.repository.step e).map fun repository => { w.put i c with repository }

/-- One step of `create_job`. -/
def advanceCreateJob (input : DesktopInput) : CreateJobState → Option DesktopWorld
  | .queued request => w.acquire i (.createJob (.locked request))
  | .locked request => some (w.put i (.createJob (.ofResult
      (CreateJobState.checkRequest request (w.images.get request.imageId)
        input.hasControlDispatcher))))
  | .linuxChecked request requested capability => some (w.put i (.createJob (.ofResult
      (CreateJobState.resolveTarget request requested capability (w.registry.list input.now)))))
  | .linuxResolved request => some (w.put i (.createJob (.ofResult
      ((input.preflight.mapError .preflight).map fun _ => .prepared request))))
  | .windowsChecked request image => some (w.put i (.createJob (.ofResult
      (CreateJobState.checkPayload request image input.preflight))))
  | .prepared request => w.callJobs i (.enqueue request input.now input.id input.write)
      (.createJob (.finished ((w.repository.repo.enqueue request input.now input.id
        input.write).1.mapError .jobs)))
  | .finished _ => none

/-- One step of `remove_image`. -/
def advanceRemoveImage (input : DesktopInput) : RemoveImageState → Option DesktopWorld
  | .queued id => w.acquire i (.removeImage (.locked id))
  | .locked id => some (w.put i (.removeImage (
      if w.repository.repo.referencesImage id then
        .finished (.error (.message "image is referenced by a deployment job"))
      else .unreferenced id)))
  | .unreferenced id =>
    let (result, images) := w.images.remove input.files id input.write input.cleanup
    some { w.put i (.removeImage (.finished (result.mapError .images))) with images }
  | .finished _ => none

/-- One step of `remove_job`. -/
def advanceRemoveJob (input : DesktopInput) : RemoveJobState → Option DesktopWorld
  | .queued id => w.acquire i (.removeJob (.locked id))
  | .locked id => w.callJobs i (.remove id input.write) (.removeJob (.finished
      ((w.repository.repo.remove id input.write).1.mapError .jobs)))
  | .finished _ => none

/-- One step of `remove_device`. -/
def advanceRemoveDevice (input : DesktopInput) : RemoveDeviceState → Option DesktopWorld
  | .started id => some (w.put i (.removeDevice (
      if w.repository.repo.referencesDevice id then
        .finished (.error (.message "device is referenced by a deployment job"))
      else .unreferenced id)))
  | .unreferenced id =>
    let (result, registry) := w.registry.remove id input.write
    some { w.put i (.removeDevice (.finished (result.mapError .devices))) with registry }
  | .finished _ => none

/-- The check of `transition_job` before it calls the repository. -/
def checkTransition (jobs : List DeploymentJob) (id : Uuid) (nextState : JobState) :
    TransitionJobState :=
  match jobs.find? fun job => job.id == id with
  | none => .finished (.error (.message ("deployment job was not found: " ++ id.hyphenated)))
  | some current =>
    if current.operation = .installLinux ∧ current.state = .running ∧
        (nextState = .paused ∨ nextState = .cancelled) then
      .finished (.error (.message
        "a Linux installer cannot be safely paused or cancelled after disk authorization"))
    else .checked id nextState

/-- One step of `transition_job`. -/
def advanceTransitionJob (input : DesktopInput) : TransitionJobState → Option DesktopWorld
  | .started id nextState => some (w.put i (.transitionJob
      (checkTransition w.repository.repo.list id nextState)))
  | .checked id nextState => w.callJobs i (.transition id nextState input.now input.write)
      (.transitionJob (.finished ((w.repository.repo.transition id nextState input.now
        input.write).1.mapError .jobs)))
  | .finished _ => none

/-- The next step of the command `i`, if it can be taken. -/
def advance (input : DesktopInput) : DesktopCommand → Option DesktopWorld
  | .createJob state => w.advanceCreateJob i input state
  | .removeImage state => w.advanceRemoveImage i input state
  | .removeJob state => w.advanceRemoveJob i input state
  | .removeDevice state => w.advanceRemoveDevice i input state
  | .transitionJob state => w.advanceTransitionJob i input state

end DesktopWorld

end EasyDeployMesh
