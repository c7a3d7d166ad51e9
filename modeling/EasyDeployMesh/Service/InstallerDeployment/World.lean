import EasyDeployMesh.Service.InstallerDeployment.Calls
import EasyDeployMesh.Foundations.Run

/-!
# Runs of the deployment service

The job repository and the installer deployment service of one process, with any number of calls in
flight. A step is one call of the operator or of an Agent on the repository, a change of the device
registry, the arrival of an installer call, or one critical section of an installer call; so the
sections of concurrent calls interleave in every order. The sessions live in memory: a run is the
life of one process.

## Main definitions

* `EasyDeployMesh.ServiceWorld`: the repository, the registry, the sessions, and the calls with
  their states.
* `EasyDeployMesh.ServiceEvent`, `EasyDeployMesh.ServiceWorld.step`,
  `EasyDeployMesh.ServiceWorld.empty`: the events, the step function and the start of a run.

## Main results

* `EasyDeployMesh.ServiceWorld.step_advance_iff`: what a step that advances a call does.
* `EasyDeployMesh.ServiceWorld.repository_of_step`: a step is at most one step of the repository.
-/

namespace EasyDeployMesh

open Foundations

/-- The calls on the repository that the operator and the Agents can make; the installer calls on it
are the sections of an `InstallerCall`. -/
def JobEvent.isExternal : JobEvent → Bool
  | markInstallerBooting .. | leaseInstallerJob .. | reportInstallerProgress ..
  | completeInstaller .. | reopen => false
  | _ => true

/-- The host with the installer calls that are under way. -/
structure ServiceWorld where
  repository : RepositoryWorld
  registry : DeviceRegistry
  sessions : SessionTable
  calls : List InstallerCall
  /-- The UUIDs minted by the installer deployment service. -/
  minted : List Uuid

/-- What happens to the host. -/
inductive ServiceEvent
  /-- A call of the operator or of an Agent. -/
  | jobs (e : JobEvent)
  /-- Devices register, report and are removed. -/
  | registry (registry : DeviceRegistry)
  /-- An installer call arrives. -/
  | call (call : InstallerCall)
  /-- The call with this number runs its next section. -/
  | advance (i : ℕ) (input : SectionInput)

namespace ServiceWorld

/-- The service over a directory without manifest. -/
def empty (manifestPath : String) (clock : Instant) (registry : DeviceRegistry) : ServiceWorld where
  repository := .empty manifestPath clock
  registry := registry
  sessions := ∅
  calls := []
  minted := []

/-- The repository after the part of a section that concerns it. -/
def stepJobs (repository : RepositoryWorld) : Option JobEvent → Option RepositoryWorld
  | none => some repository
  | some e => repository.step e

/-- The world after a section of the call with the number `i`, if the minted UUIDs are fresh. -/
def install (w : ServiceWorld) (i : ℕ) (r : SectionResult InstallerCall) : Option ServiceWorld :=
  if r.minted.Nodup ∧ r.minted.all fun id => !w.minted.contains id then
    (stepJobs w.repository r.jobs).map fun repository =>
      { w with
        repository, sessions := r.sessions, calls := w.calls.set i r.state,
        minted := r.minted ++ w.minted }
  else none

/-- One event; a call goes on by one section at a time. -/
def step (digest : String → String) (w : ServiceWorld) : ServiceEvent → Option ServiceWorld
  | .jobs e =>
    if e.isExternal then (w.repository.step e).map fun repository => { w with repository } else none
  | .registry registry => some { w with registry }
  | .call call => if call.isFresh then some { w with calls := w.calls ++ [call] } else none
  | .advance i input =>
    (w.calls[i]?).bind fun call =>
      (call.advance digest w.registry w.repository.repo w.sessions input).bind (w.install i)

variable {digest : String → String} {w w' : ServiceWorld} {e : ServiceEvent} {i : ℕ}
  {input : SectionInput}

theorem install_eq_some_iff {r : SectionResult InstallerCall} : w.install i r = some w' ↔
    (r.minted.Nodup ∧ ∀ id ∈ r.minted, id ∉ w.minted) ∧
      stepJobs w.repository r.jobs = some w'.repository ∧ w'.registry = w.registry ∧
      w'.sessions = r.sessions ∧ w'.calls = w.calls.set i r.state ∧
      w'.minted = r.minted ++ w.minted := by
  have hfresh : (r.minted.Nodup ∧ (r.minted.all fun id => !w.minted.contains id) = true) ↔
      r.minted.Nodup ∧ ∀ id ∈ r.minted, id ∉ w.minted := by
    simp [List.all_eq_true]
  rw [← hfresh]
  unfold install
  split_ifs with h
  · rw [Option.map_eq_some_iff]
    constructor
    · rintro ⟨repository, hjobs, rfl⟩
      exact ⟨h, hjobs, rfl, rfl, rfl, rfl⟩
    · rintro ⟨-, hjobs, hregistry, hsessions, hcalls, hminted⟩
      exact ⟨w'.repository, hjobs, by rw [← hregistry, ← hsessions, ← hcalls, ← hminted]⟩
  · simp only [h, false_and]

/-- The step of a section: the call with the number `i` runs it, and its result is installed. -/
theorem step_advance_iff : w.step digest (.advance i input) = some w' ↔
    ∃ call r, w.calls[i]? = some call ∧
      call.advance digest w.registry w.repository.repo w.sessions input = some r ∧
      w.install i r = some w' := by
  simp only [step, Option.bind_eq_some_iff]
  constructor
  · rintro ⟨call, hcall, r, hr, hinstall⟩
    exact ⟨call, r, hcall, hr, hinstall⟩
  · rintro ⟨call, r, hcall, hr, hinstall⟩
    exact ⟨call, hcall, r, hr, hinstall⟩

/-- The call on the repository that a step consists of, if it is one. -/
def jobEvent (digest : String → String) (w : ServiceWorld) : ServiceEvent → Option JobEvent
  | .jobs e => some e
  | .registry _ | .call _ => none
  | .advance i input =>
    (w.calls[i]?).bind fun call =>
      (call.advance digest w.registry w.repository.repo w.sessions input).bind SectionResult.jobs

/-- A step is at most one step of the repository. -/
theorem repository_of_step (h : w.step digest e = some w') :
    (w.jobEvent digest e = none ∧ w'.repository = w.repository) ∨
      ∃ jobEvent, w.jobEvent digest e = some jobEvent ∧
        w.repository.step jobEvent = some w'.repository := by
  cases e with
  | jobs e =>
    simp only [step] at h
    split_ifs at h
    obtain ⟨repository, hstep, rfl⟩ := Option.map_eq_some_iff.1 h
    exact Or.inr ⟨e, rfl, hstep⟩
  | registry registry =>
    obtain rfl := Option.some.inj h
    exact Or.inl ⟨rfl, rfl⟩
  | call call =>
    simp only [step] at h
    split_ifs at h
    obtain rfl := Option.some.inj h
    exact Or.inl ⟨rfl, rfl⟩
  | advance i input =>
    obtain ⟨call, r, hcall, hr, hinstall⟩ := step_advance_iff.1 h
    have hevent : w.jobEvent digest (.advance i input) = r.jobs := by simp [jobEvent, hcall, hr]
    obtain ⟨-, hjobs, -⟩ := install_eq_some_iff.1 hinstall
    rw [hevent]
    cases hr : r.jobs with
    | none =>
      rw [hr] at hjobs
      exact Or.inl ⟨rfl, (Option.some.inj hjobs).symm⟩
    | some jobEvent =>
      rw [hr] at hjobs
      exact Or.inr ⟨jobEvent, rfl, hjobs⟩

end ServiceWorld

/-! ### A laboratory -/

/-- The record of the machine of `linuxRequest`. -/
def labRecord : DeviceRecord where
  device :=
    { id := 8, hostname := none, macAddress := "02:1A:2B:3C:4D:5E", ipAddress := "192.0.2.20",
      model := none, serial := none, cpuModel := none, physicalCoreCount := none,
      logicalProcessorCount := 8, memoryBytes := 17179869184, systemDetails := {},
      architecture := .x86_64, bootMode := .uefi, disks := [], lastSeenAt := 0 }
  agentVersion := "0.1.0"
  firstSeenAt := 0
  tokenDigest := ""

/-- The registry of the laboratory. -/
def labRegistry : DeviceRegistry where
  manifestPath := "devices.json"
  devices := [labRecord]
  manifestFile :=
    .complete { schemaVersion := deviceManifestSchemaVersion, devices := [labRecord] }

/-- The image of `linuxRequest`, as the image library prepares it. -/
def labImage : PreparedLinuxIso where
  artifactId := 5
  iso :=
    { canonicalPath := "/images/ubuntu.iso", sizeBytes := 2000000000,
      sha256 := "7804a56a5c7636cc05814736f44139e32920810d3bd51aa099a5df932e754ce9" }
  kernel := { canonicalPath := "/images/vmlinuz", sizeBytes := 14000000, sha256 := "" }
  initrd := { canonicalPath := "/images/initrd", sizeBytes := 70000000, sha256 := "" }
  capability :=
    { architecture := .x86_64, minimumMemoryBytes := 4294967296, minimumDiskBytes := 20000000000 }

/-- The machine asks for an assignment. -/
def labQuery : BootQuery where
  macAddress := "02:1a:2b:3c:4d:5e"
  architecture := "x86_64"
  platform := "efi"
  baseUrl := "http://192.0.2.1:8080"

/-- The secrets of the sessions that are offered by a section with `labInput` and the ids from 10,
and from 20, on, with their SHA-256 digests. -/
def labSecrets : List (String × String) :=
  [("easydeploymesh_installer_0000000000000000000000000000000d0000000000000000000000000000000e",
    "5e881ff0625b19a9bcfa63f232c35190e5228a2777c083be2b66a2e7d289bfcc"),
   ("easydeploymesh_installer_0000000000000000000000000000001700000000000000000000000000000018",
    "a4fd0fd995bd07efa3f8cf23fc6b6d1f8df53b6f1bce8d2e8d38f171d5ad11de")]

/-- SHA-256, on the secrets of the laboratory. -/
def labDigest (token : String) : String :=
  ((labSecrets.find? fun secret => secret.1 == token).map Prod.snd).getD ""

/-- A section at the time `now` that mints the UUIDs from `id` on. -/
def labInput (now : Instant) (id : Uuid) : SectionInput where
  started := now
  now := now
  later := now
  preparation := some labImage
  write := .written
  leaseId := id
  sessionId := id + 1
  attemptId := id + 2
  secret := (id + 3, id + 4)

/-- The guard of the session that was offered with the ids from `id` on. -/
def labGuard (id : Uuid) : GuardCall where
  sessionId := id + 1
  token := generateSecret "easydeploymesh_installer" (id + 3) (id + 4)
  request :=
    { imageSha256 := labImage.iso.sha256
      disks :=
        [{ path := "/dev/sda", model := "SSD 870", serial := some "L-8",
           sizeBytes := 512000000000 }] }

/-- The machine is offered the job of `linuxRequest` by the call with the number `i`. -/
def offerEvents (i : ℕ) (now : Instant) (id : Uuid) : List ServiceEvent :=
  [.call (.discover labQuery .start), .advance i (labInput now id), .advance i (labInput now id),
   .advance i (labInput now id), .advance i (labInput now id)]

/-- The guard of a session is authorized by the call with the number `i`. -/
def guardEvents (i : ℕ) (session : Uuid) (now : Instant) (id : Uuid) : List ServiceEvent :=
  [.call (.authorizeGuard (labGuard session) .start), .advance i (labInput now id),
   .advance i (labInput now id), .advance i (labInput now id), .advance i (labInput now id),
   .advance i (labInput now id)]

/-- The installer of a session reports an event by the call with the number `i`. -/
def reportEvents (i : ℕ) (session : Uuid) (kind : InstallerEventKind) (now : Instant) (id : Uuid) :
    List ServiceEvent :=
  [.call (.reportEvent
    { sessionId := session + 1,
      token := generateSecret "easydeploymesh_installer" (session + 3) (session + 4),
      request := { kind, message := none } } .start),
   .advance i (labInput now id), .advance i (labInput now id)]

/-- The installed system of a session reports its first boot by the call with the number `i`. -/
def firstBootEvents (i : ℕ) (session : Uuid) (now : Instant) (id : Uuid) : List ServiceEvent :=
  [.call (.completeFirstBoot
    { sessionId := session + 1,
      token := generateSecret "easydeploymesh_installer" (session + 3) (session + 4),
      attemptId := session + 2 } .start),
   .advance i (labInput now id), .advance i (labInput now id), .advance i (labInput now id)]

end EasyDeployMesh
