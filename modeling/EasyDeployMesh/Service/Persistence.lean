import EasyDeployMesh.Foundations.Network
import EasyDeployMesh.Service.DeviceRegistry.World
import EasyDeployMesh.Service.ImageLibrary
import EasyDeployMesh.Service.JobRepository.Effect

/-!
# Interrupted writes of the manifests

The three stores write their manifests with `fs::write`, which truncates the file before it writes
the text. When a write fails or the process ends in the middle, the file holds a part of the text.
Opening such a file again fails unless the part is the whole text; the records are never lost
otherwise.

A manifest is written and read by `serde_json`, which stands here as a pair of functions; what is
used of it is that it reads a text back that it has written, and that it reads no manifest from a
proper part of such a text, since the text is one JSON object and ends with its last byte.

## Main definitions

* `EasyDeployMesh.SerdeJson`, `EasyDeployMesh.SerdeJson.Reads`: the texts of the manifests.
* `EasyDeployMesh.PersistFault`: where a write of the text stops.
* `EasyDeployMesh.ManifestStore`: a store with one manifest; `EasyDeployMesh.JobRepository.store`,
  `EasyDeployMesh.DeviceRegistry.store`, `EasyDeployMesh.ImageLibrary.store`.
* `EasyDeployMesh.ManifestStore.CrashSafe`: opening the manifest again gives the records before the
  call or the records after it, and those in memory after an error.

## Main results

* `EasyDeployMesh.ManifestStore.crashSafe_iff`: a call is safe against a fault exactly when the
  fault leaves the old text or the whole new text in the file.
* `EasyDeployMesh.crashSafe_iff_harmless`: the same for every call of the three stores.
-/

namespace EasyDeployMesh

open Foundations

/-! ### The text of a manifest -/

/-- `serde_json::to_vec_pretty` and `serde_json::from_slice` for the manifests of a store. -/
structure SerdeJson (α : Type) where
  toVecPretty : α → List UInt8
  fromSlice : List UInt8 → Option α

namespace SerdeJson

variable {α : Type} (json : SerdeJson α)

/-- The text of the manifest is read back, and nothing is read from a proper part of it. -/
structure Reads (manifest : α) : Prop where
  whole : json.fromSlice (json.toVecPretty manifest) = some manifest
  part : ∀ n < (json.toVecPretty manifest).length,
    json.fromSlice ((json.toVecPretty manifest).take n) = none

/-- `serde_json` on one manifest and its text. -/
def single [DecidableEq α] (text : List UInt8) (manifest : α) : SerdeJson α where
  toVecPretty _ := text
  fromSlice bytes := if bytes = text then some manifest else none

theorem reads_single [DecidableEq α] (text : List UInt8) (manifest : α) :
    (single text manifest).Reads manifest where
  whole := if_pos rfl
  part n hn := if_neg fun heq => by
    have hlength := congrArg List.length heq
    rw [List.length_take] at hlength
    have hn : n < text.length := hn
    omega

/-- What a store finds in its file. -/
def content (file : Option (List UInt8)) : ManifestFile α :=
  match file with
  | none => .absent
  | some text => ((json.fromSlice text).map ManifestFile.complete).getD .truncated

end SerdeJson

/-- A write of a manifest that does not come to its end. -/
inductive PersistFault
  /-- `fs::write` fails before it touches the file. -/
  | refused (source : String)
  /-- `fs::write` truncates the file, writes the first `n` bytes and fails. -/
  | failed (n : ℕ) (source : String)
  /-- The process ends before the file is touched. -/
  | stoppedBefore
  /-- The file is truncated, the first `n` bytes are written, and the process ends. -/
  | stopped (n : ℕ)

namespace PersistFault

/-- The file after the fault. -/
def leaves (text : List UInt8) (file : Option (List UInt8)) : PersistFault → Option (List UInt8)
  | refused _ | stoppedBefore => file
  | failed n _ | stopped n => some (text.take n)

/-- What `fs::write` returns, if the process goes on. -/
def reported : PersistFault → Option WriteOutcome
  | refused source => some (.refused source)
  | failed _ source => some (.interrupted source)
  | stoppedBefore | stopped _ => none

/-- The file holds the old text, or the whole new text; an error that is reported in spite of the
whole text must be about the same records. -/
def Harmless (text : List UInt8) (unchanged : Prop) : PersistFault → Prop
  | refused _ | stoppedBefore => True
  | stopped n => text.length ≤ n
  | failed n _ => text.length ≤ n ∧ unchanged

end PersistFault

/-! ### A store with one manifest -/

/-- A store `σ` keeps records `ρ` in memory and a manifest `α` in its file; `opens` is the part of
`open` that reads the manifest. -/
structure ManifestStore (σ ρ α : Type) where
  records : σ → List ρ
  manifestFile : σ → ManifestFile α
  manifest : List ρ → α
  opens : ManifestFile α → Option (List ρ)

namespace ManifestStore

variable {σ ρ α : Type} (P : ManifestStore σ ρ α) (json : SerdeJson α)

/-- The file holds the records of the store. -/
def InStep (file : Option (List UInt8)) (s : σ) : Prop :=
  (file = none ∧ P.manifestFile s = .absent ∧ P.records s = []) ∨
    (file = some (json.toVecPretty (P.manifest (P.records s))) ∧
      P.manifestFile s = .complete (P.manifest (P.records s)) ∧
      json.Reads (P.manifest (P.records s)))

/-- The text that the call `op` writes. -/
def text (op : WriteOutcome → σ) : List UInt8 :=
  json.toVecPretty (P.manifest (P.records (op .written)))

@[simp] theorem text_single [DecidableEq α] (text : List UInt8) (m : α) (op : WriteOutcome → σ) :
    P.text (.single text m) op = text := rfl

/-- After the fault, the manifest opens with the records before the call or with the records after
it; and when an error was reported, with the records in memory. -/
def CrashSafe (file : Option (List UInt8)) (s : σ) (op : WriteOutcome → σ) (fault : PersistFault) :
    Prop :=
  let reopened := P.opens (json.content (fault.leaves (P.text json op) file))
  (reopened = some (P.records s) ∨ reopened = some (P.records (op .written))) ∧
    ∀ outcome, fault.reported = some outcome → reopened = some (P.records (op outcome))

/-- The call comes to the point where it writes the manifest. -/
def Persists (op : WriteOutcome → σ) : Prop :=
  ∃ source, P.manifestFile (op (.interrupted source)) = .truncated

/-- What `open` makes of the records. -/
structure OpensOn (l : List ρ) : Prop where
  absent : P.opens .absent = some []
  complete : P.opens (.complete (P.manifest l)) = some l
  truncated : P.opens .truncated = none

variable {P json} {file : Option (List UInt8)} {s : σ} {op : WriteOutcome → σ}
  {fault : PersistFault}

theorem InStep.opens_content (h : P.InStep json file s) (hopens : P.OpensOn (P.records s)) :
    P.opens (json.content file) = some (P.records s) := by
  rcases h with ⟨rfl, -, hnil⟩ | ⟨rfl, -, hreads⟩
  · rw [hnil]
    exact hopens.absent
  · simpa [SerdeJson.content, hreads.whole] using hopens.complete

section Text

variable {l : List ρ} {n : ℕ} (hopens : P.OpensOn l) (hreads : json.Reads (P.manifest l))

include hopens hreads

theorem opens_content_take_of_lt (hn : n < (json.toVecPretty (P.manifest l)).length) :
    P.opens (json.content (some ((json.toVecPretty (P.manifest l)).take n))) = none := by
  simpa [SerdeJson.content, hreads.part n hn] using hopens.truncated

theorem opens_content_take_of_le (hn : (json.toVecPretty (P.manifest l)).length ≤ n) :
    P.opens (json.content (some ((json.toVecPretty (P.manifest l)).take n))) = some l := by
  rw [List.take_of_length_le hn]
  simpa [SerdeJson.content, hreads.whole] using hopens.complete

end Text

/-- A call is safe against a fault exactly when the fault leaves the old text or the whole new text
in the file. -/
theorem crashSafe_iff (hopens : P.OpensOn (P.records s))
    (hopens' : P.OpensOn (P.records (op .written))) (hstep : P.InStep json file s)
    (hreads : json.Reads (P.manifest (P.records (op .written))))
    (hmemory : ∀ write, write ≠ .written → P.records (op write) = P.records s) :
    P.CrashSafe json file s op fault ↔
      fault.Harmless (P.text json op) (P.records (op .written) = P.records s) := by
  have hold := hstep.opens_content hopens
  unfold CrashSafe text
  cases fault with
  | refused source =>
    simp only [PersistFault.leaves, PersistFault.reported, PersistFault.Harmless, hold, true_or,
      true_and, Option.some.injEq, iff_true]
    rintro _ rfl
    exact (hmemory _ (by simp)).symm
  | stoppedBefore =>
    simp [PersistFault.leaves, PersistFault.reported, PersistFault.Harmless, hold]
  | failed n source =>
    simp only [PersistFault.leaves, PersistFault.reported, PersistFault.Harmless,
      Option.some.injEq, forall_eq',
      hmemory _ (by simp : WriteOutcome.interrupted source ≠ .written)]
    rcases lt_or_ge n (json.toVecPretty (P.manifest (P.records (op .written)))).length with hn | hn
    · simp [opens_content_take_of_lt hopens' hreads hn, hn]
    · simp [opens_content_take_of_le hopens' hreads hn, hn]
  | stopped n =>
    simp only [PersistFault.leaves, PersistFault.reported, PersistFault.Harmless, reduceCtorEq,
      false_imp_iff, implies_true, and_true]
    rcases lt_or_ge n (json.toVecPretty (P.manifest (P.records (op .written)))).length with hn | hn
    · simp [opens_content_take_of_lt hopens' hreads hn, hn]
    · simp [opens_content_take_of_le hopens' hreads hn, hn]

end ManifestStore

/-! ### The three stores -/

/-- The job repository as a store of records behind a manifest. -/
def JobRepository.store : ManifestStore JobRepository DeploymentJob JobManifest where
  records := JobRepository.jobs
  manifestFile := JobRepository.manifestFile
  manifest jobs := { schemaVersion := manifestSchemaVersion, jobs }
  opens file := (openManifest "" file).toOption.map JobRepository.jobs

/-- The registry as a store of records behind a manifest. -/
def DeviceRegistry.store : ManifestStore DeviceRegistry DeviceRecord DeviceManifest where
  records := DeviceRegistry.devices
  manifestFile := DeviceRegistry.manifestFile
  manifest devices := { schemaVersion := deviceManifestSchemaVersion, devices }
  opens file := (openManifest "" file).toOption.map DeviceRegistry.devices

/-- `files` and `write` are what `open` finds in the file system and what becomes of the write that
it may make itself. -/
def ImageLibrary.store (files : ImageFileSystem) (write : WriteOutcome) :
    ManifestStore ImageLibrary ImageArtifact ImageManifest where
  records := ImageLibrary.images
  manifestFile := ImageLibrary.manifestFile
  manifest images := { schemaVersion := imageManifestSchemaVersion, images }
  opens file := (openManifest files "" file write).1.toOption.map ImageLibrary.images

/-- The same call with another outcome of its write. -/
def JobEvent.withWrite (write : WriteOutcome) : JobEvent → JobEvent
  | create request now id _ => create request now id write
  | enqueue request now id _ => enqueue request now id write
  | transition id nextState now _ => transition id nextState now write
  | leaseForDeviceIf deviceId duration isEligible now leaseId _ =>
    leaseForDeviceIf deviceId duration isEligible now leaseId write
  | markInstallerBooting jobId deviceId imageId now _ =>
    markInstallerBooting jobId deviceId imageId now write
  | leaseInstallerJob jobId deviceId imageId duration now leaseId _ =>
    leaseInstallerJob jobId deviceId imageId duration now leaseId write
  | reportInstallerProgress jobId deviceId leaseId leaseDuration stage progressPercent message
      started now later _ =>
    reportInstallerProgress jobId deviceId leaseId leaseDuration stage progressPercent message
      started now later write
  | completeInstaller jobId deviceId leaseId succeeded errorMessage now later _ =>
    completeInstaller jobId deviceId leaseId succeeded errorMessage now later write
  | reportProgress jobId deviceId leaseDuration progress started now later _ =>
    reportProgress jobId deviceId leaseDuration progress started now later write
  | authorizedLease jobId deviceId leaseId now => authorizedLease jobId deviceId leaseId now
  | complete jobId deviceId leaseId succeeded errorMessage now later _ =>
    complete jobId deviceId leaseId succeeded errorMessage now later write
  | renewControlLease jobId deviceId leaseId duration now _ =>
    renewControlLease jobId deviceId leaseId duration now write
  | remove id _ => remove id write
  | reopen => reopen
  | idle now => idle now

/-- The same call with another outcome of its write. -/
def RegistryEvent.withWrite (write : WriteOutcome) : RegistryEvent → RegistryEvent
  | register inventory ipAddress now secret id _ =>
    register inventory ipAddress now secret id write
  | heartbeat id deviceToken inventory ipAddress now _ =>
    heartbeat id deviceToken inventory ipAddress now write
  | remove id _ => remove id write

/-- A call that changes the images. -/
inductive ImageCall
  | importImage (files : ImageFileSystem) (inspection : Except ImageLibraryError StagedInspection)
      (committed : Except ImageLibraryError ManagedImage) (now : Instant) (id : Uuid)
  | verifyGhoImage (inspect : ImageArtifact → Except ImageLibraryError GhoImageCapability)
      (id : Uuid)
  | remove (files : ImageFileSystem) (id : Uuid) (cleanup : Except ImageLibraryError Unit)

/-- The repository after the call when its write has the given outcome. -/
def JobEvent.after (repo : JobRepository) (e : JobEvent) (write : WriteOutcome) : JobRepository :=
  ((e.withWrite write).apply repo).getD repo

/-- The registry after the call when its write has the given outcome. -/
def RegistryEvent.after (digest : String → String) (registry : DeviceRegistry) (e : RegistryEvent)
    (write : WriteOutcome) : DeviceRegistry :=
  ((e.withWrite write).apply digest registry).2

/-- The library behind a call. -/
def ImageCall.apply (library : ImageLibrary) (write : WriteOutcome) : ImageCall → ImageLibrary
  | importImage files inspection committed now id =>
    (library.importImage files inspection committed now id write).2
  | verifyGhoImage inspect id => (library.verifyGhoImage inspect id write).2
  | remove files id cleanup => (library.remove files id write cleanup).2

/-! ### What a failing call keeps in memory -/

section Memory

variable {write : WriteOutcome} (hwrite : write ≠ .written)

include hwrite

namespace JobRepository

variable {repo : JobRepository}

theorem jobs_commit_of_ne {α : Type} (jobs : List DeploymentJob) (value : α) :
    (repo.commit jobs value write).2.jobs = repo.jobs := by
  cases write with
  | written => exact absurd rfl hwrite
  | refused source | interrupted source => rfl

theorem jobs_editJob_of_ne (id : Uuid)
    (edit : DeploymentJob → Except JobRepositoryError DeploymentJob) :
    (repo.editJob id edit write).2.jobs = repo.jobs := by
  unfold editJob
  split
  · rfl
  · split
    · rfl
    · exact jobs_commit_of_ne hwrite _ _

theorem jobs_insert_of_ne (request : CreateDeploymentJob) (initialState : JobState) (now : Instant)
    (id : Uuid) : (repo.insert request initialState now id write).2.jobs = repo.jobs := by
  unfold insert
  split
  · rfl
  · split
    · dsimp only
      split_ifs
      · rfl
      · exact jobs_commit_of_ne hwrite _ _
    · rfl

/-- A call whose write does not succeed keeps the jobs in memory. -/
theorem jobs_withWrite_of_ne (e : JobEvent) (hmirrored : repo.Mirrored) :
    (e.after repo write).jobs = repo.jobs := by
  cases e with
  | create request now id =>
    simp only [JobEvent.after, JobEvent.withWrite, JobEvent.apply, Option.getD_some, create]
    exact jobs_insert_of_ne hwrite request .draft now id
  | enqueue request now id =>
    simp only [JobEvent.after, JobEvent.withWrite, JobEvent.apply, Option.getD_some, enqueue]
    exact jobs_insert_of_ne hwrite request .waiting now id
  | transition id nextState now => exact jobs_editJob_of_ne hwrite id _
  | leaseForDeviceIf deviceId duration isEligible now leaseId =>
    simp only [JobEvent.after, JobEvent.withWrite, JobEvent.apply, Option.getD_some,
      leaseForDeviceIf]
    split
    · rfl
    · split
      · rfl
      · exact jobs_commit_of_ne hwrite _ _
  | markInstallerBooting jobId deviceId imageId now => exact jobs_editJob_of_ne hwrite jobId _
  | leaseInstallerJob jobId deviceId imageId duration now leaseId =>
    exact jobs_editJob_of_ne hwrite jobId _
  | reportInstallerProgress jobId deviceId leaseId leaseDuration stage progressPercent =>
    simp only [JobEvent.after, JobEvent.withWrite, JobEvent.apply, Option.getD_some,
      reportInstallerProgress, updateInstallerJob]
    split_ifs
    · rfl
    · exact jobs_editJob_of_ne hwrite jobId _
  | completeInstaller jobId =>
    simp only [JobEvent.after, JobEvent.withWrite, JobEvent.apply, Option.getD_some,
      completeInstaller, updateInstallerJob]
    exact jobs_editJob_of_ne hwrite jobId _
  | reportProgress jobId deviceId leaseDuration progress =>
    simp only [JobEvent.after, JobEvent.withWrite, JobEvent.apply, Option.getD_some, reportProgress,
      updateLeasedJob]
    split_ifs
    · rfl
    · exact jobs_editJob_of_ne hwrite jobId _
  | authorizedLease | idle => rfl
  | complete jobId =>
    simp only [JobEvent.after, JobEvent.withWrite, JobEvent.apply, Option.getD_some, complete,
      updateLeasedJob]
    exact jobs_editJob_of_ne hwrite jobId _
  | renewControlLease jobId deviceId leaseId duration now =>
    simp only [JobEvent.after, JobEvent.withWrite, JobEvent.apply, Option.getD_some,
      renewControlLease]
    split
    · rfl
    · split
      · rfl
      · split_ifs
        · rfl
        · exact jobs_commit_of_ne hwrite _ _
  | remove id =>
    simp only [JobEvent.after, JobEvent.withWrite, JobEvent.apply, Option.getD_some, remove]
    split
    · rfl
    · split_ifs
      · rfl
      · exact jobs_commit_of_ne hwrite _ _
  | reopen =>
    simp only [JobEvent.after, JobEvent.withWrite, JobEvent.apply]
    cases hopen : openManifest repo.manifestPath repo.manifestFile with
    | error error => rfl
    | ok repo' => exact congrArg jobs (hmirrored.openManifest_eq hopen)

end JobRepository

/-- A call whose write does not succeed keeps the records in memory. -/
theorem DeviceRegistry.devices_withWrite_of_ne {registry : DeviceRegistry}
    (digest : String → String) (e : RegistryEvent) :
    (e.after digest registry write).devices = registry.devices := by
  rcases @RegistryEvent.apply_cases digest registry (e.withWrite write) with
    ⟨-, heq⟩ | hedge
  · exact heq
  · -- every edge belongs to a write that succeeds
    generalize ((e.withWrite write).apply digest registry).1 = outcome,
      ((e.withWrite write).apply digest registry).2.devices = devices' at hedge
    cases e <;> simp only [RegistryEvent.withWrite] at hedge <;> cases hedge <;>
      exact absurd rfl hwrite

namespace ImageLibrary

variable {library : ImageLibrary}

theorem images_commit_of_ne {α : Type} (images : List ImageArtifact) (value : α) :
    (library.commit images value write).2.images = library.images := by
  cases write with
  | written => exact absurd rfl hwrite
  | refused source | interrupted source => rfl

/-- A call whose write does not succeed keeps the images in memory. -/
theorem images_apply_of_ne (call : ImageCall) :
    (call.apply library write).images = library.images := by
  cases call with
  | importImage files inspection committed now id =>
    simp only [ImageCall.apply, importImage]
    split
    · rfl
    · split
      · rfl
      · rfl
      · exact images_commit_of_ne hwrite _ _
  | verifyGhoImage inspect id =>
    simp only [ImageCall.apply, verifyGhoImage]
    split
    · rfl
    · split_ifs
      · rfl
      · split
        · rfl
        · exact images_commit_of_ne hwrite _ _
  | remove files id cleanup =>
    simp only [ImageCall.apply, remove]
    split
    · rfl
    · have hcommit := @images_commit_of_ne write hwrite library Unit
        (library.images.filter fun image => image.id != id) ()
      split <;> rename_i heq <;> rw [heq] at hcommit <;> exact hcommit

end ImageLibrary

end Memory

/-! ### Every call of the three stores -/

theorem JobRepository.opensOn (jobs : List DeploymentJob) : store.OpensOn jobs := ⟨rfl, rfl, rfl⟩

theorem DeviceRegistry.opensOn (devices : List DeviceRecord) : store.OpensOn devices :=
  ⟨rfl, rfl, rfl⟩

/-- `open` gives the images back when it drops no verification. -/
theorem ImageLibrary.opensOn {files : ImageFileSystem} {images : List ImageArtifact}
    (write : WriteOutcome) (hkeeps : ∀ image ∈ images, losesVerification files image = false) :
    (store files write).OpensOn images where
  absent := rfl
  complete := by
    have hsame : (images.map fun image =>
        if losesVerification files image then { image with verified := false } else image) =
          images := by
      refine (List.map_congr_left fun image himage => ?_).trans (List.map_id images)
      rw [hkeeps image himage]
      rfl
    have hnone : images.any (losesVerification files) = false := by
      simpa using hkeeps
    simp only [store, openManifest, hsame, hnone]
    rfl
  truncated := rfl

/-- For every call of the job repository, the device registry and the image library that comes to
its write: the call is safe against a fault of the write if and only if the fault leaves the old
text or the whole new text in the manifest. -/
theorem crashSafe_iff_harmless (fault : PersistFault) :
    (∀ (json : SerdeJson JobManifest) (file : Option (List UInt8)) (repo : JobRepository)
      (e : JobEvent), JobRepository.store.InStep json file repo →
      JobRepository.store.Persists (e.after repo) →
      json.Reads (JobRepository.store.manifest (e.after repo .written).jobs) →
      (JobRepository.store.CrashSafe json file repo (e.after repo) fault ↔
        fault.Harmless (JobRepository.store.text json (e.after repo))
          ((e.after repo .written).jobs = repo.jobs))) ∧
    (∀ (digest : String → String) (json : SerdeJson DeviceManifest) (file : Option (List UInt8))
      (registry : DeviceRegistry) (e : RegistryEvent),
      DeviceRegistry.store.InStep json file registry →
      DeviceRegistry.store.Persists (e.after digest registry) →
      json.Reads (DeviceRegistry.store.manifest (e.after digest registry .written).devices) →
      (DeviceRegistry.store.CrashSafe json file registry (e.after digest registry) fault ↔
        fault.Harmless (DeviceRegistry.store.text json (e.after digest registry))
          ((e.after digest registry .written).devices = registry.devices))) ∧
    ∀ (files : ImageFileSystem) (write : WriteOutcome) (json : SerdeJson ImageManifest)
      (file : Option (List UInt8)) (library : ImageLibrary) (call : ImageCall),
      (∀ image ∈ library.images ++ (call.apply library .written).images,
        losesVerification files image = false) →
      (ImageLibrary.store files write).InStep json file library →
      (ImageLibrary.store files write).Persists (fun write => call.apply library write) →
      json.Reads ((ImageLibrary.store files write).manifest (call.apply library .written).images) →
      ((ImageLibrary.store files write).CrashSafe json file library
          (fun write => call.apply library write) fault ↔
        fault.Harmless ((ImageLibrary.store files write).text json
            fun write => call.apply library write)
          ((call.apply library .written).images = library.images)) := by
  refine ⟨?_, ?_, ?_⟩
  · intro json file repo e hstep _ hreads
    refine ManifestStore.crashSafe_iff (JobRepository.opensOn _) (JobRepository.opensOn _) hstep
      hreads fun write hwrite => JobRepository.jobs_withWrite_of_ne hwrite e ?_
    rcases hstep with ⟨-, hfile, hjobs⟩ | ⟨-, hfile, -⟩
    · exact Or.inr (Or.inr ⟨hfile, hjobs⟩)
    · exact Or.inr (Or.inl hfile)
  · intro digest json file registry e hstep _ hreads
    exact ManifestStore.crashSafe_iff (DeviceRegistry.opensOn _) (DeviceRegistry.opensOn _) hstep
      hreads fun write hwrite => DeviceRegistry.devices_withWrite_of_ne hwrite digest e
  · intro files write json file library call hkeeps hstep _ hreads
    refine ManifestStore.crashSafe_iff (ImageLibrary.opensOn write fun image himage => ?_)
      (ImageLibrary.opensOn write fun image himage => ?_) hstep hreads
      fun write hwrite => ImageLibrary.images_apply_of_ne hwrite call
    · exact hkeeps image (List.mem_append_left _ himage)
    · exact hkeeps image (List.mem_append_right _ himage)

/-! ### The first import into an empty library -/

/-- The import of a WIM image. -/
def firstImport : ImageCall :=
  .importImage managedFiles
    (.ok { name := "Windows 11", format := .wim, sizeBytes := 5000000000
           sha256 := "6ca13d52ca70c883e0f0bb101e425a89e8624de51db2d2392593af6a84118090"
           stagedPaths := ["install.wim"], stagedSizes := [5000000000], ghoCapability := none })
    (.ok { primary := "images/9/install.wim", spans := [], installerCapability := none }) 0 9

/-- A library without images. -/
def emptyLibrary : ImageLibrary where
  manifestPath := "images.json"
  images := []
  manifestFile := .absent

/-- The text of the manifest after the import. -/
def firstImportText : List UInt8 :=
  stringBytes (Text.unlines
      ["\x7b", "  \"schemaVersion\": 1,", "  \"images\": [", "    \x7b",
        "      \"id\": \"00000000-0000-0000-0000-000000000009\",",
        "      \"name\": \"Windows 11\",", "      \"format\": \"wim\",",
        "      \"sourcePath\": \"images/9/install.wim\",", "      \"sizeBytes\": 5000000000,",
        "      \"sha256\": \"6ca13d52ca70c883e0f0bb101e425a89e8624de51db2d2392593af6a84118090\",",
        "      \"spans\": [],", "      \"verified\": true,",
        "      \"createdAt\": \"1970-01-01T00:00:00Z\"", "    \x7d", "  ]"] ++ "\x7d")

/-- `serde_json` on this manifest. -/
def firstImportJson : SerdeJson ImageManifest :=
  .single firstImportText
    { schemaVersion := 1, images := (firstImport.apply emptyLibrary .written).images }

/-- A write that stops after the file was truncated leaves a manifest that does not open. -/
theorem crashSafe_fails_of_stopped :
    ¬ (ImageLibrary.store managedFiles .written).CrashSafe firstImportJson none emptyLibrary
      (fun write => firstImport.apply emptyLibrary write) (.stopped 0) := by
  have hcontent : firstImportJson.content (some (firstImportText.take 0)) = .truncated := by
    have hne : [] ≠ firstImportText := by decide +kernel
    simp [SerdeJson.content, firstImportJson, SerdeJson.single, hne]
  intro hsafe
  simp only [ManifestStore.CrashSafe, PersistFault.leaves] at hsafe
  have hreopens := hsafe.1
  rw [firstImportJson, ManifestStore.text_single, ← firstImportJson, hcontent] at hreopens
  rcases hreopens with hopens | hopens <;> cases hopens

theorem crashSafe_iff_harmless_firstImport :
    (ImageLibrary.store managedFiles .written).CrashSafe firstImportJson none emptyLibrary
      (fun write => firstImport.apply emptyLibrary write) (.stopped firstImportText.length) := by
  refine ((crashSafe_iff_harmless (.stopped firstImportText.length)).2.2 managedFiles .written
    firstImportJson none emptyLibrary firstImport ?_ (Or.inl ⟨rfl, rfl, rfl⟩) ⟨"", ?_⟩
    (SerdeJson.reads_single _ _)).2 ?_
  · decide
  · decide
  · rw [firstImportJson, ManifestStore.text_single]
    exact le_rfl

end EasyDeployMesh
