import EasyDeployMesh.Core.Image
import EasyDeployMesh.Foundations.Arithmetic
import EasyDeployMesh.Foundations.Focus
import EasyDeployMesh.Service.Manifest

/-!
# The image library

`crates/service/src/image_library.rs`: the catalog of the managed images behind a lock, and the
manifest file that holds it. What a call finds in the file system is an argument of the call: the
state of the managed files, the inspection of a staged image, and the outcomes of moving and
removing its directory. The clock reading, the minted UUID and the outcome of the write are
arguments too.

## Main definitions

* `EasyDeployMesh.ImageFileSystem`: what a call reads of the managed files.
* `EasyDeployMesh.ImageLibrary` and its calls `get`, `contains`, `importImage`, `verifyGhoImage` and
  `remove`.
* `EasyDeployMesh.ImageLibrary.openManifest`.

## Main results

* `EasyDeployMesh.ImageLibrary.contains_importImage`,
  `EasyDeployMesh.ImageLibrary.contains_verifyGhoImage`,
  `EasyDeployMesh.ImageLibrary.contains_remove`: no call but its removal takes an image out of the
  catalog.
-/

namespace EasyDeployMesh

open Foundations

/-- `PARSER_VERSION` of `crates/gho`. -/
def ghoParserVersion : UInt32 := 3

/-- The errors of the library. -/
inductive ImageLibraryError
  | imageNotFound (id : Uuid)
  | unsupportedFormat (reason : String)
  /-- The files of the image could not be read, copied or accepted. -/
  | files (reason : String)
  | write (path source : String)
  | invalidManifest
  deriving DecidableEq

/-- The version of the manifest that this host writes. -/
def imageManifestSchemaVersion : UInt32 := 1

/-- The contents of the manifest of the library. -/
structure ImageManifest where
  schemaVersion : UInt32
  images : List ImageArtifact
  deriving DecidableEq

/-- The images behind the lock of the library, and the file at `manifestPath`. -/
structure ImageLibrary where
  manifestPath : String
  images : List ImageArtifact
  manifestFile : ManifestFile ImageManifest
  deriving DecidableEq

/-! ### The managed files -/

/-- What a call reads of the file system. -/
structure ImageFileSystem where
  /-- `Path::file_name`. -/
  fileName : String → Option String
  /-- The size of the file at a path. -/
  fileSize : String → Option UInt64
  /-- `hash_files`. -/
  hashFiles : List String → Option String
  /-- `canonical_path_is_managed`. -/
  canonicalPathIsManaged : String → Bool
  /-- `managed_object_directory`. -/
  managedObjectDirectory : ImageArtifact → Option String
  /-- `managed_installer_assets_match`. -/
  managedInstallerAssetsMatch : ImageArtifact → Bool

/-- The files of an image, its spans included. -/
def artifactFilePaths (image : ImageArtifact) : List String := image.sourcePath :: image.spans

section Files

variable (files : ImageFileSystem) (image : ImageArtifact)

/-- Every file of an image lies in the directory of the library. -/
def artifactPathsAreManaged : Bool :=
  (artifactFilePaths image).all files.canonicalPathIsManaged &&
    image.installerCapability.all fun capability =>
      [capability.kernel, capability.initrd].all fun asset =>
        files.canonicalPathIsManaged asset.path

/-- The files of an image keep their names between staging and the library. -/
def artifactBasenamesMatch (stagedPaths : List String) : Bool :=
  let managedPaths := artifactFilePaths image
  managedPaths.length == stagedPaths.length &&
    (managedPaths.zip stagedPaths).all fun paths =>
      (files.fileName paths.1).isSome && files.fileName paths.1 == files.fileName paths.2

/-- The files of an image keep their sizes between staging and the library. -/
def artifactFileSizesMatch (stagedSizes : List UInt64) : Bool :=
  let managedPaths := artifactFilePaths image
  managedPaths.length == stagedSizes.length &&
    (managedPaths.zip stagedSizes).all fun file => files.fileSize file.1 == some file.2

/-- The managed files have the size and the digest of the record. -/
def managedArtifactMatches : Bool :=
  let paths := artifactFilePaths image
  artifactPathsAreManaged files image &&
    ((paths.mapM files.fileSize).any fun sizes =>
      sizes.foldl saturatingAdd 0 == image.sizeBytes) &&
    image.sha256.any fun expected => (files.hashFiles paths).any fun actual =>
      Text.eqIgnoreAsciiCase actual expected

/-- The image has a format and a capability that can be deployed. -/
def ImageArtifact.hasDeployableFormat : Bool :=
  (image.format == .wim || image.format == .esd) ||
    (image.ghoCapability.any fun capability =>
      capability.deployable && capability.parserVersion == ghoParserVersion) ||
    (image.format == .iso &&
      image.installerCapability.any CatalogInstallerCapability.isSupportedUbuntuServerV1)

/-- The verification of an image whose files or whose capability no longer support it is dropped
when the library is opened. -/
def losesVerification : Bool :=
  image.verified && (!image.hasDeployableFormat || !artifactPathsAreManaged files image)

end Files

/-! ### What an import finds -/

/-- What `import` finds out about the staged copy of an image before it takes the lock. -/
structure StagedInspection where
  name : String
  format : ImageFormat
  sizeBytes : UInt64
  sha256 : String
  stagedPaths : List String
  stagedSizes : List UInt64
  ghoCapability : Option GhoImageCapability

/-- The staged copy after it was moved to its own directory. -/
structure ManagedImage where
  primary : String
  spans : List String
  installerCapability : Option CatalogInstallerCapability

namespace ImageLibrary

variable (library : ImageLibrary)

/-! ### Queries -/

/-- The record of an image. -/
def get (id : Uuid) : Option ImageArtifact := library.images.find? fun image => image.id == id

/-- The library has a record of this image. -/
def contains (id : Uuid) : Bool := library.images.any fun image => image.id == id

/-! ### Persisting -/

/-- Writes the images to the manifest file. -/
def persist (images : List ImageArtifact) (write : WriteOutcome) :
    Except ImageLibraryError Unit × ManifestFile ImageManifest :=
  (write.result.mapError (.write library.manifestPath),
    library.manifestFile.write { schemaVersion := imageManifestSchemaVersion, images } write)

/-- Persists the next images and, when that succeeds, installs them and returns `value`. -/
def commit {α : Type} (nextImages : List ImageArtifact) (value : α) (write : WriteOutcome) :
    Except ImageLibraryError α × ImageLibrary :=
  match library.persist nextImages write with
  | (.ok (), file) => (.ok value, { library with images := nextImages, manifestFile := file })
  | (.error error, file) => (.error error, { library with manifestFile := file })

/-- `open`: the library over the content of the manifest file. The manifest is written again when an
image has lost its verification. -/
def openManifest (files : ImageFileSystem) (manifestPath : String)
    (file : ManifestFile ImageManifest) (write : WriteOutcome) :
    Except ImageLibraryError ImageLibrary × ManifestFile ImageManifest :=
  let opened : Except ImageLibraryError (List ImageArtifact) :=
    match file with
    | .absent => .ok []
    | .complete manifest => .ok manifest.images
    | .truncated => .error .invalidManifest
  match opened with
  | .error error => (.error error, file)
  | .ok stored =>
    let images := stored.map fun image =>
      if losesVerification files image then { image with verified := false } else image
    let library : ImageLibrary := { manifestPath, images, manifestFile := file }
    if stored.any (losesVerification files) then
      match library.persist images write with
      | (.ok (), file) => (.ok { library with manifestFile := file }, file)
      | (.error error, file) => (.error error, file)
    else (.ok library, file)

/-! ### Calls -/

/-- The image of the catalog that an import finds again, and whether its managed files still
match. -/
def matchingImage (files : ImageFileSystem) (inspection : StagedInspection) :
    Option (ImageArtifact × Bool) :=
  library.images.findSome? fun image =>
    if image.format ≠ inspection.format ∨ image.sizeBytes ≠ inspection.sizeBytes ∨
        image.sha256 ≠ some inspection.sha256 ∨
        !artifactBasenamesMatch files image inspection.stagedPaths then none
    else
      let managedMatches := managedArtifactMatches files image &&
        (inspection.format != .iso || files.managedInstallerAssetsMatch image)
      if managedMatches ∧ !artifactFileSizesMatch files image inspection.stagedSizes then none
      else some (image, managedMatches)

/-- The catalog entry of an imported image. -/
def importedArtifact (inspection : StagedInspection) (managed : ManagedImage) (now : Instant)
    (id : Uuid) : ImageArtifact where
  id := id
  name := inspection.name
  format := inspection.format
  sourcePath := managed.primary
  sizeBytes := inspection.sizeBytes
  sha256 := some inspection.sha256
  spans := managed.spans
  verified := inspection.format == .wim || inspection.format == .esd ||
    inspection.ghoCapability.any GhoImageCapability.deployable ||
    managed.installerCapability.any CatalogInstallerCapability.isSupportedUbuntuServerV1
  ghoCapability := inspection.ghoCapability
  installerCapability := managed.installerCapability
  createdAt := now

/-- `import`; `inspection` is what the staged copy contains and `committed` is what moving it to its
own directory gives. `id` is the UUID that is minted when the image is not in the catalog. -/
def importImage (files : ImageFileSystem) (inspection : Except ImageLibraryError StagedInspection)
    (committed : Except ImageLibraryError ManagedImage) (now : Instant) (id : Uuid)
    (write : WriteOutcome) : Except ImageLibraryError ImageArtifact × ImageLibrary :=
  match inspection with
  | .error error => (.error error, library)
  | .ok inspection =>
    match library.matchingImage files inspection, committed with
    | some (existing, true), _ => (.ok existing, library)
    | _, .error error => (.error error, library)
    | matching, .ok managed =>
      let artifact := importedArtifact inspection managed now
        ((matching.map fun found => found.1.id).getD id)
      library.commit ((library.images.filter fun image => image.id != artifact.id) ++ [artifact])
        artifact write

/-- `verify_gho_image`; `inspect` is the native inspection of the managed files. -/
def verifyGhoImage (inspect : ImageArtifact → Except ImageLibraryError GhoImageCapability)
    (id : Uuid) (write : WriteOutcome) : Except ImageLibraryError ImageArtifact × ImageLibrary :=
  match focus (fun image => image.id == id) library.images with
  | none => (.error (.imageNotFound id), library)
  | some (image, put) =>
    if image.format ≠ .gho then
      (.error (.unsupportedFormat "native GHO verification requires a GHO image"), library)
    else match inspect image with
      | .error error => (.error error, library)
      | .ok capability =>
        let updated := { image with
          verified := capability.deployable, ghoCapability := some capability }
        library.commit (put updated) updated write

/-- `cleanup` is what removing the directory of the image gives, if it comes to that. -/
def remove (files : ImageFileSystem) (id : Uuid) (write : WriteOutcome)
    (cleanup : Except ImageLibraryError Unit) : Except ImageLibraryError Bool × ImageLibrary :=
  match library.images.find? fun image => image.id == id with
  | none => (.ok false, library)
  | some removedImage =>
    let nextImages := library.images.filter fun image => image.id != id
    let cleanupDirectory := (files.managedObjectDirectory removedImage).filter fun directory =>
      !nextImages.any fun remaining => files.managedObjectDirectory remaining == some directory
    match library.commit nextImages () write with
    | (.error error, library) => (.error error, library)
    | (.ok (), library) =>
      (if cleanupDirectory.isSome then cleanup.map fun _ => true else .ok true, library)

/-! ### What stays in the catalog -/

section

variable {library} {id id' : Uuid} {files : ImageFileSystem} {write : WriteOutcome}

theorem contains_iff : library.contains id = true ↔ ∃ image ∈ library.images, image.id = id := by
  simp [contains]

theorem contains_of_get {image : ImageArtifact} (h : library.get id = some image) :
    library.contains id = true ∧ image.id = id := by
  have hid : image.id = id := by simpa using List.find?_some h
  exact ⟨contains_iff.2 ⟨image, List.mem_of_find?_eq_some h, hid⟩, hid⟩

/-- A write that fails keeps the images. -/
theorem commit_cases {α : Type} (library : ImageLibrary) (next : List ImageArtifact) (value : α)
    (write : WriteOutcome) :
    (write = .written ∧ ∃ file, library.commit next value write =
        (.ok value, { library with images := next, manifestFile := file })) ∨
      ∃ error file, library.commit next value write =
        (.error error, { library with manifestFile := file }) := by
  cases write with
  | written => exact Or.inl ⟨rfl, _, rfl⟩
  | refused source | interrupted source => exact Or.inr ⟨_, _, rfl⟩

theorem contains_commit {α : Type} {next : List ImageArtifact} {value : α}
    (h : library.contains id = true) (hnext : ∃ image ∈ next, image.id = id) :
    (library.commit next value write).2.contains id = true := by
  rcases library.commit_cases next value write with ⟨-, file, hcommit⟩ | ⟨error, file, hcommit⟩
  · rw [hcommit]
    exact contains_iff.2 hnext
  · rw [hcommit]
    exact h

/-- A new entry replaces the entries with its own id only. -/
private theorem contains_commit_put {α : Type} {artifact : ImageArtifact} {value : α}
    (h : library.contains id = true) :
    (library.commit ((library.images.filter fun image => image.id != artifact.id) ++ [artifact])
      value write).2.contains id = true := by
  refine contains_commit h ?_
  obtain ⟨image, himage, rfl⟩ := contains_iff.1 h
  by_cases hid : image.id = artifact.id
  · exact ⟨artifact, List.mem_append_right _ (List.mem_singleton_self _), hid.symm⟩
  · exact ⟨image, List.mem_append_left _ (List.mem_filter.2 ⟨himage, by simpa using hid⟩), rfl⟩

theorem contains_importImage {inspection : Except ImageLibraryError StagedInspection}
    {committed : Except ImageLibraryError ManagedImage} {now : Instant}
    (h : library.contains id = true) :
    (library.importImage files inspection committed now id' write).2.contains id = true := by
  unfold importImage
  split
  · exact h
  · split
    · exact h
    · exact h
    · exact contains_commit_put h

theorem contains_verifyGhoImage
    {inspect : ImageArtifact → Except ImageLibraryError GhoImageCapability}
    (h : library.contains id = true) :
    (library.verifyGhoImage inspect id' write).2.contains id = true := by
  unfold verifyGhoImage
  split
  · exact h
  · rename_i image put hfocus
    split_ifs
    · exact h
    · split
      · exact h
      · rename_i capability _
        refine contains_commit h ?_
        obtain ⟨other, hother, rfl⟩ := contains_iff.1 h
        have hmap := (Replaces.of_focus hfocus
          { image with verified := capability.deployable, ghoCapability := some capability }).map_eq
            ImageArtifact.id rfl
        have hmem : other.id ∈ library.images.map ImageArtifact.id := List.mem_map_of_mem hother
        rw [← hmap] at hmem
        exact List.mem_map.1 hmem

/-- Removing an image keeps the others. -/
theorem contains_remove {cleanup : Except ImageLibraryError Unit} (h : library.contains id = true)
    (hne : id ≠ id') : (library.remove files id' write cleanup).2.contains id = true := by
  unfold remove
  split
  · exact h
  · obtain ⟨image, himage, rfl⟩ := contains_iff.1 h
    have hcommit : (library.commit (library.images.filter fun image => image.id != id') ()
        write).2.contains image.id = true :=
      contains_commit h ⟨image, List.mem_filter.2 ⟨himage, by simpa using hne⟩, rfl⟩
    dsimp only
    split <;> rename_i heq <;> rw [heq] at hcommit <;> exact hcommit

end

end ImageLibrary

/-! ### An undisturbed directory -/

/-- Every path belongs to the library, and no file is looked at more closely. -/
def managedFiles : ImageFileSystem where
  fileName := some
  fileSize _ := none
  hashFiles _ := none
  canonicalPathIsManaged _ := true
  managedObjectDirectory _ := none
  managedInstallerAssetsMatch _ := false

end EasyDeployMesh
