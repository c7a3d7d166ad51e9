import EasyDeployMesh.Gho.SpanReader
import EasyDeployMesh.Service.ImageLibrary

/-!
# Images before their deployment

The checks of `crates/service/src/image_library.rs` that an image passes before it is deployed: the
managed files still have the size and the digest of the catalog, a WIM image has the requested
index, and a GHO image still contains the partitions that were verified at its import. A call reads
the catalog and the file system several times, and either may change in between; each of its
readings is an argument of its own. What is read of a path and the inspection of a GHO image are
part of the readings, and the digest function is a parameter.

## Main definitions

* `EasyDeployMesh.DeploymentFiles`, `EasyDeployMesh.ImageReadings`: what a call reads.
* `EasyDeployMesh.ImageLibrary.revalidateForDeployment`,
  `EasyDeployMesh.ImageLibrary.prepareGhoReadiness`,
  `EasyDeployMesh.ImageLibrary.prepareGhoPartitionDeployment`: the calls.

## Main results

* `EasyDeployMesh.ImageLibrary.downloadSize_of_prepareGhoPartitionDeployment`: the size of the
  stream of a GHO image is the size in the catalog without 512 bytes for each span.
* `EasyDeployMesh.ImageLibrary.expandedSize_of_prepareGhoPartitionDeployment`: the size of the
  expanded partition is the one in the catalog.
-/

namespace EasyDeployMesh

open Foundations Gho

/-- The refusals of an image that is to be deployed. -/
inductive ImagePreparationError
  | imageNotFound (id : Uuid)
  | unsupportedFormat (reason : String)
  | catalogOnlyFormat (id : Uuid) (format : ImageFormat)
  | imageNotVerified (id : Uuid)
  | deployableImageHasSpans (id : Uuid)
  | missingChecksum (id : Uuid)
  | invalidSpanSet (path reason : String)
  | invalidWimContainer (path reason : String)
  | managedFileUnavailable (id : Uuid) (path : String)
  | unmanagedImagePath (id : Uuid) (path : String)
  | managedSizeMismatch (id : Uuid) (expected : UInt64) (actual : ℕ)
  | managedHashMismatch (id : Uuid) (expected actual : String)
  /-- A `ManagedHashMismatch` about the partitions of a GHO image. -/
  | partitionsMismatch (id : Uuid) (expected actual : List GhoPartitionCapability)
  /-- An `UnsupportedFormat` with the text of the error. -/
  | unsupportedSpans (error : Gho.Error)
  | imageIndexOutOfRange (id : Uuid) (requested : UInt32) (imageCount : ℕ)
  | dismValidationFailed (path : String) (requestedIndex : UInt32) (reason : String)
  | read (path : String)
  deriving DecidableEq

/-! ### Readings -/

/-- What a call reads of the file system. -/
structure DeploymentFiles where
  /-- The bytes of a file. -/
  content : String → Option (List UInt8)
  /-- `resolve_managed_file`: the canonical path. -/
  resolveManagedFile : Uuid → String → Except ImagePreparationError String
  /-- `validate_wim_with_dism`. -/
  validateWimWithDism : String → UInt32 → Except ImagePreparationError Unit
  /-- The files in the directory that `resolve_gho_object_directory` finds. -/
  ghoObjectFiles : ImageArtifact → Except ImagePreparationError (List String)
  /-- `discover_ghost_spans`. -/
  discoverGhostSpans : String → List String → Except ImagePreparationError (List String)
  /-- The basename and the canonical path of a primary file or of a span, as `prepare_gho_file`
  accepts them. -/
  ghoFile : ImageArtifact → String → Bool → Except ImagePreparationError (String × String)
  /-- `inspect_native_gho`. -/
  inspectNativeGho : String → List String → GhoImageCapability

/-- What a preparation reads: the catalog and the files, and for a GHO image the catalog again, the
files for its inspection, and the files for the digest of its stream. -/
structure ImageReadings where
  library : ImageLibrary
  files : DeploymentFiles
  lookup : ImageLibrary
  inspected : DeploymentFiles
  streamed : DeploymentFiles

/-! ### What a preparation returns -/

/-- A file of a GHO image with its measured size and digest. -/
structure PreparedGhoImageFile where
  basename : String
  canonicalPath : String
  sizeBytes : ℕ
  sha256 : String
  deriving DecidableEq

/-- The files of a GHO image as they were measured together. -/
structure PreparedGhoImageSet where
  artifactId : Uuid
  primary : PreparedGhoImageFile
  spans : List PreparedGhoImageFile
  totalSizeBytes : ℕ
  imageSetSha256 : String
  deriving DecidableEq

/-- The expanded volume that a lease describes, with the image it comes from. -/
structure PreparedGhoDeployment where
  image : PreparedGhoImageSet
  capability : GhoImageCapability
  downloadSizeBytes : UInt64
  downloadSha256 : String
  deriving DecidableEq

/-! ### WIM images -/

namespace ImageLibrary

/-- The bytes of a WIM file that the check of its header reads. -/
def wimHeaderProbeSize : ℕ := 48

/-- The smallest header that a WIM file may announce. -/
def wimMinHeaderSize : ℕ := 208

/-- The largest header that a WIM file may announce. -/
def wimMaxHeaderSize : ℕ := 4 * 1024

/-- The largest number of images that a WIM file may announce. -/
def wimMaxImageCount : ℕ := 4 * 1024

/-- `MSWIM` and three zeros. -/
def wimSignature : List UInt8 := [0x4d, 0x53, 0x57, 0x49, 0x4d, 0, 0, 0]

/-- The number of images in a container. -/
def validateWimHeader (path : String) (bytes : List UInt8) : Except ImagePreparationError ℕ := do
  if bytes.length < wimHeaderProbeSize then
    .error (.invalidWimContainer path ("header is truncated (need at least " ++
      toString wimHeaderProbeSize ++ " bytes, found " ++ toString bytes.length ++ ")"))
  if bytes.take wimSignature.length ≠ wimSignature then
    .error (.invalidWimContainer path "missing MSWIM signature")
  let headerSize := readLE ((bytes.drop 8).take 4)
  if headerSize < wimMinHeaderSize ∨ wimMaxHeaderSize < headerSize then
    .error (.invalidWimContainer path ("header size " ++ toString headerSize ++ " is outside " ++
      toString wimMinHeaderSize ++ "..=" ++ toString wimMaxHeaderSize))
  if bytes.length < headerSize then
    .error (.invalidWimContainer path ("declared header size " ++ toString headerSize ++
      " exceeds file size " ++ toString bytes.length))
  let imageCount := readLE ((bytes.drop 44).take 4)
  if imageCount = 0 ∨ wimMaxImageCount < imageCount then
    .error (.invalidWimContainer path ("image count " ++ toString imageCount ++
      " is outside 1..=" ++ toString wimMaxImageCount))
  pure imageCount

section Calls

variable (sha256 : List UInt8 → String) (library : ImageLibrary) (files : DeploymentFiles)

/-- The record of a WIM image, once its file is still the verified one. -/
def revalidateForDeployment (id : Uuid) (requestedImageIndex : UInt32) :
    Except ImagePreparationError ImageArtifact := do
  let artifact ← (library.get id).elim (.error (.imageNotFound id)) .ok
  if artifact.format ≠ .wim ∧ artifact.format ≠ .esd then
    .error (.catalogOnlyFormat id artifact.format)
  if !artifact.verified then
    .error (.imageNotVerified id)
  if artifact.spans ≠ [] then
    .error (.deployableImageHasSpans id)
  let expectedSha256 ← artifact.sha256.elim (.error (.missingChecksum id)) .ok
  let managedPath ← files.resolveManagedFile id artifact.sourcePath
  let bytes ← (files.content managedPath).elim (.error (.managedFileUnavailable id managedPath)) .ok
  if bytes.length ≠ artifact.sizeBytes.toNat then
    .error (.managedSizeMismatch id artifact.sizeBytes bytes.length)
  if !Text.eqIgnoreAsciiCase (sha256 bytes) expectedSha256 then
    .error (.managedHashMismatch id expectedSha256 (sha256 bytes))
  let imageCount ← validateWimHeader managedPath bytes
  if requestedImageIndex = 0 ∨ imageCount < requestedImageIndex.toNat then
    .error (.imageIndexOutOfRange id requestedImageIndex imageCount)
  files.validateWimWithDism managedPath requestedImageIndex
  pure artifact

/-! ### GHO images -/

/-- The file at a path of an image and its bytes; the files before it have `total` bytes. -/
def prepareGhoFile (artifact : ImageArtifact) (isPrimary : Bool) (total : ℕ) (path : String) :
    Except ImagePreparationError (PreparedGhoImageFile × List UInt8) := do
  let (basename, canonicalPath) ← files.ghoFile artifact path isPrimary
  let bytes ← (files.content canonicalPath).elim
    (.error (.managedFileUnavailable artifact.id canonicalPath)) .ok
  if 2 ^ 64 ≤ total + bytes.length then
    .error (.invalidSpanSet canonicalPath "managed GHO image set is too large to measure safely")
  pure ({ basename, canonicalPath, sizeBytes := bytes.length, sha256 := sha256 bytes }, bytes)

/-- The spans of an image, measured one after another within the total size. -/
def prepareGhoSpans (artifact : ImageArtifact) :
    ℕ → List String → Except ImagePreparationError (List (PreparedGhoImageFile × List UInt8))
  | _, [] => .ok []
  | total, path :: paths => do
    let (file, bytes) ← prepareGhoFile sha256 files artifact false total path
    let rest ← prepareGhoSpans artifact (total + bytes.length) paths
    pure ((file, bytes) :: rest)

/-- A GHO image whose files are still the verified ones. -/
def prepareGhoReadiness (id : Uuid) : Except ImagePreparationError PreparedGhoImageSet := do
  let artifact ← (library.get id).elim (.error (.imageNotFound id)) .ok
  if artifact.format ≠ .gho then
    .error (.unsupportedFormat ("GHO readiness requires GHO, found " ++ artifact.format.debug ++
      " for image " ++ id.hyphenated))
  let expectedSha256 ← artifact.sha256.elim (.error (.missingChecksum id)) .ok
  let managedFiles ← files.ghoObjectFiles artifact
  let discoveredSpans ← files.discoverGhostSpans artifact.sourcePath managedFiles
  if discoveredSpans ≠ artifact.spans then
    .error (.invalidSpanSet artifact.sourcePath
      "stored GHO span list no longer matches the managed object directory")
  let (primary, primaryBytes) ← prepareGhoFile sha256 files artifact true 0 artifact.sourcePath
  let spans ← prepareGhoSpans sha256 files artifact primaryBytes.length artifact.spans
  let bytes := primaryBytes ++ (spans.map Prod.snd).flatten
  if bytes.length ≠ artifact.sizeBytes.toNat then
    .error (.managedSizeMismatch id artifact.sizeBytes bytes.length)
  if !Text.eqIgnoreAsciiCase (sha256 bytes) expectedSha256 then
    .error (.managedHashMismatch id expectedSha256 (sha256 bytes))
  pure
    { artifactId := id, primary, spans := spans.map Prod.fst, totalSizeBytes := bytes.length,
      imageSetSha256 := sha256 bytes }

/-- The files at the paths, opened one after the other. -/
def openFiles (paths : List String) : Except ImagePreparationError (List (List UInt8)) :=
  paths.mapM fun path => (files.content path).elim (.error (.read path)) .ok

/-- The size and the digest of the stream of the files. The reader returns every byte of it, however
short its reads are. -/
def hashGhoDeploymentStream (primary : String) (spans : List String) :
    Except ImagePreparationError (UInt64 × String) := do
  let opened ← openFiles files (primary :: spans)
  let reader ← (SpanReader.new opened).mapError .unsupportedSpans
  pure (.ofNat reader.total, sha256 (flatImage opened))

end Calls

variable (sha256 : List UInt8 → String)

/-- One partition of a GHO image that is inspected once more and found as recorded. -/
def prepareGhoPartitionDeployment (r : ImageReadings) (id : Uuid) (sourcePartition : UInt32) :
    Except ImagePreparationError PreparedGhoDeployment := do
  let image ← r.library.prepareGhoReadiness sha256 r.files id
  let artifact ← (r.lookup.get id).elim (.error (.imageNotFound id)) .ok
  let expected ← (artifact.ghoCapability.filter GhoImageCapability.deployable).elim
    (.error (.imageNotVerified id)) .ok
  let spanPaths := image.spans.map PreparedGhoImageFile.canonicalPath
  let actual := r.inspected.inspectNativeGho image.primary.canonicalPath spanPaths
  if !actual.deployable ∨ actual.partitions ≠ expected.partitions then
    .error (.partitionsMismatch id expected.partitions actual.partitions)
  let selected ← (actual.partitions.find? fun partition =>
    partition.sourcePartition == sourcePartition).elim
      (.error (.unsupportedFormat ("GHO source partition " ++ toString sourcePartition ++
        " is not a verified NTFS partition"))) .ok
  let capability := { actual with
    sourcePartition := some selected.sourcePartition
    expandedSizeBytes := some selected.expandedSizeBytes
    expandedSha256 := some selected.expandedSha256 }
  let (downloadSizeBytes, downloadSha256) ←
    hashGhoDeploymentStream sha256 r.streamed image.primary.canonicalPath spanPaths
  pure { image, capability, downloadSizeBytes, downloadSha256 }

/-! ### The sizes of a GHO image -/

section Sizes

variable {sha256} {library : ImageLibrary} {files : DeploymentFiles} {artifact : ImageArtifact}
  {id : Uuid} {r : ImageReadings} {sourcePartition : UInt32} {prepared : PreparedGhoDeployment}

theorem openFiles_eq_ok_iff {paths : List String} {opened : List (List UInt8)} :
    openFiles files paths = .ok opened ↔ paths.map files.content = opened.map some := by
  rw [openFiles]
  induction paths generalizing opened with
  | nil =>
    rw [List.mapM_nil, pure_eq_ok_iff, List.map_nil,
      eq_comm (a := ([] : List (Option (List UInt8)))), List.map_eq_nil_iff, eq_comm]
  | cons path paths ih =>
    rw [List.mapM_cons, List.map_cons, eq_comm (b := opened.map some), List.map_eq_cons_iff]
    simp only [bind_eq_ok_iff, pure_eq_ok_iff, elim_eq_ok_iff]
    constructor
    · rintro ⟨bytes, hbytes, rest, hrest, rfl⟩
      exact ⟨bytes, rest, rfl, hbytes.symm, (ih.1 hrest).symm⟩
    · rintro ⟨bytes, rest, rfl, hbytes, hrest⟩
      exact ⟨bytes, hbytes.symm, rest, ih.2 hrest.symm, rfl⟩

/-- The bytes of a prepared file are the content at its canonical path. -/
theorem content_of_prepareGhoFile {isPrimary : Bool} {total : ℕ} {path : String}
    {file : PreparedGhoImageFile × List UInt8}
    (h : prepareGhoFile sha256 files artifact isPrimary total path = .ok file) :
    files.content file.1.canonicalPath = some file.2 := by
  simp only [prepareGhoFile, bind_eq_ok_iff, elim_eq_ok_iff, check_eq_ok_iff, pure_eq_ok_iff] at h
  obtain ⟨names, -, bytes, hbytes, -, rfl⟩ := h
  exact hbytes

theorem content_of_prepareGhoSpans {total : ℕ} {paths : List String}
    {spans : List (PreparedGhoImageFile × List UInt8)}
    (h : prepareGhoSpans sha256 files artifact total paths = .ok spans) :
    spans.length = paths.length ∧
      spans.map (fun span => files.content span.1.canonicalPath) =
        spans.map fun span => some span.2 := by
  induction paths generalizing total spans with
  | nil =>
    obtain rfl : [] = spans := Except.ok.inj h
    exact ⟨rfl, rfl⟩
  | cons path paths ih =>
    simp only [prepareGhoSpans, bind_eq_ok_iff, pure_eq_ok_iff] at h
    obtain ⟨file, hfile, rest, hrest, rfl⟩ := h
    obtain ⟨hlength, hcontent⟩ := ih hrest
    refine ⟨by rw [List.length_cons, List.length_cons, hlength], ?_⟩
    rw [List.map_cons, List.map_cons, hcontent, content_of_prepareGhoFile hfile]

/-- The files of a prepared image are as large as the catalog says. -/
theorem files_of_prepareGhoReadiness {image : PreparedGhoImageSet}
    (hartifact : library.get id = some artifact)
    (h : library.prepareGhoReadiness sha256 files id = .ok image) :
    ∃ primary spans, spans.length = artifact.spans.length ∧
      (image.primary.canonicalPath :: image.spans.map PreparedGhoImageFile.canonicalPath).map
        files.content = (primary :: spans).map some ∧
      (primary :: spans).flatten.length = artifact.sizeBytes.toNat := by
  simp only [prepareGhoReadiness, bind_eq_ok_iff, elim_eq_ok_iff, check_eq_ok_iff, pure_eq_ok_iff,
    not_not] at h
  obtain ⟨found, hfound, -, expected, -, managed, -, discovered, -, -, primary, hprimary, spans,
    hspans, hsize, -, rfl⟩ := h
  obtain rfl := Option.some.inj (hartifact.symm.trans hfound)
  obtain ⟨hlength, hcontent⟩ := content_of_prepareGhoSpans hspans
  refine ⟨primary.2, spans.map Prod.snd, by rw [List.length_map, hlength], ?_, hsize⟩
  simp only [List.map_cons, List.map_map, content_of_prepareGhoFile hprimary]
  exact congrArg _ hcontent

/-- What a preparation finds. -/
theorem of_prepareGhoPartitionDeployment
    (h : prepareGhoPartitionDeployment sha256 r id sourcePartition = .ok prepared) :
    r.library.prepareGhoReadiness sha256 r.files id = .ok prepared.image ∧
      (∃ artifact expected selected, r.lookup.get id = some artifact ∧
        artifact.ghoCapability = some expected ∧
        expected.partitions.find? (fun partition => partition.sourcePartition == sourcePartition) =
          some selected ∧
        prepared.capability.sourcePartition = some selected.sourcePartition ∧
        prepared.capability.expandedSizeBytes = some selected.expandedSizeBytes ∧
        prepared.capability.expandedSha256 = some selected.expandedSha256) ∧
      hashGhoDeploymentStream sha256 r.streamed prepared.image.primary.canonicalPath
        (prepared.image.spans.map PreparedGhoImageFile.canonicalPath) =
          .ok (prepared.downloadSizeBytes, prepared.downloadSha256) := by
  simp only [prepareGhoPartitionDeployment, bind_eq_ok_iff, elim_eq_ok_iff, check_eq_ok_iff,
    pure_eq_ok_iff, not_or, not_not] at h
  obtain ⟨image, himage, artifact, hartifact, expected, hexpected, ⟨-, hpartitions⟩, selected,
    hselected, stream, hstream, rfl⟩ := h
  obtain ⟨hcapability, -⟩ := Option.filter_eq_some_iff.1 hexpected
  rw [hpartitions] at hselected
  exact ⟨himage, ⟨artifact, expected, selected, hartifact, hcapability, hselected, rfl, rfl, rfl⟩,
    hstream⟩

/-- The size of the stream is the size in the catalog without 512 bytes for each span, while the
files keep their bytes. -/
theorem downloadSize_of_prepareGhoPartitionDeployment (hartifact : r.library.get id = some artifact)
    (hfiles : r.streamed.content = r.files.content)
    (h : prepareGhoPartitionDeployment sha256 r id sourcePartition = .ok prepared) :
    prepared.downloadSizeBytes.toNat + 512 * artifact.spans.length = artifact.sizeBytes.toNat := by
  obtain ⟨hready, -, hstream⟩ := of_prepareGhoPartitionDeployment h
  obtain ⟨primary, spans, hlength, hcontent, hsize⟩ := files_of_prepareGhoReadiness hartifact hready
  simp only [hashGhoDeploymentStream, bind_eq_ok_iff, mapError_eq_ok_iff, pure_eq_ok_iff,
    Prod.mk.injEq] at hstream
  obtain ⟨opened, hopened, reader, hreader, hdownload, -⟩ := hstream
  rw [openFiles_eq_ok_iff, hfiles, hcontent] at hopened
  obtain rfl := (List.map_injective_iff.2 (Option.some_injective _)) hopened
  obtain ⟨htotal, hlt⟩ := total_of_new hreader
  rw [← hdownload, UInt64.toNat_ofNat_of_lt' hlt, ← hsize, ← htotal, hlength]
  rfl

/-- The size of the expanded partition is the one that the catalog records for it. -/
theorem expandedSize_of_prepareGhoPartitionDeployment (hartifact : r.lookup.get id = some artifact)
    (h : prepareGhoPartitionDeployment sha256 r id sourcePartition = .ok prepared) :
    prepared.capability.expandedSizeBytes = (artifact.ghoCapability.bind fun capability =>
      capability.partitions.find? fun partition =>
        partition.sourcePartition == sourcePartition).map
      GhoPartitionCapability.expandedSizeBytes := by
  obtain ⟨-, ⟨found, expected, selected, hfound, hexpected, hselected, -, hsize, -⟩, -⟩ :=
    of_prepareGhoPartitionDeployment h
  obtain rfl := Option.some.inj (hartifact.symm.trans hfound)
  rw [hsize, hexpected, Option.bind_some, hselected, Option.map_some]

end Sizes

end ImageLibrary

end EasyDeployMesh
