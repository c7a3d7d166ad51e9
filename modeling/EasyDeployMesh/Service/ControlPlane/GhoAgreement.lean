import EasyDeployMesh.Agent.ExecutionSafety
import EasyDeployMesh.Service.ControlPlane.ClaimJob
import EasyDeployMesh.Service.ImageLibrary.GhoInspection

/-!
# The host and the Agent agree on a GHO image

The host inspects a GHO image before it leases the job, and the Agent decodes the image again while
it restores the partition, under a limit of its own. The Agent finds what the host has found, or the
image in its cache is another one than the stream that the host has hashed, with the same digest.

## Main definitions

* `EasyDeployMesh.AgentGhoDeployment.Describes`: metadata say what a partition of an image is.
* `EasyDeployMesh.Collides`: an image is not the stream of the host, and both have the digest of the
  lease.

## Main results

* `EasyDeployMesh.describes_of_claimJob`: the metadata of a lease describe the stream of the host.
* `EasyDeployMesh.agrees_of_claimJob`: the Agent does not reject the image, and the volume that it
  has restored is an NTFS volume.
-/

namespace EasyDeployMesh

open Foundations Gho ImageLibrary

/-! ### Metadata -/

section Metadata

variable (sha256 : List UInt8 → String) (inflate : List UInt8 → Option (List UInt8))

/-- The stream of the files of an image that `prepare_gho_partition_deployment` hashes. -/
def ImageReadings.stream (readings : ImageReadings) (id : Uuid) :
    Except ImagePreparationError (List UInt8) := do
  let image ← readings.library.prepareGhoReadiness sha256 readings.files id
  let spanPaths := image.spans.map PreparedGhoImageFile.canonicalPath
  let opened ← openFiles readings.streamed (image.primary.canonicalPath :: spanPaths)
  pure (flatImage opened)

/-- The reading of an inspection is what the inspection of these files returns. -/
def DeploymentFiles.Inspects (files : DeploymentFiles) : Prop :=
  ∀ path spanPaths, ImageLibrary.inspectNativeGho sha256 inflate files path spanPaths =
    some (files.inspectNativeGho path spanPaths)

/-- The partition decodes, under a limit of its own size, to an NTFS volume with that size and the
digest. -/
structure AgentGhoDeployment.Describes (image : List UInt8) (gho : AgentGhoDeployment) : Prop where
  parserVersion : gho.parserVersion = ghoParserVersion
  decoded : ∃ info volume, decodePartition inflate image gho.sourcePartition.toNat
      gho.expandedSizeBytes.toNat = (.ok (info, gho.expandedSizeBytes.toNat), volume) ∧
    IsNtfs volume ∧ gho.expandedSha256 = sha256 volume

/-- The image is another one than the stream that the host has hashed for the lease, and both have
the digest of the lease. -/
def Collides (readings : ImageReadings) (lease : AgentJobLease) (image : List UInt8) : Prop :=
  ∃ served, readings.stream sha256 lease.image.id = .ok served ∧ image ≠ served ∧
    Approved sha256 lease image ∧ Approved sha256 lease served

variable {sha256 inflate} {readings : ImageReadings} {lease : AgentJobLease}
  {image volume file : List UInt8} {gho : AgentGhoDeployment}

theorem approved_of_eq (h : lease.image.sha256 = sha256 image) : Approved sha256 lease image := by
  rw [Approved, h]
  exact Text.eqIgnoreAsciiCase_iff.2 rfl

/-- An approved image is the stream that the host has hashed, unless they collide. -/
theorem eq_or_collides (hstream : readings.stream sha256 lease.image.id = .ok file)
    (hfile : lease.image.sha256 = sha256 file) (himage : Approved sha256 lease image) :
    image = file ∨ Collides sha256 readings lease image := by
  by_cases heq : image = file
  · exact Or.inl heq
  · exact Or.inr ⟨file, hstream, heq, himage, approved_of_eq hfile⟩

/-- An entry of the host describes the partition under the limit of the Agent. -/
theorem GhoPartitionCapability.Describes.toDeployment {p : GhoPartitionCapability}
    (h : p.Describes sha256 inflate file) (hpartition : gho.sourcePartition = p.sourcePartition)
    (hsize : gho.expandedSizeBytes = p.expandedSizeBytes)
    (hdigest : gho.expandedSha256 = p.expandedSha256)
    (hversion : gho.parserVersion = ghoParserVersion) : gho.Describes sha256 inflate file := by
  obtain ⟨info, volume, hdecode, hntfs, hvolume⟩ := h.decoded
  have hle : p.expandedSizeBytes.toNat ≤ maxGhoExpandedBytes :=
    (length_of_decodePartition hdecode).2
  refine ⟨hversion, info, volume, ?_, hntfs, hdigest.trans hvolume⟩
  rw [hpartition, hsize]
  exact (decodePartition_eq_ok_iff_of_le hle).2 ⟨hdecode, Nat.le_refl _⟩

/-- An image that its metadata describe is not rejected. -/
theorem AgentGhoDeployment.Describes.not_mismatch {error : ExecutionError}
    (h : gho.Describes sha256 inflate image) :
    ¬ RestoreMismatch sha256 inflate gho image error := by
  obtain ⟨info, volume, hdecode, -, hdigest⟩ := h.decoded
  intro hmismatch
  cases hmismatch with
  | parserVersion hversion => exact hversion h.parserVersion
  | gho hreason =>
    rw [hdecode] at hreason
    cases hreason
  | size hother hsize =>
    rw [hdecode] at hother
    obtain ⟨hresult, -⟩ := Prod.mk.inj hother
    exact hsize (Prod.mk.inj (Except.ok.inj hresult)).2.symm
  | digest hother hsha256 =>
    rw [hdecode] at hother
    obtain ⟨-, rfl⟩ := Prod.mk.inj hother
    rw [hdigest, Text.eqIgnoreAsciiCase_iff.2 rfl] at hsha256
    cases hsha256

theorem AgentGhoDeployment.Describes.isNtfs (h : gho.Describes sha256 inflate image)
    (hrestored : Restored sha256 inflate gho image volume) : IsNtfs volume := by
  obtain ⟨info, decoded, hdecode, hntfs, -⟩ := h.decoded
  obtain ⟨other, hother⟩ := hrestored.decoded
  rw [hdecode] at hother
  obtain ⟨-, rfl⟩ := Prod.mk.inj hother
  exact hntfs

end Metadata

/-! ### The lease -/

section Lease

variable {digest : String → String} {sha256 : List UInt8 → String}
  {inflate : List UInt8 → Option (List UInt8)} {request : ClaimRequest} {r : ClaimReadings}
  {lease : AgentJobLease} {gho : AgentGhoDeployment}

/-- The metadata of a prepared image describe its stream, while the files keep their bytes. -/
theorem describes_of_prepareGhoPartitionDeployment {readings : ImageReadings} {id : Uuid}
    {sourcePartition : UInt32} {prepared : PreparedGhoDeployment}
    (h : prepareGhoPartitionDeployment sha256 readings id sourcePartition = .ok prepared)
    (hmetadata : agentGhoDeployment prepared.capability = .ok gho)
    (hinspects : readings.inspected.Inspects sha256 inflate)
    (hfiles : readings.streamed.content = readings.inspected.content) :
    ∃ served, readings.stream sha256 id = .ok served ∧ prepared.downloadSha256 = sha256 served ∧
      gho.Describes sha256 inflate served := by
  simp only [prepareGhoPartitionDeployment, hashGhoDeploymentStream, bind_eq_ok_iff, elim_eq_ok_iff,
    check_eq_ok_iff, mapError_eq_ok_iff, pure_eq_ok_iff, not_or, Bool.not_eq_true',
    Bool.not_eq_false] at h
  obtain ⟨image, hready, artifact, -, expected, -, ⟨hdeployable, -⟩, selected, hselected, stream,
    ⟨served, hserved, reader, -, rfl⟩, rfl⟩ := h
  simp only [agentGhoDeployment, bind_eq_ok_iff, elim_eq_ok_iff, pure_eq_ok_iff,
    Option.some.injEq, exists_eq_left'] at hmetadata
  have hstream : readings.stream sha256 id = .ok (flatImage served) :=
    bind_eq_ok_iff.2 ⟨image, hready, bind_eq_ok_iff.2 ⟨served, hserved, rfl⟩⟩
  obtain ⟨opened, hopened, hversion, hentries⟩ := mem_partitions_iff (hinspects _ _) hdeployable
  rw [openFiles_eq_ok_iff] at hopened hserved
  rw [hfiles, hopened] at hserved
  obtain rfl := List.map_injective_iff.2 (Option.some_injective _) hserved
  obtain rfl := hmetadata
  exact ⟨_, hstream, rfl, ((hentries selected).1 (List.mem_of_find?_eq_some hselected)).toDeployment
    rfl rfl rfl hversion⟩

/-- A lease of a GHO deployment has metadata, and they describe the stream that the host has
hashed. -/
theorem describes_of_claimJob (hclaim : (claimJob digest sha256 request r).1 = .ok (some lease))
    (hinspects : r.preparation.inspected.Inspects sha256 inflate)
    (hfiles : r.preparation.streamed.content = r.preparation.inspected.content) :
    (lease.operation = .deployGho → lease.gho ≠ none) ∧
      ∀ gho, lease.gho = some gho → ∃ served,
        r.preparation.stream sha256 lease.image.id = .ok served ∧
          lease.image.sha256 = sha256 served ∧ gho.Describes sha256 inflate served := by
  obtain ⟨deviceId, job, -, hanswer⟩ := selects_of_claimJob hclaim
  obtain ⟨-, hoperation, -, -, image, himage, hid, hdownload⟩ := of_answerLease hanswer
  have hjob := List.find?_some himage
  rw [beq_iff_eq] at hjob
  unfold downloadOf at hdownload
  split_ifs at hdownload with hgho
  · simp only [bind_eq_ok_iff, mapError_eq_ok_iff, pure_eq_ok_iff, Prod.mk.injEq] at hdownload
    obtain ⟨prepared, hprepared, metadata, hmetadata, hsome, -, hsha256⟩ := hdownload
    obtain ⟨served, hstream, hserved, hdescribes⟩ :=
      describes_of_prepareGhoPartitionDeployment hprepared hmetadata hinspects hfiles
    rw [← hsome, ← hsha256, hid, hjob]
    refine ⟨fun _ => Option.some_ne_none _, fun gho heq => ⟨served, hstream, hserved, ?_⟩⟩
    rwa [← Option.some.inj heq]
  · simp only [bind_eq_ok_iff, pure_eq_ok_iff, Prod.mk.injEq] at hdownload
    obtain ⟨checksum, -, hnone, -⟩ := hdownload
    rw [← hnone]
    exact ⟨fun hdeploy => absurd (hoperation.symm.trans hdeploy) hgho, fun gho heq => by cases heq⟩

/-- Whatever the Agent is answered, it does not reject the GHO image of a lease or its metadata, and
a volume that it has restored is an NTFS volume, unless the image in its cache collides with the
stream of the host. -/
theorem agrees_of_claimJob (hclaim : (claimJob digest sha256 request r).1 = .ok (some lease))
    (hinspects : r.preparation.inspected.Inspects sha256 inflate)
    (hfiles : r.preparation.streamed.content = r.preparation.inspected.content)
    (disks : List Disk) (server deviceToken : String) (answers : List ExecutionAnswer) :
    (∀ error t, execute sha256 inflate lease disks server deviceToken (.start, answers) =
        .error (.failed error) t →
      error.isGho = false ∨ Collides sha256 r.preparation lease t.1.image) ∧
    ∀ t, execute sha256 inflate lease disks server deviceToken (.start, answers) = .ok () t →
      lease.operation = .deployGho →
      IsNtfs t.1.volume ∨ Collides sha256 r.preparation lease t.1.image := by
  obtain ⟨hcomplete, hdescribes⟩ := describes_of_claimJob hclaim hinspects hfiles
  refine ⟨fun error t hrun => ?_, fun t hrun hoperation => ?_⟩
  · cases hgho : error.isGho with
    | false => exact Or.inl rfl
    | true =>
      refine Or.inr ?_
      cases rejects_of_execute hrun hgho with
      | metadata hoperation hnone => exact absurd hnone (hcomplete hoperation)
      | restoration hsome happroved hmismatch =>
        obtain ⟨served, hstream, hserved, hdescribed⟩ := hdescribes _ hsome
        refine (eq_or_collides hstream hserved happroved).resolve_left ?_
        rintro rfl
        exact hdescribed.not_mismatch hmismatch
  · have hdeployed := ensures_execute.of_eq_ok hrun
    obtain ⟨gho, hsome⟩ := Option.ne_none_iff_exists'.1 (hcomplete hoperation)
    obtain ⟨served, hstream, hserved, hdescribed⟩ := hdescribes gho hsome
    have hrestored := hdeployed.restored gho hoperation hsome
    refine (eq_or_collides hstream hserved hdeployed.approved).imp_left ?_
    rintro rfl
    exact hdescribed.isNtfs hrestored

end Lease

/-! ### The image of the laboratory -/

/-- The entry for the volume. -/
def labPartition : GhoPartitionCapability where
  sourcePartition := 1
  fileSystem := "ntfs"
  expandedSizeBytes := 11
  expandedSha256 := "31d8233ca5e09344616973de6908c8eb0d6b6792d6aac6950e44b92ad796fb52"

/-- The files of the image, with an inspection that is carried out. -/
def inspectedFiles : DeploymentFiles :=
  { labFiles with
    inspectNativeGho path spanPaths :=
      if path = labArtifact.sourcePath ∧ spanPaths = [] then labCapability
      else (ImageLibrary.inspectNativeGho labSha256 (fun _ => none) labFiles path
        spanPaths).getD labCapability }

/-- The readings of a call that finds the GHO image of the example as it was inspected. -/
def inspectedReadings : ClaimReadings :=
  { lostReadings with preparation := { labReadings with inspected := inspectedFiles } }

private theorem length_labGhoImage : labGhoImage.length < 2 ^ 64 := by
  rw [labGhoImage, image, List.length_append, length_imageHead]
  decide

private theorem parse_labGhoImage :
    parse labGhoImage = .ok ([{ spans := [(dataStart, dataStart + 13)] }],
      { compression := .none, partitionCount := 1, sourcePartition := 1, encrypted := false,
        spanned := false }) := by
  have hfound : firstHeader [labVolume] = some (13, { kind := 0x0023, bodyLen := 0 }) := by decide
  exact parse_image_of_endRecord hfound (by decide) length_labGhoImage

private theorem decodePartition_labGhoImage :
    decodePartition (fun _ => none) labGhoImage 1 maxGhoExpandedBytes =
      (.ok ({ compression := .none, partitionCount := 1, sourcePartition := 1, encrypted := false,
              spanned := false }, 11), labVolume) := by
  have hdrop : labGhoImage.drop dataStart = frame labVolume ++ recordBytes 0x0023 0 :=
    (drop_image 0 [labVolume]).trans (by decide)
  have hstep : blockStep (fun _ => none) labGhoImage .none maxGhoExpandedBytes (dataStart + 13)
      dataStart .start = .ok (some (dataStart + 13, Progress.start.push labVolume)) :=
    blockStep_frame hdrop (by decide) (by decide) (by decide) List.length_replicate (by decide)
      (by decide)
  have hspan : decodeSpan (fun _ => none) labGhoImage .none maxGhoExpandedBytes (dataStart + 13)
      dataStart .start = (.ok (), Progress.start.push labVolume) := by
    rw [decodeSpan_eq, hstep]
    exact decodeSpan_end (by decide)
  rw [decodePartition_of_parse parse_labGhoImage rfl, decodeSpans, hspan]
  rfl

private theorem inspectStream_labGhoImage :
    inspectStream labSha256 (fun _ => none) labGhoImage = .ok labCapability := by
  have hpartition : inspectPartition labSha256 (fun _ => none) labGhoImage 1 =
      .ok (some labPartition) :=
    inspectPartition_eq_some_iff.2 ⟨_, _, _, decodePartition_labGhoImage, rfl, rfl⟩
  have hentries : [1].mapM (inspectPartition labSha256 (fun _ => none) labGhoImage) =
      .ok [some labPartition] := by
    rw [List.mapM_cons, hpartition]
    rfl
  exact bind_eq_ok_iff.2 ⟨_, mapError_eq_ok_iff.2 parse_labGhoImage, bind_eq_ok_iff.2
    ⟨_, hentries, rfl⟩⟩

private theorem inspectNativeGho_labFiles :
    ImageLibrary.inspectNativeGho labSha256 (fun _ => none) labFiles labArtifact.sourcePath [] =
      some labCapability := by
  have hopened : openFiles labFiles [labArtifact.sourcePath] = .ok [labGhoImage] := rfl
  obtain ⟨reader, hreader⟩ := exists_ok_of_isSome_toOption (show
    (SpanReader.new [labGhoImage]).toOption.isSome = true by decide +kernel)
  have hflat : flatImage [labGhoImage] = labGhoImage :=
    (flatImage_cons labGhoImage []).trans (List.append_nil _)
  have hfiles : inspectFiles labSha256 (fun _ => none) labFiles labArtifact.sourcePath [] =
      .ok labCapability := by
    refine bind_eq_ok_iff.2 ⟨_, mapError_eq_ok_iff.2 hopened, bind_eq_ok_iff.2
      ⟨reader, mapError_eq_ok_iff.2 hreader, ?_⟩⟩
    rw [hflat]
    exact inspectStream_labGhoImage
  rw [ImageLibrary.inspectNativeGho, hfiles]

private theorem inspects_inspectedFiles :
    inspectedFiles.Inspects labSha256 fun _ => none := by
  intro path spanPaths
  show ImageLibrary.inspectNativeGho labSha256 (fun _ => none) labFiles path spanPaths =
    some (if path = labArtifact.sourcePath ∧ spanPaths = [] then labCapability
      else (ImageLibrary.inspectNativeGho labSha256 (fun _ => none) labFiles path
        spanPaths).getD labCapability)
  split_ifs with hpath
  · rw [hpath.1, hpath.2]
    exact inspectNativeGho_labFiles
  · have hsome : (ImageLibrary.inspectNativeGho labSha256 (fun _ => none) labFiles path
        spanPaths).isSome = true := isSome_inspectNativeGho
    obtain ⟨capability, hcapability⟩ := Option.isSome_iff_exists.1 hsome
    rw [hcapability]
    rfl

private theorem claimJob_inspectedReadings :
    (claimJob deviceDigest labSha256 labClaim inspectedReadings).1.toOption.join.map
      (fun lease => (lease.operation, lease.image.sha256)) =
      some (.deployGho, "9e484614c096157a32b3a4b89020d59a74b8d4361a4bea4580b6606bb9100419") := by
  decide +kernel

/-- The digest of the image of the laboratory is that of no other image. -/
private theorem not_collides_of_labGhoImage {lease : AgentJobLease} {readings : ImageReadings}
    {image : List UInt8} (h : lease.image.sha256 =
      "9e484614c096157a32b3a4b89020d59a74b8d4361a4bea4580b6606bb9100419") :
    ¬ Collides labSha256 readings lease image := by
  have hsole : ∀ image, Approved labSha256 lease image → image = labGhoImage := by
    intro image happroved
    by_contra hne
    rw [Approved, h, labSha256, if_neg hne] at happroved
    split_ifs at happroved
    · exact absurd happroved (by decide)
    · exact absurd happroved (by decide)
  rintro ⟨served, -, hne, himage, hserved⟩
  exact hne ((hsole image himage).trans (hsole served hserved).symm)

/-- Whatever the machine is answered, it does not reject the image of the laboratory. -/
theorem agrees_of_inspectedReadings : ∃ lease,
    (claimJob deviceDigest labSha256 labClaim inspectedReadings).1 = .ok (some lease) ∧
      lease.operation = .deployGho ∧
      (∀ image, ¬ Collides labSha256 inspectedReadings.preparation lease image) ∧ ∀ answers,
      (∀ error t, execute labSha256 (fun _ => none) lease [physicalDisk] "http://10.0.0.1"
        "token" (.start, answers) = .error (.failed error) t → error.isGho = false) ∧
      ∀ t, execute labSha256 (fun _ => none) lease [physicalDisk] "http://10.0.0.1" "token"
        (.start, answers) = .ok () t → lease.operation = .deployGho → IsNtfs t.1.volume := by
  obtain ⟨lease, hlease, hvalues⟩ := Option.map_eq_some_iff.1 claimJob_inspectedReadings
  obtain ⟨hoperation, hdigest⟩ := Prod.mk.inj hvalues
  have hclaim : (claimJob deviceDigest labSha256 labClaim inspectedReadings).1 =
      .ok (some lease) := toOption_eq_some_iff.1 (Option.join_eq_some_iff.1 hlease)
  have hsole : ∀ image, ¬ Collides labSha256 inspectedReadings.preparation lease image :=
    fun _ => not_collides_of_labGhoImage hdigest
  refine ⟨lease, hclaim, hoperation, hsole, fun answers => ?_⟩
  obtain ⟨haccepted, hrestored⟩ := agrees_of_claimJob hclaim inspects_inspectedFiles rfl
    [physicalDisk] "http://10.0.0.1" "token" answers
  exact ⟨fun error t hrun => (haccepted error t hrun).resolve_right (hsole _),
    fun t hrun hgho => (hrestored t hrun hgho).resolve_right (hsole _)⟩

end EasyDeployMesh
