import EasyDeployMesh.Gho.DecodeLimit
import EasyDeployMesh.Service.ImageLibrary.Deployment

/-!
# The inspection of a GHO image

`inspect_native_gho` of `crates/service/src/image_library.rs` opens the files of an image, decodes
every partition of their stream once, and lists those that begin as an NTFS volume. A file is read
whole, or it cannot be read.

## Main definitions

* `EasyDeployMesh.GhoAnalysisSink`: the writer behind a partition that is decoded.
* `EasyDeployMesh.ImageLibrary.inspectNativeGho`: the inspection; `none` is a panic.
* `EasyDeployMesh.GhoPartitionCapability.Describes`: an entry says what a partition is.

## Main results

* `EasyDeployMesh.ImageLibrary.isSome_inspectNativeGho`: the inspection does not panic.
* `EasyDeployMesh.ImageLibrary.mem_partitions_iff`: an image that can be deployed lists exactly its
  NTFS partitions.
-/

namespace EasyDeployMesh

open Foundations Gho

/-! ### The sink -/

/-- What the sink has received, and the first bytes of it. -/
structure GhoAnalysisSink where
  digested : List UInt8
  lead : List UInt8

namespace GhoAnalysisSink

/-- The sink before the first write. -/
def start : GhoAnalysisSink where
  digested := []
  lead := []

/-- The sink behind one write; only the first 512 bytes are kept. -/
def write (sink : GhoAnalysisSink) (bytes : List UInt8) : GhoAnalysisSink where
  digested := sink.digested ++ bytes
  lead :=
    if sink.lead.length < 512 then
      sink.lead ++ bytes.take (min (512 - sink.lead.length) bytes.length)
    else sink.lead

/-- The sink after the bytes. -/
def of (bytes : List UInt8) : GhoAnalysisSink where
  digested := bytes
  lead := bytes.take 512

theorem write_of (received bytes : List UInt8) :
    (of received).write bytes = of (received ++ bytes) := by
  have hlead : (received.take 512).length = min 512 received.length := List.length_take
  rw [write, of, of, mk.injEq]
  refine ⟨rfl, ?_⟩
  dsimp only
  rw [List.take_append]
  split_ifs with hroom
  · rw [← List.take_take, List.take_length]
    congr 2
    omega
  · rw [show 512 - received.length = 0 by omega, List.take_zero, List.append_nil]

/-- The sink does not tell in which parts it has received the bytes. -/
theorem foldl_write (parts : List (List UInt8)) : parts.foldl write start = of parts.flatten := by
  suffices h : ∀ received, parts.foldl write (of received) = of (received ++ parts.flatten) from
    h []
  induction parts with
  | nil =>
    intro received
    rw [List.foldl_nil, List.flatten_nil, List.append_nil]
  | cons part parts ih =>
    intro received
    rw [List.foldl_cons, write_of, ih, List.flatten_cons, List.append_assoc]

end GhoAnalysisSink

/-! ### The inspection -/

namespace ImageLibrary

/-- 16 TiB. -/
def maxGhoExpandedBytes : ℕ := 16 * 1024 ^ 4

/-- `NTFS` and four spaces. -/
def ntfsSignature : List UInt8 := [0x4e, 0x54, 0x46, 0x53, 0x20, 0x20, 0x20, 0x20]

/-- The code under which a refused image is recorded. -/
def nativeGhoErrorCode : Error → String
  | .spannedUnsupported => "spanned_image_unsupported"
  | .spanMismatch => "span_set_mismatch"
  | .encryptedUnsupported => "encrypted_image_unsupported"
  | .unsupportedCompression _ => "compression_unsupported"
  | .partitionCount _ => "partition_scope_unsupported"
  | .expandedLimit => "expanded_size_limit"
  | .io _ => "image_unavailable"
  | .truncated | .invalidMagic | .invalidRecord | .corruptBlock => "invalid_or_corrupt_gho"

/-- The reason why an image is blocked; a panic gives none. -/
def blockedReason : Stop → Option String
  | .error error => some (nativeGhoErrorCode error)
  | .panicked => none

/-- The name under which a compression is recorded. -/
def compressionName : Compression → String
  | .none => "z0"
  | .fast => "z1"
  | .high level => "z" ++ toString level

/-- The record of an image that cannot be deployed. -/
def blocked (reason : String) : GhoImageCapability where
  deployable := false
  compression := none
  expandedSizeBytes := none
  expandedSha256 := none
  partitionCount := none
  sourcePartition := none
  partitions := []
  parserVersion := ghoParserVersion
  blockedReason := some reason

section Inspection

variable (sha256 : List UInt8 → String) (inflate : List UInt8 → Option (List UInt8))

/-- One pass of the loop over the partitions: the entry for an NTFS partition. -/
def inspectPartition (file : List UInt8) (sourcePartition : ℕ) :
    Except (Option String) (Option GhoPartitionCapability) := do
  let (result, written) := decodePartition inflate file sourcePartition maxGhoExpandedBytes
  let sink := GhoAnalysisSink.start.write written
  let (_, expandedSizeBytes) ← result.mapError blockedReason
  if (sink.lead.drop 3).take 8 = ntfsSignature then
    return some
      { sourcePartition := .ofNat sourcePartition, fileSystem := "ntfs",
        expandedSizeBytes := .ofNat expandedSizeBytes, expandedSha256 := sha256 sink.digested }
  else return none

/-- The inspection of the stream of the files. -/
def inspectStream (file : List UInt8) : Except (Option String) GhoImageCapability := do
  let (_, info) ← (parse file).mapError fun error => some (nativeGhoErrorCode error)
  let found ← (List.range' 1 info.partitionCount).mapM (inspectPartition sha256 inflate file)
  let partitions := found.reduceOption
  let selected ← partitions.head?.elim (.error (some "non_ntfs_partition")) .ok
  pure
    { deployable := true
      compression := some (compressionName info.compression)
      expandedSizeBytes := some selected.expandedSizeBytes
      expandedSha256 := some selected.expandedSha256
      partitionCount := some (.ofNat info.partitionCount)
      sourcePartition := some selected.sourcePartition
      partitions
      parserVersion := ghoParserVersion
      blockedReason := none }

/-- The inspection of the files at the paths. -/
def inspectFiles (files : DeploymentFiles) (path : String) (spanPaths : List String) :
    Except (Option String) GhoImageCapability := do
  let opened ← (openFiles files (path :: spanPaths)).mapError fun _ => some "image_unavailable"
  let _ ← (SpanReader.new opened).mapError fun error => some (nativeGhoErrorCode error)
  inspectStream sha256 inflate (flatImage opened)

/-- The record of an inspection; a failed read leaves none. -/
def inspectNativeGho (files : DeploymentFiles) (path : String) (spanPaths : List String) :
    Option GhoImageCapability :=
  match inspectFiles sha256 inflate files path spanPaths with
  | .ok capability => some capability
  | .error reason => reason.map blocked

end Inspection

/-! ### The inspection does not panic -/

section Totality

variable {sha256 : List UInt8 → String} {inflate : List UInt8 → Option (List UInt8)}
  {file : List UInt8} {n limit : ℕ}

private theorem avoids_mapError {ε δ α : Type} {stop : δ} {x : Except ε α} {f : ε → δ}
    (h : ∀ error, x = .error error → f error ≠ stop) :
    Avoids stop (x.mapError f) fun a => x = .ok a := by
  cases x with
  | error error => exact Avoids.failed (h error rfl)
  | ok a => exact Avoids.ok rfl

/-- The calls for the elements of a list avoid a failure that each call avoids. -/
theorem avoids_mapM {ε α β : Type} {stop : ε} {f : α → Except ε β} {l : List α}
    (h : ∀ a, Avoids stop (f a) fun _ => True) : Avoids stop (l.mapM f) fun _ => True := by
  induction l with
  | nil =>
    rw [List.mapM_nil]
    exact Avoids.pure trivial
  | cons a l ih =>
    rw [List.mapM_cons]
    exact (h a).bind fun b _ => ih.bind fun rest _ => Avoids.pure trivial

theorem decodePartition_ne_panicked :
    (decodePartition inflate file n limit).1 ≠ .error .panicked := by
  cases hparse : parse file with
  | error error =>
    rw [decodePartition, hparse]
    rintro ⟨⟩
  | ok result =>
    obtain ⟨partitions, info⟩ := result
    cases hselect : selectPartition partitions info n with
    | error error =>
      rw [decodePartition, hparse]
      simp only [bind, Except.bind, hselect]
      rintro ⟨⟩
    | ok partition =>
      rw [decodePartition_of_parse hparse hselect]
      have hspans : (decodeSpans inflate file info.compression limit partition.spans .start).1 ≠
        .error .panicked := accounted_start.decodeSpans.1
      generalize (decodeSpans inflate file info.compression limit partition.spans .start).1 = r
        at hspans ⊢
      rcases r with reason | _
      · exact fun heq => hspans (congrArg _ (Except.error.inj heq))
      · rintro ⟨⟩

theorem avoids_inspectPartition :
    Avoids none (inspectPartition sha256 inflate file n) fun _ => True := by
  have hdecode : (decodePartition inflate file n maxGhoExpandedBytes).1 ≠ .error .panicked :=
    decodePartition_ne_panicked
  refine (avoids_mapError fun reason hreason => ?_).bind fun r _ => ?_
  · cases reason with
    | error error => exact Option.some_ne_none _
    | panicked => exact absurd hreason hdecode
  · dsimp only
    split_ifs
    · exact Avoids.pure trivial
    · exact Avoids.pure trivial

theorem avoids_inspectFiles {files : DeploymentFiles} {path : String} {spanPaths : List String} :
    Avoids none (inspectFiles sha256 inflate files path spanPaths) fun _ => True := by
  refine (avoids_mapError fun _ _ => Option.some_ne_none _).bind fun opened _ => ?_
  refine (avoids_mapError fun _ _ => Option.some_ne_none _).bind fun reader _ => ?_
  refine (avoids_mapError fun _ _ => Option.some_ne_none _).bind fun parsed _ => ?_
  refine (avoids_mapM fun n => avoids_inspectPartition).bind fun found _ => ?_
  dsimp only
  cases found.reduceOption.head? with
  | none => exact Avoids.failed (Option.some_ne_none _)
  | some selected => exact Avoids.pure trivial

/-- The inspection returns, whatever the files hold. -/
theorem isSome_inspectNativeGho {files : DeploymentFiles} {path : String}
    {spanPaths : List String} :
    (inspectNativeGho sha256 inflate files path spanPaths).isSome = true := by
  have hfiles : Avoids none (inspectFiles sha256 inflate files path spanPaths) fun _ => True :=
    avoids_inspectFiles
  unfold inspectNativeGho
  rcases hinspect : inspectFiles sha256 inflate files path spanPaths with (_ | reason) | capability
  · exact absurd hinspect hfiles.ne_error
  · rfl
  · rfl

end Totality

end ImageLibrary

/-! ### What an inspection lists -/

/-- A volume that begins as NTFS does. -/
def IsNtfs (volume : List UInt8) : Prop := (volume.drop 3).take 8 = ImageLibrary.ntfsSignature

variable (sha256 : List UInt8 → String) (inflate : List UInt8 → Option (List UInt8)) in
/-- The entry is about a partition of the image that decodes to an NTFS volume, with its size and
its digest. -/
structure GhoPartitionCapability.Describes (file : List UInt8) (p : GhoPartitionCapability) :
    Prop where
  fileSystem : p.fileSystem = "ntfs"
  decoded : ∃ info volume, decodePartition inflate file p.sourcePartition.toNat
      ImageLibrary.maxGhoExpandedBytes = (.ok (info, p.expandedSizeBytes.toNat), volume) ∧
    IsNtfs volume ∧ p.expandedSha256 = sha256 volume

namespace ImageLibrary

section Entries

variable {sha256 : List UInt8 → String} {inflate : List UInt8 → Option (List UInt8)}
  {file : List UInt8} {n : ℕ} {p : GhoPartitionCapability} {info : ImageInfo}
  {partitions : List Partition}

/-- The sink keeps enough of a volume to tell its file system. -/
theorem lead_write_start (volume : List UInt8) :
    ((GhoAnalysisSink.start.write volume).lead.drop 3).take 8 = (volume.drop 3).take 8 := by
  have hsink : GhoAnalysisSink.start.write volume = .of volume := GhoAnalysisSink.write_of [] volume
  rw [hsink, GhoAnalysisSink.of, List.drop_take, List.take_take]
  rfl

theorem inspectPartition_eq_some_iff :
    inspectPartition sha256 inflate file n = .ok (some p) ↔
      ∃ info total volume,
        decodePartition inflate file n maxGhoExpandedBytes = (.ok (info, total), volume) ∧
        IsNtfs volume ∧
        p = { sourcePartition := .ofNat n, fileSystem := "ntfs", expandedSizeBytes := .ofNat total,
              expandedSha256 := sha256 volume } := by
  have hdigested : ∀ volume, (GhoAnalysisSink.start.write volume).digested = volume := fun _ => rfl
  unfold inspectPartition
  rcases decodePartition inflate file n maxGhoExpandedBytes with ⟨result, volume⟩
  simp only [bind_eq_ok_iff, mapError_eq_ok_iff, lead_write_start, hdigested, Prod.mk.injEq]
  constructor
  · rintro ⟨⟨info, total⟩, rfl, h⟩
    split_ifs at h with hntfs
    · exact ⟨info, total, volume, ⟨rfl, rfl⟩, hntfs, (Option.some.inj (pure_eq_ok_iff.1 h)).symm⟩
    · exact absurd (pure_eq_ok_iff.1 h) (Option.some_ne_none p).symm
  · rintro ⟨info, total, volume, ⟨rfl, rfl⟩, hntfs, rfl⟩
    refine ⟨(info, total), rfl, ?_⟩
    rw [if_pos (show (volume.drop 3).take 8 = ntfsSignature from hntfs)]
    rfl

theorem partitionCount_of_parse (h : parse file = .ok (partitions, info)) :
    info.partitionCount < 2 ^ 32 := by
  simp only [parse, check_eq_ok_iff, bind_eq_ok_iff, pure_eq_ok_iff, Prod.mk.injEq] at h
  obtain ⟨-, header, -, -, -, -, compression, -, found, -, hcount, -, -, rfl⟩ := h
  exact Nat.lt_of_not_le hcount

theorem le_of_selectPartition {partition : Partition}
    (h : selectPartition partitions info n = .ok partition) : 1 ≤ n ∧ n ≤ info.partitionCount := by
  unfold selectPartition at h
  split_ifs at h with hrange
  omega

/-- The values of the calls for the elements of a list. -/
theorem mem_of_mapM {ε α β : Type} {f : α → Except ε β} {l : List α} {values : List β}
    (h : l.mapM f = .ok values) (b : β) : b ∈ values ↔ ∃ a ∈ l, f a = .ok b := by
  induction l generalizing values with
  | nil =>
    obtain rfl : [] = values := pure_eq_ok_iff.1 h
    simp only [List.not_mem_nil, false_and, exists_false]
  | cons a l ih =>
    rw [List.mapM_cons] at h
    simp only [bind_eq_ok_iff, pure_eq_ok_iff] at h
    obtain ⟨value, hvalue, rest, hrest, rfl⟩ := h
    rw [List.mem_cons, ih hrest, List.exists_mem_cons_iff, hvalue, Except.ok.injEq, eq_comm]

/-- The entries for the partitions of a stream. -/
theorem exists_inspectPartition_iff (h : parse file = .ok (partitions, info)) :
    (∃ n ∈ List.range' 1 info.partitionCount,
      inspectPartition sha256 inflate file n = .ok (some p)) ↔
      p.Describes sha256 inflate file := by
  have hcount := partitionCount_of_parse h
  simp only [List.mem_range'_1, inspectPartition_eq_some_iff]
  constructor
  · rintro ⟨n, ⟨-, hn⟩, found, total, volume, hdecode, hntfs, rfl⟩
    have htotal : total ≤ maxGhoExpandedBytes := (length_of_decodePartition hdecode).2
    have hmax : maxGhoExpandedBytes < 2 ^ 64 := by decide
    refine ⟨rfl, found, volume, ?_, hntfs, rfl⟩
    rw [UInt32.toNat_ofNat_of_lt' (show n < 2 ^ 32 by omega),
      UInt64.toNat_ofNat_of_lt' (show total < 2 ^ 64 by omega)]
    exact hdecode
  · rintro ⟨hsystem, found, volume, hdecode, hntfs, hdigest⟩
    obtain ⟨others, partition, expanded, hparse, hselect, -⟩ := decodePartition_eq_ok_iff.1 hdecode
    obtain ⟨-, rfl⟩ := Prod.mk.inj (Except.ok.inj (h.symm.trans hparse))
    obtain ⟨hpos, hle⟩ := le_of_selectPartition hselect
    refine ⟨p.sourcePartition.toNat, ⟨hpos, by omega⟩, _, _, volume, hdecode, hntfs, ?_⟩
    rw [UInt32.ofNat_toNat, UInt64.ofNat_toNat, ← hsystem, ← hdigest]

/-- An image that can be deployed is one whose stream has an NTFS partition and decodes; the entries
are exactly those of its NTFS partitions. -/
theorem mem_partitions_iff {files : DeploymentFiles} {path : String} {spanPaths : List String}
    {capability : GhoImageCapability}
    (h : inspectNativeGho sha256 inflate files path spanPaths = some capability)
    (hdeployable : capability.deployable = true) :
    ∃ opened, openFiles files (path :: spanPaths) = .ok opened ∧
      capability.parserVersion = ghoParserVersion ∧
      ∀ p, p ∈ capability.partitions ↔ p.Describes sha256 inflate (flatImage opened) := by
  unfold inspectNativeGho at h
  cases hinspect : inspectFiles sha256 inflate files path spanPaths with
  | error reason =>
    rw [hinspect] at h
    obtain ⟨reason, -, rfl⟩ := Option.map_eq_some_iff.1 h
    cases hdeployable
  | ok found =>
    rw [hinspect] at h
    obtain rfl := Option.some.inj h
    simp only [inspectFiles, inspectStream, bind_eq_ok_iff, mapError_eq_ok_iff, elim_eq_ok_iff,
      pure_eq_ok_iff] at hinspect
    obtain ⟨opened, hopened, reader, -, ⟨others, info⟩, hparse, entries, hentries, selected, -,
      rfl⟩ := hinspect
    refine ⟨opened, hopened, rfl, fun p => ?_⟩
    rw [← exists_inspectPartition_iff hparse, ← mem_of_mapM hentries]
    exact List.reduceOption_mem_iff

end Entries

end ImageLibrary

end EasyDeployMesh
