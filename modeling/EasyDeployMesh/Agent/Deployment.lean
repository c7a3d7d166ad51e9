import EasyDeployMesh.Core.Job

/-!
# Preparing a deployment on the Agent

The part of `crates/agent/src/deployment.rs` that decides whether a leased deployment is carried
out: the disk is found again by its fingerprint, and the DiskPart scripts are written before
anything destructive happens.

## Main definitions

* `EasyDeployMesh.matchingDisk`, `EasyDeployMesh.physicalDriveNumber`,
  `EasyDeployMesh.prepareLayout`.

## Main results

* `EasyDeployMesh.exists_matchingDisk_iff`, `EasyDeployMesh.exists_prepareLayout_iff`: when the
  Agent accepts the disk and the plan.
-/

namespace EasyDeployMesh

open Foundations

/-- The refusals of `prepare_layout`. -/
inductive DeploymentError
  | diskNotPresent
  | fingerprintChanged
  | partitionPlan (source : PartitionPlanError)
  | imageIndex
  | recoveryUnsupported
  | capacity (source : PartitionCapacityError)
  | windowsPayloadCapacity (source : WindowsPayloadCapacityError)
  | notPhysicalDrive
  | driveNumber
  | noRemainingPartition
  | dataPartitionsNotLast
  | partitionNumber
  | unsupportedFormat
  /-- The call panics at an overflow. -/
  | overflow
  deriving DecidableEq

/-- The scripts of a lease and the places that the later steps of a deployment read from it. -/
structure PreparedLayout where
  prepareScript : String
  cleanupScript : String
  imagePath : String
  firmware : String
  diskNumber : UInt32
  windowsPartition : UInt32
  deriving DecidableEq

/-! ### The disk -/

/-- The disk of the target, found by its identifier and then held against its fingerprint. -/
def matchingDisk (lease : AgentJobLease) (disks : List Disk) : Except DeploymentError Disk :=
  match disks.find? (fun disk => Text.eqIgnoreAsciiCase disk.id lease.target.targetDiskId) with
  | none => .error .diskNotPresent
  | some disk => if !lease.target.matchesDisk disk then .error .fingerprintChanged else .ok disk

/-- The number at the end of the name of a physical drive. -/
def physicalDriveNumber (id : String) : Except DeploymentError UInt32 :=
  match Text.stripPrefix "\\\\.\\physicaldrive" (Text.toAsciiLowercase (Text.trim id)) with
  | none => .error .notPhysicalDrive
  | some digits => (Text.parseU32 digits).elim (.error .driveNumber) .ok

/-! ### The layout -/

/-- The checks of `prepare_layout` that come before the disk number. -/
def checkPlan (lease : AgentJobLease) (disk : Disk) : Except DeploymentError Unit := do
  lease.partitionPlan.validate.mapError .partitionPlan
  if lease.image.index = 0 then .error .imageIndex
  if lease.partitionPlan.partitions.any (fun partition => partition.role == .recovery) then
    .error .recoveryUnsupported
  (lease.partitionPlan.validateCapacity disk.sizeBytes lease.image.sizeBytes).mapError .capacity
  match lease.gho with
  | none => .ok ()
  | some gho =>
    (lease.partitionPlan.validateWindowsPayloadCapacity disk.sizeBytes lease.image.sizeBytes
      gho.expandedSizeBytes).mapError .windowsPayloadCapacity

/-- The space that the remaining partition takes. -/
def remainingMib (lease : AgentJobLease) (disk : Disk) : Option UInt64 := do
  let fixedMib ← checkedSum lease.partitionPlan.fixedSizes
  let rest ← checkedSub (disk.sizeBytes / mibBytes) fixedMib
  let rest ← checkedSub rest (PartitionPlan.cacheMib lease.image.sizeBytes)
  checkedSub rest partitionAlignmentHeadroomMib

namespace PartitionPlan

variable (plan : PartitionPlan)

/-- The system, Windows and cache partitions and the data partitions exceed four primary ones. -/
def usesMbrExtendedPartition : Bool :=
  plan.table == .mbr && 4 < plan.partitions.countP (fun partition => partition.role == .data) + 3

/-- No other partition comes after a data partition. -/
def dataPartitionsLast : Bool :=
  (plan.partitions.dropWhile fun partition => partition.role != .data).all fun partition =>
    partition.role == .data

end PartitionPlan

/-- The name that `format` takes for a file system. -/
def PartitionFileSystem.diskpartName : PartitionFileSystem → String
  | fat32 => "fat32"
  | ntfs => "ntfs"

/-- What the loop over the partitions has written and noted. -/
structure LayoutState where
  script : List String
  windowsPartition : UInt32
  createdExtendedPartition : Bool

/-- `u32::try_from`. -/
def partitionNumber (n : ℕ) : Except DeploymentError UInt32 :=
  if n < 2 ^ 32 then .ok (UInt32.ofNat n) else .error .partitionNumber

/-- The lines that assign a letter to a partition. -/
def assignLines (table : PartitionTable) (partition : PartitionSpec) : List String :=
  match partition.role with
  | .efi => ["assign letter=S"]
  | .system => (if table = .mbr then ["active"] else []) ++ ["assign letter=S"]
  | .windows => ["assign letter=W"]
  | .data =>
    let letter := (partition.driveLetter.getD 'D').toUpper
    [s!"assign letter={letter}"]
  | .msr | .recovery => []

/-- One pass of the loop over the partitions. -/
def layoutPartition (plan : PartitionPlan) (remainingMib : UInt64) (state : LayoutState)
    (entry : PartitionSpec × ℕ) : Except DeploymentError LayoutState :=
  let (partition, index) := entry
  let windowsPartition := if partition.role = .windows then partitionNumber (index + 1)
    else .ok state.windowsPartition
  windowsPartition.map fun windowsPartition =>
    let logical := plan.usesMbrExtendedPartition && partition.role == .data
    let extendedLines := if logical && !state.createdExtendedPartition then
      ["create partition extended"] else []
    let partitionKind := if logical then "logical"
      else match partition.role with
        | .efi => "efi"
        | .msr => "msr"
        | _ => "primary"
    let size := partition.sizeMib.getD remainingMib
    let createLine := s!"create partition {partitionKind} size={size}"
    let formatLines := match partition.fileSystem with
      | none => []
      | some fileSystem =>
        ["format quick fs=" ++ fileSystem.diskpartName ++ " label=\"" ++ partition.label ++ "\""]
    { script := state.script ++ extendedLines ++ [createLine] ++ formatLines ++
        assignLines plan.table partition
      windowsPartition
      createdExtendedPartition := state.createdExtendedPartition || logical }

/-- The name of the image file. -/
def imageExtension : ImageFormat → Except DeploymentError String
  | .wim => .ok "wim"
  | .esd => .ok "esd"
  | .gho => .ok "gho"
  | .swm | .iso => .error .unsupportedFormat

/-- The layout of a lease on the disk that the inventory of the Agent has for its target. -/
def prepareLayout (lease : AgentJobLease) (disk : Disk) :
    Except DeploymentError PreparedLayout := do
  let plan := lease.partitionPlan
  checkPlan lease disk
  let diskNumber ← physicalDriveNumber disk.id
  let remaining ← plan.remainingPartition.elim (.error .noRemainingPartition) .ok
  let remainingMib ← (remainingMib lease disk).elim (.error .overflow) .ok
  if plan.usesMbrExtendedPartition && !plan.dataPartitionsLast then .error .dataPartitionsNotLast
  let state ← plan.partitions.zipIdx.foldlM (layoutPartition plan remainingMib)
    { script := [s!"select disk {diskNumber}", "clean",
        "convert " ++ match plan.table with
          | .gpt => "gpt"
          | .mbr => "mbr"]
      windowsPartition := 0
      createdExtendedPartition := false }
  let cachePartitionKind := if plan.usesMbrExtendedPartition then "logical" else "primary"
  let cacheMib := PartitionPlan.cacheMib lease.image.sizeBytes
  let extendLetter := if remaining.role = .data then remaining.driveLetter.getD 'D' else 'W'
  let extension ← imageExtension lease.image.format
  pure
    { prepareScript := Text.unlines (state.script ++
        [s!"create partition {cachePartitionKind} size={cacheMib}",
         "format quick fs=ntfs label=\"EasyDeployMesh Cache\"", "assign letter=R", "exit"])
      cleanupScript := Text.unlines
        [s!"select disk {diskNumber}", "select volume R", "delete volume",
         s!"select volume {extendLetter}", "extend", "exit"]
      imagePath := "R:\\EasyDeployMesh\\image." ++ extension
      firmware := match plan.table with
        | .gpt => "UEFI"
        | .mbr => "BIOS"
      diskNumber
      windowsPartition := state.windowsPartition }

/-! ### When the Agent accepts -/

section

variable {lease : AgentJobLease} {disks : List Disk} {disk : Disk} {plan : PartitionPlan}

theorem matchingDisk_eq_ok_iff : matchingDisk lease disks = .ok disk ↔
    disks.find? (fun disk => Text.eqIgnoreAsciiCase disk.id lease.target.targetDiskId) = some disk ∧
      lease.target.matchesDisk disk = true := by
  unfold matchingDisk
  split
  · rename_i hfind
    simp [hfind]
  · rename_i found hfind
    rw [hfind, Option.some.injEq]
    split_ifs with hmatches
    · simp only [false_iff, not_and]
      rintro rfl
      simpa using hmatches
    · simp only [Except.ok.injEq, iff_self_and]
      rintro rfl
      simpa using hmatches

/-- The remaining partition of a plan of the required form. -/
theorem exists_remainingPartition (h : plan.validate = .ok ()) :
    ∃ partition, plan.remainingPartition = some partition := by
  have hone := PartitionPlan.hasOneRemaining_of_validate h
  unfold PartitionPlan.hasOneRemaining at hone
  split at hone
  · rename_i partition hfilter
    have hmem : partition ∈ plan.partitions.filter fun partition => partition.sizeMib.isNone := by
      rw [hfilter]
      exact List.mem_cons_self
    obtain ⟨hpartition, hnone⟩ := List.mem_filter.1 hmem
    exact Option.isSome_iff_exists.1 (List.find?_isSome.2 ⟨partition, hpartition, hnone⟩)
  · simp at hone

/-- A disk with enough capacity has space for the remaining partition. -/
theorem exists_remainingMib
    (h : lease.partitionPlan.validateCapacity disk.sizeBytes lease.image.sizeBytes = .ok ()) :
    ∃ size, remainingMib lease disk = some size := by
  have hfits := PartitionPlan.fits_of_validateCapacity h
  have hlt := (disk.sizeBytes / mibBytes).toNat_lt
  obtain ⟨fixedMib, hfixed, hfixed'⟩ := exists_checkedSum (l := lease.partitionPlan.fixedSizes)
    (by omega)
  obtain ⟨rest, hrest, hrest'⟩ := exists_checkedSub (a := disk.sizeBytes / mibBytes)
    (b := fixedMib) (by omega)
  obtain ⟨rest₂, hrest₂, hrest₂'⟩ := exists_checkedSub (a := rest)
    (b := PartitionPlan.cacheMib lease.image.sizeBytes) (by omega)
  obtain ⟨size, hsize, -⟩ := exists_checkedSub (a := rest₂) (b := partitionAlignmentHeadroomMib)
    (by omega)
  exact ⟨size, by simp [remainingMib, hfixed, hrest, hrest₂, hsize]⟩

theorem exists_partitionNumber_iff {n : ℕ} :
    (∃ number, partitionNumber n = .ok number) ↔ n < 2 ^ 32 := by
  unfold partitionNumber
  split_ifs with h
  · exact iff_of_true ⟨_, rfl⟩ h
  · exact iff_of_false (by simp) h

/-- One pass of the loop fails only at a Windows partition whose number is out of range. -/
theorem exists_layoutPartition_iff (plan : PartitionPlan) (size : UInt64) (state : LayoutState)
    {entry : PartitionSpec × ℕ} : (∃ next, layoutPartition plan size state entry = .ok next) ↔
      (entry.1.role = .windows → entry.2 + 1 < 2 ^ 32) := by
  obtain ⟨partition, index⟩ := entry
  simp only [layoutPartition, exists_map_eq_ok_iff]
  by_cases hwindows : partition.role = .windows
  · simp only [hwindows, if_true, exists_partitionNumber_iff, true_imp_iff]
  · simp [hwindows]

/-- The loop over the partitions ends when the number of every Windows partition is in range. -/
theorem exists_foldlM_layoutPartition_iff {size : UInt64} {entries : List (PartitionSpec × ℕ)}
    {state : LayoutState} :
    (∃ final, entries.foldlM (layoutPartition plan size) state = .ok final) ↔
      ∀ entry ∈ entries, entry.1.role = .windows → entry.2 + 1 < 2 ^ 32 := by
  induction entries generalizing state with
  | nil => simp [pure, Except.pure]
  | cons entry entries ih =>
    rw [List.foldlM_cons, exists_bind_eq_ok_iff]
    simp only [ih, List.forall_mem_cons, ← exists_layoutPartition_iff plan size state]
    constructor
    · rintro ⟨next, hnext, hrest⟩
      exact ⟨⟨next, hnext⟩, hrest⟩
    · rintro ⟨⟨next, hnext⟩, hrest⟩
      exact ⟨next, hnext, hrest⟩

theorem exists_imageExtension_iff {format : ImageFormat} :
    (∃ extension, imageExtension format = .ok extension) ↔
      format = .wim ∨ format = .esd ∨ format = .gho := by
  cases format <;> simp [imageExtension]

/-- The checks before the disk number: the form of the plan, the index of the image, no recovery
partition, and the capacity. -/
theorem checkPlan_eq_ok_iff : checkPlan lease disk = .ok () ↔
    lease.partitionPlan.validate = .ok () ∧ lease.image.index ≠ 0 ∧
      (∀ partition ∈ lease.partitionPlan.partitions, partition.role ≠ .recovery) ∧
      lease.partitionPlan.validateCapacity disk.sizeBytes lease.image.sizeBytes = .ok () ∧
      ∀ gho, lease.gho = some gho →
        lease.partitionPlan.validateWindowsPayloadCapacity disk.sizeBytes
        lease.image.sizeBytes gho.expandedSizeBytes = .ok () := by
  simp only [checkPlan, bind_unit_eq_ok_iff, mapError_eq_ok_iff, check_eq_ok_iff, List.any_eq_true,
    beq_iff_eq, not_exists, not_and]
  cases lease.gho <;> simp [mapError_eq_ok_iff]

/-- The Agent writes the scripts exactly when its checks pass, the disk is a physical drive, an
extended partition comes last, and the number of the Windows partition is in range. -/
theorem exists_prepareLayout_iff : (∃ layout, prepareLayout lease disk = .ok layout) ↔
    checkPlan lease disk = .ok () ∧ (∃ number, physicalDriveNumber disk.id = .ok number) ∧
      (lease.partitionPlan.usesMbrExtendedPartition = true →
        lease.partitionPlan.dataPartitionsLast = true) ∧
      (∀ entry ∈ lease.partitionPlan.partitions.zipIdx, entry.1.role = .windows →
        entry.2 + 1 < 2 ^ 32) ∧
      (lease.image.format = .wim ∨ lease.image.format = .esd ∨ lease.image.format = .gho) := by
  simp only [prepareLayout, exists_bind_eq_ok_iff, elim_eq_ok_iff, check_eq_ok_iff, exists_and_left]
  constructor
  · rintro ⟨u, hcheck, number, hnumber, _, -, size, -, hextended, final, hfinal,
      extension, hextension, -⟩
    exact ⟨hcheck, ⟨number, hnumber⟩, by simpa using hextended,
      exists_foldlM_layoutPartition_iff.1 ⟨final, hfinal⟩,
      exists_imageExtension_iff.1 ⟨extension, hextension⟩⟩
  · rintro ⟨hcheck, ⟨number, hnumber⟩, hextended, hwindows, hformat⟩
    obtain ⟨hvalid, -, -, hcapacity, -⟩ := checkPlan_eq_ok_iff.1 hcheck
    obtain ⟨remaining, hremaining⟩ := exists_remainingPartition hvalid
    obtain ⟨size, hsize⟩ := exists_remainingMib hcapacity
    obtain ⟨final, hfinal⟩ := exists_foldlM_layoutPartition_iff.2 hwindows
    obtain ⟨extension, hextension⟩ := exists_imageExtension_iff.2 hformat
    exact ⟨(), hcheck, number, hnumber, remaining, hremaining, size, hsize,
      by simpa using hextended, final, hfinal, extension, hextension, _, rfl⟩

end

end EasyDeployMesh
