import EasyDeployMesh.Core.Models
import EasyDeployMesh.Foundations.Arithmetic
import EasyDeployMesh.Foundations.Result
import Mathlib.Data.Char
import Mathlib.Data.List.Sort

/-!
# Partition plans

The plan of the partitions that a Windows deployment creates on the target disk, the form that the
host requires of it (`PartitionPlan::validate` in `crates/core/src/job.rs`), and the capacity that
it takes.

## Main definitions

* `EasyDeployMesh.PartitionSpec`, `EasyDeployMesh.PartitionPlan`.
* `EasyDeployMesh.PartitionPlan.uefiGpt`, `EasyDeployMesh.PartitionPlan.legacyBiosMbr`: the
  recommended plans.
* `EasyDeployMesh.PartitionPlan.validate`, `EasyDeployMesh.PartitionPlan.validateCapacity`,
  `EasyDeployMesh.PartitionPlan.validateWindowsPayloadCapacity`.

## Main results

* `EasyDeployMesh.PartitionPlan.validate_uefiGpt`,
  `EasyDeployMesh.PartitionPlan.validate_legacyBiosMbr`: the recommended plans are accepted.
* `EasyDeployMesh.PartitionPlan.fits_of_validateCapacity`: on a disk with enough capacity, the exact
  sizes add up without overflow.
-/

namespace EasyDeployMesh

open Foundations

/-- The two partition tables a plan may choose. -/
inductive PartitionTable
  | gpt
  | mbr
  deriving DecidableEq, Repr

/-- What a partition is for. -/
inductive PartitionRole
  | efi
  | msr
  | system
  | windows
  | recovery
  | data
  deriving DecidableEq, Repr

/-- The file systems a partition may be formatted with. -/
inductive PartitionFileSystem
  | fat32
  | ntfs
  deriving DecidableEq, Repr

/-- One partition of a plan. -/
structure PartitionSpec where
  role : PartitionRole
  /-- A missing size means that this partition consumes the remaining space. -/
  sizeMib : Option UInt64
  fileSystem : Option PartitionFileSystem
  label : String
  driveLetter : Option Char
  deriving DecidableEq

/-- The partitions of a disk in the order in which they are created. -/
structure PartitionPlan where
  table : PartitionTable
  partitions : List PartitionSpec
  deriving DecidableEq

/-- The refusals of a plan. -/
inductive PartitionPlanError
  | empty
  | windowsPartitionCount (found : ℕ)
  | invalidRemainingPartition
  | zeroSize (role : PartitionRole)
  | invalidLabel (label : String)
  | invalidDriveLetter (letter : Char)
  | duplicateDriveLetter
  | requiredRoleCount (role : PartitionRole) (found : ℕ)
  | invalidFileSystem (role : PartitionRole)
  | roleDoesNotMatchTable (role : PartitionRole) (table : PartitionTable)
  deriving DecidableEq

/-- The bytes of one MiB. -/
def mibBytes : UInt64 := 1024 * 1024

/-- The smallest partition for Windows. -/
def minimumWindowsMib : UInt64 := 20 * 1024

/-- The smallest data partition that takes the remaining space. -/
def minimumDataMib : UInt64 := 1024

/-- What the image cache has beyond the size of the image. -/
def imageCacheHeadroomMib : UInt64 := 512

/-- What the capacity check keeps for the alignment of partitions. -/
def partitionAlignmentHeadroomMib : UInt64 := 32

/-- A disk that is too small, with the parts of the sum. -/
structure PartitionCapacityError where
  requiredMib : UInt64
  availableMib : UInt64
  fixedMib : UInt64
  cacheMib : UInt64
  remainingMinimumMib : UInt64
  alignmentHeadroomMib : UInt64
  deriving DecidableEq

/-- An image that is larger than the partition it is written to. -/
structure WindowsPayloadCapacityError where
  requiredBytes : UInt64
  availableBytes : UInt64
  deriving DecidableEq

namespace PartitionPlan

/-- The default plan for a device with UEFI firmware. -/
def uefiGpt : PartitionPlan where
  table := .gpt
  partitions :=
    [{ role := .efi, sizeMib := some 300, fileSystem := some .fat32, label := "System",
       driveLetter := none },
     { role := .msr, sizeMib := some 16, fileSystem := none, label := "", driveLetter := none },
     { role := .windows, sizeMib := none, fileSystem := some .ntfs, label := "Windows",
       driveLetter := none }]

/-- The default plan for a device with a legacy BIOS. -/
def legacyBiosMbr : PartitionPlan where
  table := .mbr
  partitions :=
    [{ role := .system, sizeMib := some 550, fileSystem := some .ntfs, label := "System Reserved",
       driveLetter := none },
     { role := .windows, sizeMib := none, fileSystem := some .ntfs, label := "Windows",
       driveLetter := none }]

/-! ### Validation -/

/-- The letters a data partition may ask for, in uppercase. -/
def isDataDriveLetter (letter : Char) : Bool :=
  ('D' ≤ letter && letter ≤ 'Q') || ('S' ≤ letter && letter ≤ 'V') ||
    ('X' ≤ letter && letter ≤ 'Z')

/-- The characters that a volume label may have. -/
def isLabelCharacter (character : Char) : Bool :=
  character.isAlphanum || " _-".toList.contains character

/-- The checks that `validate` makes on one partition after another. -/
def checkPartition (partition : PartitionSpec) : Except PartitionPlanError Unit :=
  if partition.sizeMib = some 0 then .error (.zeroSize partition.role)
  else if partition.role = .data ∧ partition.fileSystem ≠ some .ntfs then
    .error (.invalidFileSystem .data)
  else if partition.label.utf8ByteSize > 32 ∨
      partition.label.toList.any (fun character => !isLabelCharacter character) then
    .error (.invalidLabel partition.label)
  else match partition.driveLetter with
    | none => .ok ()
    | some letter =>
      if partition.role ≠ .data ∨ !isDataDriveLetter letter.toUpper then
        .error (.invalidDriveLetter letter.toUpper)
      else .ok ()

/-- Two neighbouring elements of the list are equal. -/
def hasEqualNeighbours {α : Type*} [DecidableEq α] : List α → Bool
  | a :: b :: l => a == b || hasEqualNeighbours (b :: l)
  | _ => false

/-- A role that must occur exactly once, with its file system. -/
def requirePartition (partitions : List PartitionSpec) (role : PartitionRole)
    (fileSystem : Option PartitionFileSystem) : Except PartitionPlanError Unit :=
  match partitions.filter (fun partition => partition.role == role) with
  | [partition] =>
    if partition.fileSystem ≠ fileSystem then .error (.invalidFileSystem role) else .ok ()
  | found => .error (.requiredRoleCount role found.length)

/-- The checks that depend on the partition table. -/
def checkTable (plan : PartitionPlan) : Except PartitionPlanError Unit :=
  match plan.table with
  | .gpt => do
    requirePartition plan.partitions .efi (some .fat32)
    requirePartition plan.partitions .msr none
    if plan.partitions.any (fun partition => partition.role == .system) then
      .error (.roleDoesNotMatchTable .system .gpt)
    else .ok ()
  | .mbr => do
    requirePartition plan.partitions .system (some .ntfs)
    if plan.partitions.any (fun partition => partition.role == .efi || partition.role == .msr) then
      .error (.roleDoesNotMatchTable .efi .mbr)
    else .ok ()

/-- Exactly one partition, and this one a Windows or data partition, takes the remaining space. -/
def hasOneRemaining (partitions : List PartitionSpec) : Bool :=
  match partitions.filter (fun partition => partition.sizeMib.isNone) with
  | [partition] => partition.role == .windows || partition.role == .data
  | _ => false

/-- The first check that a plan fails. -/
def validate (plan : PartitionPlan) : Except PartitionPlanError Unit := do
  if plan.partitions.isEmpty then .error .empty
  let windows := plan.partitions.countP (fun partition => partition.role == .windows)
  if windows ≠ 1 then .error (.windowsPartitionCount windows)
  if !hasOneRemaining plan.partitions then .error .invalidRemainingPartition
  plan.partitions.forM checkPartition
  let driveLetters := plan.partitions.filterMap fun partition =>
    partition.driveLetter.map Char.toUpper
  if hasEqualNeighbours (driveLetters.insertionSort (· ≤ ·)) then .error .duplicateDriveLetter
  checkTable plan

theorem validate_uefiGpt : uefiGpt.validate = .ok () := by decide

theorem validate_legacyBiosMbr : legacyBiosMbr.validate = .ok () := by decide

/-! ### What the validation requires -/

section

variable {plan : PartitionPlan} {partitions : List PartitionSpec} {role : PartitionRole}
  {fileSystem : Option PartitionFileSystem}

/-- Without equal neighbours a sorted list has no duplicates. -/
private theorem nodup_of_hasEqualNeighbours {α : Type*} [LinearOrder α] {l : List α}
    (hsorted : l.Pairwise (· ≤ ·)) (h : hasEqualNeighbours l = false) : l.Nodup := by
  induction l with
  | nil => exact List.nodup_nil
  | cons a l ih =>
    obtain ⟨hle, hsorted⟩ := List.pairwise_cons.1 hsorted
    cases l with
    | nil => exact List.nodup_singleton a
    | cons b l =>
      rw [hasEqualNeighbours, Bool.or_eq_false_iff, beq_eq_false_iff_ne] at h
      obtain ⟨hne, hrest⟩ := h
      refine List.nodup_cons.2 ⟨fun hmem => hne ?_, ih hsorted hrest⟩
      -- what comes later is at least `b`
      have hba : b ≤ a := by
        rcases List.mem_cons.1 hmem with rfl | hmem
        · exact le_refl _
        · exact (List.pairwise_cons.1 hsorted).1 a hmem
      exact le_antisymm (hle b List.mem_cons_self) hba

theorem requirePartition_eq_ok_iff : requirePartition partitions role fileSystem = .ok () ↔
    ∃ partition, partitions.filter (fun partition => partition.role == role) = [partition] ∧
      partition.fileSystem = fileSystem := by
  unfold requirePartition
  split
  · rename_i partition hfilter
    simp [hfilter]
  · rename_i found hfound
    refine iff_of_false (by simp) ?_
    rintro ⟨partition, hfilter, -⟩
    exact hfound partition hfilter

theorem checkPartition_eq_ok_iff {partition : PartitionSpec} : checkPartition partition = .ok () ↔
    partition.sizeMib ≠ some 0 ∧ (partition.role = .data → partition.fileSystem = some .ntfs) ∧
      (partition.label.utf8ByteSize ≤ 32 ∧
        partition.label.toList.all isLabelCharacter = true) ∧
      ∀ letter, partition.driveLetter = some letter →
        partition.role = .data ∧ isDataDriveLetter letter.toUpper = true := by
  unfold checkPartition
  split_ifs with hzero hfileSystem hlabel
  · simp [hzero]
  · refine iff_of_false (by simp) ?_
    rintro ⟨-, h, -⟩
    exact hfileSystem.2 (h hfileSystem.1)
  · refine iff_of_false (by simp) ?_
    rintro ⟨-, -, ⟨hsize, hall⟩, -⟩
    rcases hlabel with h | h
    · omega
    · simp only [List.any_eq_true, List.all_eq_true, Bool.not_eq_true'] at h hall
      obtain ⟨character, hmem, h⟩ := h
      rw [hall character hmem] at h
      exact Bool.noConfusion h
  · have hall : partition.label.toList.all isLabelCharacter = true := by
      simpa using fun h => hlabel (Or.inr h)
    have hsize : partition.label.utf8ByteSize ≤ 32 := by
      by_contra h
      exact hlabel (Or.inl (by omega))
    have hntfs : partition.role = .data → partition.fileSystem = some .ntfs := by
      intro hrole
      by_contra h
      exact hfileSystem ⟨hrole, h⟩
    simp only [ne_eq, hzero, not_false_eq_true, hsize, hall, true_and, and_iff_right hntfs]
    cases partition.driveLetter with
    | none => simp
    | some letter =>
      simp only [Option.some.injEq, forall_eq']
      split_ifs with h
      · refine iff_of_false (by simp) ?_
        rintro ⟨hrole, hletter⟩
        simp [hrole, hletter] at h
      · simpa [not_or] using h

/-- The checks of `validate`. -/
theorem validate_eq_ok_iff : plan.validate = .ok () ↔ plan.partitions ≠ [] ∧
    plan.partitions.countP (fun partition => partition.role == .windows) = 1 ∧
    hasOneRemaining plan.partitions = true ∧
    (∀ partition ∈ plan.partitions, checkPartition partition = .ok ()) ∧
    hasEqualNeighbours ((plan.partitions.filterMap fun partition =>
      partition.driveLetter.map Char.toUpper).insertionSort (· ≤ ·)) = false ∧
    plan.checkTable = .ok () := by
  simp only [validate, check_eq_ok_iff, bind_unit_eq_ok_iff, forM_eq_ok_iff]
  simp

/-- The number of partitions with a role. -/
def countRole (plan : PartitionPlan) (role : PartitionRole) : ℕ :=
  plan.partitions.countP fun partition => partition.role == role

theorem length_eq_sum_countRole : plan.partitions.length =
    plan.countRole .efi + plan.countRole .msr + plan.countRole .system + plan.countRole .windows +
      plan.countRole .recovery + plan.countRole .data := by
  unfold countRole
  induction plan.partitions with
  | nil => rfl
  | cons partition partitions ih =>
    simp only [List.length_cons, List.countP_cons, ih]
    cases partition.role <;> simp <;> omega

theorem countRole_eq_zero_iff :
    plan.countRole role = 0 ↔ ∀ partition ∈ plan.partitions, partition.role ≠ role := by
  simp [countRole, List.countP_eq_zero]

/-- A role that is required stands for one partition, with the file system required. -/
private theorem countRole_of_requirePartition
    (h : requirePartition plan.partitions role fileSystem = .ok ()) :
    plan.countRole role = 1 ∧
      ∀ partition ∈ plan.partitions, partition.role = role → partition.fileSystem = fileSystem := by
  obtain ⟨partition, hfilter, hfileSystem⟩ := requirePartition_eq_ok_iff.1 h
  refine ⟨by rw [countRole, List.countP_eq_length_filter, hfilter, List.length_singleton], ?_⟩
  intro other hmem hrole
  have hother : other ∈ plan.partitions.filter fun partition => partition.role == role :=
    List.mem_filter.2 ⟨hmem, beq_iff_eq.2 hrole⟩
  rw [hfilter, List.mem_singleton] at hother
  rw [hother, hfileSystem]

/-- The roles of a GPT plan. -/
theorem roles_of_gpt (h : plan.validate = .ok ()) (hgpt : plan.table = .gpt) :
    plan.countRole .efi = 1 ∧ plan.countRole .msr = 1 ∧ plan.countRole .system = 0 := by
  obtain ⟨-, -, -, -, -, htable⟩ := validate_eq_ok_iff.1 h
  simp only [checkTable, hgpt, bind_unit_eq_ok_iff] at htable
  obtain ⟨hefi, hmsr, hsystem⟩ := htable
  refine ⟨(countRole_of_requirePartition hefi).1, (countRole_of_requirePartition hmsr).1,
    countRole_eq_zero_iff.2 ?_⟩
  simpa using hsystem

/-- The roles of an MBR plan. -/
theorem roles_of_mbr (h : plan.validate = .ok ()) (hmbr : plan.table = .mbr) :
    plan.countRole .system = 1 ∧ plan.countRole .efi = 0 ∧ plan.countRole .msr = 0 := by
  obtain ⟨-, -, -, -, -, htable⟩ := validate_eq_ok_iff.1 h
  simp only [checkTable, hmbr, bind_unit_eq_ok_iff] at htable
  obtain ⟨hsystem, hothers⟩ := htable
  have hothers : ∀ partition ∈ plan.partitions, partition.role ≠ .efi ∧ partition.role ≠ .msr := by
    simpa [not_or] using hothers
  exact ⟨(countRole_of_requirePartition hsystem).1,
    countRole_eq_zero_iff.2 fun partition hmem => (hothers partition hmem).1,
    countRole_eq_zero_iff.2 fun partition hmem => (hothers partition hmem).2⟩

theorem countRole_windows (h : plan.validate = .ok ()) : plan.countRole .windows = 1 :=
  (validate_eq_ok_iff.1 h).2.1

/-- One partition holds the boot files: the EFI partition or the system partition. -/
theorem countRole_efi_add_system (h : plan.validate = .ok ()) :
    plan.countRole .efi + plan.countRole .system = 1 := by
  cases htable : plan.table with
  | gpt =>
    obtain ⟨hefi, -, hsystem⟩ := roles_of_gpt h htable
    omega
  | mbr =>
    obtain ⟨hsystem, hefi, -⟩ := roles_of_mbr h htable
    omega

/-- The file systems that the validation requires. -/
theorem fileSystem_of_validate (h : plan.validate = .ok ()) {partition : PartitionSpec}
    (hmem : partition ∈ plan.partitions) :
    (partition.role = .efi → partition.fileSystem = some .fat32) ∧
      (partition.role = .system → partition.fileSystem = some .ntfs) ∧
      (partition.role = .data → partition.fileSystem = some .ntfs) := by
  obtain ⟨-, -, -, hpartition, -, htable⟩ := validate_eq_ok_iff.1 h
  refine ⟨fun hefi => ?_, fun hsystem => ?_,
    (checkPartition_eq_ok_iff.1 (hpartition partition hmem)).2.1⟩
  · cases hplan : plan.table with
    | gpt =>
      simp only [checkTable, hplan, bind_unit_eq_ok_iff] at htable
      exact (countRole_of_requirePartition htable.1).2 partition hmem hefi
    | mbr =>
      exact absurd hefi (countRole_eq_zero_iff.1 (roles_of_mbr h hplan).2.1 partition hmem)
  · cases hplan : plan.table with
    | gpt =>
      exact absurd hsystem (countRole_eq_zero_iff.1 (roles_of_gpt h hplan).2.2 partition hmem)
    | mbr =>
      simp only [checkTable, hplan, bind_unit_eq_ok_iff] at htable
      exact (countRole_of_requirePartition htable.1).2 partition hmem hsystem

/-- Only a data partition has a chosen letter, and one of the letters for data. -/
theorem driveLetter_of_validate (h : plan.validate = .ok ()) {partition : PartitionSpec}
    (hmem : partition ∈ plan.partitions) {letter : Char}
    (hletter : partition.driveLetter = some letter) :
    partition.role = .data ∧ isDataDriveLetter letter.toUpper = true := by
  obtain ⟨-, -, -, hpartition, -⟩ := validate_eq_ok_iff.1 h
  exact (checkPartition_eq_ok_iff.1 (hpartition partition hmem)).2.2.2 letter hletter

theorem hasOneRemaining_of_validate (h : plan.validate = .ok ()) :
    hasOneRemaining plan.partitions = true := by
  obtain ⟨-, -, hone, -⟩ := validate_eq_ok_iff.1 h
  exact hone

/-- One partition takes the remaining space, and it is a Windows or data partition. -/
theorem exists_filter_of_validate (h : plan.validate = .ok ()) : ∃ remaining,
    plan.partitions.filter (fun partition => partition.sizeMib.isNone) = [remaining] ∧
      (remaining.role = .windows ∨ remaining.role = .data) := by
  have hone := hasOneRemaining_of_validate h
  unfold hasOneRemaining at hone
  split at hone
  · rename_i remaining hfilter
    exact ⟨remaining, hfilter, by simpa using hone⟩
  · simp at hone

/-- The letters that are chosen are distinct. -/
theorem nodup_driveLetters_of_validate (h : plan.validate = .ok ()) :
    (plan.partitions.filterMap fun partition => partition.driveLetter.map Char.toUpper).Nodup := by
  obtain ⟨-, -, -, -, hneighbours, -⟩ := validate_eq_ok_iff.1 h
  have hsorted := List.pairwise_insertionSort (· ≤ ·) (plan.partitions.filterMap fun partition =>
    partition.driveLetter.map Char.toUpper)
  exact (List.perm_insertionSort _ _).nodup_iff.1 (nodup_of_hasEqualNeighbours hsorted hneighbours)

end

/-! ### Capacity -/

variable (plan : PartitionPlan)

/-- The sizes of the partitions that do not take the remaining space. -/
def fixedSizes : List UInt64 := plan.partitions.filterMap PartitionSpec.sizeMib

/-- The partition that takes the remaining space. -/
def remainingPartition : Option PartitionSpec :=
  plan.partitions.find? fun partition => partition.sizeMib.isNone

/-- The size of the temporary partition that holds the image. -/
def cacheMib (imageSizeBytes : UInt64) : UInt64 :=
  saturatingAdd (divCeil imageSizeBytes mibBytes) imageCacheHeadroomMib

/-- Validates that the physical disk can hold the final plan and the temporary image cache. -/
def validateCapacity (diskSizeBytes imageSizeBytes : UInt64) : Except PartitionCapacityError Unit :=
  let availableMib := diskSizeBytes / mibBytes
  let fixedMib := plan.fixedSizes.foldl saturatingAdd 0
  let cacheMib := cacheMib imageSizeBytes
  let remainingMinimumMib := (plan.remainingPartition.map fun partition =>
    if partition.role = .data then minimumDataMib else minimumWindowsMib).getD minimumWindowsMib
  let requiredMib := saturatingAdd (saturatingAdd (saturatingAdd fixedMib cacheMib)
    remainingMinimumMib) partitionAlignmentHeadroomMib
  if availableMib < requiredMib then
    .error
      { requiredMib := requiredMib
        availableMib := availableMib
        fixedMib := fixedMib
        cacheMib := cacheMib
        remainingMinimumMib := remainingMinimumMib
        alignmentHeadroomMib := partitionAlignmentHeadroomMib }
  else .ok ()

/-- Ensures a raw partition payload fits in the Windows volume before any destructive partitioning
begins. -/
def validateWindowsPayloadCapacity (diskSizeBytes imageSizeBytes payloadSizeBytes : UInt64) :
    Except WindowsPayloadCapacityError Unit :=
  match plan.partitions.find? (fun partition => partition.role == .windows) with
  | none => .error { requiredBytes := payloadSizeBytes, availableBytes := 0 }
  | some windows =>
    let availableBytes := match windows.sizeMib with
      | some sizeMib => saturatingMul sizeMib mibBytes
      | none =>
        let fixedMib := plan.fixedSizes.foldl saturatingAdd 0
        saturatingMul
          (saturatingSub (saturatingSub (saturatingSub (diskSizeBytes / mibBytes) fixedMib)
            (cacheMib imageSizeBytes)) partitionAlignmentHeadroomMib) mibBytes
    if availableBytes < payloadSizeBytes then
      .error { requiredBytes := payloadSizeBytes, availableBytes }
    else .ok ()

variable {plan}

/-- The fixed partitions, the cache and the alignment reserve fit on a disk with enough capacity. -/
theorem fits_of_validateCapacity {diskSizeBytes imageSizeBytes : UInt64}
    (h : plan.validateCapacity diskSizeBytes imageSizeBytes = .ok ()) :
    (plan.fixedSizes.map UInt64.toNat).sum + (cacheMib imageSizeBytes).toNat +
      partitionAlignmentHeadroomMib.toNat ≤ (diskSizeBytes / mibBytes).toNat := by
  have havailable : (diskSizeBytes / mibBytes).toNat < 2 ^ 64 - 1 := by
    have hlt := diskSizeBytes.toNat_lt
    have hdiv : diskSizeBytes.toNat / mibBytes.toNat ≤ diskSizeBytes.toNat / 2 :=
      Nat.div_le_div_left (by decide) (by decide)
    rw [UInt64.toNat_div]
    omega
  unfold validateCapacity at h
  dsimp only at h
  split_ifs at h with hlt
  rw [UInt64.lt_iff_toNat_lt] at hlt
  simp only [toNat_saturatingAdd, toNat_foldl_saturatingAdd, UInt64.toNat_zero] at hlt
  omega

end PartitionPlan

end EasyDeployMesh
