import EasyDeployMesh.Agent.DiskpartScript
import EasyDeployMesh.Agent.HostAcceptance
import EasyDeployMesh.Core.PartitionCapacity

/-!
# The sizes of a layout

The capacity checks of `prepare_layout` (`crates/agent/src/deployment.rs`) compute with saturating
operations, and the sizes of the prepare script with plain ones. A plan that passes the checks
leaves no room for an overflow: the partitions of the script and the alignment reserve fill the disk
to the MiB, and each of them has the space that the checks are about.

## Main definitions

* `EasyDeployMesh.ExactLayout`: the sizes of the partitions of a layout.

## Main results

* `EasyDeployMesh.exactLayout_of_prepareLayout`: the arithmetic of every layout is exact.
-/

namespace EasyDeployMesh

open Foundations

/-- The partitions of a layout and the commands that create them fill the disk, and the remaining
partition, the image cache and, for a raw payload, the Windows partition have the space they
need. -/
structure ExactLayout (lease : AgentJobLease) (disk : Disk) (partitions : List ScriptPartition)
    (commands : List DiskpartCommand) : Prop where
  exact : ((commands.filterMap DiskpartCommand.createdSize).map UInt64.toNat).sum + 32 =
    disk.sizeBytes.toNat / 2 ^ 20
  remaining : ∀ partition ∈ partitions, ∀ spec, partition.spec = some spec → spec.sizeMib = none →
    (spec.role = .windows → 20 * 1024 ≤ partition.sizeMib.toNat) ∧
      (spec.role = .data → 1024 ≤ partition.sizeMib.toNat)
  cache : ∀ partition ∈ partitions, partition.spec = none →
    lease.image.sizeBytes.toNat + 512 * 2 ^ 20 ≤ partition.sizeMib.toNat * 2 ^ 20
  payload : ∀ gho, lease.gho = some gho → ∀ partition ∈ partitions, ∀ spec,
    partition.spec = some spec → spec.role = .windows →
      gho.expandedSizeBytes.toNat ≤ partition.sizeMib.toNat * 2 ^ 20

section

variable {lease : AgentJobLease} {disk : Disk} {layout : PreparedLayout} {plan : PartitionPlan}
  {size : UInt64}

/-! ### No overflow -/

private theorem checkPlan_ne_overflow : checkPlan lease disk ≠ .error .overflow := by
  intro h
  simp only [checkPlan, bind_eq_error_iff, check_eq_error_iff, mapError_eq_error_iff] at h
  cases hgho : lease.gho <;> simp [hgho, mapError_eq_error_iff] at h

private theorem physicalDriveNumber_ne_overflow (id : String) :
    physicalDriveNumber id ≠ .error .overflow := by
  unfold physicalDriveNumber
  split
  · simp
  · rename_i digits _
    cases Text.parseU32 digits <;> simp

private theorem foldlM_layoutPartition_ne_overflow {entries : List (PartitionSpec × ℕ)}
    {state : LayoutState} :
    entries.foldlM (layoutPartition plan size) state ≠ .error .overflow := by
  induction entries generalizing state with
  | nil => simp [pure, Except.pure]
  | cons entry entries ih =>
    obtain ⟨spec, index⟩ := entry
    rw [List.foldlM_cons, Ne, bind_eq_error_iff, not_or]
    refine ⟨?_, fun ⟨next, _, hrest⟩ => ih hrest⟩
    simp only [layoutPartition, partitionNumber]
    split_ifs <;> simp [Except.map]

/-- No sum wraps and no difference is negative: the script computes with exact numbers. -/
theorem prepareLayout_ne_overflow : prepareLayout lease disk ≠ .error .overflow := by
  intro h
  simp only [prepareLayout, bind_eq_error_iff, check_eq_error_iff, elim_eq_error_iff,
    elim_eq_ok_iff]
    at h
  rcases h with h | ⟨_, hcheck, h | ⟨number, -, h | ⟨remaining, -, h | ⟨size, hsize, h⟩⟩⟩⟩
  · exact checkPlan_ne_overflow h
  · exact physicalDriveNumber_ne_overflow _ h
  · exact absurd h.2 (by simp)
  · -- the checks leave space for the remaining partition
    obtain ⟨-, -, -, hcapacity, -⟩ := checkPlan_eq_ok_iff.1 hcheck
    obtain ⟨size, hsize⟩ := exists_remainingMib hcapacity
    exact absurd (h.1.symm.trans hsize) (by simp)
  · rcases h with h | ⟨-, h | ⟨state, -, h | ⟨extension, -, h⟩⟩⟩
    · exact absurd h.2 (by simp)
    · exact foldlM_layoutPartition_ne_overflow h
    · cases hformat : lease.image.format <;> simp [imageExtension, hformat] at h
    · exact absurd h (by simp [pure, Except.pure])

/-! ### Refusals -/

/-- A refusal that is about capacity comes from the checks of the plan. -/
private theorem checkPlan_of_prepareLayout {error : DeploymentError}
    (h : prepareLayout lease disk = .error error)
    (hcapacity : (∃ source, error = .capacity source) ∨
      ∃ source, error = .windowsPayloadCapacity source) : checkPlan lease disk = .error error := by
  have hnumber : physicalDriveNumber disk.id ≠ .error error := by
    unfold physicalDriveNumber
    split
    · rcases hcapacity with ⟨source, rfl⟩ | ⟨source, rfl⟩ <;> simp
    · rename_i digits _
      rcases hcapacity with ⟨source, rfl⟩ | ⟨source, rfl⟩ <;> cases Text.parseU32 digits <;> simp
  have hpartitions (remainingMib : UInt64) (entries : List (PartitionSpec × ℕ))
      (state : LayoutState) :
      entries.foldlM (layoutPartition lease.partitionPlan remainingMib) state ≠ .error error := by
    induction entries generalizing state with
    | nil => simp [pure, Except.pure]
    | cons entry entries ih =>
      obtain ⟨spec, index⟩ := entry
      rw [List.foldlM_cons, Ne, bind_eq_error_iff, not_or]
      refine ⟨?_, fun ⟨next, _, hrest⟩ => ih next hrest⟩
      rcases hcapacity with ⟨source, rfl⟩ | ⟨source, rfl⟩ <;>
      · simp only [layoutPartition, partitionNumber]
        split_ifs <;> simp [Except.map]
  simp only [prepareLayout, bind_eq_error_iff, check_eq_error_iff, elim_eq_error_iff,
    elim_eq_ok_iff]
    at h
  rcases h with h | ⟨_, -, h | ⟨number, -, h | ⟨remaining, -, h | ⟨size, -, h⟩⟩⟩⟩
  · exact h
  · exact absurd h hnumber
  · rcases hcapacity with ⟨source, rfl⟩ | ⟨source, rfl⟩ <;> exact absurd h.2 (by simp)
  · rcases hcapacity with ⟨source, rfl⟩ | ⟨source, rfl⟩ <;> exact absurd h.2 (by simp)
  · rcases h with h | ⟨-, h | ⟨state, -, h | ⟨extension, -, h⟩⟩⟩
    · rcases hcapacity with ⟨source, rfl⟩ | ⟨source, rfl⟩ <;> exact absurd h.2 (by simp)
    · exact absurd h (hpartitions _ _ _)
    · rcases hcapacity with ⟨source, rfl⟩ | ⟨source, rfl⟩ <;>
        cases hformat : lease.image.format <;> simp [imageExtension, hformat] at h
    · exact absurd h (by simp [pure, Except.pure])

/-- The plan and the image do not fit when the Agent says so. -/
theorem validateCapacity_of_prepareLayout {source : PartitionCapacityError}
    (h : prepareLayout lease disk = .error (.capacity source)) :
    lease.partitionPlan.validateCapacity disk.sizeBytes lease.image.sizeBytes = .error source := by
  have hcheck := checkPlan_of_prepareLayout h (Or.inl ⟨source, rfl⟩)
  simp only [checkPlan, bind_eq_error_iff, check_eq_error_iff, mapError_eq_error_iff] at hcheck
  cases hgho : lease.gho <;>
  · simp [hgho, mapError_eq_error_iff] at hcheck
    exact hcheck.2.2.2

theorem validateWindowsPayloadCapacity_of_prepareLayout {source : WindowsPayloadCapacityError}
    (h : prepareLayout lease disk = .error (.windowsPayloadCapacity source)) :
    ∃ gho, lease.gho = some gho ∧ lease.partitionPlan.validateWindowsPayloadCapacity disk.sizeBytes
      lease.image.sizeBytes gho.expandedSizeBytes = .error source := by
  have hcheck := checkPlan_of_prepareLayout h (Or.inr ⟨source, rfl⟩)
  simp only [checkPlan, bind_eq_error_iff, check_eq_error_iff, mapError_eq_error_iff] at hcheck
  cases hgho : lease.gho with
  | none => simp [hgho] at hcheck
  | some gho =>
    refine ⟨gho, rfl, ?_⟩
    simp [hgho, mapError_eq_error_iff] at hcheck
    exact hcheck.2.2.2.2

/-! ### The sizes -/

/-- The exact size of the remaining partition. -/
theorem toNat_remainingMib (h : remainingMib lease disk = some size) :
    lease.partitionPlan.fixedMib + (PartitionPlan.cacheMib lease.image.sizeBytes).toNat + 32 +
      size.toNat = disk.sizeBytes.toNat / 2 ^ 20 := by
  simp only [remainingMib, Option.bind_eq_bind, Option.bind_eq_some_iff] at h
  obtain ⟨fixedMib, hfixed, rest, hrest, rest₂, hrest₂, hsize⟩ := h
  have hfixed := toNat_of_checkedSum hfixed
  have hrest := toNat_of_checkedSub hrest
  have hrest₂ := toNat_of_checkedSub hrest₂
  have hsize := toNat_of_checkedSub hsize
  have hheadroom : partitionAlignmentHeadroomMib.toNat = 32 := rfl
  rw [PartitionPlan.toNat_div_mibBytes] at hrest
  rw [PartitionPlan.fixedMib]
  omega

/-- The partitions of the plan take the fixed sizes and once the remaining space. -/
private theorem sum_sizes (specs : List PartitionSpec) :
    ((specs.map fun spec => spec.sizeMib.getD size).map UInt64.toNat).sum =
      ((specs.filterMap PartitionSpec.sizeMib).map UInt64.toNat).sum +
        (specs.filter fun spec => spec.sizeMib.isNone).length * size.toNat := by
  induction specs with
  | nil => simp
  | cons spec specs ih =>
    simp only [List.map_cons, List.sum_cons, ih, List.filterMap_cons, List.filter_cons]
    cases spec.sizeMib with
    | none =>
      simp [Nat.add_mul]
      omega
    | some sizeMib =>
      simp
      omega

/-- A partition of the layout that is in the plan. -/
private theorem exists_toScript_of_mem {partition : ScriptPartition} {spec : PartitionSpec}
    (h : partition ∈ layoutPartitions lease size) (hspec : partition.spec = some spec) :
    spec ∈ lease.partitionPlan.partitions ∧ ∃ behindExtended,
      partition = spec.toScript lease.partitionPlan size behindExtended := by
  rcases List.mem_append.1 h with h | h
  · obtain ⟨other, hother, behindExtended, rfl⟩ := exists_of_mem_planPartitions h
    obtain rfl : other = spec := Option.some.inj hspec
    exact ⟨hother, behindExtended, rfl⟩
  · obtain rfl := List.mem_singleton.1 h
    exact absurd hspec (by simp [cachePartition])

/-- The Windows partition of the plan. -/
private theorem find?_windows {spec : PartitionSpec} (h : plan.validate = .ok ())
    (hspec : spec ∈ plan.partitions) (hrole : spec.role = .windows) :
    plan.partitions.find? (fun partition => partition.role == .windows) = some spec := by
  have hcount := PartitionPlan.countRole_windows h
  rw [PartitionPlan.countRole, List.countP_eq_length_filter] at hcount
  obtain ⟨windows, hwindows⟩ := List.length_eq_one_iff.1 hcount
  have hmem : spec ∈ plan.partitions.filter fun partition => partition.role == .windows :=
    List.mem_filter.2 ⟨hspec, by simp [hrole]⟩
  rw [hwindows, List.mem_singleton] at hmem
  rw [← List.head?_filter, hwindows, hmem]
  rfl

/-- The layout of a plan that passes the checks. -/
theorem exactLayout_layoutPartitions {diskNumber : UInt32} (hcheck : checkPlan lease disk = .ok ())
    (hsize : remainingMib lease disk = some size) :
    ExactLayout lease disk (layoutPartitions lease size)
      (prepareCommands diskNumber lease.partitionPlan.table (layoutPartitions lease size)) := by
  obtain ⟨hvalid, -, -, hcapacity, hpayload⟩ := checkPlan_eq_ok_iff.1 hcheck
  obtain ⟨remaining, hfilter, hrole⟩ := PartitionPlan.exists_filter_of_validate hvalid
  have hexact := toNat_remainingMib hsize
  have hcache : (PartitionPlan.cacheMib lease.image.sizeBytes).toNat = _ :=
    PartitionPlan.toNat_cacheMib
  refine ⟨?_, ?_, ?_, ?_⟩
  · rw [createdSizes_prepareCommands, layoutPartitions, List.map_append, sizes_planPartitions,
      List.map_append, List.sum_append, sum_sizes, hfilter]
    simp only [cachePartition, List.map_cons, List.map_nil, List.sum_cons, List.sum_nil,
      List.length_singleton]
    rw [PartitionPlan.fixedMib, PartitionPlan.fixedSizes] at hexact
    omega
  · intro partition hmem spec hspec hnone
    obtain ⟨hplan, behindExtended, rfl⟩ := exists_toScript_of_mem hmem hspec
    have hremaining : spec ∈ lease.partitionPlan.partitions.filter
        fun partition => partition.sizeMib.isNone := List.mem_filter.2 ⟨hplan, by rw [hnone]; rfl⟩
    rw [hfilter] at hremaining
    obtain rfl := List.mem_singleton.1 hremaining
    have hminimum : lease.partitionPlan.minimumMib =
        if spec.role = .data then minimumDataMib else minimumWindowsMib := by
      rw [PartitionPlan.minimumMib, PartitionPlan.remainingPartition, ← List.head?_filter, hfilter]
      rfl
    rw [PartitionPlan.validateCapacity_eq_ok_iff, hminimum] at hcapacity
    have hheadroom : partitionAlignmentHeadroomMib.toNat = 32 := rfl
    have hlayout : (spec.toScript lease.partitionPlan size behindExtended).sizeMib = size := by
      rw [PartitionSpec.toScript, hnone]
      rfl
    rw [hlayout]
    constructor
    · intro hwindows
      have hsystem : minimumWindowsMib.toNat = 20 * 1024 := rfl
      rw [if_neg (by simp [hwindows])] at hcapacity
      omega
    · intro hdata
      have hsystem : minimumDataMib.toNat = 1024 := rfl
      rw [if_pos hdata] at hcapacity
      omega
  · intro partition hmem hspec
    rcases List.mem_append.1 hmem with hmem | hmem
    · obtain ⟨other, -, behindExtended, rfl⟩ := exists_of_mem_planPartitions hmem
      exact absurd hspec (by simp [PartitionSpec.toScript])
    · obtain rfl := List.mem_singleton.1 hmem
      simp only [cachePartition]
      omega
  · intro gho hgho partition hmem spec hspec hwindows
    obtain ⟨hplan, behindExtended, rfl⟩ := exists_toScript_of_mem hmem hspec
    obtain ⟨windows, hfind, hle⟩ :=
      PartitionPlan.validateWindowsPayloadCapacity_eq_ok_iff.1 (hpayload gho hgho)
    obtain rfl := Option.some.inj (hfind.symm.trans (find?_windows hvalid hplan hwindows))
    refine hle.trans (Nat.mul_le_mul_right _ ?_)
    have hheadroom : partitionAlignmentHeadroomMib.toNat = 32 := rfl
    unfold PartitionPlan.windowsMib PartitionSpec.toScript
    cases windows.sizeMib with
    | some sizeMib => exact Nat.le_refl _
    | none =>
      simp only [Option.getD_none]
      omega

/-- The arithmetic of a layout is exact: no sum wraps and no difference is negative, the partitions
and the alignment reserve fill the disk, and the remaining partition, the image cache and the
Windows partition have the space they need. -/
theorem exactLayout_of_prepareLayout : prepareLayout lease disk ≠ .error .overflow ∧
    ∀ layout, prepareLayout lease disk = .ok layout →
      ∃ size, remainingMib lease disk = some size ∧
        layout.prepareScript = scriptText (prepareCommands layout.diskNumber
          lease.partitionPlan.table (layoutPartitions lease size)) ∧
        ExactLayout lease disk (layoutPartitions lease size) (prepareCommands layout.diskNumber
          lease.partitionPlan.table (layoutPartitions lease size)) := by
  refine ⟨prepareLayout_ne_overflow, fun layout h => ?_⟩
  obtain ⟨hcheck, -, -, size, -, hsize, -, hprepare, -⟩ := scripts_of_prepareLayout h
  exact ⟨size, hsize, hprepare, exactLayout_layoutPartitions hcheck hsize⟩

end

/-- A lease of a GHO image whose partition expands to 20 GB. -/
def ghoLease : AgentJobLease :=
  { plannedLease PartitionPlan.uefiGpt with
    operation := .deployGho
    image := { plannedImage with format := .gho }
    gho := some
      { sourcePartition := 2
        expandedSizeBytes := 20000000000
        expandedSha256 := "2c26b46b68ffc68ff99b453c1d30413413422d706483bfa0f98a5e886266e7ae"
        parserVersion := 1 } }

/-- The arithmetic of the layout for the GHO image is exact. -/
theorem exactLayout_ghoLease : ∃ layout, prepareLayout ghoLease physicalDisk = .ok layout ∧
    ∃ size, layout.prepareScript = scriptText (prepareCommands layout.diskNumber .gpt
        (layoutPartitions ghoLease size)) ∧
      ExactLayout ghoLease physicalDisk (layoutPartitions ghoLease size)
        (prepareCommands layout.diskNumber .gpt (layoutPartitions ghoLease size)) := by
  obtain ⟨layout, hlayout⟩ := exists_ok_of_isSome_toOption (show (prepareLayout
    ghoLease physicalDisk).toOption.isSome = true by decide +kernel)
  obtain ⟨size, -, hprepare, hlayout'⟩ := exactLayout_of_prepareLayout.2 layout hlayout
  exact ⟨layout, hlayout, size, hprepare, hlayout'⟩

end EasyDeployMesh
