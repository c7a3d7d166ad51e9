import EasyDeployMesh.Core.PartitionPlan

/-!
# Capacity checks in exact numbers

`PartitionPlan::validate_capacity` and `PartitionPlan::validate_windows_payload_capacity` of
`crates/core/src/job.rs` compute with saturating and rounded `u64` operations. In exact numbers they
compare the disk, in whole MiB, with what the plan, the image cache and the alignment reserve take.

## Main definitions

* `EasyDeployMesh.PartitionPlan.fixedMib`, `EasyDeployMesh.PartitionPlan.minimumMib`.

## Main results

* `EasyDeployMesh.PartitionPlan.validateCapacity_eq_ok_iff`,
  `EasyDeployMesh.PartitionPlan.validateWindowsPayloadCapacity_eq_ok_iff`: when the checks pass.
* `EasyDeployMesh.PartitionPlan.validateCapacity_mono`,
  `EasyDeployMesh.PartitionPlan.validateWindowsPayloadCapacity_mono`: a check that passes for an
  image passes for smaller ones.
-/

namespace EasyDeployMesh.PartitionPlan

open Foundations

variable {plan : PartitionPlan} {diskSizeBytes imageSizeBytes other payloadSizeBytes : UInt64}

/-- What the partitions with a size of their own take. -/
def fixedMib (plan : PartitionPlan) : ℕ := (plan.fixedSizes.map UInt64.toNat).sum

/-- What the remaining partition needs. -/
def minimumMib (plan : PartitionPlan) : UInt64 :=
  (plan.remainingPartition.map fun partition =>
    if partition.role = .data then minimumDataMib else minimumWindowsMib).getD minimumWindowsMib

/-- The image cache has room for the image and the headroom. -/
theorem toNat_cacheMib :
    (cacheMib imageSizeBytes).toNat = (imageSizeBytes.toNat + 1048575) / 1048576 + 512 := by
  have hlt := imageSizeBytes.toNat_lt
  have hmib : mibBytes.toNat = 1048576 := rfl
  have hheadroom : imageCacheHeadroomMib.toNat = 512 := rfl
  rw [cacheMib, toNat_saturatingAdd, toNat_divCeil (by rw [hmib]; omega), hmib, hheadroom]
  omega

theorem toNat_div_mibBytes : (diskSizeBytes / mibBytes).toNat = diskSizeBytes.toNat / 1048576 :=
  UInt64.toNat_div diskSizeBytes mibBytes

/-- The plan, the cache, the minimum of the remaining partition and the alignment reserve fit on the
disk. -/
theorem validateCapacity_eq_ok_iff : plan.validateCapacity diskSizeBytes imageSizeBytes = .ok () ↔
    plan.fixedMib + (cacheMib imageSizeBytes).toNat + plan.minimumMib.toNat +
      partitionAlignmentHeadroomMib.toNat ≤ diskSizeBytes.toNat / 1048576 := by
  have hdisk := diskSizeBytes.toNat_lt
  unfold validateCapacity
  dsimp only
  split_ifs with hlt
  · rw [UInt64.lt_iff_toNat_lt] at hlt
    simp only [toNat_saturatingAdd, toNat_foldl_saturatingAdd, UInt64.toNat_zero,
      toNat_div_mibBytes] at hlt
    refine iff_of_false (by simp) fun hle => ?_
    unfold fixedMib minimumMib at hle
    omega
  · rw [UInt64.lt_iff_toNat_lt] at hlt
    simp only [toNat_saturatingAdd, toNat_foldl_saturatingAdd, UInt64.toNat_zero,
      toNat_div_mibBytes] at hlt
    refine iff_of_true rfl ?_
    unfold fixedMib minimumMib
    omega

/-- The size of the Windows partition, in MiB. -/
def windowsMib (plan : PartitionPlan) (windows : PartitionSpec)
    (diskSizeBytes imageSizeBytes : UInt64) : ℕ :=
  match windows.sizeMib with
  | some sizeMib => sizeMib.toNat
  | none => diskSizeBytes.toNat / 1048576 - plan.fixedMib - (cacheMib imageSizeBytes).toNat -
      partitionAlignmentHeadroomMib.toNat

/-- A saturated capacity is enough for every payload. -/
private theorem payload_check_iff {ε : Type} {error : ε} {available : UInt64} {bytes : ℕ}
    (h : available.toNat = min bytes (2 ^ 64 - 1)) :
    (if available < payloadSizeBytes then Except.error error else .ok ()) = .ok () ↔
      payloadSizeBytes.toNat ≤ bytes := by
  have hpayload := payloadSizeBytes.toNat_lt
  split_ifs with hlt
  · rw [UInt64.lt_iff_toNat_lt, h] at hlt
    exact iff_of_false (by simp) (by omega)
  · rw [UInt64.lt_iff_toNat_lt, h] at hlt
    exact iff_of_true rfl (by omega)

/-- The payload fits in the Windows partition. -/
theorem validateWindowsPayloadCapacity_eq_ok_iff :
    plan.validateWindowsPayloadCapacity diskSizeBytes imageSizeBytes payloadSizeBytes = .ok () ↔
      ∃ windows, plan.partitions.find? (fun partition => partition.role == .windows) =
        some windows ∧
        payloadSizeBytes.toNat ≤
          plan.windowsMib windows diskSizeBytes imageSizeBytes * 1048576 := by
  have hdisk := diskSizeBytes.toNat_lt
  have hmib : mibBytes.toNat = 1048576 := rfl
  unfold validateWindowsPayloadCapacity
  cases hfind : plan.partitions.find? (fun partition => partition.role == .windows) with
  | none => simp
  | some windows =>
    simp only [Option.some.injEq, exists_eq_left', windowsMib]
    cases windows.sizeMib with
    | some sizeMib => exact payload_check_iff (by rw [toNat_saturatingMul, hmib])
    | none =>
      have hrest : diskSizeBytes.toNat / 1048576 - min (0 + plan.fixedMib) (2 ^ 64 - 1) =
          diskSizeBytes.toNat / 1048576 - plan.fixedMib := by omega
      refine payload_check_iff ?_
      rw [toNat_saturatingMul, toNat_saturatingSub, toNat_saturatingSub, toNat_saturatingSub,
        toNat_foldl_saturatingAdd, toNat_div_mibBytes, UInt64.toNat_zero, ← fixedMib, hrest, hmib]

/-- A smaller image needs no larger cache. -/
theorem cacheMib_mono (h : other ≤ imageSizeBytes) :
    (cacheMib other).toNat ≤ (cacheMib imageSizeBytes).toNat := by
  have h := UInt64.le_iff_toNat_le.1 h
  rw [toNat_cacheMib, toNat_cacheMib]
  omega

theorem validateCapacity_mono (h : plan.validateCapacity diskSizeBytes imageSizeBytes = .ok ())
    (hother : other ≤ imageSizeBytes) : plan.validateCapacity diskSizeBytes other = .ok () := by
  have hcache := cacheMib_mono hother
  rw [validateCapacity_eq_ok_iff] at h ⊢
  omega

theorem validateWindowsPayloadCapacity_mono
    (h : plan.validateWindowsPayloadCapacity diskSizeBytes imageSizeBytes payloadSizeBytes = .ok ())
    (hother : other ≤ imageSizeBytes) :
    plan.validateWindowsPayloadCapacity diskSizeBytes other payloadSizeBytes = .ok () := by
  have hcache := cacheMib_mono hother
  rw [validateWindowsPayloadCapacity_eq_ok_iff] at h ⊢
  obtain ⟨windows, hfind, hle⟩ := h
  refine ⟨windows, hfind, hle.trans (Nat.mul_le_mul_right _ ?_)⟩
  unfold windowsMib
  split
  · exact Nat.le_refl _
  · omega

end EasyDeployMesh.PartitionPlan
