import EasyDeployMesh.Agent.DiskpartScript
import EasyDeployMesh.Agent.HostAcceptance

/-!
# MBR layouts

An MBR disk has room for four partitions, of which one may be an extended partition that holds the
logical ones. The prepare script of `prepare_layout` (`crates/agent/src/deployment.rs`) puts the
data partitions and the image cache into an extended partition when they and the system and Windows
partitions are more than four, and then only if the data partitions come last in the plan.

## Main definitions

* `EasyDeployMesh.RealizableOnMbr`: what DiskPart can create on an MBR disk.

## Main results

* `EasyDeployMesh.createdKinds_of_mbr`: the partitions that the script creates.
* `EasyDeployMesh.realizableOnMbr_of_prepareLayout`: every MBR script is realizable.
-/

namespace EasyDeployMesh

open Foundations

/-- Partitions that can be created on an MBR disk one after the other: at most four primary or
extended ones and at most one extended one, no logical one before it, and no primary one behind
it. -/
structure RealizableOnMbr (kinds : List PartitionKind) : Prop where
  mbrKinds : .efi ∉ kinds ∧ .msr ∉ kinds
  atMostFour : kinds.countP (fun kind => kind == .primary || kind == .extended) ≤ 4
  oneExtended : kinds.count .extended ≤ 1
  logicalBehindExtended : .logical ∉ kinds.takeWhile (· != .extended)
  noPrimaryBehindExtended : .primary ∉ kinds.dropWhile (· != .extended)

/-- Up to four primary partitions. -/
theorem realizableOnMbr_primary {n : ℕ} (h : n ≤ 4) :
    RealizableOnMbr (List.replicate n .primary) where
  mbrKinds := by simp [List.mem_replicate]
  atMostFour := by simpa [List.countP_replicate] using h
  oneExtended := by simp [List.count_replicate]
  logicalBehindExtended hmem := by
    have h := List.takeWhile_subset _ hmem
    simp [List.mem_replicate] at h
  noPrimaryBehindExtended := by
    rw [List.dropWhile_eq_nil_iff.2 (by simp [List.mem_replicate])]
    exact List.not_mem_nil

/-- Up to three primary partitions in front of an extended one with logical ones. -/
theorem realizableOnMbr_extended {n m : ℕ} (h : n ≤ 3) :
    RealizableOnMbr (List.replicate n .primary ++ .extended :: List.replicate m .logical) where
  mbrKinds := by simp [List.mem_replicate]
  atMostFour := by
    simp [List.countP_append, List.countP_replicate]
    omega
  oneExtended := by simp [List.count_append, List.count_replicate]
  logicalBehindExtended := by
    rw [List.takeWhile_append_of_pos (by simp [List.mem_replicate]),
      List.takeWhile_cons_of_neg (by simp)]
    simp [List.mem_replicate]
  noPrimaryBehindExtended := by
    rw [List.dropWhile_append_of_pos (by simp [List.mem_replicate]),
      List.dropWhile_cons_of_neg (by simp)]
    simp [List.mem_replicate]

/-! ### The partitions that the script creates -/

section

variable {plan : PartitionPlan} {size : UInt64} {specs : List PartitionSpec}

/-- The kinds of partition that the commands for a partition create. -/
def ScriptPartition.createdKinds (partition : ScriptPartition) : List PartitionKind :=
  if partition.behindExtended then [.extended, partition.kind] else [partition.kind]

/-- Partitions that are not logical and no EFI or MSR partitions are primary. -/
private theorem createdKinds_primary (created : Bool)
    (hlogical : ∀ spec ∈ specs, spec.isLogical plan = false)
    (hrole : ∀ spec ∈ specs, spec.role ≠ .efi ∧ spec.role ≠ .msr) :
    (planPartitions plan size created specs).flatMap ScriptPartition.createdKinds =
      List.replicate specs.length .primary := by
  induction specs generalizing created with
  | nil => rfl
  | cons spec specs ih =>
    obtain ⟨hspec, hspecs⟩ := List.forall_mem_cons.1 hlogical
    obtain ⟨⟨hefi, hmsr⟩, hroles⟩ := List.forall_mem_cons.1 hrole
    have hkind : spec.kind plan = .primary := by
      rw [PartitionSpec.kind, hspec]
      cases hcase : spec.role <;> simp_all
    rw [planPartitions, List.flatMap_cons, ih _ hspecs hroles, List.length_cons,
      List.replicate_succ]
    simp [ScriptPartition.createdKinds, PartitionSpec.toScript, hspec, hkind]

/-- Logical partitions behind the extended one. -/
private theorem createdKinds_logical (hlogical : ∀ spec ∈ specs, spec.isLogical plan = true) :
    (planPartitions plan size true specs).flatMap ScriptPartition.createdKinds =
      List.replicate specs.length .logical := by
  induction specs with
  | nil => rfl
  | cons spec specs ih =>
    obtain ⟨hspec, hspecs⟩ := List.forall_mem_cons.1 hlogical
    rw [planPartitions, List.flatMap_cons, Bool.true_or, ih hspecs, List.length_cons,
      List.replicate_succ]
    simp [ScriptPartition.createdKinds, PartitionSpec.toScript, PartitionSpec.kind, hspec]

end

section

variable {lease : AgentJobLease} {disk : Disk} {layout : PreparedLayout}

/-- A plan whose data partitions come last. -/
private theorem exists_append_of_dataPartitionsLast {plan : PartitionPlan}
    (h : plan.dataPartitionsLast = true) : ∃ others data, plan.partitions = others ++ data ∧
      (∀ spec ∈ others, spec.role ≠ .data) ∧ ∀ spec ∈ data, spec.role = .data := by
  refine
    ⟨_, _, (List.takeWhile_append_dropWhile (p := fun spec => spec.role != .data)).symm, ?_, ?_⟩
  · intro spec hspec
    simpa using List.mem_takeWhile_imp hspec
  · intro spec hspec
    simpa using List.all_eq_true.1 h spec hspec

/-- The number of partitions of an MBR plan without a recovery partition. -/
private theorem length_of_mbr {plan : PartitionPlan} (hvalid : plan.validate = .ok ())
    (hrecovery : ∀ spec ∈ plan.partitions, spec.role ≠ .recovery) (hmbr : plan.table = .mbr) :
    plan.partitions.length = 2 + plan.countRole .data := by
  obtain ⟨hsystem, hefi, hmsr⟩ := PartitionPlan.roles_of_mbr hvalid hmbr
  rw [PartitionPlan.length_eq_sum_countRole, hsystem, hefi, hmsr,
    PartitionPlan.countRole_windows hvalid, PartitionPlan.countRole_eq_zero_iff.2 hrecovery]

/-- The script for an MBR plan creates up to four primary partitions, or two primary partitions, the
extended one and logical ones. -/
theorem createdKinds_of_mbr {plan : PartitionPlan} {size cacheMib : UInt64}
    (hvalid : plan.validate = .ok ())
    (hrecovery : ∀ spec ∈ plan.partitions, spec.role ≠ .recovery) (hmbr : plan.table = .mbr)
    (hextended : plan.usesMbrExtendedPartition = true → plan.dataPartitionsLast = true) :
    (∃ n ≤ 4, (planPartitions plan size false plan.partitions ++
      [cachePartition plan cacheMib]).flatMap ScriptPartition.createdKinds =
        List.replicate n .primary) ∨
    ∃ m, (planPartitions plan size false plan.partitions ++
      [cachePartition plan cacheMib]).flatMap ScriptPartition.createdKinds =
        List.replicate 2 .primary ++ .extended :: List.replicate m .logical := by
  have hlength := length_of_mbr hvalid hrecovery hmbr
  have hroles : ∀ spec ∈ plan.partitions, spec.role ≠ .efi ∧ spec.role ≠ .msr := by
    obtain ⟨-, hefi, hmsr⟩ := PartitionPlan.roles_of_mbr hvalid hmbr
    exact fun spec hspec => ⟨PartitionPlan.countRole_eq_zero_iff.1 hefi spec hspec,
      PartitionPlan.countRole_eq_zero_iff.1 hmsr spec hspec⟩
  cases huses : plan.usesMbrExtendedPartition with
  | false =>
    left
    have hdata : plan.countRole .data ≤ 1 := by
      simp only [PartitionPlan.usesMbrExtendedPartition, hmbr, beq_self_eq_true, Bool.true_and,
        decide_eq_false_iff_not] at huses
      rw [PartitionPlan.countRole]
      omega
    refine ⟨plan.partitions.length + 1, by omega, ?_⟩
    rw [List.flatMap_append, List.flatMap_singleton, createdKinds_primary false
      (fun spec _ => by simp [PartitionSpec.isLogical, huses]) hroles, List.replicate_succ']
    simp [ScriptPartition.createdKinds, cachePartition, huses]
  | true =>
    right
    obtain ⟨others, data, hsplit, hothers, hdata⟩ :=
      exists_append_of_dataPartitionsLast (hextended huses)
    have hlogical : ∀ spec ∈ data, spec.isLogical plan = true := fun spec hspec => by
      simp [PartitionSpec.isLogical, huses, hdata spec hspec]
    have hothers' : ∀ spec ∈ others, spec.isLogical plan = false := fun spec hspec => by
      simp [PartitionSpec.isLogical, hothers spec hspec]
    -- the plan has a data partition, and in front of the first one two partitions
    have hcount : plan.countRole .data = data.length := by
      rw [PartitionPlan.countRole, hsplit, List.countP_append, List.countP_eq_zero.2 (by simpa using
        hothers), List.countP_eq_length.2 (by simpa using hdata), Nat.zero_add]
    have hlength' : others.length = 2 := by
      rw [hsplit, List.length_append, hcount] at hlength
      omega
    have hpos : 1 < data.length := by
      simp only [PartitionPlan.usesMbrExtendedPartition, hmbr, beq_self_eq_true, Bool.true_and,
        decide_eq_true_eq] at huses
      rw [PartitionPlan.countRole] at hcount
      omega
    obtain ⟨first, rest, rfl⟩ : ∃ first rest, data = first :: rest :=
      List.exists_cons_of_length_pos (by omega)
    obtain ⟨hfirst, hrest⟩ := List.forall_mem_cons.1 hlogical
    have hcreated : others.any (PartitionSpec.isLogical plan) = false := by
      simpa using hothers'
    refine ⟨rest.length + 2, ?_⟩
    rw [hsplit, planPartitions_append, Bool.false_or, hcreated, planPartitions, Bool.false_or,
      hfirst]
    simp only [List.flatMap_append, List.flatMap_cons, List.flatMap_nil,
      createdKinds_logical hrest]
    rw [createdKinds_primary false hothers' fun spec hspec =>
      hroles spec (by rw [hsplit]; exact List.mem_append_left _ hspec), hlength']
    simp only [ScriptPartition.createdKinds, PartitionSpec.toScript, PartitionSpec.kind, hfirst,
      cachePartition, huses, if_true, Bool.not_false, Bool.and_self, List.append_nil]
    rw [List.replicate_succ' (n := rest.length + 1), List.replicate_succ (n := rest.length)]
    simp

/-- The prepare script for an MBR plan can be carried out: it creates at most four primary or
extended partitions and at most one extended partition, all logical partitions and no primary ones
behind it, and the system and Windows partitions are primary. -/
theorem realizableOnMbr_of_prepareLayout (h : prepareLayout lease disk = .ok layout)
    (hmbr : lease.partitionPlan.table = .mbr) :
    ∃ size, remainingMib lease disk = some size ∧
      layout.prepareScript = scriptText (prepareCommands layout.diskNumber .mbr
        (layoutPartitions lease size)) ∧
      RealizableOnMbr ((prepareCommands layout.diskNumber .mbr
        (layoutPartitions lease size)).filterMap DiskpartCommand.createdKind) ∧
      ∀ partition ∈ layoutPartitions lease size, ∀ spec, partition.spec = some spec →
        spec.role = .system ∨ spec.role = .windows → partition.kind = .primary := by
  obtain ⟨hcheck, -, -, size, -, hsize, hextended, hprepare, -⟩ := scripts_of_prepareLayout h
  obtain ⟨hvalid, -, hrecovery, -⟩ := checkPlan_eq_ok_iff.1 hcheck
  rw [hmbr] at hprepare
  refine ⟨size, hsize, hprepare, ?_, ?_⟩
  · rw [createdKinds_prepareCommands]
    rcases createdKinds_of_mbr hvalid hrecovery hmbr hextended with ⟨n, hn, hkinds⟩ | ⟨m, hkinds⟩
    · exact hkinds ▸ realizableOnMbr_primary hn
    · exact hkinds ▸ realizableOnMbr_extended (by omega)
  · intro partition hmem spec hspec hrole
    rcases List.mem_append.1 hmem with hmem | hmem
    · obtain ⟨other, -, behindExtended, rfl⟩ := exists_of_mem_planPartitions hmem
      obtain rfl : other = spec := Option.some.inj hspec
      rcases hrole with hrole | hrole <;>
        simp [PartitionSpec.toScript, PartitionSpec.kind, PartitionSpec.isLogical, hrole]
    · obtain rfl := List.mem_singleton.1 hmem
      exact absurd hspec (by simp [cachePartition])

end

/-- The three volumes of the default template on an MBR disk. -/
def threeVolumes : PartitionPlan where
  table := .mbr
  partitions :=
    [{ role := .system, sizeMib := some 550, fileSystem := some .ntfs, label := "System Reserved",
       driveLetter := none },
     { role := .windows, sizeMib := some 61440, fileSystem := some .ntfs, label := "Windows",
       driveLetter := none },
     { role := .data, sizeMib := some 40960, fileSystem := some .ntfs, label := "Software",
       driveLetter := some 'D' },
     { role := .data, sizeMib := none, fileSystem := some .ntfs, label := "Data",
       driveLetter := some 'E' }]

/-- The script for three volumes can be carried out. -/
theorem realizableOnMbr_threeVolumes : ∃ layout,
    prepareLayout (plannedLease threeVolumes) physicalDisk = .ok layout ∧
      ∃ size, layout.prepareScript = scriptText (prepareCommands layout.diskNumber .mbr
          (layoutPartitions (plannedLease threeVolumes) size)) ∧
        RealizableOnMbr ((prepareCommands layout.diskNumber .mbr
          (layoutPartitions (plannedLease threeVolumes) size)).filterMap
            DiskpartCommand.createdKind) := by
  obtain ⟨layout, hlayout⟩ := exists_ok_of_isSome_toOption (show (prepareLayout
    (plannedLease threeVolumes) physicalDisk).toOption.isSome = true by decide +kernel)
  obtain ⟨size, -, hprepare, hkinds, -⟩ := realizableOnMbr_of_prepareLayout hlayout rfl
  exact ⟨layout, hlayout, size, hprepare, hkinds⟩

end EasyDeployMesh
