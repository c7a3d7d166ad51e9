import EasyDeployMesh.Agent.DiskpartScript
import EasyDeployMesh.Agent.HostAcceptance
import Mathlib.Data.List.ReduceOption

/-!
# The volumes of a layout

The letters that the prepare script of `prepare_layout` (`crates/agent/src/deployment.rs`) assigns,
the file systems it formats the lettered partitions with, and the volumes that the cleanup script
deletes and extends. The letters of the EFI or system partition, of the Windows partition and of the
image cache depend on the role alone; a data partition has the letter of the plan, or the letter D.

## Main definitions

* `EasyDeployMesh.DistinctLetters`, `EasyDeployMesh.PartitionPlan.LettersFree`.

## Main results

* `EasyDeployMesh.distinctLetters_iff_lettersFree`: when the letters of the script are distinct.
-/

namespace EasyDeployMesh

open Foundations

/-! ### Letters -/

/-- Letters with a default for those that are not chosen: they are distinct when the chosen ones
are, at most one is not chosen, and the default is chosen only if all are. -/
private theorem nodup_map_getD_iff {α : Type*} [DecidableEq α] {l : List (Option α)} {default : α}
    (h : l.reduceOption.Nodup) : (l.map fun x => x.getD default).Nodup ↔
      l.countP Option.isNone ≤ 1 ∧ (none ∈ l → some default ∉ l) := by
  have hmem : ∀ (l : List (Option α)) (a : α),
      a ∈ l.map (fun x => x.getD default) ↔ (none ∈ l ∧ a = default) ∨ some a ∈ l := by
    intro l a
    rw [List.mem_map]
    constructor
    · rintro ⟨x, hx, rfl⟩
      cases x with
      | none => exact Or.inl ⟨hx, rfl⟩
      | some x => exact Or.inr hx
    · rintro (⟨hnone, rfl⟩ | hsome)
      · exact ⟨none, hnone, rfl⟩
      · exact ⟨some a, hsome, rfl⟩
  induction l with
  | nil => simp
  | cons x l ih =>
    rw [List.map_cons, List.nodup_cons, hmem]
    cases x with
    | none =>
      have hcount : l.countP Option.isNone = 0 ↔ none ∉ l := by
        rw [List.countP_eq_zero]
        exact ⟨fun h hmem => h none hmem rfl, fun h x hx => by cases x <;> simp_all⟩
      have hrest : l.reduceOption.Nodup := h
      have hle : l.countP Option.isNone + 1 ≤ 1 ↔ none ∉ l := by rw [← hcount]; omega
      refine (and_congr_right fun _ => ih hrest).trans ?_
      rw [List.countP_cons_of_pos rfl, hle]
      simp only [Option.getD_none, List.mem_cons, true_or, true_imp_iff, and_true, reduceCtorEq,
        false_or, not_or]
      constructor
      · rintro ⟨⟨hnone, hsome⟩, -⟩
        exact ⟨hnone, hsome⟩
      · rintro ⟨hnone, hsome⟩
        exact ⟨⟨hnone, hsome⟩, by rw [hcount.2 hnone]; omega, fun h => absurd h hnone⟩
    | some a =>
      obtain ⟨hnot, hrest⟩ := List.nodup_cons.1 h
      have hnot : some a ∉ l := fun hmem => hnot (List.reduceOption_mem_iff.2 hmem)
      refine (and_congr_right fun _ => ih hrest).trans ?_
      rw [List.countP_cons_of_neg (by simp)]
      simp only [Option.getD_some, List.mem_cons, reduceCtorEq, false_or, Option.some.injEq, not_or]
      constructor
      · rintro ⟨⟨hfresh, -⟩, hcount, hdefault⟩
        exact ⟨hcount, fun hnone => ⟨fun h => hfresh ⟨hnone, h.symm⟩, hdefault hnone⟩⟩
      · rintro ⟨hcount, hdefault⟩
        refine ⟨⟨?_, hnot⟩, hcount, fun hnone => (hdefault hnone).2⟩
        rintro ⟨hnone, rfl⟩
        exact (hdefault hnone).1 rfl

namespace PartitionPlan

/-- The letters that the data partitions of the plan get. -/
def dataLetters (plan : PartitionPlan) : List Char :=
  plan.partitions.filterMap fun spec =>
    if spec.role = .data then some (spec.driveLetter.getD 'D').toUpper else none

/-- The letters of the data partitions are free: no data partition chooses the letter of the system
volume or of the RAM disk, and at most one gets the default letter, which no other chooses. -/
structure LettersFree (plan : PartitionPlan) : Prop where
  notReserved : ∀ spec ∈ plan.partitions, ∀ letter, spec.driveLetter = some letter →
    letter.toUpper ≠ 'S' ∧ letter.toUpper ≠ 'X'
  oneDefault : plan.partitions.countP
    (fun spec => spec.role == .data && spec.driveLetter.isNone) ≤ 1
  defaultFree : ∀ spec ∈ plan.partitions, spec.role = .data → spec.driveLetter = none →
    ∀ other ∈ plan.partitions, other.driveLetter.map Char.toUpper ≠ some 'D'

variable {plan : PartitionPlan}

/-- How often the script assigns a letter. -/
private theorem count_assignedLetters (letter : Char) :
    (plan.partitions.filterMap PartitionSpec.assignedLetter).count letter =
      plan.dataLetters.count letter +
        (if 'S' = letter then plan.countRole .efi + plan.countRole .system else 0) +
        (if 'W' = letter then plan.countRole .windows else 0) := by
  unfold dataLetters countRole
  induction plan.partitions with
  | nil => simp
  | cons spec specs ih =>
    simp only [List.filterMap_cons, List.countP_cons, PartitionSpec.assignedLetter]
    cases spec.role <;> simp only [List.count_cons, ih, beq_iff_eq, reduceCtorEq, if_true, if_false]
      <;> split_ifs <;> omega

/-- The letters of a plan: those of the system volume, of Windows and of the data partitions. -/
theorem assignedLetters_perm (h : plan.validate = .ok ()) :
    (plan.partitions.filterMap PartitionSpec.assignedLetter).Perm
      ('S' :: 'W' :: plan.dataLetters) := by
  refine List.perm_iff_count.2 fun letter => ?_
  rw [count_assignedLetters, countRole_efi_add_system h, countRole_windows h]
  simp only [List.count_cons, beq_iff_eq]
  omega

/-- Data partitions have no letter of another volume, but for that of the system volume. -/
private theorem isDataDriveLetter_of_mem_dataLetters (h : plan.validate = .ok ()) {letter : Char}
    (hletter : letter ∈ plan.dataLetters) : isDataDriveLetter letter = true := by
  obtain ⟨spec, hspec, hletter⟩ := List.mem_filterMap.1 hletter
  split_ifs at hletter with hrole
  rw [Option.some.injEq] at hletter
  cases hchosen : spec.driveLetter with
  | none =>
    rw [hchosen] at hletter
    rw [← hletter]
    decide
  | some chosen =>
    rw [hchosen] at hletter
    rw [← hletter]
    exact (driveLetter_of_validate h hspec hchosen).2

/-- The data partitions get distinct letters when at most one has the default and no other chooses
it. -/
private theorem nodup_dataLetters_iff (h : plan.validate = .ok ()) : plan.dataLetters.Nodup ↔
    plan.partitions.countP (fun spec => spec.role == .data && spec.driveLetter.isNone) ≤ 1 ∧
      ∀ spec ∈ plan.partitions, spec.role = .data → spec.driveLetter = none →
        ∀ other ∈ plan.partitions, other.driveLetter.map Char.toUpper ≠ some 'D' := by
  -- the letters that the data partitions choose
  set letters : List (Option Char) :=
    (plan.partitions.filter fun spec => spec.role == .data).map fun spec =>
      spec.driveLetter.map Char.toUpper with hletters
  have hdata : plan.dataLetters = letters.map fun letter => letter.getD 'D' := by
    rw [hletters, dataLetters]
    induction plan.partitions with
    | nil => rfl
    | cons spec specs ih =>
      rw [List.filterMap_cons, ih, List.filter_cons]
      by_cases hrole : spec.role = .data
      · have hletter : (spec.driveLetter.getD 'D').toUpper =
            (spec.driveLetter.map Char.toUpper).getD 'D' := by
          cases spec.driveLetter with
          | none => decide
          | some letter => rfl
        simp only [hrole, if_true, beq_self_eq_true, List.map_cons, hletter]
      · simp only [hrole, if_false, beq_iff_eq]
  have hchosen : letters.reduceOption =
      plan.partitions.filterMap fun spec => spec.driveLetter.map Char.toUpper := by
    rw [hletters, List.reduceOption, List.filterMap_map, List.filterMap_filter]
    refine List.filterMap_congr fun spec hspec => ?_
    cases hletter : spec.driveLetter with
    | none => simp [hletter]
    | some letter => simp [hletter, (driveLetter_of_validate h hspec hletter).1]
  have hnodup : letters.reduceOption.Nodup := hchosen ▸ nodup_driveLetters_of_validate h
  rw [hdata, nodup_map_getD_iff hnodup, hletters, List.countP_map, List.countP_filter]
  refine and_congr (by simp [Bool.and_comm]) ?_
  simp only [List.mem_map, List.mem_filter, beq_iff_eq, Option.map_eq_none_iff]
  constructor
  · intro hdefault spec hspec hrole hnone other hother hletter
    refine hdefault ⟨spec, ⟨hspec, hrole⟩, hnone⟩ ⟨other, ⟨hother, ?_⟩, hletter⟩
    obtain ⟨letter, hletter, -⟩ := Option.map_eq_some_iff.1 hletter
    exact (driveLetter_of_validate h hother hletter).1
  · rintro hdefault ⟨spec, ⟨hspec, hrole⟩, hnone⟩ ⟨other, ⟨hother, -⟩, hletter⟩
    exact hdefault spec hspec hrole hnone other hother hletter

/-- The letters of the script are distinct, and none is that of the RAM disk, when those of the data
partitions are free. -/
theorem nodup_letters_iff (h : plan.validate = .ok ()) :
    ((plan.partitions.filterMap PartitionSpec.assignedLetter ++ ['R']).Nodup ∧
      'X' ∉ plan.partitions.filterMap PartitionSpec.assignedLetter ++ ['R']) ↔
        plan.LettersFree := by
  have hperm : (plan.partitions.filterMap PartitionSpec.assignedLetter ++ ['R']).Perm
      ('S' :: 'W' :: 'R' :: plan.dataLetters) :=
    ((assignedLetters_perm h).append_right ['R']).trans
      ((List.perm_append_singleton 'R' plan.dataLetters).cons 'W' |>.cons 'S')
  have hwindows : 'W' ∉ plan.dataLetters := fun hmem =>
    absurd (isDataDriveLetter_of_mem_dataLetters h hmem) (by decide)
  have hcache : 'R' ∉ plan.dataLetters := fun hmem =>
    absurd (isDataDriveLetter_of_mem_dataLetters h hmem) (by decide)
  have hreserved : ∀ {reserved : Char}, reserved ≠ 'D' → (reserved ∉ plan.dataLetters ↔
      ∀ spec ∈ plan.partitions, ∀ letter, spec.driveLetter = some letter →
        letter.toUpper ≠ reserved) := by
    intro reserved hdefault
    constructor
    · intro hmem spec hspec letter hletter hreserved
      have hrole := (driveLetter_of_validate h hspec hletter).1
      exact hmem (List.mem_filterMap.2 ⟨spec, hspec, by simp [hrole, hletter, hreserved]⟩)
    · intro hchosen hmem
      obtain ⟨spec, hspec, hletter⟩ := List.mem_filterMap.1 hmem
      split_ifs at hletter with hrole
      cases hdrive : spec.driveLetter with
      | none => exact hdefault (by rw [← Option.some.inj hletter, hdrive]; decide)
      | some letter =>
        refine hchosen spec hspec letter hdrive ?_
        rw [← Option.some.inj hletter, hdrive]
        rfl
  rw [hperm.nodup_iff, hperm.mem_iff]
  simp only [List.nodup_cons, List.mem_cons, hwindows, hcache, nodup_dataLetters_iff h, not_or,
    hreserved (show 'S' ≠ 'D' by decide), hreserved (show 'X' ≠ 'D' by decide)]
  constructor
  · rintro ⟨⟨⟨-, -, hsystem⟩, -, -, hone, hfree⟩, -, -, -, hramDisk⟩
    exact ⟨fun spec hspec letter hletter =>
      ⟨hsystem spec hspec letter hletter, hramDisk spec hspec letter hletter⟩, hone, hfree⟩
  · rintro ⟨hreserved, hone, hfree⟩
    exact ⟨⟨⟨by decide, by decide, fun spec hspec letter hletter =>
      (hreserved spec hspec letter hletter).1⟩, ⟨by decide, not_false⟩, not_false, hone, hfree⟩,
      by decide, by decide, by decide, fun spec hspec letter hletter =>
        (hreserved spec hspec letter hletter).2⟩

end PartitionPlan

/-- The letters that the commands assign are distinct, and none is the letter X of the RAM disk that
the running environment is on. -/
structure DistinctLetters (commands : List DiskpartCommand) : Prop where
  nodup : (commands.filterMap DiskpartCommand.assignedLetter).Nodup
  notRamDisk : 'X' ∉ commands.filterMap DiskpartCommand.assignedLetter

section

variable {lease : AgentJobLease} {disk : Disk} {layout : PreparedLayout}

/-- The letters of the prepare script are distinct when those of the data partitions are free. -/
theorem distinctLetters_iff_lettersFree (h : prepareLayout lease disk = .ok layout) :
    ∃ size, remainingMib lease disk = some size ∧
      layout.prepareScript = scriptText (prepareCommands layout.diskNumber lease.partitionPlan.table
        (layoutPartitions lease size)) ∧
      (DistinctLetters (prepareCommands layout.diskNumber lease.partitionPlan.table
        (layoutPartitions lease size)) ↔ lease.partitionPlan.LettersFree) := by
  obtain ⟨hcheck, -, -, size, -, hsize, -, hprepare, -⟩ := scripts_of_prepareLayout h
  refine ⟨size, hsize, hprepare, ?_⟩
  rw [← PartitionPlan.nodup_letters_iff (checkPlan_eq_ok_iff.1 hcheck).1]
  have hletters : (prepareCommands layout.diskNumber lease.partitionPlan.table
      (layoutPartitions lease size)).filterMap DiskpartCommand.assignedLetter =
        lease.partitionPlan.partitions.filterMap PartitionSpec.assignedLetter ++ ['R'] := by
    rw [assignedLetters_prepareCommands, layoutPartitions, List.filterMap_append,
      letters_planPartitions]
    rfl
  rw [← hletters]
  exact ⟨fun h => ⟨h.nodup, h.notRamDisk⟩, fun h => ⟨h.1, h.2⟩⟩

end

/-- A plan whose data volume asks for the letter of the EFI partition. -/
def systemLetterPlan : PartitionPlan where
  table := .gpt
  partitions :=
    [{ role := .efi, sizeMib := some 300, fileSystem := some .fat32, label := "System",
       driveLetter := none },
     { role := .msr, sizeMib := some 16, fileSystem := none, label := "", driveLetter := none },
     { role := .windows, sizeMib := some 61440, fileSystem := some .ntfs, label := "Windows",
       driveLetter := none },
     { role := .data, sizeMib := none, fileSystem := some .ntfs, label := "Software",
       driveLetter := some 's' }]

/-- The script for the recommended plan has distinct letters. -/
theorem distinctLetters_uefiGpt : ∃ layout,
    prepareLayout (plannedLease PartitionPlan.uefiGpt) physicalDisk = .ok layout ∧
      ∃ size, layout.prepareScript = scriptText (prepareCommands layout.diskNumber .gpt
        (layoutPartitions (plannedLease PartitionPlan.uefiGpt) size)) ∧
      DistinctLetters (prepareCommands layout.diskNumber .gpt
        (layoutPartitions (plannedLease PartitionPlan.uefiGpt) size)) := by
  obtain ⟨layout, hlayout⟩ := exists_ok_of_isSome_toOption (show (prepareLayout
    (plannedLease PartitionPlan.uefiGpt) physicalDisk).toOption.isSome = true by decide +kernel)
  obtain ⟨size, -, hscript, hletters⟩ := distinctLetters_iff_lettersFree hlayout
  have hnone : ∀ spec ∈ PartitionPlan.uefiGpt.partitions, spec.driveLetter = none := by decide
  have hdata : ∀ spec ∈ PartitionPlan.uefiGpt.partitions, spec.role ≠ .data := by decide
  refine ⟨layout, hlayout, size, hscript, hletters.2 ⟨?_, by decide, ?_⟩⟩
  · intro spec hspec letter hletter
    exact absurd (hletter.symm.trans (hnone spec hspec)) (by simp)
  · intro spec hspec hrole
    exact absurd hrole (hdata spec hspec)

/-- The plan is valid and the Agent writes its scripts, and the prepare script gives the letter S to
the EFI partition and to the data volume. -/
theorem distinctLetters_fails_of_systemLetterPlan : systemLetterPlan.validate = .ok () ∧
    ∃ layout, prepareLayout (plannedLease systemLetterPlan) physicalDisk = .ok layout ∧
      remainingMib (plannedLease systemLetterPlan) physicalDisk = some 177071 ∧
      layout.prepareScript = scriptText (prepareCommands layout.diskNumber .gpt
        (layoutPartitions (plannedLease systemLetterPlan) 177071)) ∧
      ¬ DistinctLetters (prepareCommands layout.diskNumber .gpt
        (layoutPartitions (plannedLease systemLetterPlan) 177071)) := by
  obtain ⟨layout, hlayout⟩ := exists_ok_of_isSome_toOption (show (prepareLayout
    (plannedLease systemLetterPlan) physicalDisk).toOption.isSome = true by decide +kernel)
  obtain ⟨-, -, -, size, -, hsize, -, hscript, -⟩ := scripts_of_prepareLayout hlayout
  have hsize' : remainingMib (plannedLease systemLetterPlan) physicalDisk = some 177071 := by
    decide +kernel
  obtain rfl := Option.some.inj (hsize'.symm.trans hsize)
  refine ⟨by decide, layout, hlayout, hsize', hscript, fun h => absurd h.nodup ?_⟩
  rw [assignedLetters_prepareCommands]
  decide +kernel

/-! ### The cleanup -/

/-- The partition is the temporary one that holds the image. -/
def ScriptPartition.isCache (partition : ScriptPartition) : Bool := partition.spec.isNone

/-- The partition is that of the plan for the remaining space. -/
def ScriptPartition.takesRemaining (partition : ScriptPartition) : Bool :=
  partition.spec.any fun spec => spec.sizeMib.isNone

/-- The volumes that are selected when a script comes to the command. -/
def selectedVolumes (command : DiskpartCommand) :
    Option Char → List DiskpartCommand → List (Option Char)
  | _, [] => []
  | selected, next :: commands =>
    let selected := match next with
      | .selectVolume letter => some letter
      | _ => selected
    (if next = command then [selected] else []) ++ selectedVolumes command selected commands

/-- The image cache comes right behind the partition for the remaining space, nothing is created in
between, and the cleanup script deletes the volume of the cache and no other, and extends that of
the remaining partition and no other. The prepare script assigns letters in uppercase. -/
structure ReturnsCacheSpace (partitions : List ScriptPartition) (cleanup : List DiskpartCommand) :
    Prop where
  adjacent : ∃ before remaining cache, partitions = before ++ [remaining, cache] ∧
    remaining.takesRemaining = true ∧ cache.isCache = true ∧ cache.behindExtended = false
  deletesCache : ∃ letter, selectedVolumes .deleteVolume none cleanup = [some letter] ∧
    ∀ partition ∈ partitions, partition.letter = some letter.toUpper ↔ partition.isCache = true
  extendsRemaining : ∃ letter, selectedVolumes .extend none cleanup = [some letter] ∧
    ∀ partition ∈ partitions,
      partition.letter = some letter.toUpper ↔ partition.takesRemaining = true

/-- The letter that a data partition gets. -/
def PartitionSpec.dataLetter (spec : PartitionSpec) : Char := (spec.driveLetter.getD 'D').toUpper

/-- The partition for the remaining space is the last one of the plan, and if it is a data
partition, its letter is neither that of the system volume nor that of another data partition. -/
def PartitionPlan.RemainingLast (plan : PartitionPlan) : Prop :=
  ∃ others remaining, plan.partitions = others ++ [remaining] ∧ remaining.sizeMib = none ∧
    (remaining.role = .data → remaining.dataLetter ≠ 'S' ∧
      ∀ other ∈ others, other.role = .data → other.dataLetter ≠ remaining.dataLetter)

namespace PartitionPlan

variable {plan : PartitionPlan} {others : List PartitionSpec} {remaining : PartitionSpec}

/-- In front of a remaining partition that comes last, all partitions have a size of their own. -/
private theorem remainingPartition_of_last (h : plan.validate = .ok ())
    (hlast : plan.partitions = others ++ [remaining]) (hnone : remaining.sizeMib = none) :
    (∀ other ∈ others, other.sizeMib.isNone = false) ∧ plan.remainingPartition = some remaining ∧
      (remaining.role = .windows ∨ remaining.role = .data) := by
  obtain ⟨found, hfilter, hrole⟩ := exists_filter_of_validate h
  have hsplit : others.filter (fun partition => partition.sizeMib.isNone) ++ [remaining] =
      [] ++ [found] := by
    rw [hlast, List.filter_append] at hfilter
    simpa [hnone] using hfilter
  obtain ⟨hothers, hfound⟩ := List.append_inj' hsplit rfl
  obtain rfl := List.singleton_inj.1 hfound
  have hsized : ∀ other ∈ others, other.sizeMib.isNone = false := by
    simpa [Option.isSome_iff_ne_none] using List.filter_eq_nil_iff.1 hothers
  refine ⟨hsized, ?_, hrole⟩
  rw [remainingPartition, ← List.head?_filter, hfilter]
  rfl

/-- The letters of the volumes, by role. -/
private theorem assignedLetter_eq_some_iff {spec : PartitionSpec} {letter : Char} :
    spec.assignedLetter = some letter ↔
      ((spec.role = .efi ∨ spec.role = .system) ∧ letter = 'S') ∨
      (spec.role = .windows ∧ letter = 'W') ∨ (spec.role = .data ∧ letter = spec.dataLetter) := by
  unfold PartitionSpec.assignedLetter PartitionSpec.dataLetter
  cases spec.role <;> simp [eq_comm]

/-- The EFI or system partition. -/
private theorem exists_bootPartition (h : plan.validate = .ok ()) :
    ∃ spec ∈ plan.partitions, spec.role = .efi ∨ spec.role = .system := by
  have hcount := countRole_efi_add_system h
  have hpos : 0 < plan.countRole .efi ∨ 0 < plan.countRole .system := by omega
  rcases hpos with hpos | hpos
  · obtain ⟨spec, hspec, hrole⟩ := List.countP_pos_iff.1 hpos
    exact ⟨spec, hspec, Or.inl (beq_iff_eq.1 hrole)⟩
  · obtain ⟨spec, hspec, hrole⟩ := List.countP_pos_iff.1 hpos
    exact ⟨spec, hspec, Or.inr (beq_iff_eq.1 hrole)⟩

private theorem isDataDriveLetter_dataLetter (h : plan.validate = .ok ()) {spec : PartitionSpec}
    (hspec : spec ∈ plan.partitions) (hrole : spec.role = .data) :
    isDataDriveLetter spec.dataLetter = true :=
  isDataDriveLetter_of_mem_dataLetters h
    (List.mem_filterMap.2 ⟨spec, hspec, by rw [if_pos hrole]; rfl⟩)

end PartitionPlan

section

variable {lease : AgentJobLease} {disk : Disk} {layout : PreparedLayout}

/-- The cleanup script deletes the volume R and extends the remaining one. -/
theorem selectedVolumes_cleanupCommands (diskNumber : UInt32) (letter : Char) :
    selectedVolumes .deleteVolume none (cleanupCommands diskNumber letter) = [some 'R'] ∧
      selectedVolumes .extend none (cleanupCommands diskNumber letter) = [some letter] := by
  simp [selectedVolumes, cleanupCommands]

/-- No partition of the plan has the letter of the image cache. -/
private theorem assignedLetter_ne_cache {spec : PartitionSpec}
    (h : lease.partitionPlan.validate = .ok ()) (hspec : spec ∈ lease.partitionPlan.partitions) :
    spec.assignedLetter ≠ some 'R' := by
  intro hletter
  rcases PartitionPlan.assignedLetter_eq_some_iff.1 hletter with ⟨-, h⟩ | ⟨-, h⟩ | ⟨hrole, hletter⟩
  · exact absurd h (by decide)
  · exact absurd h (by decide)
  · have hdata := PartitionPlan.isDataDriveLetter_dataLetter h hspec hrole
    rw [← hletter] at hdata
    exact absurd hdata (by decide)

/-- Only the image cache has the letter R. -/
private theorem letter_eq_cache_iff {size : UInt64} (h : lease.partitionPlan.validate = .ok ())
    {partition : ScriptPartition} (hmem : partition ∈ layoutPartitions lease size) :
    partition.letter = some 'R' ↔ partition.isCache = true := by
  rcases List.mem_append.1 hmem with hmem | hmem
  · obtain ⟨spec, hspec, behindExtended, rfl⟩ := exists_of_mem_planPartitions hmem
    exact iff_of_false (assignedLetter_ne_cache h hspec)
      (by simp [ScriptPartition.isCache, PartitionSpec.toScript])
  · obtain rfl := List.mem_singleton.1 hmem
    exact iff_of_true rfl rfl

/-- The cleanup script extends the volume with the letter of the remaining partition. -/
private theorem toUpper_extendLetter {remaining : PartitionSpec}
    (hrole : remaining.role = .windows ∨ remaining.role = .data) :
    some (extendLetter remaining).toUpper = remaining.assignedLetter := by
  rcases hrole with hrole | hrole
  · rw [extendLetter, if_neg (by simp [hrole]), PartitionSpec.assignedLetter, hrole]
    rfl
  · rw [extendLetter, if_pos hrole, PartitionSpec.assignedLetter, hrole]

/-- The layout of a plan by its last partition. -/
private theorem layoutPartitions_of_last (size : UInt64) {others : List PartitionSpec}
    {last : PartitionSpec} (hlast : lease.partitionPlan.partitions = others ++ [last]) :
    ∃ behindExtended, layoutPartitions lease size =
      planPartitions lease.partitionPlan size false others ++
        [last.toScript lease.partitionPlan size behindExtended,
          cachePartition lease.partitionPlan (PartitionPlan.cacheMib lease.image.sizeBytes)] := by
  rw [layoutPartitions, hlast, planPartitions_append, List.append_assoc]
  exact ⟨_, rfl⟩

/-- The remaining partition shares its letter with none of the others. -/
private theorem assignedLetter_ne_of_remainingLast {others : List PartitionSpec}
    {last other : PartitionSpec} (h : lease.partitionPlan.validate = .ok ())
    (hlast : lease.partitionPlan.partitions = others ++ [last])
    (hrole : last.role = .windows ∨ last.role = .data)
    (hletter : last.role = .data → last.dataLetter ≠ 'S' ∧
      ∀ other ∈ others, other.role = .data → other.dataLetter ≠ last.dataLetter)
    (hother : other ∈ others) : other.assignedLetter ≠ last.assignedLetter := by
  intro heq
  have hmem : last ∈ lease.partitionPlan.partitions := by rw [hlast]; simp
  have hmem' : other ∈ lease.partitionPlan.partitions := by rw [hlast]; simp [hother]
  rcases hrole with hwindows | hdata
  · have hsome : other.assignedLetter = some 'W' := by
      rw [heq, PartitionSpec.assignedLetter, hwindows]
    rcases PartitionPlan.assignedLetter_eq_some_iff.1 hsome with ⟨-, h'⟩ | ⟨hrole, -⟩ | ⟨hrole, h'⟩
    · exact absurd h' (by decide)
    · -- the plan has one Windows partition
      have hcount := PartitionPlan.countRole_windows h
      have hpos : 0 < others.countP fun partition => partition.role == .windows :=
        List.countP_pos_iff.2 ⟨other, hother, by simp [hrole]⟩
      rw [PartitionPlan.countRole, hlast, List.countP_append, List.countP_singleton,
        hwindows] at hcount
      simp only [beq_self_eq_true, if_true] at hcount
      omega
    · have hletter := PartitionPlan.isDataDriveLetter_dataLetter h hmem' hrole
      rw [← h'] at hletter
      exact absurd hletter (by decide)
  · obtain ⟨hsystem, hothers⟩ := hletter hdata
    have hsome : other.assignedLetter = some last.dataLetter := by
      rw [heq, PartitionSpec.assignedLetter, hdata]
      rfl
    rcases PartitionPlan.assignedLetter_eq_some_iff.1 hsome with ⟨-, h'⟩ | ⟨-, h'⟩ | ⟨hrole, h'⟩
    · exact hsystem h'
    · have hletter := PartitionPlan.isDataDriveLetter_dataLetter h hmem hdata
      rw [h'] at hletter
      exact absurd hletter (by decide)
    · exact hothers other hother hrole h'.symm

/-- The space of the cache returns to the remaining partition when this one comes last and has a
letter of its own. -/
theorem returnsCacheSpace_layoutPartitions_iff {size : UInt64} {diskNumber : UInt32}
    {remaining : PartitionSpec} (h : lease.partitionPlan.validate = .ok ())
    (hremaining : lease.partitionPlan.remainingPartition = some remaining) :
    ReturnsCacheSpace (layoutPartitions lease size)
      (cleanupCommands diskNumber (extendLetter remaining)) ↔
        lease.partitionPlan.RemainingLast := by
  obtain ⟨hdelete, hextend⟩ :=
    selectedVolumes_cleanupCommands diskNumber (extendLetter remaining)
  constructor
  · rintro ⟨⟨before, absorbing, cache, hpartitions, htakes, -, -⟩, -, letter, hletter, hextends⟩
    obtain ⟨others, last, hlast⟩ :
        ∃ others last, lease.partitionPlan.partitions = others ++ [last] := by
      rcases List.eq_nil_or_concat' lease.partitionPlan.partitions with hnil | hlast
      · exact absurd hnil (PartitionPlan.validate_eq_ok_iff.1 h).1
      · exact hlast
    obtain ⟨behindExtended, hlayout⟩ := layoutPartitions_of_last size hlast
    obtain ⟨-, htail⟩ := List.append_inj' (hpartitions.symm.trans hlayout) rfl
    obtain ⟨rfl, -⟩ := List.cons_eq_cons.1 htail
    have hnone : last.sizeMib = none := by
      simpa [ScriptPartition.takesRemaining, PartitionSpec.toScript] using htakes
    obtain ⟨hsized, hfound, hrole⟩ := PartitionPlan.remainingPartition_of_last h hlast hnone
    obtain rfl := Option.some.inj (hremaining.symm.trans hfound)
    obtain rfl : extendLetter remaining = letter := by simpa using hextend.symm.trans hletter
    rw [toUpper_extendLetter hrole] at hextends
    have hne : ∀ other ∈ others, other.assignedLetter ≠ remaining.assignedLetter := by
      intro other hother heq
      obtain ⟨behindExtended, hmem⟩ :=
        exists_mem_planPartitions lease.partitionPlan size false hother
      have htakes := (hextends _ (by rw [hlayout]; exact List.mem_append_left _ hmem)).1 heq
      simp [ScriptPartition.takesRemaining, PartitionSpec.toScript, hsized other hother] at htakes
    refine ⟨others, remaining, hlast, hnone, fun hdata => ?_⟩
    have hsome : remaining.assignedLetter = some remaining.dataLetter := by
      rw [PartitionSpec.assignedLetter, hdata]
      rfl
    rw [hsome] at hne
    refine ⟨fun hsystem => ?_, fun other hother hrole hletter => hne other hother ?_⟩
    · -- the EFI or system partition comes before the remaining one
      obtain ⟨system, hmem, hboot⟩ := PartitionPlan.exists_bootPartition h
      rw [hlast] at hmem
      rcases List.mem_append.1 hmem with hmem | hmem
      · exact hne system hmem
          (PartitionPlan.assignedLetter_eq_some_iff.2 (Or.inl ⟨hboot, hsystem⟩))
      · obtain rfl := List.mem_singleton.1 hmem
        simp [hdata] at hboot
    · exact PartitionPlan.assignedLetter_eq_some_iff.2 (Or.inr (Or.inr ⟨hrole, hletter.symm⟩))
  · rintro ⟨others, last, hlast, hnone, hletter⟩
    obtain ⟨hsized, hfound, hrole⟩ := PartitionPlan.remainingPartition_of_last h hlast hnone
    obtain rfl := Option.some.inj (hremaining.symm.trans hfound)
    obtain ⟨behindExtended, hlayout⟩ := layoutPartitions_of_last size hlast
    refine ⟨⟨_, _, _, hlayout, ?_, rfl, rfl⟩, ⟨'R', hdelete, fun partition hmem =>
      letter_eq_cache_iff h hmem⟩, ⟨extendLetter remaining, hextend, fun partition hmem => ?_⟩⟩
    · simp [ScriptPartition.takesRemaining, PartitionSpec.toScript, hnone]
    · rw [toUpper_extendLetter hrole]
      rw [hlayout] at hmem
      rcases List.mem_append.1 hmem with hmem | hmem
      · obtain ⟨other, hother, behindExtended, rfl⟩ := exists_of_mem_planPartitions hmem
        refine iff_of_false (assignedLetter_ne_of_remainingLast h hlast hrole hletter hother) ?_
        simp [ScriptPartition.takesRemaining, PartitionSpec.toScript, hsized other hother]
      · rcases List.mem_cons.1 hmem with rfl | hmem
        · exact iff_of_true rfl
            (by simp [ScriptPartition.takesRemaining, PartitionSpec.toScript, hnone])
        · obtain rfl := List.mem_singleton.1 hmem
          refine iff_of_false (fun hletter => ?_)
            (by simp [ScriptPartition.takesRemaining, cachePartition])
          exact assignedLetter_ne_cache h (by rw [hlast]; simp) hletter.symm

/-- The cleanup returns the space of the image cache exactly when the remaining partition comes last
and has a letter of its own. -/
theorem returnsCacheSpace_iff_remainingLast (h : prepareLayout lease disk = .ok layout) :
    ∃ size remaining, remainingMib lease disk = some size ∧
      lease.partitionPlan.remainingPartition = some remaining ∧
      layout.prepareScript = scriptText (prepareCommands layout.diskNumber lease.partitionPlan.table
        (layoutPartitions lease size)) ∧
      layout.cleanupScript =
        scriptText (cleanupCommands layout.diskNumber (extendLetter remaining)) ∧
      (ReturnsCacheSpace (layoutPartitions lease size)
        (cleanupCommands layout.diskNumber (extendLetter remaining)) ↔
        lease.partitionPlan.RemainingLast) := by
  obtain ⟨hcheck, -, remaining, size, hremaining, hsize, -, hprepare, hcleanup⟩ :=
    scripts_of_prepareLayout h
  exact ⟨size, remaining, hsize, hremaining, hprepare, hcleanup,
    returnsCacheSpace_layoutPartitions_iff (checkPlan_eq_ok_iff.1 hcheck).1 hremaining⟩

end

/-- A plan with a data volume behind the remaining Windows partition. -/
def dataBehindWindows : PartitionPlan where
  table := .gpt
  partitions :=
    [{ role := .efi, sizeMib := some 300, fileSystem := some .fat32, label := "System",
       driveLetter := none },
     { role := .msr, sizeMib := some 16, fileSystem := none, label := "", driveLetter := none },
     { role := .windows, sizeMib := none, fileSystem := some .ntfs, label := "Windows",
       driveLetter := none },
     { role := .data, sizeMib := some 40960, fileSystem := some .ntfs, label := "Software",
       driveLetter := some 'D' }]

/-- The cleanup for the recommended plan returns the space. -/
theorem returnsCacheSpace_uefiGpt : ∃ layout,
    prepareLayout (plannedLease PartitionPlan.uefiGpt) physicalDisk = .ok layout ∧
      ∃ size remaining, layout.cleanupScript =
          scriptText (cleanupCommands layout.diskNumber (extendLetter remaining)) ∧
        ReturnsCacheSpace (layoutPartitions (plannedLease PartitionPlan.uefiGpt) size)
          (cleanupCommands layout.diskNumber (extendLetter remaining)) := by
  obtain ⟨layout, hlayout⟩ := exists_ok_of_isSome_toOption (show (prepareLayout
    (plannedLease PartitionPlan.uefiGpt) physicalDisk).toOption.isSome = true by decide +kernel)
  obtain ⟨size, remaining, -, -, -, hcleanup, hreturns⟩ :=
    returnsCacheSpace_iff_remainingLast hlayout
  refine ⟨layout, hlayout, size, remaining, hcleanup, hreturns.2 ?_⟩
  exact ⟨PartitionPlan.uefiGpt.partitions.dropLast,
    PartitionPlan.uefiGpt.partitions.getLast (by decide), rfl, rfl,
    fun hdata => absurd hdata (by decide)⟩

/-- The data volume lies between the remaining partition and the image cache. -/
theorem returnsCacheSpace_fails_of_dataBehindWindows : ∃ layout,
    prepareLayout (plannedLease dataBehindWindows) physicalDisk = .ok layout ∧
      ∃ size remaining, remainingMib (plannedLease dataBehindWindows) physicalDisk = some size ∧
        layout.prepareScript = scriptText (prepareCommands layout.diskNumber .gpt
          (layoutPartitions (plannedLease dataBehindWindows) size)) ∧
        layout.cleanupScript =
          scriptText (cleanupCommands layout.diskNumber (extendLetter remaining)) ∧
        ¬ ReturnsCacheSpace (layoutPartitions (plannedLease dataBehindWindows) size)
          (cleanupCommands layout.diskNumber (extendLetter remaining)) := by
  obtain ⟨layout, hlayout⟩ := exists_ok_of_isSome_toOption (show (prepareLayout
    (plannedLease dataBehindWindows) physicalDisk).toOption.isSome = true by decide +kernel)
  obtain ⟨hcheck, -, remaining, size, hremaining, hsize, -, hprepare, hcleanup⟩ :=
    scripts_of_prepareLayout hlayout
  refine ⟨layout, hlayout, size, remaining, hsize, hprepare, hcleanup, fun hreturns => ?_⟩
  obtain ⟨others, last, hlast, hnone, -⟩ := (returnsCacheSpace_layoutPartitions_iff
    (checkPlan_eq_ok_iff.1 hcheck).1 hremaining).1 hreturns
  have hlast : dataBehindWindows.partitions.getLast? = some last := by
    rw [show dataBehindWindows.partitions = others ++ [last] from hlast, List.getLast?_concat]
  rw [← Option.some.inj hlast] at hnone
  exact absurd hnone (by decide)

/-! ### File systems -/

namespace ScriptPartition

/-- The file system that the partition is used with: FAT32 for the EFI partition and NTFS for the
system, Windows and data partitions and the image cache. -/
def usedFileSystem (partition : ScriptPartition) : PartitionFileSystem :=
  if partition.spec.any fun spec => spec.role == .efi then .fat32 else .ntfs

/-- A partition that gets a letter is formatted for its use, right behind its creation and in front
of the assignment. -/
def FormattedForUse (partition : ScriptPartition) : Prop :=
  partition.letter.isSome = true → ∃ before label after, partition.commands =
    before ++ [.create partition.kind partition.sizeMib, .format partition.usedFileSystem label] ++
      after ∧ before.filterMap DiskpartCommand.assignedLetter = []

private theorem format_of_mem_commands {partition : ScriptPartition}
    {fileSystem : PartitionFileSystem} {label : String}
    (h : DiskpartCommand.format fileSystem label ∈ partition.commands) :
    partition.format = some (fileSystem, label) := by
  simp only [commands, List.mem_append] at h
  rcases h with (((h | h) | h) | h) | h
  · cases hbehind : partition.behindExtended <;> simp [hbehind] at h
  · simp at h
  · obtain ⟨format, hformat, h⟩ := Option.map_eq_some_iff.1 (Option.mem_toList.1 h)
    rw [hformat, ← (DiskpartCommand.format.inj h).1, ← (DiskpartCommand.format.inj h).2]
  · cases hactive : partition.active <;> simp [hactive] at h
  · obtain ⟨letter, -, h⟩ := Option.map_eq_some_iff.1 (Option.mem_toList.1 h)
    exact absurd h (by simp)

theorem formattedForUse_iff {partition : ScriptPartition} : partition.FormattedForUse ↔
    (partition.letter.isSome = true →
      ∃ label, partition.format = some (partition.usedFileSystem, label)) := by
  refine imp_congr_right fun _ => ⟨?_, ?_⟩
  · rintro ⟨before, label, after, hcommands, -⟩
    exact ⟨label, format_of_mem_commands (by rw [hcommands]; simp)⟩
  · rintro ⟨label, hformat⟩
    refine ⟨if partition.behindExtended then [.createExtended] else [], label,
      (if partition.active then [.active] else []) ++
        (partition.letter.map DiskpartCommand.assign).toList, ?_, ?_⟩
    · simp [commands, hformat]
    · cases partition.behindExtended <;> rfl

end ScriptPartition

section

variable {lease : AgentJobLease} {disk : Disk} {layout : PreparedLayout}

/-- Every lettered partition is formatted for its use exactly when the plan gives the Windows
partition the file system NTFS. -/
theorem formattedForUse_iff_windowsNtfs (h : prepareLayout lease disk = .ok layout) :
    ∃ size, remainingMib lease disk = some size ∧
      layout.prepareScript = scriptText (prepareCommands layout.diskNumber lease.partitionPlan.table
        (layoutPartitions lease size)) ∧
      ((∀ partition ∈ layoutPartitions lease size, partition.FormattedForUse) ↔
        ∀ spec ∈ lease.partitionPlan.partitions, spec.role = .windows →
          spec.fileSystem = some .ntfs) := by
  obtain ⟨hcheck, -, -, size, -, hsize, -, hprepare, -⟩ := scripts_of_prepareLayout h
  have hvalid := (checkPlan_eq_ok_iff.1 hcheck).1
  refine ⟨size, hsize, hprepare, ?_⟩
  simp only [ScriptPartition.formattedForUse_iff]
  constructor
  · intro hformatted spec hspec hrole
    obtain ⟨behindExtended, hmem⟩ := exists_mem_planPartitions lease.partitionPlan size false hspec
    obtain ⟨label, hformat⟩ := hformatted _ (List.mem_append_left _ hmem)
      (by simp [PartitionSpec.toScript, PartitionSpec.assignedLetter, hrole])
    obtain ⟨fileSystem, hfileSystem, heq⟩ := Option.map_eq_some_iff.1 hformat
    rw [hfileSystem, (Prod.mk.inj heq).1]
    simp [ScriptPartition.usedFileSystem, PartitionSpec.toScript, hrole]
  · intro hwindows partition hmem hletter
    rcases List.mem_append.1 hmem with hmem | hmem
    · obtain ⟨spec, hspec, behindExtended, rfl⟩ := exists_of_mem_planPartitions hmem
      obtain ⟨hefi, hsystem, hdata⟩ := PartitionPlan.fileSystem_of_validate hvalid hspec
      refine ⟨spec.label, ?_⟩
      simp only [PartitionSpec.toScript, ScriptPartition.usedFileSystem, Option.any_some,
        beq_iff_eq, PartitionSpec.assignedLetter] at hletter ⊢
      -- the validation covers all roles with a letter but that of Windows
      cases hrole : spec.role with
      | efi => simp [hefi hrole]
      | system => simp [hsystem hrole]
      | windows => simp [hwindows spec hspec hrole]
      | data => simp [hdata hrole]
      | msr => simp [hrole] at hletter
      | recovery => simp [hrole] at hletter
    · obtain rfl := List.mem_singleton.1 hmem
      exact ⟨_, rfl⟩

end

/-- The recommended UEFI plan without a file system for the Windows partition. -/
def unformattedWindows : PartitionPlan where
  table := .gpt
  partitions :=
    [{ role := .efi, sizeMib := some 300, fileSystem := some .fat32, label := "System",
       driveLetter := none },
     { role := .msr, sizeMib := some 16, fileSystem := none, label := "", driveLetter := none },
     { role := .windows, sizeMib := none, fileSystem := none, label := "Windows",
       driveLetter := none }]

/-- The script for the recommended plan formats its lettered partitions. -/
theorem formattedForUse_uefiGpt : ∃ layout,
    prepareLayout (plannedLease PartitionPlan.uefiGpt) physicalDisk = .ok layout ∧
      ∃ size, layout.prepareScript = scriptText (prepareCommands layout.diskNumber .gpt
          (layoutPartitions (plannedLease PartitionPlan.uefiGpt) size)) ∧
        ∀ partition ∈ layoutPartitions (plannedLease PartitionPlan.uefiGpt) size,
          partition.FormattedForUse := by
  obtain ⟨layout, hlayout⟩ := exists_ok_of_isSome_toOption (show (prepareLayout
    (plannedLease PartitionPlan.uefiGpt) physicalDisk).toOption.isSome = true by decide +kernel)
  obtain ⟨size, -, hprepare, hformatted⟩ := formattedForUse_iff_windowsNtfs hlayout
  have hwindows : ∀ spec ∈ PartitionPlan.uefiGpt.partitions, spec.role = .windows →
      spec.fileSystem = some .ntfs := by decide
  exact ⟨layout, hlayout, size, hprepare, hformatted.2 hwindows⟩

/-- The plan is valid and the Agent writes its scripts, and the Windows volume is not formatted. -/
theorem formattedForUse_fails_of_unformattedWindows : unformattedWindows.validate = .ok () ∧
    ∃ layout, prepareLayout (plannedLease unformattedWindows) physicalDisk = .ok layout ∧
      ∃ size, remainingMib (plannedLease unformattedWindows) physicalDisk = some size ∧
        layout.prepareScript = scriptText (prepareCommands layout.diskNumber .gpt
          (layoutPartitions (plannedLease unformattedWindows) size)) ∧
        ∃ partition ∈ layoutPartitions (plannedLease unformattedWindows) size,
          ¬ partition.FormattedForUse := by
  obtain ⟨layout, hlayout⟩ := exists_ok_of_isSome_toOption (show (prepareLayout
    (plannedLease unformattedWindows) physicalDisk).toOption.isSome = true by decide +kernel)
  obtain ⟨-, -, -, size, -, hsize, -, hprepare, -⟩ := scripts_of_prepareLayout hlayout
  obtain ⟨windows, hmem, hrole, hnone⟩ : ∃ spec ∈ unformattedWindows.partitions,
      spec.role = .windows ∧ spec.fileSystem = none := by decide
  obtain ⟨behindExtended, hmem⟩ := exists_mem_planPartitions unformattedWindows size false hmem
  refine ⟨by decide, layout, hlayout, size, hsize, hprepare, _, List.mem_append_left _ hmem, ?_⟩
  rw [ScriptPartition.formattedForUse_iff]
  simp [PartitionSpec.toScript, PartitionSpec.assignedLetter, hrole, hnone]

end EasyDeployMesh
