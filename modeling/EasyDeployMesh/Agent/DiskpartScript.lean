import EasyDeployMesh.Agent.Deployment

/-!
# The DiskPart scripts as commands

The scripts that `prepare_layout` of `crates/agent/src/deployment.rs` writes, as lists of commands.
The prepare script creates one partition after the other: those of the plan in the order of the
plan, and the image cache behind them. A command is one line of a script.

## Main definitions

* `EasyDeployMesh.DiskpartCommand`, `EasyDeployMesh.DiskpartCommand.line`: the commands and their
  text.
* `EasyDeployMesh.ScriptPartition`, `EasyDeployMesh.layoutPartitions`: the partitions that the
  prepare script creates.
* `EasyDeployMesh.prepareCommands`, `EasyDeployMesh.cleanupCommands`: the scripts.

## Main results

* `EasyDeployMesh.scripts_of_prepareLayout`: the scripts of a layout are these commands.
-/

namespace EasyDeployMesh

open Foundations

/-- The kinds of partition that a script creates. -/
inductive PartitionKind
  | efi
  | msr
  | primary
  | extended
  | logical
  deriving DecidableEq

/-- The name that `create partition` takes for a kind. -/
def PartitionKind.diskpartName : PartitionKind → String
  | efi => "efi"
  | msr => "msr"
  | primary => "primary"
  | extended => "extended"
  | logical => "logical"

/-- The name that `convert` takes for a partition table. -/
def PartitionTable.diskpartName : PartitionTable → String
  | gpt => "gpt"
  | mbr => "mbr"

/-- The commands of a script, before they are written out as lines. -/
inductive DiskpartCommand
  | selectDisk (number : UInt32)
  | clean
  | convert (table : PartitionTable)
  | createExtended
  | create (kind : PartitionKind) (sizeMib : UInt64)
  | format (fileSystem : PartitionFileSystem) (label : String)
  | active
  | assign (letter : Char)
  | selectVolume (letter : Char)
  | deleteVolume
  | extend
  | exit
  deriving DecidableEq

namespace DiskpartCommand

/-- The line that creates a partition of a given size. -/
def createLine (kind : String) (sizeMib : UInt64) : String :=
  s!"create partition {kind} size={sizeMib}"

/-- The line that formats the partition in focus. -/
def formatLine (fileSystem : PartitionFileSystem) (label : String) : String :=
  "format quick fs=" ++ fileSystem.diskpartName ++ " label=\"" ++ label ++ "\""

/-- The line that gives the partition in focus a letter. -/
def assignLine (letter : Char) : String :=
  s!"assign letter={letter}"

/-- The line of a script. -/
def line : DiskpartCommand → String
  | selectDisk number => s!"select disk {number}"
  | clean => "clean"
  | convert table => "convert " ++ table.diskpartName
  | createExtended => "create partition extended"
  | create kind sizeMib => createLine kind.diskpartName sizeMib
  | format fileSystem label => formatLine fileSystem label
  | active => "active"
  | assign letter => assignLine letter
  | selectVolume letter => s!"select volume {letter}"
  | deleteVolume => "delete volume"
  | extend => "extend"
  | exit => "exit"

/-- The kind of partition that a command creates. -/
def createdKind : DiskpartCommand → Option PartitionKind
  | createExtended => some .extended
  | create kind _ => some kind
  | _ => none

/-- The letter that a command assigns. -/
def assignedLetter : DiskpartCommand → Option Char
  | assign letter => some letter
  | _ => none

/-- The size of the partition that a command creates. -/
def createdSize : DiskpartCommand → Option UInt64
  | create _ sizeMib => some sizeMib
  | _ => none

end DiskpartCommand

/-- The text of a script. -/
def scriptText (commands : List DiskpartCommand) : String :=
  Text.unlines (commands.map DiskpartCommand.line)

/-! ### The partitions of the prepare script -/

/-- A partition that the prepare script creates. -/
structure ScriptPartition where
  /-- The partition of the plan, or `none` for the image cache. -/
  spec : Option PartitionSpec
  /-- An extended partition is created in front of it. -/
  behindExtended : Bool
  kind : PartitionKind
  sizeMib : UInt64
  format : Option (PartitionFileSystem × String)
  active : Bool
  letter : Option Char
  deriving DecidableEq

/-- The commands for one partition. -/
def ScriptPartition.commands (partition : ScriptPartition) : List DiskpartCommand :=
  (if partition.behindExtended then [.createExtended] else []) ++
    [.create partition.kind partition.sizeMib] ++
    (partition.format.map fun format => DiskpartCommand.format format.1 format.2).toList ++
    (if partition.active then [.active] else []) ++
    (partition.letter.map DiskpartCommand.assign).toList

namespace PartitionSpec

/-- The letter of a partition of the plan. -/
def assignedLetter (spec : PartitionSpec) : Option Char :=
  match spec.role with
  | .efi | .system => some 'S'
  | .windows => some 'W'
  | .data => some (spec.driveLetter.getD 'D').toUpper
  | .msr | .recovery => none

/-- The partition is a logical one. -/
def isLogical (plan : PartitionPlan) (spec : PartitionSpec) : Bool :=
  plan.usesMbrExtendedPartition && spec.role == .data

/-- The kind of partition a specification is created as; the role decides unless it is logical. -/
def kind (plan : PartitionPlan) (spec : PartitionSpec) : PartitionKind :=
  if spec.isLogical plan then .logical
  else match spec.role with
    | .efi => .efi
    | .msr => .msr
    | _ => .primary

/-- The partition of the script for a partition of the plan. -/
def toScript (plan : PartitionPlan) (remainingMib : UInt64) (behindExtended : Bool)
    (spec : PartitionSpec) : ScriptPartition where
  spec := some spec
  behindExtended := behindExtended
  kind := spec.kind plan
  sizeMib := spec.sizeMib.getD remainingMib
  format := spec.fileSystem.map fun fileSystem => (fileSystem, spec.label)
  active := spec.role == .system && plan.table == .mbr
  letter := spec.assignedLetter

end PartitionSpec

/-- The partitions of the script for those of the plan; `created` is whether the extended partition
is there already. -/
def planPartitions (plan : PartitionPlan) (remainingMib : UInt64) :
    Bool → List PartitionSpec → List ScriptPartition
  | _, [] => []
  | created, spec :: specs =>
    spec.toScript plan remainingMib (spec.isLogical plan && !created) ::
      planPartitions plan remainingMib (created || spec.isLogical plan) specs

/-- The temporary partition that holds the image. -/
def cachePartition (plan : PartitionPlan) (cacheMib : UInt64) : ScriptPartition where
  spec := none
  behindExtended := false
  kind := if plan.usesMbrExtendedPartition then .logical else .primary
  sizeMib := cacheMib
  format := some (.ntfs, "EasyDeployMesh Cache")
  active := false
  letter := some 'R'

/-- The partitions that the prepare script creates. -/
def layoutPartitions (lease : AgentJobLease) (remainingMib : UInt64) : List ScriptPartition :=
  planPartitions lease.partitionPlan remainingMib false lease.partitionPlan.partitions ++
    [cachePartition lease.partitionPlan (PartitionPlan.cacheMib lease.image.sizeBytes)]

/-! ### The scripts -/

/-- The commands that clean a disk and create its partitions in the order of the plan. -/
def prepareCommands (diskNumber : UInt32) (table : PartitionTable)
    (partitions : List ScriptPartition) : List DiskpartCommand :=
  [.selectDisk diskNumber, .clean, .convert table] ++
    partitions.flatMap ScriptPartition.commands ++ [.exit]

/-- The commands that delete the image cache and extend the volume with the given letter. -/
def cleanupCommands (diskNumber : UInt32) (extendLetter : Char) : List DiskpartCommand :=
  [.selectDisk diskNumber, .selectVolume 'R', .deleteVolume, .selectVolume extendLetter, .extend,
    .exit]

/-- The letter of the volume that the cleanup script extends. -/
def extendLetter (remaining : PartitionSpec) : Char :=
  if remaining.role = .data then remaining.driveLetter.getD 'D' else 'W'

/-! ### What the commands do -/

namespace ScriptPartition

variable (partition : ScriptPartition)

theorem assignedLetters_commands :
    partition.commands.filterMap DiskpartCommand.assignedLetter = partition.letter.toList := by
  obtain ⟨spec, behindExtended, kind, sizeMib, format, active, letter⟩ := partition
  cases behindExtended <;> cases format <;> cases active <;> cases letter <;> rfl

theorem createdKinds_commands : partition.commands.filterMap DiskpartCommand.createdKind =
    if partition.behindExtended then [.extended, partition.kind] else [partition.kind] := by
  obtain ⟨spec, behindExtended, kind, sizeMib, format, active, letter⟩ := partition
  cases behindExtended <;> cases format <;> cases active <;> cases letter <;> rfl

theorem createdSizes_commands :
    partition.commands.filterMap DiskpartCommand.createdSize = [partition.sizeMib] := by
  obtain ⟨spec, behindExtended, kind, sizeMib, format, active, letter⟩ := partition
  cases behindExtended <;> cases format <;> cases active <;> cases letter <;> rfl

end ScriptPartition

section

variable (diskNumber : UInt32) (table : PartitionTable) (partitions : List ScriptPartition)

/-- The letters that the prepare script assigns are those of its partitions. -/
theorem assignedLetters_prepareCommands :
    (prepareCommands diskNumber table partitions).filterMap DiskpartCommand.assignedLetter =
      partitions.filterMap ScriptPartition.letter := by
  simp only [prepareCommands, List.filterMap_append, List.filterMap_flatMap,
    ScriptPartition.assignedLetters_commands, ← List.filterMap_eq_flatMap_toList]
  exact List.append_nil _

theorem createdKinds_prepareCommands :
    (prepareCommands diskNumber table partitions).filterMap DiskpartCommand.createdKind =
      partitions.flatMap fun partition =>
        if partition.behindExtended then [.extended, partition.kind] else [partition.kind] := by
  simp only [prepareCommands, List.filterMap_append, List.filterMap_flatMap,
    ScriptPartition.createdKinds_commands]
  exact List.append_nil _

theorem createdSizes_prepareCommands :
    (prepareCommands diskNumber table partitions).filterMap DiskpartCommand.createdSize =
      partitions.map ScriptPartition.sizeMib := by
  simp only [prepareCommands, List.filterMap_append, List.filterMap_flatMap,
    ScriptPartition.createdSizes_commands, ← List.map_eq_flatMap]
  exact List.append_nil _

end

/-! ### The partitions of the plan -/

section

variable {plan : PartitionPlan} {size : UInt64} {created : Bool} {specs : List PartitionSpec}

theorem exists_of_mem_planPartitions {partition : ScriptPartition}
    (h : partition ∈ planPartitions plan size created specs) :
    ∃ spec ∈ specs, ∃ behindExtended, partition = spec.toScript plan size behindExtended := by
  induction specs generalizing created with
  | nil => exact absurd h List.not_mem_nil
  | cons spec specs ih =>
    rcases List.mem_cons.1 h with rfl | h
    · exact ⟨spec, List.mem_cons_self, _, rfl⟩
    · obtain ⟨other, hmem, hother⟩ := ih h
      exact ⟨other, List.mem_cons_of_mem _ hmem, hother⟩

variable (plan size created) in
theorem exists_mem_planPartitions {spec : PartitionSpec} (h : spec ∈ specs) :
    ∃ behindExtended, spec.toScript plan size behindExtended ∈
      planPartitions plan size created specs := by
  induction specs generalizing created with
  | nil => exact absurd h List.not_mem_nil
  | cons other specs ih =>
    rcases List.mem_cons.1 h with rfl | h
    · exact ⟨_, List.mem_cons_self⟩
    · obtain ⟨behindExtended, hmem⟩ := ih _ h
      exact ⟨behindExtended, List.mem_cons_of_mem _ hmem⟩

theorem planPartitions_append (first second : List PartitionSpec) :
    planPartitions plan size created (first ++ second) =
      planPartitions plan size created first ++
        planPartitions plan size (created || first.any (PartitionSpec.isLogical plan)) second := by
  induction first generalizing created with
  | nil => simp [planPartitions]
  | cons spec first ih =>
    simp only [List.cons_append, planPartitions, ih, List.any_cons, Bool.or_assoc]

theorem letters_planPartitions :
    (planPartitions plan size created specs).filterMap ScriptPartition.letter =
      specs.filterMap PartitionSpec.assignedLetter := by
  induction specs generalizing created with
  | nil => rfl
  | cons spec specs ih =>
    simp only [planPartitions, List.filterMap_cons, ih, PartitionSpec.toScript]

theorem sizes_planPartitions :
    (planPartitions plan size created specs).map ScriptPartition.sizeMib =
    specs.map fun spec => spec.sizeMib.getD size := by
  induction specs generalizing created with
  | nil => rfl
  | cons spec specs ih => simp only [planPartitions, List.map_cons, ih, PartitionSpec.toScript]

end

/-! ### The text of the scripts -/

section

variable {plan : PartitionPlan} {size : UInt64} {state final : LayoutState}

/-- The lines of the commands for one partition. -/
theorem ScriptPartition.map_line_commands (partition : ScriptPartition) :
    partition.commands.map DiskpartCommand.line =
      (if partition.behindExtended then ["create partition extended"] else []) ++
        [DiskpartCommand.createLine partition.kind.diskpartName partition.sizeMib] ++
        (partition.format.map fun format => DiskpartCommand.formatLine format.1 format.2).toList ++
        (if partition.active then ["active"] else []) ++
        (partition.letter.map DiskpartCommand.assignLine).toList := by
  obtain ⟨spec, behindExtended, kind, sizeMib, format, active, letter⟩ := partition
  cases behindExtended <;> cases format <;> cases active <;> cases letter <;> rfl

private theorem assignLines_eq (table : PartitionTable) (spec : PartitionSpec) :
    assignLines table spec =
      (if spec.role == .system && table == .mbr then ["active"] else []) ++
        (spec.assignedLetter.map DiskpartCommand.assignLine).toList := by
  unfold assignLines PartitionSpec.assignedLetter
  cases spec.role <;> cases table <;> rfl

private theorem kind_diskpartName (plan : PartitionPlan) (spec : PartitionSpec) :
    (spec.kind plan).diskpartName =
      if plan.usesMbrExtendedPartition && spec.role == .data then "logical"
      else match spec.role with
        | .efi => "efi"
        | .msr => "msr"
        | _ => "primary" := by
  unfold PartitionSpec.kind PartitionSpec.isLogical
  split_ifs
  · rfl
  · cases spec.role <;> rfl

private theorem formatLines_eq (spec : PartitionSpec) :
    ((spec.fileSystem.map fun fileSystem => (fileSystem, spec.label)).map fun format =>
        DiskpartCommand.formatLine format.1 format.2).toList =
      match spec.fileSystem with
      | none => []
      | some fileSystem =>
        ["format quick fs=" ++ fileSystem.diskpartName ++ " label=\"" ++ spec.label ++ "\""] := by
  cases spec.fileSystem <;> rfl

/-- One pass of the loop writes the commands of one partition. -/
private theorem script_layoutPartition {spec : PartitionSpec} {index : ℕ} {next : LayoutState}
    (h : layoutPartition plan size state (spec, index) = .ok next) :
    next.script = state.script ++ (spec.toScript plan size
        (spec.isLogical plan && !state.createdExtendedPartition)).commands.map
          DiskpartCommand.line ∧
      next.createdExtendedPartition = (state.createdExtendedPartition || spec.isLogical plan) := by
  obtain ⟨number, -, rfl⟩ := map_eq_ok_iff.1 h
  refine ⟨?_, rfl⟩
  rw [ScriptPartition.map_line_commands]
  simp only [PartitionSpec.toScript, formatLines_eq, assignLines_eq, kind_diskpartName,
    PartitionSpec.isLogical, List.append_assoc]
  rfl

/-- The loop writes the commands of the partitions. -/
private theorem script_foldlM {specs : List PartitionSpec} {start : ℕ}
    (h : (specs.zipIdx start).foldlM (layoutPartition plan size) state = .ok final) :
    final.script = state.script ++ ((planPartitions plan size state.createdExtendedPartition
      specs).flatMap ScriptPartition.commands).map DiskpartCommand.line := by
  induction specs generalizing start state with
  | nil =>
    obtain rfl := pure_eq_ok_iff.1 h
    exact (List.append_nil _).symm
  | cons spec specs ih =>
    rw [List.zipIdx_cons, List.foldlM_cons] at h
    obtain ⟨next, hnext, h⟩ := bind_eq_ok_iff.1 h
    obtain ⟨hscript, hcreated⟩ := script_layoutPartition hnext
    rw [ih h, hscript, hcreated, planPartitions, List.flatMap_cons, List.map_append,
      List.append_assoc]

private theorem cacheLines_eq (plan : PartitionPlan) (cacheMib : UInt64) :
    (cachePartition plan cacheMib).commands.map DiskpartCommand.line =
      [DiskpartCommand.createLine (if plan.usesMbrExtendedPartition then "logical" else "primary")
          cacheMib,
        "format quick fs=ntfs label=\"EasyDeployMesh Cache\"", "assign letter=R"] := by
  rw [ScriptPartition.map_line_commands]
  cases hextended : plan.usesMbrExtendedPartition <;>
    simp only [cachePartition, hextended] <;> rfl

/-- The scripts of a layout. -/
theorem scripts_of_prepareLayout {lease : AgentJobLease} {disk : Disk} {layout : PreparedLayout}
    (h : prepareLayout lease disk = .ok layout) :
    checkPlan lease disk = .ok () ∧ physicalDriveNumber disk.id = .ok layout.diskNumber ∧
      ∃ remaining remainingSize, lease.partitionPlan.remainingPartition = some remaining ∧
        remainingMib lease disk = some remainingSize ∧
        (lease.partitionPlan.usesMbrExtendedPartition = true →
          lease.partitionPlan.dataPartitionsLast = true) ∧
        layout.prepareScript = scriptText (prepareCommands layout.diskNumber
          lease.partitionPlan.table (layoutPartitions lease remainingSize)) ∧
        layout.cleanupScript =
          scriptText (cleanupCommands layout.diskNumber (extendLetter remaining)) := by
  simp only [prepareLayout, bind_eq_ok_iff, elim_eq_ok_iff, check_eq_ok_iff, pure_eq_ok_iff] at h
  obtain ⟨_, hcheck, number, hnumber, remaining, hremaining, size, hsize, hextended, final, hfinal,
    extension, -, rfl⟩ := h
  refine ⟨hcheck, hnumber, remaining, size, hremaining, hsize, by simpa using hextended, ?_, ?_⟩
  · have hscript := script_foldlM hfinal
    rw [scriptText, prepareCommands, layoutPartitions, List.flatMap_append, List.flatMap_singleton]
    simp only [hscript, List.map_append, List.append_assoc, cacheLines_eq]
    cases lease.partitionPlan.table <;> rfl
  · rfl

end

end EasyDeployMesh
