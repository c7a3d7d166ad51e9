import EasyDeployMesh.Agent.DiskpartScript
import EasyDeployMesh.Agent.HostAcceptance
import EasyDeployMesh.Foundations.Template

/-!
# The grammar of the DiskPart scripts

Every line of the scripts of `prepare_layout` is one of a few command forms, which are fixed but for
a number, a label in quotation marks or a letter. Which forms follow one another depends on the
partition table, the roles and the file systems of the plan, and not on the labels, the letters, the
sizes or the disk.

## Main definitions

* `EasyDeployMesh.CommandForm`, `EasyDeployMesh.CommandForm.form`: the forms and their text.
* `EasyDeployMesh.ScriptHole.Admits`: what the holes may hold.
* `EasyDeployMesh.prepareForms`, `EasyDeployMesh.cleanupForms`: the forms of the two scripts.

## Main results

* `EasyDeployMesh.CommandForm.eq_of_fits`: a line is of one form only.
* `EasyDeployMesh.fitsScript_of_prepareLayout`: the scripts of a layout fit these forms, and they
  select no disk but the one whose fingerprint matched.
-/

namespace EasyDeployMesh

open Foundations

/-! ### Command forms -/

/-- What a line of a script leaves open. -/
inductive ScriptHole
  | number
  | label
  | letter

/-- A decimal number, a label that the plan may carry, or a single letter. -/
def ScriptHole.Admits : ScriptHole → String → Prop
  | number, text => text.toList ≠ [] ∧ text.toList.all Char.isDigit = true
  | label, text => text.utf8ByteSize ≤ 32 ∧ text.toList.all PartitionPlan.isLabelCharacter = true
  | letter, text => ∃ c : Char, c.isAlpha = true ∧ text.toList = [c]

/-- A command but for what its hole holds. -/
inductive CommandForm
  | selectDisk
  | clean
  | convert (table : PartitionTable)
  | createExtended
  | create (kind : PartitionKind)
  | format (fileSystem : PartitionFileSystem)
  | active
  | assign
  | selectVolume
  | deleteVolume
  | extend
  | exit
  deriving DecidableEq

/-- The line of a form. -/
def CommandForm.form : CommandForm → LineForm ScriptHole
  | selectDisk => { before := "select disk ", hole := some .number, after := "" }
  | clean => .fixed "clean"
  | convert table => .fixed ("convert " ++ table.diskpartName)
  | createExtended => .fixed "create partition extended"
  | create kind =>
    { before := "create partition " ++ kind.diskpartName ++ " size=", hole := some .number,
      after := "" }
  | format fileSystem =>
    { before := "format quick fs=" ++ fileSystem.diskpartName ++ " label=\"", hole := some .label,
      after := "\"" }
  | active => .fixed "active"
  | assign => { before := "assign letter=", hole := some .letter, after := "" }
  | selectVolume => { before := "select volume ", hole := some .letter, after := "" }
  | deleteVolume => .fixed "delete volume"
  | extend => .fixed "extend"
  | exit => .fixed "exit"

/-- Every form. -/
def CommandForm.all : List CommandForm :=
  [.selectDisk, .clean, .convert .gpt, .convert .mbr, .createExtended, .create .efi, .create .msr,
    .create .primary, .create .extended, .create .logical, .format .fat32, .format .ntfs, .active,
    .assign, .selectVolume, .deleteVolume, .extend, .exit]

theorem CommandForm.mem_all (form : CommandForm) : form ∈ all := by
  rcases form with _ | _ | table | _ | kind | fileSystem | _ | _ | _ | _ | _ | _
  case convert => cases table <;> decide
  case create => cases kind <;> decide
  case format => cases fileSystem <;> decide
  all_goals decide

/-- The line is a command of the form. -/
def CommandForm.Fits (form : CommandForm) (line : String) : Prop :=
  form.form.Fits ScriptHole.Admits line

/-- The script consists of commands of the forms, one after the other. -/
def FitsScript (forms : List CommandForm) (script : String) : Prop :=
  FitsTemplate ScriptHole.Admits (forms.map CommandForm.form) script

/-- The forms of the commands for the partitions of a plan, of which the role and the file system
are given; `created` is whether the extended partition is there already. -/
def partitionForms (table : PartitionTable) (extended : Bool) :
    Bool → List (PartitionRole × Option PartitionFileSystem) → List CommandForm
  | _, [] => []
  | created, (role, fileSystem) :: rest =>
    let logical := extended && role == .data
    (if logical && !created then [.createExtended] else []) ++
      [.create (if logical then .logical
        else match role with
          | .efi => .efi
          | .msr => .msr
          | _ => .primary)] ++
      (fileSystem.map CommandForm.format).toList ++
      (if role == .system && table == .mbr then [.active] else []) ++
      (if role == .msr || role == .recovery then [] else [.assign]) ++
      partitionForms table extended (created || logical) rest

/-- The forms of the prepare script. -/
def prepareForms (table : PartitionTable)
    (partitions : List (PartitionRole × Option PartitionFileSystem)) : List CommandForm :=
  let extended := table == .mbr && 4 < partitions.countP (fun partition => partition.1 == .data) + 3
  [.selectDisk, .clean, .convert table] ++ partitionForms table extended false partitions ++
    [.create (if extended then .logical else .primary), .format .ntfs, .assign, .exit]

/-- The forms of the cleanup script. -/
def cleanupForms : List CommandForm :=
  [.selectDisk, .selectVolume, .deleteVolume, .selectVolume, .extend, .exit]

/-! ### Lines of a form -/

theorem ScriptHole.isSingleLine_of_admits (hole : ScriptHole) (text : String)
    (h : hole.Admits text) : Text.IsSingleLine text := by
  cases hole with
  | number => exact Text.isSingleLine_of_all (by decide) (by decide) h.2
  | label => exact Text.isSingleLine_of_all (by decide) (by decide) h.2
  | letter =>
    obtain ⟨c, hc, htext⟩ := h
    refine Text.isSingleLine_of_all (p := Char.isAlpha) (by decide) (by decide) ?_
    rw [htext]
    simpa using hc

theorem CommandForm.Fits.isSingleLine {form : CommandForm} {line : String} (h : form.Fits line) :
    Text.IsSingleLine line := by
  have hfixed : ∀ form ∈ CommandForm.all,
      Text.IsSingleLine form.form.before ∧ Text.IsSingleLine form.form.after := by
    decide +kernel
  obtain ⟨hbefore, hafter⟩ := hfixed form form.mem_all
  exact LineForm.Fits.isSingleLine ScriptHole.isSingleLine_of_admits hbefore hafter h

/-- The text before the hole tells the forms apart, but for the extended partition, whose line ends
where the line of a sized one goes on. -/
private theorem eq_of_before_prefix (form other : CommandForm)
    (h : form.form.before.toList <+: other.form.before.toList) :
    form = other ∨ form = .createExtended ∧ other = .create .extended := by
  have hall : ∀ form ∈ CommandForm.all, ∀ other ∈ CommandForm.all,
      form.form.before.toList <+: other.form.before.toList →
        form = other ∨ form = .createExtended ∧ other = .create .extended := by
    decide +kernel
  exact hall form form.mem_all other other.mem_all h

/-- A line is of one form only. -/
theorem CommandForm.eq_of_fits {form other : CommandForm} {line : String} (h : form.Fits line)
    (hother : other.Fits line) : form = other := by
  -- the line of the extended partition is too short for a size
  have hextended :
      ¬ (CommandForm.createExtended.Fits line ∧ (CommandForm.create .extended).Fits line) := by
    rintro ⟨hshort, hlong⟩
    obtain rfl := LineForm.fits_fixed_iff.1 hshort
    exact absurd (LineForm.Fits.before_prefix hlong) (by decide)
  rcases List.prefix_or_prefix_of_prefix h.before_prefix hother.before_prefix with hle | hle
  · rcases eq_of_before_prefix _ _ hle with heq | ⟨rfl, rfl⟩
    · exact heq
    · exact absurd ⟨h, hother⟩ hextended
  · rcases eq_of_before_prefix _ _ hle with heq | ⟨rfl, rfl⟩
    · exact heq.symm
    · exact absurd ⟨hother, h⟩ hextended

/-! ### Commands of a form -/

namespace DiskpartCommand

/-- The form of a command. -/
def form : DiskpartCommand → CommandForm
  | selectDisk _ => .selectDisk
  | clean => .clean
  | convert table => .convert table
  | createExtended => .createExtended
  | create kind _ => .create kind
  | format fileSystem _ => .format fileSystem
  | active => .active
  | assign _ => .assign
  | selectVolume _ => .selectVolume
  | deleteVolume => .deleteVolume
  | extend => .extend
  | exit => .exit

/-- The disk that a command selects. -/
def selectedDisk : DiskpartCommand → Option UInt32
  | selectDisk number => some number
  | _ => none

/-- The label and the letter of a command are admitted. -/
def IsSafe : DiskpartCommand → Prop
  | format _ label => ScriptHole.label.Admits label
  | assign letter | selectVolume letter => letter.isAlpha = true
  | _ => True

/-- A number is written with decimal digits. -/
theorem admits_number (n : ℕ) : ScriptHole.number.Admits (toString n) := by
  rw [Nat.toString_eq_repr, ScriptHole.Admits, Nat.toList_repr, List.all_eq_true]
  exact ⟨Nat.toDigits_ne_nil, fun c hc => Nat.isDigit_of_mem_toDigits (by decide) (by decide) hc⟩

theorem admits_letter {letter : Char} (h : letter.isAlpha = true) :
    ScriptHole.letter.Admits (toString letter) :=
  ⟨letter, h, by simp [toString]⟩

/-- The line of a command is of its form. -/
theorem fits_form {command : DiskpartCommand} (h : command.IsSafe) :
    command.form.Fits command.line := by
  cases command with
  | selectDisk number =>
    refine ⟨toString number.toNat, admits_number _, ?_⟩
    exact (String.append_empty : "select disk " ++ toString number.toNat ++ "" = _).symm
  | create kind sizeMib =>
    refine ⟨toString sizeMib.toNat, admits_number _, ?_⟩
    exact (String.append_empty : "create partition " ++ kind.diskpartName ++ " size=" ++
      toString sizeMib.toNat ++ "" = _).symm
  | format fileSystem label => exact ⟨label, h, rfl⟩
  | assign letter =>
    refine ⟨toString letter, admits_letter h, ?_⟩
    exact (String.append_empty : "assign letter=" ++ toString letter ++ "" = _).symm
  | selectVolume letter =>
    refine ⟨toString letter, admits_letter h, ?_⟩
    exact (String.append_empty : "select volume " ++ toString letter ++ "" = _).symm
  | clean => exact LineForm.fits_fixed_iff.2 rfl
  | convert table => exact LineForm.fits_fixed_iff.2 rfl
  | createExtended => exact LineForm.fits_fixed_iff.2 rfl
  | active => exact LineForm.fits_fixed_iff.2 rfl
  | deleteVolume => exact LineForm.fits_fixed_iff.2 rfl
  | extend => exact LineForm.fits_fixed_iff.2 rfl
  | exit => exact LineForm.fits_fixed_iff.2 rfl

/-- A script of safe commands fits their forms. -/
theorem fitsScript_scriptText {commands : List DiskpartCommand}
    (h : ∀ command ∈ commands, command.IsSafe) :
    FitsScript (commands.map form) (scriptText commands) := by
  refine fitsTemplate_unlines ?_ ?_
  · rw [List.map_map, List.forall₂_map_left_iff, List.forall₂_map_right_iff, List.forall₂_same]
    exact fun command hmem => fits_form (h command hmem)
  · intro line hline
    obtain ⟨command, hmem, rfl⟩ := List.mem_map.1 hline
    exact (fits_form (h command hmem)).isSingleLine

/-- The lines of a script of safe commands are those of its commands. -/
theorem lines_scriptText {commands : List DiskpartCommand}
    (h : ∀ command ∈ commands, command.IsSafe) :
    Text.lines (scriptText commands) = commands.map line := by
  refine Text.lines_unlines fun line hline => ?_
  obtain ⟨command, hmem, rfl⟩ := List.mem_map.1 hline
  exact (fits_form (h command hmem)).isSingleLine

end DiskpartCommand

/-! ### The forms of a layout -/

section

variable {plan : PartitionPlan} {size : UInt64} {created : Bool} {specs : List PartitionSpec}

private theorem map_form_ite (b : Bool) (command : DiskpartCommand) :
    (if b then [command] else []).map DiskpartCommand.form = if b then [command.form] else [] := by
  cases b <;> rfl

/-- The forms of the commands for one partition. -/
private theorem forms_toScript (spec : PartitionSpec) (behindExtended : Bool) :
    (spec.toScript plan size behindExtended).commands.map DiskpartCommand.form =
      (if behindExtended then [.createExtended] else []) ++ [.create (spec.kind plan)] ++
        (spec.fileSystem.map CommandForm.format).toList ++
        (if spec.role == .system && plan.table == .mbr then [.active] else []) ++
        (if spec.role == .msr || spec.role == .recovery then [] else [.assign]) := by
  obtain ⟨role, sizeMib, fileSystem, label, driveLetter⟩ := spec
  simp only [ScriptPartition.commands, PartitionSpec.toScript, List.map_append]
  congr 1
  · congr 1
    · congr 1
      · cases behindExtended <;> rfl
      · cases fileSystem <;> rfl
    · exact map_form_ite _ _
  · cases role <;> rfl

variable (size) in
theorem forms_planPartitions :
    ((planPartitions plan size created specs).flatMap ScriptPartition.commands).map
        DiskpartCommand.form =
      partitionForms plan.table plan.usesMbrExtendedPartition created
        (specs.map fun spec => (spec.role, spec.fileSystem)) := by
  induction specs generalizing created with
  | nil => rfl
  | cons spec specs ih =>
    rw [planPartitions, List.flatMap_cons, List.map_append, ih, forms_toScript]
    rfl

/-- The forms of the prepare script come from the table, the roles and the file systems. -/
theorem forms_prepareCommands (diskNumber : UInt32) (lease : AgentJobLease) :
    (prepareCommands diskNumber lease.partitionPlan.table (layoutPartitions lease size)).map
        DiskpartCommand.form =
      prepareForms lease.partitionPlan.table
        (lease.partitionPlan.partitions.map fun spec => (spec.role, spec.fileSystem)) := by
  have hextended : (lease.partitionPlan.table == .mbr &&
      4 < (lease.partitionPlan.partitions.map fun spec => (spec.role, spec.fileSystem)).countP
        (fun partition => partition.1 == .data) + 3) =
      lease.partitionPlan.usesMbrExtendedPartition := by
    rw [List.countP_map]
    rfl
  rw [prepareForms, hextended, prepareCommands, layoutPartitions, List.flatMap_append,
    List.flatMap_singleton, ← forms_planPartitions size]
  simp only [List.map_append, List.append_assoc]
  rfl

end

/-! ### The disk of a layout -/

private theorem selectedDisks_commands (partition : ScriptPartition) :
    partition.commands.filterMap DiskpartCommand.selectedDisk = [] := by
  obtain ⟨spec, behindExtended, kind, sizeMib, format, active, letter⟩ := partition
  cases behindExtended <;> cases format <;> cases active <;> cases letter <;> rfl

/-- The prepare script selects one disk. -/
theorem selectedDisks_prepareCommands (diskNumber : UInt32) (table : PartitionTable)
    (partitions : List ScriptPartition) :
    (prepareCommands diskNumber table partitions).filterMap DiskpartCommand.selectedDisk =
      [diskNumber] := by
  have hnone : partitions.flatMap (fun _ => ([] : List UInt32)) = [] := by simp
  simp only [prepareCommands, List.filterMap_append, List.filterMap_flatMap,
    selectedDisks_commands, hnone]
  rfl

/-- The cleanup script selects one disk. -/
theorem selectedDisks_cleanupCommands (diskNumber : UInt32) (letter : Char) :
    (cleanupCommands diskNumber letter).filterMap DiskpartCommand.selectedDisk = [diskNumber] :=
  rfl

/-! ### The commands of a layout are safe -/

section

variable {plan : PartitionPlan} {size : UInt64} {created : Bool}

private theorem isAlpha_of_isDataDriveLetter {letter : Char}
    (h : PartitionPlan.isDataDriveLetter letter = true) : letter.isAlpha = true := by
  simp only [PartitionPlan.isDataDriveLetter, Bool.or_eq_true, Bool.and_eq_true, decide_eq_true_eq,
    Char.le_def] at h
  simp only [Char.isAlpha, Char.isUpper, Bool.or_eq_true, decide_eq_true_eq]
  have hD : 'A'.val ≤ 'D'.val := by decide
  have hQ : 'Q'.val ≤ 'Z'.val := by decide
  have hS : 'A'.val ≤ 'S'.val := by decide
  have hV : 'V'.val ≤ 'Z'.val := by decide
  have hX : 'A'.val ≤ 'X'.val := by decide
  left
  rcases h with (⟨hfirst, hlast⟩ | ⟨hfirst, hlast⟩) | ⟨hfirst, hlast⟩
  · exact ⟨UInt32.le_trans hD hfirst, UInt32.le_trans hlast hQ⟩
  · exact ⟨UInt32.le_trans hS hfirst, UInt32.le_trans hlast hV⟩
  · exact ⟨UInt32.le_trans hX hfirst, hlast⟩

/-- A letter that the plan may ask for is a letter of the alphabet, in either case. -/
private theorem isAlpha_of_toUpper {letter : Char}
    (h : PartitionPlan.isDataDriveLetter letter.toUpper = true) : letter.isAlpha = true := by
  by_cases hlower : letter.isLower = true
  · rw [Char.isAlpha, hlower, Bool.or_true]
  · have hupper : letter.toUpper = letter := by
      refine dif_neg fun hbounds => hlower ?_
      rw [Char.isLower, Bool.and_eq_true, decide_eq_true_eq, decide_eq_true_eq]
      exact hbounds
    rw [hupper] at h
    exact isAlpha_of_isDataDriveLetter h

/-- The commands for a partition are safe when its label and its letter are. -/
private theorem isSafe_commands {partition : ScriptPartition}
    (hlabel : ∀ format, partition.format = some format → ScriptHole.label.Admits format.2)
    (hletter : ∀ letter, partition.letter = some letter → letter.isAlpha = true) :
    ∀ command ∈ partition.commands, command.IsSafe := by
  simp only [ScriptPartition.commands, List.forall_mem_append, List.forall_mem_singleton]
  refine ⟨⟨⟨⟨?_, trivial⟩, ?_⟩, ?_⟩, ?_⟩
  · split_ifs <;> simp [DiskpartCommand.IsSafe]
  · rintro command hmem
    obtain ⟨format, hformat, rfl⟩ := Option.map_eq_some_iff.1 (Option.mem_toList.1 hmem)
    exact hlabel format hformat
  · split_ifs <;> simp [DiskpartCommand.IsSafe]
  · rintro command hmem
    obtain ⟨letter, hassigned, rfl⟩ := Option.map_eq_some_iff.1 (Option.mem_toList.1 hmem)
    exact hletter letter hassigned

private theorem isSafe_of_mem_planPartitions (hvalid : plan.validate = .ok ())
    {partition : ScriptPartition}
    (hmem : partition ∈ planPartitions plan size created plan.partitions) :
    ∀ command ∈ partition.commands, command.IsSafe := by
  obtain ⟨spec, hspec, behindExtended, rfl⟩ := exists_of_mem_planPartitions hmem
  obtain ⟨-, -, -, hcheck, -, -⟩ := PartitionPlan.validate_eq_ok_iff.1 hvalid
  obtain ⟨-, -, hlabel, hletter⟩ := PartitionPlan.checkPartition_eq_ok_iff.1 (hcheck spec hspec)
  refine isSafe_commands ?_ ?_
  · intro format hformat
    obtain ⟨fileSystem, -, rfl⟩ := Option.map_eq_some_iff.1 hformat
    exact hlabel
  · intro letter hassigned
    change spec.assignedLetter = some letter at hassigned
    unfold PartitionSpec.assignedLetter at hassigned
    cases hrole : spec.role with
    | efi =>
      rw [hrole] at hassigned
      obtain rfl := Option.some.inj hassigned
      rfl
    | system =>
      rw [hrole] at hassigned
      obtain rfl := Option.some.inj hassigned
      rfl
    | windows =>
      rw [hrole] at hassigned
      obtain rfl := Option.some.inj hassigned
      rfl
    | data =>
      rw [hrole] at hassigned
      obtain rfl := Option.some.inj hassigned
      cases hdrive : spec.driveLetter with
      | none => rfl
      | some drive => exact isAlpha_of_isDataDriveLetter (hletter drive hdrive).2
    | msr =>
      rw [hrole] at hassigned
      cases hassigned
    | recovery =>
      rw [hrole] at hassigned
      cases hassigned

private theorem isSafe_prepareCommands {lease : AgentJobLease} {diskNumber : UInt32}
    (hvalid : lease.partitionPlan.validate = .ok ()) :
    ∀ command ∈ prepareCommands diskNumber lease.partitionPlan.table (layoutPartitions lease size),
      command.IsSafe := by
  simp only [prepareCommands, layoutPartitions, List.flatMap_append, List.flatMap_singleton,
    List.forall_mem_append, List.forall_mem_flatMap]
  refine ⟨⟨?_, ?_, ?_⟩, ?_⟩
  · simp [DiskpartCommand.IsSafe]
  · intro partition hpartition
    exact isSafe_of_mem_planPartitions hvalid hpartition
  · refine isSafe_commands ?_ ?_
    · rintro format hformat
      obtain rfl := Option.some.inj hformat
      exact ⟨by decide, by decide⟩
    · rintro letter hletter
      obtain rfl := Option.some.inj hletter
      rfl
  · simp [DiskpartCommand.IsSafe]

private theorem isSafe_cleanupCommands {diskNumber : UInt32} (hvalid : plan.validate = .ok ())
    {remaining : PartitionSpec} (hremaining : plan.remainingPartition = some remaining) :
    ∀ command ∈ cleanupCommands diskNumber (extendLetter remaining), command.IsSafe := by
  have hmem : remaining ∈ plan.partitions := List.mem_of_find?_eq_some hremaining
  obtain ⟨-, -, -, hcheck, -, -⟩ := PartitionPlan.validate_eq_ok_iff.1 hvalid
  obtain ⟨-, -, -, hletter⟩ := PartitionPlan.checkPartition_eq_ok_iff.1 (hcheck remaining hmem)
  have hextend : (extendLetter remaining).isAlpha = true := by
    unfold extendLetter
    split_ifs
    · cases hdrive : remaining.driveLetter with
      | none => rfl
      | some drive => exact isAlpha_of_toUpper (hletter drive hdrive).2
    · rfl
  simp only [cleanupCommands, List.forall_mem_cons, DiskpartCommand.IsSafe, hextend]
  exact ⟨trivial, rfl, trivial, trivial, trivial, trivial, by simp⟩

end

/-! ### The scripts of a layout -/

/-- The scripts that the Agent writes for a lease: each is a sequence of lines of fixed forms, which
depend on the table, the roles and the file systems of the plan, and the number of the given disk is
the only one that a line selects. When the Agent found this disk for the lease, its fingerprint is
the one of the lease. -/
theorem fitsScript_of_prepareLayout {lease : AgentJobLease} {disk : Disk} {layout : PreparedLayout}
    (h : prepareLayout lease disk = .ok layout) :
    FitsScript (prepareForms lease.partitionPlan.table
        (lease.partitionPlan.partitions.map fun spec => (spec.role, spec.fileSystem)))
      layout.prepareScript ∧
    FitsScript cleanupForms layout.cleanupScript ∧
    (∃ number, physicalDriveNumber disk.id = .ok number ∧
      ∀ line ∈ Text.lines layout.prepareScript ++ Text.lines layout.cleanupScript,
        CommandForm.selectDisk.Fits line → line = s!"select disk {number}") ∧
    ∀ disks, matchingDisk lease disks = .ok disk →
      disk ∈ disks ∧ lease.target.matchesDisk disk = true := by
  obtain ⟨hcheck, hnumber, remaining, size, hremaining, -, -, hprepare, hcleanup⟩ :=
    scripts_of_prepareLayout h
  obtain ⟨hvalid, -⟩ := checkPlan_eq_ok_iff.1 hcheck
  have hsafe : ∀ command ∈ prepareCommands layout.diskNumber lease.partitionPlan.table
      (layoutPartitions lease size), command.IsSafe := isSafe_prepareCommands hvalid
  have hsafe' : ∀ command ∈ cleanupCommands layout.diskNumber (extendLetter remaining),
      command.IsSafe := isSafe_cleanupCommands hvalid hremaining
  rw [hprepare, hcleanup]
  refine ⟨?_, ?_, ⟨layout.diskNumber, hnumber, ?_⟩, ?_⟩
  · rw [← forms_prepareCommands layout.diskNumber lease]
    exact DiskpartCommand.fitsScript_scriptText hsafe
  · exact DiskpartCommand.fitsScript_scriptText hsafe'
  · intro line hline hfits
    rw [DiskpartCommand.lines_scriptText hsafe, DiskpartCommand.lines_scriptText hsafe',
      ← List.map_append] at hline
    obtain ⟨command, hmem, rfl⟩ := List.mem_map.1 hline
    have hform : command.form = .selectDisk :=
      CommandForm.eq_of_fits (DiskpartCommand.fits_form
        ((List.mem_append.1 hmem).elim (hsafe command) (hsafe' command))) hfits
    cases command with
    | selectDisk number =>
      have hselected : number ∈ (prepareCommands layout.diskNumber lease.partitionPlan.table
          (layoutPartitions lease size) ++ cleanupCommands layout.diskNumber
            (extendLetter remaining)).filterMap DiskpartCommand.selectedDisk :=
        List.mem_filterMap.2 ⟨_, hmem, rfl⟩
      rw [List.filterMap_append, selectedDisks_prepareCommands, selectedDisks_cleanupCommands]
        at hselected
      obtain rfl : number = layout.diskNumber := by simpa using hselected
      rfl
    | _ => cases hform
  · intro disks hdisk
    obtain ⟨hfind, hmatches⟩ := matchingDisk_eq_ok_iff.1 hdisk
    exact ⟨List.mem_of_find?_eq_some hfind, hmatches⟩

/-- The scripts for the recommended plan. -/
theorem fitsScript_uefiGpt : ∃ layout,
    prepareLayout (plannedLease PartitionPlan.uefiGpt) physicalDisk = .ok layout ∧
      FitsScript [.selectDisk, .clean, .convert .gpt, .create .efi, .format .fat32, .assign,
        .create .msr, .create .primary, .format .ntfs, .assign, .create .primary, .format .ntfs,
        .assign, .exit] layout.prepareScript := by
  obtain ⟨layout, hlayout⟩ := exists_ok_of_isSome_toOption (show (prepareLayout
    (plannedLease PartitionPlan.uefiGpt) physicalDisk).toOption.isSome = true by decide +kernel)
  exact ⟨layout, hlayout, (fitsScript_of_prepareLayout hlayout).1⟩

end EasyDeployMesh
