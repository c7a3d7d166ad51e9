import EasyDeployMesh.Core.PartitionCapacity
import EasyDeployMesh.Foundations.JavaScript
import Mathlib.Data.List.Forall2

/-!
# Custom partition plans of the desktop

The desktop checks a custom partition template, builds a plan from it and computes what the plan
takes of a disk (`custom-partition-templates.ts`, `partition-plans.ts` and `partition-capacity.ts`
of `apps/desktop/app/utils`); the host does the same with `PartitionPlan::validate` and
`validate_capacity`. Whatever plan the desktop builds, the host accepts, and the two capacities
agree as long as the sizes in bytes are exact numbers of JavaScript.

The upper case of a drive letter is a parameter, as is the rounding of numbers.

## Main definitions

* `EasyDeployMesh.CustomPartitionTemplate`, `EasyDeployMesh.customPartitionPlan`.
* `EasyDeployMesh.partitionCapacity`, `EasyDeployMesh.partitionUserBudgets`.
* `EasyDeployMesh.UiPartitionPlan.receive`: the plan as the host receives it.

## Main results

* `EasyDeployMesh.UiPartitionPlan.capacity_of_receive`: the two capacities of a plan.
* `EasyDeployMesh.customPartitionPlan_agrees`: the desktop and the host agree on custom plans.
-/

namespace EasyDeployMesh

open Foundations

/-! ### Templates -/

/-- The partitions that the operator may lay out. -/
inductive CustomPartitionRole
  | windows
  | data
  deriving DecidableEq

/-- A row of the partition form. -/
structure CustomPartition where
  role : CustomPartitionRole
  sizeGib : Option JsNumber
  label : JsString
  driveLetter : Option JsString
  deriving DecidableEq

/-- The partition form. -/
structure CustomPartitionTemplate where
  name : JsString
  partitions : List CustomPartition
  deriving DecidableEq

/-- The messages of the partition form. -/
inductive TemplateError
  | name
  | windows
  | remaining
  | driveLetter
  | label
  | size
  deriving DecidableEq

/-- `[D-QT-VY-Z]`. -/
def isDataLetterUnit (u : UInt16) : Bool :=
  (68 ≤ u && u ≤ 81) || (84 ≤ u && u ≤ 86) || (89 ≤ u && u ≤ 90)

/-- `^[D-QT-VY-Z]$`. -/
def isDataLetter : JsString → Bool
  | [u] => isDataLetterUnit u
  | _ => false

/-- `[A-Za-z0-9 _-]`. -/
def isLabelUnit (u : UInt16) : Bool :=
  (65 ≤ u && u ≤ 90) || (97 ≤ u && u ≤ 122) || (48 ≤ u && u ≤ 57) || u == 32 || u == 95 || u == 45

/-- `^[A-Za-z0-9 _-]{0,32}$`. -/
def isTemplateLabel (label : JsString) : Bool := label.length ≤ 32 && label.all isLabelUnit

section Template

variable (toUpperCase : JsString → JsString) (rounding : Rounding)

/-- The letter of a partition; the empty string is none. -/
def CustomPartition.upperLetter (partition : CustomPartition) : Option JsString :=
  (partition.driveLetter.filter fun letter => !letter.isEmpty).map toUpperCase

/-- The first message of the partition form. -/
def validateCustomPartitionTemplate (template : CustomPartitionTemplate) : Option TemplateError :=
  if (trimmed isJsWhitespace template.name).isEmpty then some .name
  else if (template.partitions.filter fun partition => partition.role == .windows).length ≠ 1 then
    some .windows
  else if (template.partitions.filter fun partition => partition.sizeGib.isNone).length ≠ 1 then
    some .remaining
  else
    let letters := template.partitions.filterMap (CustomPartition.upperLetter toUpperCase)
    if template.partitions.any (fun partition => partition.role == .data &&
        partition.driveLetter.all List.isEmpty) then some .driveLetter
    else if letters.any fun letter => !isDataLetter letter then some .driveLetter
    else if letters.dedup.length ≠ letters.length then some .driveLetter
    else if template.partitions.any fun partition => !isTemplateLabel partition.label then
      some .label
    else if template.partitions.any fun partition => partition.sizeGib.any fun size =>
        !size.isInteger || size.lt (.ofInt 1) then some .size
    else none

/-! ### Plans -/

/-- A partition as the desktop sends it. -/
structure UiPartitionSpec where
  role : PartitionRole
  sizeMib : Option JsNumber
  fileSystem : Option PartitionFileSystem
  label : JsString
  driveLetter : Option JsString
  deriving DecidableEq

/-- A plan as the desktop sends it. -/
structure UiPartitionPlan where
  table : PartitionTable
  partitions : List UiPartitionSpec
  deriving DecidableEq

/-- The plan of the desktop for UEFI firmware. -/
def uefiGptPlan : UiPartitionPlan where
  table := .gpt
  partitions :=
    [{ role := .efi, sizeMib := some (.ofInt 300), fileSystem := some .fat32,
       label := encodeUtf16 "System", driveLetter := none },
     { role := .msr, sizeMib := some (.ofInt 16), fileSystem := none, label := [],
       driveLetter := none },
     { role := .windows, sizeMib := none, fileSystem := some .ntfs, label := encodeUtf16 "Windows",
       driveLetter := none }]

/-- The plan of the desktop for a legacy BIOS. -/
def legacyBiosMbrPlan : UiPartitionPlan where
  table := .mbr
  partitions :=
    [{ role := .system, sizeMib := some (.ofInt 550), fileSystem := some .ntfs,
       label := encodeUtf16 "System Reserved", driveLetter := none },
     { role := .windows, sizeMib := none, fileSystem := some .ntfs, label := encodeUtf16 "Windows",
       driveLetter := none }]

/-- `partitionPlanFor('recommended', bootMode)`. -/
def recommendedPlan : BootMode → Option UiPartitionPlan
  | .uefi => some uefiGptPlan
  | .legacyBios => some legacyBiosMbrPlan
  | .unknown => none

/-- A role of the form as a role of a plan. -/
def CustomPartitionRole.toRole : CustomPartitionRole → PartitionRole
  | .windows => .windows
  | .data => .data

/-- The partition of the plan. -/
def CustomPartition.toSpec (partition : CustomPartition) : UiPartitionSpec where
  role := partition.role.toRole
  sizeMib := partition.sizeGib.map fun size => size.mul rounding (.ofInt 1024)
  fileSystem := some .ntfs
  label := trimmed isJsWhitespace partition.label
  driveLetter := if partition.role = .data then partition.driveLetter.map toUpperCase else none

/-- The rows of a valid form behind the boot partitions of the recommended plan. -/
def customPartitionPlan (template : CustomPartitionTemplate) (bootMode : BootMode) :
    Option UiPartitionPlan :=
  if (validateCustomPartitionTemplate toUpperCase template).isSome then none
  else (recommendedPlan bootMode).map fun base =>
    { base with
      partitions := base.partitions.dropLast ++
        template.partitions.map (CustomPartition.toSpec toUpperCase rounding) }

end Template

/-! ### Capacities -/

/-- What the desktop shows about a plan on a disk. -/
structure UiPartitionCapacity where
  fits : Bool
  requiredMib : JsNumber
  availableMib : JsNumber
  fixedMib : JsNumber
  cacheMib : JsNumber
  remainingMinimumMib : JsNumber
  alignmentHeadroomMib : JsNumber
  deriving DecidableEq

/-- The space that the desktop lets the operator share out. -/
structure PartitionUserBudgets where
  fixedGib : JsNumber
  totalGib : JsNumber
  deriving DecidableEq

section Capacity

variable (rounding : Rounding)

/-- `reduce` over the sizes of the partitions with a property. -/
def sizeSum (counted : UiPartitionSpec → Bool) (partitions : List UiPartitionSpec) : JsNumber :=
  partitions.foldl (fun total partition =>
    if counted partition then total.add rounding (partition.sizeMib.getD (.ofInt 0)) else total)
    (.ofInt 0)

/-- The capacity check of the desktop, in the numbers of JavaScript. -/
def partitionCapacity (plan : UiPartitionPlan) (diskSizeBytes imageSizeBytes : JsNumber) :
    UiPartitionCapacity :=
  let mibBytes := JsNumber.ofInt (2 ^ 20)
  let availableMib := (diskSizeBytes.div rounding mibBytes).floor
  let fixedMib := sizeSum rounding (fun _ => true) plan.partitions
  let cacheMib := (imageSizeBytes.div rounding mibBytes).ceil.add rounding (.ofInt 512)
  let remaining := plan.partitions.find? fun partition => partition.sizeMib.isNone
  let remainingMinimumMib :=
    if remaining.any fun partition => partition.role == .data then JsNumber.ofInt 1024
    else .ofInt (20 * 1024)
  let requiredMib :=
    ((fixedMib.add rounding cacheMib).add rounding remainingMinimumMib).add rounding
    (.ofInt 32)
  { fits := availableMib.ge requiredMib
    requiredMib, availableMib, fixedMib, cacheMib, remainingMinimumMib
    alignmentHeadroomMib := .ofInt 32 }

/-- `['efi', 'msr', 'system'].includes(partition.role)`. -/
def isBootPartition (partition : UiPartitionSpec) : Bool :=
  [PartitionRole.efi, .msr, .system].contains partition.role

/-- The part of a disk that the rows of the form share. -/
def partitionUserBudgets (plan : UiPartitionPlan) (diskSizeBytes imageSizeBytes : JsNumber) :
    PartitionUserBudgets :=
  let capacity := partitionCapacity rounding plan diskSizeBytes imageSizeBytes
  let bootMib := sizeSum rounding isBootPartition plan.partitions
  let totalMib := JsNumber.max (.ofInt 0)
    (((capacity.availableMib.sub rounding bootMib).sub rounding capacity.cacheMib).sub rounding
      capacity.alignmentHeadroomMib)
  { fixedGib := ((JsNumber.max (.ofInt 0) (totalMib.sub rounding capacity.remainingMinimumMib)).div
      rounding (.ofInt (2 ^ 10))).floor
    totalGib := (totalMib.div rounding (.ofInt (2 ^ 10))).floor }

end Capacity

/-! ### What the host receives -/

/-- A `u64`. -/
def receiveSize : JsNumber → Option UInt64
  | .finite size =>
    if size.den = 1 ∧ 0 ≤ size.num ∧ size.num < 2 ^ 64 then some (UInt64.ofNat size.num.toNat)
    else none
  | .notFinite => none

/-- A `char`. -/
def receiveLetter (letter : JsString) : Option Char :=
  match decodeUnits letter with
  | some [c] => some c
  | _ => none

/-- A field that may be missing. -/
def receiveOption {α β : Type} (receive : α → Option β) : Option α → Option (Option β)
  | none => some none
  | some a => (receive a).map some

/-- The partition that the host reads from what the desktop sent. -/
def UiPartitionSpec.receive (spec : UiPartitionSpec) : Option PartitionSpec := do
  let sizeMib ← receiveOption receiveSize spec.sizeMib
  let label ← decodeUtf16 spec.label
  let driveLetter ← receiveOption receiveLetter spec.driveLetter
  pure { role := spec.role, sizeMib, fileSystem := spec.fileSystem, label, driveLetter }

/-- The plan that the host reads from what the desktop sent. -/
def UiPartitionPlan.receive (plan : UiPartitionPlan) : Option PartitionPlan := do
  let partitions ← plan.partitions.mapM UiPartitionSpec.receive
  pure { table := plan.table, partitions }

/-! ### Agreement -/

/-- What the partitions with a size take together, in GiB. -/
def CustomPartitionTemplate.fixedGib (template : CustomPartitionTemplate) : ℚ :=
  ((template.partitions.filterMap CustomPartition.sizeGib).map JsNumber.value).sum

/-- `required_mib` of `validate_capacity`. -/
def PartitionPlan.requiredMib (plan : PartitionPlan) (imageSizeBytes : UInt64) : UInt64 :=
  saturatingAdd (saturatingAdd (saturatingAdd (plan.fixedSizes.foldl saturatingAdd 0)
    (PartitionPlan.cacheMib imageSizeBytes)) plan.minimumMib) partitionAlignmentHeadroomMib

/-- The host receives the plan and accepts it; its capacity is that of the desktop; and the budget
that the desktop shows for fixed sizes can be spent. -/
structure PlansAgree (rounding : Rounding) (template : CustomPartitionTemplate)
    (plan : UiPartitionPlan) (host : PartitionPlan) (diskSizeBytes imageSizeBytes : UInt64) :
    Prop where
  received : plan.receive = some host
  accepted : host.validate = .ok ()
  fits :
    (partitionCapacity rounding plan (.ofUInt64 diskSizeBytes)
        (.ofUInt64 imageSizeBytes)).fits = true ↔
      host.validateCapacity diskSizeBytes imageSizeBytes = .ok ()
  required :
    (partitionCapacity rounding plan (.ofUInt64 diskSizeBytes)
        (.ofUInt64 imageSizeBytes)).requiredMib = .ofUInt64 (host.requiredMib imageSizeBytes)
  available :
    (partitionCapacity rounding plan (.ofUInt64 diskSizeBytes)
        (.ofUInt64 imageSizeBytes)).availableMib = .ofUInt64 (diskSizeBytes / mibBytes)
  budget : ∀ fixedGib,
    (partitionUserBudgets rounding plan (.ofUInt64 diskSizeBytes)
        (.ofUInt64 imageSizeBytes)).fixedGib = .finite fixedGib →
    0 < fixedGib → template.fixedGib ≤ fixedGib →
    (partitionCapacity rounding plan (.ofUInt64 diskSizeBytes)
        (.ofUInt64 imageSizeBytes)).fits = true

/-! ### The capacity of a received plan -/

section Received

variable {specs : List UiPartitionSpec} {hosts : List PartitionSpec} {spec : UiPartitionSpec}
  {host : PartitionSpec} {rounding : Rounding}

/-- The parts of a partition that its capacity depends on. -/
structure SameSize (spec : UiPartitionSpec) (host : PartitionSpec) : Prop where
  role : spec.role = host.role
  sizeMib : spec.sizeMib = host.sizeMib.map .ofUInt64

private theorem eq_ofUInt64_of_receiveSize {size : JsNumber} {n : UInt64}
    (h : receiveSize size = some n) : size = .ofUInt64 n := by
  cases size with
  | notFinite => cases h
  | finite a =>
    rw [receiveSize] at h
    split_ifs at h with hsize
    obtain ⟨hden, hpos, hlt⟩ := hsize
    have hnat : (UInt64.ofNat a.num.toNat).toNat = a.num.toNat := by
      rw [UInt64.toNat_ofNat']
      omega
    have hint : ((a.num.toNat : ℕ) : ℤ) = a.num := Int.toNat_of_nonneg hpos
    rw [← Option.some_inj.1 h, JsNumber.ofUInt64, hnat, hint, JsNumber.ofInt,
      (Rat.den_eq_one_iff a).1 hden]

theorem sameSize_of_receive (h : spec.receive = some host) : SameSize spec host := by
  rw [UiPartitionSpec.receive] at h
  obtain ⟨sizeMib, hsize, h⟩ := Option.bind_eq_some_iff.1 h
  obtain ⟨label, -, h⟩ := Option.bind_eq_some_iff.1 h
  obtain ⟨driveLetter, -, h⟩ := Option.bind_eq_some_iff.1 h
  obtain rfl := Option.some_inj.1 h
  refine ⟨rfl, ?_⟩
  cases hcase : spec.sizeMib with
  | none =>
    rw [hcase] at hsize
    rw [← Option.some_inj.1 hsize, Option.map_none]
  | some size =>
    rw [hcase] at hsize
    obtain ⟨n, hn, hsome⟩ := Option.map_eq_some_iff.1 hsize
    rw [← hsome, Option.map_some, eq_ofUInt64_of_receiveSize hn]

theorem forall₂_of_mapM_receive (h : specs.mapM UiPartitionSpec.receive = some hosts) :
    List.Forall₂ SameSize specs hosts := by
  induction specs generalizing hosts with
  | nil =>
    obtain rfl : [] = hosts := Option.some_inj.1 h
    exact List.Forall₂.nil
  | cons spec specs ih =>
    rw [List.mapM_cons] at h
    obtain ⟨host, hhost, h⟩ := Option.bind_eq_some_iff.1 h
    obtain ⟨rest, hrest, h⟩ := Option.bind_eq_some_iff.1 h
    obtain rfl : host :: rest = hosts := Option.some_inj.1 h
    exact List.Forall₂.cons (sameSize_of_receive hhost) (ih hrest)

/-- The sizes of the partitions with a role that is counted. -/
def countedMib (counted : PartitionRole → Bool) (hosts : List PartitionSpec) : ℕ :=
  (((hosts.filter fun host => counted host.role).filterMap PartitionSpec.sizeMib).map
    UInt64.toNat).sum

private theorem countedMib_cons {counted : PartitionRole → Bool} :
    countedMib counted (host :: hosts) =
      (if counted host.role then host.sizeMib.elim 0 UInt64.toNat else 0) +
        countedMib counted hosts := by
  unfold countedMib
  by_cases hrole : counted host.role = true
  · rw [List.filter_cons_of_pos (p := fun (host : PartitionSpec) => counted host.role) hrole,
      if_pos hrole]
    cases hcase : host.sizeMib with
    | none => rw [List.filterMap_cons_none hcase, Option.elim_none, Nat.zero_add]
    | some size =>
      rw [List.filterMap_cons_some hcase, List.map_cons, List.sum_cons, Option.elim_some]
  · rw [List.filter_cons_of_neg (p := fun (host : PartitionSpec) => counted host.role) hrole,
      if_neg hrole, Nat.zero_add]

theorem countedMib_true (plan : PartitionPlan) :
    countedMib (fun _ => true) plan.partitions = plan.fixedMib := by
  rw [countedMib, List.filter_true]
  rfl

/-- Sizes below the limit are added up exactly. -/
theorem sizeSum_of_sameSize (rounding : Rounding) {counted : UiPartitionSpec → Bool}
    {countedRole : PartitionRole → Bool} (hcounted : ∀ spec, counted spec = countedRole spec.role)
    (h : List.Forall₂ SameSize specs hosts) (hsum : countedMib countedRole hosts ≤ 2 ^ 52) :
    sizeSum rounding counted specs = .ofInt (countedMib countedRole hosts) := by
  have hfold : ∀ acc : ℕ, acc + countedMib countedRole hosts ≤ 2 ^ 52 →
      specs.foldl (fun (total : JsNumber) partition => if counted partition then
        total.add rounding (partition.sizeMib.getD (.ofInt 0)) else total) (.ofInt acc) =
      .ofInt ((acc + countedMib countedRole hosts : ℕ) : ℤ) := by
    clear hsum
    induction h with
    | nil =>
      intro acc _
      rfl
    | @cons spec host specs hosts hspec _ ih =>
      intro acc hacc
      rw [List.foldl_cons, hcounted spec, hspec.role]
      rw [countedMib_cons] at hacc ⊢
      by_cases hrole : countedRole host.role = true
      · have hterm : spec.sizeMib.getD (.ofInt 0) =
            .ofInt ((host.sizeMib.elim 0 UInt64.toNat : ℕ) : ℤ) := by
          rw [hspec.sizeMib]
          cases host.sizeMib <;> rfl
        rw [if_pos hrole] at hacc ⊢
        have hexact : |(acc : ℤ) + (host.sizeMib.elim 0 UInt64.toNat : ℕ)| ≤ 2 ^ 53 := by
          rw [abs_of_nonneg (by omega)]
          omega
        rw [if_pos hrole, hterm, JsNumber.add_ofInt hexact, ← Nat.cast_add, ih _ (by omega),
          Nat.add_assoc]
      · simp only [if_neg hrole, Nat.zero_add] at hacc ⊢
        exact ih _ hacc
  have hzero := hfold 0 (by omega)
  rw [Nat.zero_add] at hzero
  exact hzero

/-- The partition that takes the rest is found at the same place. -/
private theorem remaining_of_sameSize (h : List.Forall₂ SameSize specs hosts) :
    (specs.find? fun spec => spec.sizeMib.isNone).any (fun spec => spec.role == .data) =
      (hosts.find? fun host => host.sizeMib.isNone).any fun host => host.role == .data := by
  induction h with
  | nil => rfl
  | @cons spec host specs hosts hspec _ ih =>
    have hnone : spec.sizeMib.isNone = host.sizeMib.isNone := by
      rw [hspec.sizeMib, Option.isNone_map]
    rw [List.find?_cons, List.find?_cons, hnone]
    cases host.sizeMib.isNone with
    | true => simp only [Option.any_some, hspec.role]
    | false => exact ih

private theorem toNat_minimumMib_le (plan : PartitionPlan) : plan.minimumMib.toNat ≤ 20480 := by
  rw [PartitionPlan.minimumMib]
  cases plan.remainingPartition with
  | none => decide
  | some partition =>
    rw [Option.map_some, Option.getD_some]
    split_ifs <;> decide

section Plan

variable {plan : UiPartitionPlan} {hostPlan : PartitionPlan} {disk image : UInt64}

theorem forall₂_of_receive (h : plan.receive = some hostPlan) :
    List.Forall₂ SameSize plan.partitions hostPlan.partitions := by
  obtain ⟨partitions, hpartitions, heq⟩ := Option.bind_eq_some_iff.1 h
  obtain rfl := Option.some_inj.1 heq
  exact forall₂_of_mapM_receive hpartitions

private theorem remainingMinimum_of_receive (h : plan.receive = some hostPlan) :
    (if (plan.partitions.find? fun partition => partition.sizeMib.isNone).any
        (fun partition => partition.role == .data) then JsNumber.ofInt 1024
      else .ofInt (20 * 1024)) = .ofUInt64 hostPlan.minimumMib := by
  rw [remaining_of_sameSize (forall₂_of_receive h), PartitionPlan.minimumMib,
    PartitionPlan.remainingPartition]
  cases hostPlan.partitions.find? fun partition => partition.sizeMib.isNone with
  | none => rfl
  | some partition =>
    rw [Option.any_some, Option.map_some, Option.getD_some]
    by_cases hdata : partition.role = .data
    · rw [if_pos (beq_iff_eq.2 hdata), if_pos hdata]
      rfl
    · rw [if_neg fun h => hdata (beq_iff_eq.1 h), if_neg hdata]
      rfl

/-- The capacity of a plan that the host receives, in the numbers of the host. -/
theorem UiPartitionPlan.capacity_of_receive (rounding : Rounding) (h : plan.receive = some hostPlan)
    (hfixed : hostPlan.fixedMib ≤ 2 ^ 52) (hdisk : disk.toNat < 2 ^ 53)
    (himage : image.toNat < 2 ^ 53) :
    partitionCapacity rounding plan (.ofUInt64 disk) (.ofUInt64 image) = {
      fits := decide (hostPlan.fixedMib + (PartitionPlan.cacheMib image).toNat +
        hostPlan.minimumMib.toNat + 32 ≤ disk.toNat / 1048576)
      requiredMib := .ofInt (hostPlan.fixedMib + (PartitionPlan.cacheMib image).toNat +
        hostPlan.minimumMib.toNat + 32 : ℕ)
      availableMib := .ofUInt64 (disk / mibBytes)
      fixedMib := .ofInt hostPlan.fixedMib
      cacheMib := .ofUInt64 (PartitionPlan.cacheMib image)
      remainingMinimumMib := .ofUInt64 hostPlan.minimumMib
      alignmentHeadroomMib := .ofInt 32 } := by
  have hminimum := toNat_minimumMib_le hostPlan
  have hcacheNat : (PartitionPlan.cacheMib image).toNat = (image.toNat + 1048575) / 1048576 + 512 :=
    PartitionPlan.toNat_cacheMib
  have hsum : sizeSum rounding (fun _ => true) plan.partitions = .ofInt hostPlan.fixedMib := by
    rw [← countedMib_true] at hfixed ⊢
    exact sizeSum_of_sameSize rounding (fun _ => rfl) (forall₂_of_receive h) hfixed
  have havailable : ((JsNumber.ofUInt64 disk).div rounding (.ofInt (2 ^ 20))).floor =
      .ofUInt64 (disk / mibBytes) := by
    have hexact : |(disk.toNat : ℤ)| ≤ 2 ^ 53 := by
      rw [abs_of_nonneg (by omega)]
      omega
    rw [JsNumber.ofUInt64, JsNumber.floor_div_ofInt hexact (by decide), JsNumber.ofUInt64,
      PartitionPlan.toNat_div_mibBytes]
    rfl
  have hcache : (((JsNumber.ofUInt64 image).div rounding (.ofInt (2 ^ 20))).ceil.add rounding
      (.ofInt 512)) = .ofUInt64 (PartitionPlan.cacheMib image) := by
    have hexact : |-(-(image.toNat : ℤ) / 2 ^ 20) + 512| ≤ 2 ^ 53 := by
      rw [abs_of_nonneg (by omega)]
      omega
    have himageExact : |(image.toNat : ℤ)| ≤ 2 ^ 53 := by
      rw [abs_of_nonneg (by omega)]
      omega
    rw [JsNumber.ofUInt64, JsNumber.ceil_div_ofInt himageExact (by decide),
      JsNumber.add_ofInt hexact, JsNumber.ofUInt64, hcacheNat, JsNumber.ofInt_inj]
    omega
  have hrequired : (((JsNumber.ofInt hostPlan.fixedMib).add rounding
      (.ofUInt64 (PartitionPlan.cacheMib image))).add rounding
      (.ofUInt64 hostPlan.minimumMib)).add rounding (.ofInt 32) =
      .ofInt (hostPlan.fixedMib + (PartitionPlan.cacheMib image).toNat +
        hostPlan.minimumMib.toNat + 32 : ℕ) := by
    rw [JsNumber.ofUInt64, JsNumber.ofUInt64, JsNumber.add_ofInt, JsNumber.add_ofInt,
      JsNumber.add_ofInt]
    · rw [JsNumber.ofInt_inj]
      omega
    all_goals
      rw [abs_of_nonneg (by omega)]
      omega
  have hfits : (JsNumber.ofUInt64 (disk / mibBytes)).ge (.ofInt (hostPlan.fixedMib +
      (PartitionPlan.cacheMib image).toNat + hostPlan.minimumMib.toNat + 32 : ℕ)) =
      decide (hostPlan.fixedMib + (PartitionPlan.cacheMib image).toNat +
        hostPlan.minimumMib.toNat + 32 ≤ disk.toNat / 1048576) := by
    rw [JsNumber.ofUInt64, JsNumber.ge_ofInt, PartitionPlan.toNat_div_mibBytes]
    exact decide_eq_decide.2 Nat.cast_le
  dsimp only [partitionCapacity]
  rw [hsum, havailable, hcache, remainingMinimum_of_receive h, hrequired, hfits]

private theorem countedMib_le (counted : PartitionRole → Bool) (hosts : List PartitionSpec) :
    countedMib counted hosts ≤ countedMib (fun _ => true) hosts := by
  induction hosts with
  | nil => exact Nat.le_refl _
  | cons host hosts ih =>
    rw [countedMib_cons, countedMib_cons, if_pos rfl]
    split_ifs <;> omega

/-- The roles of the partitions that come before those of the template. -/
def isBootRole (role : PartitionRole) : Bool := [PartitionRole.efi, .msr, .system].contains role

/-- The budget for fixed sizes, in the numbers of the host. -/
theorem UiPartitionPlan.fixedGib_of_receive (rounding : Rounding) (h : plan.receive = some hostPlan)
    (hfixed : hostPlan.fixedMib ≤ 2 ^ 52) (hdisk : disk.toNat < 2 ^ 53)
    (himage : image.toNat < 2 ^ 53) :
    (partitionUserBudgets rounding plan (.ofUInt64 disk) (.ofUInt64 image)).fixedGib =
      .ofInt (max 0 (max 0 (((disk.toNat / 1048576 : ℕ) : ℤ) -
        countedMib isBootRole hostPlan.partitions - (PartitionPlan.cacheMib image).toNat - 32) -
        hostPlan.minimumMib.toNat) / 2 ^ 10) := by
  have hminimum := toNat_minimumMib_le hostPlan
  have hcacheNat : (PartitionPlan.cacheMib image).toNat = (image.toNat + 1048575) / 1048576 + 512 :=
    PartitionPlan.toNat_cacheMib
  have hboot : countedMib isBootRole hostPlan.partitions ≤ 2 ^ 52 := by
    refine (countedMib_le _ _).trans ?_
    rwa [countedMib_true]
  have hbootSum : sizeSum rounding isBootPartition plan.partitions =
      .ofInt (countedMib isBootRole hostPlan.partitions) :=
    sizeSum_of_sameSize rounding (fun _ => rfl) (forall₂_of_receive h) hboot
  generalize hbootEq : countedMib isBootRole hostPlan.partitions = boot at hboot hbootSum ⊢
  generalize hcacheEq : (PartitionPlan.cacheMib image).toNat = cache at hcacheNat ⊢
  generalize hminimumEq : hostPlan.minimumMib.toNat = minimum at hminimum ⊢
  generalize hdiskEq : disk.toNat / 1048576 = available
  have hsub : ∀ a b : ℤ, |a - b| ≤ 2 ^ 53 →
      (JsNumber.ofInt a).sub rounding (.ofInt b) = .ofInt (a - b) := fun a b => JsNumber.sub_ofInt
  have htotal : JsNumber.max (.ofInt 0)
        ((((JsNumber.ofInt available).sub rounding (.ofInt boot)).sub rounding (.ofInt cache)).sub
          rounding (.ofInt 32)) =
      .ofInt (max 0 ((available : ℤ) - boot - cache - 32)) := by
    rw [hsub, hsub, hsub, JsNumber.max_ofInt]
    all_goals
      rw [abs_le]
      omega
  have hfixedGib : JsNumber.max (.ofInt 0)
        ((JsNumber.ofInt (max 0 ((available : ℤ) - boot - cache - 32))).sub rounding
          (.ofInt minimum)) =
      .ofInt (max 0 (max 0 ((available : ℤ) - boot - cache - 32) - minimum)) := by
    rw [hsub, JsNumber.max_ofInt]
    rw [abs_le]
    omega
  have hexact : |max 0 (max 0 ((available : ℤ) - boot - cache - 32) - minimum)| ≤ 2 ^ 53 := by
    rw [abs_le]
    omega
  dsimp only [partitionUserBudgets]
  rw [UiPartitionPlan.capacity_of_receive rounding h hfixed hdisk himage, hbootSum]
  dsimp only
  rw [JsNumber.ofUInt64, JsNumber.ofUInt64, JsNumber.ofUInt64, PartitionPlan.toNat_div_mibBytes,
    hcacheEq, hminimumEq, hdiskEq, htotal, hfixedGib, JsNumber.floor_div_ofInt hexact (by decide)]

end Plan

end Received

/-! ### Valid templates -/

section Valid

variable {toUpperCase : JsString → JsString} {template : CustomPartitionTemplate}
  {partition : CustomPartition} {rounding : Rounding}

/-- What the check of a template requires. -/
structure ValidTemplate (toUpperCase : JsString → JsString) (template : CustomPartitionTemplate) :
    Prop where
  windows : (template.partitions.filter fun partition => partition.role == .windows).length = 1
  remaining : (template.partitions.filter fun partition => partition.sizeGib.isNone).length = 1
  letters : ∀ partition ∈ template.partitions, partition.role = .data → ∃ letter u,
    partition.driveLetter = some letter ∧ partition.upperLetter toUpperCase = some [u] ∧
      toUpperCase letter = [u] ∧ isDataLetterUnit u = true
  distinct : (template.partitions.filterMap (CustomPartition.upperLetter toUpperCase)).Nodup
  labels : ∀ partition ∈ template.partitions, isTemplateLabel partition.label = true
  sizes : ∀ partition ∈ template.partitions, ∀ size, partition.sizeGib = some size →
    ∃ n : ℕ, 1 ≤ n ∧ size = .ofInt n

theorem validTemplate_of_validate
    (h : validateCustomPartitionTemplate toUpperCase template = none) :
    ValidTemplate toUpperCase template := by
  dsimp only [validateCustomPartitionTemplate] at h
  split_ifs at h with hname hwindows hremaining hmissing hletters hdistinct hlabels hsizes
  have hpattern :
      ∀ letter ∈ template.partitions.filterMap (CustomPartition.upperLetter toUpperCase),
        isDataLetter letter = true := by
    intro letter hletter
    by_contra hnot
    exact hletters (List.any_eq_true.2 ⟨letter, hletter, by simpa using hnot⟩)
  refine ⟨not_not.1 hwindows, not_not.1 hremaining, fun partition hmem hdata => ?_, ?_,
    by simpa using hlabels, fun partition hmem size hsize => ?_⟩
  · have hsome : partition.driveLetter.all List.isEmpty = false := by
      rw [Bool.eq_false_iff]
      intro hall
      exact hmissing (List.any_eq_true.2 ⟨partition, hmem, by rw [hdata, hall]; rfl⟩)
    cases hletter : partition.driveLetter with
    | none =>
      rw [hletter] at hsome
      cases hsome
    | some letter =>
      rw [hletter, Option.all_some] at hsome
      have hupper : partition.upperLetter toUpperCase = some (toUpperCase letter) := by
        rw [CustomPartition.upperLetter, hletter, Option.filter_some, hsome]
        rfl
      have hmatch := hpattern _ (List.mem_filterMap.2 ⟨partition, hmem, hupper⟩)
      rcases hcase : toUpperCase letter with _ | ⟨u, _ | ⟨v, rest⟩⟩
      · rw [hcase] at hmatch
        cases hmatch
      · rw [hcase] at hmatch hupper
        exact ⟨letter, u, rfl, hupper, hcase, hmatch⟩
      · rw [hcase] at hmatch
        cases hmatch
  · have hsame := (List.dedup_sublist _).eq_of_length (not_not.1 hdistinct)
    exact List.dedup_eq_self.1 hsame
  · have hnot : ¬(!size.isInteger || size.lt (.ofInt 1)) = true := fun hbad =>
      hsizes (List.any_eq_true.2 ⟨partition, hmem, by rw [hsize, Option.any_some, hbad]⟩)
    rw [Bool.or_eq_true, not_or, Bool.not_eq_true', Bool.not_eq_false] at hnot
    obtain ⟨n, rfl⟩ := JsNumber.exists_of_isInteger hnot.1
    rw [JsNumber.lt_ofInt, decide_eq_true_eq] at hnot
    refine ⟨n.toNat, by omega, ?_⟩
    rw [Int.toNat_of_nonneg (by omega)]

/-! ### What the host receives of a template -/

/-- A partition of a template, as the host receives it. -/
def CustomPartition.hostSpec (toUpperCase : JsString → JsString) (partition : CustomPartition) :
    PartitionSpec where
  role := partition.role.toRole
  sizeMib := partition.sizeGib.map fun size => UInt64.ofNat (1024 * size.value.num.toNat)
  fileSystem := some .ntfs
  label := asciiText (trimmed isJsWhitespace partition.label)
  driveLetter :=
    if partition.role = .data then
      (partition.upperLetter toUpperCase).map fun letter => asciiChar (letter.headD 0)
    else none

@[simp] theorem role_hostSpec : (partition.hostSpec toUpperCase).role = partition.role.toRole := rfl

private theorem value_ofInt (n : ℕ) : (JsNumber.ofInt n).value.num.toNat = n := by
  rw [JsNumber.ofInt, JsNumber.value, Rat.num_intCast, Int.toNat_natCast]

private theorem labelUnit_spec {u : UInt16} (h : isLabelUnit u = true) :
    u < 128 ∧ PartitionPlan.isLabelCharacter (asciiChar u) = true := by
  have hall : ∀ n < 128, isLabelUnit (UInt16.ofNat n) = true →
      PartitionPlan.isLabelCharacter (Char.ofNat n) = true := by
    decide
  have hlt : u.toNat < 128 := by
    simp only [isLabelUnit, Bool.or_eq_true, Bool.and_eq_true, decide_eq_true_eq, beq_iff_eq,
      UInt16.le_iff_toNat_le] at h
    rcases h with ((((⟨-, h⟩ | ⟨-, h⟩) | ⟨-, h⟩) | rfl) | rfl) | rfl
    · exact h.trans_lt (by decide)
    · exact h.trans_lt (by decide)
    · exact h.trans_lt (by decide)
    · decide
    · decide
    · decide
  refine ⟨UInt16.lt_iff_toNat_lt.2 hlt, hall u.toNat hlt ?_⟩
  rwa [UInt16.ofNat_toNat]

private theorem dataLetterUnit_spec {u : UInt16} (h : isDataLetterUnit u = true) :
    u < 128 ∧ (asciiChar u).toUpper = asciiChar u ∧
      PartitionPlan.isDataDriveLetter (asciiChar u) = true := by
  have hall : ∀ n < 128, isDataLetterUnit (UInt16.ofNat n) = true →
      (Char.ofNat n).toUpper = Char.ofNat n ∧
        PartitionPlan.isDataDriveLetter (Char.ofNat n) = true := by
    decide
  have hlt : u.toNat < 128 := by
    simp only [isDataLetterUnit, Bool.or_eq_true, Bool.and_eq_true, decide_eq_true_eq,
      UInt16.le_iff_toNat_le] at h
    rcases h with (⟨-, h⟩ | ⟨-, h⟩) | ⟨-, h⟩
    · exact h.trans_lt (by decide)
    · exact h.trans_lt (by decide)
    · exact h.trans_lt (by decide)
  refine ⟨UInt16.lt_iff_toNat_lt.2 hlt, hall u.toNat hlt ?_⟩
  rwa [UInt16.ofNat_toNat]

/-- The label of a partition, trimmed, has units of a label and is short. -/
private theorem trimmedLabel_spec {label : JsString} (h : isTemplateLabel label = true) :
    (trimmed isJsWhitespace label).length ≤ 32 ∧
      ∀ u ∈ trimmed isJsWhitespace label, isLabelUnit u = true := by
  rw [isTemplateLabel, Bool.and_eq_true, decide_eq_true_eq] at h
  obtain ⟨before, after, hlabel, -⟩ := exists_trimmed isJsWhitespace label
  have hlength := congrArg List.length hlabel
  rw [List.length_append, List.length_append] at hlength
  refine ⟨by omega, fun u hu => List.all_eq_true.1 h.2 u ?_⟩
  rw [hlabel]
  exact List.mem_append_left _ (List.mem_append_right _ hu)

/-- A fixed size of at most `2 ^ 23` GiB is received in MiB. -/
private theorem receiveSize_mul {n : ℕ} (hn : n < 2 ^ 23) :
    receiveSize ((JsNumber.ofInt n).mul rounding (.ofInt 1024)) =
      some (UInt64.ofNat (1024 * n)) := by
  have hexact : |(n : ℤ) * 1024| ≤ 2 ^ 53 := by
    rw [abs_of_nonneg (by omega)]
    omega
  rw [JsNumber.mul_ofInt hexact, JsNumber.ofInt, receiveSize, Rat.den_intCast, Rat.num_intCast,
    if_pos ⟨rfl, by omega, by omega⟩, Option.some_inj]
  congr 1
  omega

theorem receive_toSpec (h : ValidTemplate toUpperCase template)
    (hmem : partition ∈ template.partitions)
    (hsmall : ∀ n : ℕ, partition.sizeGib = some (.ofInt n) → n < 2 ^ 23) :
    (partition.toSpec toUpperCase rounding).receive = some (partition.hostSpec toUpperCase) := by
  have hsize : receiveOption receiveSize (partition.toSpec toUpperCase rounding).sizeMib =
      some (partition.hostSpec toUpperCase).sizeMib := by
    rw [CustomPartition.toSpec, CustomPartition.hostSpec]
    dsimp only
    cases hcase : partition.sizeGib with
    | none => rfl
    | some size =>
      obtain ⟨n, -, rfl⟩ := h.sizes partition hmem size hcase
      rw [Option.map_some, receiveOption, receiveSize_mul (hsmall n hcase), Option.map_some,
        Option.map_some, value_ofInt]
  have hlabel : decodeUtf16 (partition.toSpec toUpperCase rounding).label =
      some (partition.hostSpec toUpperCase).label := by
    refine decodeUtf16_of_ascii fun u hu => ?_
    exact (labelUnit_spec ((trimmedLabel_spec (h.labels partition hmem)).2 u hu)).1
  have hletter : receiveOption receiveLetter (partition.toSpec toUpperCase rounding).driveLetter =
      some (partition.hostSpec toUpperCase).driveLetter := by
    rw [CustomPartition.toSpec, CustomPartition.hostSpec]
    dsimp only
    by_cases hdata : partition.role = .data
    · obtain ⟨letter, u, hletter, hupper, hcase, hunit⟩ := h.letters partition hmem hdata
      have hdecode : decodeUnits [u] = some [asciiChar u] := by
        have hascii := decodeUtf16_of_ascii (s := [u]) fun v hv =>
          List.mem_singleton.1 hv ▸ (dataLetterUnit_spec hunit).1
        rw [decodeUtf16, Option.map_eq_some_iff] at hascii
        obtain ⟨units, hunits, htext⟩ := hascii
        rw [hunits, String.ofList_inj.1 htext]
        rfl
      rw [if_pos hdata, if_pos hdata, hletter, hupper, Option.map_some, Option.map_some, hcase,
        receiveOption, receiveLetter, hdecode]
      rfl
    · rw [if_neg hdata, if_neg hdata]
      rfl
  rw [UiPartitionSpec.receive, hsize, hlabel, hletter]
  rfl

/-- The fixed sizes are whole numbers of GiB, and their sum is what the host adds up. -/
private theorem exists_total (toUpperCase : JsString → JsString) (partitions : List CustomPartition)
    (hsizes : ∀ partition ∈ partitions, ∀ size, partition.sizeGib = some size →
      ∃ n : ℕ, 1 ≤ n ∧ size = .ofInt n) :
    ∃ total : ℕ, ((partitions.filterMap CustomPartition.sizeGib).map JsNumber.value).sum = total ∧
      (∀ partition ∈ partitions, ∀ n : ℕ, partition.sizeGib = some (.ofInt n) → n ≤ total) ∧
      (total < 2 ^ 23 → (((partitions.map (CustomPartition.hostSpec toUpperCase)).filterMap
        PartitionSpec.sizeMib).map UInt64.toNat).sum = 1024 * total) := by
  induction partitions with
  | nil => exact ⟨0, rfl, fun _ h => absurd h List.not_mem_nil, fun _ => rfl⟩
  | cons partition partitions ih =>
    obtain ⟨hpartition, hpartitions⟩ := List.forall_mem_cons.1 hsizes
    obtain ⟨total, hsum, hle, hhost⟩ := ih hpartitions
    cases hcase : partition.sizeGib with
    | none =>
      have hhostSize : (partition.hostSpec toUpperCase).sizeMib = none := by
        rw [CustomPartition.hostSpec, hcase, Option.map_none]
      refine ⟨total, ?_, List.forall_mem_cons.2 ⟨fun n hn => ?_, hle⟩, fun hlt => ?_⟩
      · rw [List.filterMap_cons_none hcase, hsum]
      · rw [hcase] at hn
        cases hn
      · rw [List.map_cons, List.filterMap_cons_none hhostSize, hhost hlt]
    | some size =>
      obtain ⟨m, -, rfl⟩ := hpartition size hcase
      have hhostSize : (partition.hostSpec toUpperCase).sizeMib =
          some (UInt64.ofNat (1024 * m)) := by
        rw [CustomPartition.hostSpec, hcase, Option.map_some, value_ofInt]
      refine ⟨m + total, ?_, List.forall_mem_cons.2 ⟨fun n hn => ?_, fun other hother n hn => ?_⟩,
        fun hlt => ?_⟩
      · rw [List.filterMap_cons_some hcase, List.map_cons, List.sum_cons, hsum, Nat.cast_add]
        rfl
      · rw [hcase, Option.some_inj, JsNumber.ofInt_inj] at hn
        omega
      · exact (hle other hother n hn).trans (Nat.le_add_left _ _)
      · have hnat : (UInt64.ofNat (1024 * m)).toNat = 1024 * m := by
          rw [UInt64.toNat_ofNat']
          omega
        rw [List.map_cons, List.filterMap_cons_some hhostSize, List.map_cons, List.sum_cons, hnat,
          hhost (by omega)]
        omega

/-! ### The plan of the host -/

/-- The boot partitions of a recommended plan, followed by the partitions of the template. -/
def customHostPlan (toUpperCase : JsString → JsString) (base : PartitionPlan)
    (template : CustomPartitionTemplate) : PartitionPlan :=
  { base with
    partitions := base.partitions.dropLast ++
      template.partitions.map (CustomPartition.hostSpec toUpperCase) }

private theorem filter_hostSpec_eq_nil {partitions : List CustomPartition} {role : PartitionRole}
    (hwindows : role ≠ .windows) (hdata : role ≠ .data) :
    (partitions.map (CustomPartition.hostSpec toUpperCase)).filter (fun spec => spec.role == role) =
      [] := by
  refine List.filter_eq_nil_iff.2 fun spec hspec hrole => ?_
  obtain ⟨partition, -, rfl⟩ := List.mem_map.1 hspec
  rw [← beq_iff_eq.1 hrole] at hwindows hdata
  cases hcase : partition.role with
  | windows => exact hwindows (by rw [CustomPartition.hostSpec, hcase]; rfl)
  | data => exact hdata (by rw [CustomPartition.hostSpec, hcase]; rfl)

/-- The checks of the table are those of the boot partitions. -/
private theorem checkTable_customHostPlan {base : PartitionPlan} :
    (customHostPlan toUpperCase base template).checkTable =
      PartitionPlan.checkTable { base with partitions := base.partitions.dropLast } := by
  have hfilter : ∀ role : PartitionRole, role ≠ .windows → role ≠ .data →
      (customHostPlan toUpperCase base template).partitions.filter (fun spec => spec.role == role) =
        base.partitions.dropLast.filter fun spec => spec.role == role := by
    intro role hwindows hdata
    rw [customHostPlan, List.filter_append, filter_hostSpec_eq_nil hwindows hdata, List.append_nil]
  have hany : ∀ counted : PartitionRole → Bool, counted .windows = false → counted .data = false →
      (customHostPlan toUpperCase base template).partitions.any (fun spec => counted spec.role) =
        base.partitions.dropLast.any fun spec => counted spec.role := by
    intro counted hwindows hdata
    have hnone : (template.partitions.map (CustomPartition.hostSpec toUpperCase)).any
        (fun spec => counted spec.role) = false := by
      refine List.any_eq_false.2 fun spec hspec => ?_
      obtain ⟨partition, -, rfl⟩ := List.mem_map.1 hspec
      rw [role_hostSpec]
      cases partition.role with
      | windows => exact Bool.eq_false_iff.1 hwindows
      | data => exact Bool.eq_false_iff.1 hdata
    rw [customHostPlan, List.any_append, hnone, Bool.or_false]
  have hrequire : ∀ role fileSystem, role ≠ .windows → role ≠ .data →
      PartitionPlan.requirePartition (customHostPlan toUpperCase base template).partitions role
        fileSystem = PartitionPlan.requirePartition base.partitions.dropLast role fileSystem := by
    intro role fileSystem hwindows hdata
    rw [PartitionPlan.requirePartition, PartitionPlan.requirePartition, hfilter role hwindows hdata]
  have hsystem := hany (fun role => role == .system) rfl rfl
  have hboot := hany (fun role => role == .efi || role == .msr) rfl rfl
  rw [PartitionPlan.checkTable, PartitionPlan.checkTable, hrequire .efi _ (by decide) (by decide),
    hrequire .msr _ (by decide) (by decide), hrequire .system _ (by decide) (by decide),
    hsystem, hboot]
  rfl

/-- The host accepts each partition. -/
private theorem checkPartition_hostSpec (h : ValidTemplate toUpperCase template)
    (hmem : partition ∈ template.partitions)
    (hsmall : ∀ n : ℕ, partition.sizeGib = some (.ofInt n) → n < 2 ^ 23) :
    PartitionPlan.checkPartition (partition.hostSpec toUpperCase) = .ok () := by
  obtain ⟨hlength, hunits⟩ := trimmedLabel_spec (h.labels partition hmem)
  refine PartitionPlan.checkPartition_eq_ok_iff.2 ⟨?_, fun _ => rfl, ⟨?_, ?_⟩,
    fun letter hletter => ?_⟩
  · rw [CustomPartition.hostSpec]
    dsimp only
    cases hcase : partition.sizeGib with
    | none => exact nofun
    | some size =>
      obtain ⟨n, hpos, rfl⟩ := h.sizes partition hmem size hcase
      have hlt := hsmall n hcase
      rw [Option.map_some, value_ofInt]
      intro hzero
      have hnat := congrArg UInt64.toNat (Option.some_inj.1 hzero)
      rw [UInt64.toNat_ofNat', UInt64.toNat_zero] at hnat
      omega
  · rw [CustomPartition.hostSpec]
    dsimp only
    rwa [utf8ByteSize_asciiText fun u hu => (labelUnit_spec (hunits u hu)).1]
  · rw [CustomPartition.hostSpec]
    dsimp only
    rw [toList_asciiText, List.all_map, List.all_eq_true]
    exact fun u hu => (labelUnit_spec (hunits u hu)).2
  · rw [CustomPartition.hostSpec] at hletter ⊢
    dsimp only at hletter ⊢
    by_cases hdata : partition.role = .data
    · obtain ⟨-, u, -, hupper, -, hunit⟩ := h.letters partition hmem hdata
      obtain ⟨-, hsame, hallowed⟩ := dataLetterUnit_spec hunit
      rw [if_pos hdata, hupper, Option.map_some, Option.some_inj, List.headD_cons] at hletter
      rw [← hletter, hdata, hsame]
      exact ⟨rfl, hallowed⟩
    · rw [if_neg hdata] at hletter
      cases hletter

private theorem hasEqualNeighbours_of_nodup {α : Type} [DecidableEq α] {l : List α} (h : l.Nodup) :
    PartitionPlan.hasEqualNeighbours l = false := by
  induction l with
  | nil => rfl
  | cons a l ih =>
    obtain ⟨ha, hl⟩ := List.nodup_cons.1 h
    cases l with
    | nil => rfl
    | cons b l =>
      have hne : a ≠ b := fun heq => ha (heq ▸ List.mem_cons_self)
      rw [PartitionPlan.hasEqualNeighbours, ih hl, Bool.or_false, beq_eq_false_iff_ne]
      exact hne

private theorem filterMap_sublist {α β : Type} {f g : α → Option β}
    (h : ∀ a, f a = none ∨ f a = g a) (l : List α) :
    (l.filterMap f).Sublist (l.filterMap g) := by
  induction l with
  | nil => exact List.Sublist.refl _
  | cons a l ih =>
    rcases h a with hnone | hsame
    · rw [List.filterMap_cons_none hnone]
      exact ih.trans ((List.sublist_cons_self a l).filterMap g)
    · rw [List.filterMap_cons, List.filterMap_cons, hsame]
      cases g a with
      | none => exact ih
      | some b => exact ih.cons_cons b

/-- The letters of the data partitions are distinct. -/
private theorem nodup_hostLetters (h : ValidTemplate toUpperCase template) :
    ((template.partitions.map (CustomPartition.hostSpec toUpperCase)).filterMap fun spec =>
      spec.driveLetter.map Char.toUpper).Nodup := by
  set dataLetter : CustomPartition → Option JsString := fun partition =>
    if partition.role = .data then partition.upperLetter toUpperCase else none with hdataLetter
  have hletters : (template.partitions.map (CustomPartition.hostSpec toUpperCase)).filterMap
        (fun spec => spec.driveLetter.map Char.toUpper) =
      (template.partitions.filterMap dataLetter).map
        fun letter => (asciiChar (letter.headD 0)).toUpper := by
    rw [List.filterMap_map, List.map_filterMap]
    refine List.filterMap_congr fun partition _ => ?_
    rw [Function.comp_apply, CustomPartition.hostSpec, hdataLetter]
    dsimp only
    by_cases hdata : partition.role = .data
    · rw [if_pos hdata, if_pos hdata, Option.map_map]
      rfl
    · rw [if_neg hdata, if_neg hdata]
      rfl
  have hsub : (template.partitions.filterMap dataLetter).Nodup := by
    refine (filterMap_sublist (fun partition => ?_) _).nodup h.distinct
    rw [hdataLetter]
    dsimp only
    split_ifs
    · exact .inr rfl
    · exact .inl rfl
  have hunit : ∀ letter ∈ template.partitions.filterMap dataLetter, ∃ u, letter = [u] ∧
      isDataLetterUnit u = true := by
    intro letter hletter
    obtain ⟨partition, hmem, hsome⟩ := List.mem_filterMap.1 hletter
    rw [hdataLetter] at hsome
    dsimp only at hsome
    split_ifs at hsome with hdata
    obtain ⟨-, u, -, hupper, -, hu⟩ := h.letters partition hmem hdata
    rw [hupper] at hsome
    exact ⟨u, (Option.some_inj.1 hsome).symm, hu⟩
  rw [hletters]
  refine hsub.map_on fun letter hletter other hother heq => ?_
  obtain ⟨u, rfl, hu⟩ := hunit letter hletter
  obtain ⟨v, rfl, hv⟩ := hunit other hother
  obtain ⟨hulow, husame, -⟩ := dataLetterUnit_spec hu
  obtain ⟨hvlow, hvsame, -⟩ := dataLetterUnit_spec hv
  rw [List.headD_cons, List.headD_cons, husame, hvsame] at heq
  refine asciiText_inj (fun w hw => List.mem_singleton.1 hw ▸ hulow)
    (fun w hw => List.mem_singleton.1 hw ▸ hvlow) ?_
  rw [asciiText, asciiText, List.map_singleton, List.map_singleton, heq]

/-- The host accepts the plan. -/
theorem validate_customHostPlan {base : PartitionPlan}
    (hbase : base = PartitionPlan.uefiGpt ∨ base = PartitionPlan.legacyBiosMbr)
    (h : ValidTemplate toUpperCase template)
    (hsmall : ∀ partition ∈ template.partitions, ∀ n : ℕ,
      partition.sizeGib = some (.ofInt n) → n < 2 ^ 23) :
    (customHostPlan toUpperCase base template).validate = .ok () := by
  have hboot : base.partitions.dropLast ≠ [] ∧
      base.partitions.dropLast.countP (fun spec => spec.role == .windows) = 0 ∧
      base.partitions.dropLast.filter (fun spec => spec.sizeMib.isNone) = [] ∧
      (∀ spec ∈ base.partitions.dropLast, PartitionPlan.checkPartition spec = .ok ()) ∧
      (base.partitions.dropLast.filterMap fun spec => spec.driveLetter.map Char.toUpper) = [] := by
    rcases hbase with rfl | rfl <;> decide +kernel
  obtain ⟨hne, hnoWindows, hnoRest, hchecked, hnoLetters⟩ := hboot
  refine PartitionPlan.validate_eq_ok_iff.2 ⟨?_, ?_, ?_, ?_, ?_, ?_⟩
  · exact List.append_ne_nil_of_left_ne_nil hne _
  · have hcount : template.partitions.countP ((fun spec : PartitionSpec => spec.role == .windows) ∘
        CustomPartition.hostSpec toUpperCase) = 1 := by
      rw [← h.windows, ← List.countP_eq_length_filter]
      refine List.countP_congr fun partition _ => ?_
      rw [Function.comp_apply, role_hostSpec]
      cases partition.role <;> decide
    rw [customHostPlan, List.countP_append, hnoWindows, List.countP_map, hcount]
  · obtain ⟨remaining, hremaining⟩ := List.length_eq_one_iff.1 h.remaining
    have hrest : (template.partitions.map (CustomPartition.hostSpec toUpperCase)).filter
        (fun spec => spec.sizeMib.isNone) = [remaining.hostSpec toUpperCase] := by
      have hsame : ((fun spec : PartitionSpec => spec.sizeMib.isNone) ∘
          CustomPartition.hostSpec toUpperCase) = fun partition => partition.sizeGib.isNone := by
        funext partition
        rw [Function.comp_apply, CustomPartition.hostSpec, Option.isNone_map]
      rw [List.filter_map, hsame, hremaining, List.map_singleton]
    rw [PartitionPlan.hasOneRemaining, customHostPlan, List.filter_append, hnoRest, hrest,
      List.nil_append]
    dsimp only
    rw [role_hostSpec]
    cases remaining.role <;> decide
  · intro spec hspec
    rcases List.mem_append.1 hspec with hspec | hspec
    · exact hchecked spec hspec
    · obtain ⟨partition, hmem, rfl⟩ := List.mem_map.1 hspec
      exact checkPartition_hostSpec h hmem (hsmall partition hmem)
  · rw [customHostPlan, List.filterMap_append, hnoLetters, List.nil_append]
    exact hasEqualNeighbours_of_nodup
      ((List.perm_insertionSort _ _).nodup_iff.2 (nodup_hostLetters h))
  · rw [checkTable_customHostPlan]
    rcases hbase with rfl | rfl <;> decide +kernel

/-- The host receives the plan of a valid template. -/
private theorem receive_customPlan (rounding : Rounding) {base : UiPartitionPlan}
    {hostBase : PartitionPlan}
    (hbase : base.partitions.dropLast.mapM UiPartitionSpec.receive =
      some hostBase.partitions.dropLast) (htable : base.table = hostBase.table)
    (h : ValidTemplate toUpperCase template)
    (hsmall : ∀ partition ∈ template.partitions, ∀ n : ℕ,
      partition.sizeGib = some (.ofInt n) → n < 2 ^ 23) :
    UiPartitionPlan.receive { base with
      partitions := base.partitions.dropLast ++
        template.partitions.map (CustomPartition.toSpec toUpperCase rounding) } =
      some (customHostPlan toUpperCase hostBase template) := by
  have hspecs : ∀ partitions : List CustomPartition, (∀ p ∈ partitions, p ∈ template.partitions) →
      (partitions.map (CustomPartition.toSpec toUpperCase rounding)).mapM UiPartitionSpec.receive =
        some (partitions.map (CustomPartition.hostSpec toUpperCase)) := by
    intro partitions hpartitions
    induction partitions with
    | nil => rfl
    | cons partition partitions ih =>
      obtain ⟨hmem, hrest⟩ := List.forall_mem_cons.1 hpartitions
      rw [List.map_cons, List.mapM_cons, receive_toSpec h hmem (hsmall partition hmem), ih hrest]
      rfl
  rw [UiPartitionPlan.receive, List.mapM_append, hbase, hspecs _ fun _ hp => hp, htable]
  rfl

/-- The boot partitions and the fixed sizes of the template add up to what the plan takes. -/
private theorem fixedMib_customHostPlan {base : PartitionPlan}
    (hbase : countedMib isBootRole base.partitions.dropLast =
      countedMib (fun _ => true) base.partitions.dropLast) {total : ℕ}
    (htotal : (((template.partitions.map (CustomPartition.hostSpec toUpperCase)).filterMap
      PartitionSpec.sizeMib).map UInt64.toNat).sum = 1024 * total) :
    countedMib isBootRole (customHostPlan toUpperCase base template).partitions =
        countedMib isBootRole base.partitions.dropLast ∧
      (customHostPlan toUpperCase base template).fixedMib =
        countedMib isBootRole base.partitions.dropLast + 1024 * total := by
  have happend : ∀ (counted : PartitionRole → Bool) (front back : List PartitionSpec),
      countedMib counted (front ++ back) = countedMib counted front + countedMib counted back := by
    intro counted front back
    rw [countedMib, List.filter_append, List.filterMap_append, List.map_append, List.sum_append]
    rfl
  have hnone : countedMib isBootRole
      (template.partitions.map (CustomPartition.hostSpec toUpperCase)) = 0 := by
    have hnil : (template.partitions.map (CustomPartition.hostSpec toUpperCase)).filter
        (fun host => isBootRole host.role) = [] := by
      refine List.filter_eq_nil_iff.2 fun spec hspec => ?_
      obtain ⟨partition, -, rfl⟩ := List.mem_map.1 hspec
      rw [role_hostSpec]
      cases partition.role <;> decide
    rw [countedMib, hnil]
    rfl
  have hall : countedMib (fun _ => true)
      (template.partitions.map (CustomPartition.hostSpec toUpperCase)) = 1024 * total := by
    rw [countedMib, List.filter_true, htotal]
  rw [← countedMib_true, customHostPlan]
  dsimp only
  rw [happend, happend, hnone, hall, hbase, Nat.add_zero]
  exact ⟨rfl, rfl⟩

/-- What the host receives agrees, if the plan takes the boot partitions and the fixed sizes. -/
private theorem plansAgree_of_receive {plan : UiPartitionPlan} {hostPlan : PartitionPlan}
    {diskSizeBytes imageSizeBytes : UInt64} {total : ℕ} (h : plan.receive = some hostPlan)
    (hvalid : hostPlan.validate = .ok ()) (hdisk : diskSizeBytes.toNat < 2 ^ 53)
    (himage : imageSizeBytes.toNat < 2 ^ 53) (hgib : template.fixedGib = total)
    (hfixed : hostPlan.fixedMib = countedMib isBootRole hostPlan.partitions + 1024 * total)
    (hle : hostPlan.fixedMib ≤ 2 ^ 52) :
    PlansAgree rounding template plan hostPlan diskSizeBytes imageSizeBytes := by
  have hcapacity := UiPartitionPlan.capacity_of_receive rounding h hle hdisk himage
  have hheadroom : partitionAlignmentHeadroomMib.toNat = 32 := rfl
  have hminimum := toNat_minimumMib_le hostPlan
  have hcacheNat : (PartitionPlan.cacheMib imageSizeBytes).toNat =
      (imageSizeBytes.toNat + 1048575) / 1048576 + 512 := PartitionPlan.toNat_cacheMib
  have hrequired : (hostPlan.requiredMib imageSizeBytes).toNat = hostPlan.fixedMib +
      (PartitionPlan.cacheMib imageSizeBytes).toNat + hostPlan.minimumMib.toNat + 32 := by
    have hsizes : (hostPlan.fixedSizes.map UInt64.toNat).sum = hostPlan.fixedMib := rfl
    rw [PartitionPlan.requiredMib, toNat_saturatingAdd, toNat_saturatingAdd, toNat_saturatingAdd,
      toNat_foldl_saturatingAdd, hheadroom, UInt64.toNat_zero, hsizes, Nat.zero_add,
      Nat.min_eq_left (by omega), Nat.min_eq_left (by omega), Nat.min_eq_left (by omega),
      Nat.min_eq_left (by omega)]
  refine ⟨h, hvalid, ?_, ?_, ?_, fun fixedGib hfixedGib hpos hspend => ?_⟩
  · rw [hcapacity, PartitionPlan.validateCapacity_eq_ok_iff, hheadroom]
    exact decide_eq_true_iff
  · rw [hcapacity]
    dsimp only
    rw [JsNumber.ofUInt64, hrequired]
  · rw [hcapacity]
  · rw [UiPartitionPlan.fixedGib_of_receive rounding h hle hdisk himage, JsNumber.ofInt,
      JsNumber.finite.injEq] at hfixedGib
    rw [← hfixedGib] at hpos hspend
    rw [hgib] at hspend
    have hposInt := Int.cast_pos.1 hpos
    have hspendInt : (total : ℤ) ≤
        max 0 (max 0 (((diskSizeBytes.toNat / 1048576 : ℕ) : ℤ) -
          countedMib isBootRole hostPlan.partitions -
          (PartitionPlan.cacheMib imageSizeBytes).toNat - 32) -
          hostPlan.minimumMib.toNat) / 2 ^ 10 := by
      rw [← Int.cast_le (R := ℚ), Int.cast_natCast]
      exact hspend
    rw [hcapacity]
    refine decide_eq_true ?_
    omega

/-- The plan of a valid template agrees, for a recommended base plan. -/
private theorem plansAgree_of_valid {base : UiPartitionPlan} {hostBase : PartitionPlan}
    {diskSizeBytes imageSizeBytes : UInt64}
    (hhostBase : hostBase = PartitionPlan.uefiGpt ∨ hostBase = PartitionPlan.legacyBiosMbr)
    (hbase : base.partitions.dropLast.mapM UiPartitionSpec.receive =
      some hostBase.partitions.dropLast) (htable : base.table = hostBase.table)
    (h : ValidTemplate toUpperCase template) (hdisk : diskSizeBytes.toNat < 2 ^ 53)
    (himage : imageSizeBytes.toNat < 2 ^ 53) (hsum : template.fixedGib * 2 ^ 30 < 2 ^ 53) :
    PlansAgree rounding template { base with
      partitions := base.partitions.dropLast ++
        template.partitions.map (CustomPartition.toSpec toUpperCase rounding) }
      (customHostPlan toUpperCase hostBase template) diskSizeBytes imageSizeBytes := by
  obtain ⟨total, hgib, hle, hhost⟩ := exists_total toUpperCase template.partitions h.sizes
  have htotal : total < 2 ^ 23 := by
    rw [CustomPartitionTemplate.fixedGib, hgib] at hsum
    have hcast : ((total * 2 ^ 30 : ℕ) : ℚ) < ((2 ^ 53 : ℕ) : ℚ) := by
      push_cast
      exact hsum
    have hnat := Nat.cast_lt.1 hcast
    omega
  have hsmall : ∀ partition ∈ template.partitions, ∀ n : ℕ,
      partition.sizeGib = some (.ofInt n) → n < 2 ^ 23 := fun partition hmem n hn =>
    (hle partition hmem n hn).trans_lt htotal
  have hreceive := receive_customPlan rounding hbase htable h hsmall
  have hbootSizes : countedMib isBootRole hostBase.partitions.dropLast =
      countedMib (fun _ => true) hostBase.partitions.dropLast ∧
      countedMib (fun _ => true) hostBase.partitions.dropLast ≤ 1024 := by
    rcases hhostBase with rfl | rfl <;> decide +kernel
  obtain ⟨hboot, hfixedEq⟩ := fixedMib_customHostPlan hbootSizes.1 (hhost htotal)
  have hbootLe : countedMib isBootRole hostBase.partitions.dropLast ≤ 1024 :=
    hbootSizes.1 ▸ hbootSizes.2
  refine plansAgree_of_receive hreceive (validate_customHostPlan hhostBase h hsmall) hdisk himage
    hgib ?_ ?_
  · rw [hboot, hfixedEq]
  · omega

/-- The desktop builds no plan, or one that the host receives and accepts and on whose capacity and
budget the two agree, as long as the sizes in bytes are below `2 ^ 53`. -/
theorem customPartitionPlan_agrees (toUpperCase : JsString → JsString) (rounding : Rounding)
    (template : CustomPartitionTemplate) (bootMode : BootMode) (plan : UiPartitionPlan)
    (diskSizeBytes imageSizeBytes : UInt64)
    (hplan : customPartitionPlan toUpperCase rounding template bootMode = some plan)
    (hdisk : diskSizeBytes.toNat < 2 ^ 53) (himage : imageSizeBytes.toNat < 2 ^ 53)
    (hsum : template.fixedGib * 2 ^ 30 < 2 ^ 53) :
    ∃ host, PlansAgree rounding template plan host diskSizeBytes imageSizeBytes := by
  rw [customPartitionPlan] at hplan
  split_ifs at hplan with hvalid
  have h := validTemplate_of_validate (Option.not_isSome_iff_eq_none.1 hvalid)
  obtain ⟨base, hbase, rfl⟩ := Option.map_eq_some_iff.1 hplan
  cases bootMode with
  | uefi =>
    cases hbase
    exact ⟨_, plansAgree_of_valid (.inl rfl) (by decide +kernel) rfl h hdisk himage hsum⟩
  | legacyBios =>
    cases hbase
    exact ⟨_, plansAgree_of_valid (.inr rfl) (by decide +kernel) rfl h hdisk himage hsum⟩
  | unknown => cases hbase

end Valid

/-! ### A template with two volumes -/

/-- The rounding of results that need none. -/
def exactRounding : Rounding where
  round := id
  exact := fun _ _ _ _ => rfl

/-- The upper case of ASCII letters. -/
def asciiUpperCase (s : JsString) : JsString :=
  s.map fun u => if 97 ≤ u ∧ u ≤ 122 then u - 32 else u

/-- A form with a Windows volume of 100 GiB and a data volume for the rest. -/
def twoVolumes : CustomPartitionTemplate where
  name := encodeUtf16 "lab"
  partitions :=
    [{ role := .windows, sizeGib := some (.ofInt 100), label := encodeUtf16 "Windows",
       driveLetter := none },
     { role := .data, sizeGib := none, label := encodeUtf16 " Data",
       driveLetter := some (encodeUtf16 "d") }]

/-- The template on a disk of 256 GB, for an image of 5 GB. -/
theorem customPartitionPlan_agrees_twoVolumes : ∃ host, PlansAgree exactRounding twoVolumes
    { uefiGptPlan with
      partitions := uefiGptPlan.partitions.dropLast ++
        twoVolumes.partitions.map (CustomPartition.toSpec asciiUpperCase exactRounding) }
    host 256000000000 5000000000 :=
  customPartitionPlan_agrees asciiUpperCase exactRounding twoVolumes .uefi _ _ _ (by decide +kernel)
    (by decide) (by decide) (by decide +kernel)

end EasyDeployMesh
