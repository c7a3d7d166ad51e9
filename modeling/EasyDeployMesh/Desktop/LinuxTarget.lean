import Mathlib.Data.List.Forall2
import EasyDeployMesh.Desktop.DeploymentMutation
import EasyDeployMesh.Service.InstallerDeployment.Sections

/-!
# The target of a Linux job, and its guard

The desktop resolves the target of a Linux job against the inventory that the Windows Agent has
reported; the guard of the installer looks for this target among the disks that Linux observes. Both
sides compare the model, the serial number and the size, each with code of its own.

## Main definitions

* `EasyDeployMesh.Presents`: an observation shows a disk of the inventory.
* `EasyDeployMesh.Disk.asTarget`, `EasyDeployMesh.PassesGuard`: the fingerprint of a disk, and the
  test of the guard against it.
* `EasyDeployMesh.TargetResolutionAgrees`: the two sides agree.

## Main results

* `EasyDeployMesh.resolveLinuxDeploymentTarget_eq_ok_iff`: when a target is resolved.
* `EasyDeployMesh.targetResolution_agrees`: the guard selects the observation of the chosen disk,
  and a disk that the guard could take for it makes the resolution fail.
-/

namespace EasyDeployMesh

open Foundations

/-- The observation shows the disk, up to white space and case in the model and the serial
number. -/
structure Presents (disk : Disk) (observed : LinuxInstallerObservedDisk) : Prop where
  model : Text.eqIgnoreAsciiCase (Text.trim observed.model) (Text.trim disk.model) = true
  serial : Option.Rel (fun actual serial =>
    Text.eqIgnoreAsciiCase (Text.trim actual) (Text.trim serial) = true) observed.serial disk.serial
  sizeBytes : observed.sizeBytes = disk.sizeBytes

/-- The disk that the operator chose. -/
def chosenDisk (requested : DeploymentTarget) (registered : RegisteredDevice) : Option Disk :=
  registered.device.disks.find? fun disk => Text.eqIgnoreAsciiCase disk.id requested.targetDiskId

/-- The fingerprint of a disk, as a target. -/
def Disk.asTarget (disk : Disk) (deviceId : Uuid) : DeploymentTarget where
  deviceId := deviceId
  targetDiskId := disk.id
  targetDiskModel := disk.model
  targetDiskSerial := disk.serial
  targetDiskSizeBytes := disk.sizeBytes

/-- The observation passes the test of the guard for the target. -/
def PassesGuard (target : DeploymentTarget) (observed : LinuxInstallerObservedDisk) : Prop :=
  ∃ serial, expectedSerial target = some serial ∧ matchesTarget target serial observed = true

/-- The desktop and the guard agree on the target of the request. -/
structure TargetResolutionAgrees (requested : DeploymentTarget) (registered : RegisteredDevice)
    (capability : CatalogInstallerCapability) : Prop where
  /-- When a target is resolved, the guard selects exactly the observation of the chosen disk,
  whatever the order and the paths of the observations. -/
  selects : ∀ target, resolveLinuxDeploymentTarget requested registered capability = .ok target →
    ∃ selected, chosenDisk requested registered = some selected ∧ ∀ shuffled observed,
      shuffled.Perm registered.device.disks → List.Forall₂ Presents shuffled observed →
      ∃ disk, uniquelyMatchingDisk target observed = .ok disk ∧
        ∀ other, (selected, other) ∈ shuffled.zip observed ↔ other = disk
  /-- When another disk of the inventory could pass the guard for the chosen one, no target is
  resolved. -/
  refuses : ∀ selected before behind other observed,
    chosenDisk requested registered = some selected →
    registered.device.disks = before ++ selected :: behind → other ∈ before ++ behind →
    Presents other observed → PassesGuard (selected.asTarget registered.device.id) observed →
    ∃ error, resolveLinuxDeploymentTarget requested registered capability = .error error

/-! ### The resolution -/

/-- The test of the desktop for the disks that have the fingerprint of the selected one. -/
def hasFingerprintOf (selected : Disk) (serial : String) (disk : Disk) : Bool :=
  Text.eqIgnoreAsciiCase (Text.trim disk.model) (Text.trim selected.model) &&
    absDiff disk.sizeBytes selected.sizeBytes ≤ 1024 * 1024 &&
    disk.serial.any fun actual => Text.eqIgnoreAsciiCase (Text.trim actual) serial

/-- The target that the desktop builds of the selected disk. -/
def resolvedTarget (deviceId : Uuid) (selected : Disk) (serial : String) : DeploymentTarget where
  deviceId := deviceId
  targetDiskId := selected.id
  targetDiskModel := Text.trim selected.model
  targetDiskSerial := some serial
  targetDiskSizeBytes := selected.sizeBytes

variable {requested target : DeploymentTarget} {registered : RegisteredDevice}
  {capability : CatalogInstallerCapability} {selected disk : Disk} {serial : String}
  {observed : LinuxInstallerObservedDisk} {deviceId : Uuid}

theorem resolveLinuxDeploymentTarget_eq_ok_iff :
    resolveLinuxDeploymentTarget requested registered capability = .ok target ↔
      (registered.online = true ∧
        (registered.device.architecture = .x86_64 ∧ registered.device.bootMode = .uefi) ∧
        capability.minimumMemoryBytes ≤ registered.device.memoryBytes) ∧
      ∃ selected, chosenDisk requested registered = some selected ∧
        ∃ serial, nonEmptyTrimmed selected.serial = some serial ∧
        registered.device.disks.countP (hasFingerprintOf selected serial) = 1 ∧
        capability.minimumDiskBytes ≤ selected.sizeBytes ∧
        resolvedTarget registered.device.id selected serial = target := by
  unfold resolveLinuxDeploymentTarget
  simp only [bind_eq_ok_iff, check_eq_ok_iff, elim_eq_ok_iff, Bool.not_eq_true', Bool.not_eq_false,
    not_or, ne_eq, not_not, UInt64.not_lt, Except.ok.injEq, and_assoc]
  exact Iff.rfl

/-! ### The two tests -/

/-- A disk has its own fingerprint. -/
theorem hasFingerprintOf_self (hserial : nonEmptyTrimmed selected.serial = some serial) :
    hasFingerprintOf selected serial selected = true := by
  obtain ⟨hmap, -⟩ := Option.filter_eq_some_iff.1 hserial
  obtain ⟨raw, hraw, rfl⟩ := Option.map_eq_some_iff.1 hmap
  have hsize : absDiff selected.sizeBytes selected.sizeBytes ≤ 1024 * 1024 := by
    rw [absDiff, if_pos (UInt64.le_refl _), UInt64.sub_self]
    decide
  rw [hasFingerprintOf, hraw, Option.any_some, decide_eq_true hsize]
  simp only [Text.eqIgnoreAsciiCase_iff, Bool.and_eq_true, and_self]

/-- The guard asks for the serial number that the desktop has found. -/
theorem expectedSerial_resolvedTarget (hserial : nonEmptyTrimmed selected.serial = some serial) :
    expectedSerial (resolvedTarget deviceId selected serial) = some serial := by
  obtain ⟨hmap, hnonempty⟩ := Option.filter_eq_some_iff.1 hserial
  obtain ⟨raw, -, rfl⟩ := Option.map_eq_some_iff.1 hmap
  simp only [expectedSerial, resolvedTarget, Option.map_some, Text.trim_trim]
  exact Option.filter_eq_some_iff.2 ⟨rfl, hnonempty⟩

/-- The test of the guard for the resolved target, on an observation of a disk, is the test of the
desktop on the disk. -/
theorem matchesTarget_resolvedTarget (hpresents : Presents disk observed) :
    matchesTarget (resolvedTarget deviceId selected serial) serial observed =
      hasFingerprintOf selected serial disk := by
  have hmodel := Text.eqIgnoreAsciiCase_iff.1 hpresents.model
  have hserial :
      (observed.serial.any fun actual => Text.eqIgnoreAsciiCase (Text.trim actual) serial) =
      disk.serial.any fun actual => Text.eqIgnoreAsciiCase (Text.trim actual) serial := by
    have hrel := hpresents.serial
    generalize observed.serial = actual at hrel ⊢
    generalize disk.serial = expected at hrel ⊢
    cases hrel with
    | none => rfl
    | some hsame =>
      rw [Option.any_some, Option.any_some, Bool.eq_iff_iff, Text.eqIgnoreAsciiCase_iff,
        Text.eqIgnoreAsciiCase_iff, Text.eqIgnoreAsciiCase_iff.1 hsame]
  have hmodels : Text.eqIgnoreAsciiCase (Text.trim observed.model) (Text.trim selected.model) =
      Text.eqIgnoreAsciiCase (Text.trim disk.model) (Text.trim selected.model) := by
    rw [Bool.eq_iff_iff, Text.eqIgnoreAsciiCase_iff, Text.eqIgnoreAsciiCase_iff, hmodel]
  simp only [matchesTarget, hasFingerprintOf, resolvedTarget, Text.trim_trim, hpresents.sizeBytes,
    diskSizeToleranceBytes, hserial, hmodels]

/-- The test of the guard against the raw fingerprint of a disk is the test for the resolved
target. -/
theorem passesGuard_asTarget_iff (hserial : nonEmptyTrimmed selected.serial = some serial) :
    PassesGuard (selected.asTarget deviceId) observed ↔
      matchesTarget (resolvedTarget deviceId selected serial) serial observed = true := by
  have hexpected : expectedSerial (selected.asTarget deviceId) = some serial := hserial
  simp only [PassesGuard, hexpected, Option.some.injEq, exists_eq_left']
  simp only [matchesTarget, Disk.asTarget, resolvedTarget, Text.trim_trim]
  exact Iff.rfl

/-! ### The agreement -/

/-- An element of the first list stands beside an element of the second one. -/
private theorem exists_mem_zip {α β : Type} {R : α → β → Prop} {as : List α} {bs : List β} {a : α}
    (h : List.Forall₂ R as bs) (ha : a ∈ as) : ∃ b, (a, b) ∈ as.zip bs := by
  induction h with
  | nil => cases ha
  | cons _ _ ih =>
    rcases List.mem_cons.1 ha with rfl | hrest
    · exact ⟨_, List.mem_cons_self⟩
    · obtain ⟨b, hb⟩ := ih hrest
      exact ⟨b, List.mem_cons_of_mem _ hb⟩

/-- A disk whose fingerprint is unique is the only one with this fingerprint in every order. -/
private theorem filter_hasFingerprintOf (hserial : nonEmptyTrimmed selected.serial = some serial)
    {disks shuffled : List Disk} (hmem : selected ∈ disks)
    (hunique : disks.countP (hasFingerprintOf selected serial) = 1) (hperm : shuffled.Perm disks) :
    shuffled.filter (hasFingerprintOf selected serial) = [selected] := by
  rw [List.countP_eq_length_filter, List.length_eq_one_iff] at hunique
  obtain ⟨only, honly⟩ := hunique
  have hself : selected ∈ disks.filter (hasFingerprintOf selected serial) :=
    List.mem_filter.2 ⟨hmem, hasFingerprintOf_self hserial⟩
  rw [honly, List.mem_singleton] at hself
  have hfilter := hperm.filter (hasFingerprintOf selected serial)
  rwa [honly, ← hself, List.perm_singleton] at hfilter

/-- The guard selects the observation of the disk with a unique fingerprint. -/
private theorem exists_uniquelyMatchingDisk
    (hserial : nonEmptyTrimmed selected.serial = some serial) {shuffled : List Disk}
    {disks : List LinuxInstallerObservedDisk}
    (hfilter : shuffled.filter (hasFingerprintOf selected serial) = [selected])
    (hpresents : List.Forall₂ Presents shuffled disks) :
    ∃ disk, uniquelyMatchingDisk (resolvedTarget deviceId selected serial) disks = .ok disk ∧
      ∀ other, (selected, other) ∈ shuffled.zip disks ↔ other = disk := by
  have htests : ∀ ⦃disk observed⦄, Presents disk observed →
      (hasFingerprintOf selected serial disk = true ↔
        matchesTarget (resolvedTarget deviceId selected serial) serial observed = true) :=
    fun _ _ h => by rw [matchesTarget_resolvedTarget h]
  have hmatches : List.Forall₂ Presents (shuffled.filter (hasFingerprintOf selected serial))
      (disks.filter (matchesTarget (resolvedTarget deviceId selected serial) serial)) :=
    List.rel_filter htests hpresents
  rw [hfilter] at hmatches
  obtain ⟨disk, rest, -, hnil, hdisks⟩ := List.forall₂_cons_left_iff.1 hmatches
  rw [List.forall₂_nil_left_iff.1 hnil] at hdisks
  refine ⟨disk, uniquelyMatchingDisk_eq_ok_iff.2 ⟨serial, expectedSerial_resolvedTarget hserial,
    hdisks⟩, ?_⟩
  -- every observation of the selected disk passes the test, and only one does
  have hforward : ∀ other, (selected, other) ∈ shuffled.zip disks → other = disk := by
    intro other hother
    have hshows := (List.forall₂_iff_zip.1 hpresents).2 hother
    have hpasses : other ∈ disks.filter
        (matchesTarget (resolvedTarget deviceId selected serial) serial) := by
      refine List.mem_filter.2 ⟨(List.of_mem_zip hother).2, ?_⟩
      rw [matchesTarget_resolvedTarget hshows, hasFingerprintOf_self hserial]
    rwa [hdisks, List.mem_singleton] at hpasses
  refine fun other => ⟨hforward other, ?_⟩
  rintro rfl
  have hmem : selected ∈ shuffled.filter (hasFingerprintOf selected serial) := by
    rw [hfilter]
    exact List.mem_singleton_self selected
  obtain ⟨found, hfound⟩ := exists_mem_zip hpresents (List.mem_filter.1 hmem).1
  rwa [hforward found hfound] at hfound

/-- Two disks with the fingerprint of the selected one are counted twice. -/
private theorem two_le_countP {α : Type} {p : α → Bool} {a b : α} {before behind : List α}
    (ha : p a = true) (hb : p b = true) (hmem : b ∈ before ++ behind) :
    2 ≤ (before ++ a :: behind).countP p := by
  have hpos : 0 < (before ++ behind).countP p := List.countP_pos_iff.2 ⟨b, hmem, hb⟩
  rw [List.countP_append] at hpos
  rw [List.countP_append, List.countP_cons_of_pos ha]
  omega

/-- The desktop and the guard agree for every inventory and every request. -/
theorem targetResolution_agrees (requested : DeploymentTarget) (registered : RegisteredDevice)
    (capability : CatalogInstallerCapability) :
    TargetResolutionAgrees requested registered capability where
  selects target hok := by
    obtain ⟨-, selected, hchosen, serial, hserial, hunique, -, rfl⟩ :=
      resolveLinuxDeploymentTarget_eq_ok_iff.1 hok
    have hmem : selected ∈ registered.device.disks := List.mem_of_find?_eq_some hchosen
    refine ⟨selected, hchosen, fun shuffled observed hperm hpresents => ?_⟩
    have hfilter := filter_hasFingerprintOf hserial hmem hunique hperm
    exact exists_uniquelyMatchingDisk hserial hfilter hpresents
  refuses selected before behind other observed hchosen hdisks hother hpresents hpasses := by
    cases hresult : resolveLinuxDeploymentTarget requested registered capability with
    | error error => exact ⟨error, rfl⟩
    | ok target =>
      obtain ⟨-, found, hfound, serial, hserial, hunique, -⟩ :=
        resolveLinuxDeploymentTarget_eq_ok_iff.1 hresult
      obtain rfl := Option.some.inj (hchosen.symm.trans hfound)
      rw [passesGuard_asTarget_iff hserial, matchesTarget_resolvedTarget hpresents] at hpasses
      have htwo := two_le_countP (hasFingerprintOf_self hserial) hpasses hother
      rw [← hdisks, hunique] at htwo
      omega

/-! ### Two disks of one model -/

/-- The disk that Windows has been started from. -/
def systemDisk : Disk where
  id := "\\\\.\\PHYSICALDRIVE0"
  model := "Samsung SSD 980"
  serial := some "S64D-1"
  sizeBytes := 500107862016
  isSystem := true

/-- A disk of the same model that is 1 MiB larger. -/
def spareDisk (serial : String) : Disk where
  id := "\\\\.\\PHYSICALDRIVE1"
  model := " SAMSUNG SSD 980"
  serial := some serial
  sizeBytes := 500108910592
  isSystem := false

/-- A machine with both disks. -/
def twoDiskMachine (serial : String) : RegisteredDevice where
  device := { labRecord.device with disks := [systemDisk, spareDisk serial] }
  agentVersion := "0.1.0"
  firstSeenAt := 0
  online := true

/-- The operator asks for the other disk. -/
def spareRequest : DeploymentTarget where
  deviceId := 8
  targetDiskId := "\\\\.\\PhysicalDrive1"
  targetDiskModel := "Samsung SSD 980"
  targetDiskSerial := none
  targetDiskSizeBytes := 0

/-- What the image library records for the image of the laboratory. -/
def ubuntuInstaller : CatalogInstallerCapability where
  toInstallerCapability := labImage.capability
  deployable := true
  distribution := .ubuntu
  release := "24.04"
  profile := .ubuntuAutoinstall
  profileVersion := 1
  kernel := { path := "casper/vmlinuz", sizeBytes := 14000000, sha256 := "" }
  initrd := { path := "casper/initrd", sizeBytes := 70000000, sha256 := "" }
  blockedReason := none

/-- What Linux observes of the other disk. -/
def spareObservation : LinuxInstallerObservedDisk where
  path := "/dev/nvme1n1"
  model := "samsung ssd 980 "
  serial := some "s64d-2"
  sizeBytes := 500108910592

/-- What Linux observes of the disk of the system. -/
def systemObservation : LinuxInstallerObservedDisk where
  path := "/dev/nvme0n1"
  model := "Samsung SSD 980"
  serial := some " S64D-1"
  sizeBytes := 500107862016

/-- The guard selects the chosen disk, which Linux observes first. When it has the serial number of
the other one, up to case, no target is resolved. -/
theorem targetResolution_agrees_twoDisks :
    (∃ target, resolveLinuxDeploymentTarget spareRequest (twoDiskMachine "S64D-2")
        ubuntuInstaller = .ok target ∧
      uniquelyMatchingDisk target [spareObservation, systemObservation] = .ok spareObservation) ∧
    ∃ error, resolveLinuxDeploymentTarget spareRequest (twoDiskMachine "s64d-1") ubuntuInstaller =
      .error error := by
  constructor
  · obtain ⟨target, htarget⟩ := exists_ok_of_isSome_toOption (show
      (resolveLinuxDeploymentTarget spareRequest (twoDiskMachine "S64D-2")
        ubuntuInstaller).toOption.isSome = true by decide +kernel)
    obtain ⟨selected, hchosen, hguard⟩ := (targetResolution_agrees _ _ _).selects target htarget
    have hspare :
        chosenDisk spareRequest (twoDiskMachine "S64D-2") = some (spareDisk "S64D-2") := by
      decide +kernel
    obtain rfl := Option.some.inj (hspare.symm.trans hchosen)
    have hpresents : List.Forall₂ Presents [spareDisk "S64D-2", systemDisk]
        [spareObservation, systemObservation] :=
      .cons ⟨by decide +kernel, .some (by decide +kernel), rfl⟩
        (.cons ⟨by decide +kernel, .some (by decide +kernel), rfl⟩ .nil)
    obtain ⟨disk, hdisk, hsame⟩ := hguard _ _ (List.Perm.swap _ _ _) hpresents
    obtain rfl := (hsame spareObservation).1 List.mem_cons_self
    exact ⟨target, htarget, hdisk⟩
  · have hchosen :
        chosenDisk spareRequest (twoDiskMachine "s64d-1") = some (spareDisk "s64d-1") := by
      decide +kernel
    exact (targetResolution_agrees spareRequest (twoDiskMachine "s64d-1") ubuntuInstaller).refuses
      _ [systemDisk] [] systemDisk systemObservation hchosen rfl List.mem_cons_self
      ⟨by decide +kernel, .some (by decide +kernel), rfl⟩ ⟨"s64d-1", by decide +kernel⟩

end EasyDeployMesh
