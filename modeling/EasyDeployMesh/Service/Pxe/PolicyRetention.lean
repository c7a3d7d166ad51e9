import EasyDeployMesh.Foundations.Run
import EasyDeployMesh.Service.Pxe.BootPackage

/-!
# The boot policy of a package over its refreshes

Media import chooses a WinPE script and a BCD policy from what it finds in the media, and leaves
markers behind; a refresh reads the markers. Import writes at most one of the two media markers, so
media with both an Edgeless payload and a USM boot manager lose the USM policy at the first refresh.
All other media keep both choices over any sequence of calls.

## Main definitions

* `EasyDeployMesh.PackageCall`, `EasyDeployMesh.PackageTree.step`: the calls on a package.
* `EasyDeployMesh.chainedScript`, `EasyDeployMesh.managedBcdPolicy`: what a package boots with.
* `EasyDeployMesh.ManagedPackage`: what import establishes and every call keeps.
* `EasyDeployMesh.PolicyRetained`: the choices of the import still hold.

## Main results

* `EasyDeployMesh.managedPackage_buildWinpePackage`: import establishes the invariant.
* `EasyDeployMesh.policyRetained_iff`: when the choices of the import hold after some calls.
* `EasyDeployMesh.policyRetained_fails_of_edgelessUsm`: media that lose their policy.
-/

namespace EasyDeployMesh

open Foundations PackageTree

/-! ### Calls and what a package boots with -/

/-- The calls that refresh an imported package. -/
inductive PackageCall
  | ensureManagedNetworkBoot
  | configureControlDispatcher (controlEndpoint : String)
  deriving DecidableEq

/-- A call that succeeds. -/
def PackageTree.step (tools : BootTools) (tree : PackageTree) : PackageCall → Option PackageTree
  | .ensureManagedNetworkBoot => (ensureManagedNetworkBoot tools tree).toOption.map Prod.snd
  | .configureControlDispatcher endpoint =>
    (configureControlDispatcher tools tree endpoint).toOption.map Prod.snd

/-- The script that a machine without a Linux assignment runs in the end. -/
def chainedScript (tree : PackageTree) : Option (List UInt8) :=
  if hasControlDispatcher tree then tree.read windowsFallbackIpxePath else tree.read "boot.ipxe"

/-- The policy that the managed BCD is generated with. -/
def managedBcdPolicy (tree : PackageTree) : Option WinpeBcdPolicy :=
  match tree.lookup "boot/easydeploymesh.bcd" with
  | some (.bcd _ policy) => some policy
  | _ => none

/-- After the calls `es` on the imported `package`, the choices of the import hold in `tree`, and a
dispatcher that was installed before is still installed. -/
structure PolicyRetained (tools : BootTools) (selection : MediaSelection) (package : PackageTree)
    (es : List PackageCall) (tree : PackageTree) : Prop where
  script : chainedScript tree = some (stringBytes selection.script)
  policy : managedBcdPolicy tree = some selection.bcdPolicy
  dispatcher : ∀ pre post m, es = pre ++ post → Leads (PackageTree.step tools) package pre m →
    hasControlDispatcher m = true → hasControlDispatcher tree = true

/-! ### The invariant of an imported package -/

/-- What import establishes and every call keeps. -/
structure ManagedPackage (selection : MediaSelection) (tree : PackageTree) : Prop where
  legacyNative : tree.isFile legacyNativeIsoLayoutMarker = false
  native : tree.isFile nativeIsoLayoutMarker = false
  v5 : tree.isFile v5ManagedLayoutMarker = false
  edgeless : tree.isFile edgelessManagedLayoutMarker = selection.edgelessPayload.isSome
  usm : tree.isFile usmManagedLayoutMarker =
    (selection.edgelessPayload.isNone && selection.usmBootmgr.isSome)
  files : ["boot/boot.sdi", "boot/boot.wim", "boot/bootmgr", "boot/wimboot"].all
    (fun path => tree.isFile path) = true
  scripts : (tree.isFile dynamicBootLayoutMarker = false ∧
      tree.read "boot.ipxe" = some (stringBytes selection.script)) ∨
    (tree.isFile dynamicBootLayoutMarker = true ∧
      tree.read windowsFallbackIpxePath = some (stringBytes selection.script) ∧
      (tree.read "boot.ipxe").any isDispatcher = true)

section

variable {tools : BootTools} {selection : MediaSelection} {tree tree' package : PackageTree}
  {files : List MediaFile} {agent : Option AgentDigests} {b : Bool}

theorem isManagedWinpeIpxeScript_script (selection : MediaSelection) :
    isManagedWinpeIpxeScript (stringBytes selection.script) = true := by
  unfold MediaSelection.script isManagedWinpeIpxeScript
  split_ifs <;> simp

theorem isDispatcher_dispatcherScript (endpoint : String) :
    isDispatcher (stringBytes (dispatcherScript endpoint)) = true := by
  simp only [isDispatcher, dispatcherScript, String.append_assoc, stringBytes_append,
    List.isPrefixOf_iff_prefix]
  exact List.prefix_append _ _

/-- Injecting the Agent touches the image and its two digests only. -/
theorem lookup_injectRuntime {payload : Option (List MediaFile)} {wim : List UInt8}
    (h : injectRuntime tools agent payload wim tree = .ok tree') {path : String}
    (hpath : path ∉ ["boot/boot.wim", "boot/easydeploymesh-agent.sha256",
      "boot/easydeploymesh-runtime.sha256"]) : tree'.lookup path = tree.lookup path := by
  cases agent with
  | none =>
    obtain rfl := Except.ok.inj h
    rfl
  | some digests =>
    obtain ⟨wim', -, rfl⟩ := (map_eq_ok_iff).1 h
    simp only [List.mem_cons, List.not_mem_nil, or_false, not_or] at hpath
    simp [lookup_write, hpath]

theorem isFile_wim_injectRuntime {payload : Option (List MediaFile)} {wim : List UInt8}
    (h : injectRuntime tools agent payload wim tree = .ok tree')
    (hwim : tree.isFile "boot/boot.wim" = true) : tree'.isFile "boot/boot.wim" = true := by
  cases agent with
  | none => exact Except.ok.inj h ▸ hwim
  | some digests =>
    obtain ⟨wim', -, rfl⟩ := (map_eq_ok_iff).1 h
    simp [isFile, lookup_write]

/-- Import leaves a package with the script, the policy and the markers of the media. -/
theorem managedPackage_buildWinpePackage
    (hbuild : buildWinpePackage tools files agent none = .ok tree)
    (hselect : selectMedia tools.detectLoaderPath files = .ok selection) :
    ManagedPackage selection tree ∧ managedBcdPolicy tree = some selection.bcdPolicy ∧
      hasControlDispatcher tree = false := by
  simp only [buildWinpePackage, hselect, bind_eq_ok_iff, Except.ok.injEq, exists_eq_left'] at hbuild
  obtain ⟨-, -, staging, hinject, rfl⟩ := hbuild
  have hlookup : ∀ path, path ∉ ["boot/boot.wim", "boot/easydeploymesh-agent.sha256",
      "boot/easydeploymesh-runtime.sha256"] → _ := fun path => lookup_injectRuntime hinject
  have hwim : (staging.lookup "boot/boot.wim").isSome = true :=
    isFile_wim_injectRuntime hinject (by simp [isFile, lookup_write])
  -- the two markers are written in the same two branches as the scripts that they stand for
  cases hedgeless : selection.edgelessPayload <;> cases husm : selection.usmBootmgr <;>
  · refine ⟨⟨?_, ?_, ?_, ?_, ?_, ?_, .inl ⟨?_, ?_⟩⟩, ?_, ?_⟩
    all_goals
      simp [populateScripts, isFile, PackageTree.read, lookup_write, hlookup, hwim, hedgeless, husm,
        managedBcdPolicy, hasControlDispatcher, PackageFile.text,
        legacyNativeIsoLayoutMarker, nativeIsoLayoutMarker, managedLayoutMarker,
        v5ManagedLayoutMarker, edgelessManagedLayoutMarker, usmManagedLayoutMarker,
        dynamicBootLayoutMarker]

/-- Import without an Agent succeeds as soon as the boot configuration can be generated. -/
theorem exists_buildWinpePackage
    (hselect : selectMedia tools.detectLoaderPath files = .ok selection)
    (hbcd : tools.writeCleanBcd selection.loaderPath selection.bcdPolicy = .ok ()) :
    ∃ package, buildWinpePackage tools files none none = .ok package ∧
      package.read "boot/boot.wim" = some selection.wim.contents := by
  simp only [buildWinpePackage, hselect, bind_eq_ok_iff, Except.ok.injEq, exists_eq_left', hbcd,
    injectRuntime]
  refine ⟨_, ⟨(), trivial, rfl⟩, ?_⟩
  unfold populateScripts
  split_ifs <;>
  simp [PackageTree.read, lookup_write, managedLayoutMarker, edgelessManagedLayoutMarker,
    usmManagedLayoutMarker]

/-! ### The files that a refresh touches -/

/-- The files that a refresh writes or removes, apart from the script. -/
private def refreshedPaths : List String :=
  ["boot/easydeploymesh.bcd", "undionly.kpxe", "ipxe.efi", "boot/wimboot", managedLayoutMarker,
    legacyManagedLayoutMarker, v3ManagedLayoutMarker, v4ManagedLayoutMarker, v5ManagedLayoutMarker]

section Refresh

variable {loaderPath : String} {dispatcherActive : Bool} {path : String}

theorem lookup_refreshManaged_of_notMem (hpath : path ∉ refreshedPaths)
    (hscript : path ≠ if dispatcherActive then windowsFallbackIpxePath else "boot.ipxe") :
    (refreshManaged tools tree loaderPath dispatcherActive).lookup path = tree.lookup path := by
  simp only [refreshedPaths, List.mem_cons, List.not_mem_nil, or_false, not_or] at hpath
  simp only [refreshManaged, lookup_write, lookup_remove, hpath, hscript, if_false]

/-- The markers alone decide the script. -/
theorem markedScript_congr
    (hedgeless : tree'.isFile edgelessManagedLayoutMarker = tree.isFile edgelessManagedLayoutMarker)
    (husm : tree'.isFile usmManagedLayoutMarker = tree.isFile usmManagedLayoutMarker) :
    markedScript tree' = markedScript tree := by
  simp only [markedScript, hedgeless, husm]

theorem read_refreshManaged_scriptPath :
    (refreshManaged tools tree loaderPath dispatcherActive).read
      (if dispatcherActive then windowsFallbackIpxePath else "boot.ipxe") =
        some (stringBytes (markedScript tree)) := by
  cases dispatcherActive <;>
  · simp [refreshManaged, PackageTree.read, lookup_write, lookup_remove, legacyManagedLayoutMarker,
      v3ManagedLayoutMarker, v4ManagedLayoutMarker, v5ManagedLayoutMarker, managedLayoutMarker,
      windowsFallbackIpxePath, PackageFile.text]
    refine congrArg stringBytes (markedScript_congr ?_ ?_) <;>
    simp [isFile_write, edgelessManagedLayoutMarker, usmManagedLayoutMarker]

theorem managedBcdPolicy_refreshManaged :
    managedBcdPolicy (refreshManaged tools tree loaderPath dispatcherActive) =
      some (markedPolicy tree) := by
  cases dispatcherActive <;>
  simp [managedBcdPolicy, refreshManaged, lookup_write, lookup_remove, legacyManagedLayoutMarker,
    v3ManagedLayoutMarker, v4ManagedLayoutMarker, v5ManagedLayoutMarker, managedLayoutMarker,
    windowsFallbackIpxePath]

end Refresh

/-! ### The invariant and the calls -/

namespace ManagedPackage

theorem hasControlDispatcher_eq (h : ManagedPackage selection tree) :
    hasControlDispatcher tree = tree.isFile dynamicBootLayoutMarker := by
  rcases h.scripts with ⟨hmarker, -⟩ | ⟨hmarker, hfallback, hboot⟩
  · simp [hasControlDispatcher, hmarker]
  · have hisFile : tree.isFile windowsFallbackIpxePath = true := by
      unfold PackageTree.read at hfallback
      cases hlookup : tree.lookup windowsFallbackIpxePath <;> simp_all [isFile]
    simp [hasControlDispatcher, hmarker, hisFile, hboot]

theorem chainedScript_eq (h : ManagedPackage selection tree) :
    chainedScript tree = some (stringBytes selection.script) := by
  unfold chainedScript
  rw [h.hasControlDispatcher_eq]
  rcases h.scripts with ⟨hmarker, hboot⟩ | ⟨hmarker, hfallback, -⟩
  · simp [hmarker, hboot]
  · simp [hmarker, hfallback]

theorem markedScript_eq (h : ManagedPackage selection tree) :
    markedScript tree = selection.script := by
  unfold markedScript MediaSelection.script
  rw [h.edgeless, h.usm]
  cases selection.edgelessPayload <;> rfl

/-- The markers stand for the policy of the import, unless the media have an Edgeless payload and a
USM boot manager. -/
theorem markedPolicy_eq_iff (h : ManagedPackage selection tree) :
    markedPolicy tree = selection.bcdPolicy ↔
      ¬(selection.edgelessPayload.isSome = true ∧ selection.usmBootmgr.isSome = true) := by
  unfold markedPolicy MediaSelection.bcdPolicy
  rw [h.usm]
  cases selection.edgelessPayload <;> cases selection.usmBootmgr <;> simp

/-- A refresh of an imported package always generates its boot configuration. -/
theorem ensureManagedNetworkBoot_eq (h : ManagedPackage selection tree) :
    ensureManagedNetworkBoot tools tree = (do
      let loaderPath ← tools.detectLoaderPath ((tree.read "boot/boot.wim").getD [])
      tools.writeCleanBcd loaderPath (markedPolicy tree)
      .ok (true, refreshManaged tools tree loaderPath (hasControlDispatcher tree))) := by
  have hscript : (if hasControlDispatcher tree then tree.read windowsFallbackIpxePath
      else tree.read "boot.ipxe") = some (stringBytes selection.script) := h.chainedScript_eq
  simp only [ensureManagedNetworkBoot, h.legacyNative, h.native, h.v5, hscript, h.files,
    Option.any_some, isManagedWinpeIpxeScript_script, Bool.false_eq_true, false_and, if_false,
    Bool.not_true, Bool.or_self]

theorem eq_refreshManaged (h : ManagedPackage selection tree)
    (hcall : ensureManagedNetworkBoot tools tree = .ok (b, tree')) :
    ∃ loaderPath, tree' = refreshManaged tools tree loaderPath (hasControlDispatcher tree) := by
  rw [h.ensureManagedNetworkBoot_eq] at hcall
  simp only [bind_eq_ok_iff, Except.ok.injEq, Prod.mk.injEq] at hcall
  obtain ⟨loaderPath, -, -, -, -, rfl⟩ := hcall
  exact ⟨loaderPath, rfl⟩

/-- A refresh rewrites the script where the dispatcher leaves it. -/
theorem of_refreshManaged {loaderPath : String} (h : ManagedPackage selection tree) :
    ManagedPackage selection
      (refreshManaged tools tree loaderPath (hasControlDispatcher tree)) := by
  have hscript : (refreshManaged tools tree loaderPath (hasControlDispatcher tree)).read
      (if hasControlDispatcher tree then windowsFallbackIpxePath else "boot.ipxe") =
        some (stringBytes (markedScript tree)) := read_refreshManaged_scriptPath
  have hkept : ∀ path, path ∉ refreshedPaths →
      (path ≠ if hasControlDispatcher tree then windowsFallbackIpxePath else "boot.ipxe") →
        (refreshManaged tools tree loaderPath (hasControlDispatcher tree)).lookup path =
          tree.lookup path :=
    fun path => lookup_refreshManaged_of_notMem
  rw [h.markedScript_eq] at hscript
  rw [h.hasControlDispatcher_eq] at hscript hkept ⊢
  have hisFile : ∀ path, path ∉ windowsFallbackIpxePath :: "boot.ipxe" :: refreshedPaths →
      (refreshManaged tools tree loaderPath (tree.isFile dynamicBootLayoutMarker)).isFile path =
        tree.isFile path := by
    intro path hpath
    simp only [List.mem_cons, not_or] at hpath
    exact congrArg Option.isSome (hkept path hpath.2.2 (by split_ifs <;> simp [hpath]))
  have hfiles := h.files
  simp only [List.all_cons, List.all_nil, Bool.and_true, Bool.and_eq_true] at hfiles
  obtain ⟨hsdi, hwim, hbootmgr, -⟩ := hfiles
  refine ⟨?_, ?_, ?_, ?_, ?_, ?_, ?_⟩
  · rw [hisFile _ (by decide), h.legacyNative]
  · rw [hisFile _ (by decide), h.native]
  · simp [refreshManaged, isFile_remove]
  · rw [hisFile _ (by decide), h.edgeless]
  · rw [hisFile _ (by decide), h.usm]
  · have hwimboot : (refreshManaged tools tree loaderPath
        (tree.isFile dynamicBootLayoutMarker)).isFile "boot/wimboot" = true := by
      simp [refreshManaged, isFile_write, isFile_remove, legacyManagedLayoutMarker,
        v3ManagedLayoutMarker, v4ManagedLayoutMarker, v5ManagedLayoutMarker]
    simp only [List.all_cons, List.all_nil, hisFile "boot/boot.sdi" (by decide),
      hisFile "boot/boot.wim" (by decide), hisFile "boot/bootmgr" (by decide), hsdi, hwim, hbootmgr,
      hwimboot, Bool.and_self]
  · rw [hisFile _ (by decide)]
    rcases h.scripts with ⟨hmarker, -⟩ | ⟨hmarker, -, hboot⟩
    · rw [hmarker] at hscript ⊢
      exact .inl ⟨rfl, hscript⟩
    · rw [hmarker] at hscript hkept ⊢
      refine .inr ⟨rfl, hscript, ?_⟩
      simpa only [PackageTree.read, hkept "boot.ipxe" (by decide) (by decide)] using hboot

/-- A package stays imported when the dispatcher is installed or moved to another endpoint. -/
theorem of_configureControlDispatcher {endpoint : String} (h : ManagedPackage selection tree)
    (hcall : configureControlDispatcher tools tree endpoint = .ok (b, tree')) :
    ManagedPackage selection tree' ∧ managedBcdPolicy tree' = managedBcdPolicy tree ∧
      hasControlDispatcher tree' = true := by
  have hfallback : (if (tree.read "boot.ipxe").any isDispatcher &&
      tree.isFile dynamicBootLayoutMarker then tree.read windowsFallbackIpxePath
      else tree.read "boot.ipxe") = some (stringBytes selection.script) := by
    rcases h.scripts with ⟨hmarker, hboot⟩ | ⟨hmarker, hfallback, hboot⟩
    · simp [hmarker, hboot]
    · simp [hmarker, hfallback, hboot]
  simp only [configureControlDispatcher, h.native, hfallback, isManagedWinpeIpxeScript_script,
    Bool.false_eq_true, if_false, Bool.not_true] at hcall
  cases haddress : (Text.stripPrefix "http://" endpoint).bind tools.normalizeSocketAddr with
  | none => simp [haddress] at hcall
  | some address =>
    simp only [haddress, Except.ok.injEq, Prod.mk.injEq] at hcall
    obtain ⟨-, rfl⟩ := hcall
    have hmanaged : ManagedPackage selection (((tree.write windowsFallbackIpxePath
        (.bytes (stringBytes selection.script))).write "boot.ipxe"
          (.text (dispatcherScript ("http://" ++ address)))).write dynamicBootLayoutMarker
            (.text "1\n")) := by
      have hisFile : ∀ path,
          path ∉ [windowsFallbackIpxePath, "boot.ipxe", dynamicBootLayoutMarker] →
          (((tree.write windowsFallbackIpxePath (.bytes (stringBytes selection.script))).write
            "boot.ipxe" (.text (dispatcherScript ("http://" ++ address)))).write
              dynamicBootLayoutMarker (.text "1\n")).isFile path = tree.isFile path := by
        intro path hpath
        simp only [List.mem_cons, List.not_mem_nil, or_false, not_or] at hpath
        simp only [isFile_write, hpath, if_false]
      refine ⟨?_, ?_, ?_, ?_, ?_, ?_, .inr ⟨?_, ?_, ?_⟩⟩
      · rw [hisFile _ (by decide), h.legacyNative]
      · rw [hisFile _ (by decide), h.native]
      · rw [hisFile _ (by decide), h.v5]
      · rw [hisFile _ (by decide), h.edgeless]
      · rw [hisFile _ (by decide), h.usm]
      · have hfiles := h.files
        simp only [List.all_cons, List.all_nil] at hfiles ⊢
        rwa [hisFile _ (by decide), hisFile _ (by decide), hisFile _ (by decide),
          hisFile _ (by decide)]
      · simp [isFile_write]
      · simp [PackageTree.read, lookup_write, windowsFallbackIpxePath, dynamicBootLayoutMarker]
      · simp [PackageTree.read, lookup_write, dynamicBootLayoutMarker, PackageFile.text,
          isDispatcher_dispatcherScript]
    refine ⟨hmanaged, ?_, ?_⟩
    · simp [managedBcdPolicy, lookup_write, windowsFallbackIpxePath, dynamicBootLayoutMarker]
    · rw [hmanaged.hasControlDispatcher_eq]
      simp [isFile_write]

/-- What a successful call keeps, and what the last refresh decides. -/
theorem of_step {e : PackageCall} (h : ManagedPackage selection tree)
    (hstep : tree.step tools e = some tree') :
    ManagedPackage selection tree' ∧
      managedBcdPolicy tree' =
        (if e = .ensureManagedNetworkBoot then some (markedPolicy tree)
          else managedBcdPolicy tree) ∧
      (hasControlDispatcher tree = true → hasControlDispatcher tree' = true) := by
  cases e with
  | ensureManagedNetworkBoot =>
    simp only [PackageTree.step, Option.map_eq_some_iff, toOption_eq_some_iff] at hstep
    obtain ⟨⟨b, t⟩, hcall, rfl⟩ := hstep
    obtain ⟨loaderPath, rfl⟩ := h.eq_refreshManaged hcall
    have hmanaged : ManagedPackage selection
        (refreshManaged tools tree loaderPath (hasControlDispatcher tree)) := h.of_refreshManaged
    refine ⟨hmanaged, by simp [managedBcdPolicy_refreshManaged], fun hdispatcher => ?_⟩
    have hmarker : tree.isFile dynamicBootLayoutMarker = true := by
      rwa [h.hasControlDispatcher_eq] at hdispatcher
    rw [hmanaged.hasControlDispatcher_eq]
    simp only [isFile] at hmarker ⊢
    rw [lookup_refreshManaged_of_notMem (by decide) (by rw [if_pos hdispatcher]; decide), hmarker]
  | configureControlDispatcher endpoint =>
    simp only [PackageTree.step, Option.map_eq_some_iff, toOption_eq_some_iff] at hstep
    obtain ⟨⟨b, t⟩, hcall, rfl⟩ := hstep
    obtain ⟨hmanaged, hpolicy, hdispatcher⟩ := h.of_configureControlDispatcher hcall
    exact ⟨hmanaged, by simpa using hpolicy, fun _ => hdispatcher⟩

end ManagedPackage

/-! ### Runs -/

section Runs

variable {es : List PackageCall}

theorem ManagedPackage.of_leads (h : ManagedPackage selection package)
    (hleads : Leads (PackageTree.step tools) package es tree) : ManagedPackage selection tree :=
  hleads.invariant h fun _ _ _ hm hstep => (hm.of_step hstep).1

/-- An installed dispatcher stays installed. -/
theorem ManagedPackage.hasControlDispatcher_of_leads (h : ManagedPackage selection package)
    (hleads : Leads (PackageTree.step tools) package es tree)
    (hdispatcher : hasControlDispatcher package = true) : hasControlDispatcher tree = true :=
  (hleads.invariant (I := fun tree => ManagedPackage selection tree ∧
    hasControlDispatcher tree = true) ⟨h, hdispatcher⟩
      fun _ _ _ hm hstep => ⟨(hm.1.of_step hstep).1, (hm.1.of_step hstep).2.2 hm.2⟩).2

/-- The policy of the import holds until the first refresh, and the markers decide from then on. -/
theorem ManagedPackage.managedBcdPolicy_of_leads (h : ManagedPackage selection package)
    (hleads : Leads (PackageTree.step tools) package es tree) :
    managedBcdPolicy tree =
      if .ensureManagedNetworkBoot ∈ es then some (markedPolicy package)
      else managedBcdPolicy package := by
  induction es using List.reverseRecOn generalizing tree with
  | nil => simp [leads_nil.1 hleads]
  | append_singleton es e ih =>
    obtain ⟨m, hm, hstep⟩ := leads_concat.1 hleads
    have hmarked : markedPolicy m = markedPolicy package := by
      simp only [markedPolicy, (h.of_leads hm).usm, h.usm]
    rw [((h.of_leads hm).of_step hstep).2.1, ih hm, hmarked]
    cases e <;> simp

/-- After any calls that succeed, the imported package still boots with the script, the policy and
the dispatcher that it had, exactly when its media do not have both an Edgeless payload and a USM
boot manager, or no refresh was made. -/
theorem policyRetained_iff (hselect : selectMedia tools.detectLoaderPath files = .ok selection)
    (hbuild : buildWinpePackage tools files agent none = .ok package)
    (hleads : Leads (PackageTree.step tools) package es tree) :
    PolicyRetained tools selection package es tree ↔
      ¬(selection.edgelessPayload.isSome = true ∧ selection.usmBootmgr.isSome = true) ∨
        .ensureManagedNetworkBoot ∉ es := by
  obtain ⟨hmanaged, hpolicy, -⟩ := managedPackage_buildWinpePackage hbuild hselect
  have htree := hmanaged.of_leads hleads
  have hpolicyTree : managedBcdPolicy tree = some selection.bcdPolicy ↔
      ¬(selection.edgelessPayload.isSome = true ∧ selection.usmBootmgr.isSome = true) ∨
        .ensureManagedNetworkBoot ∉ es := by
    rw [hmanaged.managedBcdPolicy_of_leads hleads, hpolicy, ← hmanaged.markedPolicy_eq_iff]
    split_ifs with hmem <;> simp [hmem]
  refine ⟨fun h => hpolicyTree.1 h.policy, fun h => ⟨htree.chainedScript_eq, hpolicyTree.2 h, ?_⟩⟩
  rintro pre post m rfl hpre hdispatcher
  obtain ⟨m', hm', hpost⟩ := leads_append.1 hleads
  obtain rfl := hm'.unique hpre
  exact (hmanaged.of_leads hpre).hasControlDispatcher_of_leads hpost hdispatcher

end Runs

end

/-! ### Two media -/

/-- The header of an image whose only volume is its boot image. -/
def labWim : List UInt8 :=
  wimSignature ++ [0xd0, 0, 0, 0] ++ List.replicate 28 0 ++ [1, 0, 1, 0, 1, 0, 0, 0] ++
    List.replicate 72 0 ++ [1, 0, 0, 0]

/-- Tools for images whose boot image has the loader at its standard path. -/
def labTools : BootTools where
  detectLoaderPath wim :=
    match wimBootIndexFromHeader (wim.take (wimBootIndexOffset + 4)) with
    | some _ => .ok "\\windows\\system32\\winload.exe"
    | none => .error (.invalidConfig "the image has no valid boot image index")
  writeCleanBcd _ _ := .ok ()
  injectAgent wim _ := .ok wim
  normalizeSocketAddr s := if s = "192.0.2.10:8080" then some s else none
  undionly := [0x4d, 0x5a, 1]
  ipxeEfi := [0x4d, 0x5a, 2]
  wimboot := [0x4d, 0x5a, 3]

/-- Media as Windows ships them. -/
def standardMedia : List MediaFile :=
  [{ path := ["sources", "boot.wim"], contents := labWim },
    { path := ["bootmgr"], contents := stringBytes "bootmgr" },
    { path := ["boot", "boot.sdi"], contents := stringBytes "sdi" }]

/-- The renamed boot manager of a USM medium. -/
def usmBootmgr : MediaFile where
  path := ["boot", "USM6MGR"]
  contents := stringBytes "BOOTMGR image is corrupt" ++
    stringBytes "The Windows Boot Manager is incompatible with this system" ++
    List.replicate (64 * 1024) 0

/-- Media with an Edgeless payload and a USM boot manager. -/
def edgelessUsmMedia : List MediaFile :=
  [{ path := ["Edgeless", "version.txt"], contents := stringBytes "4.1.0" },
    { path := ["Edgeless", "Nes_Inport.7z"], contents := stringBytes "7z" },
    { path := ["boot", "USMPE6.WIM"], contents := labWim }, usmBootmgr,
    { path := ["boot", "boot.sdi"], contents := stringBytes "sdi" }]

/-- Standard media keep their script and their policy while the dispatcher is installed between two
refreshes. -/
theorem policyRetained_standardMedia : ∃ selection package tree,
    selectMedia labTools.detectLoaderPath standardMedia = .ok selection ∧
    buildWinpePackage labTools standardMedia none none = .ok package ∧
    Leads (PackageTree.step labTools) package [.ensureManagedNetworkBoot,
      .configureControlDispatcher "http://192.0.2.10:8080", .ensureManagedNetworkBoot] tree ∧
    PolicyRetained labTools selection package [.ensureManagedNetworkBoot,
      .configureControlDispatcher "http://192.0.2.10:8080", .ensureManagedNetworkBoot] tree := by
  have hselect : (selectMedia labTools.detectLoaderPath standardMedia).toOption.map
      (fun selection => selection.edgelessPayload.isSome) = some false := by
    decide +kernel
  obtain ⟨selection, hselection, hedgeless⟩ := Option.map_eq_some_iff.1 hselect
  have hrun : ((buildWinpePackage labTools standardMedia none none).toOption.bind fun package =>
      runFrom (PackageTree.step labTools) package [.ensureManagedNetworkBoot,
        .configureControlDispatcher "http://192.0.2.10:8080", .ensureManagedNetworkBoot]).isSome =
          true := by
    decide +kernel
  obtain ⟨tree, htree⟩ := Option.isSome_iff_exists.1 hrun
  obtain ⟨package, hpackage, hleads⟩ := Option.bind_eq_some_iff.1 htree
  rw [toOption_eq_some_iff] at hselection hpackage
  exact ⟨selection, package, tree, hselection, hpackage, hleads,
    (policyRetained_iff hselection hpackage hleads).2 (.inl (by simp [hedgeless]))⟩

theorem containsText_of_isInfix {text : String} {before after : List UInt8} :
    containsText text (before ++ stringBytes text ++ after) = true := by
  refine List.any_eq_true.2 ⟨stringBytes text ++ after, ?_, ?_⟩
  · rw [List.mem_tails, List.append_assoc]
    exact List.suffix_append _ _
  · rw [List.isPrefixOf_iff_prefix]
    exact List.prefix_append _ _

/-- A USM image and the boot manager of its generation. -/
theorem findUsmBootmgrForWim_eq_some {files : List MediaFile} {wim bootmgr : MediaFile}
    {generation : Char}
    (hparent : pathComponentsEqAsciiCaseInsensitive wim.parent ["boot"] = true)
    (hgeneration : usmGeneration wim = some generation)
    (hfind : files.find? (fun file =>
      pathComponentsEqAsciiCaseInsensitive file.parent ["boot"] && file.fileName.any fun value =>
        Text.eqIgnoreAsciiCase value
          (String.ofList ("USM".toList ++ generation :: "MGR".toList))) = some bootmgr)
    (hbootmgr : isWindowsBootManager bootmgr = true) :
    findUsmBootmgrForWim files wim = some bootmgr := by
  simp only [findUsmBootmgrForWim, hparent, hgeneration, hfind, hbootmgr, Option.bind_eq_bind,
    Option.bind_some, Bool.not_true, Bool.false_eq_true, if_false, if_true]

theorem isWindowsBootManager_usmBootmgr : isWindowsBootManager usmBootmgr = true := by
  have hcorrupt : containsText "BOOTMGR image is corrupt" usmBootmgr.contents = true := by
    rw [show usmBootmgr.contents = [] ++ stringBytes "BOOTMGR image is corrupt" ++
      (stringBytes "The Windows Boot Manager is incompatible with this system" ++
        List.replicate (64 * 1024) 0) from (List.append_assoc _ _ _)]
    exact containsText_of_isInfix
  have hincompatible : containsText "The Windows Boot Manager is incompatible with this system"
      usmBootmgr.contents = true :=
    containsText_of_isInfix
  have hlength : usmBootmgr.contents.length =
      (stringBytes "BOOTMGR image is corrupt").length +
        (stringBytes "The Windows Boot Manager is incompatible with this system").length +
          64 * 1024 := by
    simp only [usmBootmgr, List.length_append, List.length_replicate]
  have hfirst : (stringBytes "BOOTMGR image is corrupt").length = 24 := by decide +kernel
  have hsecond : (stringBytes
      "The Windows Boot Manager is incompatible with this system").length = 57 := by
    decide +kernel
  simp [isWindowsBootManager, hlength, hfirst, hsecond, hcorrupt, hincompatible]

theorem detectLoaderPath_labWim :
    labTools.detectLoaderPath labWim = .ok "\\windows\\system32\\winload.exe" := by
  decide +kernel

theorem selectWim_edgelessUsmMedia :
    selectWim edgelessUsmMedia = .ok { path := ["boot", "USMPE6.WIM"], contents := labWim } := by
  have hwims : edgelessUsmMedia.filter (fun file => file.hasExtension "wim") =
      [{ path := ["boot", "USMPE6.WIM"], contents := labWim }] := by
    rfl
  have hbcd : findUniqueUefiBcdReference edgelessUsmMedia "wim" = none := by
    decide +kernel
  have hpreferred : ([["sources", "boot.wim"], ["boot", "boot.wim"]].findSome? fun expected =>
      [({ path := ["boot", "USMPE6.WIM"], contents := labWim } : MediaFile)].find? fun wim =>
        pathComponentsEqAsciiCaseInsensitive wim.path expected) = none := by
    rfl
  simp only [selectWim, hwims, hbcd, hpreferred, Option.or_none, List.filter_singleton]
  cases wimHasBootImage { path := ["boot", "USMPE6.WIM"], contents := labWim } <;> rfl

theorem selectMedia_edgelessUsmMedia :
    selectMedia labTools.detectLoaderPath edgelessUsmMedia = .ok
      { edgelessPayload := some ["Edgeless"]
        wim := { path := ["boot", "USMPE6.WIM"], contents := labWim }
        loaderPath := "\\windows\\system32\\winload.exe"
        usmBootmgr := some usmBootmgr
        bootmgr := usmBootmgr
        sdi := { path := ["boot", "boot.sdi"], contents := stringBytes "sdi" } } := by
  have hfind : edgelessUsmMedia.find? (fun file =>
      pathComponentsEqAsciiCaseInsensitive file.parent ["boot"] && file.fileName.any fun value =>
        Text.eqIgnoreAsciiCase value (String.ofList ("USM".toList ++ '6' :: "MGR".toList))) =
          some usmBootmgr := by
    unfold edgelessUsmMedia
    rw [List.find?_cons_of_neg (by decide +kernel), List.find?_cons_of_neg (by decide +kernel),
      List.find?_cons_of_neg (by decide +kernel), List.find?_cons_of_pos (by decide +kernel)]
  have husm : findUsmBootmgrForWim edgelessUsmMedia
      { path := ["boot", "USMPE6.WIM"], contents := labWim } = some usmBootmgr :=
    findUsmBootmgrForWim_eq_some (by decide +kernel) (by decide +kernel) hfind
      isWindowsBootManager_usmBootmgr
  have hedgeless : findEdgelessPayload edgelessUsmMedia = some ["Edgeless"] := by
    decide +kernel
  have hnamed : findNamed edgelessUsmMedia "bootmgr" = none := by
    rfl
  have hsdi : findNamed edgelessUsmMedia "boot.sdi" =
      some { path := ["boot", "boot.sdi"], contents := stringBytes "sdi" } := by
    rfl
  simp only [selectMedia, bind_eq_ok_iff, elim_eq_ok_iff, selectWim_edgelessUsmMedia,
    detectLoaderPath_labWim, hnamed, hsdi, hedgeless, husm, Except.ok.injEq, exists_eq_left',
    Option.isNone_none, if_true, Option.none_or, Option.some_or, Option.some.injEq, pure,
    Except.pure]

/-- Media with an Edgeless payload and a USM boot manager lose the policy of USM at the first
refresh. -/
theorem policyRetained_fails_of_edgelessUsm : ∃ selection package tree,
    selectMedia labTools.detectLoaderPath edgelessUsmMedia = .ok selection ∧
    buildWinpePackage labTools edgelessUsmMedia none none = .ok package ∧
    Leads (PackageTree.step labTools) package [.ensureManagedNetworkBoot] tree ∧
    managedBcdPolicy package = some .usmLegacy ∧ managedBcdPolicy tree = some .standard ∧
    ¬ PolicyRetained labTools selection package [.ensureManagedNetworkBoot] tree := by
  obtain ⟨package, hpackage, hwim⟩ :=
    exists_buildWinpePackage selectMedia_edgelessUsmMedia rfl
  obtain ⟨hmanaged, hpolicy, -⟩ :=
    managedPackage_buildWinpePackage hpackage selectMedia_edgelessUsmMedia
  have hmarked : markedPolicy package = .standard := by
    simp [markedPolicy, hmanaged.usm]
  have hcall : ensureManagedNetworkBoot labTools package = (do
      let loaderPath ← labTools.detectLoaderPath ((package.read "boot/boot.wim").getD [])
      labTools.writeCleanBcd loaderPath (markedPolicy package)
      .ok (true, refreshManaged labTools package loaderPath (hasControlDispatcher package))) :=
    hmanaged.ensureManagedNetworkBoot_eq
  simp only at hwim
  rw [hwim, Option.getD_some, detectLoaderPath_labWim, hmarked] at hcall
  replace hcall : ensureManagedNetworkBoot labTools package = .ok (true,
      refreshManaged labTools package "\\windows\\system32\\winload.exe"
        (hasControlDispatcher package)) := hcall
  have hleads : Leads (PackageTree.step labTools) package [.ensureManagedNetworkBoot]
      (refreshManaged labTools package "\\windows\\system32\\winload.exe"
        (hasControlDispatcher package)) := by
    refine leads_cons.2 ⟨_, ?_, leads_nil.2 rfl⟩
    simp only [PackageTree.step, Option.map_eq_some_iff, toOption_eq_some_iff]
    exact ⟨_, hcall, rfl⟩
  have hstandard := hmanaged.managedBcdPolicy_of_leads hleads
  rw [if_pos (List.mem_singleton_self _), hmarked] at hstandard
  refine ⟨_, package, _, selectMedia_edgelessUsmMedia, hpackage, hleads, hpolicy, hstandard, ?_⟩
  intro hretained
  rw [hretained.policy] at hstandard
  cases hstandard

end EasyDeployMesh
