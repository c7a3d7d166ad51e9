import EasyDeployMesh.Service.Pxe.PolicyRetention

/-!
# Interrupted installations of the dispatcher

`configure_control_dispatcher` writes three files one after the other: the fallback script, the
dispatcher as `boot.ipxe`, and the marker. A package is recognised by what it reads from them, so a
package whose `boot.ipxe` is the dispatcher but whose marker is missing is recognised by none of the
calls.

## Main definitions

* `EasyDeployMesh.IsStandardPackage`: the packages in which the dispatcher is installed.
* `EasyDeployMesh.dispatcherWrites`, `EasyDeployMesh.InterruptedAfter`: the writes, and the package
  after some of them.
* `EasyDeployMesh.RestartsDispatcher`: another call repairs the package.

## Main results

* `EasyDeployMesh.configureControlDispatcher_eq`: an installation as its three writes.
* `EasyDeployMesh.restartsDispatcher_iff`: the interruptions that another call repairs.
* `EasyDeployMesh.keepsAnsweringFalse_of_interruptedAfter`: what the other interruptions leave
  behind.
-/

namespace EasyDeployMesh

open Foundations PackageTree

/-! ### The writes -/

/-- The address of an endpoint, if the endpoint is valid. -/
def endpointAddress (tools : BootTools) (endpoint : String) : Option String :=
  (Text.stripPrefix "http://" endpoint).bind tools.normalizeSocketAddr

/-- The script that is kept as the fallback of the dispatcher. -/
def dispatcherFallback (tree : PackageTree) : Option (List UInt8) :=
  if (tree.read "boot.ipxe").any isDispatcher && tree.isFile dynamicBootLayoutMarker then
    tree.read windowsFallbackIpxePath
  else tree.read "boot.ipxe"

/-- A managed package that boots no native ISO: the script that the dispatcher falls back to is one
of the managed scripts. -/
structure IsStandardPackage (tree : PackageTree) (fallback : List UInt8) : Prop where
  native : tree.isFile nativeIsoLayoutMarker = false
  kept : dispatcherFallback tree = some fallback
  managed : isManagedWinpeIpxeScript fallback = true

/-- The writes of an installation, in order. -/
def dispatcherWrites (fallback : List UInt8) (address : String) : List (String × PackageFile) :=
  [(windowsFallbackIpxePath, .bytes fallback),
    ("boot.ipxe", .text (dispatcherScript ("http://" ++ address))),
    (dynamicBootLayoutMarker, .text "1\n")]

/-- The package after a list of writes. -/
def PackageTree.writeAll (tree : PackageTree) (writes : List (String × PackageFile)) :
    PackageTree :=
  writes.foldl (fun tree write => tree.write write.1 write.2) tree

/-- The package after the first `k` writes of an installation. -/
def InterruptedAfter (tools : BootTools) (tree : PackageTree) (endpoint : String) (k : ℕ)
    (interrupted : PackageTree) : Prop :=
  ∃ fallback address, IsStandardPackage tree fallback ∧
    endpointAddress tools endpoint = some address ∧
    interrupted = tree.writeAll ((dispatcherWrites fallback address).take k)

/-- No call recognises the package. -/
structure KeepsAnsweringFalse (tools : BootTools) (tree : PackageTree) : Prop where
  dispatcher : hasControlDispatcher tree = false
  configure : ∀ endpoint address, endpointAddress tools endpoint = some address →
    configureControlDispatcher tools tree endpoint = .ok (false, tree)
  ensure : ensureManagedNetworkBoot tools tree = .ok (false, tree)

/-- Another call with any valid endpoint answers true, and leaves the files that it would have left
in the package before the interruption. -/
def RestartsDispatcher (tools : BootTools) (tree interrupted : PackageTree) : Prop :=
  (∀ endpoint address, endpointAddress tools endpoint = some address →
    ∃ restarted uninterrupted,
      configureControlDispatcher tools interrupted endpoint = .ok (true, restarted) ∧
      configureControlDispatcher tools tree endpoint = .ok (true, uninterrupted) ∧
      ∀ path, restarted.lookup path = uninterrupted.lookup path) ∧
  ¬ KeepsAnsweringFalse tools interrupted

variable {tools : BootTools} {tree interrupted : PackageTree} {fallback : List UInt8}
  {endpoint address : String} {k : ℕ}

/-- An installation is its three writes. -/
theorem configureControlDispatcher_eq (h : IsStandardPackage tree fallback)
    (haddress : endpointAddress tools endpoint = some address) :
    configureControlDispatcher tools tree endpoint =
      .ok (true, tree.writeAll (dispatcherWrites fallback address)) := by
  have hfallback := h.kept
  unfold endpointAddress at haddress
  unfold dispatcherFallback at hfallback
  simp only [configureControlDispatcher, h.native, haddress, hfallback, h.managed, Bool.not_true,
    Bool.false_eq_true, if_false]
  rfl

/-- No managed script is a dispatcher. -/
theorem isDispatcher_of_isManagedWinpeIpxeScript {script : List UInt8}
    (h : isManagedWinpeIpxeScript script = true) : isDispatcher script = false := by
  simp only [isManagedWinpeIpxeScript, List.any_cons, List.any_nil, Bool.or_false, Bool.or_eq_true,
    beq_iff_eq] at h
  rcases h with rfl | rfl | rfl | rfl | rfl | rfl | rfl | rfl <;> decide +kernel

theorem isManagedWinpeIpxeScript_dispatcherScript (normalizedEndpoint : String) :
    isManagedWinpeIpxeScript (stringBytes (dispatcherScript normalizedEndpoint)) = false := by
  by_contra h
  rw [Bool.not_eq_false] at h
  have hdispatcher := isDispatcher_of_isManagedWinpeIpxeScript h
  rw [isDispatcher_dispatcherScript] at hdispatcher
  exact absurd hdispatcher (by decide)

/-! ### The package after some writes -/

theorem lookup_writeAll_of_notMem {writes : List (String × PackageFile)} {path : String}
    (h : path ∉ writes.map Prod.fst) : (tree.writeAll writes).lookup path = tree.lookup path := by
  induction writes generalizing tree with
  | nil => rfl
  | cons write writes ih =>
    rw [List.map_cons, List.mem_cons, not_or] at h
    rw [PackageTree.writeAll, List.foldl_cons]
    exact (ih h.2).trans (by rw [lookup_write, if_neg h.1])

/-- The files of an installation take the place of those that an interrupted one has written. -/
theorem lookup_writeAll_writeAll (address' : String) (path : String) :
    ((tree.writeAll ((dispatcherWrites fallback address').take k)).writeAll
        (dispatcherWrites fallback address)).lookup path =
      (tree.writeAll (dispatcherWrites fallback address)).lookup path := by
  simp only [PackageTree.writeAll, dispatcherWrites, List.foldl_cons, List.foldl_nil, lookup_write]
  split_ifs with hmarker hboot hfallback
  · rfl
  · rfl
  · rfl
  · refine lookup_writeAll_of_notMem fun hmem => ?_
    have hmem := List.map_subset Prod.fst (List.take_subset k _) hmem
    simp only [List.map_cons, List.map_nil, List.mem_cons, List.not_mem_nil, or_false] at hmem
    rcases hmem with rfl | rfl | rfl
    · exact hfallback rfl
    · exact hboot rfl
    · exact hmarker rfl

theorem isFile_eq_of_lookup {tree' : PackageTree} {path : String}
    (h : tree'.lookup path = tree.lookup path) : tree'.isFile path = tree.isFile path :=
  congrArg Option.isSome h

/-- The fallback of a package whose `boot.ipxe` is a dispatcher is the script that is kept beside
it, as soon as the marker is there. -/
theorem dispatcherFallback_of_dispatcher {endpoint' : String}
    (hboot : tree.read "boot.ipxe" = some (stringBytes (dispatcherScript endpoint')))
    (hmarker : tree.isFile dynamicBootLayoutMarker = true) :
    dispatcherFallback tree = tree.read windowsFallbackIpxePath := by
  unfold dispatcherFallback
  rw [if_pos]
  rw [hboot, Option.any_some, isDispatcher_dispatcherScript, hmarker]
  rfl

/-- But for the writes up to the marker that was not there, the package is still a standard one. -/
theorem IsStandardPackage.of_writeAll (h : IsStandardPackage tree fallback) (address : String)
    (hk : ¬ (k = 2 ∧ tree.isFile dynamicBootLayoutMarker = false)) :
    IsStandardPackage (tree.writeAll ((dispatcherWrites fallback address).take k)) fallback := by
  refine ⟨?_, ?_, h.managed⟩
  · rw [← h.native]
    refine isFile_eq_of_lookup (lookup_writeAll_of_notMem fun hmem => ?_)
    have hmem := List.map_subset Prod.fst (List.take_subset k _) hmem
    simp [dispatcherWrites, nativeIsoLayoutMarker, windowsFallbackIpxePath,
      dynamicBootLayoutMarker] at hmem
  · have hkept := h.kept
    rcases k with _ | _ | _ | k
    · exact hkept
    · -- the fallback script is the one that is read from the package
      have hown : (tree.write windowsFallbackIpxePath (.bytes fallback)).read
          windowsFallbackIpxePath = some fallback := by
        rw [read_write_bytes, if_pos rfl]
      have hboot : (tree.write windowsFallbackIpxePath (.bytes fallback)).read "boot.ipxe" =
          tree.read "boot.ipxe" := by
        rw [read_write_bytes, if_neg (by decide)]
      have hmarker : (tree.write windowsFallbackIpxePath (.bytes fallback)).isFile
          dynamicBootLayoutMarker = tree.isFile dynamicBootLayoutMarker := by
        rw [isFile_write, if_neg (by decide)]
      change dispatcherFallback (tree.write windowsFallbackIpxePath (.bytes fallback)) =
        some fallback
      unfold dispatcherFallback at hkept ⊢
      rw [hboot, hmarker, hown]
      split_ifs at hkept ⊢ with hactive
      · rfl
      · exact hkept
    · have hmarker : tree.isFile dynamicBootLayoutMarker = true := by simpa using hk
      rw [@dispatcherFallback_of_dispatcher _ ("http://" ++ address)]
      · simp [PackageTree.writeAll, dispatcherWrites, PackageTree.read, lookup_write,
          windowsFallbackIpxePath]
      · simp [PackageTree.writeAll, dispatcherWrites, PackageTree.read, lookup_write,
          PackageFile.text]
      · simp [PackageTree.writeAll, dispatcherWrites, isFile_write, hmarker]
    · rw [@dispatcherFallback_of_dispatcher _ ("http://" ++ address)]
      · simp [PackageTree.writeAll, dispatcherWrites, PackageTree.read, lookup_write,
          windowsFallbackIpxePath, dynamicBootLayoutMarker]
      · simp [PackageTree.writeAll, dispatcherWrites, PackageTree.read, lookup_write,
          PackageFile.text, dynamicBootLayoutMarker]
      · simp [PackageTree.writeAll, dispatcherWrites, isFile_write]

/-- Between the dispatcher and the marker, the package has a dispatcher without a marker. -/
theorem marker_of_interrupted (address : String)
    (hmarker : tree.isFile dynamicBootLayoutMarker = false) :
    (tree.writeAll ((dispatcherWrites fallback address).take 2)).isFile dynamicBootLayoutMarker =
      false ∧
      (tree.writeAll ((dispatcherWrites fallback address).take 2)).read "boot.ipxe" =
        some (stringBytes (dispatcherScript ("http://" ++ address))) := by
  constructor
  · rw [← hmarker]
    refine isFile_eq_of_lookup (lookup_writeAll_of_notMem ?_)
    simp [dispatcherWrites, windowsFallbackIpxePath, dynamicBootLayoutMarker]
  · simp [PackageTree.writeAll, dispatcherWrites, PackageTree.read, lookup_write, PackageFile.text]

/-- A package that is interrupted between the dispatcher and a marker that was not there is refused
by every other installation. -/
theorem configureControlDispatcher_of_interrupted (h : IsStandardPackage tree fallback)
    (hmarker : tree.isFile dynamicBootLayoutMarker = false) {endpoint' address' : String}
    (haddress : endpointAddress tools endpoint' = some address') :
    configureControlDispatcher tools
        (tree.writeAll ((dispatcherWrites fallback address).take 2)) endpoint' =
      .ok (false, tree.writeAll ((dispatcherWrites fallback address).take 2)) := by
  obtain ⟨hdynamic, hboot⟩ := @marker_of_interrupted _ fallback address hmarker
  have hnative : (tree.writeAll ((dispatcherWrites fallback address).take 2)).isFile
      nativeIsoLayoutMarker = false := by
    rw [← h.native]
    refine isFile_eq_of_lookup (lookup_writeAll_of_notMem ?_)
    simp [dispatcherWrites, windowsFallbackIpxePath, nativeIsoLayoutMarker]
  unfold endpointAddress at haddress
  simp only [configureControlDispatcher, hnative, haddress, hboot, hdynamic, Bool.and_false,
    Bool.false_eq_true, if_false, isManagedWinpeIpxeScript_dispatcherScript, Bool.not_false,
    if_true]

/-- An interrupted installation is repaired by the next one, unless it was interrupted between the
dispatcher and a marker that was not there before. -/
theorem restartsDispatcher_iff (h : InterruptedAfter tools tree endpoint k interrupted) :
    RestartsDispatcher tools tree interrupted ↔
      ¬ (k = 2 ∧ tree.isFile dynamicBootLayoutMarker = false) := by
  obtain ⟨fallback, address, hstandard, haddress, rfl⟩ := h
  constructor
  · rintro hrestarts ⟨rfl, hmarker⟩
    obtain ⟨restarted, -, hrestarted, -⟩ := hrestarts.1 endpoint address haddress
    rw [configureControlDispatcher_of_interrupted hstandard hmarker haddress] at hrestarted
    simp at hrestarted
  · intro hk
    have hagain := hstandard.of_writeAll address hk
    refine ⟨fun endpoint' address' haddress' => ?_, fun hfalse => ?_⟩
    · exact ⟨_, _, configureControlDispatcher_eq hagain haddress',
        configureControlDispatcher_eq hstandard haddress', lookup_writeAll_writeAll address⟩
    · have hanswer := hfalse.configure endpoint address haddress
      rw [configureControlDispatcher_eq hagain haddress] at hanswer
      simp at hanswer

/-- An interruption between the dispatcher and a marker that was not there leaves a package that no
call recognises, unless it has one of the markers that a refresh refuses. -/
theorem keepsAnsweringFalse_of_interruptedAfter
    (h : InterruptedAfter tools tree endpoint 2 interrupted)
    (hmarker : tree.isFile dynamicBootLayoutMarker = false)
    (hlegacy : tree.isFile legacyNativeIsoLayoutMarker = false)
    (hv5 : tree.isFile v5ManagedLayoutMarker = false) : KeepsAnsweringFalse tools interrupted := by
  obtain ⟨fallback, address, hstandard, haddress, rfl⟩ := h
  obtain ⟨hdynamic, hboot⟩ := @marker_of_interrupted _ fallback address hmarker
  have hkept : ∀ path, path ∉ [windowsFallbackIpxePath, "boot.ipxe", dynamicBootLayoutMarker] →
      (tree.writeAll ((dispatcherWrites fallback address).take 2)).isFile path =
        tree.isFile path := by
    intro path hpath
    simp only [List.mem_cons, List.not_mem_nil, or_false, not_or] at hpath
    refine isFile_eq_of_lookup (lookup_writeAll_of_notMem ?_)
    simp [dispatcherWrites, hpath]
  have hdispatcher : hasControlDispatcher
      (tree.writeAll ((dispatcherWrites fallback address).take 2)) = false := by
    simp [hasControlDispatcher, hdynamic]
  refine ⟨hdispatcher, fun endpoint' address' haddress' =>
    configureControlDispatcher_of_interrupted hstandard hmarker haddress', ?_⟩
  simp only [ensureManagedNetworkBoot, hkept legacyNativeIsoLayoutMarker (by decide),
    hkept nativeIsoLayoutMarker (by decide), hkept v5ManagedLayoutMarker (by decide), hlegacy,
    hstandard.native, hv5, hdispatcher, hboot, Option.any_some,
    isManagedWinpeIpxeScript_dispatcherScript, Bool.not_false, Bool.true_or, Bool.false_eq_true,
    false_and, if_false, if_true]

/-! ### A new package -/

/-- The script of a new package. -/
def newPackage : PackageTree := (∅ : PackageTree).write "boot.ipxe" (.text managedIpxeScript)

theorem isStandardPackage_newPackage :
    IsStandardPackage newPackage (stringBytes managedIpxeScript) := by
  have hboot : newPackage.read "boot.ipxe" = some (stringBytes managedIpxeScript) := by
    simp [newPackage, PackageFile.text, read_write_bytes]
  have hmanaged : isManagedWinpeIpxeScript (stringBytes managedIpxeScript) = true := by
    simp [isManagedWinpeIpxeScript]
  refine ⟨by decide +kernel, ?_, hmanaged⟩
  unfold dispatcherFallback
  rw [hboot, Option.any_some, isDispatcher_of_isManagedWinpeIpxeScript hmanaged]
  rfl

theorem interruptedAfter_newPackage (k : ℕ) :
    InterruptedAfter labTools newPackage "http://192.0.2.10:8080" k
      (newPackage.writeAll ((dispatcherWrites (stringBytes managedIpxeScript)
        "192.0.2.10:8080").take k)) :=
  ⟨_, _, isStandardPackage_newPackage, by decide +kernel, rfl⟩

/-- An interruption behind the first write of the first installation. -/
theorem restartsDispatcher_newPackage :
    RestartsDispatcher labTools newPackage (newPackage.writeAll
      ((dispatcherWrites (stringBytes managedIpxeScript) "192.0.2.10:8080").take 1)) :=
  (restartsDispatcher_iff (interruptedAfter_newPackage 1)).2 (by decide)

/-- An interruption behind the second write of the first installation. -/
theorem restartsDispatcher_fails_of_newPackage :
    ¬ ∀ (tools : BootTools) (tree interrupted : PackageTree) (endpoint : String) (k : ℕ),
      InterruptedAfter tools tree endpoint k interrupted →
        RestartsDispatcher tools tree interrupted := by
  intro h
  have hmarker : newPackage.isFile dynamicBootLayoutMarker = false := by decide +kernel
  exact (h _ _ _ _ 2 (interruptedAfter_newPackage 2)).2
    (keepsAnsweringFalse_of_interruptedAfter (interruptedAfter_newPackage 2) hmarker
      (by decide +kernel) (by decide +kernel))

end EasyDeployMesh
