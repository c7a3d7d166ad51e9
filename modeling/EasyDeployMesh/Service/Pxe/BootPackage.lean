import EasyDeployMesh.Foundations.Focus
import EasyDeployMesh.Service.Pxe.Media

/-!
# Boot packages

The managed network-boot directory of `crates/service/src/pxe.rs`: how media import populates it,
how its loaders are refreshed before the service starts, and how the dispatcher of the control plane
is installed. A package is a finite map from relative paths to files; a boot configuration store is
kept as what it was generated with. Temporary files that a call removes again are left out, and so
are failures of single writes. The tools of the host and the bundled programs are parameters.

## Main definitions

* `EasyDeployMesh.PackageTree`, `EasyDeployMesh.PackageFile`: a package and its files.
* `EasyDeployMesh.buildWinpePackage`: media import.
* `EasyDeployMesh.ensureManagedNetworkBoot`, `EasyDeployMesh.configureControlDispatcher`: the calls
  on a package.
-/

namespace EasyDeployMesh

open Foundations

/-! ### Names and scripts -/

/-- The marker of the second layout of a managed package. -/
def legacyManagedLayoutMarker : String := ".easydeploymesh-pxe-layout-v2"

/-- The marker of the third layout. -/
def v3ManagedLayoutMarker : String := ".easydeploymesh-pxe-layout-v3"

/-- The marker of the fourth layout. -/
def v4ManagedLayoutMarker : String := ".easydeploymesh-pxe-layout-v4"

/-- The marker of the fifth layout. -/
def v5ManagedLayoutMarker : String := ".easydeploymesh-pxe-layout-v5"

/-- The marker of the present layout. -/
def managedLayoutMarker : String := ".easydeploymesh-pxe-layout-v6"

/-- The marker of a package from Edgeless media. -/
def edgelessManagedLayoutMarker : String := ".easydeploymesh-edgeless-pxe"

/-- The marker of a package from USM media. -/
def usmManagedLayoutMarker : String := ".easydeploymesh-usm-pxe"

/-- The marker of a native ISO without an Agent. -/
def legacyNativeIsoLayoutMarker : String := ".easydeploymesh-native-iso-layout-v1"

/-- The marker of a native ISO. -/
def nativeIsoLayoutMarker : String := ".easydeploymesh-native-iso-layout-v2"

/-- The marker of a package whose script asks the control plane. -/
def dynamicBootLayoutMarker : String := ".easydeploymesh-dynamic-boot-v1"

/-- The first lines of a script that asks the control plane. -/
def dynamicBootScriptHeader : String := "#!ipxe\n# EasyDeployMesh dynamic installer dispatcher v1\n"

/-- The script to which a device without an assignment is chained. -/
def windowsFallbackIpxePath : String := "boot/easydeploymesh-winpe.ipxe"

/-- The native ISO within its package. -/
def nativeIsoPath : String := "boot/native.iso"

/-- The script of a native ISO before the port of its server is known. -/
def nativeIsoPlaceholderScript : String :=
  "#!ipxe\nsanboot http://$\x7bnext-server\x7d:0/boot/native.iso || shell\n"

/-- The script of the first managed packages. -/
def legacyManagedIpxeScript : String :=
  "#!ipxe\nkernel boot/wimboot\ninitrd boot/bootmgr bootmgr\ninitrd boot/BCD BCD\n" ++
  "initrd boot/boot.sdi boot.sdi\n" ++
  "initrd boot/easydeploymesh-bootstrap.json easydeploymesh-bootstrap.json\n" ++
  "initrd boot/boot.wim boot.wim\nboot\n"

/-- The script that names its files without the argument behind the path. -/
def brokenNamedManagedIpxeScript : String :=
  "#!ipxe\nkernel boot/wimboot\ninitrd --name bootmgr boot/bootmgr\ninitrd --name BCD boot/BCD\n" ++
  "initrd --name boot.sdi boot/boot.sdi\n" ++
  "initrd --name easydeploymesh-bootstrap.json boot/easydeploymesh-bootstrap.json\n" ++
  "initrd --name boot.wim boot/boot.wim\nboot\n"

/-- The script of the third layout. -/
def v3ManagedIpxeScript : String :=
  "#!ipxe\nkernel boot/wimboot\ninitrd --name bootmgr boot/bootmgr bootmgr\n" ++
  "initrd --name BCD boot/BCD BCD\ninitrd --name boot.sdi boot/boot.sdi boot.sdi\n" ++
  "initrd --name easydeploymesh-bootstrap.json boot/easydeploymesh-bootstrap.json " ++
  "easydeploymesh-bootstrap.json\ninitrd --name boot.wim boot/boot.wim boot.wim\nboot\n"

/-- The script of the fourth layout. -/
def v4ManagedIpxeScript : String :=
  "#!ipxe\nkernel boot/wimboot\ninitrd --name bootmgr boot/bootmgr bootmgr\n" ++
  "initrd --name BCD boot/easydeploymesh.bcd BCD\n" ++
  "initrd --name boot.sdi boot/boot.sdi boot.sdi\n" ++
  "initrd --name easydeploymesh-bootstrap.json boot/easydeploymesh-bootstrap.json " ++
  "easydeploymesh-bootstrap.json\ninitrd --name boot.wim boot/boot.wim boot.wim\nboot\n"

/-- The script of the fifth layout, without a boot manager of its own. -/
def v5ManagedIpxeScript : String :=
  "#!ipxe\nkernel boot/wimboot\ninitrd --name BCD boot/easydeploymesh.bcd BCD\n" ++
  "initrd --name boot.sdi boot/boot.sdi boot.sdi\n" ++
  "initrd --name easydeploymesh-bootstrap.json boot/easydeploymesh-bootstrap.json " ++
  "easydeploymesh-bootstrap.json\ninitrd --name boot.wim boot/boot.wim boot.wim\nboot\n"

/-- The script of a package from USM media. -/
def usmManagedIpxeScript : String :=
  "#!ipxe\nkernel boot/wimboot\ninitrd --name bootmgr boot/bootmgr bootmgr\n" ++
  "initrd --name BCD boot/easydeploymesh.bcd BCD\n" ++
  "initrd --name SC6 boot/easydeploymesh.bcd SC6\n" ++
  "initrd --name boot.sdi boot/boot.sdi boot.sdi\n" ++
  "initrd --name easydeploymesh-bootstrap.json boot/easydeploymesh-bootstrap.json " ++
  "easydeploymesh-bootstrap.json\ninitrd --name boot.wim boot/boot.wim boot.wim\nboot\n"

/-- The present script of a standard package. -/
def managedIpxeScript : String := v4ManagedIpxeScript

/-- The present script of a package from Edgeless media. -/
def edgelessManagedIpxeScript : String := v5ManagedIpxeScript

/-- One of the scripts that this program has written at some time. -/
def isManagedWinpeIpxeScript (script : List UInt8) : Bool :=
  [managedIpxeScript, legacyManagedIpxeScript, brokenNamedManagedIpxeScript, v3ManagedIpxeScript,
    v4ManagedIpxeScript, v5ManagedIpxeScript, edgelessManagedIpxeScript, usmManagedIpxeScript].any
    fun managed => script == stringBytes managed

/-- The script that asks the control plane at an endpoint, and falls back to the WinPE script. -/
def dispatcherScript (normalizedEndpoint : String) : String :=
  dynamicBootScriptHeader ++ "chain " ++ normalizedEndpoint ++
    "/api/v1/install/boot.ipxe?mac=$\x7bnet0/mac\x7d&arch=$\x7bbuildarch\x7d" ++
    "&platform=$\x7bplatform\x7d || goto windows\nexit\n:windows\n" ++
    "chain tftp://$\x7bnext-server\x7d/" ++ windowsFallbackIpxePath ++ " || shell\n"

/-! ### Packages -/

/-- The policies by which the boot configuration is written. -/
inductive WinpeBcdPolicy
  | standard
  | usmLegacy
  deriving DecidableEq, Repr

/-- A file of a package: its bytes, or what its boot configuration store was generated with. -/
inductive PackageFile
  | bytes (contents : List UInt8)
  | bcd (loaderPath : String) (policy : WinpeBcdPolicy)
  deriving DecidableEq

/-- A file with a text. -/
def PackageFile.text (s : String) : PackageFile := .bytes (stringBytes s)

/-- The files of a package by their relative paths. -/
abbrev PackageTree := AList fun _ : String => PackageFile

namespace PackageTree

variable (tree : PackageTree)

/-- The package has a file at the path. -/
def isFile (path : String) : Bool := (tree.lookup path).isSome

/-- `fs::read(..).ok()`; no call reads a boot configuration store. -/
def read (path : String) : Option (List UInt8) :=
  match tree.lookup path with
  | some (.bytes contents) => some contents
  | _ => none

/-- The package with a file at the path. -/
def write (path : String) (file : PackageFile) : PackageTree := tree.insert path file

/-- The package without the file at the path. -/
def remove (path : String) : PackageTree := tree.erase path

variable {tree} {path path' : String} {file : PackageFile}

theorem lookup_write :
    (tree.write path file).lookup path' =
      if path' = path then some file else tree.lookup path' := by
  unfold write
  split_ifs with h
  · rw [h, AList.lookup_insert]
  · rw [AList.lookup_insert_ne h]

theorem lookup_remove :
    (tree.remove path).lookup path' = if path' = path then none else tree.lookup path' := by
  unfold remove
  split_ifs with h
  · rw [h, AList.lookup_erase]
  · rw [AList.lookup_erase_ne h]

theorem isFile_write :
    (tree.write path file).isFile path' = if path' = path then true else tree.isFile path' := by
  simp only [isFile, lookup_write]
  split_ifs <;> rfl

theorem isFile_remove :
    (tree.remove path).isFile path' = if path' = path then false else tree.isFile path' := by
  simp only [isFile, lookup_remove]
  split_ifs <;> rfl

theorem read_write_bytes {contents : List UInt8} :
    (tree.write path (.bytes contents)).read path' =
      if path' = path then some contents else tree.read path' := by
  simp only [read, lookup_write]
  split_ifs <;> rfl

end PackageTree

/-- The tools of the host, and the network programs that the service brings along. -/
structure BootTools where
  /-- `detect_winpe_loader_path` of an image. -/
  detectLoaderPath : List UInt8 → Except PxeServiceError String
  /-- Whether `write_clean_winpe_bcd` generates and validates the store. -/
  writeCleanBcd : String → WinpeBcdPolicy → Except PxeServiceError Unit
  /-- `inject_agent_into_winpe`: the image with the Agent and the payload of the media. -/
  injectAgent : List UInt8 → Option (List MediaFile) → Except PxeServiceError (List UInt8)
  /-- `SocketAddr::from_str`, and the address as `Display` prints it. -/
  normalizeSocketAddr : String → Option String
  undionly : List UInt8
  ipxeEfi : List UInt8
  wimboot : List UInt8

/-! ### Media import -/

/-- The digests that mark an image with the current Agent. -/
structure AgentDigests where
  agent : String
  runtime : String
  deriving DecidableEq

/-- The boot policy of media with the given selection. -/
def MediaSelection.bcdPolicy (selection : MediaSelection) : WinpeBcdPolicy :=
  if selection.usmBootmgr.isSome then .usmLegacy else .standard

/-- The WinPE script of media with the given selection. -/
def MediaSelection.script (selection : MediaSelection) : String :=
  if selection.edgelessPayload.isSome then edgelessManagedIpxeScript
  else if selection.usmBootmgr.isSome then usmManagedIpxeScript
  else managedIpxeScript

/-- The files that say how the package boots: for a native ISO its placeholder script, else the
script and the markers of the media. -/
def populateScripts (selection : MediaSelection) (nativeIso : Option (List UInt8))
    (staging : PackageTree) : PackageTree :=
  match nativeIso with
  | some iso =>
    ((staging.write nativeIsoPath (.bytes iso)).write "boot.ipxe"
      (.text nativeIsoPlaceholderScript)).write nativeIsoLayoutMarker (.text "2\n")
  | none =>
    let staging :=
      if selection.edgelessPayload.isSome then
        staging.write edgelessManagedLayoutMarker (.text "1\n")
      else if selection.usmBootmgr.isSome then staging.write usmManagedLayoutMarker (.text "1\n")
      else staging
    (staging.write "boot.ipxe" (.text selection.script)).write managedLayoutMarker (.text "6\n")

/-- `ensure_agent_runtime_with_payload` on the image of a new package, which has no markers yet. -/
def injectRuntime (tools : BootTools) (agent : Option AgentDigests)
    (payload : Option (List MediaFile)) (wim : List UInt8) (staging : PackageTree) :
    Except PxeServiceError PackageTree :=
  match agent with
  | none => .ok staging
  | some digests => (tools.injectAgent wim payload).map fun wim =>
    ((staging.write "boot/boot.wim" (.bytes wim)).write "boot/easydeploymesh-agent.sha256"
      (.text digests.agent)).write "boot/easydeploymesh-runtime.sha256" (.text digests.runtime)

/-- `build_winpe_package_with_native_iso`: the package that replaces the managed one. For a native
ISO `nativeIso` is what remastering it gives. -/
def buildWinpePackage (tools : BootTools) (files : List MediaFile) (agent : Option AgentDigests)
    (nativeIso : Option (Except PxeServiceError (List UInt8))) :
    Except PxeServiceError PackageTree := do
  let selection ← selectMedia tools.detectLoaderPath files
  tools.writeCleanBcd selection.loaderPath selection.bcdPolicy
  let store := PackageFile.bcd selection.loaderPath selection.bcdPolicy
  let staging : PackageTree := ((∅ : PackageTree).write "boot/BCD" store).write
    "boot/easydeploymesh.bcd" store
  let staging := staging.write "boot/boot.wim" (.bytes selection.wim.contents)
  let payload := selection.edgelessPayload.map fun directory =>
    files.filter fun file => directory.isPrefixOf file.path
  let staging ← injectRuntime tools agent payload selection.wim.contents staging
  let staging := staging.write "boot/bootmgr" (.bytes selection.bootmgr.contents)
  let staging := staging.write "boot/boot.sdi" (.bytes selection.sdi.contents)
  let staging := staging.write "undionly.kpxe" (.bytes tools.undionly)
  let staging := staging.write "ipxe.efi" (.bytes tools.ipxeEfi)
  let staging := staging.write "boot/wimboot" (.bytes tools.wimboot)
  match nativeIso with
  | none => .ok (populateScripts selection none staging)
  | some iso => iso.map fun iso => populateScripts selection (some iso) staging

/-! ### The calls on a package -/

/-- A script that starts with the header of the dispatcher. -/
def isDispatcher (script : List UInt8) : Bool :=
  (stringBytes dynamicBootScriptHeader).isPrefixOf script

/-- The package asks the control plane for each boot. -/
def hasControlDispatcher (tree : PackageTree) : Bool :=
  tree.isFile dynamicBootLayoutMarker && tree.isFile windowsFallbackIpxePath &&
    (tree.read "boot.ipxe").any isDispatcher

/-- The policy and the script that the markers of a package stand for. -/
def markedPolicy (tree : PackageTree) : WinpeBcdPolicy :=
  if tree.isFile usmManagedLayoutMarker then .usmLegacy else .standard

/-- The script that the markers of a package call for. -/
def markedScript (tree : PackageTree) : String :=
  if tree.isFile edgelessManagedLayoutMarker then edgelessManagedIpxeScript
  else if tree.isFile usmManagedLayoutMarker then usmManagedIpxeScript
  else managedIpxeScript

/-- The refresh of a package with a managed WinPE script. -/
def refreshManaged (tools : BootTools) (tree : PackageTree) (loaderPath : String)
    (dispatcherActive : Bool) : PackageTree :=
  let tree := tree.write "boot/easydeploymesh.bcd" (.bcd loaderPath (markedPolicy tree))
  let tree := tree.write "undionly.kpxe" (.bytes tools.undionly)
  let tree := tree.write "ipxe.efi" (.bytes tools.ipxeEfi)
  let tree := tree.write "boot/wimboot" (.bytes tools.wimboot)
  let scriptPath := if dispatcherActive then windowsFallbackIpxePath else "boot.ipxe"
  let tree := tree.write scriptPath (.text (markedScript tree))
  let tree := tree.write managedLayoutMarker (.text "6\n")
  (((tree.remove legacyManagedLayoutMarker).remove v3ManagedLayoutMarker).remove
    v4ManagedLayoutMarker).remove v5ManagedLayoutMarker

/-- A managed package is brought up to the present layout. -/
def ensureManagedNetworkBoot (tools : BootTools) (tree : PackageTree) :
    Except PxeServiceError (Bool × PackageTree) :=
  if tree.isFile legacyNativeIsoLayoutMarker ∧ ¬ tree.isFile nativeIsoLayoutMarker then
    .error (.invalidConfig
      "the managed native ISO predates Agent injection; reimport the source ISO")
  else if tree.isFile nativeIsoLayoutMarker ∧ tree.isFile nativeIsoPath then
    .ok (true, ((tree.write "undionly.kpxe" (.bytes tools.undionly)).write "ipxe.efi"
      (.bytes tools.ipxeEfi)).write "boot.ipxe" (.text nativeIsoPlaceholderScript))
  else if tree.isFile v5ManagedLayoutMarker then
    .error (.invalidConfig ("managed PXE package version 5 cannot identify whether its source " ++
      "boot manager is safe; reimport the original PE media"))
  else
    let dispatcherActive := hasControlDispatcher tree
    let managedScript :=
      if dispatcherActive then tree.read windowsFallbackIpxePath else tree.read "boot.ipxe"
    if !managedScript.any isManagedWinpeIpxeScript ||
        !(["boot/boot.sdi", "boot/boot.wim", "boot/bootmgr", "boot/wimboot"].all
          fun path => tree.isFile path) then
      .ok (false, tree)
    else do
      let loaderPath ← tools.detectLoaderPath ((tree.read "boot/boot.wim").getD [])
      tools.writeCleanBcd loaderPath (markedPolicy tree)
      .ok (true, refreshManaged tools tree loaderPath dispatcherActive)

/-- The package is made to ask the control plane at the endpoint. -/
def configureControlDispatcher (tools : BootTools) (tree : PackageTree) (controlEndpoint : String) :
    Except PxeServiceError (Bool × PackageTree) :=
  if tree.isFile nativeIsoLayoutMarker then .ok (false, tree)
  else match (Text.stripPrefix "http://" controlEndpoint).bind tools.normalizeSocketAddr with
    | none => .error (.invalidConfig "control endpoint must be an HTTP socket address")
    | some address =>
      let currentScript := tree.read "boot.ipxe"
      let dispatcherActive := currentScript.any isDispatcher && tree.isFile dynamicBootLayoutMarker
      let fallbackScript :=
        if dispatcherActive then tree.read windowsFallbackIpxePath else currentScript
      match fallbackScript with
      | none => .ok (false, tree)
      | some fallbackScript =>
        if !isManagedWinpeIpxeScript fallbackScript then .ok (false, tree)
        else .ok (true, ((tree.write windowsFallbackIpxePath (.bytes fallbackScript)).write
          "boot.ipxe" (.text (dispatcherScript ("http://" ++ address)))).write
            dynamicBootLayoutMarker (.text "1\n"))

end EasyDeployMesh
