import EasyDeployMesh.Foundations.FaultyDisk
import EasyDeployMesh.Service.Pxe.BootPackage
import EasyDeployMesh.Service.Pxe.Tftp

/-!
# Replacing the managed boot package on the disk

How `crates/service/src/pxe.rs` puts a new package in the place of the managed one, operation by
operation: `import_inner` copies a directory, and `build_winpe_package_with_native_iso` populates a
package from extracted media. Both stage the package below a fresh name beside the managed root and
then swap it in. The directory that holds the managed root, the staging directory and the backup is
a disk whose operations may fail; the source of an import lies elsewhere.

What the build reads of the media before it stages anything is its argument: the selection, and the
files of the external payload. A read that fails there ends the call or makes another selection, and
changes nothing on the disk. The tools of the host may fail as well, and then leave anything where
they were at work.

## Main definitions

* `EasyDeployMesh.DiskItem`, `EasyDeployMesh.SourceNode`, `EasyDeployMesh.PackageOperation`.
* `EasyDeployMesh.ReplacementPaths`: the names that a replacement works with.
* `EasyDeployMesh.copyTree`, `EasyDeployMesh.ensureAgentRuntimeWithPayload`.
* `EasyDeployMesh.importInner`, `EasyDeployMesh.buildWinpePackageWithNativeIso`.
-/

namespace EasyDeployMesh

open Foundations

/-! ### Items and operations -/

/-- What lies at a path. -/
inductive DiskItem
  | directory
  | file (file : PackageFile)
  | other
  deriving DecidableEq

/-- The disk of a replacement. -/
abbrev PackageDisk := DiskState String String DiskItem

/-- A replacement: it works on the disk and stops on an error. -/
abbrev PackageIO := DiskM PxeServiceError String String DiskItem

/-- The items below a directory. -/
abbrev ItemTree := FileTree String DiskItem

/-- An entry of a directory that is imported, with what lies below it. -/
inductive SourceNode
  | file (name : String) (contents : PackageFile)
  | directory (name : String) (entries : List SourceNode)
  | symlink (name : String)
  | special (name : String)

/-- The name of an entry of the source. -/
def SourceNode.name : SourceNode → String
  | .file name _ | .directory name _ | .symlink name | .special name => name

/-- The operations of one replacement on the file system. -/
inductive PackageOperation
  | inspectBootFile (file : String)
  | createParent
  | createDirectory (path : List String)
  | readDirectory (path : List String)
  /-- The step to the next entry of a directory that still has `remaining` ones. -/
  | nextEntry (directory : List String) (remaining : ℕ)
  | fileType (path : List String)
  | write (path : List String)
  | generateStore
  | remaster
  | inspectImage
  | inspectStagedImage
  | inspectAgent
  | hashAgent
  | hashRuntime
  | readMarker (path : List String)
  | inspectInjectedAgent
  | readImage
  | createWorkspace
  | inject
  | removeWorkspace
  | removeStaging
  | inspectRoot
  | moveAway
  | moveIn
  | moveBack
  | removeBackup
  deriving DecidableEq

/-- The operations of the disk that fail. -/
abbrev PackageFaults := FaultyDisk PackageOperation String DiskItem PxeServiceError

/-- The names that a replacement works with. Those with a fresh identifier differ from each other
and from the managed root; the directory that the injection of the Agent works in has a hidden name
beside the image. -/
structure ReplacementPaths where
  root : String
  staging : String
  backup : String
  workspace : String
  staging_ne_root : staging ≠ root
  backup_ne_root : backup ≠ root
  backup_ne_staging : backup ≠ staging
  isHidden_workspace : workspace.toList.head? = some '.'
  /-- The managed root as `to_string_lossy` prints it. -/
  rootText : String
  /-- The same for a path below the staging directory. -/
  stagedText : List String → String

/-- The Agent that is put into images. -/
structure AgentBinary where
  path : String
  isFile : Bool
  digests : AgentDigests

/-- The package that an import returns. -/
structure BootPackage where
  root : String
  biosBootFile : String
  uefiX64BootFile : String
  deriving DecidableEq, Repr

/-- The boot image within a package. -/
def imagePath : List String := ["boot", "boot.wim"]

/-- The digest of the Agent within a package. -/
def agentMarkerPath : List String := ["boot", "easydeploymesh-agent.sha256"]

/-- The digest of the runtime within a package. -/
def runtimeMarkerPath : List String := ["boot", "easydeploymesh-runtime.sha256"]

/-- The directory in which the boot image is mounted. -/
def ReplacementPaths.workspacePath (paths : ReplacementPaths) : List String :=
  ["boot", paths.workspace]

/-- `Path::is_file`. -/
def isFileAt (tree : ItemTree) (path : List String) : Bool :=
  match tree path with
  | some (.file _) => true
  | _ => false

/-- `fs::read` of a path; no call reads a boot configuration store. -/
def contentsAt (tree : ItemTree) (path : List String) : Option (List UInt8) :=
  match tree path with
  | some (.file (.bytes contents)) => some contents
  | _ => none

/-! ### Parts of the staging -/

section Parts

variable (fs : PackageFaults) (paths : ReplacementPaths) (tools : BootTools)

/-- Write a file below the staging directory. -/
def stageFile (path : List String) (file : PackageFile) : PackageIO Unit :=
  fs.put (.write path) paths.staging path (.file file)

/-- What an earlier import left in the staging directory is removed. -/
def removeStaging : PackageIO Unit := fs.removeDirAll .removeStaging paths.staging []

mutual

/-- `copy_tree` to a path below the staging directory. Links and other special files stay behind. -/
def copyTree : SourceNode → List String → PackageIO Unit
  | .directory _ entries, target => do
    fs.createDirAll (.createDirectory target) paths.staging target .directory
    fs.inspect (.readDirectory target)
    copyEntries entries target
  | _, target => do
    fs.createDirAll (.createDirectory target) paths.staging target .directory
    throw (fs.error (.readDirectory target))

/-- The entries of a directory, copied one after another. -/
def copyEntries : List SourceNode → List String → PackageIO Unit
  | [], target => fs.inspect (.nextEntry target 0)
  | entry :: rest, target => do
    fs.inspect (.nextEntry target (rest.length + 1))
    fs.inspect (.fileType (target ++ [entry.name]))
    match entry with
    | .directory _ _ => copyTree entry (target ++ [entry.name])
    | .file _ contents => stageFile fs paths (target ++ [entry.name]) contents
    | _ => pure ()
    copyEntries rest target

end

/-- `marker_matches`: a marker that cannot be read does not match. -/
def markerMatches (tree : ItemTree) (path : List String) (expectedDigest : String) : Bool :=
  fs.answer (.readMarker path) (((contentsAt tree path).bind decodeUtf8).any fun digest =>
    Text.eqIgnoreAsciiCase (Text.trim digest) expectedDigest)

/-- The markers of a staged package say that its image has the current Agent. -/
def hasCurrentRuntime (digests : AgentDigests) (payload : Option (List MediaFile))
    (tree : ItemTree) : Bool :=
  payload.isNone && markerMatches fs tree agentMarkerPath digests.agent &&
    markerMatches fs tree runtimeMarkerPath digests.runtime

/-- What `inject_agent_into_winpe` makes of the image of a package. -/
def injectedImage (payload : Option (List MediaFile)) (tree : ItemTree) :
    Except PxeServiceError (List UInt8) :=
  tools.injectAgent ((contentsAt tree imagePath).getD []) payload

/-- `inject_agent_into_winpe`. The image is worked on in a directory beside it, which is removed
afterwards as well as that goes. -/
def injectAgentIntoWinpe (agent : AgentBinary) (payload : Option (List MediaFile)) :
    PackageIO Unit := do
  ensure (fs.answer .inspectInjectedAgent agent.isFile) (.missingBootFile agent.path)
  fs.inspect .readImage
  fs.createDirAll .createWorkspace paths.staging paths.workspacePath .directory
  withCleanUp
    (do
      let tree ← look paths.staging
      fs.perform .inject paths.staging
        (fun path => path == imagePath || paths.workspacePath.isPrefixOf path)
        ((injectedImage tools payload tree).map fun image tree =>
          Function.update tree imagePath (some (.file (.bytes image)))))
    (fs.removeDirAll .removeWorkspace paths.staging paths.workspacePath)

/-- `ensure_agent_runtime_with_payload` of the staged image. -/
def ensureAgentRuntimeWithPayload (agent : AgentBinary) (payload : Option (List MediaFile)) :
    PackageIO Bool := do
  let tree ← look paths.staging
  ensure (fs.answer .inspectStagedImage (isFileAt tree imagePath))
    (.missingBootFile (paths.stagedText imagePath))
  ensure (fs.answer .inspectAgent agent.isFile) (.missingBootFile agent.path)
  fs.inspect .hashAgent
  fs.inspect .hashRuntime
  if hasCurrentRuntime fs agent.digests payload tree then pure false
  else do
    injectAgentIntoWinpe fs paths tools agent payload
    stageFile fs paths agentMarkerPath (.text agent.digests.agent)
    stageFile fs paths runtimeMarkerPath (.text agent.digests.runtime)
    pure true

end Parts

/-! ### The import of a directory -/

section Import

variable (fs : PackageFaults) (paths : ReplacementPaths) (tools : BootTools)

/-- The Agent part of `import_inner`. -/
def importAgent (agent : Option AgentBinary) : PackageIO Unit :=
  match agent with
  | none => pure ()
  | some agent => do
    let tree ← look paths.staging
    if fs.answer .inspectImage (isFileAt tree imagePath) then do
      let _ ← orCleanUp (ensureAgentRuntimeWithPayload fs paths tools agent none)
        (removeStaging fs paths)
    else do
      let _ ← attempt (removeStaging fs paths)
      throw (.missingBootFile "boot/boot.wim")

/-- The end of `import_inner`: the staged package takes the place of the managed one. -/
def swapImported : PackageIO Unit := do
  let tree ← look paths.root
  if fs.answer .inspectRoot (tree []).isSome then do
    fs.rename .moveAway paths.root paths.backup
    match ← attempt (fs.rename .moveIn paths.staging paths.root) with
    | .ok _ =>
      let _ ← attempt (fs.removeDirAll .removeBackup paths.backup [])
    | .error error =>
      let _ ← attempt (fs.rename .moveBack paths.backup paths.root)
      throw error
  else fs.rename .moveIn paths.staging paths.root

/-- The import of a prepared package. -/
def importInner (host : PxeHost) (sourcePath : String) (source : SourceNode) (bios uefi : String)
    (agent : Option AgentBinary) : PackageIO BootPackage := do
  MonadExcept.ofExcept (validateRelativePath host bios)
  MonadExcept.ofExcept (validateRelativePath host uefi)
  ensure (fs.answer (.inspectBootFile bios) (host.isFile sourcePath bios)) (.missingBootFile bios)
  ensure (fs.answer (.inspectBootFile uefi) (host.isFile sourcePath uefi)) (.missingBootFile uefi)
  fs.inspect .createParent
  orCleanUp (copyTree fs paths source []) (removeStaging fs paths)
  importAgent fs paths tools agent
  swapImported fs paths
  pure { root := paths.rootText, biosBootFile := bios, uefiX64BootFile := uefi }

end Import

/-! ### The package of extracted media -/

section Build

variable (fs : PackageFaults) (paths : ReplacementPaths) (tools : BootTools)

/-- The marker of media with a boot policy of their own. -/
def stagePolicyMarker (selection : MediaSelection) : PackageIO Unit :=
  if selection.edgelessPayload.isSome then
    stageFile fs paths [edgelessManagedLayoutMarker] (.text "1\n")
  else if selection.usmBootmgr.isSome then
    stageFile fs paths [usmManagedLayoutMarker] (.text "1\n")
  else pure ()

/-- The scripts and markers at the end of the populated package. -/
def stageScripts (selection : MediaSelection)
    (nativeIso : Option (Except PxeServiceError (List UInt8))) : PackageIO Unit :=
  match nativeIso with
  | some iso => do
    fs.perform .remaster paths.staging (fun path => path == ["boot", "native.iso"])
      (iso.map fun iso tree =>
        Function.update tree ["boot", "native.iso"] (some (.file (.bytes iso))))
    stageFile fs paths ["boot.ipxe"] (.text nativeIsoPlaceholderScript)
    stageFile fs paths [nativeIsoLayoutMarker] (.text "2\n")
  | none => do
    stagePolicyMarker fs paths selection
    stageFile fs paths ["boot.ipxe"] (.text selection.script)
    stageFile fs paths [managedLayoutMarker] (.text "6\n")

/-- The closure `populate` of the build. -/
def populate (selection : MediaSelection) (payload : List MediaFile) (agent : Option AgentBinary)
    (nativeIso : Option (Except PxeServiceError (List UInt8))) : PackageIO Unit := do
  let store := PackageFile.bcd selection.loaderPath selection.bcdPolicy
  fs.createDirAll (.createDirectory ["boot"]) paths.staging ["boot"] .directory
  fs.perform .generateStore paths.staging (fun _ => true)
    ((tools.writeCleanBcd selection.loaderPath selection.bcdPolicy).map fun _ tree =>
      Function.update tree ["boot", "BCD"] (some (.file store)))
  stageFile fs paths ["boot", "easydeploymesh.bcd"] store
  stageFile fs paths imagePath (.bytes selection.wim.contents)
  match agent with
  | none => pure ()
  | some agent =>
    let _ ← ensureAgentRuntimeWithPayload fs paths tools agent
      (selection.edgelessPayload.map fun _ => payload)
  stageFile fs paths ["boot", "bootmgr"] (.bytes selection.bootmgr.contents)
  stageFile fs paths ["boot", "boot.sdi"] (.bytes selection.sdi.contents)
  stageFile fs paths ["undionly.kpxe"] (.bytes tools.undionly)
  stageFile fs paths ["ipxe.efi"] (.bytes tools.ipxeEfi)
  stageFile fs paths ["boot", "wimboot"] (.bytes tools.wimboot)
  stageScripts fs paths selection nativeIso

/-- The end of the build: the staged package takes the place of the managed one. -/
def swapBuilt : PackageIO Unit := do
  let tree ← look paths.root
  if fs.answer .inspectRoot (tree []).isSome then do
    orCleanUp (fs.rename .moveAway paths.root paths.backup) (removeStaging fs paths)
    match ← attempt (fs.rename .moveIn paths.staging paths.root) with
    | .ok _ => pure ()
    | .error error =>
      let _ ← attempt (fs.rename .moveBack paths.backup paths.root)
      let _ ← attempt (removeStaging fs paths)
      throw error
    let _ ← attempt (fs.removeDirAll .removeBackup paths.backup [])
  else orCleanUp (fs.rename .moveIn paths.staging paths.root) (removeStaging fs paths)

/-- `build_winpe_package_with_native_iso` with what it selected from the media. `payload` are the
files that the injection finds in the directory of the external payload, and `nativeIso` is what
remastering a native ISO gives. -/
def buildWinpePackageWithNativeIso (selection : Except PxeServiceError MediaSelection)
    (payload : List MediaFile) (agent : Option AgentBinary)
    (nativeIso : Option (Except PxeServiceError (List UInt8))) : PackageIO BootPackage := do
  let selection ← MonadExcept.ofExcept selection
  orCleanUp (populate fs paths tools selection payload agent nativeIso) (removeStaging fs paths)
  swapBuilt fs paths
  pure { root := paths.rootText, biosBootFile := "undionly.kpxe", uefiX64BootFile := "ipxe.efi" }

end Build

end EasyDeployMesh
