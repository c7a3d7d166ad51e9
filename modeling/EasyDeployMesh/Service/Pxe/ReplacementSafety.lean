import EasyDeployMesh.Service.Pxe.StagedCopy

/-!
# The managed package is replaced as a whole

A call that replaces the managed package stages the new one beside it and swaps it in by renames.
When at most one operation of the call fails, a call that fails leaves the managed root as it was,
and a call that succeeds leaves the new package there. The new package of an import is what the
source holds, with the current Agent in its image; that of a build consists of the files that were
selected from the media and of those that the service brings along.

The new package need not be there alone. The Agent is put into the image in a directory beside it,
inside the staged package, and when removing that directory is the operation that fails the call
goes on: what is left of it becomes a part of the managed package.

## Main definitions

* `EasyDeployMesh.importedTree`, `EasyDeployMesh.newPackageTree`: the new packages.
* `EasyDeployMesh.IsNewTree`: a new package, perhaps with the leftovers of the injection.

## Main results

* `EasyDeployMesh.replacement_allOrNothing`: both calls keep the old package or put the new one.
* `EasyDeployMesh.buildWinpePackage_eq`: the files of the new package are those of the build.
-/

namespace EasyDeployMesh

open Foundations FileTree

/-! ### The new packages -/

/-- Put files at their paths, one after the other. -/
def placeAll (files : List (List String × PackageFile)) (tree : ItemTree) : ItemTree :=
  files.foldl (fun tree file => Function.update tree file.1 (some (.file file.2))) tree

/-- The image with the Agent, and the markers that say so. -/
def runtimeFiles (digests : AgentDigests) (image : List UInt8) : List (List String × PackageFile) :=
  [(imagePath, .bytes image), (agentMarkerPath, .text digests.agent),
    (runtimeMarkerPath, .text digests.runtime)]

/-- A package whose image has the current Agent. -/
def withCurrentRuntime (fs : PackageFaults) (tools : BootTools) (digests : AgentDigests)
    (payload : Option (List MediaFile)) (tree : ItemTree) : Except PxeServiceError ItemTree :=
  if hasCurrentRuntime fs digests payload tree then .ok tree
  else (injectedImage tools payload tree).map fun image =>
    placeAll (runtimeFiles digests image) tree

/-- The new package of an import: what the source holds, and the Agent in its image unless the
markers of the source could be read and say that it is there. -/
def importedTree (fs : PackageFaults) (tools : BootTools) (source : SourceNode)
    (agent : Option AgentBinary) : Except PxeServiceError ItemTree :=
  match agent with
  | none => .ok source.itemAt
  | some agent => withCurrentRuntime fs tools agent.digests none source.itemAt

/-- The boot configurations of a package. -/
def storeFiles (selection : MediaSelection) : List (List String × PackageFile) :=
  [(["boot", "BCD"], .bcd selection.loaderPath selection.bcdPolicy),
    (["boot", "easydeploymesh.bcd"], .bcd selection.loaderPath selection.bcdPolicy)]

/-- The image of a build, and with an Agent the markers. -/
def imageFiles (digests : Option AgentDigests) (image : List UInt8) :
    List (List String × PackageFile) :=
  match digests with
  | none => [(imagePath, .bytes image)]
  | some digests => runtimeFiles digests image

/-- The loaders of a package. -/
def loaderFiles (tools : BootTools) (selection : MediaSelection) :
    List (List String × PackageFile) :=
  [(["boot", "bootmgr"], .bytes selection.bootmgr.contents),
    (["boot", "boot.sdi"], .bytes selection.sdi.contents),
    (["undionly.kpxe"], .bytes tools.undionly),
    (["ipxe.efi"], .bytes tools.ipxeEfi),
    (["boot", "wimboot"], .bytes tools.wimboot)]

/-- The script and the marker of a native ISO, and the ISO itself. -/
def nativeScriptFiles (iso : List UInt8) : List (List String × PackageFile) :=
  [(["boot", "native.iso"], .bytes iso), (["boot.ipxe"], .text nativeIsoPlaceholderScript),
    ([nativeIsoLayoutMarker], .text "2\n")]

/-- The marker of the policy of a package. -/
def policyMarkerFiles (selection : MediaSelection) : List (List String × PackageFile) :=
  if selection.edgelessPayload.isSome then [([edgelessManagedLayoutMarker], .text "1\n")]
  else if selection.usmBootmgr.isSome then [([usmManagedLayoutMarker], .text "1\n")]
  else []

/-- The script and the markers of a managed package. -/
def managedScriptFiles (selection : MediaSelection) : List (List String × PackageFile) :=
  policyMarkerFiles selection ++
    [(["boot.ipxe"], .text selection.script), ([managedLayoutMarker], .text "6\n")]

/-- The image that a build puts into the package. -/
def builtImage (tools : BootTools) (selection : MediaSelection) (payload : List MediaFile)
    (digests : Option AgentDigests) : Except PxeServiceError (List UInt8) :=
  match digests with
  | none => .ok selection.wim.contents
  | some _ => tools.injectAgent selection.wim.contents
      (selection.edgelessPayload.map fun _ => payload)

/-- The last files of a package. -/
def scriptFiles (selection : MediaSelection)
    (nativeIso : Option (Except PxeServiceError (List UInt8))) :
    Except PxeServiceError (List (List String × PackageFile)) :=
  match nativeIso with
  | none => .ok (managedScriptFiles selection)
  | some iso => iso.map nativeScriptFiles

/-- The files of the package that is built from selected media. -/
def packageFiles (tools : BootTools) (selection : MediaSelection) (payload : List MediaFile)
    (digests : Option AgentDigests) (nativeIso : Option (Except PxeServiceError (List UInt8))) :
    Except PxeServiceError (List (List String × PackageFile)) := do
  tools.writeCleanBcd selection.loaderPath selection.bcdPolicy
  let image ← builtImage tools selection payload digests
  let scripts ← scriptFiles selection nativeIso
  .ok (storeFiles selection ++ imageFiles digests image ++ loaderFiles tools selection ++ scripts)

/-- The new package of a build. -/
def newPackageTree (tools : BootTools) (selection : MediaSelection) (payload : List MediaFile)
    (digests : Option AgentDigests) (nativeIso : Option (Except PxeServiceError (List UInt8))) :
    Except PxeServiceError ItemTree :=
  (packageFiles tools selection payload digests nativeIso).map fun files =>
    placeAll files (withDirectories ["boot"] absent)

/-- The tree is a new package, or a new package into which the Agent was injected, with what is left
of the directory that the injection worked in, when removing that is the operation that failed. -/
def IsNewTree (fs : PackageFaults) (paths : ReplacementPaths) (injected : Bool)
    (new tree : ItemTree) : Prop :=
  tree = new ∨ injected = true ∧ fs.fails .removeWorkspace = true ∧
    tree = fs.remnant .removeWorkspace paths.workspacePath new

/-! ### Paths beside the workspace -/

section Beside

variable {paths : ReplacementPaths} {fs : PackageFaults}

/-- A path is not in the directory that the injection works in. -/
def IsBeside (paths : ReplacementPaths) (path : List String) : Prop :=
  paths.workspacePath.isPrefixOf path = false

theorem isBeside_singleton (name : String) : IsBeside paths [name] := by
  simp [IsBeside, ReplacementPaths.workspacePath, List.isPrefixOf]

/-- The workspace has a hidden name, and the files of a package in its directory have not. -/
theorem isBeside_boot {name : String} (h : name.toList.head? ≠ some '.') :
    IsBeside paths ["boot", name] := by
  have hne : paths.workspace ≠ name := fun heq => h (heq ▸ paths.isHidden_workspace)
  simp [IsBeside, ReplacementPaths.workspacePath, List.isPrefixOf, hne]

theorem remnant_update {path : List String} (h : IsBeside paths path) (tree : ItemTree)
    (item : Option DiskItem) :
    fs.remnant .removeWorkspace paths.workspacePath (Function.update tree path item) =
      Function.update (fs.remnant .removeWorkspace paths.workspacePath tree) path item :=
  within_update h item

theorem remnant_placeAll {files : List (List String × PackageFile)}
    (h : ∀ file ∈ files, IsBeside paths file.1) (tree : ItemTree) :
    fs.remnant .removeWorkspace paths.workspacePath (placeAll files tree) =
      placeAll files (fs.remnant .removeWorkspace paths.workspacePath tree) := by
  induction files generalizing tree with
  | nil => rfl
  | cons file files ih =>
    rw [List.forall_mem_cons] at h
    have htail := ih h.2 (Function.update tree file.1 (some (.file file.2)))
    rw [remnant_update h.1] at htail
    exact htail

/-- Files beside the workspace are placed in a new package with or without leftovers. -/
theorem IsNewTree.placeAll {injected : Bool} {new tree : ItemTree}
    (htree : IsNewTree fs paths injected new tree)
    {files : List (List String × PackageFile)} (h : ∀ file ∈ files, IsBeside paths file.1) :
    IsNewTree fs paths injected (placeAll files new) (placeAll files tree) := by
  rcases htree with rfl | ⟨hinjected, hfails, rfl⟩
  · exact .inl rfl
  · exact .inr ⟨hinjected, hfails, (remnant_placeAll h new).symm⟩

/-- A place beside the workspace is as in the new package. -/
theorem IsNewTree.eq_of_isBeside {injected : Bool} {new tree : ItemTree}
    (htree : IsNewTree fs paths injected new tree) {path : List String} (h : IsBeside paths path) :
    tree path = new path := by
  rcases htree with rfl | ⟨-, -, rfl⟩
  · rfl
  · exact within_of_not_region h

/-- A package whose workspace was free is new again after the workspace is removed. -/
theorem isNewTree_remnant {new : ItemTree}
    (hfree : ∀ path, paths.workspacePath <+: path → new path = none) :
    IsNewTree fs paths true new (fs.remnant .removeWorkspace paths.workspacePath new) := by
  by_cases hfails : fs.fails .removeWorkspace = true
  · exact .inr ⟨rfl, hfails, rfl⟩
  · refine .inl (within_eq_self fun path hpath => ?_)
    rw [if_neg hfails]
    exact hfree path (List.isPrefixOf_iff_prefix.1 hpath)

theorem isBeside_of_mem_runtimeFiles {digests : AgentDigests} {image : List UInt8} :
    ∀ file ∈ runtimeFiles digests image, IsBeside paths file.1 := by
  simp only [runtimeFiles, List.forall_mem_cons]
  exact ⟨isBeside_boot (by decide), isBeside_boot (by decide), isBeside_boot (by decide),
    fun _ h => absurd h List.not_mem_nil⟩

theorem isBeside_of_mem_loaderFiles {tools : BootTools} {selection : MediaSelection} :
    ∀ file ∈ loaderFiles tools selection, IsBeside paths file.1 := by
  simp only [loaderFiles, List.forall_mem_cons]
  exact ⟨isBeside_boot (by decide), isBeside_boot (by decide), isBeside_singleton _,
    isBeside_singleton _, isBeside_boot (by decide), fun _ h => absurd h List.not_mem_nil⟩

end Beside

/-! ### Staging the Agent -/

section Runtime

variable {fs : PackageFaults} {paths : ReplacementPaths} {tools : BootTools} {agent : AgentBinary}
  {payload : Option (List MediaFile)}

/-- The injection as a change of the staged tree. -/
def injectedTree (fs : PackageFaults) (paths : ReplacementPaths) (tools : BootTools)
    (payload : Option (List MediaFile)) (tree : ItemTree) : Except PxeServiceError ItemTree :=
  (injectedImage tools payload (withDirectories paths.workspacePath tree)).map fun image =>
    fs.remnant .removeWorkspace paths.workspacePath
      (Function.update (withDirectories paths.workspacePath tree) imagePath
        (some (.file (.bytes image))))

/-- The image with the Agent takes the place of the image. -/
def placeImage (image : Except PxeServiceError (List UInt8)) :
    Except PxeServiceError (ItemTree → ItemTree) :=
  image.map fun image tree => Function.update tree imagePath (some (.file (.bytes image)))

theorem stages_injectAgentIntoWinpe :
    Stages paths.staging (injectAgentIntoWinpe fs paths tools agent payload)
      (injectedTree fs paths tools payload) := by
  have hsteps : Stages paths.staging (injectAgentIntoWinpe fs paths tools agent payload)
      fun tree => ((placeImage (injectedImage tools payload
        (withDirectories paths.workspacePath tree))).map fun change =>
          change (withDirectories paths.workspacePath tree)).map
            (fs.remnant .removeWorkspace paths.workspacePath) :=
    Stages.ensure.bind fun _ => Stages.inspect.bind fun _ => stages_createDirAll.bind fun _ =>
      Stages.withCleanUp (Stages.look
        (fun found tree => (placeImage (injectedImage tools payload found)).map fun change =>
          change tree) fun _ => Stages.perform)
  refine hsteps.congr fun tree => ?_
  unfold injectedTree placeImage
  cases injectedImage tools payload (withDirectories paths.workspacePath tree) <;> rfl

/-- `ensure_agent_runtime_with_payload` as a change of the staged tree. -/
def runtimeTree (fs : PackageFaults) (paths : ReplacementPaths) (tools : BootTools)
    (digests : AgentDigests) (payload : Option (List MediaFile)) (tree : ItemTree) :
    Except PxeServiceError ItemTree :=
  if hasCurrentRuntime fs digests payload tree then .ok tree
  else (injectedTree fs paths tools payload tree).map
    (placeAll [(agentMarkerPath, .text digests.agent), (runtimeMarkerPath, .text digests.runtime)])

theorem stages_ensureAgentRuntime :
    Stages paths.staging (ensureAgentRuntimeWithPayload fs paths tools agent payload)
      (runtimeTree fs paths tools agent.digests payload) := by
  have hinject : Stages paths.staging (injectAgentIntoWinpe fs paths tools agent payload >>=
      fun _ => stageFile fs paths agentMarkerPath (.text agent.digests.agent) >>=
        fun _ => stageFile fs paths runtimeMarkerPath (.text agent.digests.runtime) >>=
          fun _ => (pure true : PackageIO Bool)) fun tree =>
      (injectedTree fs paths tools payload tree).map
        (placeAll [(agentMarkerPath, .text agent.digests.agent),
          (runtimeMarkerPath, .text agent.digests.runtime)]) := by
    refine (stages_injectAgentIntoWinpe.bind fun _ => stages_stageFile.bind fun _ =>
      stages_stageFile.bind fun _ => Stages.pure true).congr fun tree => ?_
    cases injectedTree fs paths tools payload tree <;> rfl
  exact Stages.look
    (fun found tree => if hasCurrentRuntime fs agent.digests payload found then .ok tree
      else (injectedTree fs paths tools payload tree).map
        (placeAll [(agentMarkerPath, .text agent.digests.agent),
          (runtimeMarkerPath, .text agent.digests.runtime)]))
    fun found => Stages.ensure.bind fun _ => Stages.ensure.bind fun _ =>
      Stages.inspect.bind fun _ => Stages.inspect.bind fun _ => (Stages.pure false).ite hinject

/-- A tree whose image can be worked on: the directories above it are there, and the directory to
work in is free. -/
structure IsWorkable (paths : ReplacementPaths) (tree : ItemTree) : Prop where
  root : (tree []).isSome
  boot : (tree ["boot"]).isSome
  free : ∀ path, paths.workspacePath <+: path → tree path = none

/-- Making the workspace changes nothing else. -/
theorem IsWorkable.withDirectories_eq {tree : ItemTree} (h : IsWorkable paths tree) :
    withDirectories paths.workspacePath tree =
      Function.update tree paths.workspacePath (some .directory) := by
  refine withDirectories_eq_update (fun place hplace hne => ?_) (h.free _ List.prefix_rfl)
  obtain rfl | ⟨rest, rfl, hrest⟩ := List.prefix_cons_iff.1 hplace
  · exact h.root
  · obtain rfl | ⟨rest', rfl, hrest'⟩ := List.prefix_cons_iff.1 hrest
    · exact h.boot
    · rw [List.prefix_nil] at hrest'
      exact absurd (by rw [hrest']; rfl) hne

/-- The remnant of a tree in which the workspace was made. -/
theorem remnant_update_workspace (tree : ItemTree) (item : Option DiskItem) :
    fs.remnant .removeWorkspace paths.workspacePath
        (Function.update tree paths.workspacePath item) =
      fs.remnant .removeWorkspace paths.workspacePath tree := by
  funext path
  by_cases hpath : path = paths.workspacePath
  · subst hpath
    simp only [FaultyDisk.remnant, within, List.isPrefixOf_iff_prefix, List.prefix_rfl, if_true]
  · simp only [FaultyDisk.remnant, within, Function.update_of_ne hpath]

/-- Where the Agent is staged in a workable tree, the result is the package with its runtime. -/
theorem exists_isNewTree_of_runtimeTree {digests : AgentDigests} {tree after : ItemTree}
    (htree : IsWorkable paths tree)
    (h : runtimeTree fs paths tools digests payload tree = .ok after) :
    ∃ new, withCurrentRuntime fs tools digests payload tree = .ok new ∧
      IsNewTree fs paths true new after := by
  unfold runtimeTree at h
  unfold withCurrentRuntime
  split_ifs at h ⊢ with hcurrent
  · cases h
    exact ⟨tree, rfl, .inl rfl⟩
  · have himage : injectedImage tools payload (withDirectories paths.workspacePath tree) =
        injectedImage tools payload tree := by
      have hbeside : IsBeside paths imagePath := isBeside_boot (by decide)
      have hne : imagePath ≠ paths.workspacePath := fun heq => by
        rw [IsBeside, heq, List.isPrefixOf_iff_prefix.2 List.prefix_rfl] at hbeside
        cases hbeside
      rw [htree.withDirectories_eq]
      simp only [injectedImage, contentsAt, Function.update_of_ne hne]
    unfold injectedTree at h
    rw [himage, htree.withDirectories_eq] at h
    obtain ⟨injected, hinjected, rfl⟩ := map_eq_ok_iff.1 h
    obtain ⟨image, hinjectedImage, rfl⟩ := map_eq_ok_iff.1 hinjected
    refine ⟨_, by rw [hinjectedImage]; rfl, ?_⟩
    have himagePath : IsBeside paths imagePath := isBeside_boot (by decide)
    rw [remnant_update himagePath, remnant_update_workspace]
    exact (isNewTree_remnant htree.free).placeAll isBeside_of_mem_runtimeFiles

end Runtime

/-! ### Staging an import -/

section Import

variable {fs : PackageFaults} {paths : ReplacementPaths} {tools : BootTools}

/-- `importAgent` as a change of the staged tree. -/
def importedAgentTree (fs : PackageFaults) (paths : ReplacementPaths) (tools : BootTools)
    (agent : Option AgentBinary) (tree : ItemTree) : Except PxeServiceError ItemTree :=
  match agent with
  | none => .ok tree
  | some agent =>
    if isFileAt tree imagePath then runtimeTree fs paths tools agent.digests none tree
    else .error (.missingBootFile "boot/boot.wim")

theorem touchesOnly_removeStaging : TouchesOnly paths.staging (removeStaging fs paths) := by
  unfold removeStaging FaultyDisk.removeDirAll
  exact touchesOnly_perform

theorem stages_importAgent (agent : Option AgentBinary) :
    Stages paths.staging (importAgent fs paths tools agent)
      (importedAgentTree fs paths tools agent) := by
  cases agent with
  | none => exact Stages.pure ()
  | some agent =>
    refine Stages.look (fun found tree => if isFileAt found imagePath then
      runtimeTree fs paths tools agent.digests none tree
      else .error (.missingBootFile "boot/boot.wim")) fun found => ?_
    split_ifs with hanswer himage himage
    · refine ((stages_ensureAgentRuntime.orCleanUp touchesOnly_removeStaging).bind fun _ =>
        Stages.pure ()).congr fun tree => ?_
      cases runtimeTree fs paths tools agent.digests none tree <;> rfl
    · rw [FaultyDisk.answer, Bool.eq_false_iff.2 himage, Bool.and_false] at hanswer
      cases hanswer
    · exact Stages.attempt_throw touchesOnly_removeStaging _
    · exact Stages.attempt_throw touchesOnly_removeStaging _

/-- What a directory holds can be worked on, unless something lies in the workspace. -/
theorem isWorkable_itemAt {source : SourceNode} (himage : isFileAt source.itemAt imagePath = true)
    (hfree : ∀ path, paths.workspacePath <+: path → source.itemAt path = none) :
    IsWorkable paths source.itemAt where
  root := by
    cases source with
    | directory name entries => rfl
    | file _ _ => cases himage
    | symlink _ => cases himage
    | special _ => cases himage
  boot := by
    have hsome : (source.itemAt imagePath).isSome := by
      unfold isFileAt at himage
      split at himage
      · next h => rw [h]; rfl
      · cases himage
    rw [SourceNode.itemAt_singleton_of_isSome hsome]
    rfl
  free := hfree

/-- Where the import stages a copy of its source and the Agent, that is the new package. -/
theorem exists_isNewTree_of_import {source : SourceNode} {agent : Option AgentBinary}
    {after : ItemTree}
    (hfree : agent.isSome → ∀ path, paths.workspacePath <+: path → source.itemAt path = none)
    (h : importedAgentTree fs paths tools agent source.itemAt = .ok after) :
    ∃ new, importedTree fs tools source agent = .ok new ∧
      IsNewTree fs paths agent.isSome new after := by
  cases agent with
  | none =>
    cases h
    exact ⟨_, rfl, .inl rfl⟩
  | some agent =>
    unfold importedAgentTree at h
    split_ifs at h with himage
    exact exists_isNewTree_of_runtimeTree (isWorkable_itemAt himage (hfree rfl)) h

end Import

/-! ### Staging a build -/

section Build

variable {fs : PackageFaults} {paths : ReplacementPaths} {tools : BootTools}
  {selection : MediaSelection} {payload : List MediaFile} {agent : Option AgentBinary}
  {nativeIso : Option (Except PxeServiceError (List UInt8))}

theorem placeAll_append (files files' : List (List String × PackageFile)) (tree : ItemTree) :
    placeAll (files ++ files') tree = placeAll files' (placeAll files tree) :=
  List.foldl_append

theorem placeAll_of_forall_ne {files : List (List String × PackageFile)} {path : List String}
    (h : ∀ file ∈ files, file.1 ≠ path) (tree : ItemTree) :
    placeAll files tree path = tree path := by
  induction files generalizing tree with
  | nil => rfl
  | cons file files ih =>
    rw [List.forall_mem_cons] at h
    exact (ih h.2 _).trans (Function.update_of_ne h.1.symm ..)

theorem isBeside_of_mem_scriptFiles {files : List (List String × PackageFile)}
    (h : scriptFiles selection nativeIso = .ok files) : ∀ file ∈ files, IsBeside paths file.1 := by
  cases nativeIso with
  | none =>
    cases h
    unfold managedScriptFiles policyMarkerFiles
    refine List.forall_mem_append.2 ⟨?_, ?_⟩
    · split_ifs <;> simp [isBeside_singleton]
    · simp [isBeside_singleton]
  | some iso =>
    obtain ⟨iso, rfl, rfl⟩ := map_eq_ok_iff.1 h
    simp only [nativeScriptFiles, List.forall_mem_cons]
    exact ⟨isBeside_boot (by decide), isBeside_singleton _, isBeside_singleton _,
      fun _ h => absurd h List.not_mem_nil⟩

theorem stages_stageScripts :
    Stages paths.staging (stageScripts fs paths selection nativeIso) fun tree =>
      (scriptFiles selection nativeIso).map fun files => placeAll files tree := by
  cases nativeIso with
  | some iso =>
    refine (Stages.perform.bind fun _ => stages_stageFile.bind fun _ => stages_stageFile).congr
      fun tree => ?_
    cases iso <;> rfl
  | none =>
    have hmarker : Stages paths.staging (stagePolicyMarker fs paths selection) fun tree =>
        .ok (placeAll (policyMarkerFiles selection) tree) := by
      unfold stagePolicyMarker policyMarkerFiles
      split_ifs
      · exact stages_stageFile
      · exact stages_stageFile
      · exact Stages.pure ()
    refine (hmarker.bind fun _ => stages_stageFile.bind fun _ => stages_stageFile).congr
      fun tree => ?_
    refine congrArg Except.ok (Eq.symm ?_)
    exact placeAll_append (policyMarkerFiles selection) _ tree

/-- The Agent part of `populate` as a change of the staged tree. -/
def builtAgentTree (fs : PackageFaults) (paths : ReplacementPaths) (tools : BootTools)
    (payload : Option (List MediaFile)) (agent : Option AgentBinary) (tree : ItemTree) :
    Except PxeServiceError ItemTree :=
  match agent with
  | none => .ok tree
  | some agent => runtimeTree fs paths tools agent.digests payload tree

/-- The files that are staged before the Agent. -/
def mediaFiles (selection : MediaSelection) : List (List String × PackageFile) :=
  storeFiles selection ++ [(imagePath, .bytes selection.wim.contents)]

/-- `populate` as a change of the staged tree. -/
def populatedTree (fs : PackageFaults) (paths : ReplacementPaths) (tools : BootTools)
    (selection : MediaSelection) (payload : List MediaFile) (agent : Option AgentBinary)
    (nativeIso : Option (Except PxeServiceError (List UInt8))) (tree : ItemTree) :
    Except PxeServiceError ItemTree := do
  tools.writeCleanBcd selection.loaderPath selection.bcdPolicy
  let tree ← builtAgentTree fs paths tools (selection.edgelessPayload.map fun _ => payload) agent
    (placeAll (mediaFiles selection) (withDirectories ["boot"] tree))
  (scriptFiles selection nativeIso).map fun files =>
    placeAll (loaderFiles tools selection ++ files) tree

theorem stages_populate :
    Stages paths.staging (populate fs paths tools selection payload agent nativeIso)
      (populatedTree fs paths tools selection payload agent nativeIso) := by
  have htail : Stages paths.staging (do
      stageFile fs paths ["boot", "bootmgr"] (.bytes selection.bootmgr.contents)
      stageFile fs paths ["boot", "boot.sdi"] (.bytes selection.sdi.contents)
      stageFile fs paths ["undionly.kpxe"] (.bytes tools.undionly)
      stageFile fs paths ["ipxe.efi"] (.bytes tools.ipxeEfi)
      stageFile fs paths ["boot", "wimboot"] (.bytes tools.wimboot)
      stageScripts fs paths selection nativeIso) fun tree =>
        (scriptFiles selection nativeIso).map fun files =>
          placeAll (loaderFiles tools selection ++ files) tree := by
    refine (stages_stageFile.bind fun _ => stages_stageFile.bind fun _ => stages_stageFile.bind
      fun _ => stages_stageFile.bind fun _ => stages_stageFile.bind
        fun _ => stages_stageScripts).congr fun tree => ?_
    simp only [placeAll_append]
    rfl
  cases agent with
  | none =>
    refine (stages_createDirAll.bind fun _ => Stages.perform.bind fun _ => stages_stageFile.bind
      fun _ => stages_stageFile.bind fun _ => (Stages.pure ()).bind fun _ => htail).congr
        fun tree => ?_
    unfold populatedTree
    cases tools.writeCleanBcd selection.loaderPath selection.bcdPolicy <;> rfl
  | some agent =>
    refine (stages_createDirAll.bind fun _ => Stages.perform.bind fun _ => stages_stageFile.bind
      fun _ => stages_stageFile.bind fun _ => stages_ensureAgentRuntime.bind
        fun _ => htail).congr fun tree => ?_
    unfold populatedTree
    cases tools.writeCleanBcd selection.loaderPath selection.bcdPolicy <;> rfl

/-- The media of a build can be worked on once they are staged. -/
theorem isWorkable_mediaFiles :
    IsWorkable paths (placeAll (mediaFiles selection) (withDirectories ["boot"] absent)) where
  root := rfl
  boot := rfl
  free path hpath := by
    have hne : ∀ other, IsBeside paths other → other ≠ path := fun other hother heq => by
      rw [IsBeside, heq, List.isPrefixOf_iff_prefix.2 hpath] at hother
      cases hother
    rw [placeAll_of_forall_ne fun file hfile => hne _ ?_]
    · have hlength := hpath.length_le
      simp only [ReplacementPaths.workspacePath, List.length_cons, List.length_nil] at hlength
      have hprefix : path.isPrefixOf ["boot"] = false := by
        refine Bool.eq_false_iff.2 fun h => ?_
        have hshort := (List.isPrefixOf_iff_prefix.1 h).length_le
        simp only [List.length_cons, List.length_nil] at hshort
        omega
      rw [withDirectories, hprefix]
      rfl
    · simp only [mediaFiles, storeFiles, List.cons_append, List.nil_append, List.mem_cons,
        List.not_mem_nil, or_false] at hfile
      rcases hfile with rfl | rfl | rfl <;> exact isBeside_boot (by decide)

/-- Where the build populates the staging directory, that is the new package. -/
theorem exists_isNewTree_of_build {after : ItemTree}
    (h : populatedTree fs paths tools selection payload agent nativeIso absent = .ok after) :
    ∃ new, newPackageTree tools selection payload (agent.map AgentBinary.digests) nativeIso =
      .ok new ∧ IsNewTree fs paths agent.isSome new after := by
  obtain ⟨hstore, h⟩ := bind_unit_eq_ok_iff.1 h
  obtain ⟨tree, hagent, h⟩ := bind_eq_ok_iff.1 h
  obtain ⟨scripts, hscripts, rfl⟩ := map_eq_ok_iff.1 h
  have hbeside : ∀ file ∈ loaderFiles tools selection ++ scripts, IsBeside paths file.1 :=
    List.forall_mem_append.2 ⟨isBeside_of_mem_loaderFiles, isBeside_of_mem_scriptFiles hscripts⟩
  -- the image of the package, and the tree with it
  obtain ⟨image, himage, htree⟩ : ∃ image, builtImage tools selection payload
      (agent.map AgentBinary.digests) = .ok image ∧ IsNewTree fs paths agent.isSome
        (placeAll (storeFiles selection ++ imageFiles (agent.map AgentBinary.digests) image)
          (withDirectories ["boot"] absent)) tree := by
    cases agent with
    | none =>
      cases hagent
      exact ⟨_, rfl, .inl rfl⟩
    | some agent =>
      obtain ⟨new, hnew, htree⟩ := exists_isNewTree_of_runtimeTree isWorkable_mediaFiles hagent
      have hcurrent : hasCurrentRuntime fs agent.digests
          (selection.edgelessPayload.map fun _ => payload)
          (placeAll (mediaFiles selection) (withDirectories ["boot"] absent)) = false := by
        have hmarker :
            contentsAt (placeAll (mediaFiles selection) (withDirectories ["boot"] absent))
            agentMarkerPath = none := rfl
        simp [hasCurrentRuntime, markerMatches, hmarker, FaultyDisk.answer]
      rw [withCurrentRuntime, hcurrent] at hnew
      obtain ⟨image, himage, rfl⟩ := map_eq_ok_iff.1 hnew
      refine ⟨image, himage, ?_⟩
      have hplaced : placeAll (runtimeFiles agent.digests image)
          (placeAll (mediaFiles selection) (withDirectories ["boot"] absent)) =
            placeAll (storeFiles selection ++ runtimeFiles agent.digests image)
              (withDirectories ["boot"] absent) := by
        rw [mediaFiles, placeAll_append, placeAll_append]
        simp only [runtimeFiles, placeAll, List.foldl_cons, List.foldl_nil, Function.update_idem]
      rwa [hplaced] at htree
  refine ⟨_, ?_, htree.placeAll hbeside⟩
  simp only [newPackageTree, packageFiles, hstore, himage, hscripts, bind, Except.bind, Except.map,
    placeAll_append]

theorem PackageTree.write_write (tree : PackageTree) (path : String) (file file' : PackageFile) :
    (tree.write path file).write path file' = tree.write path file' :=
  AList.insert_insert tree

/-- The package with the files at their paths as they are written in the model of a build. -/
def writeAll (files : List (List String × PackageFile)) (tree : PackageTree) : PackageTree :=
  files.foldl (fun tree file => tree.write ("/".intercalate file.1) file.2) tree

theorem writeAll_append (files files' : List (List String × PackageFile)) (tree : PackageTree) :
    writeAll (files ++ files') tree = writeAll files' (writeAll files tree) :=
  List.foldl_append

private theorem populateScripts_eq (selection : MediaSelection) (tree : PackageTree) :
    populateScripts selection none tree = writeAll (managedScriptFiles selection) tree := by
  unfold populateScripts managedScriptFiles policyMarkerFiles
  rw [writeAll_append]
  split_ifs <;> rfl

/-- The files in the directory of the external payload. -/
def payloadFiles (selection : MediaSelection) (files : List MediaFile) : List MediaFile :=
  files.filter fun file => (selection.edgelessPayload.getD []).isPrefixOf file.path

/-- A build whose operations all succeed gives the package with the files of its selection. -/
theorem buildWinpePackage_eq (files : List MediaFile) (digests : Option AgentDigests)
    (nativeIso : Option (Except PxeServiceError (List UInt8))) :
    buildWinpePackage tools files digests nativeIso =
      selectMedia tools.detectLoaderPath files >>= fun selection =>
        (packageFiles tools selection (payloadFiles selection files) digests nativeIso).map
          fun placed => writeAll placed ∅ := by
  unfold buildWinpePackage
  refine congrArg _ (funext fun selection => ?_)
  have hpayload : (selection.edgelessPayload.map fun directory =>
      files.filter fun file => directory.isPrefixOf file.path) =
        selection.edgelessPayload.map fun _ => payloadFiles selection files := by
    unfold payloadFiles
    cases selection.edgelessPayload <;> rfl
  unfold packageFiles
  cases tools.writeCleanBcd selection.loaderPath selection.bcdPolicy with
  | error error => rfl
  | ok _ =>
    rw [hpayload]
    cases digests with
    | none =>
      cases nativeIso with
      | none =>
        simp only [builtImage, scriptFiles, injectRuntime, bind, Except.bind, Except.map,
          populateScripts_eq, writeAll_append]
        rfl
      | some iso => cases iso <;> rfl
    | some digests =>
      simp only [builtImage, injectRuntime]
      cases tools.injectAgent selection.wim.contents
        (selection.edgelessPayload.map fun _ => payloadFiles selection files) with
      | error error => rfl
      | ok image =>
        cases nativeIso with
        | none =>
          simp only [scriptFiles, bind, Except.bind, Except.map, populateScripts_eq,
            writeAll_append, PackageTree.write_write]
          rfl
        | some iso =>
          simp only [scriptFiles, bind, Except.bind, Except.map, PackageTree.write_write]
          cases iso <;> rfl

end Build

/-! ### Swapping the staged package in -/

section Swap

variable {fs : PackageFaults} {paths : ReplacementPaths} {disk : PackageDisk}

theorem touchesOnly_removeBackup :
    TouchesOnly paths.backup (fs.removeDirAll .removeBackup paths.backup [] : PackageIO Unit) := by
  unfold FaultyDisk.removeDirAll
  exact touchesOnly_perform

/-- The swap at the end of an import leaves the old package or the staged one. -/
theorem keepsOrReplaces_swapImported (hone : fs.AtMostOne)
    (hstaged : (disk paths.staging []).isSome) :
    KeepsOrReplaces paths.root (disk paths.root) (· = disk paths.staging) (swapImported fs paths)
      disk := by
  refine .look ?_
  split_ifs with hanswer
  · have hpresent : (disk paths.root []).isSome := (Bool.and_eq_true_iff.1 hanswer).2
    rcases fs.rename_cases .moveAway paths.root paths.backup disk with haway | haway
    · rw [KeepsOrReplaces.bind_iff_of_ok haway]
      rcases FaultyDisk.rename_in_or_back .moveIn .moveBack hone (by decide)
        paths.backup_ne_root paths.staging_ne_root paths.backup_ne_staging hpresent hstaged haway
        with ⟨swapped, hin, hroot⟩ | ⟨error, restored, hin, hback, hroot⟩
      · rw [KeepsOrReplaces.bind_iff_of_ok (attempt_eq_of_ok hin)]
        obtain ⟨outcome, hremove⟩ :=
          exists_attempt_eq (fs.removeDirAll .removeBackup paths.backup []) swapped
        dsimp only
        rw [KeepsOrReplaces.bind_iff_of_ok hremove]
        refine (KeepsOrReplaces.iff_of_ok rfl).2 ?_
        exact (touchesOnly_removeBackup swapped paths.root paths.backup_ne_root.symm).trans hroot
      · rw [KeepsOrReplaces.bind_iff_of_ok (attempt_eq_of_error hin)]
        dsimp only
        rw [KeepsOrReplaces.bind_iff_of_ok (attempt_eq_of_ok hback)]
        exact (KeepsOrReplaces.iff_of_error rfl).2 hroot
    · rw [KeepsOrReplaces.iff_of_error (bind_eq_of_error haway)]
  · rcases fs.rename_cases .moveIn paths.staging paths.root disk with hin | hin
    · rw [KeepsOrReplaces.iff_of_ok hin, Function.update_self]
    · rw [KeepsOrReplaces.iff_of_error hin]

/-- The swap at the end of a build leaves the old package or the staged one. -/
theorem keepsOrReplaces_swapBuilt (hone : fs.AtMostOne)
    (hstaged : (disk paths.staging []).isSome) :
    KeepsOrReplaces paths.root (disk paths.root) (· = disk paths.staging) (swapBuilt fs paths)
      disk := by
  have hkept : ∀ disk : PackageDisk,
      diskAfter (removeStaging fs paths disk) paths.root = disk paths.root :=
    fun disk => touchesOnly_removeStaging disk paths.root paths.staging_ne_root.symm
  refine .look ?_
  split_ifs with hanswer
  · have hpresent : (disk paths.root []).isSome := (Bool.and_eq_true_iff.1 hanswer).2
    rcases fs.rename_cases .moveAway paths.root paths.backup disk with haway | haway
    · rw [KeepsOrReplaces.bind_iff_of_ok (orCleanUp_eq_of_ok haway)]
      rcases FaultyDisk.rename_in_or_back .moveIn .moveBack hone (by decide)
        paths.backup_ne_root paths.staging_ne_root paths.backup_ne_staging hpresent hstaged haway
        with ⟨swapped, hin, hroot⟩ | ⟨error, restored, hin, hback, hroot⟩
      · rw [KeepsOrReplaces.bind_iff_of_ok (attempt_eq_of_ok hin)]
        obtain ⟨outcome, hremove⟩ :=
          exists_attempt_eq (fs.removeDirAll .removeBackup paths.backup []) swapped
        dsimp only
        rw [KeepsOrReplaces.bind_iff_of_ok hremove]
        refine (KeepsOrReplaces.iff_of_ok rfl).2 ?_
        exact (touchesOnly_removeBackup swapped paths.root paths.backup_ne_root.symm).trans hroot
      · rw [KeepsOrReplaces.bind_iff_of_ok (attempt_eq_of_error hin)]
        dsimp only
        rw [KeepsOrReplaces.bind_iff_of_ok (attempt_eq_of_ok hback)]
        refine (KeepsOrReplaces.iff_of_error (attempt_throw_eq _ error restored)).2 ?_
        rw [hkept, hroot]
    · rw [KeepsOrReplaces.iff_of_error (bind_eq_of_error (orCleanUp_eq_of_error haway)), hkept]
  · rcases fs.rename_cases .moveIn paths.staging paths.root disk with hin | hin
    · rw [KeepsOrReplaces.iff_of_ok (orCleanUp_eq_of_ok hin), Function.update_self]
    · rw [KeepsOrReplaces.iff_of_error (orCleanUp_eq_of_error hin), hkept]

end Swap

/-! ### The calls -/

section Calls

variable {fs : PackageFaults} {paths : ReplacementPaths} {tools : BootTools} {disk : PackageDisk}

/-- A swap puts the tree there that was staged, new as that is. -/
private theorem keepsOrReplaces_of_swap {swap : PackageIO Unit} {injected : Bool} {new : ItemTree}
    {isNew : ItemTree → Prop} (hstaged : IsNewTree fs paths injected new (disk paths.staging))
    (hroot : (new []).isSome) (hnew : ∀ tree, IsNewTree fs paths injected new tree → isNew tree)
    (hswap : (disk paths.staging []).isSome →
      KeepsOrReplaces paths.root (disk paths.root) (· = disk paths.staging) swap disk)
    (result : BootPackage) :
    KeepsOrReplaces paths.root (disk paths.root) isNew (swap >>= fun _ => pure result) disk := by
  have hpresent : (disk paths.staging []).isSome := by
    have hbeside : IsBeside paths [] := rfl
    rwa [hstaged.eq_of_isBeside hbeside]
  refine KeepsOrReplaces.bind_pure ?_ result
  have hdone := hswap hpresent
  cases h : swap disk with
  | ok a after =>
    rw [KeepsOrReplaces.iff_of_ok h] at hdone ⊢
    rw [hdone]
    exact hnew _ hstaged
  | error error after =>
    rw [KeepsOrReplaces.iff_of_error h] at hdone ⊢
    exact hdone

/-- The new package is there with its directory. -/
private theorem isSome_importedTree {source : SourceNode} {agent : Option AgentBinary}
    {new : ItemTree} (hdirectory : source.isDirectory = true)
    (h : importedTree fs tools source agent = .ok new) : (new []).isSome := by
  have hroot : (source.itemAt []).isSome := by
    cases source with
    | directory _ _ => rfl
    | file _ _ => cases hdirectory
    | symlink _ => cases hdirectory
    | special _ => cases hdirectory
  cases agent with
  | none =>
    cases h
    exact hroot
  | some agent =>
    rw [importedTree, withCurrentRuntime] at h
    split_ifs at h
    · cases h
      exact hroot
    · obtain ⟨image, -, rfl⟩ := map_eq_ok_iff.1 h
      have hne : ∀ file ∈ runtimeFiles agent.digests image, file.1 ≠ [] := by
        simp [runtimeFiles, imagePath, agentMarkerPath, runtimeMarkerPath]
      rwa [placeAll_of_forall_ne hne]

private theorem isSome_newPackageTree {selection : MediaSelection} {payload : List MediaFile}
    {digests : Option AgentDigests} {nativeIso : Option (Except PxeServiceError (List UInt8))}
    {new : ItemTree} (h : newPackageTree tools selection payload digests nativeIso = .ok new) :
    (new []).isSome := by
  obtain ⟨files, hfiles, rfl⟩ := map_eq_ok_iff.1 h
  obtain ⟨-, hfiles⟩ := bind_unit_eq_ok_iff.1 hfiles
  obtain ⟨image, -, hfiles⟩ := bind_eq_ok_iff.1 hfiles
  obtain ⟨scripts, hscripts, hfiles⟩ := bind_eq_ok_iff.1 hfiles
  cases hfiles
  have hscriptPaths : ∀ file ∈ scripts, file.1 ≠ [] := by
    cases nativeIso with
    | none =>
      cases hscripts
      unfold managedScriptFiles policyMarkerFiles
      split_ifs <;> simp
    | some iso =>
      obtain ⟨iso, -, rfl⟩ := map_eq_ok_iff.1 hscripts
      simp [nativeScriptFiles]
  have himagePaths : ∀ file ∈ imageFiles digests image, file.1 ≠ [] := by
    cases digests <;>
      simp [imageFiles, runtimeFiles, imagePath, agentMarkerPath, runtimeMarkerPath]
  rw [placeAll_of_forall_ne]
  · rfl
  · refine List.forall_mem_append.2 ⟨List.forall_mem_append.2 ⟨List.forall_mem_append.2
      ⟨?_, himagePaths⟩, ?_⟩, hscriptPaths⟩
    · simp [storeFiles]
    · simp [loaderFiles]

/-- An import leaves the managed root as it was, or the new package there. -/
theorem importInner_keepsOrReplaces (hone : fs.AtMostOne) (hstaging : disk paths.staging = absent)
    (host : PxeHost) (sourcePath : String) {source : SourceNode} (hnamed : source.WellNamed)
    (bios uefi : String) {agent : Option AgentBinary}
    (hfree : agent.isSome → ∀ path, paths.workspacePath <+: path → source.itemAt path = none) :
    KeepsOrReplaces paths.root (disk paths.root)
      (fun tree => ∃ new, importedTree fs tools source agent = .ok new ∧
        IsNewTree fs paths agent.isSome new tree)
      (importInner fs paths tools host sourcePath source bios uefi agent) disk := by
  refine .of_readsOnly (readsOnly_ofExcept _) rfl fun _ _ => ?_
  refine .of_readsOnly (readsOnly_ofExcept _) rfl fun _ _ => ?_
  refine .of_readsOnly (readsOnly_ensure _ _) rfl fun _ _ => ?_
  refine .of_readsOnly (readsOnly_ensure _ _) rfl fun _ _ => ?_
  refine .of_readsOnly (readsOnly_inspect fs _) rfl fun _ _ => ?_
  refine .of_stages ((stages_copyTree source []).orCleanUp touchesOnly_removeStaging)
    paths.staging_ne_root.symm rfl fun _ copied hcopied hroot => ?_
  refine .of_stages (stages_importAgent agent) paths.staging_ne_root.symm hroot
    fun _ staged hstaged hroot => ?_
  rw [hstaging] at hcopied
  split_ifs at hcopied with hdirectory
  rw [copiedInto_absent hdirectory hnamed, Except.ok.injEq] at hcopied
  rw [← hcopied] at hstaged
  obtain ⟨new, hnew, htree⟩ := exists_isNewTree_of_import hfree hstaged
  rw [← hroot]
  exact keepsOrReplaces_of_swap htree (isSome_importedTree hdirectory hnew)
    (fun tree htree => ⟨new, hnew, htree⟩) (keepsOrReplaces_swapImported hone) _

/-- A build leaves the managed root as it was, or the new package there. -/
theorem build_keepsOrReplaces (hone : fs.AtMostOne) (hstaging : disk paths.staging = absent)
    (selection : Except PxeServiceError MediaSelection) (payload : List MediaFile)
    (agent : Option AgentBinary) (nativeIso : Option (Except PxeServiceError (List UInt8))) :
    KeepsOrReplaces paths.root (disk paths.root)
      (fun tree => ∃ selected new, selection = .ok selected ∧
        newPackageTree tools selected payload (agent.map AgentBinary.digests) nativeIso = .ok new ∧
          IsNewTree fs paths agent.isSome new tree)
      (buildWinpePackageWithNativeIso fs paths tools selection payload agent nativeIso) disk := by
  refine .of_readsOnly (readsOnly_ofExcept _) rfl fun selected hselected => ?_
  have hselection : selection = .ok selected := by
    cases selection <;> cases hselected
    rfl
  refine .of_stages (stages_populate.orCleanUp touchesOnly_removeStaging)
    paths.staging_ne_root.symm rfl fun _ staged hstaged hroot => ?_
  rw [hstaging] at hstaged
  obtain ⟨new, hnew, htree⟩ := exists_isNewTree_of_build hstaged
  rw [← hroot]
  exact keepsOrReplaces_of_swap htree (isSome_newPackageTree hnew)
    (fun tree htree => ⟨selected, new, hselection, hnew, htree⟩)
    (keepsOrReplaces_swapBuilt hone) _

/-- When at most one operation of a call fails, an import and a build leave the managed root as it
was where they fail. Where they succeed the new package is there, and nothing else but what is left
of the directory that the Agent was injected in, when removing that is the operation that failed. -/
theorem replacement_allOrNothing (hone : fs.AtMostOne) (hstaging : disk paths.staging = absent) :
    (∀ (host : PxeHost) (sourcePath : String) {source : SourceNode} (_ : source.WellNamed)
      (bios uefi : String) {agent : Option AgentBinary}
      (_ : agent.isSome → ∀ path, paths.workspacePath <+: path → source.itemAt path = none),
      KeepsOrReplaces paths.root (disk paths.root)
        (fun tree => ∃ new, importedTree fs tools source agent = .ok new ∧
          IsNewTree fs paths agent.isSome new tree)
        (importInner fs paths tools host sourcePath source bios uefi agent) disk) ∧
    ∀ (selection : Except PxeServiceError MediaSelection) (payload : List MediaFile)
      (agent : Option AgentBinary) (nativeIso : Option (Except PxeServiceError (List UInt8))),
      KeepsOrReplaces paths.root (disk paths.root)
        (fun tree => ∃ selected new, selection = .ok selected ∧
          newPackageTree tools selected payload (agent.map AgentBinary.digests) nativeIso =
            .ok new ∧
          IsNewTree fs paths agent.isSome new tree)
        (buildWinpePackageWithNativeIso fs paths tools selection payload agent nativeIso) disk :=
  ⟨fun host sourcePath _ hnamed bios uefi _ hfree =>
    importInner_keepsOrReplaces hone hstaging host sourcePath hnamed bios uefi hfree,
    build_keepsOrReplaces hone hstaging⟩

end Calls

/-! ### A package with leftovers -/

/-- A run in which only the removal of the workspace fails. -/
private def workspaceFaults : PackageFaults where
  fails op := op == .removeWorkspace
  leaves _ path := if path = ["boot", ".easydeploymesh-mount-1"] then some .directory else none
  error _ := .io "The directory is not empty."
  replaces _ := false

/-- The names of the replacement of the example. -/
private def samplePaths : ReplacementPaths where
  root := "pxe"
  staging := ".pxe-package-1"
  backup := "pxe.old-1"
  workspace := ".easydeploymesh-mount-1"
  staging_ne_root := by decide
  backup_ne_root := by decide
  backup_ne_staging := by decide
  isHidden_workspace := by decide
  rootText := "pxe"
  stagedText := fun path => "/".intercalate path

/-- The managed root is a file, and nothing else is there. -/
private def sampleDisk : PackageDisk := fun name path =>
  if name = "pxe" ∧ path = [] then some (.file (.text "old")) else none

/-- The tools of the example. -/
private def sampleTools : BootTools where
  detectLoaderPath _ := .ok "\\Windows\\System32\\winload.exe"
  writeCleanBcd _ _ := .ok ()
  injectAgent wim _ := .ok (wim ++ [1])
  normalizeSocketAddr := some
  undionly := [2]
  ipxeEfi := [3]
  wimboot := [4]

/-- The Agent of the example. -/
private def sampleAgent : AgentBinary where
  path := "agent.exe"
  isFile := true
  digests := { agent := "a", runtime := "b" }

/-- The choice from the media of the example. -/
private def sampleSelection : MediaSelection where
  edgelessPayload := none
  wim := { path := ["sources", "boot.wim"], contents := [5] }
  loaderPath := "\\Windows\\System32\\winload.exe"
  usmBootmgr := none
  bootmgr := { path := ["bootmgr"], contents := [6] }
  sdi := { path := ["boot", "boot.sdi"], contents := [7] }

/-- The source directory of the example. -/
private def sampleSource : SourceNode :=
  .directory "media" [.file "ipxe.efi" (.bytes [3]),
    .directory "boot" [.file "boot.wim" (.bytes [5]), .symlink "latest"]]

private theorem atMostOne_workspaceFaults : workspaceFaults.AtMostOne := by
  intro i j hi hj
  rw [show i = .removeWorkspace from beq_iff_eq.1 hi,
    show j = .removeWorkspace from beq_iff_eq.1 hj]

private theorem wellNamed_sampleSource : sampleSource.WellNamed := by
  refine .directory (by decide) ?_
  simp only [List.forall_mem_cons]
  refine ⟨.file, .directory (by decide) ?_, fun _ h => absurd h List.not_mem_nil⟩
  simp only [List.forall_mem_cons]
  exact ⟨.file, .symlink, fun _ h => absurd h List.not_mem_nil⟩

/-- The sample build with the failing removal. -/
private def sampleBuild : PackageIO BootPackage :=
  buildWinpePackageWithNativeIso workspaceFaults samplePaths sampleTools (.ok sampleSelection) []
    (some sampleAgent) none

/-- What lies in the managed root where the workspace was, after the build. -/
private def leftover : EStateM.Result PxeServiceError PackageDisk BootPackage → Option DiskItem
  | .ok _ after => after samplePaths.root samplePaths.workspacePath
  | .error _ _ => none

/-- One failing removal, and the managed package is not exactly the new one. -/
theorem not_build_keepsOrReplaces_exactly :
    workspaceFaults.AtMostOne ∧ sampleDisk samplePaths.staging = absent ∧
      ¬ KeepsOrReplaces samplePaths.root (sampleDisk samplePaths.root)
        (fun tree => newPackageTree sampleTools sampleSelection [] (some sampleAgent.digests) none =
          .ok tree) sampleBuild sampleDisk := by
  have hleft : leftover (sampleBuild sampleDisk) = some .directory := by decide +kernel
  have hnew : (newPackageTree sampleTools sampleSelection [] (some sampleAgent.digests)
      none).toOption.bind (fun tree => tree samplePaths.workspacePath) = none := by decide +kernel
  refine ⟨atMostOne_workspaceFaults, rfl, fun h => ?_⟩
  cases hrun : sampleBuild sampleDisk with
  | ok result after =>
    rw [KeepsOrReplaces.iff_of_ok hrun] at h
    rw [h] at hnew
    rw [hrun] at hleft
    cases hnew.symm.trans hleft
  | error error after =>
    rw [hrun] at hleft
    cases hleft

/-- The host of the example. -/
private def sampleHost : PxeHost where
  isAbsolute _ := false
  components path := [.normal path]
  isDir _ := true
  isFile _ _ := true

/-- Both calls at the sample, with the failing removal. -/
theorem replacement_allOrNothing_sample :
    KeepsOrReplaces samplePaths.root (sampleDisk samplePaths.root)
        (fun tree => ∃ new, importedTree workspaceFaults sampleTools sampleSource
          (some sampleAgent) = .ok new ∧ IsNewTree workspaceFaults samplePaths true new tree)
        (importInner workspaceFaults samplePaths sampleTools sampleHost "media" sampleSource
          "undionly.kpxe" "ipxe.efi" (some sampleAgent)) sampleDisk ∧
      KeepsOrReplaces samplePaths.root (sampleDisk samplePaths.root)
        (fun tree => ∃ selected new,
          (.ok sampleSelection : Except PxeServiceError MediaSelection) = .ok selected ∧
          newPackageTree sampleTools selected [] (some sampleAgent.digests) none = .ok new ∧
            IsNewTree workspaceFaults samplePaths true new tree) sampleBuild sampleDisk := by
  obtain ⟨himport, hbuild⟩ := @replacement_allOrNothing workspaceFaults samplePaths sampleTools
    sampleDisk atMostOne_workspaceFaults rfl
  refine ⟨himport sampleHost "media" wellNamed_sampleSource "undionly.kpxe" "ipxe.efi"
    fun _ path hpath => ?_, hbuild (.ok sampleSelection) [] (some sampleAgent) none⟩
  obtain ⟨rest, rfl⟩ := hpath
  rfl

end EasyDeployMesh
