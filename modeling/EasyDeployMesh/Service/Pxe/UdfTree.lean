import EasyDeployMesh.Service.Pxe.Extraction

/-!
# Accepted UDF trees

`validate_udf_tree` walks a tree with a stack of its own, `extract_udf_tree` by recursion. Both see
the same nodes: the node itself and, for a directory, what its children see. An accepted tree has a
bounded number of these nodes at a bounded depth, the names of the children of each directory are
plain and differ without case, and every file has its data in the image.

## Main definitions

* `EasyDeployMesh.TreeNode.visits`: the nodes that are seen, each with the names that lead to it.
* `EasyDeployMesh.TreeNode.Sound`: what the checks of a node say.
* `EasyDeployMesh.TreeNode.fileBytes`: the number of bytes of the files.

## Main results

* `EasyDeployMesh.paths_extractUdfTree`: the paths that an extraction creates.
* `EasyDeployMesh.accepted_of_validateUdfTree`: what an accepted tree is like.
-/

namespace EasyDeployMesh

open Foundations

variable {ε P : Type}

/-- The paths of what an extraction has created. -/
def Extraction.paths (run : Extraction ε P) : List P := run.created.map Creation.path

/-! ### Visited nodes -/

namespace TreeNode

mutual

/-- The nodes that are seen from a node on, each with the names of the path `names` and those that
lead to it. -/
def visits : TreeNode → List String → List (TreeNode × List String)
  | mk name isDirectory size fileLocation fileLength children, names =>
    (mk name isDirectory size fileLocation fileLength children, names) ::
      if isDirectory then visitsOfChildren children names else []

/-- The nodes of a list of children, each with the path to it. -/
def visitsOfChildren : List TreeNode → List String → List (TreeNode × List String)
  | [], _ => []
  | child :: children, names =>
    visits child (names ++ [child.name]) ++ visitsOfChildren children names

end

theorem visitsOfChildren_eq (children : List TreeNode) (names : List String) :
    visitsOfChildren children names =
      children.flatMap fun child => visits child (names ++ [child.name]) := by
  induction children with
  | nil => rfl
  | cons child children ih => rw [visitsOfChildren, ih, List.flatMap_cons]

/-- A node is seen, and what its children see if it is a directory. -/
theorem visits_eq (node : TreeNode) (names : List String) :
    node.visits names = (node, names) :: if node.isDirectory then
      node.children.flatMap fun child => visits child (names ++ [child.name]) else [] := by
  cases node
  rw [visits, visitsOfChildren_eq]
  rfl

/-- Induction over a tree: a property of a node follows from that of its children. -/
@[elab_as_elim]
theorem induct {motive : TreeNode → Prop}
    (step : ∀ node, (∀ child ∈ node.children, motive child) → motive node) (node : TreeNode) :
    motive node :=
  step node fun child _hchild => induct step child
termination_by sizeOf node
decreasing_by
  cases node
  have hlt := List.sizeOf_lt_of_mem _hchild
  simp only [children] at hlt
  simp only [mk.sizeOf_spec]
  omega

/-- The names in front of a node are in front of all that is seen from it. -/
theorem visits_names (node : TreeNode) (names : List String) :
    node.visits names = (node.visits []).map fun v => (v.1, names ++ v.2) := by
  induction node using induct generalizing names with
  | step node ih =>
    rw [visits_eq node names, visits_eq node []]
    split_ifs
    · rw [List.map_cons, List.append_nil, List.map_flatMap]
      refine congrArg _ (List.flatMap_congr fun child hchild => ?_)
      rw [ih child hchild (names ++ [child.name]), ih child hchild ([] ++ [child.name]),
        List.map_map]
      simp
    · simp

/-- The nodes that are seen from a node on: itself, and those seen from its children. -/
theorem visits_cases (node : TreeNode) :
    node.visits [] = (node, []) :: if node.isDirectory then
      node.children.flatMap fun child =>
        (child.visits []).map fun v => (v.1, child.name :: v.2) else [] := by
  rw [visits_eq]
  simp only [List.nil_append]
  split_ifs
  · exact congrArg _ (List.flatMap_congr fun child _ => visits_names child [child.name])
  · rfl

/-- The number of nodes that are seen from a node on. -/
def nodeCount (node : TreeNode) : ℕ := (node.visits []).length

/-- The number of bytes of a file. -/
def dataLength (node : TreeNode) : ℕ :=
  if node.isDirectory then 0 else (node.fileLength.getD 0).toNat

/-- The number of bytes of the files that are seen from a node on. -/
def fileBytes (node : TreeNode) : ℕ := ((node.visits []).map fun v => v.1.dataLength).sum

theorem nodeCount_eq (node : TreeNode) :
    node.nodeCount =
      1 + if node.isDirectory then (node.children.map fun child => child.nodeCount).sum else 0 := by
  rw [nodeCount, visits_cases]
  split_ifs
  · rw [List.length_cons, List.length_flatMap, Nat.add_comm]
    simp only [List.length_map]
    rfl
  · rfl

theorem fileBytes_eq (node : TreeNode) :
    node.fileBytes =
      node.dataLength +
        if node.isDirectory then (node.children.map fun child => child.fileBytes).sum else 0 := by
  rw [fileBytes, visits_cases]
  split_ifs
  · rw [List.map_cons, List.sum_cons, List.flatMap_def, List.map_flatten, List.sum_flatten]
    simp only [List.map_map, Function.comp_def]
    rfl
  · simp

end TreeNode

/-! ### Created paths -/

/-- The planned paths are created in order, all of them if the extraction succeeds. -/
def Extraction.Follows (run : Extraction ε P) (planned : List P) : Prop :=
  ∃ rest, planned = run.paths ++ rest ∧ (run.result = .ok () → rest = [])

namespace Extraction

variable {first second : Extraction ε P} {planned planned' : List P}

theorem Follows.andThen (hfirst : first.Follows planned) (hsecond : second.Follows planned') :
    (first.andThen second).Follows (planned ++ planned') := by
  obtain ⟨rest, rfl, hrest⟩ := hfirst
  obtain ⟨rest', rfl, hrest'⟩ := hsecond
  cases hresult : first.result with
  | ok =>
    refine ⟨rest', ?_, fun hok => hrest' (by simpa only [Extraction.andThen, hresult] using hok)⟩
    simp only [Extraction.andThen, hresult, hrest hresult, paths, List.map_append, List.append_nil,
      List.append_assoc]
  | error error =>
    have hthen : first.andThen second = first := by simp only [Extraction.andThen, hresult]
    refine ⟨rest ++ (second.paths ++ rest'), by rw [hthen, List.append_assoc], fun hok => ?_⟩
    rw [hthen, hresult] at hok
    exact absurd hok (by simp)

end Extraction

section Udf

variable {join : P → String → P} {read : TreeNode → Except UdfError (List UInt8)}

theorem extractUdfTree_eq (node : TreeNode) (target : P) :
    extractUdfTree join read node target =
      if node.isDirectory then
        (Extraction.create (.directory target)).andThen
          (extractUdfChildren join read node.children target)
      else .file target (read node) := by
  cases node
  rw [extractUdfTree]
  rfl

theorem follows_extractUdfChildren {children : List TreeNode} {names : List String} {target : P}
    (h : ∀ child ∈ children, ∀ names : List String,
      (extractUdfTree join read child (names.foldl join target)).Follows
        ((child.visits names).map fun v => v.2.foldl join target)) :
    (extractUdfChildren join read children (names.foldl join target)).Follows
      ((children.flatMap fun child => child.visits (names ++ [child.name])).map
        fun v => v.2.foldl join target) := by
  induction children with
  | nil => exact ⟨[], rfl, fun _ => rfl⟩
  | cons child children ih =>
    rw [List.forall_mem_cons] at h
    rw [extractUdfChildren, List.flatMap_cons, List.map_append]
    refine Extraction.Follows.andThen ?_ (ih h.2)
    have hchild := h.1 (names ++ [child.name])
    rwa [List.foldl_append] at hchild

/-- The paths of an extraction are those of the nodes that are seen. -/
theorem follows_extractUdfTree (node : TreeNode) (names : List String) (target : P) :
    (extractUdfTree join read node (names.foldl join target)).Follows
      ((node.visits names).map fun v => v.2.foldl join target) := by
  induction node using TreeNode.induct generalizing names with
  | step node ih =>
    rw [TreeNode.visits_eq, extractUdfTree_eq, List.map_cons, ← List.singleton_append]
    by_cases hdirectory : node.isDirectory = true
    · rw [if_pos hdirectory, if_pos hdirectory]
      exact Extraction.Follows.andThen ⟨[], rfl, fun _ => rfl⟩ (follows_extractUdfChildren ih)
    · rw [if_neg hdirectory, if_neg hdirectory]
      refine ⟨[], ?_, fun _ => rfl⟩
      cases hread : read node <;> rfl

end Udf

/-! ### Accepted trees -/

/-- What the checks of a node say of it, in an image of `mediaLen` bytes. -/
structure TreeNode.Sound (mediaLen : UInt64) (node : TreeNode) : Prop where
  names : node.isDirectory = true → ∀ child ∈ node.children, isUnsafeName child.name = false
  distinct : node.isDirectory = true →
    (node.children.map fun child => Text.toAsciiLowercase child.name).Nodup
  extent : node.isDirectory = false → ∃ offset length, node.fileLocation = some offset ∧
    node.fileLength = some length ∧ offset.toNat + length.toNat ≤ mediaLen.toNat

/-- The children that pass the check have plain names that differ without case. -/
theorem forall_of_checkNames {seen : List String} {children : List TreeNode}
    (h : checkNames seen children = .ok ()) :
    (∀ child ∈ children, isUnsafeName child.name = false) ∧
      (children.map fun child => Text.toAsciiLowercase child.name).Nodup ∧
      ∀ name ∈ seen, name ∉ children.map fun child => Text.toAsciiLowercase child.name := by
  induction children generalizing seen with
  | nil => exact ⟨fun _ h => absurd h List.not_mem_nil, List.nodup_nil, fun _ _ => List.not_mem_nil⟩
  | cons child children ih =>
    rw [checkNames] at h
    split_ifs at h with hrefused hseen
    obtain ⟨hnames, hnodup, hdisjoint⟩ := ih h
    rw [List.forall_mem_cons] at hdisjoint
    rw [Bool.not_eq_true] at hrefused
    refine ⟨List.forall_mem_cons.2 ⟨hrefused, hnames⟩,
      List.nodup_cons.2 ⟨hdisjoint.1, hnodup⟩, fun name hname => ?_⟩
    rw [List.map_cons, List.mem_cons, not_or]
    exact ⟨fun heq => hseen (heq ▸ hname), hdisjoint.2 name hname⟩

theorem TreeNode.extent_eq_some_iff {node : TreeNode} {offset length : UInt64} :
    node.extent = some (offset, length) ↔
      node.fileLocation = some offset ∧ node.fileLength = some length := by
  unfold TreeNode.extent
  cases node.fileLocation <;> cases node.fileLength <;> simp

/-- A file that passes the check has its data in the image, and the data are counted. -/
theorem extent_of_checkExtent {mediaLen maxExtracted extracted extracted' : UInt64}
    {node : TreeNode} (h : checkExtent mediaLen maxExtracted extracted node = .ok extracted') :
    ∃ offset length, node.fileLocation = some offset ∧ node.fileLength = some length ∧
      offset.toNat + length.toNat ≤ mediaLen.toNat ∧
      extracted'.toNat = extracted.toNat + length.toNat ∧ extracted' ≤ maxExtracted := by
  unfold checkExtent at h
  split at h
  next => cases h
  next offset length hextent =>
    obtain ⟨hlocation, hlength⟩ := TreeNode.extent_eq_some_iff.1 hextent
    split_ifs at h with hinvalid
    split at h
    next => cases h
    next sum hsum =>
      split_ifs at h with hlimit
      obtain rfl := Except.ok.inj h
      rw [not_or, not_not] at hinvalid
      refine ⟨offset, length, hlocation, hlength, ?_, toNat_of_checkedAdd hsum,
        UInt64.not_lt.1 hlimit⟩
      cases hend : checkedAdd offset length with
      | none => exact absurd (by rw [hend]; rfl) hinvalid.2
      | some last =>
        rw [hend, Option.all_some, decide_eq_true_iff, UInt64.not_lt] at hinvalid
        rw [← toNat_of_checkedAdd hend]
        exact UInt64.le_iff_toNat_le.1 hinvalid.2

/-- What is counted and checked while the nodes in `pending` are visited. -/
structure WalkBounds (mediaLen maxExtracted : UInt64) (entries : ℕ) (extracted : UInt64)
    (pending : List (TreeNode × ℕ)) : Prop where
  sound : ∀ p ∈ pending, ∀ v ∈ p.1.visits [], v.1.Sound mediaLen
  depth : ∀ p ∈ pending, ∀ v ∈ p.1.visits [], p.2 + v.2.length ≤ maxUdfDepth
  count : entries + (pending.map fun p => p.1.nodeCount).sum ≤ maxUdfEntries
  bytes : extracted.toNat + (pending.map fun p => p.1.fileBytes).sum ≤ maxExtracted.toNat

variable {mediaLen maxExtracted : UInt64}

/-- A directory that passes its check, in front of the nodes that are still pending. -/
theorem WalkBounds.directory {entries : ℕ} {extracted : UInt64} {pending : List (TreeNode × ℕ)}
    {node : TreeNode} {depth : ℕ} (hdirectory : node.isDirectory = true)
    (hdepth : depth ≤ maxUdfDepth)
    (hsound : node.Sound mediaLen)
    (h : WalkBounds mediaLen maxExtracted (entries + 1) extracted
      ((node.children.map fun child => (child, depth + 1)).reverse ++ pending)) :
    WalkBounds mediaLen maxExtracted entries extracted ((node, depth) :: pending) := by
  have hvisits : ∀ v ∈ node.visits [], v = (node, []) ∨
      ∃ child ∈ node.children, ∃ w ∈ child.visits [], v = (w.1, child.name :: w.2) := by
    intro v hv
    rw [node.visits_cases, if_pos hdirectory, List.mem_cons] at hv
    refine hv.imp id fun hv => ?_
    obtain ⟨child, hchild, hv⟩ := List.mem_flatMap.1 hv
    obtain ⟨w, hw, rfl⟩ := List.mem_map.1 hv
    exact ⟨child, hchild, w, hw, rfl⟩
  have hchildren : ∀ child ∈ node.children, (child, depth + 1) ∈
      (node.children.map fun child => (child, depth + 1)).reverse ++ pending := fun child hchild =>
    List.mem_append_left _ (List.mem_reverse.2 (List.mem_map_of_mem hchild))
  refine ⟨?_, ?_, ?_, ?_⟩
  · refine List.forall_mem_cons.2 ⟨fun v hv => ?_, fun p hp => ?_⟩
    · rcases hvisits v hv with rfl | ⟨child, hchild, w, hw, rfl⟩
      · exact hsound
      · exact h.sound _ (hchildren child hchild) w hw
    · exact h.sound p (List.mem_append_right _ hp)
  · refine List.forall_mem_cons.2 ⟨fun v hv => ?_, fun p hp => ?_⟩
    · rcases hvisits v hv with rfl | ⟨child, hchild, w, hw, rfl⟩
      · exact hdepth
      · have hchildDepth := h.depth _ (hchildren child hchild) w hw
        simp only [List.length_cons] at hchildDepth ⊢
        omega
    · exact h.depth p (List.mem_append_right _ hp)
  · have hcount := h.count
    simp only [List.map_append, List.map_reverse, List.map_map, List.sum_append, List.sum_reverse,
      Function.comp_def] at hcount
    rw [List.map_cons, List.sum_cons, node.nodeCount_eq, if_pos hdirectory]
    omega
  · have hbytes := h.bytes
    simp only [List.map_append, List.map_reverse, List.map_map, List.sum_append, List.sum_reverse,
      Function.comp_def] at hbytes
    rw [List.map_cons, List.sum_cons, node.fileBytes_eq, if_pos hdirectory, TreeNode.dataLength,
      if_pos hdirectory]
    omega

/-- A file that passes its check, in front of the nodes that are still pending. -/
theorem WalkBounds.file {entries : ℕ} {extracted extracted' length : UInt64}
    {pending : List (TreeNode × ℕ)} {node : TreeNode} {depth : ℕ}
    (hfile : node.isDirectory = false) (hdepth : depth ≤ maxUdfDepth) (hsound : node.Sound mediaLen)
    (hlength : node.fileLength = some length)
    (hextracted : extracted'.toNat = extracted.toNat + length.toNat)
    (h : WalkBounds mediaLen maxExtracted (entries + 1) extracted' pending) :
    WalkBounds mediaLen maxExtracted entries extracted ((node, depth) :: pending) := by
  have hnot : ¬ node.isDirectory = true := by simp [hfile]
  have hvisits : node.visits [] = [(node, [])] := by rw [node.visits_cases, if_neg hnot]
  refine ⟨?_, ?_, ?_, ?_⟩
  · refine List.forall_mem_cons.2 ⟨fun v hv => ?_, h.sound⟩
    rw [hvisits, List.mem_singleton] at hv
    exact hv ▸ hsound
  · refine List.forall_mem_cons.2 ⟨fun v hv => ?_, h.depth⟩
    rw [hvisits, List.mem_singleton] at hv
    exact hv ▸ hdepth
  · have hcount := h.count
    rw [List.map_cons, List.sum_cons, node.nodeCount_eq, if_neg hnot]
    omega
  · have hbytes := h.bytes
    rw [List.map_cons, List.sum_cons, node.fileBytes_eq, if_neg hnot, TreeNode.dataLength,
      if_neg hnot, hlength, Option.getD_some]
    omega

/-- The walk over an accepted stack of nodes. -/
theorem walkBounds_of_validateUdfNodes {entries : ℕ} {extracted : UInt64}
    {pending : List (TreeNode × ℕ)} (hentries : entries ≤ maxUdfEntries)
    (hextracted : extracted ≤ maxExtracted)
    (h : validateUdfNodes mediaLen maxExtracted entries extracted pending = .ok ()) :
    WalkBounds mediaLen maxExtracted entries extracted pending := by
  fun_induction validateUdfNodes mediaLen maxExtracted entries extracted pending with
  | case1 entries extracted =>
    refine ⟨fun p hp => absurd hp List.not_mem_nil, fun p hp => absurd hp List.not_mem_nil, ?_, ?_⟩
    · simpa using hentries
    · simpa using UInt64.le_iff_toNat_le.1 hextracted
  | case2 | case3 | case4 => cases h
  | case5 entries extracted node depth pending hcount hdepth hdirectory hnames ih =>
    obtain ⟨hsafe, hdistinct, -⟩ := forall_of_checkNames hnames
    refine (ih (by omega) hextracted h).directory hdirectory (by omega) ⟨fun _ => hsafe,
      fun _ => hdistinct, fun hfile => ?_⟩
    exact absurd hdirectory (by simp [hfile])
  | case6 => cases h
  | case7 entries extracted node depth pending hcount hdepth hfile extracted' hextent ih =>
    obtain ⟨offset, length, hlocation, hlength, hinside, hsum, hlimit⟩ :=
      extent_of_checkExtent hextent
    rw [Bool.not_eq_true] at hfile
    refine (ih (by omega) hlimit h).file hfile (by omega)
      ⟨fun hdirectory => ?_, fun hdirectory => ?_,
        fun _ => ⟨offset, length, hlocation, hlength, hinside⟩⟩
      hlength hsum
    · exact absurd hdirectory (by simp [hfile])
    · exact absurd hdirectory (by simp [hfile])

/-- An accepted tree in an image of `mediaLen` bytes. -/
structure TreeNode.Accepted (mediaLen : UInt64) (root : TreeNode) : Prop where
  sound : ∀ v ∈ root.visits [], v.1.Sound mediaLen
  depth : ∀ v ∈ root.visits [], v.2.length ≤ maxUdfDepth
  count : root.nodeCount ≤ maxUdfEntries
  bytes : root.fileBytes ≤ 2 * mediaLen.toNat

theorem accepted_of_validateUdfTree {root : TreeNode} (h : validateUdfTree root mediaLen = .ok ()) :
    root.Accepted mediaLen := by
  unfold validateUdfTree at h
  split at h
  next => cases h
  next maxExtracted hmax =>
    have hwalk := walkBounds_of_validateUdfNodes (Nat.zero_le _) (UInt64.zero_le) h
    have hmax := toNat_of_checkedMul hmax
    have htwo : (2 : UInt64).toNat = 2 := rfl
    rw [htwo] at hmax
    have hcount := hwalk.count
    have hbytes := hwalk.bytes
    simp only [List.map_cons, List.map_nil, List.sum_cons, List.sum_nil,
      UInt64.toNat_zero] at hcount hbytes
    refine ⟨hwalk.sound _ List.mem_cons_self, fun v hv => ?_, by omega, by omega⟩
    have hdepth := hwalk.depth _ List.mem_cons_self v hv
    omega

end EasyDeployMesh
