import EasyDeployMesh.Service.Pxe.UdfTree

/-!
# Bounds of the extraction of a UDF image

The extraction of an accepted tree is bounded, and it writes no file twice: the paths that it
creates differ, also on a host that does not tell upper from lower case. The names of siblings
differ without case, and a path names its chain of siblings from the root on.

## Main definitions

* `EasyDeployMesh.foldedPath`: a path without case.
* `EasyDeployMesh.BoundedExtraction`: the bounds of an extraction.

## Main results

* `EasyDeployMesh.nodup_visits`: no two nodes are seen with the same path.
* `EasyDeployMesh.boundedExtraction_of_validateUdfTree`: the bounds of an accepted tree.
-/

namespace EasyDeployMesh

open Foundations

/-- A path without the difference between upper and lower case ASCII letters. -/
def foldedPath (path : List String) : List String := path.map Text.toAsciiLowercase

variable {mediaLen : UInt64}

/-- No two nodes are seen with the same path. -/
theorem nodup_visits {node : TreeNode} (h : ∀ v ∈ node.visits [], v.1.Sound mediaLen) :
    ((node.visits []).map fun v => foldedPath v.2).Nodup := by
  induction node using TreeNode.induct with
  | step node ih =>
    rw [node.visits_cases] at h ⊢
    rw [List.map_cons, List.nodup_cons]
    by_cases hdirectory : node.isDirectory = true
    · rw [if_pos hdirectory] at h ⊢
      rw [List.forall_mem_cons] at h
      rw [List.map_flatMap]
      refine ⟨fun hmem => ?_, List.nodup_flatMap.2 ⟨fun child hchild => ?_, ?_⟩⟩
      · -- the path of the node is shorter than those of its children
        obtain ⟨child, -, hpath⟩ := List.mem_flatMap.1 hmem
        simp [foldedPath] at hpath
      · have hsound : ∀ v ∈ child.visits [], v.1.Sound mediaLen := fun v hv =>
          h.2 (v.1, child.name :: v.2)
            (List.mem_flatMap.2 ⟨child, hchild, List.mem_map.2 ⟨v, hv, rfl⟩⟩)
        have hnodup := (ih child hchild hsound).map
          (List.cons_injective (a := Text.toAsciiLowercase child.name))
        rwa [List.map_map] at hnodup ⊢
      · -- the paths of different children begin with different names
        have hdistinct := List.pairwise_map.1 ((h.1.distinct hdirectory))
        refine hdistinct.imp fun {a b} hne => List.disjoint_left.2 fun path ha hb => ?_
        obtain ⟨v, hv, rfl⟩ := List.mem_map.1 ha
        obtain ⟨w, hw, hpath⟩ := List.mem_map.1 hb
        obtain ⟨v', -, rfl⟩ := List.mem_map.1 hv
        obtain ⟨w', -, rfl⟩ := List.mem_map.1 hw
        exact hne (List.cons.inj hpath).1.symm
    · rw [if_neg hdirectory]
      exact ⟨List.not_mem_nil, List.nodup_nil⟩

/-! ### The extraction -/

/-- The path of an entry of a directory. -/
def appendName (path : List String) (name : String) : List String := path ++ [name]

theorem foldl_appendName (target names : List String) :
    names.foldl appendName target = target ++ names := by
  induction names generalizing target with
  | nil => exact (List.append_nil target).symm
  | cons name names ih =>
    rw [List.foldl_cons, ih, appendName, List.append_assoc, List.singleton_append]

/-- At most 100,000 nodes are visited, at a depth of at most 32; the paths that are created are
among theirs and differ without case; every file has its data in the image; and the data of all
files are at most twice the image. -/
structure BoundedExtraction (mediaLen : UInt64) (root : TreeNode) (target : List String)
    (run : Extraction UdfError (List String)) : Prop where
  count : (root.visits []).length ≤ 100000
  depth : ∀ v ∈ root.visits [], v.2.length ≤ 32
  follows : run.Follows ((root.visits []).map fun v => target ++ v.2)
  distinct : (run.paths.map foldedPath).Nodup
  inside : ∀ v ∈ root.visits [], v.1.isDirectory = false →
    ∃ offset length, v.1.fileLocation = some offset ∧ v.1.fileLength = some length ∧
      offset.toNat + length.toNat ≤ mediaLen.toNat
  total : ((root.visits []).map fun v => v.1.dataLength).sum ≤ 2 * mediaLen.toNat

/-- The extraction of an accepted tree is bounded, whatever of its files can be read. -/
theorem boundedExtraction_of_validateUdfTree {root : TreeNode}
    (h : validateUdfTree root mediaLen = .ok ()) (target : List String)
    (read : TreeNode → Except UdfError (List UInt8)) :
    BoundedExtraction mediaLen root target (extractUdfTree appendName read root target) := by
  have haccepted := accepted_of_validateUdfTree h
  have hfollows := @follows_extractUdfTree _ appendName read root [] target
  simp only [foldl_appendName, List.append_nil] at hfollows
  refine ⟨haccepted.count, haccepted.depth, hfollows, ?_,
    fun v hv => (haccepted.sound v hv).extent, haccepted.bytes⟩
  obtain ⟨rest, hrest, -⟩ := hfollows
  -- the created paths are the first ones of the visited nodes, behind the target
  have hnodup :=
    (nodup_visits haccepted.sound).map (List.append_right_injective (foldedPath target))
  have hmap : ((root.visits []).map fun v => foldedPath v.2).map (foldedPath target ++ ·) =
      (extractUdfTree appendName read root target).paths.map foldedPath ++ rest.map foldedPath := by
    rw [← List.map_append, ← hrest, List.map_map, List.map_map]
    exact List.map_congr_left fun v _ => (List.map_append).symm
  rw [hmap] at hnodup
  exact hnodup.of_append_left

/-- A root directory with a directory and two files. -/
def labTree : TreeNode :=
  .mk "/" true 0 none none
    [.mk "BOOT" true 0 none none [.mk "bootmgr" false 3 (some 10) (some 3) []],
      .mk "readme.txt" false 4 (some 20) (some 4) []]

theorem boundedExtraction_labTree :
    BoundedExtraction 24 labTree ["srv"]
      (extractUdfTree appendName (fun _ => .ok [1, 2, 3]) labTree ["srv"]) :=
  boundedExtraction_of_validateUdfTree (by decide +kernel) _ _

end EasyDeployMesh
