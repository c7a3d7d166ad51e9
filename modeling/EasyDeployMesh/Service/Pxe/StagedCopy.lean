import EasyDeployMesh.Service.Pxe.PackageReplacement

/-!
# What the copy of a directory stages

A directory that is imported holds its directories and regular files; links and other special files
are not part of it. Where the copy into the staging directory succeeds, it has put there what the
source holds, at the same relative paths.

## Main definitions

* `EasyDeployMesh.SourceNode.itemAt`: what a source holds at a path.
* `EasyDeployMesh.SourceNode.WellNamed`: no directory of the source has two entries of one name.

## Main results

* `EasyDeployMesh.stages_copyTree`: the copy, as a change of the staged tree.
* `EasyDeployMesh.copiedInto_absent`: the copy of a directory is what the source holds.
-/

namespace EasyDeployMesh

open Foundations FileTree

/-! ### What a source holds -/

namespace SourceNode

mutual

/-- What a source holds at a path below it. -/
def itemAt : SourceNode → ItemTree
  | .file _ contents, [] => some (.file contents)
  | .directory _ _, [] => some .directory
  | .directory _ entries, name :: path => itemIn entries name path
  | _, _ => none

/-- What a list of entries holds at a name and a path below it. -/
def itemIn : List SourceNode → String → ItemTree
  | [], _, _ => none
  | entry :: entries, name, path =>
    if entry.name = name then itemAt entry path else itemIn entries name path

end

/-- The entries of each directory have different names. -/
inductive WellNamed : SourceNode → Prop
  | file {name : String} {contents : PackageFile} : WellNamed (.file name contents)
  | symlink {name : String} : WellNamed (.symlink name)
  | special {name : String} : WellNamed (.special name)
  | directory {name : String} {entries : List SourceNode} :
    (entries.map SourceNode.name).Nodup → (∀ entry ∈ entries, WellNamed entry) →
    WellNamed (.directory name entries)

/-- The entry is a directory. -/
def isDirectory : SourceNode → Bool
  | .directory _ _ => true
  | _ => false

theorem itemIn_eq_none {entries : List SourceNode} {name : String}
    (h : name ∉ entries.map SourceNode.name) (path : List String) :
    itemIn entries name path = none := by
  induction entries with
  | nil => rw [itemIn]
  | cons entry entries ih =>
    rw [List.map_cons, List.mem_cons, not_or] at h
    rw [itemIn, if_neg (Ne.symm h.1), ih h.2]

/-- What lies above a path where something lies is a directory. -/
theorem itemAt_singleton_of_isSome {source : SourceNode} {name child : String} {path : List String}
    (h : (source.itemAt (name :: child :: path)).isSome) :
    source.itemAt [name] = some .directory := by
  cases source with
  | directory root entries =>
    rw [itemAt] at h ⊢
    induction entries with
    | nil =>
      rw [itemIn] at h
      cases h
    | cons entry entries ih =>
      rw [itemIn] at h ⊢
      split_ifs at h ⊢ with hname
      · cases entry with
        | directory _ _ => rw [itemAt]
        | file _ _ => cases h
        | symlink _ => cases h
        | special _ => cases h
      · exact ih h
  | file _ _ => cases h
  | symlink _ => cases h
  | special _ => cases h

end SourceNode

/-! ### The copy -/

/-- The tree after `create_dir_all`. -/
def withDirectories (path : List String) (tree : ItemTree) : ItemTree := fun place =>
  if place.isPrefixOf path && (tree place).isNone then some .directory else tree place

mutual

/-- The staged tree after a directory is copied to a path below it. -/
def copiedInto : SourceNode → List String → ItemTree → ItemTree
  | .directory _ entries, target, tree => copiedEntries entries target (withDirectories target tree)
  | _, _, tree => tree

/-- The tree behind the copy of a list of entries. -/
def copiedEntries : List SourceNode → List String → ItemTree → ItemTree
  | [], _, tree => tree
  | entry :: rest, target, tree =>
    copiedEntries rest target <| match entry with
      | .directory _ _ => copiedInto entry (target ++ [entry.name]) tree
      | .file _ contents => Function.update tree (target ++ [entry.name]) (some (.file contents))
      | _ => tree

end

section Stages

variable {fs : PackageFaults} {paths : ReplacementPaths}

theorem stages_stageFile {path : List String} {file : PackageFile} :
    Stages paths.staging (stageFile fs paths path file) fun tree =>
      .ok (Function.update tree path (some (.file file))) :=
  .put

theorem stages_createDirAll {i : PackageOperation} {path : List String} :
    Stages paths.staging (fs.createDirAll i paths.staging path .directory) fun tree =>
      .ok (withDirectories path tree) :=
  .perform

mutual

/-- The copy of a directory, as a change of the staged tree. -/
theorem stages_copyDirectory (name : String) (entries : List SourceNode) (target : List String) :
    Stages paths.staging (copyTree fs paths (.directory name entries) target) fun tree =>
      .ok (copiedInto (.directory name entries) target tree) := by
  rw [copyTree]
  exact stages_createDirAll.bind fun _ => Stages.inspect.bind fun _ =>
    stages_copyEntries entries target

theorem stages_copyEntries (entries : List SourceNode) (target : List String) :
    Stages paths.staging (copyEntries fs paths entries target) fun tree =>
      .ok (copiedEntries entries target tree) := by
  match entries with
  | [] =>
    rw [copyEntries]
    exact .inspect
  | .directory name children :: rest =>
    rw [copyEntries]
    exact Stages.inspect.bind fun _ => Stages.inspect.bind fun _ =>
      (stages_copyDirectory name children _).bind fun _ => stages_copyEntries rest target
  | .file name contents :: rest =>
    rw [copyEntries]
    exact Stages.inspect.bind fun _ => Stages.inspect.bind fun _ =>
      stages_stageFile.bind fun _ => stages_copyEntries rest target
  | .symlink name :: rest =>
    rw [copyEntries]
    exact Stages.inspect.bind fun _ => Stages.inspect.bind fun _ =>
      (Stages.pure ()).bind fun _ => stages_copyEntries rest target
  | .special name :: rest =>
    rw [copyEntries]
    exact Stages.inspect.bind fun _ => Stages.inspect.bind fun _ =>
      (Stages.pure ()).bind fun _ => stages_copyEntries rest target

end

/-- Where the copy of a source succeeds the source is a directory, and the copy is there. -/
theorem stages_copyTree (source : SourceNode) (target : List String) :
    Stages paths.staging (copyTree fs paths source target) fun tree =>
      if source.isDirectory then .ok (copiedInto source target tree)
      else .error (fs.error (.readDirectory target)) := by
  have hfails : Stages paths.staging
      (fs.createDirAll (.createDirectory target) paths.staging target .directory >>= fun _ =>
        (throw (fs.error (.readDirectory target)) : PackageIO Unit))
      fun _ => .error (fs.error (.readDirectory target)) := by
    have hthrow : Stages paths.staging (throw (fs.error (.readDirectory target)) : PackageIO Unit)
        fun _ => .error (fs.error (.readDirectory target)) := Stages.throw _
    exact stages_createDirAll.bind fun _ => hthrow
  cases source with
  | directory name entries => exact stages_copyDirectory name entries target
  | file name contents =>
    rw [copyTree]
    · exact hfails
    · rintro _ _ ⟨⟩
  | symlink name =>
    rw [copyTree]
    · exact hfails
    · rintro _ _ ⟨⟩
  | special name =>
    rw [copyTree]
    · exact hfails
    · rintro _ _ ⟨⟩

end Stages

/-! ### The copy is what the source holds -/

/-- Making a directory below directories adds the one item. -/
theorem withDirectories_eq_update {target : List String} {tree : ItemTree}
    (habove : ∀ place, place <+: target → place ≠ target → (tree place).isSome)
    (htarget : tree target = none) :
    withDirectories target tree = Function.update tree target (some .directory) := by
  funext place
  by_cases hplace : place = target
  · subst hplace
    rw [Function.update_self, withDirectories, htarget]
    simp
  · rw [Function.update_of_ne hplace, withDirectories]
    by_cases hprefix : place <+: target
    · have hsome := habove place hprefix hplace
      rw [Option.isNone_eq_false_iff.2 hsome, Bool.and_false]
      rfl
    · rw [Bool.eq_false_iff.2 fun h => hprefix (List.isPrefixOf_iff_prefix.1 h), Bool.false_and]
      rfl

/-- A tree with the items of a source grafted at a path. -/
structure IsGraft (items : ItemTree) (target : List String) (tree grafted : ItemTree) : Prop where
  inside : ∀ path, grafted (target ++ path) = items path
  outside : ∀ {place}, ¬ target <+: place → grafted place = tree place

private theorem append_singleton_append (target path : List String) (name : String) :
    target ++ [name] ++ path = target ++ name :: path := by
  rw [List.append_assoc, List.singleton_append]

/-- A single item at a path below which nothing lies. -/
private theorem isGraft_update {items : ItemTree} {target : List String} {tree : ItemTree}
    {item : Option DiskItem} (hitem : items [] = item)
    (hbelow : ∀ name path, items (name :: path) = none)
    (hfree : ∀ path, tree (target ++ path) = none) :
    IsGraft items target tree (Function.update tree target item) where
  inside path := by
    cases path with
    | nil => rw [List.append_nil, Function.update_self, hitem]
    | cons name path =>
      rw [Function.update_of_ne (by simp), hfree, hbelow]
  outside {place} h :=
    Function.update_of_ne (fun heq : place = target => h (heq ▸ List.prefix_rfl)) ..

/-- No item at a path below which nothing lies. -/
private theorem isGraft_self {items : ItemTree} {target : List String} {tree : ItemTree}
    (hitems : ∀ path, items path = none) (hfree : ∀ path, tree (target ++ path) = none) :
    IsGraft items target tree tree where
  inside path := (hfree path).trans (hitems path).symm
  outside _ := rfl

/-- Where a directory is copied to a free place below directories, it is grafted there. -/
def CopyGrafts (source : SourceNode) : Prop :=
  ∀ (target : List String) (tree : ItemTree),
    (∀ place, place <+: target → place ≠ target → (tree place).isSome) →
    (∀ path, tree (target ++ path) = none) →
    IsGraft source.itemAt target tree (copiedInto source target tree)

/-- What the first entry of a directory adds to the tree. -/
private theorem exists_isGraft_entry {entry : SourceNode} {rest : List SourceNode}
    {target : List String} {tree : ItemTree} (hcopy : entry.isDirectory = true → CopyGrafts entry)
    (hdirectories : ∀ place, place <+: target → (tree place).isSome)
    (hfree : ∀ path, tree (target ++ [entry.name] ++ path) = none) :
    ∃ between, copiedEntries (entry :: rest) target tree = copiedEntries rest target between ∧
      IsGraft entry.itemAt (target ++ [entry.name]) tree between := by
  cases entry with
  | directory name children =>
    refine ⟨_, by rw [copiedEntries], hcopy rfl _ tree (fun place hplace hne => ?_) hfree⟩
    exact hdirectories place ((List.prefix_concat_iff.1 hplace).resolve_left hne)
  | file name contents =>
    exact ⟨_, by rw [copiedEntries], isGraft_update (by rw [SourceNode.itemAt])
      (fun _ _ => by rw [SourceNode.itemAt] <;> simp) hfree⟩
  | symlink name =>
    exact ⟨_, by rw [copiedEntries] <;> simp,
      isGraft_self (fun path => by rw [SourceNode.itemAt] <;> simp) hfree⟩
  | special name =>
    exact ⟨_, by rw [copiedEntries] <;> simp,
      isGraft_self (fun path => by rw [SourceNode.itemAt] <;> simp) hfree⟩

/-- The entries of a directory are grafted one by one, and nothing else changes. -/
private theorem copiedEntries_eq {entries : List SourceNode}
    (hnodup : (entries.map SourceNode.name).Nodup)
    (hcopy : ∀ entry ∈ entries, entry.isDirectory = true → CopyGrafts entry)
    {target : List String} {tree : ItemTree}
    (hdirectories : ∀ place, place <+: target → (tree place).isSome)
    (hfree : ∀ name ∈ entries.map SourceNode.name, ∀ path, tree (target ++ name :: path) = none) :
    (∀ name ∈ entries.map SourceNode.name, ∀ path,
      copiedEntries entries target tree (target ++ name :: path) =
        SourceNode.itemIn entries name path) ∧
    ∀ place, (∀ name ∈ entries.map SourceNode.name, ∀ path, place ≠ target ++ name :: path) →
      copiedEntries entries target tree place = tree place := by
  induction entries generalizing tree with
  | nil => exact ⟨fun _ hname => absurd hname List.not_mem_nil, fun _ _ => by rw [copiedEntries]⟩
  | cons entry rest ih =>
    rw [List.map_cons, List.nodup_cons] at hnodup
    obtain ⟨between, hbetween, hgraft⟩ := @exists_isGraft_entry _ rest _ _
      (hcopy entry List.mem_cons_self) hdirectories fun path => by
        rw [append_singleton_append]
        exact hfree entry.name List.mem_cons_self path
    have hother : ∀ {name path}, name ≠ entry.name →
        between (target ++ name :: path) = tree (target ++ name :: path) := by
      intro name path hne
      refine hgraft.outside fun hprefix => hne ?_
      rw [List.prefix_append_right_inj] at hprefix
      exact (List.cons_prefix_cons.1 hprefix).1.symm
    obtain ⟨hinside, houtside⟩ := @ih hnodup.2
      (fun other hmem => hcopy other (List.mem_cons_of_mem _ hmem)) between
      (fun place hplace => by
        rw [hgraft.outside fun hprefix => ?_]
        · exact hdirectories place hplace
        · have hchain := hprefix.trans hplace
          have hlength := hchain.length_le
          simp only [List.length_append, List.length_singleton] at hlength
          omega)
      (fun name hname path => by
        rw [hother fun heq => hnodup.1 (heq ▸ hname)]
        exact hfree name (List.mem_cons_of_mem _ hname) path)
    refine ⟨fun name hname path => ?_, fun place hplace => ?_⟩
    · rw [hbetween, SourceNode.itemIn]
      split_ifs with heq
      · subst heq
        rw [houtside _ fun other hmem rest heq => ?_, ← append_singleton_append, hgraft.inside]
        rw [List.append_cancel_left_eq, List.cons.injEq] at heq
        exact hnodup.1 (heq.1 ▸ hmem)
      · rw [List.map_cons, List.mem_cons] at hname
        exact hinside name (hname.resolve_left (Ne.symm heq)) path
    · rw [hbetween, houtside place fun name hname path =>
        hplace name (List.mem_cons_of_mem _ hname) path]
      refine hgraft.outside ?_
      rintro ⟨path, hpath⟩
      rw [append_singleton_append] at hpath
      exact hplace entry.name List.mem_cons_self path hpath.symm

/-- A directory copied to a free place below directories is grafted there. -/
private theorem copyGrafts_of_wellNamed {source : SourceNode} (hnamed : source.WellNamed)
    (hdirectory : source.isDirectory = true) : CopyGrafts source := by
  induction hnamed with
  | file => cases hdirectory
  | symlink => cases hdirectory
  | special => cases hdirectory
  | @directory root entries hnodup _ ih =>
    intro target tree habove hfree
    have hmade : withDirectories target tree = Function.update tree target (some .directory) :=
      withDirectories_eq_update habove (by simpa using hfree [])
    have hdirectories : ∀ place, place <+: target → (withDirectories target tree place).isSome := by
      intro place hplace
      rw [hmade]
      by_cases heq : place = target
      · rw [heq, Function.update_self]
        rfl
      · rw [Function.update_of_ne heq]
        exact habove place hplace heq
    have hbelow : ∀ name path, withDirectories target tree (target ++ name :: path) = none := by
      intro name path
      rw [hmade, Function.update_of_ne (by simp), hfree]
    obtain ⟨hinside, houtside⟩ := copiedEntries_eq hnodup ih hdirectories
      fun name _ path => hbelow name path
    rw [copiedInto]
    refine ⟨fun path => ?_, fun {place} hplace => ?_⟩
    · cases path with
      | nil =>
        rw [List.append_nil, houtside target (by simp), hmade, Function.update_self,
          SourceNode.itemAt]
      | cons child path =>
        rw [SourceNode.itemAt]
        by_cases hchild : child ∈ entries.map SourceNode.name
        · exact hinside child hchild path
        · rw [SourceNode.itemIn_eq_none hchild, houtside _ fun other hother rest heq => ?_, hbelow]
          rw [List.append_cancel_left_eq, List.cons.injEq] at heq
          exact hchild (heq.1 ▸ hother)
    · rw [houtside place fun other _ rest heq => hplace ⟨other :: rest, heq.symm⟩, hmade,
        Function.update_of_ne fun heq : place = target => hplace (heq ▸ List.prefix_rfl)]

/-- The copy of a directory to where nothing is holds what the directory holds. -/
theorem copiedInto_absent {source : SourceNode} (hdirectory : source.isDirectory = true)
    (hnamed : source.WellNamed) : copiedInto source [] absent = source.itemAt := by
  funext path
  exact (copyGrafts_of_wellNamed hnamed hdirectory [] absent
    (fun place hplace hne => absurd (List.prefix_nil.1 hplace) hne) fun _ => rfl).inside path

end EasyDeployMesh
