import EasyDeployMesh.Service.Pxe.UdfTree

/-!
# Where boot media are extracted to

The paths that an extraction creates are the target directory joined, one after the other, with the
names of a chain of nested records. `copy_iso_directory` joins the names as the image has them, so a
name with `..`, an absolute name or one with a drive leads out of the target. `validate_udf_tree`
refuses such names, but for a drive prefix, which replaces the target on Windows.

## Main definitions

* `EasyDeployMesh.IsoImage.Chain`: the chains of names of the records below an extent.
* `EasyDeployMesh.IsoImage.Contained`, `EasyDeployMesh.TreeNode.Contained`: whatever the target is,
  everything that is created lies beneath it.

## Main results

* `EasyDeployMesh.creates_copyIsoDirectory`: the paths of a copied directory.
* `EasyDeployMesh.contained_iff_of_copyIsoDirectory`,
  `EasyDeployMesh.contained_iff_of_validateUdfTree`: the images of each kind whose extraction is
  contained.
* `EasyDeployMesh.containedExtraction_iff`: both of them.
-/

namespace EasyDeployMesh

open Foundations

variable {ε P P' : Type}

namespace Extraction

variable {first run : Option (Extraction ε P)} {next : List (Creation P) → Option (Extraction ε P)}

/-- The extraction comes to an end, and that without an error. -/
def Succeeds (run : Option (Extraction ε P)) : Prop :=
  ∃ a, run = some a ∧ a.result = .ok ()

/-- Two extractions in a row that succeed. -/
theorem succeeds_andThenSome_iff :
    Succeeds (andThenSome first next) ↔
      ∃ a, first = some a ∧ a.result = .ok () ∧ Succeeds (next a.created) := by
  cases first with
  | none => simp [Succeeds, andThenSome]
  | some a =>
    cases hresult : a.result <;> simp [Succeeds, andThenSome, hresult]

/-- An extraction behind `created` creates planned paths only, and all of them if it succeeds. -/
structure Creates (run : Extraction ε P) (created : List (Creation P)) (planned : P → Prop) :
    Prop where
  planned_of_mem : ∀ path ∈ run.paths, path ∈ created.map Creation.path ∨ planned path
  mem : run.result = .ok () →
    ∀ path, path ∈ created.map Creation.path ∨ planned path → path ∈ run.paths

namespace Creates

variable {a : Extraction ε P} {created : List (Creation P)} {planned planned' : P → Prop}

theorem congr (h : a.Creates created planned) (hplanned : ∀ path, planned path ↔ planned' path) :
    a.Creates created planned' := by
  obtain rfl : planned = planned' := funext fun path => propext (hplanned path)
  exact h

/-- Nothing is planned, and nothing is created. -/
theorem unchanged (result : Except ε Unit) :
    (⟨created, result⟩ : Extraction ε P).Creates created fun _ => False where
  planned_of_mem _ hpath := Or.inl hpath
  mem _ _ hpath := hpath.resolve_right id

/-- The planned paths of two extractions in a row. -/
theorem of_andThenSome (h : andThenSome first next = some a)
    (hfirst : ∀ b, first = some b → b.Creates created planned)
    (hnext : ∀ created' b, next created' = some b → b.Creates created' planned') :
    a.Creates created fun path => planned path ∨ planned' path := by
  obtain ⟨b, rfl, hrest⟩ := Option.bind_eq_some_iff.1 h
  have hb := hfirst b rfl
  split at hrest
  next hok =>
    have ha := hnext b.created a hrest
    refine ⟨fun path hpath => ?_, fun haok path hpath => ?_⟩
    · rcases ha.planned_of_mem path hpath with hcreated | hplanned
      · exact (hb.planned_of_mem path hcreated).imp_right Or.inl
      · exact Or.inr (Or.inr hplanned)
    · rcases or_assoc.2 hpath with hpath | hpath
      · exact ha.mem haok path (Or.inl (hb.mem hok path hpath))
      · exact ha.mem haok path (Or.inr hpath)
  next error herror =>
    obtain rfl := Option.some.inj hrest
    refine ⟨fun path hpath => (hb.planned_of_mem path hpath).imp_right Or.inl, fun hok => ?_⟩
    rw [herror] at hok
    exact absurd hok (by simp)

end Creates

/-- How two extractions in a row end depends on how each of them ends. -/
theorem result_andThen (first second : Extraction ε P) :
    (first.andThen second).result =
      match first.result with
      | .ok () => second.result
      | .error error => .error error := by
  unfold andThen
  cases hresult : first.result <;> simp [hresult]

end Extraction

/-! ### Chains of records -/

/-- The names of records that lie one in the other below the directory at an extent. -/
inductive IsoImage.Chain (image : IsoImage) : Extent → List String → Prop
  | here (extent : Extent) : Chain image extent []
  | file {extent : Extent} {entries : List IsoEntry} {entry : IsoEntry}
      (hread : image.readDirectory extent = .ok entries) (hentry : entry ∈ entries)
      (hspecial : entry.isSpecial = false) (hfile : entry.directory = false) :
      Chain image extent [entry.name]
  | step {extent : Extent} {entries : List IsoEntry} {entry : IsoEntry} {names : List String}
      (hread : image.readDirectory extent = .ok entries) (hentry : entry ∈ entries)
      (hspecial : entry.isSpecial = false) (hdirectory : entry.directory = true)
      (hchain : Chain image entry.extent names) : Chain image extent (entry.name :: names)

/-- The chains that begin with a record. -/
def IsoImage.ChainOf (image : IsoImage) (entry : IsoEntry) (names : List String) : Prop :=
  entry.isSpecial = false ∧
    ((entry.directory = false ∧ names = [entry.name]) ∨
      (entry.directory = true ∧ ∃ tail, image.Chain entry.extent tail ∧ names = entry.name :: tail))

theorem IsoImage.chain_iff {image : IsoImage} {extent : Extent} {entries : List IsoEntry}
    (hread : image.readDirectory extent = .ok entries) {names : List String} :
    image.Chain extent names ↔ names = [] ∨ ∃ entry ∈ entries, image.ChainOf entry names := by
  constructor
  · intro h
    cases h with
    | here => exact Or.inl rfl
    | file hread' hentry hspecial hfile =>
      obtain rfl := Except.ok.inj (hread.symm.trans hread')
      exact Or.inr ⟨_, hentry, hspecial, Or.inl ⟨hfile, rfl⟩⟩
    | step hread' hentry hspecial hdirectory hchain =>
      obtain rfl := Except.ok.inj (hread.symm.trans hread')
      exact Or.inr ⟨_, hentry, hspecial, Or.inr ⟨hdirectory, _, hchain, rfl⟩⟩
  · rintro (rfl | ⟨entry, hentry, hspecial, ⟨hfile, rfl⟩ | ⟨hdirectory, tail, hchain, rfl⟩⟩)
    · exact .here extent
    · exact .file hread hentry hspecial hfile
    · exact .step hread hentry hspecial hdirectory hchain

/-- The names of a chain are those of records of the image. -/
theorem IsoImage.Chain.exists_record {image : IsoImage} {extent : Extent} {names : List String}
    (h : image.Chain extent names) :
    ∀ name ∈ names, ∃ directory entries, image.readDirectory directory = .ok entries ∧
      ∃ entry ∈ entries, entry.isSpecial = false ∧ entry.name = name := by
  induction h with
  | here => exact fun name hname => absurd hname List.not_mem_nil
  | @file extent entries entry hread hentry hspecial _ =>
    intro name hname
    exact ⟨extent, entries, hread, entry, hentry, hspecial, (List.mem_singleton.1 hname).symm⟩
  | @step extent entries entry names hread hentry hspecial _ _ ih =>
    exact List.forall_mem_cons.2 ⟨⟨extent, entries, hread, entry, hentry, hspecial, rfl⟩, ih⟩

section Iso

variable {fs : FileSystem P} {join : P → String → P} {image : IsoImage} {fuel : ℕ} {extent : Extent}
  {target destination path : P} {created : List (Creation P)} {run : Extraction PxeServiceError P}
  {copy : Extent → P → List (Creation P) → Option (Extraction PxeServiceError P)}

theorem paths_copyIsoReads {contents : List UInt8} {reads : List (Except String (List UInt8))} :
    (copyIsoReads fs created destination contents reads).paths =
      created.map Creation.path ++ [destination] := by
  induction reads generalizing contents with
  | nil => simp [copyIsoReads, Extraction.paths, Creation.path]
  | cons read reads ih =>
    cases read with
    | error error => simp [copyIsoReads, Extraction.paths, Creation.path]
    | ok part =>
      rw [copyIsoReads]
      split_ifs
      · simp [Extraction.paths, Creation.path]
      · split
        · simp [Extraction.paths, Creation.path]
        · exact ih

/-- A copied file creates its path. -/
theorem creates_copyIsoFile {entry : IsoEntry} :
    (copyIsoFile fs image created destination entry).Creates created (destination = ·) := by
  unfold copyIsoFile
  split
  · refine ⟨fun path hpath => Or.inl hpath, fun hok => absurd hok (by simp)⟩
  · constructor
    · intro path hpath
      simpa [paths_copyIsoReads, eq_comm] using hpath
    · intro _ path hpath
      simpa [paths_copyIsoReads, eq_comm] using hpath

/-- The paths that the copy of one record creates. -/
theorem creates_copyIsoEntry
    (hcopy : ∀ {extent target created run}, copy extent target created = some run →
      run.Creates created fun path =>
        ∃ names, image.Chain extent names ∧ names.foldl join target = path)
    {entry : IsoEntry} (h : copyIsoEntry fs join image copy target entry created = some run) :
    run.Creates created fun path =>
      ∃ names, image.ChainOf entry names ∧ names.foldl join target = path := by
  unfold copyIsoEntry at h
  split_ifs at h with hspecial hdirectory
  · obtain rfl := Option.some.inj h
    refine (Extraction.Creates.unchanged (.ok ())).congr fun path => ?_
    simp [IsoImage.ChainOf, hspecial]
  · refine (hcopy h).congr fun path => ⟨?_, ?_⟩
    · rintro ⟨names, hchain, rfl⟩
      exact ⟨entry.name :: names,
        ⟨by simpa using hspecial, Or.inr ⟨hdirectory, names, hchain, rfl⟩⟩, rfl⟩
    · rintro ⟨names, ⟨-, ⟨hfile, -⟩ | ⟨-, tail, hchain, rfl⟩⟩, rfl⟩
      · exact absurd hdirectory (by simp [hfile])
      · exact ⟨tail, hchain, rfl⟩
  · obtain rfl := Option.some.inj h
    refine creates_copyIsoFile.congr fun path => ⟨?_, ?_⟩
    · rintro rfl
      exact ⟨[entry.name], ⟨by simpa using hspecial, Or.inl ⟨by simpa using hdirectory, rfl⟩⟩, rfl⟩
    · rintro ⟨names, ⟨-, ⟨-, rfl⟩ | ⟨hdirectory', -⟩⟩, rfl⟩
      · rfl
      · exact absurd hdirectory' hdirectory

theorem creates_copyIsoEntries
    (hcopy : ∀ {extent target created run}, copy extent target created = some run →
      run.Creates created fun path =>
        ∃ names, image.Chain extent names ∧ names.foldl join target = path)
    {entries : List IsoEntry}
    (h : copyIsoEntries fs join image copy target entries created = some run) :
    run.Creates created fun path => ∃ entry ∈ entries, ∃ names, image.ChainOf entry names ∧
      names.foldl join target = path := by
  induction entries generalizing created run with
  | nil =>
    obtain rfl := Option.some.inj h
    exact (Extraction.Creates.unchanged (.ok ())).congr fun path => by simp
  | cons entry entries ih =>
    refine (Extraction.Creates.of_andThenSome h (fun a ha => creates_copyIsoEntry hcopy ha)
      fun created' b hb => ih hb).congr fun path => ?_
    simp only [List.mem_cons, exists_eq_or_imp]

/-- A directory that is copied has the paths of the chains below its extent, as far as the copy
comes. -/
theorem creates_copyIsoDirectory
    (h : copyIsoDirectory fs join image fuel extent target created = some run) :
    run.Creates created fun path =>
      ∃ names, image.Chain extent names ∧ names.foldl join target = path := by
  induction fuel generalizing extent target created run with
  | zero => exact absurd h (by simp [copyIsoDirectory])
  | succ fuel ih =>
    rw [copyIsoDirectory] at h
    split at h
    · obtain rfl := Option.some.inj h
      exact ⟨fun path hpath => Or.inl hpath, fun hok => absurd hok (by simp)⟩
    · split at h
      next error hread =>
        obtain rfl := Option.some.inj h
        refine ⟨fun path hpath => ?_, fun hok => absurd hok (by simp)⟩
        simp only [Extraction.paths, List.map_append, List.mem_append] at hpath
        refine hpath.imp_right fun hpath => ⟨[], .here extent, ?_⟩
        simpa [Creation.path, eq_comm] using hpath
      next entries hread =>
        have hentries := creates_copyIsoEntries ih h
        -- the chains below the extent: the one without a name, and those that begin with a record
        have hchains :
            ∀ path, (∃ names, image.Chain extent names ∧ names.foldl join target = path) ↔
            target = path ∨ ∃ entry ∈ entries, ∃ names, image.ChainOf entry names ∧
              names.foldl join target = path := by
          intro path
          simp only [image.chain_iff hread, or_and_right, exists_or, exists_eq_left, List.foldl_nil]
          refine or_congr_right ⟨?_, ?_⟩
          · rintro ⟨names, ⟨entry, hentry, hchain⟩, hpath⟩
            exact ⟨entry, hentry, names, hchain, hpath⟩
          · rintro ⟨entry, hentry, names, hchain, hpath⟩
            exact ⟨names, ⟨entry, hentry, hchain⟩, hpath⟩
        refine ⟨fun path hpath => ?_, fun hok path hpath => hentries.mem hok path ?_⟩
        · rw [hchains, ← or_assoc]
          simpa [Creation.path, eq_comm] using hentries.planned_of_mem path hpath
        · rw [hchains, ← or_assoc] at hpath
          simpa [Creation.path, eq_comm] using hpath

/-! ### Copies that succeed -/

variable {join' : P' → String → P'} {target' destination' : P'} {created' : List (Creation P')}
  {copy' : Extent → P' → List (Creation P') → Option (Extraction PxeServiceError P')}

/-- Where nothing is refused, a file is copied if that has succeeded anywhere. -/
theorem result_copyIsoFile_accepting {entry : IsoEntry}
    (h : (copyIsoFile fs image created destination entry).result = .ok ()) :
    (copyIsoFile .accepting image created' destination' entry).result = .ok () := by
  have hreads : ∀ contents contents' reads,
      (copyIsoReads fs created destination contents reads).result = .ok () →
      (copyIsoReads .accepting created' destination' contents' reads).result = .ok () := by
    intro contents contents' reads
    induction reads generalizing contents contents' with
    | nil => exact fun _ => rfl
    | cons read reads ih =>
      cases read with
      | error error => exact fun hok => absurd hok (by simp [copyIsoReads])
      | ok part =>
        rw [copyIsoReads, copyIsoReads]
        split_ifs
        · exact fun _ => rfl
        · split
          · exact fun hok => absurd hok (by simp)
          · exact ih _ _
  unfold copyIsoFile at h ⊢
  split at h
  · exact absurd h (by simp)
  · exact hreads _ _ _ h

theorem succeeds_copyIsoEntries_accepting
    (hcopy : ∀ {extent target created} target' created',
      Extraction.Succeeds (copy extent target created) →
        Extraction.Succeeds (copy' extent target' created'))
    {entries : List IsoEntry}
    (h : Extraction.Succeeds (copyIsoEntries fs join image copy target entries created)) :
    Extraction.Succeeds
      (copyIsoEntries .accepting join' image copy' target' entries created') := by
  induction entries generalizing created created' with
  | nil => exact ⟨_, rfl, rfl⟩
  | cons entry entries ih =>
    obtain ⟨a, ha, haok, hrest⟩ := Extraction.succeeds_andThenSome_iff.1 h
    have hentry : Extraction.Succeeds
        (copyIsoEntry .accepting join' image copy' target' entry created') := by
      unfold copyIsoEntry at ha ⊢
      split_ifs at ha ⊢ with hspecial hdirectory
      · exact ⟨_, rfl, rfl⟩
      · exact hcopy _ _ ⟨a, ha, haok⟩
      · obtain rfl := Option.some.inj ha
        exact ⟨_, rfl, result_copyIsoFile_accepting haok⟩
    obtain ⟨b, hb, hbok⟩ := hentry
    exact Extraction.succeeds_andThenSome_iff.2 ⟨b, hb, hbok, ih hrest⟩

/-- Where nothing is refused, a directory is copied to every target if that has succeeded
anywhere. -/
theorem succeeds_copyIsoDirectory_accepting (target' : P') (created' : List (Creation P'))
    (h : Extraction.Succeeds (copyIsoDirectory fs join image fuel extent target created)) :
    Extraction.Succeeds
      (copyIsoDirectory .accepting join' image fuel extent target' created') := by
  induction fuel generalizing extent target created target' created' with
  | zero =>
    obtain ⟨a, ha, -⟩ := h
    exact absurd ha (by simp [copyIsoDirectory])
  | succ fuel ih =>
    rw [copyIsoDirectory] at h ⊢
    split at h
    · obtain ⟨a, ha, haok⟩ := h
      obtain rfl := Option.some.inj ha
      exact absurd haok (by simp)
    · simp only [FileSystem.accepting]
      split at h
      · obtain ⟨a, ha, haok⟩ := h
        obtain rfl := Option.some.inj ha
        exact absurd haok (by simp)
      · refine succeeds_copyIsoEntries_accepting ?_ h
        intro extent target created target' created' hcopied
        exact ih target' created' hcopied

end Iso

/-! ### Containment -/

/-- On some file system, the copy of the directory at an extent ends well. -/
def IsoImage.CopySucceeds (image : IsoImage) (p : Platform) (fuel : ℕ) (extent : Extent) : Prop :=
  ∃ fs target run, copyIsoDirectory fs p.join image fuel extent target [] = some run ∧
    run.result = .ok ()

/-- Whatever the file system and the target are, the copy creates nothing that does not lie beneath
the target. -/
def IsoImage.Contained (image : IsoImage) (p : Platform) (fuel : ℕ) (extent : Extent) : Prop :=
  ∀ fs target run, copyIsoDirectory fs p.join image fuel extent target [] = some run →
    ∀ path ∈ run.paths, target.Beneath path

/-- A copy that ends well is contained when each chain of nested records stays beneath. -/
theorem contained_iff_of_copyIsoDirectory {p : Platform} {image : IsoImage} {fuel : ℕ}
    {extent : Extent} (h : image.CopySucceeds p fuel extent) :
    image.Contained p fuel extent ↔ ∀ names, image.Chain extent names → p.StaysBeneath names := by
  obtain ⟨fs₀, target₀, run₀, hcopy₀, hok₀⟩ := h
  constructor
  · intro hcontained names hchain
    refine forall_beneath_foldl_join_iff.1 fun target => ?_
    obtain ⟨run, hcopy, hok⟩ : Extraction.Succeeds
        (copyIsoDirectory .accepting p.join image fuel extent target []) :=
      succeeds_copyIsoDirectory_accepting target [] ⟨run₀, hcopy₀, hok₀⟩
    exact hcontained .accepting target run hcopy _
      ((creates_copyIsoDirectory hcopy).mem hok _ (Or.inr ⟨names, hchain, rfl⟩))
  · intro hstays fs target run hcopy path hpath
    rcases (creates_copyIsoDirectory hcopy).planned_of_mem path hpath with hnil | hplanned
    · exact absurd hnil (by simp)
    · obtain ⟨names, hchain, rfl⟩ := hplanned
      exact forall_beneath_foldl_join_iff.2 (hstays names hchain) target

theorem isPlainName_of_isUnsafeName {name : String} (h : isUnsafeName name = false) :
    IsPlainName name := by
  simp only [isUnsafeName, Text.containsChar, Bool.or_eq_false_iff, decide_eq_false_iff_not,
    List.contains_eq_mem] at h
  obtain ⟨⟨⟨⟨⟨hempty, hdot⟩, hdotDot⟩, hslash⟩, hbackslash⟩, -⟩ := h
  exact ⟨hempty, hdot, hdotDot, hslash, hbackslash⟩

/-- The names that lead to the nodes of an accepted tree are plain. -/
theorem isPlainName_of_sound {mediaLen : UInt64} {node : TreeNode}
    (h : ∀ v ∈ node.visits [], v.1.Sound mediaLen) :
    ∀ v ∈ node.visits [], ∀ name ∈ v.2, IsPlainName name := by
  induction node using TreeNode.induct with
  | step node ih =>
    rw [node.visits_cases] at h ⊢
    rw [List.forall_mem_cons] at h ⊢
    refine ⟨fun name hname => absurd hname List.not_mem_nil, fun v hv => ?_⟩
    split_ifs at hv h with hdirectory
    · obtain ⟨child, hchild, hv⟩ := List.mem_flatMap.1 hv
      obtain ⟨w, hw, rfl⟩ := List.mem_map.1 hv
      refine List.forall_mem_cons.2
        ⟨isPlainName_of_isUnsafeName (h.1.names hdirectory child hchild), ?_⟩
      refine ih child hchild (fun v hv => ?_) w hw
      exact h.2 (v.1, child.name :: v.2)
        (List.mem_flatMap.2 ⟨child, hchild, List.mem_map.2 ⟨v, hv, rfl⟩⟩)
    · exact absurd hv List.not_mem_nil

theorem result_extractUdfTree (join : P → String → P) (join' : P' → String → P')
    (read : TreeNode → Except UdfError (List UInt8)) (node : TreeNode) (target : P) (target' : P') :
    (extractUdfTree join read node target).result =
      (extractUdfTree join' read node target').result := by
  induction node using TreeNode.induct generalizing target target' with
  | step node ih =>
    have hchildren : ∀ children, (∀ child ∈ children, child ∈ node.children) →
        (extractUdfChildren join read children target).result =
          (extractUdfChildren join' read children target').result := by
      intro children hmem
      induction children with
      | nil => rfl
      | cons child children ihChildren =>
        rw [List.forall_mem_cons] at hmem
        rw [extractUdfChildren, extractUdfChildren, Extraction.result_andThen,
          Extraction.result_andThen, ih child hmem.1 _ (join' target' child.name),
          ihChildren hmem.2]
    rw [extractUdfTree_eq, extractUdfTree_eq]
    split_ifs
    · rw [Extraction.result_andThen, Extraction.result_andThen,
        hchildren node.children fun child hchild => hchild]
      rfl
    · cases read node <;> rfl

/-- Whatever the target is, the extraction creates nothing that does not lie beneath it. -/
def TreeNode.Contained (root : TreeNode) (p : Platform)
    (read : TreeNode → Except UdfError (List UInt8)) : Prop :=
  ∀ target, ∀ path ∈ (extractUdfTree p.join read root target).paths, target.Beneath path

/-- The extraction of an accepted tree is contained, but for drive prefixes on Windows. -/
theorem contained_iff_of_validateUdfTree {p : Platform} {root : TreeNode} {mediaLen : UInt64}
    {read : TreeNode → Except UdfError (List UInt8)} (h : validateUdfTree root mediaLen = .ok ())
    {target₀ : HostPath} (hok : (extractUdfTree p.join read root target₀).result = .ok ()) :
    root.Contained p read ↔
      p = .unix ∨ ∀ v ∈ root.visits [], ∀ name ∈ v.2, hasDrivePrefix name.toList = false := by
  have hplain := isPlainName_of_sound (accepted_of_validateUdfTree h).sound
  have hpaths : ∀ target, (extractUdfTree p.join read root target).paths =
      (root.visits []).map fun v => v.2.foldl p.join target := by
    intro target
    obtain ⟨rest, hrest, hnil⟩ := @follows_extractUdfTree _ p.join read root [] target
    rw [hnil ((result_extractUdfTree p.join p.join read root target target₀).trans hok),
      List.append_nil] at hrest
    exact hrest.symm
  have hstays : root.Contained p read ↔ ∀ v ∈ root.visits [], p.StaysBeneath v.2 := by
    unfold TreeNode.Contained
    simp only [hpaths, List.forall_mem_map, ← forall_beneath_foldl_join_iff]
    exact ⟨fun h v hv target => h target v hv, fun h target v hv => h v hv target⟩
  rw [hstays]
  constructor
  · intro h
    by_cases hunix : p = .unix
    · exact Or.inl hunix
    · exact Or.inr fun v hv =>
        ((staysBeneath_plain_iff (hplain v hv)).1 (h v hv)).resolve_left hunix
  · intro h v hv
    exact (staysBeneath_plain_iff (hplain v hv)).2 (h.imp_right fun h => h v hv)

/-- An ISO 9660 image is extracted beneath every target exactly when its chains of names stay
beneath, and an accepted UDF tree exactly when the host is not Windows or no name has a drive
prefix. -/
theorem containedExtraction_iff (p : Platform) :
    (∀ (image : IsoImage) (fuel : ℕ) (extent : Extent), image.CopySucceeds p fuel extent →
      (image.Contained p fuel extent ↔
        ∀ names, image.Chain extent names → p.StaysBeneath names)) ∧
    ∀ (root : TreeNode) (mediaLen : UInt64) (read : TreeNode → Except UdfError (List UInt8))
        (target₀ : HostPath), validateUdfTree root mediaLen = .ok () →
        (extractUdfTree p.join read root target₀).result = .ok () →
      (root.Contained p read ↔
        p = .unix ∨ ∀ v ∈ root.visits [], ∀ name ∈ v.2, hasDrivePrefix name.toList = false) :=
  ⟨fun _ _ _ => contained_iff_of_copyIsoDirectory,
    fun _ _ _ _ h hok => contained_iff_of_validateUdfTree h hok⟩

/-- Media with a directory in the root directory and another one in it. -/
def nestedMedia : IsoImage where
  readDirectory extent := .ok <|
    if extent.1 = 20 then
      [⟨".", true, 20, 2048⟩, ⟨"..", true, 20, 2048⟩, ⟨"BOOTMGR", false, 40, 5⟩,
        ⟨"sources", true, 21, 2048⟩]
    else if extent.1 = 21 then
      [⟨".", true, 21, 2048⟩, ⟨"..", true, 20, 2048⟩, ⟨"boot.wim", false, 41, 3⟩,
        ⟨"zh-cn", true, 22, 2048⟩]
    else
      [⟨".", true, 22, 2048⟩, ⟨"..", true, 21, 2048⟩, ⟨"setup.exe.mui", false, 42, 0⟩]
  readFile entry := if entry.dataLength = 0 then [] else [.ok [77, 90], .ok [0]]

/-- The same media as a UDF tree. -/
def nestedTree : TreeNode :=
  .mk "" true 0 none none
    [.mk "BOOTMGR" false 3 (some 81920) (some 3) [],
      .mk "sources" true 0 none none
        [.mk "boot.wim" false 3 (some 83968) (some 3) [],
          .mk "zh-cn" true 0 none none [.mk "setup.exe.mui" false 0 (some 86016) (some 0) []]]]

theorem contained_nestedMedia :
    nestedMedia.Contained .windows 3 (20, 2048) ∧
      nestedTree.Contained .windows fun node => .ok (List.replicate node.size.toNat 0) := by
  have hcopy : nestedMedia.CopySucceeds .windows 3 (20, 2048) :=
    ⟨.accepting, ⟨"D:\\", ["srv"]⟩, _, rfl, rfl⟩
  have hrecords : ∀ directory entries, nestedMedia.readDirectory directory = .ok entries →
      ∀ entry ∈ entries, entry.isSpecial = false →
        isUnsafeName entry.name = false ∧ hasDrivePrefix entry.name.toList = false := by
    intro directory entries hread
    rw [← Except.ok.inj hread]
    split_ifs <;> decide +kernel
  refine ⟨((containedExtraction_iff .windows).1 _ _ _ hcopy).2 fun names hchain => ?_,
    ((containedExtraction_iff .windows).2 nestedTree 4096000 _ ⟨"D:\\", ["srv"]⟩
      (by decide +kernel) (by decide +kernel)).2 (Or.inr (by decide +kernel))⟩
  have hnames : ∀ name ∈ names, isUnsafeName name = false ∧ hasDrivePrefix name.toList = false := by
    intro name hname
    obtain ⟨directory, entries, hread, entry, hentry, hspecial, rfl⟩ :=
      hchain.exists_record name hname
    exact hrecords directory entries hread entry hentry hspecial
  exact (staysBeneath_plain_iff fun name hname =>
    isPlainName_of_isUnsafeName (hnames name hname).1).2
      (Or.inr fun name hname => (hnames name hname).2)

/-- An image whose root directory has one record, that of a file without contents. -/
def singleFile (name : String) : IsoImage where
  readDirectory _ := .ok [⟨".", true, 20, 2048⟩, ⟨"..", true, 20, 2048⟩, ⟨name, false, 30, 0⟩]
  readFile _ := []

/-- The file is created in the directory that holds the target. -/
theorem contained_fails_of_dotDot :
    ¬ ∀ (p : Platform) (image : IsoImage) (fuel : ℕ) (extent : Extent),
      image.CopySucceeds p fuel extent → image.Contained p fuel extent := by
  intro h
  have hcopy : (singleFile "../evil").CopySucceeds .unix 1 (20, 2048) :=
    ⟨.accepting, ⟨"/", ["srv", "media"]⟩, _, rfl, rfl⟩
  have hbeneath := h .unix _ _ _ hcopy .accepting ⟨"/", ["srv", "media"]⟩ _ rfl
    ⟨"/", ["srv", "evil"]⟩ (by decide +kernel)
  exact absurd hbeneath.2 (by decide)

end EasyDeployMesh
