import EasyDeployMesh.Foundations.Result
import Mathlib.Logic.Function.Basic

/-!
# Work on a disk whose operations may fail

A disk has named entries, and below each of them a tree of items by relative path. A run on it goes
on with what it has done so far: an operation that fails leaves anything where it was at work, and
nothing else changes. Renaming an entry is atomic. Which operations of a run fail, and what they
leave, is given from outside; an operation is known by its label.

The rules below follow one entry through a run. They say of a run that it works there only, and
which tree it makes of the tree that it finds where it succeeds.

## Main definitions

* `Foundations.FileTree`, `Foundations.DiskState`, `Foundations.DiskM`: trees, disks and runs.
* `Foundations.FaultyDisk`: how the operations behave, with `inspect`, `answer`, `perform`, `put`,
  `createDirAll`, `removeDirAll` and `rename`.
* `Foundations.attempt`, `Foundations.ensure`, `Foundations.orCleanUp`, `Foundations.withCleanUp`:
  failures at hand.
* `Foundations.Stages`: the run works on one entry and makes a tree there.
* `Foundations.KeepsOrReplaces`: after the run an entry has its old tree or a new one.

## Main results

* `Foundations.Stages.bind`, `Foundations.Stages.perform`, `Foundations.Stages.orCleanUp`,
  `Foundations.Stages.withCleanUp`: the rules.
* `Foundations.FaultyDisk.rename_cases`, `Foundations.FaultyDisk.rename_in_or_back`: renames.
* `Foundations.KeepsOrReplaces.of_stages`: a run that stages an entry and then swaps it in.
-/

namespace Foundations

variable {ι κ ν τ ε α β : Type}

/-! ### Disks and runs -/

/-- What lies below a place, by its relative path; `[]` is the place itself. -/
abbrev FileTree (κ τ : Type) := List κ → Option τ

namespace FileTree

/-- The tree of a place where nothing is. -/
def absent : FileTree κ τ := fun _ => none

/-- The one tree in a region, and the other one outside. -/
def within (region : List κ → Bool) (inner outer : FileTree κ τ) : FileTree κ τ := fun path =>
  if region path then inner path else outer path

variable {region : List κ → Bool} {inner outer : FileTree κ τ} {path : List κ}

theorem within_of_region (h : region path = true) : within region inner outer path = inner path :=
  if_pos h

theorem within_of_not_region (h : region path = false) :
    within region inner outer path = outer path := by
  rw [within, h]
  rfl

/-- A tree that is outside the region as it is, and as `inner` says inside. -/
theorem within_eq_self (h : ∀ path, region path = true → outer path = inner path) :
    within region inner outer = outer := by
  funext path
  by_cases hpath : region path = true
  · rw [within_of_region hpath, h path hpath]
  · rw [within_of_not_region (Bool.eq_false_iff.2 hpath)]

variable [DecidableEq κ]

theorem within_update (h : region path = false) (item : Option τ) :
    within region inner (Function.update outer path item) =
      Function.update (within region inner outer) path item := by
  funext other
  by_cases hother : other = path
  · subst hother
    rw [within_of_not_region h, Function.update_self, Function.update_self]
  · rw [Function.update_of_ne hother]
    simp only [within, Function.update_of_ne hother]

end FileTree

open FileTree

/-- The named entries of a directory, and what lies below each of them. -/
abbrev DiskState (ν κ τ : Type) := ν → FileTree κ τ

/-- A run on a disk. What it has done stays done when it fails. -/
abbrev DiskM (ε ν κ τ : Type) := EStateM ε (DiskState ν κ τ)

/-- The disk that a run leaves behind. -/
def diskAfter : EStateM.Result ε (DiskState ν κ τ) α → DiskState ν κ τ
  | .ok _ disk => disk
  | .error _ disk => disk

/-- The outcome of a run, as a value. -/
def attempt (run : DiskM ε ν κ τ α) : DiskM ε ν κ τ (Except ε α) := fun disk =>
  match run disk with
  | .ok a disk => .ok (.ok a) disk
  | .error error disk => .ok (.error error) disk

/-- What lies below an entry. -/
def look (entry : ν) : DiskM ε ν κ τ (FileTree κ τ) := fun disk => .ok (disk entry) disk

/-- Stop with an error unless the condition holds. -/
def ensure (condition : Bool) (error : ε) : DiskM ε ν κ τ Unit :=
  if condition then pure () else throw error

/-- Clean up after a failure, as well as that goes, and fail. -/
def orCleanUp (run : DiskM ε ν κ τ α) (cleanUp : DiskM ε ν κ τ Unit) : DiskM ε ν κ τ α := do
  match ← attempt run with
  | .ok a => pure a
  | .error error =>
    let _ ← attempt cleanUp
    throw error

/-- Clean up afterwards, as well as that goes, and give the outcome. -/
def withCleanUp (run : DiskM ε ν κ τ α) (cleanUp : DiskM ε ν κ τ Unit) : DiskM ε ν κ τ α := do
  let result ← attempt run
  let _ ← attempt cleanUp
  MonadExcept.ofExcept result

/-- How the operations of a run behave. -/
structure FaultyDisk (ι κ τ ε : Type) where
  /-- The operation fails. -/
  fails : ι → Bool
  /-- What an operation that fails leaves where it was at work. -/
  leaves : ι → FileTree κ τ
  error : ι → ε
  /-- A rename may replace what lies at its target. -/
  replaces : FileTree κ τ → Bool

namespace FaultyDisk

variable (fs : FaultyDisk ι κ τ ε)

/-- At most one operation fails. -/
def AtMostOne : Prop := ∀ ⦃i j : ι⦄, fs.fails i = true → fs.fails j = true → i = j

/-- An operation that only reads. -/
def inspect (i : ι) : DiskM ε ν κ τ Unit := if fs.fails i then throw (fs.error i) else pure ()

/-- The answer to a question when a failure counts as no. -/
def answer (i : ι) (b : Bool) : Bool := !fs.fails i && b

variable [DecidableEq ν]

/-- An operation on a region of an entry. It does the whole change, or it fails and leaves anything
in the region. -/
def perform (i : ι) (entry : ν) (region : List κ → Bool)
    (change : Except ε (FileTree κ τ → FileTree κ τ)) : DiskM ε ν κ τ Unit := fun disk =>
  let damaged := Function.update disk entry (within region (fs.leaves i) (disk entry))
  if fs.fails i then .error (fs.error i) damaged
  else match change with
    | .ok change => .ok () (Function.update disk entry (change (disk entry)))
    | .error error => .error error damaged

/-- `fs::rename` of an entry. -/
def rename (i : ι) (source target : ν) : DiskM ε ν κ τ Unit := fun disk =>
  if fs.fails i || (disk source []).isNone ||
      ((disk target []).isSome && !fs.replaces (disk target)) then .error (fs.error i) disk
  else .ok () (Function.update (Function.update disk source absent) target (disk source))

variable [DecidableEq κ]

/-- Write an item at a path. -/
def put (i : ι) (entry : ν) (path : List κ) (item : τ) : DiskM ε ν κ τ Unit :=
  fs.perform i entry (fun place => place == path)
    (.ok fun tree => Function.update tree path (some item))

/-- `fs::create_dir_all` where no file is in the way. -/
def createDirAll (i : ι) (entry : ν) (path : List κ) (directory : τ) : DiskM ε ν κ τ Unit :=
  fs.perform i entry (fun place => place.isPrefixOf path) (.ok fun tree place =>
    if place.isPrefixOf path && (tree place).isNone then some directory else tree place)

/-- `fs::remove_dir_all`. -/
def removeDirAll (i : ι) (entry : ν) (path : List κ) : DiskM ε ν κ τ Unit :=
  fs.perform i entry (fun place => path.isPrefixOf place)
    (.ok (within (fun place => path.isPrefixOf place) absent))

/-- What removing a directory leaves of a tree, whether or not that succeeds. -/
def remnant (i : ι) (path : List κ) (tree : FileTree κ τ) : FileTree κ τ :=
  within (fun place => path.isPrefixOf place) (if fs.fails i then fs.leaves i else absent) tree

end FaultyDisk

/-- A removal, done or not, leaves its remnant. -/
theorem FaultyDisk.diskAfter_removeDirAll [DecidableEq ν] [DecidableEq κ]
    {fs : FaultyDisk ι κ τ ε} {i : ι} {entry : ν} {path : List κ} {disk : DiskState ν κ τ} :
    diskAfter (fs.removeDirAll i entry path disk) entry = fs.remnant i path (disk entry) := by
  unfold FaultyDisk.removeDirAll FaultyDisk.perform FaultyDisk.remnant
  split_ifs with hfails
  · exact Function.update_self ..
  · exact Function.update_self ..

/-! ### Work on one entry -/

/-- The run changes nothing but one entry. -/
def TouchesOnly (entry : ν) (run : DiskM ε ν κ τ α) : Prop :=
  ∀ disk other, other ≠ entry → diskAfter (run disk) other = disk other

/-- The run changes nothing but one entry, and where it succeeds the tree there is made from the
one that was there. -/
structure Stages (entry : ν) (run : DiskM ε ν κ τ α)
    (made : FileTree κ τ → Except ε (FileTree κ τ)) : Prop where
  touchesOnly : TouchesOnly entry run
  made_eq : ∀ {disk a after}, run disk = .ok a after → made (disk entry) = .ok (after entry)

section Rules

variable {entry : ν} {run : DiskM ε ν κ τ α} {next : α → DiskM ε ν κ τ β}
  {cleanUp : DiskM ε ν κ τ Unit} {made made' : FileTree κ τ → Except ε (FileTree κ τ)}
  {fs : FaultyDisk ι κ τ ε} {disk after : DiskState ν κ τ}

theorem bind_eq_of_ok {a : α} (h : run disk = .ok a after) :
    (run >>= next) disk = next a after := by
  simp only [bind, EStateM.bind, h]

theorem bind_eq_of_error {error : ε} (h : run disk = .error error after) :
    (run >>= next) disk = .error error after := by
  simp only [bind, EStateM.bind, h]

theorem attempt_eq_of_ok {a : α} (h : run disk = .ok a after) :
    attempt run disk = .ok (.ok a) after := by
  simp only [attempt, h]

theorem attempt_eq_of_error {error : ε} (h : run disk = .error error after) :
    attempt run disk = .ok (.error error) after := by
  simp only [attempt, h]

/-- An attempt has an outcome, and the disk of the run. -/
theorem exists_attempt_eq (run : DiskM ε ν κ τ α) (disk : DiskState ν κ τ) :
    ∃ outcome, attempt run disk = .ok outcome (diskAfter (run disk)) := by
  cases h : run disk with
  | ok a after => exact ⟨_, attempt_eq_of_ok h⟩
  | error error after => exact ⟨_, attempt_eq_of_error h⟩

/-- A failure that is cleaned up first is a failure. -/
theorem attempt_throw_eq (cleanUp : DiskM ε ν κ τ Unit) (error : ε) (disk : DiskState ν κ τ) :
    (attempt cleanUp >>= fun _ => (throw error : DiskM ε ν κ τ α)) disk =
      .error error (diskAfter (cleanUp disk)) := by
  obtain ⟨outcome, h⟩ := exists_attempt_eq cleanUp disk
  exact bind_eq_of_ok h

theorem orCleanUp_eq_of_ok {a : α} (h : run disk = .ok a after) :
    orCleanUp run cleanUp disk = .ok a after :=
  bind_eq_of_ok (attempt_eq_of_ok h)

theorem orCleanUp_eq_of_error {error : ε} (h : run disk = .error error after) :
    orCleanUp run cleanUp disk = .error error (diskAfter (cleanUp after)) :=
  (bind_eq_of_ok (attempt_eq_of_error h)).trans (attempt_throw_eq cleanUp error after)

/-- Nothing else is changed by a sequence whose parts change nothing else. -/
theorem TouchesOnly.bind (hrun : TouchesOnly entry run) (hnext : ∀ a, TouchesOnly entry (next a)) :
    TouchesOnly entry (run >>= next) := by
  intro disk other hother
  have hfirst := hrun disk other hother
  cases h : run disk with
  | ok a after =>
    rw [bind_eq_of_ok h, hnext a after other hother]
    rwa [h] at hfirst
  | error error after =>
    rw [bind_eq_of_error h]
    rwa [h] at hfirst

theorem TouchesOnly.attempt (hrun : TouchesOnly entry run) : TouchesOnly entry (attempt run) := by
  intro disk other hother
  obtain ⟨outcome, h⟩ := exists_attempt_eq run disk
  rw [h]
  exact hrun disk other hother

theorem touchesOnly_pure (a : α) : TouchesOnly entry (pure a : DiskM ε ν κ τ α) :=
  fun _ _ _ => rfl

theorem touchesOnly_throw (error : ε) : TouchesOnly entry (throw error : DiskM ε ν κ τ α) :=
  fun _ _ _ => rfl

theorem touchesOnly_ofExcept (x : Except ε α) :
    TouchesOnly entry (MonadExcept.ofExcept x : DiskM ε ν κ τ α) := by
  cases x with
  | ok a => exact touchesOnly_pure a
  | error error => exact touchesOnly_throw error

theorem touchesOnly_perform [DecidableEq ν] {i : ι} {region : List κ → Bool}
    {change : Except ε (FileTree κ τ → FileTree κ τ)} :
    TouchesOnly entry (fs.perform i entry region change) := by
  intro disk other hother
  unfold FaultyDisk.perform
  split_ifs with hfails
  · exact Function.update_of_ne hother _ _
  · cases change <;> exact Function.update_of_ne hother _ _

namespace Stages

theorem congr (hrun : Stages entry run made) (h : ∀ tree, made tree = made' tree) :
    Stages entry run made' := by
  rwa [← funext h]

theorem pure (a : α) : Stages entry (pure a : DiskM ε ν κ τ α) .ok where
  touchesOnly := touchesOnly_pure a
  made_eq h := by
    cases h
    rfl

theorem throw (error : ε) : Stages entry (throw error : DiskM ε ν κ τ α) made where
  touchesOnly := touchesOnly_throw error
  made_eq h := by cases h

/-- The parts of a sequence make their trees one after the other. -/
theorem bind (hrun : Stages entry run made) (hnext : ∀ a, Stages entry (next a) made') :
    Stages entry (run >>= next) fun tree => made tree >>= made' where
  touchesOnly := hrun.touchesOnly.bind fun a => (hnext a).touchesOnly
  made_eq {disk b after} h := by
    cases hfirst : run disk with
    | ok a between =>
      rw [bind_eq_of_ok hfirst] at h
      exact bind_eq_ok_iff.2 ⟨between entry, hrun.made_eq hfirst, (hnext a).made_eq h⟩
    | error error between =>
      rw [bind_eq_of_error hfirst] at h
      cases h

/-- A sequence that goes by what it finds. -/
theorem look {next : FileTree κ τ → DiskM ε ν κ τ β}
    (made : FileTree κ τ → FileTree κ τ → Except ε (FileTree κ τ))
    (hnext : ∀ tree, Stages entry (next tree) (made tree)) :
    Stages entry (look entry >>= next) fun tree => made tree tree where
  touchesOnly := fun disk => (hnext (disk entry)).touchesOnly disk
  made_eq {disk _ _} h := @(hnext (disk entry)).made_eq disk _ _ h

/-- A failure that is cleaned up first. -/
theorem attempt_throw (hclean : TouchesOnly entry cleanUp) (error : ε) :
    Stages entry
      (attempt cleanUp >>= fun _ => (MonadExcept.throw error : DiskM ε ν κ τ α)) made where
  touchesOnly := hclean.attempt.bind fun _ => touchesOnly_throw error
  made_eq {disk _ _} h := by
    cases (attempt_throw_eq cleanUp error disk).symm.trans h

theorem ite {c : Prop} [Decidable c] {run' : DiskM ε ν κ τ α} (hrun : Stages entry run made)
    (hrun' : Stages entry run' made') :
    Stages entry (if c then run else run') fun tree => if c then made tree else made' tree := by
  split_ifs
  · exact hrun
  · exact hrun'

theorem ensure {condition : Bool} {error : ε} :
    Stages entry (ensure condition error : DiskM ε ν κ τ Unit) .ok := by
  unfold Foundations.ensure
  split_ifs
  · exact pure ()
  · exact throw error

theorem inspect {i : ι} : Stages entry (fs.inspect i) .ok := by
  unfold FaultyDisk.inspect
  split_ifs
  · exact throw _
  · exact pure ()

theorem perform [DecidableEq ν] {i : ι} {region : List κ → Bool}
    {change : Except ε (FileTree κ τ → FileTree κ τ)} :
    Stages entry (fs.perform i entry region change) fun tree => change.map fun change =>
      change tree where
  touchesOnly := touchesOnly_perform
  made_eq {disk _ after} h := by
    unfold FaultyDisk.perform at h
    split_ifs at h with hfails
    cases change with
    | ok change =>
      cases h
      rw [Function.update_self]
      rfl
    | error error => cases h

theorem put [DecidableEq ν] [DecidableEq κ] {i : ι} {path : List κ} {item : τ} :
    Stages entry (fs.put i entry path item) fun tree =>
      .ok (Function.update tree path (some item)) :=
  perform

/-- Where the run succeeds nothing is cleaned up. -/
theorem orCleanUp (hrun : Stages entry run made) (hclean : TouchesOnly entry cleanUp) :
    Stages entry (orCleanUp run cleanUp) made where
  touchesOnly := by
    refine hrun.touchesOnly.attempt.bind fun outcome => ?_
    cases outcome with
    | ok a => exact touchesOnly_pure a
    | error error => exact hclean.attempt.bind fun _ => touchesOnly_throw error
  made_eq {disk a after} h := by
    cases hfirst : run disk with
    | ok b between =>
      cases (orCleanUp_eq_of_ok hfirst).symm.trans h
      exact hrun.made_eq hfirst
    | error error between => cases (orCleanUp_eq_of_error hfirst).symm.trans h

/-- What is cleaned up afterwards may stay in parts. -/
theorem withCleanUp [DecidableEq ν] [DecidableEq κ] {i : ι} {path : List κ}
    (hrun : Stages entry run made) :
    Stages entry (withCleanUp run (fs.removeDirAll i entry path)) fun tree =>
      (made tree).map (fs.remnant i path) where
  touchesOnly :=
    hrun.touchesOnly.attempt.bind fun outcome =>
      touchesOnly_perform.attempt.bind fun _ => touchesOnly_ofExcept outcome
  made_eq {disk a after} h := by
    unfold Foundations.withCleanUp at h
    cases hfirst : run disk with
    | ok b between =>
      rw [bind_eq_of_ok (attempt_eq_of_ok hfirst)] at h
      obtain ⟨outcome, hcleaned⟩ := exists_attempt_eq (fs.removeDirAll i entry path) between
      have hdone : (Foundations.attempt (fs.removeDirAll i entry path) >>= fun _ =>
          (MonadExcept.ofExcept (.ok b) : DiskM ε ν κ τ α)) between =
            .ok b (diskAfter (fs.removeDirAll i entry path between)) := bind_eq_of_ok hcleaned
      cases hdone.symm.trans h
      rw [hrun.made_eq hfirst, FaultyDisk.diskAfter_removeDirAll]
      rfl
    | error error between =>
      rw [bind_eq_of_ok (attempt_eq_of_error hfirst)] at h
      obtain ⟨outcome, hcleaned⟩ := exists_attempt_eq (fs.removeDirAll i entry path) between
      have hfailed : (Foundations.attempt (fs.removeDirAll i entry path) >>= fun _ =>
          (MonadExcept.ofExcept (.error error) : DiskM ε ν κ τ α)) between =
            .error error (diskAfter (fs.removeDirAll i entry path between)) :=
        bind_eq_of_ok hcleaned
      cases hfailed.symm.trans h

end Stages

/-! ### Renames -/

namespace FaultyDisk

variable [DecidableEq ν] {i : ι} {source target : ν}

/-- A rename moves the whole entry, or it changes nothing. -/
theorem rename_cases (fs : FaultyDisk ι κ τ ε) (i : ι) (source target : ν)
    (disk : DiskState ν κ τ) :
    fs.rename i source target disk =
        .ok () (Function.update (Function.update disk source absent) target (disk source)) ∨
      fs.rename i source target disk = .error (fs.error i) disk := by
  unfold rename
  split_ifs with h
  · exact .inr rfl
  · exact .inl rfl

/-- The rename to a free name succeeds unless the operation fails. -/
theorem rename_eq_ok (hfails : fs.fails i = false) (hsource : (disk source []).isSome)
    (htarget : disk target [] = none) :
    fs.rename i source target disk =
      .ok () (Function.update (Function.update disk source absent) target (disk source)) := by
  have hnone : (disk source []).isNone = false := by
    rw [Option.isNone_eq_false_iff]
    exact hsource
  unfold rename
  rw [hfails, hnone, htarget]
  rfl

/-- The rename to a free name that fails is an operation that fails. -/
theorem fails_of_rename_eq_error {error : ε}
    (h : fs.rename i source target disk = .error error after) (hsource : (disk source []).isSome)
    (htarget : disk target [] = none) : fs.fails i = true := by
  by_contra hfails
  rw [rename_eq_ok (Bool.eq_false_iff.2 hfails) hsource htarget] at h
  cases h

/-- After an entry is moved away, either what is staged takes its name, or at most one operation
fails and the entry is moved back. -/
theorem rename_in_or_back (moveIn moveBack : ι) {away : ι} {root staging backup : ν}
    (hone : fs.AtMostOne) (hlabels : moveIn ≠ moveBack) (hbackup : backup ≠ root)
    (hstaging : staging ≠ root) (hnames : backup ≠ staging)
    (hpresent : (disk root []).isSome) (hstaged : (disk staging []).isSome)
    (haway : fs.rename away root backup disk = .ok () after) :
    (∃ swapped, fs.rename moveIn staging root after = .ok () swapped ∧
      swapped root = disk staging) ∨
    ∃ error restored, fs.rename moveIn staging root after = .error error after ∧
      fs.rename moveBack backup root after = .ok () restored ∧ restored root = disk root := by
  have hafter : after = Function.update (Function.update disk root absent) backup (disk root) := by
    rcases fs.rename_cases away root backup disk with h | h
    · cases haway.symm.trans h
      rfl
    · cases haway.symm.trans h
  have hrootAfter : after root = absent := by
    rw [hafter, Function.update_of_ne hbackup.symm, Function.update_self]
  have hbackupAfter : after backup = disk root := by rw [hafter, Function.update_self]
  have hstagingAfter : after staging = disk staging := by
    rw [hafter, Function.update_of_ne hnames.symm, Function.update_of_ne hstaging]
  have hfree : after root [] = none := by
    rw [hrootAfter]
    rfl
  rcases fs.rename_cases moveIn staging root after with hin | hin
  · exact .inl ⟨_, hin, by rw [Function.update_self, hstagingAfter]⟩
  · have hfails := fails_of_rename_eq_error hin (by rwa [hstagingAfter]) hfree
    have hback : fs.fails moveBack = false :=
      Bool.eq_false_iff.2 fun h => hlabels (hone hfails h)
    refine .inr ⟨_, _, hin, rename_eq_ok hback (by rwa [hbackupAfter]) hfree, ?_⟩
    rw [Function.update_self, hbackupAfter]

end FaultyDisk

end Rules

/-! ### Replacing an entry -/

/-- After the run the entry has its old tree where the run fails, and else a tree that is new. -/
def KeepsOrReplaces (entry : ν) (old : FileTree κ τ) (isNew : FileTree κ τ → Prop)
    (run : DiskM ε ν κ τ α) (disk : DiskState ν κ τ) : Prop :=
  match run disk with
  | .ok _ after => isNew (after entry)
  | .error _ after => after entry = old

namespace KeepsOrReplaces

variable {entry staging : ν} {run : DiskM ε ν κ τ α} {next : α → DiskM ε ν κ τ β}
  {made : FileTree κ τ → Except ε (FileTree κ τ)} {disk after : DiskState ν κ τ}
  {old : FileTree κ τ} {isNew : FileTree κ τ → Prop}

theorem iff_of_ok {a : α} (h : run disk = .ok a after) :
    KeepsOrReplaces entry old isNew run disk ↔ isNew (after entry) := by
  simp only [KeepsOrReplaces, h]

theorem iff_of_error {error : ε} (h : run disk = .error error after) :
    KeepsOrReplaces entry old isNew run disk ↔ after entry = old := by
  simp only [KeepsOrReplaces, h]

/-- A sequence whose first part succeeds goes on from there. -/
theorem bind_iff_of_ok {a : α} (h : run disk = .ok a after) :
    KeepsOrReplaces entry old isNew (run >>= next) disk ↔
      KeepsOrReplaces entry old isNew (next a) after := by
  simp only [KeepsOrReplaces, bind_eq_of_ok h]

/-- A sequence whose first part leaves the old tree where it fails. -/
theorem bind (hkeeps : diskAfter (run disk) entry = old)
    (hnext : ∀ {a after}, run disk = .ok a after →
      KeepsOrReplaces entry old isNew (next a) after) :
    KeepsOrReplaces entry old isNew (run >>= next) disk := by
  cases h : run disk with
  | ok a after => exact (bind_iff_of_ok h).2 (hnext h)
  | error error after =>
    rw [iff_of_error (bind_eq_of_error h)]
    rwa [h] at hkeeps

/-- A run that goes by what an entry holds. -/
theorem look {other : ν} {next : FileTree κ τ → DiskM ε ν κ τ β}
    (h : KeepsOrReplaces entry old isNew (next (disk other)) disk) :
    KeepsOrReplaces entry old isNew (look other >>= next) disk := h

/-- What is staged below another name is what the entry is replaced with. -/
theorem of_stages (hrun : Stages staging run made) (hne : entry ≠ staging)
    (hold : disk entry = old)
    (hnext : ∀ a after, made (disk staging) = .ok (after staging) → after entry = old →
      KeepsOrReplaces entry old isNew (next a) after) :
    KeepsOrReplaces entry old isNew (run >>= next) disk := by
  have hkept : diskAfter (run disk) entry = old := (hrun.touchesOnly disk entry hne).trans hold
  refine bind hkept fun {a after} h => ?_
  rw [h] at hkept
  exact hnext a after (hrun.made_eq h) hkept

/-- A result does not change what the entry holds. -/
theorem bind_pure (hrun : KeepsOrReplaces entry old isNew run disk) (b : β) :
    KeepsOrReplaces entry old isNew (run >>= fun _ => pure b) disk := by
  cases h : run disk with
  | ok a after =>
    rw [bind_iff_of_ok h]
    exact (iff_of_ok h).1 hrun
  | error error after =>
    rw [iff_of_error (bind_eq_of_error h)]
    exact (iff_of_error h).1 hrun

end KeepsOrReplaces

/-- A run that changes nothing. -/
def ReadsOnly (run : DiskM ε ν κ τ α) : Prop := ∀ disk, diskAfter (run disk) = disk

section ReadsOnly

variable {entry : ν} {run : DiskM ε ν κ τ α} {next : α → DiskM ε ν κ τ β}
  {disk : DiskState ν κ τ} {old : FileTree κ τ} {isNew : FileTree κ τ → Prop}

theorem readsOnly_ensure (condition : Bool) (error : ε) :
    ReadsOnly (ensure condition error : DiskM ε ν κ τ Unit) := by
  intro disk
  unfold ensure
  split_ifs <;> rfl

theorem readsOnly_inspect (fs : FaultyDisk ι κ τ ε) (i : ι) :
    ReadsOnly (fs.inspect i : DiskM ε ν κ τ Unit) := by
  intro disk
  unfold FaultyDisk.inspect
  split_ifs <;> rfl

theorem readsOnly_ofExcept (x : Except ε α) :
    ReadsOnly (MonadExcept.ofExcept x : DiskM ε ν κ τ α) := by
  cases x <;> exact fun _ => rfl

/-- A run that changes nothing, and then one that replaces the entry. -/
theorem KeepsOrReplaces.of_readsOnly (hrun : ReadsOnly run) (hold : disk entry = old)
    (hnext : ∀ a, run disk = .ok a disk → KeepsOrReplaces entry old isNew (next a) disk) :
    KeepsOrReplaces entry old isNew (run >>= next) disk := by
  have hafter := hrun disk
  refine .bind (by rw [hafter, hold]) fun {a after} h => ?_
  rw [h] at hafter
  cases hafter
  exact hnext a h

end ReadsOnly

end Foundations
