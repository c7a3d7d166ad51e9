import EasyDeployMesh.Foundations.Arithmetic
import EasyDeployMesh.Foundations.HostPath
import EasyDeployMesh.Foundations.Text
import EasyDeployMesh.Service.Pxe.Config

/-!
# Extraction of boot media

`copy_iso_directory`, `validate_udf_tree` and `extract_udf_tree` of `crates/service/src/pxe.rs`.
What an extraction does is the list of the directories and files that it creates, in order, and how
it ends. The paths are of any type, with an operation that joins a name to a path.

The readers of the two file systems are given by what they answer: the ISO 9660 reader with the
records of the directory at an extent and what each read of the file of a record returns, the UDF
reader with a tree of nodes and the contents of a file node. The file system of the host is given by
what it answers to the operations of `copy_iso_directory` behind what has been created so far; a UDF
tree is extracted to a file system that refuses nothing. The records of an ISO 9660 image may lead
back to a directory that contains them, so the copy is a function of the number of nested
directories that it may enter.

## Main definitions

* `EasyDeployMesh.Creation`, `EasyDeployMesh.Extraction`: what is created.
* `EasyDeployMesh.FileSystem`: the answers of the file system that is extracted to.
* `EasyDeployMesh.IsoImage`, `EasyDeployMesh.copyIsoDirectory`: extraction of an ISO 9660 image.
* `EasyDeployMesh.TreeNode`, `EasyDeployMesh.validateUdfTree`, `EasyDeployMesh.extractUdfTree`:
  extraction of a UDF image.
-/

namespace EasyDeployMesh

open Foundations

variable {ε P : Type}

/-! ### Created files -/

/-- A directory or a file that an extraction creates. -/
inductive Creation (P : Type)
  | directory (path : P)
  | file (path : P) (contents : List UInt8)
  deriving DecidableEq

/-- Where it is created. -/
def Creation.path : Creation P → P
  | directory path => path
  | file path _ => path

/-- What an extraction has created, and how it has ended. -/
structure Extraction (ε P : Type) where
  created : List (Creation P)
  result : Except ε Unit

namespace Extraction

/-- Nothing is left to extract. -/
def done : Extraction ε P where
  created := []
  result := .ok ()

/-- The creation of one file or directory. -/
def create (creation : Creation P) : Extraction ε P where
  created := [creation]
  result := .ok ()

/-- A second extraction behind the first one, unless that has failed. -/
def andThen (first second : Extraction ε P) : Extraction ε P :=
  match first.result with
  | .ok () => { created := first.created ++ second.created, result := second.result }
  | .error _ => first

/-- What follows behind all that has been created is not begun when the first extraction has failed;
neither may come to an end. -/
def andThenSome (first : Option (Extraction ε P))
    (next : List (Creation P) → Option (Extraction ε P)) : Option (Extraction ε P) :=
  first.bind fun first =>
    match first.result with
    | .ok () => next first.created
    | .error _ => some first

/-- A file with the contents that are read after it has been created. -/
def file (path : P) (contents : Except ε (List UInt8)) : Extraction ε P :=
  match contents with
  | .ok contents => create (.file path contents)
  | .error error => { created := [.file path []], result := .error error }

end Extraction

/-- The file system of the host: what `fs::create_dir_all`, `File::create` and the `write_all` of
the file that has been created last answer behind what has been created so far. An operation fails
with the text of its error, and a write with the bytes that it has written before. -/
structure FileSystem (P : Type) where
  createDirAll : List (Creation P) → P → Except String Unit
  createFile : List (Creation P) → P → Except String Unit
  writeAll : List (Creation P) → List UInt8 → Except (List UInt8 × String) Unit

/-- A file system that refuses nothing. -/
def FileSystem.accepting : FileSystem P where
  createDirAll _ _ := .ok ()
  createFile _ _ := .ok ()
  writeAll _ _ := .ok ()

/-! ### ISO 9660 -/

/-- The block and the length of a directory or of a file. -/
abbrev Extent : Type := UInt32 × UInt32

/-- A record of a directory. -/
structure IsoEntry where
  name : String
  directory : Bool
  extentLba : UInt32
  dataLength : UInt32
  deriving DecidableEq

namespace IsoEntry

/-- Where what the record is about lies. -/
def extent (entry : IsoEntry) : Extent := (entry.extentLba, entry.dataLength)

/-- The record is that of the directory itself or of its parent. -/
def isSpecial (entry : IsoEntry) : Bool := entry.name = "." || entry.name = ".."

end IsoEntry

/-- An image, as the ISO 9660 reader presents it: `DirectoryIterator::collect` for an extent, and
what the calls of `read` for the file of a record return one after the other, until nothing is left;
or the text of an error. -/
structure IsoImage where
  readDirectory : Extent → Except String (List IsoEntry)
  readFile : IsoEntry → List (Except String (List UInt8))

/-- The error of a directory that cannot be read. -/
def isoDirectoryError (error : String) : PxeServiceError :=
  .invalidConfig ("could not read ISO directory: " ++ error)

/-- The error of a file that cannot be read. -/
def isoFileError (error : String) : PxeServiceError :=
  .invalidConfig ("could not extract ISO file: " ++ error)

section Iso

variable (fs : FileSystem P) (join : P → String → P) (image : IsoImage)

/-- The loop over the reads of a file, behind its first `contents`. -/
def copyIsoReads (created : List (Creation P)) (destination : P) :
    List UInt8 → List (Except String (List UInt8)) → Extraction PxeServiceError P
  | contents, [] => { created := created ++ [.file destination contents], result := .ok () }
  | contents, .error error :: _ =>
    { created := created ++ [.file destination contents], result := .error (isoFileError error) }
  | contents, .ok part :: reads =>
    if part = [] then { created := created ++ [.file destination contents], result := .ok () }
    else match fs.writeAll (created ++ [.file destination contents]) part with
      | .error (written, error) =>
        { created := created ++ [.file destination (contents ++ written)],
          result := .error (.io error) }
      | .ok () => copyIsoReads created destination (contents ++ part) reads

/-- The branch of a file in the loop over the records of a directory. -/
def copyIsoFile (created : List (Creation P)) (destination : P) (entry : IsoEntry) :
    Extraction PxeServiceError P :=
  match fs.createFile created destination with
  | .error error => { created := created, result := .error (.io error) }
  | .ok () => copyIsoReads fs created destination [] (image.readFile entry)

/-- The body of the loop over the records of a directory behind what has been created, when `copy`
copies a directory. -/
def copyIsoEntry (copy : Extent → P → List (Creation P) → Option (Extraction PxeServiceError P))
    (target : P) (entry : IsoEntry) (created : List (Creation P)) :
    Option (Extraction PxeServiceError P) :=
  if entry.isSpecial then some { created := created, result := .ok () }
  else
    let destination := join target entry.name
    if entry.directory then copy entry.extent destination created
    else some (copyIsoFile fs image created destination entry)

/-- The loop over the records of a directory. -/
def copyIsoEntries (copy : Extent → P → List (Creation P) → Option (Extraction PxeServiceError P))
    (target : P) : List IsoEntry → List (Creation P) → Option (Extraction PxeServiceError P)
  | [], created => some { created := created, result := .ok () }
  | entry :: entries, created =>
    Extraction.andThenSome (copyIsoEntry fs join image copy target entry created)
      (copyIsoEntries copy target entries)

/-- The copy of a directory behind what has been created, if it does not enter more than `fuel`
nested directories. -/
def copyIsoDirectory :
    ℕ → Extent → P → List (Creation P) → Option (Extraction PxeServiceError P)
  | 0, _, _, _ => none
  | fuel + 1, extent, target, created =>
    match fs.createDirAll created target with
    | .error error => some { created := created, result := .error (.io error) }
    | .ok () =>
      let created := created ++ [.directory target]
      match image.readDirectory extent with
      | .error error => some { created := created, result := .error (isoDirectoryError error) }
      | .ok entries =>
        copyIsoEntries fs join image (copyIsoDirectory fuel) target entries created

end Iso

/-! ### UDF -/

/-- `isomage::TreeNode`. -/
inductive TreeNode
  | mk (name : String) (isDirectory : Bool) (size : UInt64)
    (fileLocation fileLength : Option UInt64)
    (children : List TreeNode)

namespace TreeNode

/-- The name of a node. -/
def name : TreeNode → String
  | mk name _ _ _ _ _ => name

/-- The node is a directory. -/
def isDirectory : TreeNode → Bool
  | mk _ isDirectory _ _ _ _ => isDirectory

/-- The size that the node announces. -/
def size : TreeNode → UInt64
  | mk _ _ size _ _ _ => size

/-- Where the contents of a file start, if they lie in one extent. -/
def fileLocation : TreeNode → Option UInt64
  | mk _ _ _ fileLocation _ _ => fileLocation

/-- The length of the contents of a file. -/
def fileLength : TreeNode → Option UInt64
  | mk _ _ _ _ fileLength _ => fileLength

/-- The entries of a directory. -/
def children : TreeNode → List TreeNode
  | mk _ _ _ _ _ children => children

/-- `file_location.zip(file_length)`. -/
def extent (node : TreeNode) : Option (UInt64 × UInt64) :=
  node.fileLocation.bind fun location => node.fileLength.map (location, ·)

end TreeNode

/-- The refusals of a tree. -/
inductive UdfError
  | mediaSize
  | tooManyEntries
  | tooDeep
  | unsafeName (name : String)
  | conflictingName (name : String)
  | noExtent (name : String)
  | invalidExtent (name : String)
  | sizeOverflow
  | extractedSize
  | reader (message : String)
  deriving DecidableEq, Repr

/-- The largest number of entries that is extracted. -/
def maxUdfEntries : ℕ := 100000

/-- The largest depth that is extracted. -/
def maxUdfDepth : ℕ := 32

/-- The name of a child cannot be the name of a file. -/
def isUnsafeName (name : String) : Bool :=
  name = "" || name = "." || name = ".." || Text.containsChar '/' name ||
    Text.containsChar '\\' name || Text.containsChar '\x00' name

/-- The check of the children of a directory, behind children with the names `seen` in lower
case. -/
def checkNames : List String → List TreeNode → Except UdfError Unit
  | _, [] => .ok ()
  | seen, child :: children =>
    if isUnsafeName child.name then .error (.unsafeName child.name)
    else if Text.toAsciiLowercase child.name ∈ seen then .error (.conflictingName child.name)
    else checkNames (Text.toAsciiLowercase child.name :: seen) children

/-- The check of a file, behind files with `extracted` bytes in all. -/
def checkExtent (mediaLen maxExtracted extracted : UInt64) (node : TreeNode) :
    Except UdfError UInt64 :=
  match node.extent with
  | none => .error (.noExtent node.name)
  | some (offset, length) =>
    if length ≠ node.size ∨ (checkedAdd offset length).all (mediaLen < ·) then
      .error (.invalidExtent node.name)
    else match checkedAdd extracted length with
      | none => .error .sizeOverflow
      | some extracted =>
        if maxExtracted < extracted then .error .extractedSize else .ok extracted

/-- The loop of `validate_udf_tree`; the nodes that are pending are given with their depths, the
last one of the vector first. -/
def validateUdfNodes (mediaLen maxExtracted : UInt64) (entries : ℕ) (extracted : UInt64)
    (pending : List (TreeNode × ℕ)) : Except UdfError Unit :=
  match pending with
  | [] => .ok ()
  | (node, depth) :: pending =>
    if _hentries : maxUdfEntries < entries + 1 then .error .tooManyEntries
    else if maxUdfDepth < depth then .error .tooDeep
    else if node.isDirectory then
      match checkNames [] node.children with
      | .error error => .error error
      | .ok () => validateUdfNodes mediaLen maxExtracted (entries + 1) extracted
          ((node.children.map fun child => (child, depth + 1)).reverse ++ pending)
    else match checkExtent mediaLen maxExtracted extracted node with
      | .error error => .error error
      | .ok extracted => validateUdfNodes mediaLen maxExtracted (entries + 1) extracted pending
termination_by maxUdfEntries - entries

/-- The first check that a tree fails. -/
def validateUdfTree (root : TreeNode) (mediaLen : UInt64) : Except UdfError Unit :=
  match checkedMul mediaLen 2 with
  | none => .error .mediaSize
  | some maxExtracted => validateUdfNodes mediaLen maxExtracted 0 0 [(root, 0)]

section Udf

variable (join : P → String → P) (read : TreeNode → Except UdfError (List UInt8))

mutual

/-- The extraction of a node, when `read` is `isomage::cat_node`. -/
def extractUdfTree : TreeNode → P → Extraction UdfError P
  | .mk name isDirectory size fileLocation fileLength children, target =>
    if isDirectory then
      (Extraction.create (.directory target)).andThen (extractUdfChildren children target)
    else .file target (read (.mk name isDirectory size fileLocation fileLength children))

/-- The loop over the children of a directory. -/
def extractUdfChildren : List TreeNode → P → Extraction UdfError P
  | [], _ => .done
  | child :: children, target =>
    (extractUdfTree child (join target child.name)).andThen (extractUdfChildren children target)

end

end Udf

end EasyDeployMesh
