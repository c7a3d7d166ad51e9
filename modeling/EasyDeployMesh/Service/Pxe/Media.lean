import EasyDeployMesh.Foundations.Text
import EasyDeployMesh.Service.Pxe.Config

/-!
# Boot media

How `crates/service/src/pxe.rs` finds its way in extracted boot media: the WinPE image, the boot
manager and the RAM disk of the media, and the external payload of Edgeless. The media are the list
of the files below the extraction root, in the order in which the directories are walked; a file has
the components of its path and its bytes.

## Main definitions

* `EasyDeployMesh.MediaFile`, with the parts of its name.
* `EasyDeployMesh.findEdgelessPayload`, `EasyDeployMesh.findNamed`,
  `EasyDeployMesh.findUsmBootmgrForWim`, `EasyDeployMesh.findUniqueUefiBcdReference`.
* `EasyDeployMesh.selectWim`, `EasyDeployMesh.MediaSelection`, `EasyDeployMesh.selectMedia`: the
  files that a package is built from.
-/

namespace EasyDeployMesh

open Foundations

/-! ### Files and their names -/

/-- A file of the media: the components of its path below the root, and its bytes. -/
structure MediaFile where
  path : List String
  contents : List UInt8
  deriving DecidableEq

namespace MediaFile

/-- The last component of the path of a file. -/
def fileName (file : MediaFile) : Option String := file.path.getLast?

/-- The directory of a file. -/
def parent (file : MediaFile) : List String := file.path.dropLast

/-- The parts of a name before and after its last dot, unless nothing comes before it. -/
def splitAtLastDot (name : String) : Option (String × String) :=
  let after := name.toList.reverse.takeWhile (· ≠ '.')
  match name.toList.reverse.drop after.length with
  | '.' :: before =>
    if before.isEmpty then none
    else some (String.ofList before.reverse, String.ofList after.reverse)
  | _ => none

/-- What stands behind the last dot of the name. -/
def extension (file : MediaFile) : Option String :=
  (file.fileName.bind splitAtLastDot).map Prod.snd

/-- What stands before the last dot of the name. -/
def fileStem (file : MediaFile) : Option String :=
  file.fileName.map fun name => ((splitAtLastDot name).map Prod.fst).getD name

/-- The extension of a file, in any case. -/
def hasExtension (file : MediaFile) (extension : String) : Bool :=
  file.extension.any fun value => Text.eqIgnoreAsciiCase value extension

example : fileStem { path := ["boot", "usm.x.wim"], contents := [] } = some "usm.x" ∧
    extension { path := ["boot", "BOOTMGR"], contents := [] } = none := by decide

end MediaFile

/-- Two paths that agree up to case. -/
def pathComponentsEqAsciiCaseInsensitive (path expected : List String) : Bool :=
  path.length == expected.length &&
    (path.zip expected).all fun names => Text.eqIgnoreAsciiCase names.1 names.2

/-- The first of the files with the shortest path. -/
def firstShortest : List MediaFile → Option MediaFile
  | [] => none
  | file :: files =>
    match firstShortest files with
    | none => some file
    | some other => if other.path.length < file.path.length then some other else some file

/-- The file of a name that lies least deep. -/
def findNamed (files : List MediaFile) (name : String) : Option MediaFile :=
  firstShortest (files.filter fun file =>
    file.fileName.any fun value => Text.eqIgnoreAsciiCase value name)

/-- The only file with an extension. -/
def findUniqueFileWithExtension (files : List MediaFile) (extension : String) : Option MediaFile :=
  match files.filter fun file => file.hasExtension extension with
  | [candidate] => some candidate
  | _ => none

/-! ### The image and the boot manager -/

/-- The number with the given bytes, the lowest first. -/
def leNat (bytes : List UInt8) : ℕ := bytes.foldr (fun b n => b.toNat + 256 * n) 0

/-- The little-endian number of `width` bytes at an offset. -/
def leField (bytes : List UInt8) (offset width : ℕ) : ℕ := leNat ((bytes.drop offset).take width)

/-- The bytes at the start of a WIM file. -/
def wimSignature : List UInt8 := stringBytes "MSWIM\x00\x00\x00"

/-- Where the boot index stands in the header of a WIM file. -/
def wimBootIndexOffset : ℕ := 0x78

/-- The boot index of an image that consists of one part. -/
def wimBootIndexFromHeader (header : List UInt8) : Option ℕ :=
  if header.length < wimBootIndexOffset + 4 || !wimSignature.isPrefixOf header then none
  else
    let headerSize := leField header 0x08 4
    let partNumber := leField header 0x28 2
    let totalParts := leField header 0x2a 2
    let imageCount := leField header 0x2c 4
    let bootIndex := leField header wimBootIndexOffset 4
    if wimBootIndexOffset + 4 ≤ headerSize ∧ partNumber = 1 ∧ totalParts = 1 ∧ 0 < bootIndex ∧
        bootIndex ≤ imageCount then some bootIndex
    else none

/-- The file is a WIM image that can be booted. -/
def wimHasBootImage (wim : MediaFile) : Bool :=
  wimBootIndexOffset + 4 ≤ wim.contents.length &&
    (wimBootIndexFromHeader (wim.contents.take (wimBootIndexOffset + 4))).isSome

/-- The runs of at least four printable ASCII characters in two-byte units, after `current`. -/
def utf16RunsFrom (current : List Char) : List UInt8 → List String
  | low :: high :: rest =>
    if high = 0 ∧ 0x20 ≤ low ∧ low ≤ 0x7e then
      utf16RunsFrom (current ++ [Char.ofNat low.toNat]) rest
    else (if 4 ≤ current.length then [String.ofList current] else []) ++ utf16RunsFrom [] rest
  | _ => if 4 ≤ current.length then [String.ofList current] else []

/-- The ASCII texts in little-endian UTF-16, at even and at odd offsets. -/
def utf16leAsciiStrings (contents : List UInt8) : List String :=
  utf16RunsFrom [] contents ++ utf16RunsFrom [] (contents.drop 1)

/-- The only file with the extension that a UEFI boot configuration of the media refers to. -/
def findUniqueUefiBcdReference (files : List MediaFile) (extension : String) : Option MediaFile :=
  let uefiBcds := files.filter fun file =>
    pathComponentsEqAsciiCaseInsensitive file.path ["efi", "microsoft", "boot", "bcd"]
  let referenced := files.filter fun candidate =>
    candidate.hasExtension extension && uefiBcds.any fun bcd =>
      (utf16leAsciiStrings bcd.contents).any fun value =>
        Text.eqIgnoreAsciiCase
          (String.ofList (value.toList.dropWhile fun c => c == '\\' || c == '/'))
          ("\\".intercalate candidate.path)
  match referenced with
  | [candidate] => some candidate
  | _ => none

/-- The WinPE image of the media. -/
def selectWim (files : List MediaFile) : Except PxeServiceError MediaFile :=
  let wims := files.filter fun file => file.hasExtension "wim"
  let preferredWim := [["sources", "boot.wim"], ["boot", "boot.wim"]].findSome? fun expected =>
    wims.find? fun wim => pathComponentsEqAsciiCaseInsensitive wim.path expected
  let bcdWim := findUniqueUefiBcdReference files "wim"
  match preferredWim.or bcdWim, wims.filter wimHasBootImage, wims with
  | some wim, _, _ => .ok wim
  | none, [wim], _ => .ok wim
  | none, _, [wim] => .ok wim
  | none, _, [] => .error (.invalidConfig "media contains no WinPE WIM image")
  | none, _, _ => .error (.invalidConfig
      "media contains multiple WIM images but no unique WinPE boot image")

/-- The bytes contain the text. -/
def containsText (text : String) (contents : List UInt8) : Bool :=
  contents.tails.any fun rest => (stringBytes text).isPrefixOf rest

/-- A file of the size of a boot manager that has two of its messages. -/
def isWindowsBootManager (file : MediaFile) : Bool :=
  64 * 1024 ≤ file.contents.length && file.contents.length ≤ 2 * 1024 * 1024 &&
    containsText "BOOTMGR image is corrupt" file.contents &&
    containsText "The Windows Boot Manager is incompatible with this system" file.contents

/-- The text after the first occurrence of the non-empty text `pat`. -/
def afterFirst (pat : List Char) : List Char → Option (List Char)
  | [] => none
  | c :: l => if pat.isPrefixOf (c :: l) then some ((c :: l).drop pat.length) else afterFirst pat l

/-- The generation digit in the name of a USM image. -/
def usmGeneration (wim : MediaFile) : Option Char := do
  let stem := (← wim.fileStem).toList.map Char.toUpper
  if !"USM".toList.isPrefixOf stem then none
  let rest ← afterFirst "PE".toList stem
  rest.head?.filter fun value => value == '6' || value == '8'

/-- The boot manager of the generation of a USM image. -/
def findUsmBootmgrForWim (files : List MediaFile) (wim : MediaFile) : Option MediaFile := do
  if !pathComponentsEqAsciiCaseInsensitive wim.parent ["boot"] then none
  let generation ← usmGeneration wim
  let expectedName := String.ofList ("USM".toList ++ generation :: "MGR".toList)
  let candidate ← files.find? fun file =>
    pathComponentsEqAsciiCaseInsensitive file.parent ["boot"] &&
      file.fileName.any fun value => Text.eqIgnoreAsciiCase value expectedName
  if isWindowsBootManager candidate then some candidate else none

/-- The directory of the external payload of Edgeless. -/
def findEdgelessPayload (files : List MediaFile) : Option (List String) := do
  let version ← files.find? fun file =>
    pathComponentsEqAsciiCaseInsensitive file.path ["Edgeless", "version.txt"]
  let payload := version.parent
  let hasRequiredArchive := files.any fun file =>
    file.parent == payload &&
      file.fileName.any fun name => Text.eqIgnoreAsciiCase name "Nes_Inport.7z"
  if hasRequiredArchive then some payload else none

/-! ### What a package is built from -/

/-- The files that a package is built from. -/
structure MediaSelection where
  edgelessPayload : Option (List String)
  wim : MediaFile
  loaderPath : String
  /-- The renamed boot manager of USM, when the media have no `bootmgr`. -/
  usmBootmgr : Option MediaFile
  bootmgr : MediaFile
  sdi : MediaFile
  deriving DecidableEq

/-- The part of `build_winpe_package_with_native_iso` before the package is populated;
`detectLoaderPath` inspects the image. -/
def selectMedia (detectLoaderPath : List UInt8 → Except PxeServiceError String)
    (files : List MediaFile) : Except PxeServiceError MediaSelection := do
  let edgelessPayload := findEdgelessPayload files
  let wim ← selectWim files
  let loaderPath ← detectLoaderPath wim.contents
  let namedBootmgr := findNamed files "bootmgr"
  let usmBootmgr := if namedBootmgr.isNone then findUsmBootmgrForWim files wim else none
  let bootmgr ← (namedBootmgr.or usmBootmgr).elim
    (.error (if (findNamed files "grldr").isSome then .invalidConfig
        ("this WinPE media contains GRLDR but no matching Windows bootmgr; GRLDR cannot safely " ++
          "replace bootmgr for the managed BIOS/UEFI wimboot package")
      else .missingBootFile "bootmgr")) .ok
  let sdi ← (((findNamed files "boot.sdi").or (findUniqueUefiBcdReference files "sdi")).or
    (findUniqueFileWithExtension files "sdi")).elim (.error (.missingBootFile "boot.sdi")) .ok
  pure { edgelessPayload, wim, loaderPath, usmBootmgr, bootmgr, sdi }

end EasyDeployMesh
