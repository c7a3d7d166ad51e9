import EasyDeployMesh.Core.Models

/-!
# Bounded Linux install intent and installer inventory

The options of a Linux installation and the request of the installer guard, with the checks that
the host makes on both (`LinuxInstallOptions::validate` and
`LinuxInstallerGuardRequest::validate` in `crates/core/src/job.rs`).

## Main definitions

* `EasyDeployMesh.LinuxInstallOptions`, `EasyDeployMesh.LinuxInstallOptions.validate`.
* `EasyDeployMesh.LinuxInstallerObservedDisk`, `EasyDeployMesh.LinuxInstallerGuardRequest`,
  `EasyDeployMesh.LinuxInstallerGuardRequest.validate`.

## Main results

* `EasyDeployMesh.LinuxInstallerGuardRequest.validObservedDisk_of_validate`: every disk of an
  accepted guard request is valid.
-/

namespace EasyDeployMesh

open Foundations

/-! ### Install options -/

/-- The account and the name that an installation of Linux gets. -/
structure LinuxInstallOptions where
  hostname : String
  username : String
  sshAuthorizedKeys : List String
  deriving DecidableEq

/-- The refusals of the options, in the order of their checks. -/
inductive LinuxInstallOptionsError
  | invalidHostname
  | invalidUsername
  | invalidSshKeyCount
  | invalidSshKey (index : ℕ)
  | duplicateSshKey (index : ℕ)
  deriving DecidableEq

namespace LinuxInstallOptions

/-- A label of at most 63 lower-case letters, digits and inner hyphens. -/
def validLinuxHostname (hostname : String) : Bool :=
  (1 ≤ hostname.utf8ByteSize && hostname.utf8ByteSize ≤ 63) &&
    hostname.toList.head?.any Char.isAlphanum && hostname.toList.getLast?.any Char.isAlphanum &&
    hostname.toList.all fun c => c.isLower || c.isDigit || c == '-'

/-- A name of at most 32 characters that starts with a lower-case letter and is not `root`. -/
def validLinuxUsername (username : String) : Bool :=
  (1 ≤ username.utf8ByteSize && username.utf8ByteSize ≤ 32) && username != "root" &&
    username.toList.head?.any Char.isLower &&
    username.toList.all fun c => c.isLower || c.isDigit || c == '_' || c == '-'

/-- The algorithms that an SSH public key may name. -/
def sshAlgorithms : List String :=
  ["ssh-ed25519", "ssh-rsa", "ecdsa-sha2-nistp256", "ecdsa-sha2-nistp384", "ecdsa-sha2-nistp521",
    "sk-ssh-ed25519@openssh.com", "sk-ecdsa-sha2-nistp256@openssh.com"]

/-- One line with a known algorithm and a base64 word behind it. -/
def validSshPublicKey (key : String) : Bool :=
  if key.isEmpty || 16 * 1024 < key.utf8ByteSize || !key.toList.all Text.isAscii ||
      key.toList.any (fun c => c == '\r' || c == '\n' || c.toNat == 0) then
    false
  else match Text.splitAsciiWhitespace key with
    | algorithm :: encoded :: _ =>
      sshAlgorithms.contains algorithm && 16 ≤ encoded.utf8ByteSize &&
        encoded.toList.all fun c => c.isAlphanum || c == '+' || c == '/' || c == '='
    | _ => false

/-- The loop of `validate` over the keys; `seen` holds the keys before `index`. -/
def checkSshKeys (seen : List String) (index : ℕ) :
    List String → Except LinuxInstallOptionsError Unit
  | [] => .ok ()
  | key :: keys =>
    if !validSshPublicKey key then .error (.invalidSshKey index)
    else if seen.contains key then .error (.duplicateSshKey index)
    else checkSshKeys (key :: seen) (index + 1) keys

/-- The first check that the options fail. -/
def validate (options : LinuxInstallOptions) : Except LinuxInstallOptionsError Unit :=
  if !validLinuxHostname options.hostname then .error .invalidHostname
  else if !validLinuxUsername options.username then .error .invalidUsername
  else if options.sshAuthorizedKeys.isEmpty || 16 < options.sshAuthorizedKeys.length then
    .error .invalidSshKeyCount
  else checkSshKeys [] 0 options.sshAuthorizedKeys

theorem validSshPublicKey_of_checkSshKeys {seen : List String} {index : ℕ} {keys : List String}
    (h : checkSshKeys seen index keys = .ok ()) : ∀ key ∈ keys, validSshPublicKey key = true := by
  induction keys generalizing seen index with
  | nil => simp
  | cons key keys ih =>
    simp only [checkSshKeys] at h
    split_ifs at h with hvalid hseen
    rw [List.forall_mem_cons]
    exact ⟨by simpa using hvalid, ih h⟩

end LinuxInstallOptions

/-! ### The inventory that the installer guard reports -/

/-- A disk as the installer sees it. -/
structure LinuxInstallerObservedDisk where
  path : String
  model : String
  serial : Option String
  sizeBytes : UInt64
  deriving DecidableEq

/-- The report of the installer before it writes to a disk. -/
structure LinuxInstallerGuardRequest where
  imageSha256 : String
  disks : List LinuxInstallerObservedDisk
  deriving DecidableEq

/-- The refusals of the report, in the order of their checks. -/
inductive LinuxInstallerGuardError
  | invalidImageChecksum
  | invalidDiskCount
  | invalidDisk (index : ℕ)
  | duplicateDiskPath (index : ℕ)
  deriving DecidableEq

/-- A text that is not blank, at most `max` bytes long, and on a single line. -/
def validText (value : String) (max : ℕ) : Bool :=
  !(Text.trim value).isEmpty && value.utf8ByteSize ≤ max &&
    !value.toList.any fun c => c == '\r' || c == '\n' || c.toNat == 0

/-- The name of a device directly below `/dev/`. -/
def validDeviceBasename (basename : String) : Bool :=
  (1 ≤ basename.utf8ByteSize && basename.utf8ByteSize ≤ 128) && basename != "." &&
    basename != ".." &&
    basename.toList.all fun c => c.isAlphanum || c == '.' || c == '_' || c == '-'

/-- A device path with a valid name, and bounded texts. -/
def validObservedDisk (disk : LinuxInstallerObservedDisk) : Bool :=
  (Text.stripPrefix "/dev/" disk.path).any validDeviceBasename && validText disk.path 256 &&
    validText disk.model 256 && disk.serial.all (fun serial => validText serial 256) &&
    0 < disk.sizeBytes

namespace LinuxInstallerGuardRequest

/-- The loop of `validate` over the disks; `paths` holds the paths before `index`. -/
def checkDisks (paths : List String) (index : ℕ) :
    List LinuxInstallerObservedDisk → Except LinuxInstallerGuardError Unit
  | [] => .ok ()
  | disk :: disks =>
    if !validObservedDisk disk then .error (.invalidDisk index)
    else if paths.contains disk.path then .error (.duplicateDiskPath index)
    else checkDisks (disk.path :: paths) (index + 1) disks

/-- The first check that the report fails. -/
def validate (request : LinuxInstallerGuardRequest) : Except LinuxInstallerGuardError Unit :=
  if request.imageSha256.utf8ByteSize ≠ 64 ∨
      !request.imageSha256.toList.all Text.isAsciiHexdigit then
    .error .invalidImageChecksum
  else if request.disks.isEmpty || 128 < request.disks.length then .error .invalidDiskCount
  else checkDisks [] 0 request.disks

theorem validObservedDisk_of_checkDisks {paths : List String} {index : ℕ}
    {disks : List LinuxInstallerObservedDisk} (h : checkDisks paths index disks = .ok ()) :
    ∀ disk ∈ disks, validObservedDisk disk = true := by
  induction disks generalizing paths index with
  | nil => simp
  | cons disk disks ih =>
    simp only [checkDisks] at h
    split_ifs at h with hvalid hpath
    rw [List.forall_mem_cons]
    exact ⟨by simpa using hvalid, ih h⟩

theorem validObservedDisk_of_validate {request : LinuxInstallerGuardRequest}
    (h : request.validate = .ok ()) : ∀ disk ∈ request.disks, validObservedDisk disk = true := by
  simp only [validate] at h
  split_ifs at h
  exact validObservedDisk_of_checkDisks h

end LinuxInstallerGuardRequest

end EasyDeployMesh
