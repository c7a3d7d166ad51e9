import EasyDeployMesh.Foundations.Text
import Mathlib.Data.BitVec

/-!
# Identifiers, instants and shared domain types

The part of `crates/core/src/models.rs` that the deployment services read: operations, hardware
inventories, and the capability of a Linux installer image. An identifier is 128 bits; an instant
and a duration of `chrono` are numbers of nanoseconds.

## Main definitions

* `EasyDeployMesh.Uuid`, with its two texts `Uuid.simple` and `Uuid.hyphenated`.
* `EasyDeployMesh.Instant`, `EasyDeployMesh.Duration`, `EasyDeployMesh.minutes`.
* `EasyDeployMesh.Operation`, `EasyDeployMesh.Disk`, `EasyDeployMesh.Device`,
  `EasyDeployMesh.AgentInventory`, `EasyDeployMesh.ImageFormat`,
  `EasyDeployMesh.InstallerCapability`.
* `EasyDeployMesh.PxeConfig`.
-/

namespace EasyDeployMesh

open Foundations

/-! ### Identifiers and time -/

/-- A universally unique identifier, its 16 bytes read as one number. -/
abbrev Uuid := BitVec 128

namespace Uuid

/-- The 32 hexadecimal digits. -/
def simple (u : Uuid) : String := String.ofList (Text.hexDigits 32 u.toNat)

/-- The hexadecimal digits in groups of 8, 4, 4, 4 and 12, as `Display` prints them. -/
def hyphenated (u : Uuid) : String :=
  let digits := Text.hexDigits 32 u.toNat
  String.ofList (digits.take 8 ++ '-' :: (digits.drop 8).take 4 ++ '-' :: (digits.drop 12).take 4 ++
    '-' :: (digits.drop 16).take 4 ++ '-' :: digits.drop 20)

end Uuid

/-- Nanoseconds since the epoch, for `DateTime<Utc>`. -/
abbrev Instant := ℤ

/-- A signed number of nanoseconds, for `chrono::Duration`. -/
abbrev Duration := ℤ

/-- `chrono::Duration::minutes`. -/
def minutes (n : ℤ) : Duration := n * 60 * 1000000000

/-- `chrono::Duration::seconds`. -/
def seconds (n : ℤ) : Duration := n * 1000000000

/-! ### Operations and inventories -/

/-- The operations of a job. -/
inductive Operation
  | deployGho
  | captureGho
  | deployWim
  | installLinux
  deriving DecidableEq, Repr

/-- The architectures a device may report. -/
inductive Architecture
  | x86_64
  | aarch64
  | unknown
  deriving DecidableEq, Repr

/-- The firmware a device has booted with. -/
inductive BootMode
  | uefi
  | legacyBios
  | unknown
  deriving DecidableEq, Repr

/-- A disk in the inventory of a device. -/
structure Disk where
  id : String
  model : String
  serial : Option String
  sizeBytes : UInt64
  isSystem : Bool
  deriving DecidableEq

/-- A memory module in the inventory of a device. -/
structure MemoryModule where
  manufacturer : Option String
  partNumber : Option String
  capacityBytes : UInt64
  speedMhz : Option UInt32
  deriving DecidableEq

/-- A graphics card or another named part of a device. -/
structure HardwareComponent where
  name : String
  manufacturer : Option String
  memoryBytes : Option UInt64
  deriving DecidableEq

/-- A network adapter in the inventory of a device. -/
structure NetworkAdapter where
  name : String
  manufacturer : Option String
  macAddress : Option String
  speedBps : Option UInt64
  deriving DecidableEq

/-- The details of a device; all of them may be missing. -/
structure SystemDetails where
  osName : Option String := none
  osVersion : Option String := none
  uptimeSeconds : Option UInt64 := none
  motherboard : Option String := none
  memoryModules : List MemoryModule := []
  gpus : List HardwareComponent := []
  displays : List HardwareComponent := []
  audioDevices : List HardwareComponent := []
  networkAdapters : List NetworkAdapter := []
  deriving DecidableEq

/-- A registered device. -/
structure Device where
  id : Uuid
  hostname : Option String
  macAddress : String
  ipAddress : String
  model : Option String
  serial : Option String
  cpuModel : Option String
  physicalCoreCount : Option UInt32
  logicalProcessorCount : UInt32
  memoryBytes : UInt64
  systemDetails : SystemDetails
  architecture : Architecture
  bootMode : BootMode
  disks : List Disk
  lastSeenAt : Instant
  deriving DecidableEq

/-- What an Agent reports of its machine. -/
structure AgentInventory where
  hostname : Option String
  macAddress : String
  model : Option String
  serial : Option String
  cpuModel : Option String
  physicalCoreCount : Option UInt32
  logicalProcessorCount : UInt32
  memoryBytes : UInt64
  systemDetails : SystemDetails
  architecture : Architecture
  bootMode : BootMode
  disks : List Disk
  agentVersion : String
  deriving DecidableEq

/-- The record of a device in the registry. -/
structure RegisteredDevice where
  device : Device
  agentVersion : String
  firstSeenAt : Instant
  online : Bool
  deriving DecidableEq

/-- The answer to the registration of a device, with its new token. -/
structure AgentRegistration where
  deviceId : Uuid
  deviceToken : String
  heartbeatIntervalSeconds : UInt64
  deriving DecidableEq

/-- The answer to a heartbeat. -/
structure AgentHeartbeatAck where
  acceptedAt : Instant
  nextHeartbeatSeconds : UInt64
  deriving DecidableEq

/-! ### Images -/

/-- The formats of an image. -/
inductive ImageFormat
  | gho
  | wim
  | esd
  | swm
  | iso
  deriving DecidableEq, Repr

/-- The format as `Debug` prints it. -/
def ImageFormat.debug : ImageFormat → String
  | .gho => "Gho"
  | .wim => "Wim"
  | .esd => "Esd"
  | .swm => "Swm"
  | .iso => "Iso"

/-- What the verified capability of an installer image promises and requires. -/
structure InstallerCapability where
  architecture : Architecture
  minimumMemoryBytes : UInt64
  minimumDiskBytes : UInt64
  deriving DecidableEq

/-! ### Network boot -/

/-- Whether the service hands out addresses itself or answers beside another server. -/
inductive PxeMode
  | standaloneDhcp
  | proxyDhcp
  deriving DecidableEq, Repr

/-- The configuration of the boot service. -/
structure PxeConfig where
  mode : PxeMode
  bindAddress : String
  subnetMask : String
  poolStart : String
  poolEnd : String
  leaseSeconds : UInt32
  gateway : Option String
  dnsServers : List String
  tftpRoot : String
  biosBootFile : String
  uefiX64BootFile : String
  deriving DecidableEq, Repr

end EasyDeployMesh
