import EasyDeployMesh.Core.Models
import EasyDeployMesh.Foundations.Focus
import EasyDeployMesh.Service.Manifest

/-!
# The device registry

`crates/service/src/device_registry.rs`: the records of the devices behind a lock and the manifest
file that holds them. A device registers under its MAC address and receives a token; the token
authenticates its heartbeats. A secret is kept as its SHA-256 digest in hexadecimal; the digest
function is a parameter. The clock reading, the minted UUIDs and the outcome of the write are
arguments of a call.

## Main definitions

* `EasyDeployMesh.normalizeMacAddress`, `EasyDeployMesh.validateInventory`.
* `EasyDeployMesh.generateSecret`, `EasyDeployMesh.secretMatches`.
* `EasyDeployMesh.DeviceRegistry` and its calls `register`, `heartbeat`, `authenticate`, `remove`
  and `findByMac`.
-/

namespace EasyDeployMesh

open Foundations

/-- How long a device waits between two heartbeats. -/
def defaultHeartbeatIntervalSeconds : UInt64 := 10

/-- How long a device counts as online after it was last seen. -/
def deviceOnlineWindow : Duration := seconds 35

/-- The errors of the registry. -/
inductive DeviceRegistryError
  | invalidMacAddress (value : String)
  | missingAgentVersion
  | notFound (id : Uuid)
  | unauthorized
  | write (path source : String)
  | invalidManifest
  deriving DecidableEq

/-- The record of a device; of its token only the digest is kept. -/
structure DeviceRecord where
  device : Device
  agentVersion : String
  firstSeenAt : Instant
  tokenDigest : String
  deriving DecidableEq

/-- The version of the manifest that this host writes. -/
def deviceManifestSchemaVersion : UInt32 := 1

/-- The contents of the manifest of the registry. -/
structure DeviceManifest where
  schemaVersion : UInt32
  devices : List DeviceRecord
  deriving DecidableEq

/-- The records behind the lock of the registry, and the file at `manifestPath`. -/
structure DeviceRegistry where
  manifestPath : String
  devices : List DeviceRecord
  manifestFile : ManifestFile DeviceManifest
  deriving DecidableEq

/-! ### Inventories -/

/-- The digits in pairs, separated by colons. -/
def colonPairs : List Char → List Char
  | a :: b :: c :: l => a :: b :: ':' :: colonPairs (c :: l)
  | l => l

/-- Twelve hexadecimal digits in pairs, in upper case, whatever stood between them. -/
def normalizeMacAddress (value : String) : Except DeviceRegistryError String :=
  let hexadecimal := (value.toList.filter Text.isAsciiHexdigit).map Char.toUpper
  if hexadecimal.length ≠ 12 then .error (.invalidMacAddress value)
  else .ok (String.ofList (colonPairs hexadecimal))

example : normalizeMacAddress "02-1a:2B3c4d.5e" = .ok "02:1A:2B:3C:4D:5E" := by decide

/-- A text without blanks at its ends, cut to 255 characters. -/
def normalizedText (value : String) : String :=
  Text.takeChars 255 (Text.trim value)

/-- A text that is empty after its normalization counts as missing. -/
def normalizeOptionalText (value : Option String) : Option String :=
  (value.map normalizedText).filter fun value => !value.isEmpty

namespace SystemDetails

/-- The components with a name, at most 32 of them. -/
def normalizeComponents (components : List HardwareComponent) : List HardwareComponent :=
  ((components.take 32).map fun component =>
    { component with
      name := normalizedText component.name
      manufacturer := normalizeOptionalText component.manufacturer }).filter fun component =>
    !component.name.isEmpty

/-- The part of `validate_inventory` about the details of the system. -/
def normalize (details : SystemDetails) : SystemDetails :=
  { details with
    osName := normalizeOptionalText details.osName
    osVersion := normalizeOptionalText details.osVersion
    motherboard := normalizeOptionalText details.motherboard
    memoryModules := (details.memoryModules.take 64).map fun memoryModule =>
      { memoryModule with
        manufacturer := normalizeOptionalText memoryModule.manufacturer
        partNumber := normalizeOptionalText memoryModule.partNumber }
    gpus := normalizeComponents details.gpus
    displays := normalizeComponents details.displays
    audioDevices := normalizeComponents details.audioDevices
    networkAdapters := ((details.networkAdapters.take 64).map fun adapter =>
      { adapter with
        name := normalizedText adapter.name
        manufacturer := normalizeOptionalText adapter.manufacturer
        macAddress := normalizeOptionalText adapter.macAddress }).filter fun adapter =>
      !adapter.name.isEmpty }

end SystemDetails

/-- The inventory as the registry stores it. -/
def validateInventory (inventory : AgentInventory) : Except DeviceRegistryError AgentInventory := do
  let macAddress ← normalizeMacAddress inventory.macAddress
  let agentVersion := Text.takeChars 64 (Text.trim inventory.agentVersion)
  if agentVersion.isEmpty then .error .missingAgentVersion
  else .ok { inventory with
    macAddress, agentVersion
    hostname := normalizeOptionalText inventory.hostname
    model := normalizeOptionalText inventory.model
    serial := normalizeOptionalText inventory.serial
    cpuModel := normalizeOptionalText inventory.cpuModel
    systemDetails := inventory.systemDetails.normalize }

/-- The device that an inventory describes. -/
def AgentInventory.toDevice (inventory : AgentInventory) (id : Uuid) (ipAddress : String)
    (now : Instant) : Device where
  id := id
  hostname := inventory.hostname
  macAddress := inventory.macAddress
  ipAddress := ipAddress
  model := inventory.model
  serial := inventory.serial
  cpuModel := inventory.cpuModel
  physicalCoreCount := inventory.physicalCoreCount
  logicalProcessorCount := inventory.logicalProcessorCount
  memoryBytes := inventory.memoryBytes
  systemDetails := inventory.systemDetails
  architecture := inventory.architecture
  bootMode := inventory.bootMode
  disks := inventory.disks
  lastSeenAt := now

@[simp] theorem AgentInventory.toDevice_id (inventory : AgentInventory) (id : Uuid)
    (ipAddress : String) (now : Instant) : (inventory.toDevice id ipAddress now).id = id := rfl

@[simp] theorem AgentInventory.toDevice_macAddress (inventory : AgentInventory) (id : Uuid)
    (ipAddress : String) (now : Instant) :
    (inventory.toDevice id ipAddress now).macAddress = inventory.macAddress := rfl

/-! ### Secrets -/

/-- A random secret: two fresh UUIDs behind a label. -/
def generateSecret (label : String) (first second : Uuid) : String :=
  label ++ "_" ++ first.simple ++ second.simple

theorem utf8ByteSize_generateSecret (label : String) (first second : Uuid) :
    (generateSecret label first second).utf8ByteSize = label.utf8ByteSize + 65 := by
  have hseparator : "_".utf8ByteSize = 1 := by decide
  simp only [generateSecret, Uuid.simple, String.utf8ByteSize_append, Text.utf8ByteSize_hexDigits,
    hseparator]

/-- The candidate has the expected digest. -/
def secretMatches (digest : String → String) (expectedDigest candidate : String) : Bool :=
  expectedDigest == digest candidate

namespace DeviceRegistry

/-- `open`: the registry over the content of the manifest file. -/
def openManifest (manifestPath : String) (file : ManifestFile DeviceManifest) :
    Except DeviceRegistryError DeviceRegistry :=
  match file with
  | .absent => .ok { manifestPath, devices := [], manifestFile := file }
  | .complete manifest => .ok { manifestPath, devices := manifest.devices, manifestFile := file }
  | .truncated => .error .invalidManifest

variable (registry : DeviceRegistry)

/-! ### Queries -/

/-- The device with the MAC address, in the form in which registration stores it. -/
def findByMac (macAddress : String) : Except DeviceRegistryError (Option Device) :=
  (normalizeMacAddress macAddress).map fun normalized =>
    (registry.devices.find? fun record => record.device.macAddress == normalized).map
      DeviceRecord.device

/-- The token of a device, held against the digest of its record. -/
def authenticate (digest : String → String) (id : Uuid) (deviceToken : String) :
    Except DeviceRegistryError Unit :=
  match registry.devices.find? (fun record => record.device.id == id) with
  | none => .error (.notFound id)
  | some record =>
    if !secretMatches digest record.tokenDigest deviceToken then .error .unauthorized else .ok ()

/-- A record as the registry lists it; a device that was seen in the future counts as just seen. -/
def registeredDevice (record : DeviceRecord) (now : Instant) (onlineWindow : Duration) :
    RegisteredDevice where
  device := record.device
  agentVersion := record.agentVersion
  firstSeenAt := record.firstSeenAt
  online := max (now - record.device.lastSeenAt) 0 ≤ onlineWindow

/-- The devices, the most recently seen first. -/
def list (now : Instant) : List RegisteredDevice :=
  (registry.devices.map fun record =>
    registeredDevice record now deviceOnlineWindow).insertionSort fun a b =>
      b.device.lastSeenAt ≤ a.device.lastSeenAt

/-- The device is registered. -/
def contains (id : Uuid) : Bool := registry.devices.any fun record => record.device.id == id

/-! ### Calls -/

/-- Writes the records to the manifest file. -/
def persist (devices : List DeviceRecord) (write : WriteOutcome) :
    Except DeviceRegistryError Unit × ManifestFile DeviceManifest :=
  (write.result.mapError (.write registry.manifestPath),
    registry.manifestFile.write { schemaVersion := deviceManifestSchemaVersion, devices } write)

/-- Persists the next records and, when that succeeds, installs them and returns `value`. -/
def commit {α : Type} (nextDevices : List DeviceRecord) (value : α) (write : WriteOutcome) :
    Except DeviceRegistryError α × DeviceRegistry :=
  match registry.persist nextDevices write with
  | (.ok (), file) => (.ok value, { registry with devices := nextDevices, manifestFile := file })
  | (.error error, file) => (.error error, { registry with manifestFile := file })

/-- The record of a registration: it keeps the id and the first sighting of the record that is known
already, and has the minted `id` otherwise. -/
def registeredRecord (digest : String → String) (inventory : AgentInventory) (ipAddress : String)
    (now : Instant) (deviceToken : String) (id : Uuid) (known : Option DeviceRecord) :
    DeviceRecord where
  device := inventory.toDevice ((known.map fun record => record.device.id).getD id) ipAddress now
  agentVersion := inventory.agentVersion
  firstSeenAt := (known.map DeviceRecord.firstSeenAt).getD now
  tokenDigest := digest deviceToken

/-- `id` is the UUID that is minted when no record has the MAC address of the inventory. -/
def register (digest : String → String) (inventory : AgentInventory) (ipAddress : String)
    (now : Instant) (secret : Uuid × Uuid) (id : Uuid) (write : WriteOutcome) :
    Except DeviceRegistryError (RegisteredDevice × AgentRegistration) × DeviceRegistry :=
  match validateInventory inventory with
  | .error error => (.error error, registry)
  | .ok inventory =>
    let deviceToken := generateSecret "easydeploymesh_device" secret.1 secret.2
    let record := registeredRecord digest inventory ipAddress now deviceToken id
      (registry.devices.find? fun record => record.device.macAddress == inventory.macAddress)
    registry.commit
      ((registry.devices.filter fun existing => existing.device.id != record.device.id) ++ [record])
      (registeredDevice record now deviceOnlineWindow,
        { deviceId := record.device.id, deviceToken,
          heartbeatIntervalSeconds := defaultHeartbeatIntervalSeconds }) write

/-- The record of a device with the inventory of a heartbeat. -/
def beat (inventory : AgentInventory) (ipAddress : String) (now : Instant) (record : DeviceRecord) :
    DeviceRecord :=
  { record with
    device := inventory.toDevice record.device.id ipAddress now
    agentVersion := inventory.agentVersion }

/-- The record of a device takes over what the device reports, if its token is right. -/
def heartbeat (digest : String → String) (id : Uuid) (deviceToken : String)
    (inventory : AgentInventory) (ipAddress : String) (now : Instant) (write : WriteOutcome) :
    Except DeviceRegistryError AgentHeartbeatAck × DeviceRegistry :=
  match validateInventory inventory with
  | .error error => (.error error, registry)
  | .ok inventory =>
    match focus (fun record => record.device.id == id) registry.devices with
    | none => (.error (.notFound id), registry)
    | some (record, put) =>
      if !secretMatches digest record.tokenDigest deviceToken then (.error .unauthorized, registry)
      else registry.commit (put (beat inventory ipAddress now record))
        { acceptedAt := now, nextHeartbeatSeconds := defaultHeartbeatIntervalSeconds } write

/-- The registry without a device. -/
def remove (id : Uuid) (write : WriteOutcome) : Except DeviceRegistryError Bool × DeviceRegistry :=
  let nextDevices := registry.devices.filter fun record => record.device.id != id
  if nextDevices.length = registry.devices.length then (.ok false, registry)
  else registry.commit nextDevices true write

end DeviceRegistry

end EasyDeployMesh
