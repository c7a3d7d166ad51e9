import EasyDeployMesh.Core.Models

/-!
# Images

The catalog entry of an image, from `crates/core/src/models.rs`: its files, its digest, and what an
inspection of its content found out about deploying it.

## Main definitions

* `EasyDeployMesh.GhoImageCapability`: what a GHO image contains.
* `EasyDeployMesh.CatalogInstallerCapability`: what an installer image contains, and
  `EasyDeployMesh.CatalogInstallerCapability.isSupportedUbuntuServerV1`.
* `EasyDeployMesh.ImageArtifact`: the catalog entry.
-/

namespace EasyDeployMesh

open Foundations

/-- The version of the installer profile that this host renders. -/
def ubuntuAutoinstallProfileVersion : UInt32 := 1

/-- The smallest disk that the installer is offered. -/
def ubuntuMinimumDiskBytes : UInt64 := 25 * 1024 * 1024 * 1024

/-- The smallest memory that the installer is offered. -/
def ubuntuMinimumMemoryBytes : UInt64 := 2 * 1024 * 1024 * 1024

/-- The distributions that an installer image may hold. -/
inductive InstallerDistribution
  | ubuntu
  deriving DecidableEq, Repr

/-- The ways in which an installer image is run unattended. -/
inductive InstallerProfile
  | ubuntuAutoinstall
  deriving DecidableEq, Repr

/-- A file that the firmware loads from an installer image. -/
structure InstallerBootAsset where
  /-- The canonical path below the directory of the managed image. -/
  path : String
  sizeBytes : UInt64
  sha256 : String
  deriving DecidableEq

/-- The capability of an installer image as the catalog records it. -/
structure CatalogInstallerCapability extends InstallerCapability where
  deployable : Bool
  distribution : InstallerDistribution
  release : String
  profile : InstallerProfile
  profileVersion : UInt32
  kernel : InstallerBootAsset
  initrd : InstallerBootAsset
  blockedReason : Option String
  deriving DecidableEq

/-- The path, the size and the digest of an asset are filled in. -/
def installerAssetMetadataIsValid (asset : InstallerBootAsset) : Bool :=
  !(Text.trim asset.path).isEmpty && 0 < asset.sizeBytes && asset.sha256.utf8ByteSize == 64 &&
    asset.sha256.toList.all Text.isAsciiHexdigit

namespace CatalogInstallerCapability

/-- The only installer profile that the host implements. -/
def isSupportedUbuntuServerV1 (capability : CatalogInstallerCapability) : Bool :=
  capability.deployable && capability.blockedReason.isNone &&
    capability.distribution == .ubuntu && capability.release == "24.04" &&
    capability.architecture == .x86_64 && capability.profile == .ubuntuAutoinstall &&
    capability.profileVersion == ubuntuAutoinstallProfileVersion &&
    ubuntuMinimumMemoryBytes ≤ capability.minimumMemoryBytes &&
    ubuntuMinimumDiskBytes ≤ capability.minimumDiskBytes &&
    installerAssetMetadataIsValid capability.kernel &&
    installerAssetMetadataIsValid capability.initrd

end CatalogInstallerCapability

/-- A partition of a GHO image with its expanded size and digest. -/
structure GhoPartitionCapability where
  sourcePartition : UInt32
  fileSystem : String
  expandedSizeBytes : UInt64
  expandedSha256 : String
  deriving DecidableEq

/-- What the inspection of a GHO image found, and whether it can be deployed. -/
structure GhoImageCapability where
  deployable : Bool
  compression : Option String
  expandedSizeBytes : Option UInt64
  expandedSha256 : Option String
  partitionCount : Option UInt32
  sourcePartition : Option UInt32
  partitions : List GhoPartitionCapability
  parserVersion : UInt32
  blockedReason : Option String
  deriving DecidableEq

/-- The record of an image in the library. -/
structure ImageArtifact where
  id : Uuid
  name : String
  format : ImageFormat
  sourcePath : String
  sizeBytes : UInt64
  sha256 : Option String
  spans : List String
  verified : Bool
  ghoCapability : Option GhoImageCapability
  installerCapability : Option CatalogInstallerCapability
  createdAt : Instant
  deriving DecidableEq

end EasyDeployMesh
