import EasyDeployMesh.Foundations.Run
import EasyDeployMesh.Foundations.Focus
import EasyDeployMesh.Foundations.Text
import EasyDeployMesh.Foundations.Arithmetic
import EasyDeployMesh.Foundations.Result
import EasyDeployMesh.Core.JobState
import EasyDeployMesh.Core.Models
import EasyDeployMesh.Core.PartitionPlan
import EasyDeployMesh.Core.PartitionCapacity
import EasyDeployMesh.Core.LinuxInstall
import EasyDeployMesh.Core.Image
import EasyDeployMesh.Core.Job
import EasyDeployMesh.Service.Manifest
import EasyDeployMesh.Service.JobRepository.Model
import EasyDeployMesh.Service.JobRepository.World
import EasyDeployMesh.Service.JobRepository.Effect
import EasyDeployMesh.Service.JobRepository.Invariant
import EasyDeployMesh.Service.JobRepository.Exclusivity
import EasyDeployMesh.Service.JobRepository.LeaseLife
import EasyDeployMesh.Service.JobRepository.LinuxHandoff
import EasyDeployMesh.Service.DeviceRegistry
import EasyDeployMesh.Service.InstallerDeployment.Session
import EasyDeployMesh.Service.InstallerDeployment.Autoinstall
import EasyDeployMesh.Service.InstallerDeployment.Model
import EasyDeployMesh.Service.InstallerDeployment.Calls
import EasyDeployMesh.Service.InstallerDeployment.World
import EasyDeployMesh.Service.InstallerDeployment.Sections
import EasyDeployMesh.Service.InstallerDeployment.Table
import EasyDeployMesh.Service.InstallerDeployment.Invariant
import EasyDeployMesh.Service.InstallerDeployment.History
import EasyDeployMesh.Service.InstallerDeployment.GuardSafety
import EasyDeployMesh.Service.InstallerDeployment.Eviction
import EasyDeployMesh.Service.InstallerDeployment.SessionLifetime
import EasyDeployMesh.Service.InstallerDeployment.Attestation
import EasyDeployMesh.Service.InstallerDeployment.BootDecision
import EasyDeployMesh.Service.DeviceRegistry.World
import EasyDeployMesh.Service.DeviceRegistry.Identity
import EasyDeployMesh.Service.DeviceRegistry.Tokens
import EasyDeployMesh.Agent.Deployment
import EasyDeployMesh.Agent.DiskpartScript
import EasyDeployMesh.Agent.LayoutVolumes
import EasyDeployMesh.Agent.MbrLayout
import EasyDeployMesh.Agent.LayoutCapacity
import EasyDeployMesh.Agent.HostAcceptance
import EasyDeployMesh.Agent.Client
import EasyDeployMesh.Service.ControlPlane.JobEndpoints
import EasyDeployMesh.Agent.RunChecked
import EasyDeployMesh.Agent.Completion
import EasyDeployMesh.Foundations.Network
import EasyDeployMesh.Service.Pxe.Config
import EasyDeployMesh.Service.Pxe.Dhcp
import EasyDeployMesh.Service.Pxe.Reply
import EasyDeployMesh.Service.Pxe.LeaseSafety
import EasyDeployMesh.Service.Pxe.Media
import EasyDeployMesh.Service.Pxe.BootPackage
import EasyDeployMesh.Service.Pxe.PolicyRetention
import EasyDeployMesh.Service.ImageLibrary
import EasyDeployMesh.Foundations.Mutex
import EasyDeployMesh.Desktop.DeploymentMutation
import EasyDeployMesh.Desktop.World
import EasyDeployMesh.Desktop.ImageReferences
import EasyDeployMesh.Desktop.DeviceReferences
import EasyDeployMesh.Service.Persistence
import EasyDeployMesh.Foundations.Bytes
import EasyDeployMesh.Gho.Container
import EasyDeployMesh.Gho.Decode
import EasyDeployMesh.Gho.BlockFraming
import EasyDeployMesh.Gho.FastLz
import EasyDeployMesh.Foundations.Segments
import EasyDeployMesh.Gho.SpanReader
import EasyDeployMesh.Service.ControlPlane.ImageStream
import EasyDeployMesh.Service.ImageLibrary.Deployment
import EasyDeployMesh.Service.ControlPlane.ClaimJob
import EasyDeployMesh.Desktop.CapacityAgreement
import EasyDeployMesh.Service.ControlPlane.ClaimSafety
import EasyDeployMesh.Agent.ScriptGrammar
import EasyDeployMesh.Service.InstallerDeployment.GuardReplay
import EasyDeployMesh.Service.InstallerDeployment.FirstBoot
import EasyDeployMesh.Desktop.LinuxTarget
import EasyDeployMesh.Service.JobRepository.InstallerProgress
import EasyDeployMesh.Service.Pxe.ReplyOptions
import EasyDeployMesh.Foundations.Framing
import EasyDeployMesh.Service.Pxe.Tftp
import EasyDeployMesh.Service.Pxe.TftpFraming
import EasyDeployMesh.Bcd.Hive
import EasyDeployMesh.Bcd.HiveLayout
import EasyDeployMesh.Bcd.HivePatch
import EasyDeployMesh.Foundations.Json
import EasyDeployMesh.Service.InstallerDeployment.AutoinstallGrammar
import EasyDeployMesh.Foundations.Subnet
import EasyDeployMesh.Service.Pxe.OptionCodec
import EasyDeployMesh.Service.Pxe.PoolSoundness
import EasyDeployMesh.Foundations.ByteRange
import EasyDeployMesh.Service.ServedFile
import EasyDeployMesh.Service.ControlPlane.MediaResponse
import EasyDeployMesh.Service.Pxe.NativeIso
import EasyDeployMesh.Service.ServedRanges
import EasyDeployMesh.Foundations.HostPath
import EasyDeployMesh.Service.Pxe.Extraction
import EasyDeployMesh.Service.Pxe.ExtractionContainment
import EasyDeployMesh.Service.Pxe.UdfTree
import EasyDeployMesh.Service.Pxe.UdfBounds
import EasyDeployMesh.Foundations.Descent
import EasyDeployMesh.Service.Pxe.IsoTermination
import EasyDeployMesh.Service.Pxe.DispatcherRestart
import EasyDeployMesh.Foundations.FaultyDisk
import EasyDeployMesh.Service.Pxe.PackageReplacement
import EasyDeployMesh.Service.Pxe.ReplacementSafety
import EasyDeployMesh.Foundations.Outcome
import EasyDeployMesh.Gho.Reading
import EasyDeployMesh.Foundations.Avoids
import EasyDeployMesh.Gho.FastLzSafety
import EasyDeployMesh.Gho.FilledReads
import EasyDeployMesh.Gho.DecodeAccounting
import EasyDeployMesh.Bcd.FreeCellSearch
import EasyDeployMesh.Foundations.Lines
import EasyDeployMesh.Service.Pxe.Winpeshl
import EasyDeployMesh.Agent.DiskpartTable
import EasyDeployMesh.Desktop.LinuxForm
import EasyDeployMesh.Desktop.PartitionForm
import EasyDeployMesh.Service.ActivityRepository
import EasyDeployMesh.Service.ImageLibrary.GhostSpans
import EasyDeployMesh.Agent.Execution
import EasyDeployMesh.Agent.ExecutionSteps
import EasyDeployMesh.Agent.ExecutionSafety
import EasyDeployMesh.Service.ControlPlane.GhoAgreement
import EasyDeployMesh.Agent.MainLoop
