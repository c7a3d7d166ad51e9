import EasyDeployMesh.Core.Models
import EasyDeployMesh.Foundations.Network
import EasyDeployMesh.Foundations.Result

/-!
# The configuration of the network-boot service

What `crates/service/src/pxe.rs` requires of a configuration before the service starts. What the
host says of paths and files is a parameter.

## Main definitions

* `EasyDeployMesh.PxeServiceError`, `EasyDeployMesh.PxeHost`.
* `EasyDeployMesh.parseIpv4`, `EasyDeployMesh.validatePxeConfig`.
* `EasyDeployMesh.PxeConfig.Validated`: the parsed addresses of an accepted configuration.

## Main results

* `EasyDeployMesh.exists_validated`: what `validatePxeConfig` checks of the addresses.
-/

namespace EasyDeployMesh

open Foundations

/-! ### Checks -/

/-- The errors of the boot service. -/
inductive PxeServiceError
  | invalidConfig (message : String)
  | poolContainsServer
  | unsafeBootFile (path : String)
  | missingBootFile (path : String)
  | io (source : String)
  deriving DecidableEq, Repr

/-- `std::path::Component`. -/
inductive PathComponent
  | drive
  | rootDir
  | curDir
  | parentDir
  | normal (name : String)
  deriving DecidableEq, Repr

/-- What the host says of a path: its parts, and the files there. -/
structure PxeHost where
  isAbsolute : String → Bool
  components : String → List PathComponent
  isDir : String → Bool
  /-- `root.join(file).is_file()`. -/
  isFile : String → String → Bool

/-- A path that stays below the root it is joined to. -/
def validateRelativePath (host : PxeHost) (value : String) : Except PxeServiceError Unit :=
  if value.isEmpty || host.isAbsolute value ||
      (host.components value).any (fun c => c == .parentDir || c == .rootDir || c == .drive) then
    .error (.unsafeBootFile value)
  else .ok ()

/-- An address, or the refusal that names its field. -/
def parseIpv4 (value label : String) : Except PxeServiceError Ipv4Addr :=
  (Ipv4Addr.parse value).elim
    (.error (.invalidConfig (label ++ " must be an IPv4 address"))) .ok

/-- The boot file, unless its name is empty, is a file below the root. -/
def validateBootFile (host : PxeHost) (root file : String) : Except PxeServiceError Unit :=
  if file.isEmpty || host.isFile root file then .ok () else .error (.missingBootFile file)

/-- The first check that a configuration fails. -/
def validatePxeConfig (host : PxeHost) (config : PxeConfig) : Except PxeServiceError Unit := do
  let server ← parseIpv4 config.bindAddress "bind address"
  let mask ← parseIpv4 config.subnetMask "subnet mask"
  let start ← parseIpv4 config.poolStart "pool start"
  let last ← parseIpv4 config.poolEnd "pool end"
  if mask.bits = 0 ∨ mask.bits ||| (mask.bits - 1) ≠ 0xFFFFFFFF then
    .error (.invalidConfig "subnet mask must be contiguous")
  let network := server.bits &&& mask.bits
  let broadcast := network ||| ~~~mask.bits
  if start.bits > last.bits ∨ start.bits ≤ network ∨ last.bits ≥ broadcast ∨
      start.bits &&& mask.bits ≠ network ∨ last.bits &&& mask.bits ≠ network then
    .error (.invalidConfig "DHCP pool must be ordered and inside the selected subnet")
  if start.bits ≤ server.bits ∧ server.bits ≤ last.bits then
    .error .poolContainsServer
  if ¬ (60 ≤ config.leaseSeconds ∧ config.leaseSeconds ≤ 604800) then
    .error (.invalidConfig "lease must be between 60 and 604800 seconds")
  config.gateway.forM fun gateway => discard (parseIpv4 gateway "gateway")
  config.dnsServers.forM fun dns => discard (parseIpv4 dns "DNS server")
  if ¬ config.biosBootFile.isEmpty then
    validateRelativePath host config.biosBootFile
  validateRelativePath host config.uefiX64BootFile
  if ¬ host.isDir config.tftpRoot then
    .error (.invalidConfig "TFTP root is not a directory")
  validateBootFile host config.tftpRoot config.biosBootFile
  validateBootFile host config.tftpRoot config.uefiX64BootFile

/-! ### Checked configurations -/

/-- The addresses of a configuration and how they lie in their subnet. -/
structure PxeConfig.Validated (config : PxeConfig) (server mask start last : Ipv4Addr) : Prop where
  server_eq : Ipv4Addr.parse config.bindAddress = some server
  mask_eq : Ipv4Addr.parse config.subnetMask = some mask
  start_eq : Ipv4Addr.parse config.poolStart = some start
  last_eq : Ipv4Addr.parse config.poolEnd = some last
  ordered : start.bits ≤ last.bits
  aboveNetwork : server.bits &&& mask.bits < start.bits
  belowBroadcast : last.bits < (server.bits &&& mask.bits) ||| ~~~mask.bits
  startInSubnet : start.bits &&& mask.bits = server.bits &&& mask.bits
  lastInSubnet : last.bits &&& mask.bits = server.bits &&& mask.bits
  serverOutside : ¬ (start.bits ≤ server.bits ∧ server.bits ≤ last.bits)
  leaseSeconds : 60 ≤ config.leaseSeconds ∧ config.leaseSeconds ≤ 604800
  gateway : ∀ gateway ∈ config.gateway, ∃ ip, Ipv4Addr.parse gateway = some ip
  dnsServers : ∀ dns ∈ config.dnsServers, ∃ ip, Ipv4Addr.parse dns = some ip

theorem parseIpv4_eq_ok_iff {value label : String} {ip : Ipv4Addr} :
    parseIpv4 value label = .ok ip ↔ Ipv4Addr.parse value = some ip :=
  elim_eq_ok_iff

private theorem exists_parse_of_discard {value label : String}
    (h : discard (parseIpv4 value label) = .ok ()) : ∃ ip, Ipv4Addr.parse value = some ip := by
  cases hvalue : parseIpv4 value label with
  | error e => simp [hvalue, discard, Functor.discard, Functor.mapConst, Except.map] at h
  | ok ip => exact ⟨ip, parseIpv4_eq_ok_iff.1 hvalue⟩

private theorem forM_parseIpv4_eq_ok {values : List String} {label : String}
    (h : (values.forM fun value => discard (parseIpv4 value label)) = .ok ()) :
    ∀ value ∈ values, ∃ ip, Ipv4Addr.parse value = some ip := by
  induction values with
  | nil => simp
  | cons value values ih =>
    rw [List.forM_eq_forM, List.forM_cons, bind_unit_eq_ok_iff, ← List.forM_eq_forM] at h
    rw [List.forall_mem_cons]
    exact ⟨exists_parse_of_discard h.1, ih h.2⟩

/-- An accepted configuration has addresses that parse, and a pool inside its subnet. -/
theorem exists_validated {host : PxeHost} {config : PxeConfig}
    (h : validatePxeConfig host config = .ok ()) :
    ∃ server mask start last, config.Validated server mask start last := by
  simp only [validatePxeConfig, bind_eq_ok_iff, check_eq_ok_iff, parseIpv4_eq_ok_iff, not_or,
    not_not, ne_eq, gt_iff_lt, ge_iff_le, UInt32.not_lt, UInt32.not_le] at h
  obtain ⟨server, hserver, mask, hmask, start, hstart, last, hlast, -,
    ⟨hordered, habove, hbelow, hstartIn, hlastIn⟩, hserverOut, hlease, _, hgateway, _, hdns, _⟩ := h
  refine ⟨server, mask, start, last, hserver, hmask, hstart, hlast, hordered, habove, hbelow,
    hstartIn, hlastIn, hserverOut, hlease, ?_, forM_parseIpv4_eq_ok hdns⟩
  cases hg : config.gateway with
  | none => simp
  | some gateway =>
    have hparse : (discard (parseIpv4 gateway "gateway")) = .ok () := by
      simpa [hg, Option.forM] using hgateway
    simpa using exists_parse_of_discard hparse

end EasyDeployMesh
