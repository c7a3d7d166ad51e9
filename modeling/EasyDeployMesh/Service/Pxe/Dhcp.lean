import EasyDeployMesh.Foundations.Focus
import EasyDeployMesh.Service.Pxe.Config

/-!
# The DHCP server of the network-boot service

The part of `crates/service/src/pxe.rs` that answers DHCP packets: the options of a packet, the
table of leases, and the reply. A packet is a list of bytes; a read outside it, and the `unwrap` of
an address that does not parse, end in `DhcpStop.panicked`.

## Main definitions

* `EasyDeployMesh.dhcpOption`, `EasyDeployMesh.pushOption`: an option of a packet.
* `EasyDeployMesh.allocateLease`, `EasyDeployMesh.assignRequestedLease`: the updates of the table.
* `EasyDeployMesh.buildDhcpReply`, `EasyDeployMesh.processDhcp`: the answer to a packet.
-/

namespace EasyDeployMesh

open Foundations

/-! ### Packets -/

/-- The port on which a client listens. -/
def dhcpClientPort : UInt16 := 68

/-- The four bytes in front of the options. -/
def dhcpMagicCookie : List UInt8 := [99, 130, 83, 99]

/-- The vendor class by which the service knows its own probe. -/
def dhcpProbeVendorClass : List UInt8 := stringBytes "EasyDeployMesh-DHCP-Probe"

/-- The first option with the code `wanted` in the options part of a packet; `skip` counts the bytes
of an option's value that are still to be passed over. -/
def optionFrom (wanted : UInt8) : ℕ → List UInt8 → Option (List UInt8)
  | _, [] => none
  | skip + 1, _ :: rest => optionFrom wanted skip rest
  | 0, code :: rest =>
    if code = 255 then none
    else if code = 0 then optionFrom wanted 0 rest
    else match rest with
      | [] => none
      | len :: value =>
        if value.length < len.toNat then none
        else if code = wanted then some (value.take len.toNat)
        else optionFrom wanted (1 + len.toNat) (len :: value)

/-- The value of the first option with the wanted code. -/
def dhcpOption (packet : List UInt8) (wanted : UInt8) : Option (List UInt8) :=
  if packet.length < 240 then none else optionFrom wanted 0 (packet.drop 240)

/-- A value of more than 255 bytes is left out. -/
def pushOption (out : List UInt8) (code : UInt8) (value : List UInt8) : List UInt8 :=
  if value.length ≤ 255 then out ++ code :: UInt8.ofNat value.length :: value else out

/-- How the handling of a packet ends without a reply. -/
inductive DhcpStop
  | ignored
  | panicked
  deriving DecidableEq, Repr

/-- An indexing or an `unwrap`, which panics when there is no value. -/
def unwrap {α : Type} (x : Option α) : Except DhcpStop α := x.elim (.error .panicked) .ok

/-- `{b:02X}`: two uppercase hexadecimal digits. -/
def upperHexByte (b : UInt8) : List Char := (Text.hexDigits 2 b.toNat).map Char.toUpper

/-- The text of a hardware address, with colons between the bytes. -/
def macText (address : List UInt8) : String :=
  String.ofList ([':'].intercalate (address.map upperHexByte))

/-- The checks at the start of `process_dhcp`: the message type and the client of a packet that is
looked at. -/
def dhcpClient (packet : List UInt8) : Except DhcpStop (UInt8 × String) := do
  if packet.length < 240 ∨ packet[0]? ≠ some 1 ∨ slice packet 236 240 ≠ some dhcpMagicCookie then
    .error .ignored
  let message ← ((dhcpOption packet 53).bind List.head?).elim (.error .ignored) .ok
  -- The conflict detector of another start of the service broadcasts this vendor class.
  if dhcpOption packet 60 = some dhcpProbeVendorClass then
    .error .ignored
  if ¬ (message = 1 ∨ message = 3 ∨ message = 4 ∨ message = 7) then
    .error .ignored
  let hlen := min (← unwrap packet[2]?).toNat 16
  if hlen = 0 then
    .error .ignored
  let address ← unwrap (slice packet 28 (28 + hlen))
  .ok (message, macText address)

/-- The client architecture of option 93, which is 0 when it is absent. -/
def dhcpArchitecture (packet : List UInt8) : UInt16 :=
  match dhcpOption packet 93 with
  | some (a :: b :: _) => UInt16.ofNat (a.toNat * 256 + b.toNat)
  | _ => 0

/-- The user class of option 77 names iPXE. `String::from_utf8_lossy` keeps the bytes of ASCII
characters and their neighbourhood, so the text contains `ipxe` when the bytes do. -/
def dhcpIsIpxe (packet : List UInt8) : Bool :=
  (dhcpOption packet 77).any fun value =>
    (value.map fun b => if 65 ≤ b ∧ b ≤ 90 then b + 32 else b).tails.any
      fun rest => (stringBytes "ipxe").isPrefixOf rest

/-- The field `ciaddr` of a packet. -/
def ciaddr (packet : List UInt8) : Option Ipv4Addr := (slice packet 12 16).bind Ipv4Addr.ofBytes

/-! ### Leases -/

/-- An address lent to a client. -/
structure Lease where
  ip : Ipv4Addr
  expiresAt : Instant
  deriving DecidableEq, Repr

/-- The leases of the clients by the text of their hardware address. -/
abbrev LeaseTable := AList fun _ : String => Lease

/-- The table without the leases that have expired. -/
def LeaseTable.current (leases : LeaseTable) (now : Instant) : LeaseTable :=
  leases.retain fun _ lease => decide (now < lease.expiresAt)

/-- A lease that starts now. -/
def newLease (config : PxeConfig) (ip : Ipv4Addr) (now : Instant) : Lease where
  ip := ip
  expiresAt := now + seconds config.leaseSeconds.toNat

/-- The address that a client asks for, if it is free and in the pool. -/
def assignRequestedLease (config : PxeConfig) (leases : LeaseTable) (mac : String) (ip : Ipv4Addr)
    (now : Instant) : Option Ipv4Addr × LeaseTable :=
  match parseIpv4 config.poolStart "pool", parseIpv4 config.poolEnd "pool" with
  | .ok start, .ok last =>
    if ip.bits < start.bits ∨ last.bits < ip.bits then (none, leases)
    else
      let leases := leases.current now
      if leases.entries.any fun entry => entry.1 ≠ mac ∧ entry.2.ip = ip then (none, leases)
      else (some ip, leases.insert mac (newLease config ip now))
  | _, _ => (none, leases)

/-- The address of a client, or else the first free one of the pool. -/
def allocateLease (config : PxeConfig) (leases : LeaseTable) (mac : String) (now : Instant) :
    Option Ipv4Addr × LeaseTable :=
  let leases := leases.current now
  match parseIpv4 config.poolStart "pool", parseIpv4 config.poolEnd "pool" with
  | .ok start, .ok last =>
    match (leases.lookup mac).filter fun lease =>
        start.bits ≤ lease.ip.bits ∧ lease.ip.bits ≤ last.bits with
    | some lease => (some lease.ip, leases)
    | none =>
      match (Ipv4Addr.range start last).find? fun candidate =>
          !leases.entries.any fun entry => entry.2.ip = candidate with
      | some ip => (some ip, leases.insert mac (newLease config ip now))
      | none => (none, leases)
  | _, _ => (none, leases)

/-! ### Replies -/

/-- The boot file of a client: the script for iPXE itself, else the program of its architecture. -/
def bootFileFor (config : PxeConfig) (architecture : UInt16) (isIpxe : Bool) : Option String :=
  if isIpxe then some "boot.ipxe"
  else if architecture = 0 ∧ ¬ config.biosBootFile.isEmpty then some config.biosBootFile
  else if architecture = 7 ∨ architecture = 9 then some config.uefiX64BootFile
  else none

/-- The options that only the standalone server sends: mask, lease time, gateway, name servers. -/
def standaloneOptions (config : PxeConfig) (out : List UInt8) : Except DhcpStop (List UInt8) := do
  let mask ← unwrap (parseIpv4 config.subnetMask "mask").toOption
  let out := pushOption out 1 mask.octets
  let out := pushOption out 51 (Ipv4Addr.octets ⟨config.leaseSeconds⟩)
  let out ← match config.gateway with
    | some gateway => do
      let gateway ← unwrap (parseIpv4 gateway "gateway").toOption
      pure (pushOption out 3 gateway.octets)
    | none => pure out
  if config.dnsServers.isEmpty then pure out
  else
    let dns ← config.dnsServers.mapM fun v => unwrap (parseIpv4 v "dns").toOption
    pure (pushOption out 6 (dns.flatMap Ipv4Addr.octets))

/-- The options that depend on the mode of the server. -/
def modeOptions (config : PxeConfig) (out : List UInt8) : Except DhcpStop (List UInt8) :=
  if config.mode = .standaloneDhcp then standaloneOptions config out else pure out

/-- The boot server and the boot file, when the client gets one. -/
def bootOptions (config : PxeConfig) (architecture : UInt16) (isIpxe : Bool) (out : List UInt8) :
    List UInt8 :=
  match bootFileFor config architecture isIpxe with
  | some boot =>
    pushOption (pushOption out 66 (stringBytes config.bindAddress)) 67 (stringBytes boot)
  | none => out

/-- The 240 bytes before the options. -/
def dhcpHeader (request : List UInt8) (yiaddr : Option Ipv4Addr) (server : Ipv4Addr) :
    Except DhcpStop (List UInt8) := do
  let hardware ← unwrap (slice request 1 4)
  let transaction ← unwrap (slice request 4 8)
  let flags ← unwrap (slice request 10 12)
  let chaddr ← unwrap (slice request 28 44)
  pure ([2] ++ hardware ++ transaction ++ [0, 0] ++ flags ++ [0, 0, 0, 0] ++
    (yiaddr.elim [0, 0, 0, 0] Ipv4Addr.octets) ++ server.octets ++ [0, 0, 0, 0] ++ chaddr ++
    List.replicate 192 0 ++ dhcpMagicCookie)

/-- The reply to a packet. -/
def buildDhcpReply (request : List UInt8) (config : PxeConfig) (yiaddr : Option Ipv4Addr)
    (message : UInt8) (architecture : UInt16) (isIpxe : Bool) : Except DhcpStop (List UInt8) := do
  let server ← unwrap (parseIpv4 config.bindAddress "bind").toOption
  let out ← dhcpHeader request yiaddr server
  let out := pushOption out 53 [message]
  let out := pushOption out 54 server.octets
  let out ← modeOptions config out
  pure (bootOptions config architecture isIpxe out ++ [255])

/-! ### The answer to a packet -/

/-- A reply, where it is sent, and what the service notes about its client. -/
structure DhcpReply where
  bytes : List UInt8
  target : SocketAddr
  mac : String
  arch : Architecture
  observedIp : Option Ipv4Addr
  deriving DecidableEq, Repr

/-- The address that a `REQUEST` asks for: option 50, else the field `ciaddr`. -/
def requestedAddress (packet : List UInt8) : Except DhcpStop (Option Ipv4Addr) :=
  match (dhcpOption packet 50).bind Ipv4Addr.ofBytes with
  | some ip => .ok (some ip)
  | none => (unwrap (ciaddr packet)).map fun ip => if ip.isUnspecified then none else some ip

/-- The address offered to the client and the message type of the reply. -/
def offeredAddress (config : PxeConfig) (packet : List UInt8) (message : UInt8) (mac : String)
    (leases : LeaseTable) (now : Instant) :
    Except DhcpStop (Option Ipv4Addr × UInt8) × LeaseTable :=
  if config.mode = .standaloneDhcp then
    if message = 1 then
      match allocateLease config leases mac now with
      | (some ip, leases) => (.ok (some ip, 2), leases)
      | (none, leases) => (.error .ignored, leases)
    else
      match requestedAddress packet with
      | .error stop => (.error stop, leases)
      | .ok none => (.ok (none, 6), leases)
      | .ok (some ip) =>
        match assignRequestedLease config leases mac ip now with
        | (some ip, leases) => (.ok (some ip, 5), leases)
        | (none, leases) => (.ok (none, 6), leases)
  else (.ok (none, if message = 1 then 2 else 5), leases)

/-- The reply with its receiver, and what is recorded of the client. -/
def dhcpReply (config : PxeConfig) (packet : List UInt8) (peer : SocketAddr) (mac : String)
    (offered : Option Ipv4Addr) (replyType : UInt8) : Except DhcpStop DhcpReply := do
  let architecture := dhcpArchitecture packet
  let ciaddr ← unwrap (ciaddr packet)
  let peerIp := match peer.ip with
    | .v4 ip => if ip.isUnspecified then none else some ip
    | .v6 _ => none
  let bytes ← buildDhcpReply packet config offered replyType architecture (dhcpIsIpxe packet)
  pure {
    bytes
    target := if peer.ip.isUnspecified ∨ peer.port = dhcpClientPort then
      { ip := .v4 Ipv4Addr.broadcast, port := dhcpClientPort } else peer
    mac
    arch := if architecture = 0 ∨ architecture = 7 ∨ architecture = 9 then .x86_64 else .unknown
    observedIp := (offered.or (if ciaddr.isUnspecified then none else some ciaddr)).or peerIp }

/-- The answer to one packet and the leases it leaves behind. -/
def processDhcp (config : PxeConfig) (packet : List UInt8) (peer : SocketAddr)
    (leases : LeaseTable) (now : Instant) : Except DhcpStop DhcpReply × LeaseTable :=
  match dhcpClient packet with
  | .error stop => (.error stop, leases)
  | .ok (message, mac) =>
    if message = 4 ∨ message = 7 then (.error .ignored, leases.erase mac)
    else match offeredAddress config packet message mac leases now with
      | (.error stop, leases) => (.error stop, leases)
      | (.ok (offered, replyType), leases) =>
        (dhcpReply config packet peer mac offered replyType, leases)

end EasyDeployMesh
