import EasyDeployMesh.Service.Pxe.Dhcp

/-!
# Replies under a checked configuration

A configuration that `validatePxeConfig` accepts has addresses that parse, so none of the `unwrap`s
behind a reply panics, and a packet that passes the checks is long enough for every slice. The reply
carries its message type and its address where a client reads them.

## Main definitions

* `EasyDeployMesh.DhcpReply.Carries`: the message type, the address and the client of a reply.

## Main results

* `EasyDeployMesh.macText_injective`: different hardware addresses are different clients.
* `EasyDeployMesh.exists_dhcpReply`: there is a reply, and it carries what it was built from.
-/

namespace EasyDeployMesh

open Foundations

/-! ### Packets that are looked at -/

/-- A packet that passes the checks has all fixed fields, and one of four message types. -/
theorem dhcpClient_eq_ok {packet : List UInt8} {message : UInt8} {mac : String}
    (h : dhcpClient packet = .ok (message, mac)) :
    240 ≤ packet.length ∧ (message = 1 ∨ message = 3 ∨ message = 4 ∨ message = 7) := by
  simp only [dhcpClient, check_eq_ok_iff, bind_eq_ok_iff, elim_eq_ok_iff, not_or, not_lt, not_not,
    Except.ok.injEq, Prod.mk.injEq] at h
  obtain ⟨⟨hlen, -⟩, m, -, -, hm, -, -, -, -, -, rfl, -⟩ := h
  exact ⟨hlen, by tauto⟩

section Panics

variable {α β : Type}

private theorem ne_panicked_bind {x : Except DhcpStop α} {f : α → Except DhcpStop β}
    (hx : x ≠ .error .panicked) (hf : ∀ a, x = .ok a → f a ≠ .error .panicked) :
    (x >>= f) ≠ .error .panicked := by
  cases x with
  | error stop => simpa [bind, Except.bind] using hx
  | ok a => exact hf a rfl

private theorem ne_panicked_check {c : Prop} [Decidable c] {f : α → Except DhcpStop β}
    {x : Except DhcpStop β} (hx : ¬ c → x ≠ .error .panicked) :
    (if c then Except.error DhcpStop.ignored >>= f else x) ≠ .error .panicked := by
  split_ifs with h
  · simp [bind, Except.bind]
  · exact hx h

private theorem ne_panicked_elim (x : Option α) :
    x.elim (Except.error DhcpStop.ignored) .ok ≠ .error .panicked := by
  cases x <;> simp

private theorem ne_panicked_unwrap {x : Option α} (hx : ∃ a, x = some a) :
    unwrap x ≠ .error .panicked := by
  obtain ⟨a, rfl⟩ := hx
  simp [unwrap]

/-- The checks read inside the packet. -/
theorem dhcpClient_ne_panicked (packet : List UInt8) : dhcpClient packet ≠ .error .panicked := by
  refine ne_panicked_check fun hhead => ne_panicked_bind (ne_panicked_elim _) fun message _ => ?_
  refine ne_panicked_check fun _ => ne_panicked_check fun _ => ?_
  have hlen : 240 ≤ packet.length := by
    simp only [not_or, not_lt] at hhead
    exact hhead.1
  refine ne_panicked_bind
    (ne_panicked_unwrap ⟨packet[2], List.getElem?_eq_getElem _⟩) fun len _ => ?_
  refine ne_panicked_check fun _ => ?_
  have hlast : 28 + min len.toNat 16 ≤ packet.length := by omega
  obtain ⟨address, haddress, -⟩ := exists_slice (Nat.le_add_right 28 _) hlast
  exact ne_panicked_bind (ne_panicked_unwrap ⟨address, haddress⟩) fun _ _ => by simp

end Panics

/-! ### Hardware addresses -/

/-- The number of the last two hexadecimal digits of a text. -/
private def readHexByte (l : List Char) : ℕ :=
  l.foldl (fun value c => 16 * value + (if c.isDigit then c.toNat - 48 else c.toNat - 55)) 0

theorem upperHexByte_injective : Function.Injective upperHexByte := by
  have hread : ∀ n < 256, readHexByte ((Text.hexDigits 2 n).map Char.toUpper) = n := by
    decide +kernel
  intro a b h
  have hvalue := congrArg readHexByte h
  rw [upperHexByte, upperHexByte, hread _ a.toNat_lt, hread _ b.toNat_lt] at hvalue
  exact UInt8.toNat_inj.1 hvalue

/-- Different hardware addresses are different clients. -/
theorem macText_injective {a b : List UInt8} (ha : a ≠ []) (hb : b ≠ [])
    (h : macText a = macText b) : a = b := by
  have hcolon : ∀ n < 256, ':' ∉ (Text.hexDigits 2 n).map Char.toUpper := by decide +kernel
  have hsplit : ∀ l : List UInt8, l ≠ [] →
      ([':'].intercalate (l.map upperHexByte)).splitOn ':' = l.map upperHexByte := by
    intro l hl
    refine List.splitOn_intercalate ':' ?_ (by simpa using hl)
    simp only [List.forall_mem_map]
    exact fun b _ => hcolon _ b.toNat_lt
  have hchars := String.ofList_injective h
  have hmap := (hsplit a ha).symm.trans ((congrArg (List.splitOn ':') hchars).trans (hsplit b hb))
  exact List.map_injective_iff.2 upperHexByte_injective hmap

/-! ### Options -/

theorem prefix_pushOption (out : List UInt8) (code : UInt8) (value : List UInt8) :
    out <+: pushOption out code value := by
  unfold pushOption
  split_ifs
  · exact List.prefix_append _ _
  · exact List.prefix_rfl

/-- The first option after the fixed fields is found. -/
theorem dhcpOption_append {header : List UInt8} (hheader : header.length = 240) (code value : UInt8)
    (hcode : code ≠ 0 ∧ code ≠ 255) (rest : List UInt8) :
    dhcpOption (header ++ code :: 1 :: value :: rest) code = some [value] := by
  have hdrop : (header ++ code :: 1 :: value :: rest).drop 240 = code :: 1 :: value :: rest := by
    rw [← hheader, List.drop_left]
  rw [dhcpOption, if_neg (by simp [hheader]), hdrop, optionFrom, if_neg hcode.2, if_neg hcode.1]
  simp

private theorem unwrap_parseIpv4 {value label : String} {ip : Ipv4Addr}
    (h : Ipv4Addr.parse value = some ip) : unwrap (parseIpv4 value label).toOption = .ok ip := by
  rw [parseIpv4_eq_ok_iff.2 h]
  rfl

private theorem exists_mapM_parseIpv4 {values : List String} {label : String}
    (h : ∀ value ∈ values, ∃ ip, Ipv4Addr.parse value = some ip) :
    ∃ ips, (values.mapM fun value => unwrap (parseIpv4 value label).toOption) = .ok ips := by
  induction values with
  | nil => exact ⟨[], rfl⟩
  | cons value values ih =>
    rw [List.forall_mem_cons] at h
    obtain ⟨⟨ip, hip⟩, hvalues⟩ := h
    obtain ⟨ips, hips⟩ := ih hvalues
    exact ⟨ip :: ips, by simp [unwrap_parseIpv4 hip, hips, bind, Except.bind, pure, Except.pure]⟩

/-- The options of the standalone server are added at the end. -/
theorem exists_standaloneOptions {config : PxeConfig} {server mask start last : Ipv4Addr}
    (hconfig : config.Validated server mask start last) (out : List UInt8) :
    ∃ out', standaloneOptions config out = .ok out' ∧ out <+: out' := by
  have hfixed : out <+: pushOption (pushOption out 1 mask.octets) 51
      (Ipv4Addr.octets ⟨config.leaseSeconds⟩) :=
    (prefix_pushOption _ _ _).trans (prefix_pushOption _ _ _)
  simp only [standaloneOptions, unwrap_parseIpv4 hconfig.mask_eq, bind, Except.bind]
  obtain ⟨ips, hips⟩ : ∃ ips, (config.dnsServers.mapM fun value =>
      unwrap (parseIpv4 value "dns").toOption) = .ok ips :=
    exists_mapM_parseIpv4 hconfig.dnsServers
  cases hg : config.gateway with
  | none =>
    simp only [pure, Except.pure]
    split_ifs
    · exact ⟨_, rfl, hfixed⟩
    · rw [hips]
      exact ⟨_, rfl, hfixed.trans (prefix_pushOption _ _ _)⟩
  | some gateway =>
    obtain ⟨ip, hip⟩ := hconfig.gateway gateway hg
    simp only [unwrap_parseIpv4 hip, pure, Except.pure]
    split_ifs
    · exact ⟨_, rfl, hfixed.trans (prefix_pushOption _ _ _)⟩
    · rw [hips]
      exact ⟨_, rfl, (hfixed.trans (prefix_pushOption _ _ _)).trans (prefix_pushOption _ _ _)⟩

theorem prefix_bootOptions (config : PxeConfig) (architecture : UInt16) (isIpxe : Bool)
    (out : List UInt8) : out <+: bootOptions config architecture isIpxe out := by
  unfold bootOptions
  split
  · exact (prefix_pushOption _ _ _).trans (prefix_pushOption _ _ _)
  · exact List.prefix_rfl

theorem exists_modeOptions {config : PxeConfig} {server mask start last : Ipv4Addr}
    (hconfig : config.Validated server mask start last) (out : List UInt8) :
    ∃ out', modeOptions config out = .ok out' ∧ out <+: out' := by
  unfold modeOptions
  split_ifs
  · exact exists_standaloneOptions hconfig out
  · exact ⟨out, rfl, List.prefix_rfl⟩

/-! ### Replies -/

/-- The message type, the address and the client of a reply, as its bytes say; a reply without an
address has the unspecified one. -/
structure DhcpReply.Carries (reply : DhcpReply) (kind : UInt8) (address : Option Ipv4Addr)
    (mac : String) : Prop where
  kind_eq : dhcpOption reply.bytes 53 = some [kind]
  address_eq : (slice reply.bytes 16 20).bind Ipv4Addr.ofBytes = some (address.getD ⟨0⟩)
  mac_eq : reply.mac = mac

theorem exists_ciaddr {packet : List UInt8} (hlen : 240 ≤ packet.length) :
    ∃ ip, ciaddr packet = some ip := by
  obtain ⟨part, hpart, hpartLen⟩ :=
    exists_slice (show 12 ≤ 16 by decide) (show 16 ≤ packet.length by omega)
  match part, hpartLen with
  | [a, b, c, d], _ => exact ⟨Ipv4Addr.ofOctets a b c d, by rw [ciaddr, hpart]; rfl⟩

theorem exists_requestedAddress {packet : List UInt8} (hlen : 240 ≤ packet.length) :
    ∃ requested, requestedAddress packet = .ok requested := by
  obtain ⟨ip, hip⟩ := exists_ciaddr hlen
  unfold requestedAddress
  split
  · exact ⟨_, rfl⟩
  · exact ⟨_, by rw [hip]; rfl⟩

/-- The fixed fields have 240 bytes, and the address is in the bytes 16 to 19. -/
theorem exists_dhcpHeader {request : List UInt8} (hlen : 240 ≤ request.length)
    (yiaddr : Option Ipv4Addr) (server : Ipv4Addr) :
    ∃ pre post, dhcpHeader request yiaddr server =
        .ok (pre ++ (yiaddr.getD ⟨0⟩).octets ++ post) ∧ pre.length = 16 ∧ post.length = 220 := by
  obtain ⟨hardware, hhardware, hhardwareLen⟩ :=
    exists_slice (show 1 ≤ 4 by decide) (show 4 ≤ request.length by omega)
  obtain ⟨transaction, htransaction, htransactionLen⟩ :=
    exists_slice (show 4 ≤ 8 by decide) (show 8 ≤ request.length by omega)
  obtain ⟨flags, hflags, hflagsLen⟩ :=
    exists_slice (show 10 ≤ 12 by decide) (show 12 ≤ request.length by omega)
  obtain ⟨chaddr, hchaddr, hchaddrLen⟩ :=
    exists_slice (show 28 ≤ 44 by decide) (show 44 ≤ request.length by omega)
  refine ⟨[2] ++ hardware ++ transaction ++ [0, 0] ++ flags ++ [0, 0, 0, 0],
    server.octets ++ [0, 0, 0, 0] ++ chaddr ++ List.replicate 192 0 ++ dhcpMagicCookie, ?_, ?_, ?_⟩
  · have hyiaddr : yiaddr.elim [0, 0, 0, 0] Ipv4Addr.octets = (yiaddr.getD ⟨0⟩).octets := by
      cases yiaddr <;> rfl
    unfold dhcpHeader
    simp only [hhardware, htransaction, hflags, hchaddr, unwrap, Option.elim_some, bind,
      Except.bind, pure, Except.pure, hyiaddr, List.append_assoc, -List.reduceReplicate]
  · simp [hhardwareLen, htransactionLen, hflagsLen]
  · simp only [List.length_append, List.length_replicate, hchaddrLen, Ipv4Addr.length_octets]
    rfl

/-- A reply is built, with its message type behind the fixed fields. -/
theorem exists_buildDhcpReply {config : PxeConfig} {server mask start last : Ipv4Addr}
    (hconfig : config.Validated server mask start last) {request header : List UInt8}
    {yiaddr : Option Ipv4Addr} (hheader : dhcpHeader request yiaddr server = .ok header)
    (message : UInt8) (architecture : UInt16) (isIpxe : Bool) :
    ∃ rest, buildDhcpReply request config yiaddr message architecture isIpxe =
      .ok (header ++ 53 :: 1 :: message :: rest) := by
  have htype : pushOption header 53 [message] = header ++ [53, 1, message] := rfl
  have hserver : header ++ [53, 1, message] <+: pushOption (pushOption header 53 [message]) 54
      server.octets := by
    rw [htype]
    exact prefix_pushOption _ _ _
  obtain ⟨out, hout, hprefix⟩ := exists_modeOptions hconfig
    (pushOption (pushOption header 53 [message]) 54 server.octets)
  have hboot : out <+: bootOptions config architecture isIpxe out ++ [255] :=
    (prefix_bootOptions config architecture isIpxe out).trans (List.prefix_append _ _)
  obtain ⟨rest, hrest⟩ := (hserver.trans hprefix).trans hboot
  refine ⟨rest, ?_⟩
  simp only [buildDhcpReply, unwrap_parseIpv4 hconfig.server_eq, hheader, hout, bind, Except.bind,
    pure, Except.pure]
  rw [← hrest, List.append_assoc]
  rfl

/-- There is a reply to every packet that is long enough, and it carries what it was built from. -/
theorem exists_dhcpReply {config : PxeConfig} {server mask start last : Ipv4Addr}
    (hconfig : config.Validated server mask start last) {packet : List UInt8}
    (hlen : 240 ≤ packet.length) (peer : SocketAddr) (mac : String) (offered : Option Ipv4Addr)
    (replyType : UInt8) :
    ∃ reply, dhcpReply config packet peer mac offered replyType = .ok reply ∧
      reply.Carries replyType offered mac := by
  obtain ⟨pre, post, hheader, hpre, hpost⟩ := exists_dhcpHeader hlen offered server
  obtain ⟨rest, hbytes⟩ := exists_buildDhcpReply hconfig hheader replyType (dhcpArchitecture packet)
    (dhcpIsIpxe packet)
  obtain ⟨ip, hip⟩ := exists_ciaddr hlen
  obtain ⟨target, arch, observedIp, hreply⟩ : ∃ target arch observedIp,
      dhcpReply config packet peer mac offered replyType = .ok {
        bytes := pre ++ (offered.getD ⟨0⟩).octets ++ post ++ 53 :: 1 :: replyType :: rest,
        target, mac, arch, observedIp } := by
    simp only [dhcpReply, hip, hbytes, unwrap, Option.elim_some, bind, Except.bind, pure,
      Except.pure]
    exact ⟨_, _, _, rfl⟩
  refine ⟨_, hreply, ?_, ?_, rfl⟩
  · exact dhcpOption_append (by simp [hpre, hpost]) 53 replyType (by decide) rest
  · rw [List.append_assoc, List.append_assoc, ← List.append_assoc pre,
      slice_append hpre (by simp [hpre])]
    simpa using Ipv4Addr.ofBytes_octets_append (offered.getD ⟨0⟩) []

end EasyDeployMesh
