import EasyDeployMesh.Service.Pxe.LeaseSafety

/-!
# The options of a reply

`push_option` leaves a value of more than 255 bytes out, and `validate_pxe_config` bounds neither
the number of name servers nor the length of a boot file name. A reply is its fixed fields and then,
in order, the options that the configuration and the architecture of the client call for, without
the ones that are too long.

## Main definitions

* `EasyDeployMesh.encodeOptions`: options as `push_option` appends them.
* `EasyDeployMesh.replyOptions`: the options that a reply is to have.
* `EasyDeployMesh.CarriesConfiguration`: the reply has them all, with their values.
* `EasyDeployMesh.OptionsFit`: none of them is too long.

## Main results

* `EasyDeployMesh.dhcpOption_encodeOptions`: what a client reads of a sequence of options.
* `EasyDeployMesh.buildDhcpReply_eq_ok`: the bytes of a reply.
* `EasyDeployMesh.carriesConfiguration_iff`: a reply has all options exactly when they fit.
-/

namespace EasyDeployMesh

open Foundations

/-! ### Options in a row -/

/-- A code and its value, as `push_option` appends them. -/
def encodeOption (option : UInt8 × List UInt8) : List UInt8 :=
  pushOption [] option.1 option.2

/-- Options, one behind the other. -/
def encodeOptions (options : List (UInt8 × List UInt8)) : List UInt8 :=
  options.flatMap encodeOption

theorem pushOption_eq_append (out : List UInt8) (code : UInt8) (value : List UInt8) :
    pushOption out code value = out ++ encodeOption (code, value) := by
  unfold encodeOption pushOption
  split_ifs <;> simp

theorem encodeOptions_append (options options' : List (UInt8 × List UInt8)) :
    encodeOptions (options ++ options') = encodeOptions options ++ encodeOptions options' :=
  List.flatMap_append

/-- The value of an option is passed over. -/
theorem optionFrom_append (wanted : UInt8) (value rest : List UInt8) :
    optionFrom wanted value.length (value ++ rest) = optionFrom wanted 0 rest := by
  induction value with
  | nil => rfl
  | cons b value ih => exact ih

/-- An option that is not the wanted one, or that was left out, is passed over. -/
private theorem optionFrom_encodeOption {wanted code : UInt8} {value rest : List UInt8}
    (hcode : code ≠ 0 ∧ code ≠ 255) :
    optionFrom wanted 0 (encodeOption (code, value) ++ rest) =
      if code = wanted ∧ value.length ≤ 255 then some value else optionFrom wanted 0 rest := by
  unfold encodeOption pushOption
  by_cases hlength : value.length ≤ 255
  · have hlen : (UInt8.ofNat value.length).toNat = value.length := by
      rw [UInt8.toNat_ofNat']
      omega
    have hshort : ¬ (value ++ rest).length < value.length := by
      rw [List.length_append]
      omega
    rw [if_pos hlength, List.nil_append, List.cons_append, List.cons_append, optionFrom,
      if_neg hcode.2, if_neg hcode.1]
    simp only [hlen, if_neg hshort, List.take_left, hlength, and_true]
    split_ifs
    · rfl
    · rw [Nat.add_comm]
      exact optionFrom_append wanted value rest
  · rw [if_neg hlength, List.nil_append, if_neg fun h => hlength h.2]

/-- A client finds the first option with the wanted code whose value was not left out. -/
theorem optionFrom_encodeOptions {options : List (UInt8 × List UInt8)} {wanted : UInt8}
    (hcodes : ∀ option ∈ options, option.1 ≠ 0 ∧ option.1 ≠ 255) :
    optionFrom wanted 0 (encodeOptions options ++ [255]) =
      (options.find? fun option => option.1 = wanted ∧ option.2.length ≤ 255).map Prod.snd := by
  induction options with
  | nil => rfl
  | cons option options ih =>
    obtain ⟨code, value⟩ := option
    obtain ⟨hcode, hrest⟩ := List.forall_mem_cons.1 hcodes
    have hcons : encodeOptions ((code, value) :: options) =
        encodeOption (code, value) ++ encodeOptions options := rfl
    rw [hcons, List.append_assoc, optionFrom_encodeOption hcode, List.find?_cons]
    by_cases hfound : code = wanted ∧ value.length ≤ 255
    · rw [if_pos hfound, decide_eq_true hfound]
      rfl
    · rw [if_neg hfound, decide_eq_false hfound]
      exact ih hrest

/-- With distinct codes, a client reads back every option exactly when none was left out. -/
theorem dhcpOption_encodeOptions {header : List UInt8} (hheader : header.length = 240)
    {options : List (UInt8 × List UInt8)}
    (hcodes : ∀ option ∈ options, option.1 ≠ 0 ∧ option.1 ≠ 255)
    (hnodup : (options.map Prod.fst).Nodup) {option : UInt8 × List UInt8}
    (hmem : option ∈ options) :
    dhcpOption (header ++ encodeOptions options ++ [255]) option.1 = some option.2 ↔
      option.2.length ≤ 255 := by
  have hdrop :
      (header ++ encodeOptions options ++ [255]).drop 240 = encodeOptions options ++ [255] := by
    rw [List.append_assoc, ← hheader, List.drop_left]
  rw [dhcpOption, if_neg (by simp [hheader]), hdrop, optionFrom_encodeOptions hcodes,
    Option.map_eq_some_iff]
  constructor
  · rintro ⟨found, hfind, hvalue⟩
    have hfits := List.find?_some hfind
    rw [decide_eq_true_eq] at hfits
    exact hvalue ▸ hfits.2
  · intro hfits
    have hsome : (options.find? fun other => other.1 = option.1 ∧ other.2.length ≤ 255).isSome := by
      rw [List.find?_isSome]
      exact ⟨option, hmem, decide_eq_true ⟨rfl, hfits⟩⟩
    obtain ⟨found, hfound⟩ := Option.isSome_iff_exists.1 hsome
    have hsame := List.find?_some hfound
    rw [decide_eq_true_eq] at hsame
    have heq := List.inj_on_of_nodup_map hnodup (List.mem_of_find?_eq_some hfound) hmem hsame.1
    exact ⟨found, hfound, by rw [heq]⟩

/-! ### The options of the configuration -/

/-- The options of the standalone server. -/
def standaloneReplyOptions (config : PxeConfig) (mask : Ipv4Addr) (gateway : Option Ipv4Addr)
    (dns : List Ipv4Addr) : List (UInt8 × List UInt8) :=
  [(1, mask.octets), (51, Ipv4Addr.octets ⟨config.leaseSeconds⟩)] ++
    (gateway.toList.map fun ip => (3, ip.octets)) ++
    (if dns.isEmpty then [] else [(6, dns.flatMap Ipv4Addr.octets)])

/-- The options that name the boot server and the boot file. -/
def bootReplyOptions (config : PxeConfig) (boot : Option String) : List (UInt8 × List UInt8) :=
  boot.elim [] fun boot => [(66, stringBytes config.bindAddress), (67, stringBytes boot)]

/-- All options of a reply, in order. -/
def replyOptions (config : PxeConfig) (server mask : Ipv4Addr) (gateway : Option Ipv4Addr)
    (dns : List Ipv4Addr) (message : UInt8) (boot : Option String) : List (UInt8 × List UInt8) :=
  [(53, [message]), (54, server.octets)] ++
    (if config.mode = .standaloneDhcp then standaloneReplyOptions config mask gateway dns
      else []) ++
    bootReplyOptions config boot

variable {config : PxeConfig} {server mask : Ipv4Addr} {gateway : Option Ipv4Addr}
  {dns : List Ipv4Addr} {message : UInt8} {boot : Option String}

/-- The codes of a reply, in order. -/
theorem sublist_replyOptions_codes :
    ((replyOptions config server mask gateway dns message boot).map Prod.fst).Sublist
      [53, 54, 1, 51, 3, 6, 66, 67] := by
  unfold replyOptions standaloneReplyOptions bootReplyOptions
  cases gateway <;> cases dns <;> cases boot <;> split_ifs <;>
    simp only [Option.toList, Option.elim, List.map, List.map_append] <;> decide

/-- The addresses of a configuration, parsed. -/
structure PxeConfig.Addresses (config : PxeConfig) (server mask : Ipv4Addr)
    (gateway : Option Ipv4Addr) (dns : List Ipv4Addr) : Prop where
  server : Ipv4Addr.parse config.bindAddress = some server
  mask : Ipv4Addr.parse config.subnetMask = some mask
  gateway : config.gateway.map Ipv4Addr.parse = gateway.map some
  dns : config.dnsServers.map Ipv4Addr.parse = dns.map some

theorem PxeConfig.Validated.exists_addresses {start last : Ipv4Addr}
    (h : config.Validated server mask start last) :
    ∃ gateway dns, config.Addresses server mask gateway dns := by
  obtain ⟨gateway, hgateway⟩ : ∃ gateway : Option Ipv4Addr,
      config.gateway.map Ipv4Addr.parse = gateway.map some := by
    cases hg : config.gateway with
    | none => exact ⟨none, rfl⟩
    | some text =>
      obtain ⟨ip, hip⟩ := h.gateway text hg
      exact ⟨some ip, by rw [Option.map_some, Option.map_some, hip]⟩
  obtain ⟨dns, hdns⟩ : ∃ dns : List Ipv4Addr,
      config.dnsServers.map Ipv4Addr.parse = dns.map some := by
    have hparse := h.dnsServers
    generalize config.dnsServers = texts at hparse
    induction texts with
    | nil => exact ⟨[], rfl⟩
    | cons text texts ih =>
      obtain ⟨⟨ip, hip⟩, hrest⟩ := List.forall_mem_cons.1 hparse
      obtain ⟨ips, hips⟩ := ih hrest
      exact ⟨ip :: ips, by rw [List.map_cons, List.map_cons, hip, hips]⟩
  exact ⟨gateway, dns, h.server_eq, h.mask_eq, hgateway, hdns⟩

/-! ### The bytes of a reply -/

private theorem unwrap_of_parse {value label : String} {ip : Ipv4Addr}
    (h : Ipv4Addr.parse value = some ip) : unwrap (parseIpv4 value label).toOption = .ok ip := by
  rw [parseIpv4_eq_ok_iff.2 h]
  rfl

private theorem mapM_of_map_parse {values : List String} {label : String} {ips : List Ipv4Addr}
    (h : values.map Ipv4Addr.parse = ips.map some) :
    (values.mapM fun value => unwrap (parseIpv4 value label).toOption) = .ok ips := by
  induction values generalizing ips with
  | nil =>
    cases ips with
    | nil => rfl
    | cons => cases h
  | cons value values ih =>
    cases ips with
    | nil => cases h
    | cons ip ips =>
      obtain ⟨hvalue, hrest⟩ := List.cons.inj h
      simp only [List.mapM_cons, unwrap_of_parse hvalue, ih hrest, bind, Except.bind, pure,
        Except.pure]

theorem standaloneOptions_eq (h : config.Addresses server mask gateway dns) (out : List UInt8) :
    standaloneOptions config out =
      .ok (out ++ encodeOptions (standaloneReplyOptions config mask gateway dns)) := by
  have hdnsEmpty : config.dnsServers.isEmpty = dns.isEmpty := by
    have hlength := congrArg List.length h.dns
    rw [List.length_map, List.length_map] at hlength
    rw [Bool.eq_iff_iff, List.isEmpty_iff_length_eq_zero, List.isEmpty_iff_length_eq_zero, hlength]
  have hgateway := h.gateway
  simp only [standaloneOptions, unwrap_of_parse h.mask, pushOption_eq_append, hdnsEmpty,
    mapM_of_map_parse h.dns, standaloneReplyOptions, encodeOptions_append, bind, Except.bind, pure,
    Except.pure]
  cases hg : config.gateway with
  | none =>
    rw [hg] at hgateway
    cases gateway with
    | some => cases hgateway
    | none => cases dns <;> simp [encodeOptions, List.append_assoc]
  | some text =>
    rw [hg] at hgateway
    cases gateway with
    | none => cases hgateway
    | some ip =>
      have hip : Ipv4Addr.parse text = some ip := Option.some.inj hgateway
      cases dns <;> simp [unwrap_of_parse hip, encodeOptions, List.append_assoc]

theorem bootOptions_eq (config : PxeConfig) (architecture : UInt16) (isIpxe : Bool)
    (out : List UInt8) : bootOptions config architecture isIpxe out =
      out ++ encodeOptions (bootReplyOptions config (bootFileFor config architecture isIpxe)) := by
  unfold bootOptions bootReplyOptions
  cases bootFileFor config architecture isIpxe with
  | none => simp [encodeOptions]
  | some boot => simp [pushOption_eq_append, encodeOptions, List.append_assoc]

/-- A reply is its fixed fields, its options that are not too long, and the end mark. -/
theorem buildDhcpReply_eq_ok (h : config.Addresses server mask gateway dns) {request : List UInt8}
    {header : List UInt8} {yiaddr : Option Ipv4Addr}
    (hheader : dhcpHeader request yiaddr server = .ok header) (architecture : UInt16)
    (isIpxe : Bool) :
    buildDhcpReply request config yiaddr message architecture isIpxe =
      .ok (header ++ encodeOptions (replyOptions config server mask gateway dns message
        (bootFileFor config architecture isIpxe)) ++ [255]) := by
  have hmode (out : List UInt8) : modeOptions config out = .ok (out ++ encodeOptions
      (if config.mode = .standaloneDhcp then standaloneReplyOptions config mask gateway dns
        else [])) := by
    unfold modeOptions
    split_ifs
    · exact standaloneOptions_eq h out
    · rw [encodeOptions, List.flatMap_nil, List.append_nil]
      rfl
  simp only [buildDhcpReply, unwrap_of_parse h.server, hheader, hmode, bootOptions_eq,
    pushOption_eq_append, replyOptions, encodeOptions_append, bind, Except.bind, pure, Except.pure]
  simp [encodeOptions, List.append_assoc]

/-! ### What a reply carries -/

/-- The reply has every option that the configuration and the architecture of the client call for,
with its value. -/
structure CarriesConfiguration (config : PxeConfig) (packet : List UInt8) (reply : DhcpReply) :
    Prop where
  server : ∃ ip, Ipv4Addr.parse config.bindAddress = some ip ∧
    dhcpOption reply.bytes 54 = some ip.octets
  mask : config.mode = .standaloneDhcp → ∃ ip, Ipv4Addr.parse config.subnetMask = some ip ∧
    dhcpOption reply.bytes 1 = some ip.octets
  leaseTime : config.mode = .standaloneDhcp →
    dhcpOption reply.bytes 51 = some (Ipv4Addr.octets ⟨config.leaseSeconds⟩)
  router : config.mode = .standaloneDhcp → ∀ gateway ∈ config.gateway,
    ∃ ip, Ipv4Addr.parse gateway = some ip ∧ dhcpOption reply.bytes 3 = some ip.octets
  dns : config.mode = .standaloneDhcp → config.dnsServers ≠ [] →
    ∃ ips : List Ipv4Addr, config.dnsServers.map Ipv4Addr.parse = ips.map some ∧
      dhcpOption reply.bytes 6 = some (ips.flatMap Ipv4Addr.octets)
  boot : ∀ boot, bootFileFor config (dhcpArchitecture packet) (dhcpIsIpxe packet) = some boot →
    dhcpOption reply.bytes 66 = some (stringBytes config.bindAddress) ∧
      dhcpOption reply.bytes 67 = some (stringBytes boot)

/-- The name servers and the boot file name fit into an option. -/
structure OptionsFit (config : PxeConfig) (packet : List UInt8) : Prop where
  dns : config.mode = .standaloneDhcp → config.dnsServers.length ≤ 63
  boot : ∀ boot, bootFileFor config (dhcpArchitecture packet) (dhcpIsIpxe packet) = some boot →
    (stringBytes boot).length ≤ 255

/-- A packet that is answered is long enough, and the reply is built for its architecture. -/
theorem exists_buildDhcpReply_of_processDhcp {packet : List UInt8} {peer : SocketAddr}
    {leases leases' : LeaseTable} {now : Instant} {reply : DhcpReply}
    (h : processDhcp config packet peer leases now = (.ok reply, leases')) :
    240 ≤ packet.length ∧ ∃ offered replyType, buildDhcpReply packet config offered replyType
      (dhcpArchitecture packet) (dhcpIsIpxe packet) = .ok reply.bytes := by
  unfold processDhcp at h
  split at h
  · cases h
  · rename_i message mac hclient
    split_ifs at h
    · cases h
    · split at h
      · cases h
      · rename_i offered replyType _ _
        have hreply := congrArg Prod.fst h
        simp only [dhcpReply, bind_eq_ok_iff, pure_eq_ok_iff] at hreply
        obtain ⟨ciaddr, -, bytes, hbytes, rfl⟩ := hreply
        exact ⟨(dhcpClient_eq_ok hclient).1, offered, replyType, hbytes⟩

/-- What a client reads of a reply: every option that was not too long. -/
private theorem exists_readsOptions {start last : Ipv4Addr}
    (hconfig : config.Validated server mask start last) {packet : List UInt8} {peer : SocketAddr}
    {leases leases' : LeaseTable} {now : Instant} {reply : DhcpReply}
    (h : processDhcp config packet peer leases now = (.ok reply, leases')) :
    ∃ gateway dns message, config.Addresses server mask gateway dns ∧
      ∀ option ∈ replyOptions config server mask gateway dns message
        (bootFileFor config (dhcpArchitecture packet) (dhcpIsIpxe packet)),
        dhcpOption reply.bytes option.1 = some option.2 ↔ option.2.length ≤ 255 := by
  obtain ⟨hlen, offered, message, hbuild⟩ := exists_buildDhcpReply_of_processDhcp h
  obtain ⟨gateway, dns, haddresses⟩ := hconfig.exists_addresses
  obtain ⟨pre, post, hheader, hpre, hpost⟩ := exists_dhcpHeader hlen offered server
  rw [buildDhcpReply_eq_ok haddresses hheader, Except.ok.injEq] at hbuild
  refine ⟨gateway, dns, message, haddresses, fun option hmem => ?_⟩
  have hcodes := @sublist_replyOptions_codes config server mask gateway dns message
    (bootFileFor config (dhcpArchitecture packet) (dhcpIsIpxe packet))
  rw [← hbuild]
  refine dhcpOption_encodeOptions ?_ (fun other hother => ?_) (hcodes.nodup (by decide)) hmem
  · simp only [List.length_append, hpre, hpost, Ipv4Addr.length_octets]
  · have hall : ([53, 54, 1, 51, 3, 6, 66, 67] : List UInt8).all
        (fun code => decide (code ≠ 0 ∧ code ≠ 255)) = true := by decide
    have hcode := List.all_eq_true.mp hall _ (hcodes.subset (List.mem_map_of_mem hother))
    exact of_decide_eq_true hcode

private theorem length_flatMap_octets (ips : List Ipv4Addr) :
    (ips.flatMap Ipv4Addr.octets).length = 4 * ips.length := by
  induction ips with
  | nil => rfl
  | cons ip ips ih =>
    rw [List.flatMap_cons, List.length_append, Ipv4Addr.length_octets, ih, List.length_cons]
    omega

/-- Options as a client reads them. -/
private theorem carriesConfiguration_iff_of_reads
    (haddresses : config.Addresses server mask gateway dns)
    {packet : List UInt8} {reply : DhcpReply}
    (hreads : ∀ option ∈ replyOptions config server mask gateway dns message
      (bootFileFor config (dhcpArchitecture packet) (dhcpIsIpxe packet)),
      dhcpOption reply.bytes option.1 = some option.2 ↔ option.2.length ≤ 255) :
    CarriesConfiguration config packet reply ↔ OptionsFit config packet := by
  have hdnsLength : (dns.flatMap Ipv4Addr.octets).length = 4 * config.dnsServers.length := by
    have hlength := congrArg List.length haddresses.dns
    rw [List.length_map, List.length_map] at hlength
    rw [length_flatMap_octets, hlength]
  have hdnsMem (hmode : config.mode = .standaloneDhcp) (hne : config.dnsServers ≠ []) :
      (6, dns.flatMap Ipv4Addr.octets) ∈ replyOptions config server mask gateway dns message
        (bootFileFor config (dhcpArchitecture packet) (dhcpIsIpxe packet)) := by
    have hdnsNe : dns.isEmpty = false := by
      cases dns with
      | nil => exact absurd (List.map_eq_nil_iff.1 haddresses.dns) hne
      | cons => rfl
    simp [replyOptions, standaloneReplyOptions, hmode, hdnsNe]
  have hbootMem {boot : String}
      (hboot : bootFileFor config (dhcpArchitecture packet) (dhcpIsIpxe packet) = some boot) :
      (66, stringBytes config.bindAddress) ∈ replyOptions config server mask gateway dns message
          (bootFileFor config (dhcpArchitecture packet) (dhcpIsIpxe packet)) ∧
        (67, stringBytes boot) ∈ replyOptions config server mask gateway dns message
          (bootFileFor config (dhcpArchitecture packet) (dhcpIsIpxe packet)) := by
    simp [replyOptions, bootReplyOptions, hboot]
  constructor
  · intro hcarries
    refine ⟨fun hmode => ?_, fun boot hboot => ?_⟩
    · by_cases hne : config.dnsServers = []
      · rw [hne]
        decide
      · obtain ⟨ips, hips, hoption⟩ := hcarries.dns hmode hne
        have heq : ips = dns := by
          refine List.map_injective_iff.2 (Option.some_injective _) ?_
          rw [← hips, haddresses.dns]
        have hfits := (hreads _ (hdnsMem hmode hne)).1 (heq ▸ hoption)
        dsimp only at hfits
        omega
    · exact (hreads _ (hbootMem hboot).2).1 (hcarries.boot boot hboot).2
  · intro hfit
    refine ⟨⟨server, haddresses.server, ?_⟩, fun hmode => ⟨mask, haddresses.mask, ?_⟩,
      fun hmode => ?_, fun hmode text htext => ?_, fun hmode hne => ⟨dns, haddresses.dns, ?_⟩,
      fun boot hboot => ⟨?_, ?_⟩⟩
    · exact (hreads (54, server.octets) (by simp [replyOptions])).2 (by simp)
    · exact (hreads (1, mask.octets) (by simp [replyOptions, standaloneReplyOptions, hmode])).2
        (by simp)
    · exact (hreads (51, Ipv4Addr.octets ⟨config.leaseSeconds⟩)
        (by simp [replyOptions, standaloneReplyOptions, hmode])).2 (by simp)
    · have hgateway := haddresses.gateway
      rw [Option.mem_def.1 htext] at hgateway
      obtain ⟨ip, hip, hparse⟩ := Option.map_eq_some_iff.1 hgateway.symm
      refine ⟨ip, hparse.symm, ?_⟩
      exact (hreads (3, ip.octets) (by simp [replyOptions, standaloneReplyOptions, hmode, hip])).2
        (by simp)
    · refine (hreads _ (hdnsMem hmode hne)).2 ?_
      have hcount := hfit.dns hmode
      dsimp only
      omega
    · refine (hreads _ (hbootMem hboot).1).2 ?_
      have hbytes := length_stringBytes_le config.bindAddress
      have hchars := Ipv4Addr.length_of_parse haddresses.server
      dsimp only
      omega
    · exact (hreads _ (hbootMem hboot).2).2 (hfit.boot boot hboot)

/-- A reply under an accepted configuration carries all of it exactly when its options fit: at most
63 name servers, and a boot file name of at most 255 bytes. -/
theorem carriesConfiguration_iff {host : PxeHost} (hconfig : validatePxeConfig host config = .ok ())
    {packet : List UInt8} {peer : SocketAddr} {leases leases' : LeaseTable} {now : Instant}
    {reply : DhcpReply} (h : processDhcp config packet peer leases now = (.ok reply, leases')) :
    CarriesConfiguration config packet reply ↔ OptionsFit config packet := by
  obtain ⟨server, mask, start, last, hvalid⟩ := exists_validated hconfig
  obtain ⟨gateway, dns, message, haddresses, hreads⟩ := exists_readsOptions hvalid h
  exact carriesConfiguration_iff_of_reads haddresses hreads

/-! ### Many name servers -/

/-- The laboratory with 64 name servers. -/
def manyNameServers : PxeConfig :=
  { labPxeConfig with dnsServers := List.replicate 64 "1.1.1.1" }

private theorem exists_reply_manyNameServers : ∃ reply leases,
    processDhcp manyNameServers (labPacket 1 1 []) { ip := .v4 ⟨0⟩, port := dhcpClientPort } ∅ 0 =
      (.ok reply, leases) ∧ dhcpOption reply.bytes 6 = none := by
  have hreply : ((processDhcp manyNameServers (labPacket 1 1 [])
      { ip := .v4 ⟨0⟩, port := dhcpClientPort } ∅ 0).1.map fun reply =>
        dhcpOption reply.bytes 6) = .ok none := by
    decide +kernel
  rcases hprocess : processDhcp manyNameServers (labPacket 1 1 [])
    { ip := .v4 ⟨0⟩, port := dhcpClientPort } ∅ 0 with ⟨result, leases⟩
  rw [hprocess] at hreply
  obtain ⟨reply, rfl, hoption⟩ := map_eq_ok_iff.1 hreply
  exact ⟨reply, leases, rfl, hoption⟩

/-- The configuration is accepted, and its replies carry no name server. -/
theorem carriesConfiguration_fails_of_manyNameServers :
    validatePxeConfig labPxeHost manyNameServers = .ok () ∧ ∃ reply leases,
      processDhcp manyNameServers (labPacket 1 1 []) { ip := .v4 ⟨0⟩, port := dhcpClientPort } ∅ 0 =
        (.ok reply, leases) ∧
      ¬ CarriesConfiguration manyNameServers (labPacket 1 1 []) reply := by
  obtain ⟨reply, leases, hprocess, hnone⟩ := exists_reply_manyNameServers
  refine ⟨by decide +kernel, reply, leases, hprocess, fun hcarries => ?_⟩
  obtain ⟨ips, -, hoption⟩ := hcarries.dns rfl (by decide)
  rw [hnone] at hoption
  cases hoption

theorem carriesConfiguration_iff_labPxeConfig : ∃ reply leases,
    processDhcp labPxeConfig (labPacket 1 1 []) { ip := .v4 ⟨0⟩, port := dhcpClientPort } ∅ 0 =
      (.ok reply, leases) ∧
    (CarriesConfiguration labPxeConfig (labPacket 1 1 []) reply ↔
      OptionsFit labPxeConfig (labPacket 1 1 [])) := by
  have hreply : ((processDhcp labPxeConfig (labPacket 1 1 [])
      { ip := .v4 ⟨0⟩, port := dhcpClientPort } ∅ 0).1.map fun _ => ()) = .ok () := by
    decide +kernel
  have hvalid : validatePxeConfig labPxeHost labPxeConfig = .ok () := by decide +kernel
  rcases hprocess : processDhcp labPxeConfig (labPacket 1 1 [])
    { ip := .v4 ⟨0⟩, port := dhcpClientPort } ∅ 0 with ⟨result, leases⟩
  rw [hprocess] at hreply
  obtain ⟨reply, rfl, -⟩ := map_eq_ok_iff.1 hreply
  exact ⟨reply, leases, rfl, carriesConfiguration_iff hvalid hprocess⟩

end EasyDeployMesh
