import EasyDeployMesh.Foundations.Run
import EasyDeployMesh.Service.Pxe.Reply

/-!
# Safety of the DHCP leases

The standalone server over any sequence of packets whose times do not decrease. The table of leases
keeps distinct addresses of the pool. An acknowledged address stays with its client until the lease
ends, the client gives it up, or the client is acknowledged another one: an invariant of the table
that mentions the client, the address and the end of the lease is carried along the run.

## Main definitions

* `EasyDeployMesh.DhcpState`, `EasyDeployMesh.Reception`: the server, and a packet with its time.
* `EasyDeployMesh.DhcpEdge`: what a packet does to the table, and the answer to it.
* `EasyDeployMesh.WellFormedLeases`: distinct addresses of the pool.
* `EasyDeployMesh.LeaseSafety`: what a run guarantees.

## Main results

* `EasyDeployMesh.dhcpEdge_processDhcp`: the answer to a packet is along an edge.
* `EasyDeployMesh.WellFormedLeases.of_leads`: the table stays well formed.
* `EasyDeployMesh.leaseSafety_of_leads`: every run is safe.
* `EasyDeployMesh.LeaseSafety.held_of_hardware_ne`: an address is held against every other machine.
-/

namespace EasyDeployMesh

open Foundations

/-! ### The server and its runs -/

/-- A packet that arrives from a peer, and the time at which it is handled. -/
structure Reception where
  packet : List UInt8
  peer : SocketAddr
  now : Instant
  deriving DecidableEq, Repr

/-- The table of leases, and the time of the last packet. -/
structure DhcpState where
  leases : LeaseTable
  clock : Instant

/-- How the handling of a packet ends. -/
def DhcpState.answer (config : PxeConfig) (s : DhcpState) (e : Reception) :
    Except DhcpStop DhcpReply :=
  (processDhcp config e.packet e.peer s.leases e.now).1

/-- One turn of the loop of `run_dhcp`; the clock does not run backwards. -/
def DhcpState.step (config : PxeConfig) (s : DhcpState) (e : Reception) : Option DhcpState :=
  if e.now < s.clock then none
  else some {
    leases := (processDhcp config e.packet e.peer s.leases e.now).2
    clock := e.now }

/-- The address lies between the two ends of the pool. -/
def PxeConfig.InPool (config : PxeConfig) (ip : Ipv4Addr) : Prop :=
  ∃ start last, Ipv4Addr.parse config.poolStart = some start ∧
    Ipv4Addr.parse config.poolEnd = some last ∧ start.bits ≤ ip.bits ∧ ip.bits ≤ last.bits

/-- The addresses of the table are distinct and lie in the pool. -/
structure WellFormedLeases (config : PxeConfig) (leases : LeaseTable) : Prop where
  distinct : leases.DistinctBy Lease.ip
  inPool : ∀ client lease, leases.lookup client = some lease → config.InPool lease.ip

/-- The packet is answered by a reply of the given message type that names the address. -/
def Replies (config : PxeConfig) (s : DhcpState) (e : Reception) (kind : UInt8) (client : String)
    (ip : Ipv4Addr) : Prop :=
  ∃ reply, s.answer config e = .ok reply ∧ reply.Carries kind (some ip) client

/-- The client is sent an `OFFER` of the address. -/
def Offers (config : PxeConfig) (s : DhcpState) (e : Reception) (client : String) (ip : Ipv4Addr) :
    Prop :=
  Replies config s e 2 client ip

/-- The client is sent an `ACK` of the address. -/
def Acks (config : PxeConfig) (s : DhcpState) (e : Reception) (client : String) (ip : Ipv4Addr) :
    Prop :=
  Replies config s e 5 client ip

/-- The packet is a `DISCOVER` of the client. -/
def Discovers (e : Reception) (client : String) : Prop := dhcpClient e.packet = .ok (1, client)

/-- The packet is a `DECLINE` or a `RELEASE` of the client. -/
def GivesUp (e : Reception) (client : String) : Prop :=
  dhcpClient e.packet = .ok (4, client) ∨ dhcpClient e.packet = .ok (7, client)

/-- The client neither gives its address up nor is acknowledged another one. -/
def Keeps (config : PxeConfig) (client : String) (ip : Ipv4Addr) (s : DhcpState) (e : Reception) :
    Prop :=
  ¬ GivesUp e client ∧ ∀ ip', Acks config s e client ip' → ip' = ip

/-- What the run of the events `es` from `s` to `t` guarantees in `t` and of the next packet. -/
structure LeaseSafety (config : PxeConfig) (s : DhcpState) (es : List Reception) (t : DhcpState) :
    Prop where
  /-- The unexpired leases have distinct addresses. -/
  distinct : ∀ now, (t.leases.current now).DistinctBy Lease.ip
  /-- An offered or acknowledged address lies in the pool. -/
  inPool : ∀ e client ip, t.clock ≤ e.now →
    Offers config t e client ip ∨ Acks config t e client ip → config.InPool ip
  /-- An acknowledged address goes to no other client until the lease ends. -/
  held : ∀ pre e post m n client ip, es = pre ++ e :: post →
    Leads (DhcpState.step config) s pre m → Acks config m e client ip →
    DhcpState.step config m e = some n →
    Along (DhcpState.step config) (Keeps config client ip) n post →
    ∀ e' other, t.clock ≤ e'.now → e'.now < e.now + seconds config.leaseSeconds.toNat →
      other ≠ client → ¬ Offers config t e' other ip ∧ ¬ Acks config t e' other ip
  /-- An acknowledged address is recorded for its client. -/
  recorded : ∀ e client ip n, Acks config t e client ip → DhcpState.step config t e = some n →
    n.leases.lookup client = some { ip, expiresAt := e.now + seconds config.leaseSeconds.toNat }
  /-- A `DISCOVER` without an offer finds every address of the pool leased to another client. -/
  exhausted : ∀ e client, t.clock ≤ e.now → Discovers e client →
    (∀ ip, ¬ Offers config t e client ip) → ∀ ip, config.InPool ip →
      ∃ other lease, other ≠ client ∧ t.leases.lookup other = some lease ∧ lease.ip = ip ∧
        e.now < lease.expiresAt

/-- A machine with another hardware address is another client: while the lease runs, it is neither
offered nor acknowledged the address. -/
theorem LeaseSafety.held_of_hardware_ne {config : PxeConfig} {s m n t : DhcpState}
    {es pre post : List Reception} {e e' : Reception} {ip : Ipv4Addr} {address other : List UInt8}
    (h : LeaseSafety config s es t) (hsplit : es = pre ++ e :: post)
    (hm : Leads (DhcpState.step config) s pre m) (hack : Acks config m e (macText address) ip)
    (hn : DhcpState.step config m e = some n)
    (hkeeps : Along (DhcpState.step config) (Keeps config (macText address) ip) n post)
    (hclock : t.clock ≤ e'.now)
    (hruns : e'.now < e.now + seconds config.leaseSeconds.toNat) (haddress : address ≠ [])
    (hnonempty : other ≠ []) (hother : other ≠ address) :
    ¬ Offers config t e' (macText other) ip ∧ ¬ Acks config t e' (macText other) ip :=
  h.held pre e post m n _ ip hsplit hm hack hn hkeeps e' _ hclock hruns fun heq =>
    hother (macText_injective hnonempty haddress heq)

/-! ### The updates of the table -/

section Updates

variable {config : PxeConfig} {server mask start last : Ipv4Addr} {leases leases' : LeaseTable}
  {mac : String} {now : Instant} {ip : Ipv4Addr}

theorem PxeConfig.Validated.inPool_iff (hconfig : config.Validated server mask start last) :
    config.InPool ip ↔ start.bits ≤ ip.bits ∧ ip.bits ≤ last.bits := by
  simp [PxeConfig.InPool, hconfig.start_eq, hconfig.last_eq]

theorem LeaseTable.lookup_current_eq_some {client : String} {lease : Lease} :
    (leases.current now).lookup client = some lease ↔
      leases.lookup client = some lease ∧ now < lease.expiresAt := by
  simp [LeaseTable.current, AList.lookup_retain_eq_some]

theorem LeaseTable.any_entries {p : String → Lease → Bool} :
    (leases.entries.any fun entry => p entry.1 entry.2) = true ↔
      ∃ client lease, leases.lookup client = some lease ∧ p client lease = true := by
  simp only [List.any_eq_true, Sigma.exists]
  exact exists_congr fun client => exists_congr fun lease =>
    and_congr_left fun _ => AList.mem_lookup_iff.symm

/-- What `allocate_lease` makes of the unexpired leases: it keeps the client's lease, leases a free
address, or finds none. -/
inductive Allocation (config : PxeConfig) (current : LeaseTable) (mac : String) (now : Instant) :
    Option Ipv4Addr × LeaseTable → Prop
  | kept {lease : Lease} (hlookup : current.lookup mac = some lease)
      (hpool : config.InPool lease.ip) :
      Allocation config current mac now (some lease.ip, current)
  | fresh {ip : Ipv4Addr}
      (hown : ∀ lease, current.lookup mac = some lease → ¬ config.InPool lease.ip)
      (hpool : config.InPool ip)
      (hfree : ∀ client lease, current.lookup client = some lease → lease.ip ≠ ip) :
      Allocation config current mac now (some ip, current.insert mac (newLease config ip now))
  | exhausted (hown : ∀ lease, current.lookup mac = some lease → ¬ config.InPool lease.ip)
      (hfull : ∀ ip, config.InPool ip →
        ∃ client lease, current.lookup client = some lease ∧ lease.ip = ip) :
      Allocation config current mac now (none, current)

theorem allocation_allocateLease (hconfig : config.Validated server mask start last)
    (leases : LeaseTable) (mac : String) (now : Instant) :
    Allocation config (leases.current now) mac now (allocateLease config leases mac now) := by
  generalize hcurrent : leases.current now = current
  simp only [allocateLease, parseIpv4_eq_ok_iff.2 hconfig.start_eq,
    parseIpv4_eq_ok_iff.2 hconfig.last_eq, hcurrent]
  split
  · next lease hlease =>
    obtain ⟨hlookup, hpool⟩ := Option.filter_eq_some_iff.1 hlease
    exact .kept hlookup (hconfig.inPool_iff.2 (by simpa using hpool))
  · next hnone =>
    have hown : ∀ lease, current.lookup mac = some lease → ¬ config.InPool lease.ip := by
      intro lease hlookup hpool
      rw [hlookup, Option.filter_some, if_pos (by simpa using hconfig.inPool_iff.1 hpool)] at hnone
      cases hnone
    split
    · next ip hip =>
      have hpool := Ipv4Addr.mem_range.1 (List.mem_of_find?_eq_some hip)
      refine .fresh hown (hconfig.inPool_iff.2 hpool) fun client lease hlookup heq => ?_
      have hfree := List.find?_some hip
      rw [Bool.not_eq_true', ← Bool.not_eq_true] at hfree
      exact hfree ((LeaseTable.any_entries (p := fun _ lease => decide (lease.ip = ip))).2
        ⟨client, lease, hlookup, by simpa using heq⟩)
    · next hfull =>
      refine .exhausted hown fun ip hpool => ?_
      have htaken := List.find?_eq_none.1 hfull ip
        (Ipv4Addr.mem_range.2 (hconfig.inPool_iff.1 hpool))
      rw [Bool.not_eq_true', Bool.not_eq_false] at htaken
      obtain ⟨client, lease, hlookup, heq⟩ :=
        (LeaseTable.any_entries (p := fun _ lease => decide (lease.ip = ip))).1 htaken
      exact ⟨client, lease, hlookup, by simpa using heq⟩

/-- An allocated address lies in the pool, and no other client has it. -/
theorem Allocation.spec {current : LeaseTable} (hcurrent : WellFormedLeases config current)
    (h : Allocation config current mac now (some ip, leases')) :
    config.InPool ip ∧ ∀ client lease, current.lookup client = some lease → lease.ip = ip →
      client = mac := by
  cases h with
  | kept hlookup hpool =>
    exact ⟨hpool, fun client lease hlookup' heq =>
      hcurrent.distinct client mac lease _ hlookup' hlookup heq⟩
  | fresh hown hpool hfree =>
    exact ⟨hpool, fun client lease hlookup heq => absurd heq (hfree client lease hlookup)⟩

/-- What `assign_requested_lease` does: it refuses, or leases the address to the client. -/
inductive Assignment (config : PxeConfig) (leases : LeaseTable) (mac : String) (now : Instant)
    (ip : Ipv4Addr) : Option Ipv4Addr × LeaseTable → Prop
  | refused {leases' : LeaseTable} (h : leases' = leases ∨ leases' = leases.current now) :
      Assignment config leases mac now ip (none, leases')
  | assigned (hpool : config.InPool ip)
      (hfree : ∀ client lease, (leases.current now).lookup client = some lease → lease.ip = ip →
        client = mac) :
      Assignment config leases mac now ip
        (some ip, (leases.current now).insert mac (newLease config ip now))

theorem assignment_assignRequestedLease (hconfig : config.Validated server mask start last)
    (leases : LeaseTable) (mac : String) (ip : Ipv4Addr) (now : Instant) :
    Assignment config leases mac now ip (assignRequestedLease config leases mac ip now) := by
  simp only [assignRequestedLease, parseIpv4_eq_ok_iff.2 hconfig.start_eq,
    parseIpv4_eq_ok_iff.2 hconfig.last_eq]
  split_ifs with hrange htaken
  · exact .refused (.inl rfl)
  · exact .refused (.inr rfl)
  · rw [not_or, UInt32.not_lt, UInt32.not_lt] at hrange
    refine .assigned (hconfig.inPool_iff.2 hrange) fun client lease hlookup heq => ?_
    by_contra hne
    exact htaken ((LeaseTable.any_entries
      (p := fun client lease => decide (client ≠ mac ∧ lease.ip = ip))).2
        ⟨client, lease, hlookup, by simp [hne, heq]⟩)

/-! ### The answer to a packet -/

/-- What a packet does to the table of the standalone server, and the answer to it. -/
inductive DhcpEdge (config : PxeConfig) (leases : LeaseTable) (e : Reception) :
    Except DhcpStop DhcpReply → LeaseTable → Prop
  | ignored (hclient : dhcpClient e.packet = .error .ignored) :
      DhcpEdge config leases e (.error .ignored) leases
  | gaveUp {mac : String} (hclient : GivesUp e mac) :
      DhcpEdge config leases e (.error .ignored) (leases.erase mac)
  | offered {mac : String} {reply : DhcpReply} {ip : Ipv4Addr} {leases' : LeaseTable}
      (hclient : Discovers e mac)
      (halloc : Allocation config (leases.current e.now) mac e.now (some ip, leases'))
      (hreply : reply.Carries 2 (some ip) mac) :
      DhcpEdge config leases e (.ok reply) leases'
  | exhausted {mac : String} {leases' : LeaseTable} (hclient : Discovers e mac)
      (halloc : Allocation config (leases.current e.now) mac e.now (none, leases')) :
      DhcpEdge config leases e (.error .ignored) leases'
  | acknowledged {mac : String} {reply : DhcpReply} {ip : Ipv4Addr} {leases' : LeaseTable}
      (hclient : dhcpClient e.packet = .ok (3, mac))
      (hassign : Assignment config leases mac e.now ip (some ip, leases'))
      (hreply : reply.Carries 5 (some ip) mac) :
      DhcpEdge config leases e (.ok reply) leases'
  | refused {mac : String} {reply : DhcpReply} {leases' : LeaseTable}
      (hclient : dhcpClient e.packet = .ok (3, mac))
      (h : leases' = leases ∨ leases' = leases.current e.now)
      (hreply : reply.Carries 6 none mac) :
      DhcpEdge config leases e (.ok reply) leases'

/-- The standalone server answers a packet along an edge; in particular nothing panics. -/
theorem dhcpEdge_processDhcp (hconfig : config.Validated server mask start last)
    (hmode : config.mode = .standaloneDhcp) (leases : LeaseTable) (e : Reception) :
    DhcpEdge config leases e (processDhcp config e.packet e.peer leases e.now).1
      (processDhcp config e.packet e.peer leases e.now).2 := by
  unfold processDhcp
  cases hclient : dhcpClient e.packet with
  | error stop =>
    cases stop with
    | ignored => exact .ignored hclient
    | panicked => exact absurd hclient (dhcpClient_ne_panicked e.packet)
  | ok client =>
    obtain ⟨message, mac⟩ := client
    obtain ⟨hlen, hmessage⟩ := dhcpClient_eq_ok hclient
    have hreply := exists_dhcpReply hconfig hlen e.peer mac
    by_cases hgive : message = 4 ∨ message = 7
    · simp only [if_pos hgive]
      suffices hgives : GivesUp e mac from .gaveUp hgives
      rcases hgive with rfl | rfl
      · exact .inl hclient
      · exact .inr hclient
    · simp only [if_neg hgive, offeredAddress, if_pos hmode]
      rcases hmessage with rfl | rfl | rfl | rfl
      · have halloc := allocation_allocateLease hconfig leases mac e.now
        obtain ⟨⟨offered, leases'⟩, hout⟩ :
            ∃ r, r = allocateLease config leases mac e.now := ⟨_, rfl⟩
        rw [← hout] at halloc
        simp only [if_true, ← hout]
        cases offered with
        | none => exact .exhausted hclient halloc
        | some ip =>
          obtain ⟨reply, hok, hcarries⟩ := hreply (some ip) 2
          simp only [hok]
          exact .offered hclient halloc hcarries
      · obtain ⟨nak, hnak, hnakCarries⟩ := hreply none 6
        obtain ⟨requested, hrequested⟩ := exists_requestedAddress hlen
        rw [if_neg (by decide), hrequested]
        cases requested with
        | none =>
          simp only [hnak]
          exact .refused hclient (.inl rfl) hnakCarries
        | some ip =>
          have hassign := assignment_assignRequestedLease hconfig leases mac ip e.now
          obtain ⟨⟨assigned, leases'⟩, hout⟩ :
            ∃ r, r = assignRequestedLease config leases mac ip e.now := ⟨_, rfl⟩
          rw [← hout] at hassign
          simp only [← hout]
          cases hassign with
          | refused h =>
            simp only [hnak]
            exact .refused hclient h hnakCarries
          | assigned hpool hfree =>
            obtain ⟨reply, hok, hcarries⟩ := hreply (some ip) 5
            simp only [hok]
            exact .acknowledged hclient (.assigned hpool hfree) hcarries
      · exact absurd (.inl rfl) hgive
      · exact absurd (.inr rfl) hgive

/-! ### Well-formed tables -/

namespace WellFormedLeases

theorem erase (h : WellFormedLeases config leases) (mac : String) :
    WellFormedLeases config (leases.erase mac) where
  distinct := h.distinct.erase mac
  inPool client lease hlookup := by
    by_cases hclient : client = mac
    · rw [hclient, AList.lookup_erase] at hlookup
      cases hlookup
    · rw [AList.lookup_erase_ne hclient] at hlookup
      exact h.inPool client lease hlookup

theorem current (h : WellFormedLeases config leases) (now : Instant) :
    WellFormedLeases config (leases.current now) where
  distinct := h.distinct.retain _
  inPool client lease hlookup :=
    h.inPool client lease (LeaseTable.lookup_current_eq_some.1 hlookup).1

theorem insert (h : WellFormedLeases config leases) {lease : Lease} (hpool : config.InPool lease.ip)
    (hfree : ∀ client lease', leases.lookup client = some lease' → lease'.ip = lease.ip →
      client = mac) : WellFormedLeases config (leases.insert mac lease) where
  distinct := h.distinct.insert hfree
  inPool client lease' hlookup := by
    by_cases hclient : client = mac
    · rw [hclient, AList.lookup_insert] at hlookup
      exact Option.some.inj hlookup ▸ hpool
    · rw [AList.lookup_insert_ne hclient] at hlookup
      exact h.inPool client lease' hlookup

theorem of_allocation {r : Option Ipv4Addr × LeaseTable} (h : WellFormedLeases config leases)
    (halloc : Allocation config leases mac now r) : WellFormedLeases config r.2 := by
  cases halloc with
  | kept => exact h
  | exhausted => exact h
  | fresh hown hpool hfree =>
    exact h.insert hpool fun client lease hlookup heq => absurd heq (hfree client lease hlookup)

/-- An allocation leaves every lease of the table as it is. -/
theorem lookup_allocation {r : Option Ipv4Addr × LeaseTable} (h : WellFormedLeases config leases)
    (halloc : Allocation config leases mac now r) {client : String} {lease : Lease}
    (hlookup : leases.lookup client = some lease) : r.2.lookup client = some lease := by
  cases halloc with
  | kept => exact hlookup
  | exhausted => exact hlookup
  | fresh hown hpool hfree =>
    have hclient : client ≠ mac := by
      rintro rfl
      exact hown lease hlookup (h.inPool client lease hlookup)
    rwa [AList.lookup_insert_ne hclient]

theorem of_assignment {r : Option Ipv4Addr × LeaseTable} (h : WellFormedLeases config leases)
    (hassign : Assignment config leases mac now ip r) : WellFormedLeases config r.2 := by
  cases hassign with
  | refused h' => rcases h' with rfl | rfl; exacts [h, h.current now]
  | assigned hpool hfree => exact (h.current now).insert hpool hfree

theorem of_edge {e : Reception} {answer : Except DhcpStop DhcpReply}
    (h : WellFormedLeases config leases) (hedge : DhcpEdge config leases e answer leases') :
    WellFormedLeases config leases' := by
  cases hedge with
  | ignored => exact h
  | gaveUp => exact h.erase _
  | offered hclient halloc => exact (h.current e.now).of_allocation halloc
  | exhausted hclient halloc => exact (h.current e.now).of_allocation halloc
  | acknowledged hclient hassign => exact h.of_assignment hassign
  | refused hclient h' => rcases h' with rfl | rfl; exacts [h, h.current e.now]

end WellFormedLeases

end Updates

/-! ### Steps and runs -/

section Runs

variable {config : PxeConfig} {server mask start last : Ipv4Addr} {s t : DhcpState} {e : Reception}
  {client : String} {ip : Ipv4Addr} {finish : Instant}

/-- A step handles a packet along an edge, and moves the clock to its time. -/
theorem DhcpState.step_eq_some (hconfig : config.Validated server mask start last)
    (hmode : config.mode = .standaloneDhcp) (h : s.step config e = some t) :
    DhcpEdge config s.leases e (s.answer config e) t.leases ∧ t.clock = e.now ∧
      s.clock ≤ e.now := by
  unfold DhcpState.step at h
  split_ifs at h with hclock
  obtain rfl := Option.some.inj h
  exact ⟨dhcpEdge_processDhcp hconfig hmode s.leases e, rfl, not_lt.1 hclock⟩

/-- The table stays well formed along every run. -/
theorem WellFormedLeases.of_leads (hconfig : config.Validated server mask start last)
    (hmode : config.mode = .standaloneDhcp) (hs : WellFormedLeases config s.leases)
    {es : List Reception} (h : Leads (DhcpState.step config) s es t) :
    WellFormedLeases config t.leases :=
  h.invariant (I := fun m => WellFormedLeases config m.leases) hs fun _ _ _ hm hn =>
    hm.of_edge (DhcpState.step_eq_some hconfig hmode hn).1

/-- Two readings of one reply agree. -/
theorem DhcpReply.Carries.unique {reply : DhcpReply} {kind kind' : UInt8}
    {address address' : Option Ipv4Addr} {mac mac' : String} (h : reply.Carries kind address mac)
    (h' : reply.Carries kind' address' mac') :
    kind = kind' ∧ address.getD ⟨0⟩ = address'.getD ⟨0⟩ ∧ mac = mac' := by
  have hkind := h.kind_eq.symm.trans h'.kind_eq
  have haddress := h.address_eq.symm.trans h'.address_eq
  exact ⟨by simpa using hkind, Option.some.inj haddress, h.mac_eq.symm.trans h'.mac_eq⟩

/-- An offered address lies in the pool, and no other client has an unexpired lease of it. -/
theorem Offers.spec (hconfig : config.Validated server mask start last)
    (hmode : config.mode = .standaloneDhcp) (hs : WellFormedLeases config s.leases)
    (h : Offers config s e client ip) :
    config.InPool ip ∧ ∀ other lease, (s.leases.current e.now).lookup other = some lease →
      lease.ip = ip → other = client := by
  obtain ⟨reply, hanswer, hcarries⟩ := h
  have hedge := dhcpEdge_processDhcp hconfig hmode s.leases e
  rw [← DhcpState.answer, hanswer] at hedge
  generalize (processDhcp config e.packet e.peer s.leases e.now).2 = leases' at hedge
  cases hedge with
  | offered hclient halloc hreply =>
    obtain ⟨-, rfl, rfl⟩ := hreply.unique hcarries
    exact halloc.spec (hs.current e.now)
  | acknowledged hclient hassign hreply => exact absurd (hreply.unique hcarries).1 (by decide)
  | refused hclient h' hreply => exact absurd (hreply.unique hcarries).1 (by decide)

/-- An acknowledged address lies in the pool, no other client has an unexpired lease of it, and a
new lease is recorded. -/
theorem Acks.spec (hconfig : config.Validated server mask start last)
    (hmode : config.mode = .standaloneDhcp) (h : Acks config s e client ip) :
    config.InPool ip ∧
      (∀ other lease, (s.leases.current e.now).lookup other = some lease → lease.ip = ip →
        other = client) ∧
      (processDhcp config e.packet e.peer s.leases e.now).2 =
        (s.leases.current e.now).insert client (newLease config ip e.now) := by
  obtain ⟨reply, hanswer, hcarries⟩ := h
  have hedge := dhcpEdge_processDhcp hconfig hmode s.leases e
  rw [← DhcpState.answer, hanswer] at hedge
  generalize (processDhcp config e.packet e.peer s.leases e.now).2 = leases' at hedge ⊢
  cases hedge with
  | acknowledged hclient hassign hreply =>
    obtain ⟨-, rfl, rfl⟩ := hreply.unique hcarries
    cases hassign with
    | assigned hpool hfree => exact ⟨hpool, hfree, rfl⟩
  | offered hclient halloc hreply => exact absurd (hreply.unique hcarries).1 (by decide)
  | refused hclient h' hreply => exact absurd (hreply.unique hcarries).1 (by decide)

theorem Acks.recorded (hconfig : config.Validated server mask start last)
    (hmode : config.mode = .standaloneDhcp) (h : Acks config s e client ip)
    (hstep : s.step config e = some t) :
    t.leases.lookup client = some (newLease config ip e.now) := by
  obtain ⟨-, -, hleases⟩ := h.spec hconfig hmode
  unfold DhcpState.step at hstep
  split_ifs at hstep
  obtain rfl := Option.some.inj hstep
  rw [hleases, AList.lookup_insert]

/-- A `DISCOVER` that is not offered an address found none. -/
theorem Discovers.exhausted (hconfig : config.Validated server mask start last)
    (hmode : config.mode = .standaloneDhcp) (h : Discovers e client)
    (hno : ∀ ip, ¬ Offers config s e client ip) (hpool : config.InPool ip) :
    ∃ other lease, other ≠ client ∧ (s.leases.current e.now).lookup other = some lease ∧
      lease.ip = ip := by
  have hedge := dhcpEdge_processDhcp hconfig hmode s.leases e
  rw [← DhcpState.answer] at hedge
  generalize hanswer : s.answer config e = answer at hedge
  generalize (processDhcp config e.packet e.peer s.leases e.now).2 = leases' at hedge
  cases hedge with
  | ignored hclient => cases h.symm.trans hclient
  | gaveUp hclient => rcases hclient with hclient | hclient <;> cases h.symm.trans hclient
  | offered hclient halloc hreply =>
    obtain ⟨-, rfl⟩ := Prod.mk.inj (Except.ok.inj (h.symm.trans hclient))
    exact absurd ⟨_, hanswer, hreply⟩ (hno _)
  | exhausted hclient halloc =>
    obtain ⟨-, rfl⟩ := Prod.mk.inj (Except.ok.inj (h.symm.trans hclient))
    cases halloc with
    | exhausted hown hfull =>
      obtain ⟨other, lease, hlookup, rfl⟩ := hfull ip hpool
      refine ⟨other, lease, ?_, hlookup, rfl⟩
      rintro rfl
      exact hown lease hlookup hpool
  | acknowledged hclient => cases h.symm.trans hclient
  | refused hclient => cases h.symm.trans hclient

/-- Until `finish` the client has a lease of the address, which a renewal does not shorten. -/
structure Held (config : PxeConfig) (client : String) (ip : Ipv4Addr) (finish : Instant)
    (s : DhcpState) : Prop where
  lease : s.clock < finish →
    ∃ lease, s.leases.lookup client = some lease ∧ lease.ip = ip ∧ finish ≤ lease.expiresAt
  renewal : finish ≤ s.clock + seconds config.leaseSeconds.toNat

theorem Held.of_step (hconfig : config.Validated server mask start last)
    (hmode : config.mode = .standaloneDhcp) (hs : WellFormedLeases config s.leases)
    (h : Held config client ip finish s) (hkeeps : Keeps config client ip s e)
    (hstep : s.step config e = some t) : Held config client ip finish t := by
  obtain ⟨hedge, hclock, hle⟩ := DhcpState.step_eq_some hconfig hmode hstep
  refine ⟨fun hlt => ?_, by rw [hclock]; exact h.renewal.trans (by gcongr)⟩
  rw [hclock] at hlt
  obtain ⟨lease, hlookup, rfl, hfinish⟩ := h.lease (hle.trans_lt hlt)
  have hcurrent : (s.leases.current e.now).lookup client = some lease :=
    LeaseTable.lookup_current_eq_some.2 ⟨hlookup, hlt.trans_le hfinish⟩
  generalize hanswer : s.answer config e = answer at hedge
  generalize hleases : t.leases = leases at hedge
  cases hedge with
  | ignored => exact ⟨lease, hlookup, rfl, hfinish⟩
  | @gaveUp mac hclient =>
    have hne : client ≠ mac := by
      rintro rfl
      exact hkeeps.1 hclient
    exact ⟨lease, by rwa [AList.lookup_erase_ne hne], rfl, hfinish⟩
  | offered hclient halloc =>
    exact ⟨lease, (hs.current e.now).lookup_allocation halloc hcurrent, rfl, hfinish⟩
  | exhausted hclient halloc =>
    exact ⟨lease, (hs.current e.now).lookup_allocation halloc hcurrent, rfl, hfinish⟩
  | @acknowledged mac reply ip' leases' hclient hassign hreply =>
    cases hassign with
    | assigned hpool hfree =>
      by_cases hmac : client = mac
      · -- the client renews the lease of its address
        have hip : ip' = lease.ip := hkeeps.2 ip' ⟨reply, hanswer, hmac ▸ hreply⟩
        refine ⟨newLease config ip' e.now, by rw [hmac, AList.lookup_insert], hip, ?_⟩
        exact h.renewal.trans (by simp only [newLease]; gcongr)
      · exact ⟨lease, by rwa [AList.lookup_insert_ne hmac], rfl, hfinish⟩
  | refused hclient h' =>
    rcases h' with rfl | rfl
    · exact ⟨lease, hlookup, rfl, hfinish⟩
    · exact ⟨lease, hcurrent, rfl, hfinish⟩

/-- A held address goes to no other client. -/
theorem Held.not_replies (hconfig : config.Validated server mask start last)
    (hmode : config.mode = .standaloneDhcp) (hs : WellFormedLeases config s.leases)
    (h : Held config client ip finish s) (hclock : s.clock ≤ e.now) (hlt : e.now < finish)
    {other : String} (hother : other ≠ client) :
    ¬ Offers config s e other ip ∧ ¬ Acks config s e other ip := by
  obtain ⟨lease, hlookup, rfl, hfinish⟩ := h.lease (hclock.trans_lt hlt)
  have hcurrent : (s.leases.current e.now).lookup client = some lease :=
    LeaseTable.lookup_current_eq_some.2 ⟨hlookup, hlt.trans_le hfinish⟩
  constructor
  · intro hoffers
    exact hother ((hoffers.spec hconfig hmode hs).2 client lease hcurrent rfl).symm
  · intro hacks
    exact hother ((hacks.spec hconfig hmode).2.1 client lease hcurrent rfl).symm

/-- An acknowledgement starts the holding of its address. -/
theorem Acks.held (hconfig : config.Validated server mask start last)
    (hmode : config.mode = .standaloneDhcp) (h : Acks config s e client ip)
    (hstep : s.step config e = some t) :
    Held config client ip (e.now + seconds config.leaseSeconds.toNat) t := by
  have hrecorded := h.recorded hconfig hmode hstep
  obtain ⟨-, hclock, -⟩ := DhcpState.step_eq_some hconfig hmode hstep
  exact ⟨fun _ => ⟨_, hrecorded, rfl, le_rfl⟩, by rw [hclock]⟩

/-- Every run of the standalone server from a well-formed table is safe. -/
theorem leaseSafety_of_leads {host : PxeHost} (hconfig : validatePxeConfig host config = .ok ())
    (hmode : config.mode = .standaloneDhcp) (hs : WellFormedLeases config s.leases)
    {es : List Reception} (h : Leads (DhcpState.step config) s es t) :
    LeaseSafety config s es t := by
  obtain ⟨server, mask, start, last, hvalid⟩ := exists_validated hconfig
  have ht := hs.of_leads hvalid hmode h
  refine ⟨fun now => (ht.current now).distinct, ?_, ?_, ?_, ?_⟩
  · rintro e client ip - (hoffers | hacks)
    · exact (hoffers.spec hvalid hmode ht).1
    · exact (hacks.spec hvalid hmode).1
  · rintro pre e post m n client ip rfl hm hacks hn hkeeps e' other hclock hlt hother
    obtain ⟨m', n', hm', hn', hpost⟩ := h.split
    obtain rfl := hm.unique hm'
    obtain rfl := Option.some.inj (hn.symm.trans hn')
    have hwf : WellFormedLeases config n.leases := hs.of_leads hvalid hmode (hm.concat hn)
    -- the table stays well formed, and the client keeps the address
    have hinv := hpost.invariant_along
      (I := fun u => WellFormedLeases config u.leases ∧
        Held config client ip (e.now + seconds config.leaseSeconds.toNat) u)
      hkeeps ⟨hwf, hacks.held hvalid hmode hn⟩ fun u f v hu hkeep hv =>
        ⟨hu.1.of_edge (DhcpState.step_eq_some hvalid hmode hv).1,
          hu.2.of_step hvalid hmode hu.1 hkeep hv⟩
    exact hinv.2.not_replies hvalid hmode hinv.1 hclock hlt hother
  · intro e client ip n hacks hn
    exact hacks.recorded hvalid hmode hn
  · rintro e client - hdiscovers hno ip hpool
    obtain ⟨other, lease, hother, hlookup, hip⟩ := hdiscovers.exhausted hvalid hmode hno hpool
    obtain ⟨hlookup, hlt⟩ := LeaseTable.lookup_current_eq_some.1 hlookup
    exact ⟨other, lease, hother, hlookup, hip, hlt⟩

end Runs

/-! ### A pool of two addresses -/

/-- A host whose paths have names between slashes, with two boot programs. -/
def labPxeHost : PxeHost where
  isAbsolute path := path.toList.head? == some '/'
  components path := (path.toList.splitOn '/').map fun name =>
    if name = ['.', '.'] then .parentDir else .normal (String.ofList name)
  isDir path := path == "/srv/tftp"
  isFile root file := root == "/srv/tftp" && (file == "undionly.kpxe" || file == "ipxe.efi")

/-- A configuration with a pool of two addresses. -/
def labPxeConfig : PxeConfig where
  mode := .standaloneDhcp
  bindAddress := "192.168.10.1"
  subnetMask := "255.255.255.0"
  poolStart := "192.168.10.100"
  poolEnd := "192.168.10.101"
  leaseSeconds := 3600
  gateway := none
  dnsServers := []
  tftpRoot := "/srv/tftp"
  biosBootFile := "undionly.kpxe"
  uefiX64BootFile := "ipxe.efi"

/-- A packet of an Ethernet client with its message type and more options. -/
def labPacket (client message : UInt8) (options : List UInt8) : List UInt8 :=
  [1, 1, 6, 0] ++ List.replicate 24 0 ++ [2, 0, 0, 0, 0, client] ++ List.replicate 202 0 ++
    dhcpMagicCookie ++ [53, 1, message] ++ options ++ [255]

/-- A packet that arrives from the port of a client. -/
def labReception (second : ℤ) (packet : List UInt8) : Reception where
  packet := packet
  peer := { ip := .v4 ⟨0⟩, port := dhcpClientPort }
  now := seconds second

/-- The first client is offered the first address and takes it; the second one is offered the other
address, asks for the first one, and is refused. -/
def labReceptions : List Reception :=
  [labReception 1 (labPacket 1 1 []), labReception 2 (labPacket 1 3 [50, 4, 192, 168, 10, 100]),
    labReception 3 (labPacket 2 1 []), labReception 4 (labPacket 2 3 [50, 4, 192, 168, 10, 100])]

theorem leaseSafety_labReceptions : ∃ t,
    Leads (DhcpState.step labPxeConfig) { leases := ∅, clock := 0 } labReceptions t ∧
    LeaseSafety labPxeConfig { leases := ∅, clock := 0 } labReceptions t ∧
    t.leases.lookup "02:00:00:00:00:01" =
      some { ip := .ofOctets 192 168 10 100, expiresAt := seconds 3602 } ∧
    t.leases.lookup "02:00:00:00:00:02" =
      some { ip := .ofOctets 192 168 10 101, expiresAt := seconds 3603 } := by
  have hrun : (runFrom (DhcpState.step labPxeConfig) { leases := ∅, clock := 0 } labReceptions).map
      (fun t => (t.leases.lookup "02:00:00:00:00:01", t.leases.lookup "02:00:00:00:00:02")) =
      some (some { ip := .ofOctets 192 168 10 100, expiresAt := seconds 3602 },
        some { ip := .ofOctets 192 168 10 101, expiresAt := seconds 3603 }) := by
    decide +kernel
  obtain ⟨t, ht, hleases⟩ := exists_leads_of_map hrun
  obtain ⟨hfirst, hsecond⟩ := Prod.mk.inj hleases
  refine ⟨t, ht, ?_, hfirst, hsecond⟩
  refine @leaseSafety_of_leads labPxeConfig _ _ labPxeHost (by decide +kernel) rfl ⟨?_, ?_⟩ _ ht
  · intro a a' b b' h
    cases h
  · intro a b h
    cases h

end EasyDeployMesh
