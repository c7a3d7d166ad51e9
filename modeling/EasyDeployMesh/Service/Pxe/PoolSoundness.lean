import EasyDeployMesh.Foundations.Subnet
import EasyDeployMesh.Service.Pxe.LeaseSafety

/-!
# The addresses of the pool

`validate_pxe_config` compares the two ends of the pool with the subnet and the pool with the
address of the server. A contiguous mask carries both comparisons over to every address between the
ends. The gateway only has to be an address, so it may lie in the pool, and then it is leased to a
client.

## Main definitions

* `EasyDeployMesh.IsUsableHost`: the addresses that the machines of a subnet may have.
* `EasyDeployMesh.PxeConfig.SoundPool`: all addresses of the pool are usable, and none is taken.
* `EasyDeployMesh.PxeConfig.GatewayOutsidePool`: the gateway does not lie between the ends.

## Main results

* `EasyDeployMesh.PxeConfig.Validated.isUsableHost`: the addresses between the ends are usable.
* `EasyDeployMesh.soundPool_iff`: the pool is sound exactly when the gateway lies outside it.
-/

namespace EasyDeployMesh

open Foundations

/-! ### Hosts of a subnet -/

/-- The address is in the subnet of the server, and it is not one of its two special addresses. -/
structure IsUsableHost (server mask address : Ipv4Addr) : Prop where
  inSubnet : address.bits &&& mask.bits = server.bits &&& mask.bits
  notNetwork : address.bits ≠ server.bits &&& mask.bits
  notBroadcast : address.bits ≠ (server.bits &&& mask.bits) ||| ~~~mask.bits

namespace PxeConfig

variable (config : PxeConfig)

/-- Every address of the pool is a usable address of the server's subnet, and it is neither the one
of the server nor the one of the gateway. -/
def SoundPool : Prop :=
  ∃ server mask, Ipv4Addr.parse config.bindAddress = some server ∧
    Ipv4Addr.parse config.subnetMask = some mask ∧
    ∀ address, config.InPool address → IsUsableHost server mask address ∧ address ≠ server ∧
      ∀ gateway ∈ config.gateway, Ipv4Addr.parse gateway ≠ some address

/-- The gateway, if there is one, does not lie between the ends of the pool. -/
def GatewayOutsidePool : Prop :=
  ∀ gateway ∈ config.gateway, ∀ ip, Ipv4Addr.parse gateway = some ip → ¬ config.InPool ip

end PxeConfig

/-! ### Checked pools -/

/-- The mask of an accepted configuration is contiguous. -/
theorem isContiguous_of_validatePxeConfig {host : PxeHost} {config : PxeConfig}
    (h : validatePxeConfig host config = .ok ()) {mask : Ipv4Addr}
    (hmask : Ipv4Addr.parse config.subnetMask = some mask) : IsContiguous mask.bits := by
  simp only [validatePxeConfig, bind_eq_ok_iff, check_eq_ok_iff, parseIpv4_eq_ok_iff, not_or,
    not_not, ne_eq] at h
  obtain ⟨-, -, mask', hmask', -, -, -, -, hcontiguous, -⟩ := h
  rw [hmask] at hmask'
  exact Option.some.inj hmask' ▸ hcontiguous

variable {config : PxeConfig} {server mask start last address : Ipv4Addr}

/-- The addresses between the ends of the pool are usable. -/
theorem PxeConfig.Validated.isUsableHost (h : config.Validated server mask start last)
    (hmask : IsContiguous mask.bits) (hstart : start.bits ≤ address.bits)
    (hlast : address.bits ≤ last.bits) : IsUsableHost server mask address where
  inSubnet := by
    have hends := h.startInSubnet.trans h.lastInSubnet.symm
    rw [hmask.and_eq_of_between hends hstart hlast, h.startInSubnet]
  notNetwork heq := by
    have habove := h.aboveNetwork
    rw [← heq] at habove
    exact UInt32.not_le.mpr habove hstart
  notBroadcast heq := by
    have hbelow := h.belowBroadcast
    rw [← heq] at hbelow
    exact UInt32.not_le.mpr hbelow hlast

/-- The server does not have an address between the ends. -/
theorem PxeConfig.Validated.ne_server (h : config.Validated server mask start last)
    (hstart : start.bits ≤ address.bits) (hlast : address.bits ≤ last.bits) : address ≠ server := by
  rintro rfl
  exact h.serverOutside ⟨hstart, hlast⟩

/-- The pool of an accepted configuration of the standalone server is sound exactly when the gateway
lies outside it. -/
theorem soundPool_iff {host : PxeHost} (hconfig : validatePxeConfig host config = .ok ())
    (_hmode : config.mode = .standaloneDhcp) : config.SoundPool ↔ config.GatewayOutsidePool := by
  obtain ⟨server, mask, start, last, hvalid⟩ := exists_validated hconfig
  have hmask := isContiguous_of_validatePxeConfig hconfig hvalid.mask_eq
  constructor
  · rintro ⟨_, _, -, -, hpool⟩ gateway hgateway ip hip hin
    exact (hpool ip hin).2.2 gateway hgateway hip
  · intro houtside
    refine ⟨server, mask, hvalid.server_eq, hvalid.mask_eq, fun address hin => ?_⟩
    obtain ⟨hstart, hlast⟩ := hvalid.inPool_iff.mp hin
    exact ⟨hvalid.isUsableHost hmask hstart hlast, hvalid.ne_server hstart hlast,
      fun gateway hgateway hip => houtside gateway hgateway address hip hin⟩

/-! ### A gateway in the pool -/

/-- The laboratory with the first address of the pool as its gateway. -/
def gatewayInPool : PxeConfig :=
  { labPxeConfig with gateway := some "192.168.10.100" }

/-- The configuration is accepted, and the first client is given the address of the gateway. -/
theorem soundPool_fails_of_gatewayInPool :
    validatePxeConfig labPxeHost gatewayInPool = .ok () ∧
    gatewayInPool.mode = .standaloneDhcp ∧
    (allocateLease gatewayInPool ∅ "02:00:00:00:00:01" 0).1 = some (.ofOctets 192 168 10 100) ∧
    ¬ gatewayInPool.SoundPool := by
  refine ⟨by decide +kernel, rfl, by decide +kernel, ?_⟩
  rintro ⟨_, _, -, -, hpool⟩
  have hin : gatewayInPool.InPool (.ofOctets 192 168 10 100) :=
    ⟨.ofOctets 192 168 10 100, .ofOctets 192 168 10 101, by decide +kernel, by decide +kernel,
      by decide, by decide⟩
  exact (hpool _ hin).2.2 "192.168.10.100" rfl (by decide +kernel)

/-- The laboratory without a gateway. -/
theorem soundPool_labPxeConfig : labPxeConfig.SoundPool := by
  have hvalid : validatePxeConfig labPxeHost labPxeConfig = .ok () := by decide +kernel
  refine (soundPool_iff hvalid rfl).mpr fun gateway hgateway => ?_
  cases hgateway

end EasyDeployMesh
