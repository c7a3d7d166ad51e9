import EasyDeployMesh.Service.DeviceRegistry.World

/-!
# The identity of a device

A registration finds the device that it updates by its MAC address, and a heartbeat finds it by its
id. A heartbeat stores the MAC address of its inventory without asking whether another device has
it, so the MAC addresses stay distinct in exactly the runs in which no accepted heartbeat takes the
MAC address of another device.

## Main definitions

* `EasyDeployMesh.DeviceRegistry.MacIdentity`: a MAC address identifies a device.
* `EasyDeployMesh.RegistryWorld.TakesMac`: the heartbeats that break it.

## Main results

* `EasyDeployMesh.RegistryWorld.keepsMacIdentity_iff`.
-/

namespace EasyDeployMesh

open Foundations

namespace DeviceRegistry

variable {digest : String → String} {registry : DeviceRegistry}

/-- Ids and MAC addresses identify the devices: the lookup by MAC address finds the owner, and a
registration under a known MAC address updates its owner and no other record. -/
structure MacIdentity (digest : String → String) (registry : DeviceRegistry) : Prop where
  ids_nodup : (registry.devices.map fun record => record.device.id).Nodup
  macs_nodup : (registry.devices.map fun record => record.device.macAddress).Nodup
  findByMac : ∀ macAddress normalized, normalizeMacAddress macAddress = .ok normalized →
    ∀ owner ∈ registry.devices, owner.device.macAddress = normalized →
      registry.findByMac macAddress = .ok (some owner.device)
  register : ∀ raw inventory ipAddress now secret id write registered registration,
    validateInventory raw = .ok inventory →
    ∀ owner ∈ registry.devices, owner.device.macAddress = inventory.macAddress →
      (registry.register digest raw ipAddress now secret id write).1 =
        .ok (registered, registration) →
      registration.deviceId = owner.device.id ∧
        ∃ new, new.device = inventory.toDevice owner.device.id ipAddress now ∧ ∀ record,
          record ∈ (registry.register digest raw ipAddress now secret id write).2.devices ↔
            record = new ∨ (record ∈ registry.devices ∧ record ≠ owner)

/-- With distinct MAC addresses, the search for the MAC address of a record finds it. -/
private theorem find?_mac_eq_some
    (hmacs : (registry.devices.map fun record => record.device.macAddress).Nodup)
    {owner : DeviceRecord} (howner : owner ∈ registry.devices) :
    registry.devices.find? (fun record => record.device.macAddress == owner.device.macAddress) =
      some owner :=
  find?_key_eq_some (fun record : DeviceRecord => record.device.macAddress) hmacs howner

/-- The lookup and the registration follow from the distinct keys. -/
theorem macIdentity_of_nodup
    (hids : (registry.devices.map fun record => record.device.id).Nodup)
    (hmacs : (registry.devices.map fun record => record.device.macAddress).Nodup) :
    registry.MacIdentity digest where
  ids_nodup := hids
  macs_nodup := hmacs
  findByMac macAddress normalized hnormalized owner howner hmac := by
    subst hmac
    simp [DeviceRegistry.findByMac, hnormalized, Except.map, find?_mac_eq_some hmacs howner]
  register raw inventory ipAddress now secret id write registered registration hvalid owner howner
      hmac hok := by
    obtain ⟨new, hnew, hid, hdevices⟩ := register_ok hvalid hok
    rw [← hmac, find?_mac_eq_some hmacs howner] at hnew
    have hdevice : new.device = inventory.toDevice owner.device.id ipAddress now := by
      rw [hnew]
      rfl
    have hnewId : new.device.id = owner.device.id := by simp [hdevice]
    refine ⟨hid.trans hnewId, new, hdevice, fun record => ?_⟩
    rw [hdevices, hnewId]
    simp only [List.mem_append, List.mem_filter, List.mem_singleton, bne_iff_ne, ne_eq]
    have hother : record ∈ registry.devices →
        (¬ record.device.id = owner.device.id ↔ record ≠ owner) := fun hrecord =>
      not_congr ⟨eq_of_key_eq _ hids hrecord howner, fun heq => heq ▸ rfl⟩
    constructor
    · rintro (⟨hrecord, hne⟩ | rfl)
      · exact Or.inr ⟨hrecord, (hother hrecord).1 hne⟩
      · exact Or.inl rfl
    · rintro (rfl | ⟨hrecord, hne⟩)
      · exact Or.inr rfl
      · exact Or.inl ⟨hrecord, (hother hrecord).2 hne⟩

end DeviceRegistry

namespace RegistryWorld

variable {digest : String → String} {w m n : RegistryWorld} {e : RegistryEvent}
  {manifestPath : String} {es : List RegistryEvent}

/-- An accepted heartbeat reports the MAC address of another device. -/
def TakesMac (digest : String → String) (w : RegistryWorld) (e : RegistryEvent) : Prop :=
  ∃ old ∈ w.registry.devices, ∃ other ∈ w.registry.devices,
    ∃ deviceToken raw inventory ipAddress now,
      e = .heartbeat old.device.id deviceToken raw ipAddress now .written ∧
    validateInventory raw = .ok inventory ∧
    secretMatches digest old.tokenDigest deviceToken = true ∧
    other.device.id ≠ old.device.id ∧ other.device.macAddress = inventory.macAddress

/-- The MAC addresses identify the devices in every state along the run. -/
def KeepsMacIdentity (digest : String → String) (start : RegistryWorld) (es : List RegistryEvent) :
    Prop :=
  ∀ pre post m, es = pre ++ post → Leads (step digest) start pre m → m.registry.MacIdentity digest

/-- The MAC addresses after an edge. -/
private theorem macs_of_devicesEdge {devices' : List DeviceRecord} {o : RegistryOutcome}
    (hm : m.Coherent) (h : DevicesEdge digest m.registry.devices e o devices')
    (hmacs : (m.registry.devices.map fun record => record.device.macAddress).Nodup)
    (hnot : ¬ m.TakesMac digest e) :
    (devices'.map fun record => record.device.macAddress).Nodup := by
  cases h with
  | added new _ hfree hdevice =>
    refine nodup_map_concat _ hmacs List.filter_sublist fun record hrecord => ?_
    rw [hdevice]
    exact hfree record (List.mem_filter.1 hrecord).1
  | @renewed _ inventory _ _ _ _ old new _ hfind hdevice =>
    refine nodup_map_concat _ hmacs List.filter_sublist fun record hrecord hmac => ?_
    obtain ⟨hrecord, hne⟩ := List.mem_filter.1 hrecord
    have hold : old.device.macAddress = inventory.macAddress := by simpa using List.find?_some hfind
    obtain rfl : record = old :=
      eq_of_key_eq (fun record : DeviceRecord => record.device.macAddress)
      hmacs hrecord (List.mem_of_find?_eq_some hfind) (by simpa [hdevice, hold] using hmac)
    simp at hne
  | @beaten raw inventory ipAddress now id deviceToken _ old new hvalid hid hmatches hdevice _
      hreplaces =>
    subst hid
    rw [hreplaces.nodup_map_iff _ hmacs]
    intro other hother hne hmac
    refine hnot ⟨old, hreplaces.mem_old, other, hother, deviceToken, raw, inventory, ipAddress, now,
      rfl, hvalid, hmatches, fun hid => hne ?_, by simpa [hdevice] using hmac⟩
    rw [eq_of_key_eq (fun record : DeviceRecord => record.device.id) hm.ids_nodup hother
      hreplaces.mem_old hid]
  | removed => exact (List.filter_sublist.map _).nodup hmacs

/-- A heartbeat that takes the MAC address of another device leaves two records with it. -/
private theorem not_macs_of_takesMac (hm : m.Coherent)
    (hmacs : (m.registry.devices.map fun record => record.device.macAddress).Nodup)
    (h : m.TakesMac digest e) : ∃ n, m.step digest e = some n ∧
      ¬ (n.registry.devices.map fun record => record.device.macAddress).Nodup := by
  obtain ⟨old, hold, other, hother, deviceToken, raw, inventory, ipAddress, now, rfl,
    hvalid, hmatches, hne, hmac⟩ := h
  refine ⟨_, step_eq_some_iff.2
    ⟨by simp [RegistryEvent.mint], by simp [RegistryEvent.token], rfl⟩, ?_⟩
  obtain ⟨-, hreplaces⟩ := DeviceRegistry.heartbeat_written ipAddress now
    hm.ids_nodup hold hvalid hmatches
  intro hnodup
  have hfree := (hreplaces.nodup_map_iff _ hmacs).1 hnodup other hother
  refine hfree (fun hsame => hne ?_) hmac
  rw [eq_of_key_eq (fun record : DeviceRecord => record.device.macAddress) hmacs hother hold hsame]

/-- A MAC address identifies its device along a run exactly when no accepted heartbeat reports the
MAC address of another device. -/
theorem keepsMacIdentity_iff :
    KeepsMacIdentity digest (empty manifestPath) es ↔
      Along (step digest) (fun m e => ¬ m.TakesMac digest e) (empty manifestPath) es := by
  constructor
  · rintro hlaw pre e post m rfl hpre htakes
    obtain ⟨n, hstep, hnot⟩ := not_macs_of_takesMac (coherent_of_leads hpre)
      (hlaw pre (e :: post) m rfl hpre).macs_nodup htakes
    exact hnot (hlaw (pre ++ [e]) post n (by simp) (hpre.concat hstep)).macs_nodup
  · rintro halong pre post m rfl hpre
    refine DeviceRegistry.macIdentity_of_nodup (coherent_of_leads hpre).ids_nodup ?_
    refine (hpre.invariant_along
      (I := fun x => x.Coherent ∧
        (x.registry.devices.map fun record => record.device.macAddress).Nodup)
      (Along.init halong) ⟨coherent_empty manifestPath, by simp [empty, DeviceRegistry.empty]⟩ ?_).2
    rintro x e y ⟨hx, hmacs⟩ hnot hstep
    refine ⟨hx.of_step hstep, ?_⟩
    obtain ⟨o, -, ⟨-, heq⟩ | hedge⟩ := edge_of_step hstep
    · rw [heq]
      exact hmacs
    · exact macs_of_devicesEdge hx hedge hmacs hnot

/-- Two machines register, and the second one reports the MAC address of the first one. -/
def clashEvents : List RegistryEvent :=
  [.register (labInventory "02:00:00:00:00:01") "192.0.2.21" (minutes 1) (11, 12) 1 .written,
   .register (labInventory "02:00:00:00:00:02") "192.0.2.22" (minutes 2) (21, 22) 2 .written,
   .heartbeat 2 (generateSecret "easydeploymesh_device" 21 22) (labInventory "02-00-00-00-00-01")
     "192.0.2.22" (minutes 3) .written]

private theorem clashEvents_end :
    (runFrom (step deviceDigest) (empty "devices.json") clashEvents).map (fun w =>
        w.registry.devices.map fun record => (record.device.id, record.device.macAddress)) =
      some [(1, "02:00:00:00:00:01"), (2, "02:00:00:00:00:01")] := by
  decide +kernel

/-- Two devices have one MAC address. -/
theorem keepsMacIdentity_fails_of_heartbeat :
    (∃ w, Leads (step deviceDigest) (empty "devices.json") clashEvents w) ∧
      ¬ KeepsMacIdentity deviceDigest (empty "devices.json") clashEvents := by
  obtain ⟨w, hw, hend⟩ := exists_leads_of_map clashEvents_end
  refine ⟨⟨w, hw⟩, fun hlaw => ?_⟩
  have hnodup := (hlaw clashEvents [] w (by simp) hw).macs_nodup
  have hmacs : (w.registry.devices.map fun record => record.device.macAddress) =
      ["02:00:00:00:00:01", "02:00:00:00:00:01"] := by
    simpa [Function.comp_def] using congrArg (List.map Prod.snd) hend
  rw [hmacs] at hnodup
  exact absurd hnodup (by decide)

end RegistryWorld

end EasyDeployMesh
