import EasyDeployMesh.Service.DeviceRegistry
import EasyDeployMesh.Foundations.Run

/-!
# Runs of the device registry

A run is a sequence of the calls of the registry that change it. The environment decides the
arguments, the readings of the clock, the outcomes of the writes, and the minted UUIDs, which are
fresh: no device id and no token is generated twice. The outcomes of the calls are recorded.

## Main definitions

* `EasyDeployMesh.RegistryEvent`, `EasyDeployMesh.RegistryOutcome`: the calls and their outcomes.
* `EasyDeployMesh.RegistryWorld`, `EasyDeployMesh.RegistryWorld.step`.
* `EasyDeployMesh.DevicesEdge`: what a call does to the records.

## Main results

* `EasyDeployMesh.RegistryWorld.devices_of_step`: a step keeps the records, or replaces them along
  one edge.
* `EasyDeployMesh.RegistryWorld.coherent_of_leads`: the device ids are distinct in every reachable
  state.
-/

namespace EasyDeployMesh

open Foundations

/-- A call on the registry together with what the environment answers to it. -/
inductive RegistryEvent
  | register (inventory : AgentInventory) (ipAddress : String) (now : Instant)
      (secret : Uuid × Uuid) (id : Uuid) (write : WriteOutcome)
  | heartbeat (id : Uuid) (deviceToken : String) (inventory : AgentInventory) (ipAddress : String)
      (now : Instant) (write : WriteOutcome)
  | remove (id : Uuid) (write : WriteOutcome)

/-- What a call returned, as far as it concerns tokens. -/
inductive RegistryOutcome
  | registered (deviceId : Uuid) (deviceToken : String)
  | removed (deviceId : Uuid)
  | other
  deriving DecidableEq

namespace RegistryEvent

variable (digest : String → String)

/-- What a call answers and the registry it leaves behind. -/
def apply (registry : DeviceRegistry) : RegistryEvent → RegistryOutcome × DeviceRegistry
  | register inventory ipAddress now secret id write =>
    match registry.register digest inventory ipAddress now secret id write with
    | (.ok (_, registration), registry) =>
      (.registered registration.deviceId registration.deviceToken, registry)
    | (.error _, registry) => (.other, registry)
  | heartbeat id deviceToken inventory ipAddress now write =>
    (.other, (registry.heartbeat digest id deviceToken inventory ipAddress now write).2)
  | remove id write =>
    match registry.remove id write with
    | (.ok true, registry) => (.removed id, registry)
    | (_, registry) => (.other, registry)

/-- The UUID that the call mints for a device that it does not know. -/
def mint : RegistryEvent → Option Uuid
  | register _ _ _ _ id _ => some id
  | _ => none

/-- The token that the call generates. -/
def token : RegistryEvent → Option String
  | register _ _ _ secret _ _ => some (generateSecret "easydeploymesh_device" secret.1 secret.2)
  | _ => none

end RegistryEvent

/-- The registry, the minted device ids, the generated tokens, and the outcomes of the calls, the
last one first. -/
structure RegistryWorld where
  registry : DeviceRegistry
  minted : List Uuid
  tokens : List String
  outcomes : List RegistryOutcome

/-- The registry over a directory without manifest. -/
def DeviceRegistry.empty (manifestPath : String) : DeviceRegistry where
  manifestPath := manifestPath
  devices := []
  manifestFile := .absent

/-- One call replaces the records by other records. -/
inductive DevicesEdge (digest : String → String) (devices : List DeviceRecord) :
    RegistryEvent → RegistryOutcome → List DeviceRecord → Prop
  | added {raw inventory : AgentInventory} {ipAddress : String} {now : Instant}
      {secret : Uuid × Uuid} {id : Uuid} (new : DeviceRecord)
      (hvalid : validateInventory raw = .ok inventory)
      (hfree : ∀ record ∈ devices, record.device.macAddress ≠ inventory.macAddress)
      (hdevice : new.device = inventory.toDevice id ipAddress now)
      (htoken : new.tokenDigest =
        digest (generateSecret "easydeploymesh_device" secret.1 secret.2)) :
      DevicesEdge digest devices (.register raw ipAddress now secret id .written)
        (.registered id (generateSecret "easydeploymesh_device" secret.1 secret.2))
        ((devices.filter fun record => record.device.id != id) ++ [new])
  | renewed {raw inventory : AgentInventory} {ipAddress : String} {now : Instant}
      {secret : Uuid × Uuid} {id : Uuid} (old new : DeviceRecord)
      (hvalid : validateInventory raw = .ok inventory)
      (hfind : devices.find? (fun record => record.device.macAddress == inventory.macAddress) =
        some old)
      (hdevice : new.device = inventory.toDevice old.device.id ipAddress now)
      (htoken : new.tokenDigest =
        digest (generateSecret "easydeploymesh_device" secret.1 secret.2)) :
      DevicesEdge digest devices (.register raw ipAddress now secret id .written)
        (.registered old.device.id (generateSecret "easydeploymesh_device" secret.1 secret.2))
        ((devices.filter fun record => record.device.id != old.device.id) ++ [new])
  | beaten {raw inventory : AgentInventory} {ipAddress : String} {now : Instant} {id : Uuid}
      {deviceToken : String} {devices' : List DeviceRecord} (old new : DeviceRecord)
      (hvalid : validateInventory raw = .ok inventory)
      (hid : old.device.id = id)
      (hmatches : secretMatches digest old.tokenDigest deviceToken = true)
      (hdevice : new.device = inventory.toDevice id ipAddress now)
      (htoken : new.tokenDigest = old.tokenDigest) (hreplaces : Replaces devices old new devices') :
      DevicesEdge digest devices (.heartbeat id deviceToken raw ipAddress now .written) .other
        devices'
  | removed {id : Uuid} :
      DevicesEdge digest devices (.remove id .written) (.removed id)
        (devices.filter fun record => record.device.id != id)

section

variable {digest : String → String} {registry : DeviceRegistry} {write : WriteOutcome}

theorem DeviceRegistry.commit_cases {α : Type} (registry : DeviceRegistry)
    (next : List DeviceRecord) (value : α) (write : WriteOutcome) :
    (write = .written ∧ ∃ file, registry.commit next value write =
        (.ok value, { registry with devices := next, manifestFile := file })) ∨
      ∃ error file, registry.commit next value write =
        (.error error, { registry with manifestFile := file }) := by
  cases write with
  | written => exact Or.inl ⟨rfl, _, rfl⟩
  | refused source | interrupted source => exact Or.inr ⟨_, _, rfl⟩

/-- A call keeps the records and returns nothing about tokens, or it replaces the records along an
edge. -/
theorem RegistryEvent.apply_cases (e : RegistryEvent) :
    ((e.apply digest registry).1 = .other ∧
        (e.apply digest registry).2.devices = registry.devices) ∨
      DevicesEdge digest registry.devices e (e.apply digest registry).1
        (e.apply digest registry).2.devices := by
  cases e with
  | register raw ipAddress now secret id write =>
    simp only [apply, DeviceRegistry.register]
    cases hvalid : validateInventory raw with
    | error error => exact Or.inl ⟨rfl, rfl⟩
    | ok inventory =>
      dsimp only
      generalize hknown : registry.devices.find?
        (fun record => record.device.macAddress == inventory.macAddress) = known
      generalize hnew : DeviceRegistry.registeredRecord digest inventory ipAddress now
        (generateSecret "easydeploymesh_device" secret.1 secret.2) id known = new
      rcases registry.commit_cases
          ((registry.devices.filter fun existing => existing.device.id != new.device.id) ++ [new])
          (DeviceRegistry.registeredDevice new now deviceOnlineWindow,
            ({ deviceId := new.device.id,
               deviceToken := generateSecret "easydeploymesh_device" secret.1 secret.2,
               heartbeatIntervalSeconds := defaultHeartbeatIntervalSeconds } : AgentRegistration))
          write with
        ⟨rfl, file, hcommit⟩ | ⟨error, file, hcommit⟩
      · rw [hcommit]
        subst hnew
        cases known with
        | none =>
          exact Or.inr (.added _ hvalid (by simpa using List.find?_eq_none.1 hknown) rfl rfl)
        | some old => exact Or.inr (.renewed old _ hvalid hknown rfl rfl)
      · rw [hcommit]
        exact Or.inl ⟨rfl, rfl⟩
  | heartbeat id deviceToken raw ipAddress now write =>
    simp only [apply, DeviceRegistry.heartbeat]
    cases hvalid : validateInventory raw with
    | error error => exact Or.inl ⟨trivial, rfl⟩
    | ok inventory =>
      dsimp only
      split
      · exact Or.inl ⟨trivial, rfl⟩
      · rename_i old put hfocus
        split_ifs with hmatches
        · exact Or.inl ⟨trivial, rfl⟩
        · rcases registry.commit_cases (put (DeviceRegistry.beat inventory ipAddress now old))
              ({ acceptedAt := now, nextHeartbeatSeconds := defaultHeartbeatIntervalSeconds } :
                AgentHeartbeatAck) write with
            ⟨rfl, file, hcommit⟩ | ⟨error, file, hcommit⟩
          · rw [hcommit]
            obtain ⟨_, _, -, -, hid, -⟩ := focus_eq_some_iff.1 hfocus
            obtain rfl : old.device.id = id := by simpa using hid
            exact Or.inr (.beaten old (DeviceRegistry.beat inventory ipAddress now old) hvalid rfl
              (by simpa using hmatches) rfl rfl (Replaces.of_focus hfocus _))
          · rw [hcommit]
            exact Or.inl ⟨trivial, rfl⟩
  | remove id write =>
    simp only [apply, DeviceRegistry.remove]
    split_ifs with hlength
    · exact Or.inl ⟨rfl, rfl⟩
    · rcases registry.commit_cases
          (registry.devices.filter fun record => record.device.id != id) true write with
        ⟨rfl, file, hcommit⟩ | ⟨error, file, hcommit⟩
      · rw [hcommit]
        exact Or.inr .removed
      · rw [hcommit]
        exact Or.inl ⟨rfl, rfl⟩

end

namespace RegistryWorld

variable {digest : String → String} {w w' : RegistryWorld} {e : RegistryEvent}

/-- A registry on which no call was made. -/
def empty (manifestPath : String) : RegistryWorld where
  registry := .empty manifestPath
  minted := []
  tokens := []
  outcomes := []

/-- One call; identifiers and secrets are not drawn twice. -/
def step (digest : String → String) (w : RegistryWorld) (e : RegistryEvent) :
    Option RegistryWorld :=
  if (e.mint.all fun id => !w.minted.contains id) &&
      e.token.all fun token => !w.tokens.contains token then
    some
      { registry := (e.apply digest w.registry).2
        minted := e.mint.toList ++ w.minted
        tokens := e.token.toList ++ w.tokens
        outcomes := (e.apply digest w.registry).1 :: w.outcomes }
  else none

theorem step_eq_some_iff : w.step digest e = some w' ↔
    (∀ id, e.mint = some id → id ∉ w.minted) ∧ (∀ token, e.token = some token → token ∉ w.tokens) ∧
      w' =
        { registry := (e.apply digest w.registry).2
          minted := e.mint.toList ++ w.minted
          tokens := e.token.toList ++ w.tokens
          outcomes := (e.apply digest w.registry).1 :: w.outcomes } := by
  simp [step, Option.all_eq_true, eq_comm (a := w'), and_assoc]

/-- The device ids are distinct, and all of them were minted. -/
structure Coherent (w : RegistryWorld) : Prop where
  ids_nodup : (w.registry.devices.map fun record => record.device.id).Nodup
  minted : ∀ record ∈ w.registry.devices, record.device.id ∈ w.minted

theorem coherent_empty (manifestPath : String) : (empty manifestPath).Coherent where
  ids_nodup := by simp [empty, DeviceRegistry.empty]
  minted := by simp [empty, DeviceRegistry.empty]

/-- A step keeps the records and has no outcome, or replaces the records along an edge. -/
theorem edge_of_step (h : w.step digest e = some w') :
    ∃ outcome, w'.outcomes = outcome :: w.outcomes ∧
      ((outcome = .other ∧ w'.registry.devices = w.registry.devices) ∨
        DevicesEdge digest w.registry.devices e outcome w'.registry.devices) := by
  obtain ⟨-, -, rfl⟩ := step_eq_some_iff.1 h
  exact ⟨_, rfl, e.apply_cases⟩

/-- The ids after an edge: distinct, and the old ones or the minted one. -/
private theorem ids_of_devicesEdge {devices devices' : List DeviceRecord} {o : RegistryOutcome}
    (h : DevicesEdge digest devices e o devices')
    (hids : (devices.map fun record => record.device.id).Nodup) :
    (devices'.map fun record => record.device.id).Nodup ∧ ∀ record ∈ devices',
      e.mint = some record.device.id ∨ ∃ old ∈ devices, old.device.id = record.device.id := by
  cases h with
  | added new _ _ hdevice =>
    refine ⟨nodup_map_concat _ hids List.filter_sublist ?_, fun record hrecord => ?_⟩
    · intro record hrecord
      simpa [hdevice] using (List.mem_filter.1 hrecord).2
    · rcases List.mem_append.1 hrecord with hold | hlast
      · exact Or.inr ⟨record, (List.mem_filter.1 hold).1, rfl⟩
      · rw [List.mem_singleton.1 hlast, hdevice]
        exact Or.inl rfl
  | renewed old new _ hfind hdevice =>
    have hnew : new.device.id = old.device.id := by simp [hdevice]
    refine ⟨nodup_map_concat _ hids List.filter_sublist ?_, fun record hrecord => Or.inr ?_⟩
    · intro record hrecord
      simpa [hnew] using (List.mem_filter.1 hrecord).2
    · rcases List.mem_append.1 hrecord with hold | hlast
      · exact ⟨record, (List.mem_filter.1 hold).1, rfl⟩
      · rw [List.mem_singleton.1 hlast]
        exact ⟨old, List.mem_of_find?_eq_some hfind, hnew.symm⟩
  | beaten old new _ hid _ hdevice _ hreplaces =>
    have hnew : new.device.id = old.device.id := by simp [hdevice, hid]
    refine ⟨?_, fun record hrecord => Or.inr ?_⟩
    · rw [hreplaces.map_eq _ hnew]
      exact hids
    · rcases hreplaces.of_mem hrecord with rfl | hold
      · exact ⟨old, hreplaces.mem_old, hnew.symm⟩
      · exact ⟨record, hold, rfl⟩
  | removed =>
    refine ⟨(List.filter_sublist.map _).nodup hids, fun record hrecord => Or.inr ?_⟩
    exact ⟨record, (List.mem_filter.1 hrecord).1, rfl⟩

theorem Coherent.of_step (h : w.Coherent) (hstep : w.step digest e = some w') : w'.Coherent := by
  obtain ⟨-, -, hw'⟩ := step_eq_some_iff.1 hstep
  have hminted : w'.minted = e.mint.toList ++ w.minted := by rw [hw']
  obtain ⟨o, -, ⟨-, heq⟩ | hedge⟩ := edge_of_step hstep
  · refine ⟨heq ▸ h.ids_nodup, fun record hrecord => ?_⟩
    rw [hminted]
    exact List.mem_append_right _ (h.minted record (heq ▸ hrecord))
  · obtain ⟨hids, hold⟩ := ids_of_devicesEdge hedge h.ids_nodup
    refine ⟨hids, fun record hrecord => ?_⟩
    rw [hminted]
    rcases hold record hrecord with hmint | ⟨old, hmem, hid⟩
    · exact List.mem_append_left _ (by simp [hmint])
    · exact List.mem_append_right _ (hid ▸ h.minted old hmem)

/-- The device ids are distinct in every state that a run reaches. -/
theorem coherent_of_leads {manifestPath : String} {es : List RegistryEvent}
    (h : Leads (step digest) (empty manifestPath) es w) : w.Coherent :=
  h.invariant (coherent_empty manifestPath) fun _ _ _ => Coherent.of_step

end RegistryWorld

namespace DeviceRegistry

variable {digest : String → String} {registry : DeviceRegistry} {raw inventory : AgentInventory}
  {old : DeviceRecord} {deviceToken ipAddress : String} {now : Instant}

/-- What an accepted registration returns and stores. -/
theorem register_ok {secret : Uuid × Uuid} {id : Uuid} {write : WriteOutcome}
    {registered : RegisteredDevice} {registration : AgentRegistration}
    (hvalid : validateInventory raw = .ok inventory)
    (hok : (registry.register digest raw ipAddress now secret id write).1 =
      .ok (registered, registration)) :
    ∃ new, new = registeredRecord digest inventory ipAddress now
          (generateSecret "easydeploymesh_device" secret.1 secret.2) id (registry.devices.find?
            fun record => record.device.macAddress == inventory.macAddress) ∧
      registration.deviceId = new.device.id ∧
      (registry.register digest raw ipAddress now secret id write).2.devices =
        (registry.devices.filter fun existing => existing.device.id != new.device.id) ++ [new] := by
  refine ⟨_, rfl, ?_⟩
  simp only [register, hvalid] at hok ⊢
  generalize registeredRecord digest inventory ipAddress now
    (generateSecret "easydeploymesh_device" secret.1 secret.2) id _ = new at hok ⊢
  rcases registry.commit_cases
      ((registry.devices.filter fun existing => existing.device.id != new.device.id) ++ [new])
      (registeredDevice new now deviceOnlineWindow,
        ({ deviceId := new.device.id,
           deviceToken := generateSecret "easydeploymesh_device" secret.1 secret.2,
           heartbeatIntervalSeconds := defaultHeartbeatIntervalSeconds } : AgentRegistration))
      write with
    ⟨-, file, hcommit⟩ | ⟨error, file, hcommit⟩
  · rw [hcommit] at hok ⊢
    obtain ⟨-, rfl⟩ := Prod.mk.inj (Except.ok.inj hok)
    exact ⟨rfl, rfl⟩
  · rw [hcommit] at hok
    simp at hok

/-- A heartbeat with a valid inventory and the token of a known device replaces its record. -/
theorem heartbeat_written (ipAddress : String) (now : Instant)
    (hids : (registry.devices.map fun record => record.device.id).Nodup)
    (hold : old ∈ registry.devices) (hvalid : validateInventory raw = .ok inventory)
    (hmatches : secretMatches digest old.tokenDigest deviceToken = true) :
    (registry.heartbeat digest old.device.id deviceToken raw ipAddress now .written).1 =
        .ok { acceptedAt := now, nextHeartbeatSeconds := defaultHeartbeatIntervalSeconds } ∧
      Replaces registry.devices old (beat inventory ipAddress now old)
        (registry.heartbeat digest old.device.id deviceToken raw ipAddress now
          .written).2.devices := by
  obtain ⟨put, hfocus⟩ := exists_focus_eq (fun record : DeviceRecord => record.device.id) hids hold
  have hfocus' : focus (fun record : DeviceRecord => record.device.id == old.device.id)
      registry.devices = some (old, put) := hfocus
  have hreplaces := Replaces.of_focus hfocus' (beat inventory ipAddress now old)
  simp only [heartbeat, hvalid, hfocus', hmatches, Bool.not_true, Bool.false_eq_true, if_false]
  exact ⟨rfl, hreplaces⟩

end DeviceRegistry

/-! ### A laboratory -/

/-- The inventory of a machine. -/
def labInventory (macAddress : String) : AgentInventory where
  hostname := some "lab-pc-01"
  macAddress := macAddress
  model := none
  serial := none
  cpuModel := none
  physicalCoreCount := some 4
  logicalProcessorCount := 8
  memoryBytes := 8589934592
  systemDetails := {}
  architecture := .x86_64
  bootMode := .uefi
  disks := []
  agentVersion := "0.1.0"

/-- The tokens of the devices that register with the secrets 11 and 12, 21 and 22, and 31 and 32,
with their SHA-256 digests. -/
def deviceSecrets : List (String × String) :=
  [("easydeploymesh_device_0000000000000000000000000000000b0000000000000000000000000000000c",
    "6f4ad35e5204d8f98c40c69e5502e27c696994d519f721e8f932f4da7b122c9d"),
   ("easydeploymesh_device_0000000000000000000000000000001500000000000000000000000000000016",
    "1b27fc687d2761f28045fcead9d855237ec66d872e0da96e87b167199e50d996"),
   ("easydeploymesh_device_0000000000000000000000000000001f00000000000000000000000000000020",
    "42589c08aabe142de0e416e68cee571b820aab9829ac0802017709d7a8fb3e7a")]

/-- SHA-256, on the tokens of the laboratory. -/
def deviceDigest (token : String) : String :=
  ((deviceSecrets.find? fun secret => secret.1 == token).map Prod.snd).getD ""

end EasyDeployMesh
