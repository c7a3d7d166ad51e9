import EasyDeployMesh.Service.DeviceRegistry.World

/-!
# The rotation of device tokens

The registry keeps the digest of one token for each device. A registration replaces it, a heartbeat
keeps it even when it changes the MAC address, and a removal drops it; so the valid token of a
device is the one that the last registration of its id returned, unless the device was removed
since.

## Main definitions

* `EasyDeployMesh.currentToken`: the valid token of a device, read off the outcomes of the calls.
* `EasyDeployMesh.RegistryWorld.TokensRotate`.

## Main results

* `EasyDeployMesh.RegistryWorld.tokensRotate_of_leads`: in every reachable state exactly the current
  token is accepted, when the digest has no collisions on the tokens that were returned.
-/

namespace EasyDeployMesh

open Foundations

/-- The token that the last registration of the device returned, unless it was removed since; the
outcomes are listed from the last one on. -/
def currentToken (id : Uuid) : List RegistryOutcome → Option String
  | [] => none
  | .registered deviceId deviceToken :: outcomes =>
    if deviceId = id then some deviceToken else currentToken id outcomes
  | .removed deviceId :: outcomes => if deviceId = id then none else currentToken id outcomes
  | .other :: outcomes => currentToken id outcomes

/-- The token that a call returned. -/
def RegistryOutcome.token : RegistryOutcome → Option String
  | .registered _ deviceToken => some deviceToken
  | _ => none

theorem mem_of_currentToken {id : Uuid} {token : String} {outcomes : List RegistryOutcome}
    (h : currentToken id outcomes = some token) : .registered id token ∈ outcomes := by
  induction outcomes with
  | nil => simp [currentToken] at h
  | cons outcome outcomes ih =>
    cases outcome with
    | registered deviceId deviceToken =>
      simp only [currentToken] at h
      split_ifs at h with hid
      · obtain rfl := Option.some.inj h
        simp [hid]
      · exact List.mem_cons_of_mem _ (ih h)
    | removed deviceId =>
      simp only [currentToken] at h
      split_ifs at h
      exact List.mem_cons_of_mem _ (ih h)
    | other => exact List.mem_cons_of_mem _ (ih h)

/-- After a registration of the device, its current token is not among the older outcomes, unless
these list it themselves. -/
theorem currentToken_append {id : Uuid} {token : String} {newer older : List RegistryOutcome}
    (h : currentToken id (newer ++ older) = some token)
    (hnewer : ∃ deviceToken, .registered id deviceToken ∈ newer) :
    .registered id token ∈ newer := by
  induction newer with
  | nil => simp at hnewer
  | cons outcome newer ih =>
    obtain ⟨deviceToken, hmem⟩ := hnewer
    cases outcome with
    | registered deviceId first =>
      simp only [List.cons_append, currentToken] at h
      split_ifs at h with hid
      · obtain rfl := Option.some.inj h
        simp [hid]
      · refine List.mem_cons_of_mem _ (ih h ⟨deviceToken, ?_⟩)
        rcases List.mem_cons.1 hmem with heq | hmem
        · injection heq with heq
          exact absurd heq.symm hid
        · exact hmem
    | removed deviceId =>
      simp only [List.cons_append, currentToken] at h
      split_ifs at h
      exact List.mem_cons_of_mem _ (ih h ⟨deviceToken, by simpa using hmem⟩)
    | other =>
      exact List.mem_cons_of_mem _ (ih h ⟨deviceToken, by simpa using hmem⟩)

namespace RegistryWorld

variable {digest : String → String} {w w' : RegistryWorld} {e : RegistryEvent}
  {manifestPath : String} {es : List RegistryEvent} {id : Uuid} {deviceToken : String}

/-! ### The digests of the current tokens -/

/-- The registry holds the digests of the current tokens, for the devices that have one. -/
structure HoldsTokens (digest : String → String) (w : RegistryWorld) : Prop where
  tokenDigest : ∀ record ∈ w.registry.devices, ∃ token,
    currentToken record.device.id w.outcomes = some token ∧ record.tokenDigest = digest token
  record : ∀ id token, currentToken id w.outcomes = some token →
    ∃ record ∈ w.registry.devices, record.device.id = id

/-- A registration installs the digest of the new token. -/
private theorem HoldsTokens.registered (h : w.HoldsTokens digest) {new : DeviceRecord}
    {token : String}
    (houtcomes : w'.outcomes = .registered new.device.id token :: w.outcomes)
    (hdevices : w'.registry.devices =
      (w.registry.devices.filter fun record => record.device.id != new.device.id) ++ [new])
    (htoken : new.tokenDigest = digest token) : w'.HoldsTokens digest where
  tokenDigest record hrecord := by
    rw [hdevices] at hrecord
    rcases List.mem_append.1 hrecord with hold | hlast
    · obtain ⟨hold, hne⟩ := List.mem_filter.1 hold
      obtain ⟨token', hcurrent, hdigest⟩ := h.tokenDigest record hold
      have hne' : new.device.id ≠ record.device.id := fun heq => by simp [heq] at hne
      exact ⟨token', by rw [houtcomes, currentToken, if_neg hne', hcurrent], hdigest⟩
    · rw [List.mem_singleton.1 hlast]
      exact ⟨token, by rw [houtcomes, currentToken, if_pos rfl], htoken⟩
  record id token' hcurrent := by
    rw [hdevices]
    by_cases hid : new.device.id = id
    · exact ⟨new, by simp, hid⟩
    · rw [houtcomes, currentToken, if_neg hid] at hcurrent
      obtain ⟨record, hrecord, rfl⟩ := h.record id token' hcurrent
      exact ⟨record, List.mem_append_left _
        (List.mem_filter.2 ⟨hrecord, by simpa using fun heq => hid heq.symm⟩), rfl⟩

/-- A call keeps the digests when it keeps the ids, the digests and the current tokens. -/
private theorem HoldsTokens.congr (h : w.HoldsTokens digest)
    (hcurrent : ∀ id, currentToken id w'.outcomes = currentToken id w.outcomes)
    (hkeys : (w'.registry.devices.map fun record => (record.device.id, record.tokenDigest)) =
      w.registry.devices.map fun record => (record.device.id, record.tokenDigest)) :
    w'.HoldsTokens digest where
  tokenDigest record hrecord := by
    have hmem := List.mem_map_of_mem
      (f := fun record : DeviceRecord => (record.device.id, record.tokenDigest)) hrecord
    rw [hkeys] at hmem
    obtain ⟨old, hold, hkey⟩ := List.mem_map.1 hmem
    obtain ⟨hid, hdigest⟩ := Prod.mk.inj hkey
    rw [hcurrent, ← hid, ← hdigest]
    exact h.tokenDigest old hold
  record id token htoken := by
    rw [hcurrent] at htoken
    obtain ⟨old, hold, rfl⟩ := h.record id token htoken
    have hmem := List.mem_map_of_mem
      (f := fun record : DeviceRecord => (record.device.id, record.tokenDigest)) hold
    rw [← hkeys] at hmem
    obtain ⟨record, hrecord, hkey⟩ := List.mem_map.1 hmem
    exact ⟨record, hrecord, (Prod.mk.inj hkey).1⟩

/-- A removal drops the token of the device and its record. -/
private theorem HoldsTokens.removed (h : w.HoldsTokens digest) {deviceId : Uuid}
    (houtcomes : w'.outcomes = .removed deviceId :: w.outcomes)
    (hdevices : w'.registry.devices =
      w.registry.devices.filter fun record => record.device.id != deviceId) :
    w'.HoldsTokens digest where
  tokenDigest record hrecord := by
    rw [hdevices] at hrecord
    obtain ⟨hold, hne⟩ := List.mem_filter.1 hrecord
    have hne' : deviceId ≠ record.device.id := fun heq => by simp [heq] at hne
    rw [houtcomes, currentToken, if_neg hne']
    exact h.tokenDigest record hold
  record id token htoken := by
    rw [houtcomes, currentToken] at htoken
    split_ifs at htoken with hid
    obtain ⟨record, hrecord, rfl⟩ := h.record id token htoken
    rw [hdevices]
    exact ⟨record, List.mem_filter.2 ⟨hrecord, by simpa using fun heq => hid heq.symm⟩, rfl⟩

theorem HoldsTokens.of_step (h : w.HoldsTokens digest) (hstep : w.step digest e = some w') :
    w'.HoldsTokens digest := by
  obtain ⟨o, houtcomes, ⟨rfl, heq⟩ | hedge⟩ := edge_of_step hstep
  · exact h.congr (fun id => by rw [houtcomes, currentToken]) (by rw [heq])
  · generalize hdevices : w'.registry.devices = devices' at hedge
    cases hedge with
    | @added _ inventory ipAddress now _ deviceId new _ _ hdevice htoken =>
      have hid : new.device.id = deviceId := by simp [hdevice]
      exact h.registered (hid ▸ houtcomes) (hid ▸ hdevices) htoken
    | renewed old new _ _ hdevice htoken =>
      have hid : new.device.id = old.device.id := by simp [hdevice]
      exact h.registered (hid ▸ houtcomes) (hid ▸ hdevices) htoken
    | beaten old new _ hid _ hdevice htoken hreplaces =>
      refine h.congr (fun id => by rw [houtcomes, currentToken]) ?_
      rw [hdevices]
      exact hreplaces.map_eq _ (by simp [hdevice, hid, htoken])
    | removed => exact h.removed houtcomes hdevices

theorem holdsTokens_empty (digest : String → String) (manifestPath : String) :
    (empty manifestPath).HoldsTokens digest where
  tokenDigest := by simp [empty, DeviceRegistry.empty]
  record := by simp [empty, currentToken]

/-! ### The issued tokens are distinct -/

/-- The tokens that registrations returned are distinct, and all of them were generated. -/
structure FreshTokens (w : RegistryWorld) : Prop where
  nodup : (w.outcomes.filterMap RegistryOutcome.token).Nodup
  generated : ∀ outcome ∈ w.outcomes, ∀ token, outcome.token = some token → token ∈ w.tokens

private theorem token_of_devicesEdge {devices devices' : List DeviceRecord} {o : RegistryOutcome}
    {token : String} (h : DevicesEdge digest devices e o devices') (ho : o.token = some token) :
    e.token = some token := by
  cases h with
  | added | renewed => exact ho
  | beaten | removed => simp [RegistryOutcome.token] at ho

theorem FreshTokens.of_step (h : w.FreshTokens) (hstep : w.step digest e = some w') :
    w'.FreshTokens := by
  obtain ⟨o, houtcomes, hedge⟩ := edge_of_step hstep
  obtain ⟨-, hfresh, hw'⟩ := step_eq_some_iff.1 hstep
  have htokens : w'.tokens = e.token.toList ++ w.tokens := by rw [hw']
  have htoken : ∀ token, o.token = some token → e.token = some token := by
    intro token ho
    rcases hedge with ⟨rfl, -⟩ | hedge
    · simp [RegistryOutcome.token] at ho
    · exact token_of_devicesEdge hedge ho
  refine ⟨?_, fun outcome houtcome token ho => ?_⟩
  · rw [houtcomes, List.filterMap_cons]
    split
    · exact h.nodup
    · rename_i token ho
      refine List.nodup_cons.2 ⟨fun hmem => ?_, h.nodup⟩
      obtain ⟨outcome, houtcome, ho'⟩ := List.mem_filterMap.1 hmem
      exact hfresh token (htoken token ho) (h.generated outcome houtcome token ho')
  · rw [htokens]
    rw [houtcomes] at houtcome
    rcases List.mem_cons.1 houtcome with rfl | hold
    · simp [htoken token ho]
    · exact List.mem_append_right _ (h.generated outcome hold token ho)

theorem freshTokens_empty (manifestPath : String) : (empty manifestPath).FreshTokens where
  nodup := by simp [empty]
  generated := by simp [empty]

end RegistryWorld

/-! ### Authentication -/

namespace DeviceRegistry

variable {digest : String → String} {registry registry' : DeviceRegistry} {id : Uuid}
  {deviceToken : String}

/-- Authentication reads the ids and the digests of the records. -/
theorem authenticate_congr
    (h : (registry'.devices.map fun record => (record.device.id, record.tokenDigest)) =
      registry.devices.map fun record => (record.device.id, record.tokenDigest)) :
    registry'.authenticate digest id deviceToken = registry.authenticate digest id deviceToken := by
  have hread (registry : DeviceRegistry) : registry.authenticate digest id deviceToken =
      match (registry.devices.map fun record => (record.device.id, record.tokenDigest)).find?
          (fun key => key.1 == id) with
      | none => .error (.notFound id)
      | some key =>
        if !secretMatches digest key.2 deviceToken then .error .unauthorized else .ok () := by
    simp only [authenticate, List.find?_map, Function.comp_def]
    cases registry.devices.find? fun record => record.device.id == id <;> rfl
  rw [hread, hread, h]

/-- The token is accepted exactly when a record of the device has its digest. -/
theorem authenticate_eq_ok_iff
    (hids : (registry.devices.map fun record => record.device.id).Nodup) :
    registry.authenticate digest id deviceToken = .ok () ↔
      ∃ record ∈ registry.devices, record.device.id = id ∧
        record.tokenDigest = digest deviceToken := by
  simp only [authenticate]
  constructor
  · intro h
    split at h
    · simp at h
    · rename_i record hfind
      have hmatches : record.tokenDigest = digest deviceToken := by simpa [secretMatches] using h
      exact ⟨record, List.mem_of_find?_eq_some hfind,
        by simpa using List.find?_some hfind, hmatches⟩
  · rintro ⟨record, hrecord, rfl, hdigest⟩
    have hfind : registry.devices.find? (fun found => found.device.id == record.device.id) =
        some record :=
      find?_key_eq_some (fun record : DeviceRecord => record.device.id) hids hrecord
    rw [hfind]
    simp [secretMatches, hdigest]

/-- A heartbeat is accepted exactly when its token is, whatever else it reports. -/
theorem heartbeat_ok_iff {raw inventory : AgentInventory} (ipAddress : String) (now : Instant)
    (hids : (registry.devices.map fun record => record.device.id).Nodup)
    (hvalid : validateInventory raw = .ok inventory) :
    (∃ ack, (registry.heartbeat digest id deviceToken raw ipAddress now .written).1 = .ok ack) ↔
      registry.authenticate digest id deviceToken = .ok () := by
  rw [authenticate_eq_ok_iff hids]
  constructor
  · rintro ⟨ack, hok⟩
    simp only [heartbeat, hvalid] at hok
    split at hok
    · simp at hok
    · rename_i record put hfocus
      obtain ⟨_, _, hdevices, -, hid, -⟩ := focus_eq_some_iff.1 hfocus
      split_ifs at hok with hmatches
      exact ⟨record, by simp [hdevices], by simpa using hid,
        by simpa [secretMatches] using hmatches⟩
  · rintro ⟨record, hrecord, rfl, hdigest⟩
    exact ⟨_, (heartbeat_written ipAddress now hids hrecord hvalid
      (by simp [secretMatches, hdigest])).1⟩

/-- A heartbeat keeps the answer of every authentication. -/
theorem authenticate_heartbeat (deviceId : Uuid) (reported : String) (raw : AgentInventory)
    (ipAddress : String) (now : Instant) (write : WriteOutcome) :
    (registry.heartbeat digest deviceId reported raw ipAddress now write).2.authenticate digest id
        deviceToken =
      registry.authenticate digest id deviceToken := by
  apply authenticate_congr
  rcases @RegistryEvent.apply_cases digest registry
    (.heartbeat deviceId reported raw ipAddress now write) with ⟨-, heq⟩ | hedge
  · rw [RegistryEvent.apply] at heq
    rw [heq]
  · rw [RegistryEvent.apply] at hedge
    generalize (registry.heartbeat digest deviceId reported raw ipAddress now write).2.devices =
      devices' at hedge ⊢
    cases hedge with
    | beaten old new _ hid _ hdevice htoken hreplaces =>
      exact hreplaces.map_eq _ (by simp [hdevice, hid, htoken])

end DeviceRegistry

namespace RegistryWorld

variable {digest : String → String} {w : RegistryWorld} {manifestPath : String}
  {es : List RegistryEvent} {deviceToken : String}

/-- The digest of the candidate collides with the digest of no token that was returned. -/
def CollisionFree (digest : String → String) (w : RegistryWorld) (deviceToken : String) : Prop :=
  ∀ id token, .registered id token ∈ w.outcomes → digest deviceToken = digest token →
    deviceToken = token

/-- The registry accepts the candidate for a device exactly while it is the token of the last
registration of the device: a registration invalidates every token returned before, and a heartbeat
changes nothing. -/
structure TokensRotate (digest : String → String) (w : RegistryWorld) (deviceToken : String) :
    Prop where
  authenticate_iff : ∀ id, w.registry.authenticate digest id deviceToken = .ok () ↔
    currentToken id w.outcomes = some deviceToken
  heartbeat_iff : ∀ id raw inventory ipAddress now, validateInventory raw = .ok inventory →
    ((∃ ack, (w.registry.heartbeat digest id deviceToken raw ipAddress now .written).1 = .ok ack) ↔
      currentToken id w.outcomes = some deviceToken)
  rotated : ∀ id token newer older, w.outcomes = newer ++ .registered id token :: older →
    .registered id deviceToken ∈ older → w.registry.authenticate digest id deviceToken ≠ .ok ()
  heartbeat_keeps : ∀ id deviceId reported raw ipAddress now write,
    (w.registry.heartbeat digest deviceId reported raw ipAddress now write).2.authenticate digest id
        deviceToken = .ok () ↔
      w.registry.authenticate digest id deviceToken = .ok ()

/-- A token is accepted exactly when it is the current one. -/
private theorem HoldsTokens.authenticate_iff (h : w.HoldsTokens digest) (hcoherent : w.Coherent)
    (hcollision : w.CollisionFree digest deviceToken) {id : Uuid} :
    w.registry.authenticate digest id deviceToken = .ok () ↔
      currentToken id w.outcomes = some deviceToken := by
  rw [DeviceRegistry.authenticate_eq_ok_iff hcoherent.ids_nodup]
  constructor
  · rintro ⟨record, hrecord, rfl, hdigest⟩
    obtain ⟨token, hcurrent, htoken⟩ := h.tokenDigest record hrecord
    rw [hcollision _ token (mem_of_currentToken hcurrent) (hdigest.symm.trans htoken), hcurrent]
  · intro hcurrent
    obtain ⟨record, hrecord, rfl⟩ := h.record id deviceToken hcurrent
    obtain ⟨token, hcurrent', htoken⟩ := h.tokenDigest record hrecord
    obtain rfl := Option.some.inj (hcurrent.symm.trans hcurrent')
    exact ⟨record, hrecord, rfl, htoken⟩

/-- A token that was returned before the last registration of the device is not current. -/
private theorem FreshTokens.ne_currentToken (h : w.FreshTokens) {id : Uuid} {token : String}
    {newer older : List RegistryOutcome}
    (houtcomes : w.outcomes = newer ++ .registered id token :: older)
    (hold : .registered id deviceToken ∈ older) :
    currentToken id w.outcomes ≠ some deviceToken := by
  intro hcurrent
  have hsplit : w.outcomes = (newer ++ [.registered id token]) ++ older := by simp [houtcomes]
  have hnodup := h.nodup
  rw [hsplit] at hcurrent
  rw [hsplit, List.filterMap_append] at hnodup
  have hnewer := currentToken_append hcurrent ⟨token, by simp⟩
  exact (List.nodup_append.1 hnodup).2.2 deviceToken (List.mem_filterMap.2 ⟨_, hnewer, rfl⟩)
    deviceToken (List.mem_filterMap.2 ⟨_, hold, rfl⟩) rfl

/-- In every state that a run of calls reaches, a candidate without collisions is accepted exactly
while it is the current token. -/
theorem tokensRotate_of_leads (hrun : Leads (step digest) (empty manifestPath) es w)
    (hcollision : w.CollisionFree digest deviceToken) : w.TokensRotate digest deviceToken := by
  have hcoherent := coherent_of_leads hrun
  have hholds : w.HoldsTokens digest :=
    hrun.invariant (holdsTokens_empty digest manifestPath) fun _ _ _ => HoldsTokens.of_step
  have hfresh : w.FreshTokens :=
    hrun.invariant (freshTokens_empty manifestPath) fun _ _ _ => FreshTokens.of_step
  have hiff (id : Uuid) : w.registry.authenticate digest id deviceToken = .ok () ↔
      currentToken id w.outcomes = some deviceToken :=
    hholds.authenticate_iff hcoherent hcollision
  refine ⟨fun id => hiff id, fun id raw inventory ipAddress now hvalid => ?_,
    fun id token newer older houtcomes hold hok => ?_, fun id deviceId reported raw ipAddress now
    write => by rw [DeviceRegistry.authenticate_heartbeat]⟩
  · rw [DeviceRegistry.heartbeat_ok_iff ipAddress now hcoherent.ids_nodup hvalid]
    exact hiff id
  · exact hfresh.ne_currentToken houtcomes hold ((hiff id).1 hok)

/-- A machine registers, beats and registers again; another one registers and is removed. -/
def rotationEvents : List RegistryEvent :=
  [.register (labInventory "02:00:00:00:00:01") "192.0.2.21" (minutes 1) (11, 12) 1 .written,
   .heartbeat 1 (generateSecret "easydeploymesh_device" 11 12) (labInventory "02-00-00-00-00-01")
     "192.0.2.23" (minutes 2) .written,
   .register (labInventory "02:00:00:00:00:01") "192.0.2.21" (minutes 3) (21, 22) 2 .written,
   .register (labInventory "02:00:00:00:00:02") "192.0.2.22" (minutes 4) (31, 32) 3 .written,
   .remove 3 .written]

private theorem rotationEvents_end :
    (runFrom (step deviceDigest) (empty "devices.json") rotationEvents).map (fun w => w.outcomes) =
      some [.removed 3, .registered 3 (generateSecret "easydeploymesh_device" 31 32),
        .registered 1 (generateSecret "easydeploymesh_device" 21 22), .other,
        .registered 1 (generateSecret "easydeploymesh_device" 11 12)] := by
  decide +kernel

/-- The token of the second registration of the first machine is its current one. -/
theorem tokensRotate_rotationEvents :
    ∃ w, Leads (step deviceDigest) (empty "devices.json") rotationEvents w ∧
      w.TokensRotate deviceDigest (generateSecret "easydeploymesh_device" 21 22) ∧
      currentToken 1 w.outcomes = some (generateSecret "easydeploymesh_device" 21 22) ∧
      currentToken 3 w.outcomes = none := by
  obtain ⟨w, hrun, hend⟩ := exists_leads_of_map rotationEvents_end
  have hcollision :
      w.CollisionFree deviceDigest (generateSecret "easydeploymesh_device" 21 22) := by
    intro id token hmem hdigest
    have htoken : some token ∈ w.outcomes.map RegistryOutcome.token :=
      List.mem_map.2 ⟨_, hmem, rfl⟩
    rw [hend] at htoken
    simp only [List.map_cons, List.map_nil, RegistryOutcome.token, List.mem_cons, reduceCtorEq,
      Option.some.injEq, List.not_mem_nil, or_false, false_or] at htoken
    rcases htoken with rfl | rfl | rfl
    · exact absurd hdigest (by decide +kernel)
    · rfl
    · exact absurd hdigest (by decide +kernel)
  refine ⟨w, hrun, tokensRotate_of_leads hrun hcollision, ?_, ?_⟩ <;>
    rw [hend] <;> decide +kernel

end RegistryWorld

end EasyDeployMesh
