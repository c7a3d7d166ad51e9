import EasyDeployMesh.Foundations.Mutex
import EasyDeployMesh.Service.ControlPlane.ClaimJob
import EasyDeployMesh.Service.JobRepository.Invariant

/-!
# Claims beside other calls

Calls of `claim_job` that interleave with each other and with the other calls on the registry and on
the job repository. A call accesses the stores one after the other; for the lease it holds the
registry for reading and calls the repository in between, so that no other call changes the registry
meanwhile. What a call of the endpoint returns is what `claimJob` returns for what the call has
read.

## Main definitions

* `EasyDeployMesh.ClaimState`, `EasyDeployMesh.ClaimState.advance`: how far a call is, and its
  steps.
* `EasyDeployMesh.ClaimWorld`, `EasyDeployMesh.ClaimWorld.step`: the stores and the calls.
* `EasyDeployMesh.ClaimState.FollowsClaimJob`, `EasyDeployMesh.ClaimState.Coherent`: what is known
  of a call.

## Main results

* `EasyDeployMesh.ClaimWorld.followsClaimJob_of_leads`: a call of a run follows `claimJob`.
* `EasyDeployMesh.ClaimWorld.leasesAgainstInventory_of_leads`: every lease is written against the
  current inventory, for an image that the same call has validated.
-/

namespace EasyDeployMesh

open Foundations Gho

/-! ### How far a call is -/

/-- The places in `claim_job` at which another call may come between. -/
inductive ClaimState
  | received (request : ClaimRequest)
  | authenticated (deviceId : Uuid)
  | inspected (deviceId : Uuid) (deviceSnapshot : Device)
  | selected (deviceId : Uuid) (candidates : List DeploymentJob)
  | validated (deviceId : Uuid) (eligibleJobIds : List Uuid)
  /-- The call holds the registry for reading. -/
  | inspecting (deviceId : Uuid) (eligibleJobIds : List Uuid) (currentDevice : Device)
  | leased (deviceId : Uuid) (job : DeploymentJob)
  | finished (result : Except ApiError (Option AgentJobLease))

/-- The next access of a call, with what the environment answers to it. -/
inductive ClaimInput
  | authenticate
  | inspect (now : Instant)
  | select (now : Instant)
  | validate (result : Except String (ValidationKey → ImageReadings))
  | lock
  | lease (now : Instant) (leaseId : Uuid) (write : WriteOutcome)
  | answer (images : ImageLibrary) (preparation : ImageReadings)

namespace ClaimState

/-- The call has taken the lock of the registry. -/
def isInspecting : ClaimState → Bool
  | inspecting .. => true
  | _ => false

/-- The call on the repository that a step makes. -/
def jobEvent : ClaimState → ClaimInput → Option JobEvent
  | inspecting deviceId eligibleJobIds currentDevice, .lease now leaseId write =>
    some (.leaseForDeviceIf deviceId (minutes jobLeaseMinutes)
      (isEligible eligibleJobIds deviceId currentDevice) now leaseId write)
  | _, _ => none

variable (digest : String → String) (sha256 : List UInt8 → String) (registry : DeviceRegistry)
  (repo : JobRepository)

/-- The next step of a call. -/
def advance : ClaimState → ClaimInput → Option ClaimState
  | received request, .authenticate => some <|
    match authenticatedDevice digest registry request.deviceId request.authorization with
    | .error error => finished (.error error)
    | .ok deviceId => authenticated deviceId
  | authenticated deviceId, .inspect now => some <|
    match deviceSnapshot (registry.list now) deviceId with
    | .error error => finished (.error error)
    | .ok device => if device.disks.isEmpty then finished (.ok none) else inspected deviceId device
  | inspected deviceId device, .select now => some <|
    selected deviceId (repo.list.filter fun job => job.isCandidate deviceId device now)
  | selected deviceId candidates, .validate result => some <|
    match result with
    | .error error => finished (.error (.conflict ("image validation task failed: " ++ error)))
    | .ok readings => validated deviceId (eligibleJobIds sha256 readings candidates)
  | validated deviceId eligibleJobIds, .lock => some <|
    match registry.withCurrent deviceId id with
    | .error error => finished (.error (.registry error))
    | .ok currentDevice => inspecting deviceId eligibleJobIds currentDevice
  | inspecting deviceId eligibleJobIds currentDevice, .lease now leaseId write => some <|
    match (repo.leaseForDeviceIf deviceId (minutes jobLeaseMinutes)
      (isEligible eligibleJobIds deviceId currentDevice) now leaseId write).1 with
    | .error error => finished (.error (.jobs error))
    | .ok none => finished (.ok none)
    | .ok (some job) => leased deviceId job
  | leased deviceId job, .answer images preparation => some <|
    finished ((answerLease sha256 deviceId job images preparation).map some)
  | _, _ => none

end ClaimState

/-! ### The stores and the calls -/

/-- The stores, and the calls in the order in which they arrived. -/
structure ClaimWorld where
  registry : DeviceRegistry
  jobs : RepositoryWorld
  calls : List ClaimState

/-- What happens to the host while calls of the endpoint are under way. -/
inductive ClaimEvent
  /-- A registration, a heartbeat or a removal. -/
  | registry (e : RegistryEvent)
  /-- Another call on the job repository. -/
  | jobs (e : JobEvent)
  | call (request : ClaimRequest)
  | advance (i : ℕ) (input : ClaimInput)

namespace ClaimWorld

/-- An empty repository beside a registry. -/
def start (registry : DeviceRegistry) (manifestPath : String) (clock : Instant) : ClaimWorld where
  registry := registry
  jobs := .empty manifestPath clock
  calls := []

variable (digest : String → String) (sha256 : List UInt8 → String)

/-- The registry is changed only while no call holds it for reading. -/
def step (w : ClaimWorld) : ClaimEvent → Option ClaimWorld
  | .registry e =>
    if w.calls.any ClaimState.isInspecting then none
    else some { w with registry := (e.apply digest w.registry).2 }
  | .jobs e => (w.jobs.step e).map fun jobs => { w with jobs }
  | .call request => some { w with calls := w.calls ++ [.received request] }
  | .advance i input => do
    let s ← w.calls[i]?
    let s' ← s.advance digest sha256 w.registry w.jobs.repo input
    let jobs ← (s.jobEvent input).elim (some w.jobs) w.jobs.step
    pure { w with jobs, calls := w.calls.set i s' }

end ClaimWorld

variable {digest : String → String} {sha256 : List UInt8 → String}

/-! ### The calls of the endpoint -/

theorem Operation.deploysWindows_iff {operation : Operation} :
    operation.deploysWindows = true ↔ operation = .deployWim ∨ operation = .deployGho := by
  cases operation <;> simp [deploysWindows]

theorem DeploymentJob.hasTargetOn_iff {job : DeploymentJob} {deviceId : Uuid} {disks : List Disk} :
    job.hasTargetOn deviceId disks = true ↔ ∃ target disk, job.targets = [target] ∧
      target.deviceId = deviceId ∧ disk ∈ disks ∧ target.matchesDisk disk = true := by
  unfold hasTargetOn
  split
  · rename_i target htargets
    simp [htargets]
  · rename_i hother
    simp only [Bool.false_eq_true, false_iff, not_exists, not_and]
    exact fun target disk htargets => absurd htargets (hother target)

theorem DeviceRegistry.withCurrent_eq_ok_iff {registry : DeviceRegistry} {id : Uuid}
    {α : Type} {inspect : Device → α} {value : α} :
    registry.withCurrent id inspect = .ok value ↔ ∃ record,
      registry.devices.find? (fun record => record.device.id == id) = some record ∧
        inspect record.device = value := by
  unfold withCurrent
  split
  · rename_i hnone
    simp [hnone]
  · rename_i record hrecord
    simp [hrecord]

/-- The call for a request is as far as `claimJob` is for some readings. -/
def ClaimState.FollowsClaimJob (digest : String → String) (sha256 : List UInt8 → String)
    (request : ClaimRequest) : ClaimState → Prop
  | received arrived => arrived = request
  | authenticated deviceId => ∃ registry,
      authenticatedDevice digest registry request.deviceId request.authorization = .ok deviceId
  | inspected deviceId device => ∃ r : ClaimReadings,
      authenticatedDevice digest r.authenticated request.deviceId request.authorization =
        .ok deviceId ∧
      deviceSnapshot (r.listed.list r.listedAt) deviceId = .ok device ∧ device.disks ≠ []
  | selected deviceId candidates => ∃ (r : ClaimReadings) (device : Device),
      authenticatedDevice digest r.authenticated request.deviceId request.authorization =
        .ok deviceId ∧
      deviceSnapshot (r.listed.list r.listedAt) deviceId = .ok device ∧ device.disks ≠ [] ∧
      candidates = r.jobs.list.filter fun job => job.isCandidate deviceId device r.now
  | validated deviceId eligible => ∃ r : ClaimReadings,
      claimable digest sha256 request r = .ok (some (deviceId, eligible))
  | inspecting deviceId eligible current => ∃ r : ClaimReadings,
      claimable digest sha256 request r = .ok (some (deviceId, eligible)) ∧
      r.current.withCurrent deviceId id = .ok current
  | leased deviceId job => ∃ r : ClaimReadings, ∀ images preparation,
      (claimJob digest sha256 request { r with images, preparation }).1 =
        (answerLease sha256 deviceId job images preparation).map some
  | finished result => ∃ r : ClaimReadings, (claimJob digest sha256 request r).1 = result

section

variable {request : ClaimRequest} {s s' : ClaimState} {registry : DeviceRegistry}
  {repo : JobRepository} {input : ClaimInput}

namespace ClaimState.FollowsClaimJob

private theorem of_authenticate {arrived : ClaimRequest}
    (h : (received arrived).FollowsClaimJob digest sha256 request)
    (hadvance : (received arrived).advance digest sha256 registry repo .authenticate = some s') :
    s'.FollowsClaimJob digest sha256 request := by
  obtain rfl := Option.some.inj hadvance
  obtain rfl : arrived = request := h
  split
  · rename_i error herror
    refine ⟨{ lostReadings with authenticated := registry }, ?_⟩
    simp [claimJob, claimable, herror, bind, Except.bind]
  · rename_i deviceId hdevice
    exact ⟨registry, hdevice⟩

private theorem of_inspect {deviceId : Uuid} {now : Instant}
    (h : (authenticated deviceId).FollowsClaimJob digest sha256 request)
    (hadvance : (authenticated deviceId).advance digest sha256 registry repo (.inspect now) =
      some s') : s'.FollowsClaimJob digest sha256 request := by
  obtain rfl := Option.some.inj hadvance
  obtain ⟨authenticated, hdevice⟩ := h
  let r : ClaimReadings :=
    { lostReadings with authenticated := authenticated, listed := registry, listedAt := now }
  split
  · rename_i error herror
    refine ⟨r, ?_⟩
    simp [r, claimJob, claimable, hdevice, herror, bind, Except.bind]
  · rename_i device hsnapshot
    split_ifs with hdisks
    · refine ⟨r, ?_⟩
      simp only [r, claimJob, claimable, hdevice, hsnapshot, hdisks, bind, Except.bind]
      rfl
    · exact ⟨r, hdevice, hsnapshot, by simpa using hdisks⟩

private theorem of_validate {deviceId : Uuid} {candidates : List DeploymentJob}
    {result : Except String (ValidationKey → ImageReadings)}
    (h : (selected deviceId candidates).FollowsClaimJob digest sha256 request)
    (hadvance : (selected deviceId candidates).advance digest sha256 registry repo
      (.validate result) = some s') : s'.FollowsClaimJob digest sha256 request := by
  obtain rfl := Option.some.inj hadvance
  obtain ⟨r, device, hdevice, hsnapshot, hdisks, rfl⟩ := h
  cases result with
  | error error =>
    refine ⟨{ r with validation := .error error }, ?_⟩
    simp [claimJob, claimable, hdevice, hsnapshot, hdisks, bind, Except.bind, Except.mapError]
  | ok readings =>
    exact ⟨{ r with validation := .ok readings }, claimable_eq_ok_some_iff.2
      ⟨device, readings, hdevice, hsnapshot, hdisks, rfl, rfl⟩⟩

private theorem of_lock {deviceId : Uuid} {eligible : List Uuid}
    (h : (validated deviceId eligible).FollowsClaimJob digest sha256 request)
    (hadvance : (validated deviceId eligible).advance digest sha256 registry repo .lock =
      some s') : s'.FollowsClaimJob digest sha256 request := by
  obtain rfl := Option.some.inj hadvance
  obtain ⟨r, hclaimable⟩ := h
  -- What is eligible does not depend on the registry that is read afterwards.
  have hclaimable' : claimable digest sha256 request { r with current := registry } =
    .ok (some (deviceId, eligible)) := hclaimable
  split
  · rename_i error herror
    unfold DeviceRegistry.withCurrent at herror
    split at herror
    · rename_i hrecord
      obtain rfl := Except.error.inj herror
      refine ⟨{ r with current := registry }, ?_⟩
      simp only [claimJob, hclaimable', DeviceRegistry.withCurrent, hrecord]
    · cases herror
  · rename_i current hcurrent
    exact ⟨{ r with current := registry }, hclaimable', hcurrent⟩

/-- The answer of `claimJob` to a call that has come to its lease. -/
private theorem claimJob_fst_of_claimable {r : ClaimReadings} {deviceId : Uuid}
    {eligible : List Uuid} {current : Device}
    (hclaimable : claimable digest sha256 request r = .ok (some (deviceId, eligible)))
    (hcurrent : r.current.withCurrent deviceId id = .ok current) :
    (claimJob digest sha256 request r).1 =
      ((r.repo.leaseForDeviceIf deviceId (minutes jobLeaseMinutes)
        (isEligible eligible deviceId current) r.leasedAt r.leaseId r.write).1.mapError
          ApiError.jobs).bind fun job =>
        job.elim (.ok none) fun job =>
          (answerLease sha256 deviceId job r.images r.preparation).map some := by
  obtain ⟨record, hrecord, rfl⟩ := DeviceRegistry.withCurrent_eq_ok_iff.1 hcurrent
  simp only [claimJob, hclaimable, DeviceRegistry.withCurrent, hrecord, id]
  rcases r.repo.leaseForDeviceIf deviceId (minutes jobLeaseMinutes)
    (isEligible eligible deviceId record.device) r.leasedAt r.leaseId r.write with
    ⟨_ | _ | _, _⟩ <;> rfl

private theorem of_lease {deviceId leaseId : Uuid} {eligible : List Uuid} {current : Device}
    {now : Instant} {write : WriteOutcome}
    (h : (inspecting deviceId eligible current).FollowsClaimJob digest sha256 request)
    (hadvance : (inspecting deviceId eligible current).advance digest sha256 registry repo
      (.lease now leaseId write) = some s') : s'.FollowsClaimJob digest sha256 request := by
  obtain rfl := Option.some.inj hadvance
  obtain ⟨r, hclaimable, hcurrent⟩ := h
  have hlease (images : ImageLibrary) (preparation : ImageReadings) :
      (claimJob digest sha256 request
        { r with repo := repo, leasedAt := now, leaseId, write, images, preparation }).1 =
        ((repo.leaseForDeviceIf deviceId (minutes jobLeaseMinutes)
          (isEligible eligible deviceId current) now leaseId write).1.mapError ApiError.jobs).bind
          fun job => job.elim (.ok none) fun job =>
            (answerLease sha256 deviceId job images preparation).map some :=
    claimJob_fst_of_claimable hclaimable hcurrent
  split
  · rename_i error herror
    refine ⟨{ r with repo := repo, leasedAt := now, leaseId, write }, ?_⟩
    exact (hlease r.images r.preparation).trans (by rw [herror]; rfl)
  · rename_i hnone
    refine ⟨{ r with repo := repo, leasedAt := now, leaseId, write }, ?_⟩
    exact (hlease r.images r.preparation).trans (by rw [hnone]; rfl)
  · rename_i job hjob
    refine ⟨{ r with repo := repo, leasedAt := now, leaseId, write },
      fun images preparation => ?_⟩
    exact (hlease images preparation).trans (by rw [hjob]; rfl)

/-- A step of a call follows `claimJob`. -/
theorem of_advance (h : s.FollowsClaimJob digest sha256 request)
    (hadvance : s.advance digest sha256 registry repo input = some s') :
    s'.FollowsClaimJob digest sha256 request := by
  cases s with
  | received arrived =>
    cases input with
    | authenticate => exact of_authenticate h hadvance
    | _ => cases hadvance
  | authenticated deviceId =>
    cases input with
    | inspect now => exact of_inspect h hadvance
    | _ => cases hadvance
  | inspected deviceId device =>
    cases input with
    | select now =>
      obtain rfl := Option.some.inj hadvance
      obtain ⟨r, hdevice, hsnapshot, hdisks⟩ := h
      exact ⟨{ r with jobs := repo, now }, device, hdevice, hsnapshot, hdisks, rfl⟩
    | _ => cases hadvance
  | selected deviceId candidates =>
    cases input with
    | validate result => exact of_validate h hadvance
    | _ => cases hadvance
  | validated deviceId eligible =>
    cases input with
    | lock => exact of_lock h hadvance
    | _ => cases hadvance
  | inspecting deviceId eligible current =>
    cases input with
    | lease now leaseId write => exact of_lease h hadvance
    | _ => cases hadvance
  | leased deviceId job =>
    cases input with
    | answer images preparation =>
      obtain rfl := Option.some.inj hadvance
      obtain ⟨r, hclaim⟩ := h
      exact ⟨{ r with images, preparation }, hclaim images preparation⟩
    | _ => cases hadvance
  | finished result => cases hadvance

end ClaimState.FollowsClaimJob

end

/-! ### What is known of a call -/

/-- The call `i` has validated the image of every eligible job. -/
def Validated (sha256 : List UInt8 → String) (es : List ClaimEvent) (jobs : RepositoryWorld) (i : ℕ)
    (eligible : List Uuid) : Prop :=
  ∃ readings, .advance i (.validate (.ok readings)) ∈ es ∧ ∀ id ∈ eligible, jobs.OfJob id fun job =>
    (readings job.validationKey).validates sha256 job.validationKey = true

/-- The candidates are jobs of the repository, the eligible ones were validated by this call, and
the current device is the one of the registry. -/
def ClaimState.Coherent (sha256 : List UInt8 → String) (es : List ClaimEvent) (w : ClaimWorld)
    (i : ℕ) :
    ClaimState → Prop
  | selected _ candidates => ∀ job ∈ candidates, w.jobs.OfJob job.id (SameTask job)
  | validated _ eligible => Validated sha256 es w.jobs i eligible
  | inspecting deviceId eligible current => Validated sha256 es w.jobs i eligible ∧
      w.registry.withCurrent deviceId id = .ok current
  | _ => True

/-- The invariant of a run. -/
structure ClaimWorld.Coherent (sha256 : List UInt8 → String) (es : List ClaimEvent)
    (w : ClaimWorld) : Prop where
  jobs : w.jobs.Coherent
  calls : ∀ (i : ℕ) (s : ClaimState), w.calls[i]? = some s → s.Coherent sha256 es w i

theorem SameTask.validationKey {old new : DeploymentJob} (h : SameTask old new) :
    new.validationKey = old.validationKey := by
  simp only [DeploymentJob.validationKey, h.imageId, h.options, h.operation]

section

variable {es es' : List ClaimEvent} {w w' : ClaimWorld} {i : ℕ} {s s' : ClaimState}
  {input : ClaimInput} {eligible : List Uuid} {jobs jobs' : RepositoryWorld}

theorem Validated.mono (h : Validated sha256 es jobs i eligible) (hes : es ⊆ es')
    (hjobs : ∀ id P, (∀ old new, SameTask old new → P old → P new) → jobs.OfJob id P →
      jobs'.OfJob id P) : Validated sha256 es' jobs' i eligible := by
  obtain ⟨readings, hmem, hvalid⟩ := h
  refine ⟨readings, hes hmem, fun id hid =>
    hjobs id _ (fun old new hsame hold => ?_) (hvalid id hid)⟩
  rw [hsame.validationKey]
  exact hold

/-- What is known of a call stays known while no call changes the registry that it holds. -/
theorem ClaimState.Coherent.mono (h : s.Coherent sha256 es w i) (hes : es ⊆ es')
    (hjobs : ∀ id P, (∀ old new, SameTask old new → P old → P new) → w.jobs.OfJob id P →
      w'.jobs.OfJob id P)
    (hregistry : s.isInspecting = true → w'.registry = w.registry) :
    s.Coherent sha256 es' w' i := by
  cases s with
  | selected deviceId candidates =>
    exact fun job hjob => hjobs _ _ (fun old new hsame h => h.trans hsame) (h job hjob)
  | validated deviceId eligible => exact Validated.mono h hes hjobs
  | inspecting deviceId eligible current =>
    exact ⟨Validated.mono h.1 hes hjobs, by rw [hregistry rfl]; exact h.2⟩
  | _ => trivial

/-- A step of a call from what is known of it. -/
theorem ClaimState.Coherent.of_advance (h : s.Coherent sha256 es w i) (hw : w.jobs.Coherent)
    (hadvance : s.advance digest sha256 w.registry w.jobs.repo input = some s') :
    s'.Coherent sha256 (es ++ [.advance i input]) w i := by
  cases s with
  | received request =>
    cases input with
    | authenticate =>
      obtain rfl := Option.some.inj hadvance
      split <;> trivial
    | _ => cases hadvance
  | authenticated deviceId =>
    cases input with
    | inspect now =>
      obtain rfl := Option.some.inj hadvance
      split
      · trivial
      · split_ifs <;> trivial
    | _ => cases hadvance
  | inspected deviceId device =>
    cases input with
    | select now =>
      obtain rfl := Option.some.inj hadvance
      intro job hjob
      have hmem := (List.mem_filter.1 hjob).1
      rw [JobRepository.list, List.mem_insertionSort] at hmem
      exact hw.ofJob hmem
    | _ => cases hadvance
  | selected deviceId candidates =>
    cases input with
    | validate result =>
      obtain rfl := Option.some.inj hadvance
      cases result with
      | error error => trivial
      | ok readings =>
        refine ⟨readings, by simp, fun id hid => ?_⟩
        obtain ⟨job, hjob, rfl⟩ := List.mem_map.1 hid
        obtain ⟨hcandidate, hvalid⟩ := List.mem_filter.1 hjob
        refine (h job hcandidate).mono fun other hsame => ?_
        rw [hsame.validationKey]
        exact hvalid
    | _ => cases hadvance
  | validated deviceId eligible =>
    cases input with
    | lock =>
      obtain rfl := Option.some.inj hadvance
      split
      · trivial
      · rename_i current hcurrent
        exact ⟨Validated.mono h (List.subset_append_left _ _) fun _ _ _ hof => hof, hcurrent⟩
    | _ => cases hadvance
  | inspecting deviceId eligible current =>
    cases input with
    | lease now leaseId write =>
      obtain rfl := Option.some.inj hadvance
      split <;> trivial
    | _ => cases hadvance
  | leased deviceId job =>
    cases input with
    | answer images preparation =>
      obtain rfl := Option.some.inj hadvance
      trivial
    | _ => cases hadvance
  | finished result => cases hadvance

namespace ClaimWorld

theorem step_advance_eq_some_iff : step digest sha256 w (.advance i input) = some w' ↔
    ∃ s s' jobs, w.calls[i]? = some s ∧
      s.advance digest sha256 w.registry w.jobs.repo input = some s' ∧
      (s.jobEvent input).elim (some w.jobs) w.jobs.step = some jobs ∧
      w' = { w with jobs, calls := w.calls.set i s' } := by
  simp only [step, Option.bind_eq_bind, Option.bind_eq_some_iff, Option.pure_def, Option.some.injEq]
  constructor
  · rintro ⟨s, hs, s', hs', jobs, hjobs, rfl⟩
    exact ⟨s, s', jobs, hs, hs', hjobs, rfl⟩
  · rintro ⟨s, s', jobs, hs, hs', hjobs, rfl⟩
    exact ⟨s, hs, s', hs', jobs, hjobs, rfl⟩

theorem coherent_start (registry : DeviceRegistry) (manifestPath : String) (clock : Instant) :
    (start registry manifestPath clock).Coherent sha256 [] where
  jobs := RepositoryWorld.coherent_empty manifestPath clock
  calls i s hs := by simp [start] at hs

/-- Calls on the repository keep what is known of the calls. -/
private theorem Coherent.of_jobs (h : w.Coherent sha256 es) {e : JobEvent} (hes : es ⊆ es')
    (hjobs : w.jobs.step e = some jobs) : ({ w with jobs } : ClaimWorld).Coherent sha256 es' where
  jobs := h.jobs.of_step hjobs
  calls i s hs := (h.calls i s hs).mono hes
    (fun _ _ hP hof => hof.of_step h.jobs hjobs hP) fun _ => rfl

theorem Coherent.of_step {e : ClaimEvent} (h : w.Coherent sha256 es)
    (hstep : step digest sha256 w e = some w') : w'.Coherent sha256 (es ++ [e]) := by
  have hes : es ⊆ es ++ [e] := List.subset_append_left _ _
  cases e with
  | registry e =>
    simp only [step] at hstep
    split_ifs at hstep with hfree
    obtain rfl := Option.some.inj hstep
    refine ⟨h.jobs, fun i s hs =>
      (h.calls i s hs).mono hes (fun _ _ _ hof => hof) fun hinspecting => absurd ?_ hfree⟩
    exact List.any_eq_true.2 ⟨s, List.mem_of_getElem? hs, hinspecting⟩
  | jobs e =>
    obtain ⟨jobs, hjobs, rfl⟩ := Option.map_eq_some_iff.1 hstep
    exact h.of_jobs hes hjobs
  | call request =>
    obtain rfl := Option.some.inj hstep
    refine ⟨h.jobs, fun i s hs => ?_⟩
    rcases getElem?_concat_cases hs with rfl | hs
    · trivial
    · exact (h.calls i s hs).mono hes (fun _ _ _ hof => hof) fun _ => rfl
  | advance i input =>
    obtain ⟨s, s', jobs, hs, hs', hjobs, rfl⟩ := step_advance_eq_some_iff.1 hstep
    have hmoved := (h.calls i s hs).of_advance h.jobs hs'
    have hcalls : ({ w with calls := w.calls.set i s' } : ClaimWorld).Coherent sha256
        (es ++ [.advance i input]) := by
      refine ⟨h.jobs, fun j t ht => ?_⟩
      rcases getElem?_set_cases ht with ⟨rfl, rfl⟩ | ⟨-, ht⟩
      · exact hmoved
      · exact (h.calls j t ht).mono hes (fun _ _ _ hof => hof) fun _ => rfl
    cases hevent : s.jobEvent input with
    | none =>
      rw [hevent] at hjobs
      obtain rfl := Option.some.inj hjobs
      exact hcalls
    | some e =>
      rw [hevent] at hjobs
      exact hcalls.of_jobs (fun _ hmem => hmem) hjobs

/-- The invariant holds in every state that a run reaches. -/
theorem coherent_of_leads {registry : DeviceRegistry} {manifestPath : String} {clock : Instant}
    (hrun : Leads (step digest sha256) (start registry manifestPath clock) es w) :
    w.Coherent sha256 es :=
  hrun.history (coherent_start registry manifestPath clock) fun _ _ _ _ _ h hstep => h.of_step hstep

/-- What a call of a run returns is what `claimJob` returns for its request and for what it has
read. -/
theorem followsClaimJob_of_leads {registry : DeviceRegistry} {manifestPath : String}
    {clock : Instant} (hrun : Leads (step digest sha256) (start registry manifestPath clock) es w)
    (hs : w.calls[i]? = some s) :
    ∃ request, .call request ∈ es ∧ s.FollowsClaimJob digest sha256 request := by
  refine hrun.history (H := fun es w => ∀ (i : ℕ) (s : ClaimState), w.calls[i]? = some s →
    ∃ request, ClaimEvent.call request ∈ es ∧ s.FollowsClaimJob digest sha256 request)
    (fun i s hs => by simp [start] at hs) (fun pre m e n _ ih hstep i s hs => ?_) i s hs
  cases e with
  | registry e =>
    simp only [step] at hstep
    split_ifs at hstep
    obtain rfl := Option.some.inj hstep
    exact (ih i s hs).imp fun request h => ⟨List.mem_append_left _ h.1, h.2⟩
  | jobs e =>
    obtain ⟨jobs, -, rfl⟩ := Option.map_eq_some_iff.1 hstep
    exact (ih i s hs).imp fun request h => ⟨List.mem_append_left _ h.1, h.2⟩
  | call request =>
    obtain rfl := Option.some.inj hstep
    rcases getElem?_concat_cases hs with rfl | hs
    · exact ⟨request, by simp, rfl⟩
    · exact (ih i s hs).imp fun request h => ⟨List.mem_append_left _ h.1, h.2⟩
  | advance j input =>
    obtain ⟨t, t', jobs, ht, ht', -, rfl⟩ := step_advance_eq_some_iff.1 hstep
    rcases getElem?_set_cases hs with ⟨rfl, rfl⟩ | ⟨-, hs⟩
    · obtain ⟨request, hmem, hfollows⟩ := ih i t ht
      exact ⟨request, List.mem_append_left _ hmem, hfollows.of_advance ht'⟩
    · exact (ih i s hs).imp fun request h => ⟨List.mem_append_left _ h.1, h.2⟩

/-! ### The lease -/

/-- The call `i` leases the job to its device while the registry has the device with a disk that
matches the target, and the same call has validated the image of the job. -/
def LeasesAgainstInventory (sha256 : List UInt8 → String) (es : List ClaimEvent) (w : ClaimWorld)
    (i : ℕ) (job : DeploymentJob) : Prop :=
  ∃ deviceId eligible record target disk readings,
    w.calls[i]? = some (.inspecting deviceId eligible record.device) ∧
    w.registry.devices.find? (fun record => record.device.id == deviceId) = some record ∧
    job.targets = [target] ∧ target.deviceId = deviceId ∧
    disk ∈ record.device.disks ∧ target.matchesDisk disk = true ∧
    (job.operation = .deployWim ∨ job.operation = .deployGho) ∧
    .advance i (.validate (.ok readings)) ∈ es ∧
    (readings job.validationKey).validates sha256 job.validationKey = true

/-- A job that a step of a call changes is leased against the current inventory, and the step leaves
the registry as it is. -/
theorem leasesAgainstInventory_of_leads {registry : DeviceRegistry} {manifestPath : String}
    {clock : Instant} {job : DeploymentJob}
    (hrun : Leads (step digest sha256) (start registry manifestPath clock) es w)
    (hstep : step digest sha256 w (.advance i input) = some w') (hjob : job ∈ w'.jobs.repo.jobs)
    (hnew : job ∉ w.jobs.repo.jobs) :
    LeasesAgainstInventory sha256 es w i job ∧ w'.registry = w.registry ∧ job.state = .running ∧
      ∃ leaseId, job.leaseId = some leaseId ∧ leaseId ∉ w.jobs.minted := by
  have hcoherent := coherent_of_leads hrun
  obtain ⟨s, s', jobs, hs, -, hjobs, rfl⟩ := step_advance_eq_some_iff.1 hstep
  cases hevent : s.jobEvent input with
  | none =>
    rw [hevent] at hjobs
    obtain rfl := Option.some.inj hjobs
    exact absurd hjob hnew
  | some e =>
    rw [hevent] at hjobs
    -- only a call that holds the registry makes a call on the repository
    unfold ClaimState.jobEvent at hevent
    split at hevent
    · rename_i deviceId eligible current now leaseId write
      obtain rfl := Option.some.inj hevent
      have hmint : leaseId ∉ w.jobs.minted := RepositoryWorld.notMem_minted_of_mint hjobs rfl
      rcases hcoherent.jobs.jobsEdge_of_step hjobs with heq | hedge
      · exact absurd (heq ▸ hjob) hnew
      · simp only at hjob
        generalize jobs.repo.jobs = after at hedge hjob
        cases hedge with
        | added _ _ _ _ _ _ _ _ hrequest =>
          obtain ⟨request, hrequest, -⟩ := hrequest
          cases hrequest
        | removed he => cases he
        | @edited _ old new hsame hedge hreplaces =>
          rcases hreplaces.of_mem hjob with rfl | hold
          · cases hedge with
            | claim hclaim heligible hstate hlease hexpiry =>
              obtain ⟨⟨readings, hreadings, hvalid⟩, hcurrent⟩ := hcoherent.calls i _ hs
              simp only [isEligible, Bool.and_eq_true, List.contains_iff_mem] at heligible
              obtain ⟨⟨hid, hwindows⟩, htarget⟩ := heligible
              obtain ⟨record, hrecord, rfl⟩ := DeviceRegistry.withCurrent_eq_ok_iff.1 hcurrent
              obtain ⟨target, disk, htargets, hdevice, hdisk, hmatches⟩ :=
                DeploymentJob.hasTargetOn_iff.1 htarget
              have hkey := (hvalid _ hid).job old hreplaces.mem_old rfl
              rw [← hsame.validationKey] at hkey
              refine ⟨⟨deviceId, eligible, record, target, disk, readings, hs, hrecord,
                hsame.targets.trans htargets, hdevice, hdisk, hmatches, ?_, hreadings, hkey⟩, rfl,
                hstate, leaseId, hlease, hmint⟩
              rw [hsame.operation]
              exact Operation.deploysWindows_iff.1 hwindows
          · exact absurd hold hnew
    · cases hevent

/-! ### One claim -/

/-- A job waits, and the claim of its machine comes to the lease. -/
def claimEvents : List ClaimEvent :=
  [.jobs (.enqueue ghoRequest 0 1 .written), .call labClaim, .advance 0 .authenticate,
   .advance 0 (.inspect (minutes 1)), .advance 0 (.select (minutes 1)),
   .advance 0 (.validate (.ok fun _ => labReadings)), .advance 0 .lock]

private theorem claimEvents_end :
    (runFrom (step deviceDigest labSha256) (start claimingRegistry "jobs.json" 0) claimEvents).map
      (fun w => w.jobs.repo.jobs.map DeploymentJob.leaseId) = some [none] := by
  decide +kernel

private theorem leaseEvents_end :
    (runFrom (step deviceDigest labSha256) (start claimingRegistry "jobs.json" 0)
      (claimEvents ++ [.advance 0 (.lease (minutes 1) 2 .written)])).map
      (fun w => w.jobs.repo.jobs.map DeploymentJob.leaseId) = some [some 2] := by
  decide +kernel

/-- The claim leases the job against the inventory of the machine. -/
theorem leasesAgainstInventory_claimEvents : ∃ w w' job,
    Leads (step deviceDigest labSha256) (start claimingRegistry "jobs.json" 0) claimEvents w ∧
      step deviceDigest labSha256 w (.advance 0 (.lease (minutes 1) 2 .written)) = some w' ∧
      job ∈ w'.jobs.repo.jobs ∧ LeasesAgainstInventory labSha256 claimEvents w 0 job := by
  obtain ⟨w', hw', hleased⟩ := exists_leads_of_map leaseEvents_end
  obtain ⟨w, hw, hstep⟩ := leads_concat.1 hw'
  obtain ⟨v, hv, hwaiting⟩ := exists_leads_of_map claimEvents_end
  obtain rfl := hw.unique hv
  have hmem : some 2 ∈ w'.jobs.repo.jobs.map DeploymentJob.leaseId := by
    rw [hleased]
    exact List.mem_singleton_self _
  obtain ⟨job, hjob, hlease⟩ := List.mem_map.1 hmem
  have hnew : job ∉ w.jobs.repo.jobs := by
    intro hold
    have hnone := List.mem_map_of_mem (f := DeploymentJob.leaseId) hold
    rw [hwaiting, hlease] at hnone
    exact absurd hnone (by decide)
  exact ⟨w, w', job, hw, hstep, hjob, (leasesAgainstInventory_of_leads hw hstep hjob hnew).1⟩

end ClaimWorld

end

end EasyDeployMesh
