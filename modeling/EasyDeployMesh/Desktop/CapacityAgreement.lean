import EasyDeployMesh.Agent.LayoutCapacity
import EasyDeployMesh.Desktop.DeploymentMutation
import EasyDeployMesh.Service.ControlPlane.ClaimJob
import EasyDeployMesh.Service.JobRepository.Invariant

/-!
# Capacity on the host and on the Agent

`create_job` of the desktop application checks the size of the target disk against the size of the
image in the catalog, and `prepare_layout` of the Agent checks it against the size of the download.
For a GHO image the download is the smaller one, by one header for each span, and the checks are
monotone in the size of the image. An Agent therefore refuses no job for its capacity that the host
has accepted, as long as the image is the same one and the disk has the recorded size.

## Main definitions

* `EasyDeployMesh.AcceptsWindowsJob`: `create_job` accepts the request of a Windows job.
* `EasyDeployMesh.ClaimsUnchanged`: a claim finds the image that `create_job` has found.

## Main results

* `EasyDeployMesh.capacityAgreement_of_claimJob`: the Agent accepts the capacity of the disk.
-/

namespace EasyDeployMesh

open Foundations Gho

/-! ### The host -/

section Host

variable (sha256 : List UInt8 → String) (describe : ImagePreparationError → ImageLibraryError)

/-- The preflight of `create_job` for a Windows job; `describe` is the error as the library reports
it. -/
def windowsPreflight (readings : ImageReadings) (request : CreateDeploymentJob) :
    Except ImageLibraryError (Option UInt64) :=
  match request.operation with
  | .deployGho => ((ImageLibrary.prepareGhoPartitionDeployment sha256 readings request.imageId
      request.options.imageIndex).mapError describe).map fun prepared =>
        prepared.capability.expandedSizeBytes
  | .deployWim => ((readings.library.revalidateForDeployment sha256 readings.files request.imageId
      request.options.imageIndex).mapError describe).map fun _ => none
  | .captureGho | .installLinux => .error (.unsupportedFormat "GHO capture is not supported")

/-- The checks of `create_job` pass for a Windows job with an image of the catalog. -/
structure AcceptsWindowsJob (catalog : ImageLibrary) (readings : ImageReadings)
    (request : CreateDeploymentJob) (image : ImageArtifact) : Prop where
  found : catalog.get request.imageId = some image
  checked : ∃ hasControlDispatcher, CreateJobState.checkRequest request
    (catalog.get request.imageId) hasControlDispatcher = .ok (.windowsChecked request image)
  prepared : CreateJobState.checkPayload request image
    (windowsPreflight sha256 describe readings request) = .ok (.prepared request)

end Host

/-- The claim and the preflight find the same entry in the catalog, and the files keep their bytes
while the answer is built. -/
structure ClaimsUnchanged (imageId : Uuid) (image : ImageArtifact) (preflight : ImageReadings)
    (r : ClaimReadings) : Prop where
  preflight : preflight.lookup.get imageId = some image
  images : r.images.get imageId = some image
  library : r.preparation.library.get imageId = some image
  lookup : r.preparation.lookup.get imageId = some image
  streamed : r.preparation.streamed.content = r.preparation.files.content

section

variable {digest : String → String} {sha256 : List UInt8 → String}
  {describe : ImagePreparationError → ImageLibraryError} {catalog : ImageLibrary}
  {preflight : ImageReadings} {request : CreateDeploymentJob} {image : ImageArtifact}

/-- What the checks before the preflight require. -/
theorem checkRequest_eq_windowsChecked {hasControlDispatcher : Bool}
    (h : CreateJobState.checkRequest request (some image) hasControlDispatcher =
      .ok (.windowsChecked request image)) :
    request.operation.deploysWindows = true ∧
      ∀ target ∈ request.targets, request.options.partitionPlan.validateCapacity
        target.targetDiskSizeBytes image.sizeBytes = .ok () := by
  simp only [CreateJobState.checkRequest, bind_eq_ok_iff, elim_eq_ok_iff, Option.some.injEq,
    exists_eq_left'] at h
  obtain ⟨u, hcompatible, h⟩ := h
  by_cases hlinux : request.operation = .installLinux
  · -- the checks of a Linux job end in another state
    rw [if_pos hlinux] at h
    split at h
    · simp [check_eq_ok_iff, bind_eq_ok_iff] at h
    · simp at h
  · rw [if_neg hlinux] at h
    simp only [check_eq_ok_iff, bind_unit_eq_ok_iff, forM_eq_ok_iff, mapError_eq_ok_iff,
      and_true] at h
    refine ⟨?_, h.2⟩
    cases hoperation : request.operation with
    | deployWim | deployGho => rfl
    | captureGho =>
      simp only [validateDeploymentCompatibility, hoperation] at hcompatible
      split_ifs at hcompatible
    | installLinux => exact absurd hoperation hlinux

/-- The Windows partitions have room for the expanded partition of a GHO image. -/
theorem AcceptsWindowsJob.payload
    (h : AcceptsWindowsJob sha256 describe catalog preflight request image)
    (hgho : request.operation = .deployGho) :
    ∃ prepared, ImageLibrary.prepareGhoPartitionDeployment sha256 preflight request.imageId
        request.options.imageIndex = .ok prepared ∧
      ∀ payloadSize, prepared.capability.expandedSizeBytes = some payloadSize →
        ∀ target ∈ request.targets, request.options.partitionPlan.validateWindowsPayloadCapacity
          target.targetDiskSizeBytes image.sizeBytes payloadSize = .ok () := by
  have hprepared := h.prepared
  simp only [CreateJobState.checkPayload, CreateJobState.windowsPayloadSize, windowsPreflight, hgho,
    bind_eq_ok_iff, mapError_eq_ok_iff, map_eq_ok_iff] at hprepared
  obtain ⟨payload, ⟨prepared, hprepare, rfl⟩, hpayload⟩ := hprepared
  refine ⟨prepared, hprepare, fun payloadSize hsize => ?_⟩
  simp only [hsize, bind_unit_eq_ok_iff, forM_eq_ok_iff, mapError_eq_ok_iff] at hpayload
  exact hpayload.1

/-! ### The job and its lease -/

/-- The job of an accepted request is the request with an id. -/
theorem JobRepository.enqueue_accepted {repo : JobRepository} {now : Instant} {id : Uuid}
    {write : WriteOutcome} {job : DeploymentJob}
    (h : (repo.enqueue request now id write).1 = .ok job) :
    job ∈ (repo.enqueue request now id write).2.jobs ∧ job.operation = request.operation ∧
      job.imageId = request.imageId ∧ job.targets = request.targets ∧
        job.options = request.options := by
  simp only [enqueue, insert] at h ⊢
  split at h
  · cases h
  · split at h
    · split_ifs at h with hfree
      cases write with
      | written =>
        obtain rfl := Except.ok.inj h
        simp [commit, persist, hfree]
      | refused source | interrupted source => cases h
    · cases h

section

variable {claim : ClaimRequest} {r : ClaimReadings} {deviceId : Uuid} {job : DeploymentJob}
  {lease : AgentJobLease}

/-- The size of the download and, for a GHO image, the size of its expanded partition. -/
theorem sizes_of_answerLease (hunchanged : ClaimsUnchanged job.imageId image preflight r)
    (h : answerLease sha256 deviceId job r.images r.preparation = .ok lease) :
    (job.operation ≠ .deployGho → lease.image.sizeBytes = image.sizeBytes ∧ lease.gho = none) ∧
    (job.operation = .deployGho →
      lease.image.sizeBytes.toNat + 512 * image.spans.length = image.sizeBytes.toNat ∧
      ∃ gho, lease.gho = some gho ∧
        ∀ prepared, ImageLibrary.prepareGhoPartitionDeployment sha256 preflight job.imageId
            job.options.imageIndex = .ok prepared →
          prepared.capability.expandedSizeBytes = some gho.expandedSizeBytes) := by
  obtain ⟨-, -, -, -, found, hfound, -, hdownload⟩ := of_answerLease h
  obtain rfl := Option.some.inj (hunchanged.images.symm.trans hfound)
  unfold downloadOf at hdownload
  split_ifs at hdownload with hgho
  · refine ⟨fun hne => absurd hgho hne, fun _ => ?_⟩
    simp only [bind_eq_ok_iff, mapError_eq_ok_iff, pure_eq_ok_iff, Prod.mk.injEq] at hdownload
    obtain ⟨prepared, hprepared, metadata, hmetadata, hlease, hsize, -⟩ := hdownload
    refine ⟨?_, metadata, hlease.symm, fun before hbefore => ?_⟩
    · rw [← hsize]
      exact ImageLibrary.downloadSize_of_prepareGhoPartitionDeployment hunchanged.library
        hunchanged.streamed hprepared
    · -- both preparations find the size that the catalog records
      simp only [agentGhoDeployment, bind_eq_ok_iff, elim_eq_ok_iff, pure_eq_ok_iff] at hmetadata
      obtain ⟨-, -, size, hsize, -, -, rfl⟩ := hmetadata
      rw [ImageLibrary.expandedSize_of_prepareGhoPartitionDeployment hunchanged.preflight hbefore,
        ← ImageLibrary.expandedSize_of_prepareGhoPartitionDeployment hunchanged.lookup hprepared]
      exact hsize
  · simp only [bind_eq_ok_iff, elim_eq_ok_iff, pure_eq_ok_iff, Prod.mk.injEq] at hdownload
    obtain ⟨checksum, -, hlease, hsize, -⟩ := hdownload
    exact ⟨fun _ => ⟨hsize.symm, hlease.symm⟩, fun h => absurd h hgho⟩

/-- The capacity checks of the Agent pass on a disk of the recorded size. -/
theorem capacity_of_answerLease
    (haccepts : AcceptsWindowsJob sha256 describe catalog preflight request image)
    (hunchanged : ClaimsUnchanged request.imageId image preflight r)
    (hoperation : job.operation = request.operation) (himage : job.imageId = request.imageId)
    (htargets : job.targets = request.targets) (hoptions : job.options = request.options)
    (h : answerLease sha256 deviceId job r.images r.preparation = .ok lease) :
    lease.partitionPlan.validateCapacity lease.target.targetDiskSizeBytes lease.image.sizeBytes =
        .ok () ∧
      (∀ gho, lease.gho = some gho → lease.partitionPlan.validateWindowsPayloadCapacity
        lease.target.targetDiskSizeBytes lease.image.sizeBytes gho.expandedSizeBytes = .ok ()) ∧
      (lease.operation = .deployGho →
        lease.image.sizeBytes.toNat + 512 * image.spans.length = image.sizeBytes.toNat) := by
  obtain ⟨-, hleaseOperation, hplan, htarget, -⟩ := of_answerLease h
  obtain ⟨hwim, hgho⟩ := sizes_of_answerLease (himage ▸ hunchanged) h
  obtain ⟨hasControlDispatcher, hchecked⟩ := haccepts.checked
  rw [haccepts.found] at hchecked
  have hmem : lease.target ∈ request.targets := htargets ▸ List.mem_of_head? htarget
  have hcapacity := (checkRequest_eq_windowsChecked hchecked).2 lease.target hmem
  rw [hplan, hoptions, hleaseOperation]
  by_cases hoperation' : job.operation = .deployGho
  · obtain ⟨hsize, gho, hleaseGho, hexpanded⟩ := hgho hoperation'
    have hle : lease.image.sizeBytes ≤ image.sizeBytes := by
      rw [UInt64.le_iff_toNat_le]
      omega
    refine ⟨PartitionPlan.validateCapacity_mono hcapacity hle, fun other hother => ?_,
      fun _ => hsize⟩
    obtain rfl := Option.some.inj (hleaseGho.symm.trans hother)
    obtain ⟨prepared, hprepared, hpayload⟩ := haccepts.payload (hoperation ▸ hoperation')
    rw [himage, hoptions] at hexpanded
    exact PartitionPlan.validateWindowsPayloadCapacity_mono
      (hpayload _ (hexpanded prepared hprepared) lease.target hmem) hle
  · obtain ⟨hsize, hnone⟩ := hwim hoperation'
    rw [hsize, hnone]
    exact ⟨hcapacity, by simp, fun h => absurd h hoperation'⟩

variable {w u v : RepositoryWorld} {before after : List JobEvent} {manifestPath : String}
  {clock now : Instant} {id : Uuid} {write : WriteOutcome} {created : DeploymentJob} {disk : Disk}

/-- `create_job` accepts a Windows job, and later a claim leases it with the same image. On a disk
of the recorded size the Agent does not refuse the lease for the capacity of the disk or of the
Windows partition, and the size of a GHO download is the size in the catalog without 512 bytes for
each span. -/
theorem capacityAgreement_of_claimJob
    (haccepts : AcceptsWindowsJob sha256 describe catalog preflight request image)
    (hbefore : Leads RepositoryWorld.step (.empty manifestPath clock) before w)
    (hcreated : (w.repo.enqueue request now id write).1 = .ok created)
    (hstep : w.step (.enqueue request now id write) = some u)
    (hafter : Leads RepositoryWorld.step u after v) (hrepo : r.repo = v.repo)
    (hunchanged : ClaimsUnchanged request.imageId image preflight r)
    (hclaim : (claimJob digest sha256 claim r).1 = .ok (some lease))
    (hjob : lease.jobId = created.id)
    (hsize : disk.sizeBytes = lease.target.targetDiskSizeBytes) :
    lease.partitionPlan.validateCapacity disk.sizeBytes lease.image.sizeBytes = .ok () ∧
      (∀ gho, lease.gho = some gho →
        lease.partitionPlan.validateWindowsPayloadCapacity disk.sizeBytes
        lease.image.sizeBytes gho.expandedSizeBytes = .ok ()) ∧
      (∀ error, prepareLayout lease disk ≠ .error (.capacity error)) ∧
      (∀ error, prepareLayout lease disk ≠ .error (.windowsPayloadCapacity error)) ∧
      (lease.operation = .deployGho →
        lease.image.sizeBytes.toNat + 512 * image.spans.length = image.sizeBytes.toNat) := by
  obtain ⟨hmem, hoperation, himage, htargets, hoptions⟩ := JobRepository.enqueue_accepted hcreated
  have hcoherent := (RepositoryWorld.coherent_of_leads hbefore).of_step hstep
  have hrepoStep := (RepositoryWorld.step_eq_some_iff.1 hstep).2.1
  have hcreatedMem : created ∈ u.repo.jobs := Option.some.inj hrepoStep ▸ hmem
  have hof := (hcoherent.ofJob hcreatedMem).of_leads hcoherent hafter
    fun old new hsame h => h.trans hsame
  obtain ⟨deviceId, job, ⟨snapshot, readings, record, -, -, -, -, -, hselected⟩, hanswer⟩ :=
    selects_of_claimJob hclaim
  have hjobId : job.id = created.id := (of_answerLease hanswer).1.symm.trans hjob
  have hold := hof.job job (hrepo ▸ List.mem_of_find?_eq_some hselected) hjobId
  have hsame : SameTask created (job.claimed (minutes jobLeaseMinutes) r.leasedAt r.leaseId) :=
    ⟨hold.id, hold.operation, hold.imageId, hold.targets, hold.options⟩
  obtain ⟨hcapacity, hpayload, hdownload⟩ := capacity_of_answerLease haccepts hunchanged
    (hsame.operation.trans hoperation) (hsame.imageId.trans himage) (hsame.targets.trans htargets)
    (hsame.options.trans hoptions) hanswer
  rw [← hsize] at hcapacity hpayload
  refine ⟨hcapacity, hpayload, fun error herror => ?_, fun error herror => ?_, hdownload⟩
  · have hrefused := validateCapacity_of_prepareLayout herror
    exact absurd (hrefused.symm.trans hcapacity) (by simp)
  · obtain ⟨gho, hgho, hrefused⟩ := validateWindowsPayloadCapacity_of_prepareLayout herror
    exact absurd (hrefused.symm.trans (hpayload gho hgho)) (by simp)

end

end

/-! ### A GHO image -/

deriving instance DecidableEq for CreateJobState

/-- The world behind the creation of the job. -/
def queuedWorld : RepositoryWorld :=
  ((RepositoryWorld.empty "jobs.json" 0).step (.enqueue ghoRequest 0 1 .written)).get (by decide)

/-- The claim of the job, with the image as it was imported. -/
def soundReadings : ClaimReadings :=
  { lostReadings with repo := queuedWorld.repo, preparation := labReadings }

private theorem acceptsWindowsJob_ghoRequest :
    AcceptsWindowsJob labSha256 (fun _ => .files "the image has changed") labLibrary labReadings
      ghoRequest labArtifact where
  found := by decide
  checked := ⟨false, by decide +kernel⟩
  prepared := by decide +kernel

private theorem claimsUnchanged_soundReadings :
    ClaimsUnchanged ghoRequest.imageId labArtifact labReadings soundReadings where
  preflight := by decide
  images := by decide
  library := by decide
  lookup := by decide
  streamed := rfl

private theorem claimJob_soundReadings :
    (claimJob deviceDigest labSha256 labClaim soundReadings).1.toOption.join.map (fun lease =>
      (lease.jobId, lease.target.targetDiskSizeBytes, lease.image.sizeBytes)) =
      some (1, 256000000000, 1077) := by
  decide +kernel

/-- The Agent does not refuse the lease of a GHO image for the capacity of the disk. -/
theorem capacityAgreement_soundReadings : ∃ lease,
    (claimJob deviceDigest labSha256 labClaim soundReadings).1 = .ok (some lease) ∧
      lease.image.sizeBytes = 1077 ∧
      (∀ error, prepareLayout lease physicalDisk ≠ .error (.capacity error)) ∧
      ∀ error, prepareLayout lease physicalDisk ≠ .error (.windowsPayloadCapacity error) := by
  obtain ⟨lease, hlease, hvalues⟩ := Option.map_eq_some_iff.1 claimJob_soundReadings
  simp only [Prod.mk.injEq] at hvalues
  obtain ⟨hid, hdisk, hsize⟩ := hvalues
  have hclaim : (claimJob deviceDigest labSha256 labClaim soundReadings).1 = .ok (some lease) :=
    toOption_eq_some_iff.1 (Option.join_eq_some_iff.1 hlease)
  obtain ⟨created, hcreated⟩ := exists_ok_of_isSome_toOption (show
    ((RepositoryWorld.empty "jobs.json" 0).repo.enqueue ghoRequest 0 1 .written).1.toOption.isSome =
      true by decide)
  have hid' : created.id = 1 := by
    have h : ((RepositoryWorld.empty "jobs.json" 0).repo.enqueue ghoRequest 0 1
      .written).1.toOption.map DeploymentJob.id = some 1 := by decide
    rw [hcreated] at h
    exact Option.some.inj h
  have hstep : (RepositoryWorld.empty "jobs.json" 0).step (.enqueue ghoRequest 0 1 .written) =
      some queuedWorld := (Option.some_get _).symm
  have hdisk' : physicalDisk.sizeBytes = lease.target.targetDiskSizeBytes := hdisk.symm
  obtain ⟨-, -, hcapacity, hpayload, -⟩ :=
    capacityAgreement_of_claimJob acceptsWindowsJob_ghoRequest
    (leads_nil.2 rfl) hcreated hstep (leads_nil.2 rfl) rfl
    claimsUnchanged_soundReadings hclaim (hid.trans hid'.symm) hdisk'
  exact ⟨lease, hclaim, hsize, hcapacity, hpayload⟩

end EasyDeployMesh
