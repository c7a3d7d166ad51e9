import EasyDeployMesh.Service.InstallerDeployment.History

/-!
# A boot offer against a handoff

The last section of a `discover` drops every session of the job that it offers. It has read the job
as queued in an earlier section, and a guard of an older session may lease the job in between. The
guard then finds its session gone, returns an error, and leaves the job running under a lease that
no session records; or it has recorded the lease already, and the session of a running installation
is evicted. Both happen in exactly the runs in which a session is dropped at that time.

## Main definitions

* `EasyDeployMesh.ServiceWorld.LosesHandoff`, `EasyDeployMesh.ServiceWorld.EvictsHandoff`: the steps
  that go wrong.
* `EasyDeployMesh.ServiceWorld.RefusalsGrantNothing`,
  `EasyDeployMesh.ServiceWorld.KeepsLiveHandoffs`: the laws of a run.

## Main results

* `EasyDeployMesh.ServiceWorld.refusalsGrantNothing_of_along`: a refused guard has handed nothing
  off in the runs that lose no handoff.
* `EasyDeployMesh.ServiceWorld.keepsLiveHandoffs_iff`: no live handoff is evicted along a run
  exactly when no offer is completed for a job that runs under the lease of an unexpired session.
-/

namespace EasyDeployMesh

open Foundations

namespace ServiceWorld

variable {digest : String → String} {start w m n : ServiceWorld} {e : ServiceEvent}
  {es : List ServiceEvent} {i : ℕ} {leaseId : Uuid} {manifestPath : String} {clock : Instant}
  {registry : DeviceRegistry}

/-! ### Refused guards -/

/-- A guard leases its job after its session was dropped, or an offer drops the session of a guard
that has leased its job and not recorded the lease yet. -/
inductive LosesHandoff (w : ServiceWorld) (e : ServiceEvent) : Prop
  | leased {i : ℕ} {sessionId jobId leaseId : Uuid} {now : Instant}
      (hleases : w.Leases i sessionId jobId leaseId now e)
      (hgone : w.sessions.lookup sessionId = none)
  | dropped {i j : ℕ} {input : SectionInput} {query : BootQuery} {device : Device}
      {job leasedJob : DeploymentJob} {call : GuardCall} {binding : SessionBinding}
      {autoinstall : String} {leaseId : Uuid} {expiresAt : Instant} {session : InstallerSession}
      (he : e = .advance j input)
      (hdiscover : w.calls[j]? = some (.discover query (.booting device job)))
      (hguard : w.calls[i]? =
        some (.authorizeGuard call (.leased binding autoinstall leasedJob leaseId expiresAt)))
      (hsession : w.sessions.lookup call.sessionId = some session)
      (hdropped : session.expiresAt < input.now ∨ session.jobId = job.id)

/-- Along the run: a guard that has returned an error has not leased its job under a lease that no
session records. -/
def RefusalsGrantNothing (digest : String → String) (start : ServiceWorld)
    (es : List ServiceEvent) : Prop :=
  ∀ pre post m, es = pre ++ post → Leads (step digest) start pre m →
    ∀ (i : ℕ) call error, m.calls[i]? = some (.authorizeGuard call (.returned (.error error))) →
    ∀ sessionId jobId leaseId now,
      Sometime (step digest) (Leases i sessionId jobId leaseId now) start pre →
      ∃ other session, m.sessions.lookup other = some session ∧ session.leaseId = some leaseId

/-- The guard holds the lease and its session is there, or it has returned the authorization. -/
private def Granted (w : ServiceWorld) (i : ℕ) : Prop :=
  (∃ call binding autoinstall job leaseId expiresAt,
    w.calls[i]? = some (.authorizeGuard call (.leased binding autoinstall job leaseId expiresAt)) ∧
      (w.sessions.lookup call.sessionId).isSome = true) ∨
    ∃ call authorization, w.calls[i]? = some (.authorizeGuard call (.returned (.ok authorization)))

/-- A guard that has returned an authorization does nothing more. -/
private theorem granted_of_returned (hstep : m.step digest e = some n) {call : GuardCall}
    {authorization : GuardAuthorization}
    (hcall : m.calls[i]? = some (.authorizeGuard call (.returned (.ok authorization)))) :
    n.Granted i := by
  rcases call_before_cases hstep hcall with ⟨hkept, -⟩ | ⟨input, r, hadvances, -⟩
  · exact Or.inr ⟨call, authorization, hkept⟩
  · cases hadvances.edge with
    | unbound hstop | rejected hstop => simp [InstallerCall.mayStop] at hstop

/-- A guard that holds a lease keeps it until it records it in its session. -/
private theorem granted_of_leased (hm : m.Coherent) (hstep : m.step digest e = some n)
    (hnot : ¬ m.LosesHandoff e) {call : GuardCall} {binding : SessionBinding} {autoinstall : String}
    {job : DeploymentJob} {expiresAt : Instant} (hcall : m.calls[i]? =
      some (.authorizeGuard call (.leased binding autoinstall job leaseId expiresAt)))
    (hsome : (m.sessions.lookup call.sessionId).isSome = true) : n.Granted i := by
  obtain ⟨⟨hbinds, howned⟩, -⟩ := hm.call i _ hcall
  obtain ⟨session, hsession⟩ := Option.isSome_iff_exists.1 hsome
  rcases call_before_cases hstep hcall with ⟨hkept, -⟩ | ⟨input, r, hadvances, hafter⟩
  · refine Or.inl ⟨call, binding, autoinstall, job, leaseId, expiresAt, hkept, ?_⟩
    rcases lookup_before_cases hstep hbinds.minted hsession with
      hsame | ⟨_, _, _, _, new, -, hnew, -⟩ |
        ⟨j, input, query, device, offered, r, hadvances, -, hdropped⟩
    · rw [hsame, Option.isSome_some]
    · rw [hnew, Option.isSome_some]
    · exact absurd (.dropped hadvances.event hadvances.call hcall hsession hdropped) hnot
  · cases hadvances.edge with
    | unbound hstop | rejected hstop => simp [InstallerCall.mayStop] at hstop
    | recorded => exact Or.inr ⟨_, _, hafter⟩
    | failedRecord hmissing =>
      have hphase := howned session hsession
      rw [hbinds.id] at hmissing
      exact absurd hphase (hmissing session hsession)

/-- The handoff of a job gives its guard the lease. -/
private theorem granted_of_leases (hstep : m.step digest e = some n) (hnot : ¬ m.LosesHandoff e)
    {sessionId jobId : Uuid} {now : Instant} (hleases : m.Leases i sessionId jobId leaseId now e) :
    n.Granted i := by
  have hsome : (m.sessions.lookup sessionId).isSome = true :=
    Option.isSome_iff_ne_none.2 fun hgone => hnot (.leased hleases hgone)
  obtain ⟨input, call, binding, autoinstall, job, rfl, hcall, rfl, -, -, -, hok⟩ := hleases
  rcases call_before_cases hstep hcall with ⟨-, hother⟩ | ⟨input', r, hadvances, hafter⟩
  · exact absurd rfl (hother input)
  · obtain rfl : input = input' := by
      have hevent := hadvances.event
      injection hevent
    have hsessions := hadvances.sessions
    cases hadvances.edge with
    | unbound hstop | rejected hstop => simp [InstallerCall.mayStop] at hstop
    | leased =>
      refine Or.inl ⟨_, _, _, _, _, _, hafter, ?_⟩
      rw [hsessions]
      exact hsome
    | failedLease herror => exact absurd (hok.symm.trans herror) (by simp)

/-- In the runs that lose no handoff, a guard that has leased its job returns the authorization. -/
private theorem granted_of_along
    (hrun : Leads (step digest) (empty manifestPath clock registry) es w)
    (halong : Along (step digest) (fun m e => ¬ m.LosesHandoff e)
      (empty manifestPath clock registry) es) {sessionId jobId : Uuid} {now : Instant}
    (hleases : Sometime (step digest) (Leases i sessionId jobId leaseId now)
      (empty manifestPath clock registry) es) : w.Granted i := by
  induction es using List.reverseRecOn generalizing w with
  | nil =>
    obtain ⟨pre, e, post, m, heq, -⟩ := hleases
    simp at heq
  | append_singleton es e ih =>
    obtain ⟨m, hm, hstep⟩ := leads_concat.1 hrun
    have hnot := halong.last hm
    rcases (sometime_concat hm).1 hleases with hbefore | hlast
    · rcases ih hm halong.init hbefore with
        ⟨call, binding, autoinstall, job, held, expiresAt, hcall, hsome⟩ | ⟨call, _, hcall⟩
      · exact granted_of_leased (coherent_of_leads hm) hstep hnot hcall hsome
      · exact granted_of_returned hstep hcall
    · exact granted_of_leases hstep hnot hlast

/-- A refused guard has handed nothing off in the runs that lose no handoff. -/
theorem refusalsGrantNothing_of_along
    (halong : Along (step digest) (fun m e => ¬ m.LosesHandoff e)
      (empty manifestPath clock registry) es) :
    RefusalsGrantNothing digest (empty manifestPath clock registry) es := by
  rintro pre post m rfl hpre i call error hcall sessionId jobId leaseId now hleases
  rcases granted_of_along hpre halong.init hleases with
    ⟨_, _, _, _, _, _, hleased, -⟩ | ⟨_, _, hreturned⟩
  · exact absurd (hcall.symm.trans hleased) (by simp)
  · exact absurd (hcall.symm.trans hreturned) (by simp)

/-- The guard holds a lease that its dropped session cannot record, or it has been refused and no
session will ever record the lease. -/
private def Lost (w : ServiceWorld) (i : ℕ) (leaseId : Uuid) : Prop :=
  (∃ call binding autoinstall job expiresAt,
    w.calls[i]? = some (.authorizeGuard call (.leased binding autoinstall job leaseId expiresAt)) ∧
      w.sessions.lookup call.sessionId = none) ∨
    (((∃ call binding error, w.calls[i]? = some (.authorizeGuard call (.refused binding error))) ∨
        ∃ call error, w.calls[i]? = some (.authorizeGuard call (.returned (.error error)))) ∧
      leaseId ∈ w.repository.minted ∧ w.Unrecorded leaseId ∧
      ∀ (j : ℕ) c, w.calls[j]? = some c → c.unrecordedLease ≠ some leaseId)

/-- A dropped session does not come back. -/
private theorem lookup_eq_none_of_step (hm : m.Coherent) (hstep : m.step digest e = some n)
    {sessionId : Uuid} (hminted : sessionId ∈ m.minted)
    (hnone : m.sessions.lookup sessionId = none) : n.sessions.lookup sessionId = none := by
  refine Option.eq_none_iff_forall_ne_some.2 fun session hlookup => ?_
  obtain ⟨old, hold, -⟩ := hm.exists_lookup_before hstep hminted hlookup
  simp [hnone] at hold

private theorem lost_of_leased (hm : m.Coherent) (hstep : m.step digest e = some n)
    {call : GuardCall} {binding : SessionBinding} {autoinstall : String} {job : DeploymentJob}
    {expiresAt : Instant} (hcall : m.calls[i]? =
      some (.authorizeGuard call (.leased binding autoinstall job leaseId expiresAt)))
    (hnone : m.sessions.lookup call.sessionId = none) : n.Lost i leaseId := by
  obtain ⟨⟨hbinds, -⟩, hleased⟩ := hm.call i _ hcall
  rcases call_before_cases hstep hcall with ⟨hkept, -⟩ | ⟨input, r, hadvances, hafter⟩
  · exact Or.inl ⟨call, binding, autoinstall, job, expiresAt, hkept,
      lookup_eq_none_of_step hm hstep hbinds.minted hnone⟩
  · have hsessions := hadvances.sessions
    cases hadvances.edge with
    | unbound hstop | rejected hstop => simp [InstallerCall.mayStop] at hstop
    | recorded hlookup =>
      rw [hbinds.id, hnone] at hlookup
      simp at hlookup
    | failedRecord =>
      refine Or.inr ⟨Or.inl ⟨_, _, _, hafter⟩, (hm.leaseOf_of_step hstep hleased.leaseOf).minted,
        ?_, fun j c hc hlease => ?_⟩
      · intro sessionId session hlookup
        rw [hsessions] at hlookup
        exact hleased.unrecorded sessionId session hlookup
      · rcases unrecordedLease_after_cases hstep hc hlease with ⟨d, hd, hlease'⟩ | ⟨-, hfresh⟩
        · obtain rfl := hm.unrecorded_distinct j i d _ leaseId hd hcall hlease' rfl
          obtain rfl := Option.some.inj (hc.symm.trans hafter)
          simp [InstallerCall.unrecordedLease, SectionResult.quiet] at hlease
        · exact hfresh hleased.leaseOf.minted

private theorem lost_of_step (hm : m.Coherent) (hstep : m.step digest e = some n)
    (hlost : m.Lost i leaseId) : n.Lost i leaseId := by
  rcases hlost with ⟨call, binding, autoinstall, job, expiresAt, hcall, hnone⟩ |
    ⟨hrefused, hminted, hunrecorded, hnobody⟩
  · exact lost_of_leased hm hstep hcall hnone
  · have hminted' : leaseId ∈ n.repository.minted := by
      rcases repository_of_step hstep with ⟨-, heq⟩ | ⟨jobEvent, -, hjobs⟩
      · rwa [heq]
      · exact RepositoryWorld.minted_subset hjobs hminted
    refine Or.inr ⟨?_, hminted', ?_, fun j c hc hlease => ?_⟩
    · rcases hrefused with ⟨call, binding, error, hcall⟩ | ⟨call, error, hcall⟩
      · rcases call_before_cases hstep hcall with ⟨hkept, -⟩ | ⟨input, r, hadvances, hafter⟩
        · exact Or.inl ⟨call, binding, error, hkept⟩
        · cases hadvances.edge with
          | unbound hstop | rejected hstop => simp [InstallerCall.mayStop] at hstop
          | released | notReleased => exact Or.inr ⟨_, _, hafter⟩
      · rcases call_before_cases hstep hcall with ⟨hkept, -⟩ | ⟨input, r, hadvances, -⟩
        · exact Or.inr ⟨call, error, hkept⟩
        · cases hadvances.edge with
          | unbound hstop | rejected hstop => simp [InstallerCall.mayStop] at hstop
    · exact hm.unrecorded_of_step hstep hunrecorded fun j input c r hadvances =>
        hnobody j c hadvances.call
    · rcases unrecordedLease_after_cases hstep hc hlease with ⟨d, hd, hlease'⟩ | ⟨-, hfresh⟩
      · exact hnobody j d hd hlease'
      · exact hfresh hminted

/-- A step that loses a handoff leaves a guard with a lease that it cannot record. -/
private theorem exists_lost_of_losesHandoff
    (hrun : Leads (step digest) (empty manifestPath clock registry) es m)
    (hstep : m.step digest e = some n) (hloses : m.LosesHandoff e) :
    ∃ i leaseId, n.Lost i leaseId ∧ ∃ sessionId jobId now,
      Sometime (step digest) (Leases i sessionId jobId leaseId now)
        (empty manifestPath clock registry) (es ++ [e]) := by
  have hm := coherent_of_leads hrun
  cases hloses with
  | @leased i sessionId jobId leaseId now hleases hgone =>
    refine ⟨i, leaseId, ?_, sessionId, jobId, now, hrun.sometime hleases⟩
    obtain ⟨input, call, binding, autoinstall, job, rfl, hcall, rfl, -, hid, -, hok⟩ := hleases
    rcases call_before_cases hstep hcall with ⟨-, hother⟩ | ⟨input', r, hadvances, hafter⟩
    · exact absurd rfl (hother input)
    · obtain rfl : input = input' := by
        have hevent := hadvances.event
        injection hevent
      have hsessions := hadvances.sessions
      cases hadvances.edge with
      | unbound hstop | rejected hstop => simp [InstallerCall.mayStop] at hstop
      | @leased _ _ _ job' leaseId' expiresAt hok' hlease =>
        obtain ⟨-, old, -, -, hedge, -⟩ := JobRepository.leaseInstallerJob_accepted hok'
        cases hedge with
        | handOff _ _ _ hnew =>
          obtain rfl : leaseId = leaseId' :=
            hid.symm.trans (Option.some.inj (hnew.symm.trans hlease))
          refine Or.inl ⟨_, _, _, _, _, hafter, ?_⟩
          rw [hsessions]
          exact hgone
      | failedLease herror => exact absurd (hok.symm.trans herror) (by simp)
  | @dropped i j input query device job leasedJob call binding autoinstall leaseId expiresAt session
      he hdiscover hguard hsession hdropped =>
    obtain ⟨-, now, hleases, -⟩ := (history_of_leads hrun).call i _ hguard
    refine ⟨i, leaseId, Or.inl ⟨call, binding, autoinstall, leasedJob, expiresAt, ?_, ?_⟩,
      call.sessionId, binding.jobId, now, hleases.append [e]⟩
    · rcases call_before_cases hstep hguard with ⟨hkept, -⟩ | ⟨input', r, hadvances, -⟩
      · exact hkept
      · obtain rfl : j = i := by
          have hevent := he.symm.trans hadvances.event
          injection hevent
        exact absurd (hdiscover.symm.trans hguard) (by simp)
    · subst he
      obtain ⟨c, r, hadvances⟩ := exists_advances hstep
      obtain rfl := Option.some.inj (hadvances.call.symm.trans hdiscover)
      exact hadvances.lookup_eq_none (hm.call i _ hguard).1.1.minted hsession hdropped

/-- Along a run at whose end no guard is between two sections of its authorization, refused guards
have handed nothing off only if no step has lost a handoff. -/
theorem along_of_refusalsGrantNothing
    (hrun : Leads (step digest) (empty manifestPath clock registry) es w)
    (hsettled : ∀ (i : ℕ) c, w.calls[i]? = some c → c.owner = none)
    (hlaw : RefusalsGrantNothing digest (empty manifestPath clock registry) es) :
    Along (step digest) (fun m e => ¬ m.LosesHandoff e) (empty manifestPath clock registry) es := by
  rintro pre e post m rfl hpre hloses
  obtain ⟨m', n, hpre', hstep, hpost⟩ := hrun.split
  obtain rfl := hpre.unique hpre'
  obtain ⟨i, leaseId, hlost, sessionId, jobId, now, hleases⟩ :=
    exists_lost_of_losesHandoff hpre hstep hloses
  have hlostAtEnd := hpost.invariant (I := fun m => m.Coherent ∧ m.Lost i leaseId)
    ⟨(coherent_of_leads hpre).of_step hstep, hlost⟩
    fun _ _ _ hm hn => ⟨hm.1.of_step hn, lost_of_step hm.1 hn hm.2⟩
  rcases hlostAtEnd.2 with ⟨_, _, _, _, _, hcall, -⟩ | ⟨hrefused, -, hunrecorded, -⟩
  · exact absurd (hsettled i _ hcall) (by simp [InstallerCall.owner])
  · rcases hrefused with ⟨_, _, _, hcall⟩ | ⟨call, error, hcall⟩
    · exact absurd (hsettled i _ hcall) (by simp [InstallerCall.owner])
    · have hleases' := hleases.append post
      rw [List.append_assoc, List.singleton_append] at hleases'
      obtain ⟨other, session, hlookup, hlease⟩ := hlaw _ [] w (by simp) hrun i call error hcall
        sessionId jobId leaseId now hleases'
      exact hunrecorded other session hlookup hlease

/-- A refused guard has handed nothing off in the runs that lose no handoff; and only in these, when
every guard that has claimed its session has returned at the end of the run. -/
theorem refusalsGrantNothing_iff
    (hrun : Leads (step digest) (empty manifestPath clock registry) es w) :
    (Along (step digest) (fun m e => ¬ m.LosesHandoff e) (empty manifestPath clock registry) es →
        RefusalsGrantNothing digest (empty manifestPath clock registry) es) ∧
      ((∀ (i : ℕ) c, w.calls[i]? = some c → c.owner = none) →
        RefusalsGrantNothing digest (empty manifestPath clock registry) es →
        Along (step digest) (fun m e => ¬ m.LosesHandoff e)
          (empty manifestPath clock registry) es) :=
  ⟨refusalsGrantNothing_of_along, along_of_refusalsGrantNothing hrun⟩

/-- The machine boots once more while the guard of its first boot is being authorized: the second
`discover` marks the job before the guard leases it, and drops the session before the guard records
the lease. -/
def lossEvents : List ServiceEvent :=
  .jobs (.enqueue linuxRequest 0 1 .written) :: offerEvents 0 (minutes 1) 10 ++
    (guardEvents 1 10 (minutes 2) 30).take 4 ++ (offerEvents 2 (minutes 3) 20).take 4 ++
    [.advance 1 (labInput (minutes 4) 30), .advance 2 (labInput (minutes 5) 20),
     .advance 1 (labInput (minutes 6) 30), .advance 1 (labInput (minutes 7) 30)]

/-- The guard `i` can lease its job at the time `now`. -/
private def canLease (i : ℕ) (leaseId : Uuid) (now : Instant) (w : ServiceWorld) : Bool :=
  match w.calls[i]? with
  | some (.authorizeGuard _ (.checked binding _)) =>
    (w.repository.repo.leaseInstallerJob binding.jobId binding.deviceId binding.imageId
      (minutes installerLeaseMinutes) now leaseId .written).1.toOption.isSome
  | _ => false

private theorem exists_leases_of_canLease {now : Instant} (h : w.canLease i leaseId now = true)
    (input : SectionInput) (hid : input.leaseId = leaseId) (hnow : input.now = now)
    (hwrite : input.write = .written) :
    ∃ sessionId jobId, w.Leases i sessionId jobId leaseId now (.advance i input) := by
  unfold canLease at h
  split at h
  · rename_i call binding autoinstall hcall
    obtain ⟨job, hjob⟩ := Option.isSome_iff_exists.1 h
    refine ⟨call.sessionId, binding.jobId, input, call, binding, autoinstall, job, rfl, hcall, rfl,
      rfl, hid, hnow, ?_⟩
    rw [hid, hnow, hwrite]
    revert hjob
    cases (w.repository.repo.leaseInstallerJob binding.jobId binding.deviceId binding.imageId
      (minutes installerLeaseMinutes) now leaseId .written).1 <;> simp [Except.toOption]
  · simp at h

/-- The call was refused. -/
private def wasRefused (i : ℕ) (w : ServiceWorld) : Bool :=
  match w.calls[i]? with
  | some (.authorizeGuard _ (.returned (.error _))) => true
  | _ => false

private theorem exists_error_of_wasRefused (h : w.wasRefused i = true) :
    ∃ call error, w.calls[i]? = some (.authorizeGuard call (.returned (.error error))) := by
  unfold wasRefused at h
  split at h
  · exact ⟨_, _, by assumption⟩
  · simp at h

/-- At the end the job runs under the lease 30, the guard was refused, and no session has a
lease. -/
private theorem lossEvents_end :
    (runFrom (step labDigest) (empty "jobs.json" 0 labRegistry) lossEvents).map (fun w =>
        (w.repository.repo.jobs.map fun job => (job.state, job.leaseId), w.wasRefused 1,
          w.sessions.entries.map fun s => s.2.leaseId)) =
      some ([(.running, some 30)], true, [none]) := by decide +kernel

/-- The guard is refused, and the job runs under the lease 30, which no session records. -/
theorem refusalsGrantNothing_fails_of_offer :
    (∃ w, Leads (step labDigest) (empty "jobs.json" 0 labRegistry) lossEvents w ∧
      (w.repository.repo.jobs.map fun job => (job.state, job.leaseId)) = [(.running, some 30)]) ∧
    ¬ RefusalsGrantNothing labDigest (empty "jobs.json" 0 labRegistry) lossEvents := by
  have hleased : (runFrom (step labDigest) (empty "jobs.json" 0 labRegistry)
      (lossEvents.take 14)).map (canLease 1 30 (minutes 4)) = some true := by decide +kernel
  obtain ⟨m, hm, hcan⟩ := exists_leads_of_map hleased
  obtain ⟨w, hw, hend⟩ := exists_leads_of_map lossEvents_end
  obtain ⟨hjobs, hend⟩ := Prod.mk.inj hend
  obtain ⟨hrefused, hleases⟩ := Prod.mk.inj hend
  refine ⟨⟨w, hw, hjobs⟩, fun hlaw => ?_⟩
  obtain ⟨call, error, hcall⟩ := exists_error_of_wasRefused hrefused
  obtain ⟨sessionId, jobId, hstep⟩ :=
    exists_leases_of_canLease hcan (labInput (minutes 4) 30) rfl rfl rfl
  obtain ⟨other, session, hlookup, hlease⟩ := hlaw lossEvents [] w (by simp) hw 1 call error hcall
    sessionId jobId 30 (minutes 4) ⟨lossEvents.take 14, .advance 1 (labInput (minutes 4) 30),
      lossEvents.drop 15, m, by rfl, hm, hstep⟩
  have hmem : session.leaseId ∈ w.sessions.entries.map fun s => s.2.leaseId :=
    List.mem_map.2 ⟨⟨other, session⟩, AList.mem_lookup_iff.1 hlookup, rfl⟩
  rw [hleases, hlease] at hmem
  simp at hmem

private theorem isSome_lossEvents :
    (runFrom (step labDigest) (empty "jobs.json" 0 labRegistry) lossEvents).isSome = true := by
  obtain ⟨w, hw, -⟩ := exists_leads_of_map lossEvents_end
  rw [hw, Option.isSome_some]

/-- The state at the end of `lossEvents`. -/
def lossWorld : ServiceWorld :=
  (runFrom (step labDigest) (empty "jobs.json" 0 labRegistry) lossEvents).get isSome_lossEvents

theorem refusalsGrantNothing_iff_lossEvents :
    (Along (step labDigest) (fun m e => ¬ m.LosesHandoff e) (empty "jobs.json" 0 labRegistry)
        lossEvents →
        RefusalsGrantNothing labDigest (empty "jobs.json" 0 labRegistry) lossEvents) ∧
      ((∀ (i : ℕ) c, lossWorld.calls[i]? = some c → c.owner = none) →
        RefusalsGrantNothing labDigest (empty "jobs.json" 0 labRegistry) lossEvents →
        Along (step labDigest) (fun m e => ¬ m.LosesHandoff e) (empty "jobs.json" 0 labRegistry)
          lossEvents) :=
  refusalsGrantNothing_iff (Option.some_get isSome_lossEvents).symm

/-! ### Live handoffs -/

/-- The session records the lease under which a job runs, and has not expired at the time `now`. -/
def LiveHandoff (w : ServiceWorld) (sessionId : Uuid) (now : Instant)
    (job : DeploymentJob) : Prop :=
  job ∈ w.repository.repo.jobs ∧ job.state = .running ∧ ∃ session leaseId,
    w.sessions.lookup sessionId = some session ∧ session.leaseId = some leaseId ∧
      job.leaseId = some leaseId ∧ now ≤ session.expiresAt

/-- The last section of a `discover` runs for a job that has become a live handoff. -/
def EvictsHandoff (w : ServiceWorld) (e : ServiceEvent) : Prop :=
  ∃ i input query device offered job sessionId, e = .advance i input ∧
    w.calls[i]? = some (.discover query (.booting device offered)) ∧ job.id = offered.id ∧
    w.LiveHandoff sessionId input.now job

/-- Along the run, no step removes the session of a live handoff. -/
def KeepsLiveHandoffs (digest : String → String) (start : ServiceWorld) (es : List ServiceEvent) :
    Prop :=
  ∀ pre e post m n, es = pre ++ e :: post → Leads (step digest) start pre m →
    m.step digest e = some n → ∀ sessionId job,
    m.LiveHandoff sessionId n.repository.clock job → (n.sessions.lookup sessionId).isSome = true

/-- The last section of a `discover` reads the clock. -/
private theorem clock_eq_of_booting {input : SectionInput} {query : BootQuery} {device : Device}
    {job : DeploymentJob} {r : SectionResult InstallerCall}
    (h : Advances digest m e n i input (.discover query (.booting device job)) r) :
    n.repository.clock = input.now := by
  have hjobs := h.jobs
  cases h.edge with
  | unbound hstop | rejected hstop => simp [InstallerCall.mayStop] at hstop
  | overflowed | opened => exact (RepositoryWorld.step_eq_some_iff.1 hjobs).2.2.1

/-- A job and a session that share a lease belong together. -/
private theorem jobId_eq_of_liveHandoff (hm : m.Coherent) {sessionId : Uuid} {now : Instant}
    {job : DeploymentJob} (h : m.LiveHandoff sessionId now job) {session : InstallerSession}
    (hlookup : m.sessions.lookup sessionId = some session) : session.jobId = job.id := by
  obtain ⟨hjob, -, held, leaseId, hheld, hlease, hjobLease, -⟩ := h
  obtain rfl := Option.some.inj (hheld.symm.trans hlookup)
  exact (((hm.session sessionId held hheld).lease leaseId hlease).job job hjob hjobLease).symm

/-- No live handoff is evicted along a run exactly when no `discover` completes its offer for a job
that has become a live handoff since it was read. -/
theorem keepsLiveHandoffs_iff
    (hrun : Leads (step digest) (empty manifestPath clock registry) es w) :
    KeepsLiveHandoffs digest (empty manifestPath clock registry) es ↔
      Along (step digest) (fun m e => ¬ m.EvictsHandoff e)
        (empty manifestPath clock registry) es := by
  constructor
  · rintro hlaw pre e post m rfl hpre
      ⟨i, input, query, device, offered, job, sessionId, rfl, hcall, hid, hlive⟩
    obtain ⟨m', n, hpre', hstep, -⟩ := hrun.split
    obtain rfl := hpre.unique hpre'
    have hm := coherent_of_leads hpre
    obtain ⟨c, r, hadvances⟩ := exists_advances hstep
    obtain rfl := Option.some.inj (hadvances.call.symm.trans hcall)
    have hkept := hlaw pre _ post m n rfl hpre hstep sessionId job
      (by rwa [clock_eq_of_booting hadvances])
    obtain ⟨-, -, session, leaseId, hlookup, -⟩ := id hlive
    have hnone := hadvances.lookup_eq_none (hm.session sessionId session hlookup).minted hlookup
      (Or.inr ((jobId_eq_of_liveHandoff hm hlive hlookup).trans hid))
    simp [hnone] at hkept
  · rintro halong pre e post m n rfl hpre hstep sessionId job hlive
    have hm := coherent_of_leads hpre
    obtain ⟨-, -, session, leaseId, hlookup, -, -, hcurrent⟩ := id hlive
    rcases lookup_before_cases hstep (hm.session sessionId session hlookup).minted hlookup with
      hkept | ⟨_, _, _, _, new, -, hnew, -⟩ |
        ⟨i, input, query, device, offered, r, hadvances, -, hdropped⟩
    · rw [hkept, Option.isSome_some]
    · rw [hnew, Option.isSome_some]
    · have hclock := clock_eq_of_booting hadvances
      rw [hclock] at hlive hcurrent
      rcases hdropped with hexpired | hsame
      · exact absurd hcurrent (not_le.2 hexpired)
      · have hid : job.id = offered.id :=
          (jobId_eq_of_liveHandoff hm hlive hlookup).symm.trans hsame
        exact absurd ⟨i, input, query, device, offered, job, sessionId, hadvances.event,
          hadvances.call, hid, hlive⟩ (halong pre e post m rfl hpre)

/-- The machine boots once more while the guard of its first boot is being authorized: the second
`discover` marks the job before the guard leases it, and completes its offer after the guard has
returned the authorization. -/
def evictionEvents : List ServiceEvent :=
  .jobs (.enqueue linuxRequest 0 1 .written) :: offerEvents 0 (minutes 1) 10 ++
    (guardEvents 1 10 (minutes 2) 30).take 4 ++ (offerEvents 2 (minutes 3) 20).take 4 ++
    [.advance 1 (labInput (minutes 4) 30), .advance 1 (labInput (minutes 5) 30),
     .advance 2 (labInput (minutes 6) 20)]

/-- Before the last event, the session 11 records the lease of the running job. -/
private theorem evictionEvents_handedOff :
    (runFrom (step labDigest) (empty "jobs.json" 0 labRegistry) (evictionEvents.take 16)).map
        (fun w => (w.repository.repo.jobs.map fun job => (job.state, job.leaseId),
          (w.sessions.lookup 11).map fun session => (session.leaseId, session.expiresAt))) =
      some ([(.running, some 30)], some (some 30, minutes 244)) := by decide +kernel

/-- At the end, the session is gone. -/
private theorem evictionEvents_end :
    (runFrom (step labDigest) (empty "jobs.json" 0 labRegistry) evictionEvents).map
        (fun w => (w.sessions.lookup 11, w.repository.clock)) = some (none, minutes 6) := by
  decide +kernel

/-- The session of the running job, which expires four hours after the handoff, is evicted two
minutes after it. -/
theorem keepsLiveHandoffs_fails_of_offer :
    (∃ w, Leads (step labDigest) (empty "jobs.json" 0 labRegistry) evictionEvents w) ∧
      ¬ KeepsLiveHandoffs labDigest (empty "jobs.json" 0 labRegistry) evictionEvents := by
  obtain ⟨m, hm, hhandedOff⟩ := exists_leads_of_map evictionEvents_handedOff
  obtain ⟨w, hw, hend⟩ := exists_leads_of_map evictionEvents_end
  refine ⟨⟨w, hw⟩, fun hlaw => ?_⟩
  obtain ⟨hjobs, hsession⟩ := Prod.mk.inj hhandedOff
  obtain ⟨hgone, hclock⟩ := Prod.mk.inj hend
  obtain ⟨job, hjob⟩ : ∃ job, m.repository.repo.jobs = [job] :=
    List.length_eq_one_iff.1 (by simpa using congrArg List.length hjobs)
  obtain ⟨session, hlookup, heq⟩ := Option.map_eq_some_iff.1 hsession
  obtain ⟨hlease, hexpiry⟩ := Prod.mk.inj heq
  have hstate : job.state = .running ∧ job.leaseId = some 30 := by simpa [hjob] using hjobs
  have hstep : m.step labDigest (.advance 2 (labInput (minutes 6) 20)) = some w := by
    have hrun : Leads (step labDigest) (empty "jobs.json" 0 labRegistry)
        (evictionEvents.take 16 ++ [.advance 2 (labInput (minutes 6) 20)]) w := hw
    obtain ⟨m', hm', hstep⟩ := leads_concat.1 hrun
    rwa [hm.unique hm']
  have hkept := hlaw (evictionEvents.take 16) _ [] m w rfl hm hstep 11 job
    ⟨by simp [hjob], hstate.1, session, 30, hlookup, hlease, hstate.2,
      by rw [hclock, hexpiry]; decide⟩
  rw [hgone] at hkept
  exact absurd hkept (by decide)

private theorem isSome_evictionEvents :
    (runFrom (step labDigest) (empty "jobs.json" 0 labRegistry) evictionEvents).isSome = true := by
  obtain ⟨w, hw, -⟩ := exists_leads_of_map evictionEvents_end
  rw [hw, Option.isSome_some]

theorem keepsLiveHandoffs_iff_evictionEvents :
    KeepsLiveHandoffs labDigest (empty "jobs.json" 0 labRegistry) evictionEvents ↔
      Along (step labDigest) (fun m e => ¬ m.EvictsHandoff e) (empty "jobs.json" 0 labRegistry)
        evictionEvents :=
  keepsLiveHandoffs_iff (Option.some_get isSome_evictionEvents).symm

end ServiceWorld

end EasyDeployMesh
