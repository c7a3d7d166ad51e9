import EasyDeployMesh.Service.InstallerDeployment.Invariant

/-!
# What must have happened

The past of a session and of a call in flight. A session in the table was opened by an offer; the
lease that it records was minted by the handoff of its job, and recorded by the guard that was
authorized for it; its expiry is the one of that handoff. A call that has read a session has
presented the token of this session before its expiry.

## Main definitions

* `EasyDeployMesh.ServiceWorld.Opens`, `EasyDeployMesh.ServiceWorld.Authenticates`,
  `EasyDeployMesh.ServiceWorld.Prepares`, `EasyDeployMesh.ServiceWorld.Leases`,
  `EasyDeployMesh.ServiceWorld.Authorizes`: the steps that matter later.
* `EasyDeployMesh.ServiceWorld.SessionHistory`, `EasyDeployMesh.ServiceWorld.CallHistory`: the past
  of a session and of a call.

## Main results

* `EasyDeployMesh.ServiceWorld.history_of_leads`: every session and every call of a run has its
  past.
-/

namespace EasyDeployMesh

open Foundations

namespace ServiceWorld

variable {digest : String → String} {w w' start : ServiceWorld} {e : ServiceEvent}
  {es : List ServiceEvent} {i : ℕ}

/-! ### The steps that matter later -/

/-- The step opens the session: it is the last section of a `discover`. -/
def Opens (digest : String → String) (sessionId : Uuid) (session : InstallerSession)
    (w : ServiceWorld) (e : ServiceEvent) : Prop :=
  ∃ i input query device job token, e = .advance i input ∧
    w.calls[i]? = some (.discover query (.booting device job)) ∧ sessionId = input.sessionId ∧
    token = generateSecret "easydeploymesh_installer" input.secret.1 input.secret.2 ∧
    SameOffer (offeredSession digest query device job token input) session

/-- The first section of the call `i` authenticates its request for the session with the given
token: the session is in the table, and has not expired. -/
def Authenticates (digest : String → String) (i : ℕ) (sessionId : Uuid) (token : String)
    (session : InstallerSession) (w : ServiceWorld) (e : ServiceEvent) : Prop :=
  ∃ input c, e = .advance i input ∧ w.calls[i]? = some c ∧ c.isFresh = true ∧
    w.sessions.lookup sessionId = some session ∧ digest token = session.tokenDigest ∧
    input.now ≤ session.expiresAt

/-- In the step, the image library answers the guard `i` with an image that has the requested
hash. -/
def Prepares (i : ℕ) (call : GuardCall) (e : ServiceEvent) : Prop :=
  ∃ input, e = .advance i input ∧ call.AcceptsPreparation input.preparation

/-- The guard `i` leases the job of its session, at the reading `now` of the clock. -/
def Leases (i : ℕ) (sessionId jobId leaseId : Uuid) (now : Instant) (w : ServiceWorld)
    (e : ServiceEvent) : Prop :=
  ∃ input call binding autoinstall job, e = .advance i input ∧
    w.calls[i]? = some (.authorizeGuard call (.checked binding autoinstall)) ∧
    call.sessionId = sessionId ∧ binding.jobId = jobId ∧ input.leaseId = leaseId ∧
    input.now = now ∧
    (w.repository.repo.leaseInstallerJob binding.jobId binding.deviceId binding.imageId
      (minutes installerLeaseMinutes) input.now input.leaseId input.write).1 = .ok job

/-- The guard `i` records the lease in its session and returns the authorization. -/
def Authorizes (i : ℕ) (sessionId leaseId : Uuid) (authorization : GuardAuthorization)
    (w : ServiceWorld) (e : ServiceEvent) : Prop :=
  ∃ input call binding expiresAt session, e = .advance i input ∧
    w.calls[i]? = some (.authorizeGuard call
      (.leased binding authorization.autoinstall authorization.job leaseId expiresAt)) ∧
    call.sessionId = sessionId ∧ w.sessions.lookup sessionId = some session ∧
    session.phase = .authorizing

/-! ### The past of sessions and calls -/

/-- The session was opened, and the lease that it records was minted for its job and recorded by a
guard; the session expires when that lease would have without a renewal. -/
structure SessionHistory (digest : String → String) (start : ServiceWorld) (es : List ServiceEvent)
    (sessionId : Uuid) (session : InstallerSession) : Prop where
  opened : Sometime (step digest) (Opens digest sessionId session) start es
  leased : ∀ leaseId, session.leaseId = some leaseId → ∃ i now,
    Sometime (step digest) (Leases i sessionId session.jobId leaseId now) start es ∧
      session.expiresAt = now + minutes installerLeaseMinutes
  authorized : ∀ leaseId, session.leaseId = some leaseId → ∃ i authorization,
    Sometime (step digest) (Authorizes i sessionId leaseId authorization) start es

/-- The call has presented the token of the session that it is bound to, before its expiry. -/
def Authenticated (digest : String → String) (start : ServiceWorld) (es : List ServiceEvent) (i : ℕ)
    (sessionId : Uuid) (token : String) (binding : SessionBinding) : Prop :=
  ∃ session, session.binding sessionId = binding ∧
    Sometime (step digest) (Authenticates digest i sessionId token session) start es ∧
    SessionHistory digest start es sessionId session

/-- What must have happened for a call to stand where it stands. -/
def CallHistory (digest : String → String) (start : ServiceWorld) (es : List ServiceEvent) (i : ℕ) :
    InstallerCall → Prop
  | .authorizeGuard call (.offered binding) | .authorizeGuard call (.authorizing binding)
  | .authorizeGuard call (.replaying binding) =>
    Authenticated digest start es i call.sessionId call.token binding
  | .authorizeGuard call (.checked binding _) =>
    Authenticated digest start es i call.sessionId call.token binding ∧
      Sometime (step digest) (fun _ => Prepares i call) start es
  | .authorizeGuard call (.leased binding _ _ leaseId expiresAt) =>
    (Authenticated digest start es i call.sessionId call.token binding ∧
      Sometime (step digest) (fun _ => Prepares i call) start es) ∧
    ∃ now, Sometime (step digest) (Leases i call.sessionId binding.jobId leaseId now) start es ∧
      expiresAt = now + minutes installerLeaseMinutes
  | .completeFirstBoot call (.completing binding _) =>
    Authenticated digest start es i call.sessionId call.token binding ∧
      binding.attemptId = call.attemptId
  | _ => True

/-- The past of everything in the service. -/
structure History (digest : String → String) (start : ServiceWorld) (es : List ServiceEvent)
    (w : ServiceWorld) : Prop where
  session : ∀ sessionId session, w.sessions.lookup sessionId = some session →
    SessionHistory digest start es sessionId session
  call : ∀ (i : ℕ) c, w.calls[i]? = some c → CallHistory digest start es i c

theorem SessionHistory.append {sessionId : Uuid} {session : InstallerSession}
    (h : SessionHistory digest start es sessionId session) (es' : List ServiceEvent) :
    SessionHistory digest start (es ++ es') sessionId session where
  opened := h.opened.append es'
  leased leaseId hlease := by
    obtain ⟨i, now, hleased, hexpiry⟩ := h.leased leaseId hlease
    exact ⟨i, now, hleased.append es', hexpiry⟩
  authorized leaseId hlease := by
    obtain ⟨i, authorization, hauthorized⟩ := h.authorized leaseId hlease
    exact ⟨i, authorization, hauthorized.append es'⟩

theorem Authenticated.append {sessionId : Uuid} {token : String} {binding : SessionBinding}
    (h : Authenticated digest start es i sessionId token binding) (es' : List ServiceEvent) :
    Authenticated digest start (es ++ es') i sessionId token binding := by
  obtain ⟨session, hbinding, hauth, hsession⟩ := h
  exact ⟨session, hbinding, hauth.append es', hsession.append es'⟩

theorem CallHistory.append {c : InstallerCall} (h : CallHistory digest start es i c)
    (es' : List ServiceEvent) : CallHistory digest start (es ++ es') i c := by
  cases c with
  | discover | reportEvent | fetch => trivial
  | authorizeGuard call state =>
    cases state with
    | start | refused | returned => trivial
    | offered | authorizing | replaying => exact Authenticated.append h es'
    | checked => exact ⟨h.1.append es', h.2.append es'⟩
    | leased =>
      obtain ⟨⟨hauth, hprepared⟩, now, hleased, hexpiry⟩ := h
      exact ⟨⟨hauth.append es', hprepared.append es'⟩, now, hleased.append es', hexpiry⟩
  | completeFirstBoot call state =>
    cases state with
    | start | completed | returned => trivial
    | completing => exact ⟨h.1.append es', h.2⟩

theorem callHistory_of_isUnbound {c : InstallerCall} (h : c.isUnbound = true) :
    CallHistory digest start es i c := by
  cases c with
  | discover query state => trivial
  | authorizeGuard call state => cases state <;> trivial
  | reportEvent call state => trivial
  | completeFirstBoot call state => cases state <;> trivial
  | fetch call state => trivial

/-- A section that authenticates a request gives the call its past. -/
private theorem authenticated_of_advances (hrun : Leads (step digest) start es w)
    (hhistory : History digest start es w) {input : SectionInput} {sessionId : Uuid}
    {token : String} {binding : SessionBinding} {c : InstallerCall} (hcall : w.calls[i]? = some c)
    (hfresh : c.isFresh = true)
    (hauth : w.sessions.authenticateSession digest sessionId token input.now = .ok binding) :
    Authenticated digest start (es ++ [.advance i input]) i sessionId token binding := by
  obtain ⟨-, -, session, hlookup, htoken, hexpiry, hbinding⟩ :=
    SessionTable.authenticateSession_eq_ok_iff.1 hauth
  exact ⟨session, hbinding,
    hrun.sometime ⟨input, c, rfl, hcall, hfresh, hlookup, htoken, hexpiry⟩,
    (hhistory.session sessionId session hlookup).append _⟩

private theorem callHistory_of_advances (hrun : Leads (step digest) start es w)
    (hhistory : History digest start es w) {input : SectionInput} {c : InstallerCall}
    {r : SectionResult InstallerCall} (hadvances : Advances digest w e w' i input c r) :
    CallHistory digest start (es ++ [e]) i r.state := by
  have hpast := (hhistory.call i c hadvances.call).append [e]
  obtain rfl := hadvances.event
  have hcall := hadvances.call
  have hedge := hadvances.edge
  cases hedge with
  | unbound _ hunbound | rejected _ hunbound => exact callHistory_of_isUnbound hunbound
  | assigned | marked | overflowed | opened | failedCheck | failedLease | recorded | failedRecord
  | released | notReleased | replayed | reporting | reported | eventCompleted | eventAwaits
  | completed | bootCompleted => trivial
  | offered hauth | replaying hauth =>
    exact authenticated_of_advances hrun hhistory hcall rfl hauth
  | claimed => exact hpast
  | checked hconfig =>
    exact ⟨hpast, hrun.sometime ⟨input, rfl, (initialConfiguration_ok hconfig).1⟩⟩
  | @leased call binding autoinstall job leaseId expiresAt hok hlease hexpiry =>
    obtain ⟨-, old, -, -, hedge, -⟩ := JobRepository.leaseInstallerJob_accepted hok
    cases hedge with
    | handOff _ _ _ hnew hnewExpiry =>
      obtain rfl : input.leaseId = leaseId := Option.some.inj (hnew.symm.trans hlease)
      refine ⟨hpast, input.now, hrun.sometime ?_, Option.some.inj (hexpiry.symm.trans hnewExpiry)⟩
      exact ⟨input, call, binding, autoinstall, job, rfl, hcall, rfl, rfl, rfl, rfl, hok⟩
  | completing hauth hattempt =>
    exact ⟨authenticated_of_advances hrun hhistory hcall rfl hauth, hattempt⟩

private theorem sessionHistory_of_sessionEdge (hrun : Leads (step digest) start es w)
    (hw : w.Coherent) (hhistory : History digest start es w) {input : SectionInput}
    {c : InstallerCall} {sessionId : Uuid} {old new : InstallerSession}
    (hcall : w.calls[i]? = some c) (hold : w.sessions.lookup sessionId = some old)
    (hedge : SessionEdge c sessionId old new) :
    SessionHistory digest start (es ++ [.advance i input]) sessionId new := by
  have hpast := (hhistory.session sessionId old hold).append [.advance i input]
  have hopened : Sometime (step digest) (Opens digest sessionId new) start
      (es ++ [.advance i input]) := by
    refine hpast.opened.mono ?_
    rintro m e ⟨j, input, query, device, job, token, he, hcall, hid, htoken, hsame⟩
    exact ⟨j, input, query, device, job, token, he, hcall, hid, htoken, hsame.trans hedge.sameOffer⟩
  cases hedge with
  | claimed | released | awaits | failed | booted => exact ⟨hopened, hpast.leased, hpast.authorized⟩
  | @recorded call binding autoinstall job leaseId expiresAt hc hid hphase =>
    subst hc
    have hcoherent := hw.call i _ hcall
    have hsession : call.sessionId = sessionId := (hw.sessionId_of_leased hcall).symm.trans hid
    have hjobId : binding.jobId = old.jobId :=
      (hcoherent.1.1.reads old (by rw [hsession, hold])).jobId
    obtain ⟨-, now, hleased, hexpiry⟩ := hhistory.call i _ hcall
    refine ⟨hopened, ?_, ?_⟩
    · intro other hother
      obtain rfl := Option.some.inj hother
      rw [hsession, hjobId] at hleased
      exact ⟨i, now, hleased.append _, hexpiry⟩
    · intro other hother
      obtain rfl := Option.some.inj hother
      exact ⟨i, { autoinstall, job }, hrun.sometime
        ⟨input, call, binding, expiresAt, old, rfl, hcall, hsession, hold, hphase⟩⟩

/-- Every session and every call of a run has its past. -/
theorem history_of_leads {manifestPath : String} {clock : Instant} {registry : DeviceRegistry}
    (hrun : Leads (step digest) (empty manifestPath clock registry) es w) :
    History digest (empty manifestPath clock registry) es w := by
  refine hrun.history (H := History digest (empty manifestPath clock registry)) ?_ ?_
  · exact ⟨by simp [empty], by simp [empty]⟩
  · intro pre m e n hm hhistory hstep
    have hcoherent := coherent_of_leads hm
    refine ⟨fun sessionId session hlookup => ?_, fun j c' hcall => ?_⟩
    · rcases lookup_after_cases hstep hlookup with
        hold | ⟨i, input, c, r, old, hadvances, hold, hedge⟩ |
          ⟨i, input, query, device, job, r, token, hadvances, htoken, hid, rfl, -, -⟩
      · exact (hhistory.session sessionId session hold).append [e]
      · obtain rfl := hadvances.event
        exact sessionHistory_of_sessionEdge hm hcoherent hhistory hadvances.call hold hedge
      · obtain rfl := hadvances.event
        refine ⟨hm.sometime ⟨i, input, query, device, job, token, rfl, hadvances.call, hid, htoken,
          .refl _⟩, by simp [offeredSession], by simp [offeredSession]⟩
    · rcases call_after_cases hstep hcall with
        ⟨hold, -⟩ | ⟨-, hfresh⟩ | ⟨input, c, r, hadvances, rfl⟩
      · exact (hhistory.call j c' hold).append [e]
      · exact callHistory_of_isUnbound (InstallerCall.isUnbound_of_isFresh hfresh)
      · exact callHistory_of_advances hm hhistory hadvances

end ServiceWorld

end EasyDeployMesh
