import EasyDeployMesh.Service.InstallerDeployment.Sections

/-!
# The life of a session in the table

What a critical section does to the table of sessions. A session is opened by the last section of a
`discover`, moves through its phases by the sections of the calls that present its token, and is
dropped by the last section of a later `discover`.

## Main definitions

* `EasyDeployMesh.SameOffer`: the fields of a session that no section rewrites.
* `EasyDeployMesh.SessionEdge`, `EasyDeployMesh.TableEdge`: what a section does to one session and
  to the table.

## Main results

* `EasyDeployMesh.SectionEdge.tableEdge`: every section moves the table along an edge.
* `EasyDeployMesh.ServiceWorld.lookup_after_cases`,
  `EasyDeployMesh.ServiceWorld.lookup_before_cases`, `EasyDeployMesh.ServiceWorld.call_after_cases`:
  a session and a call after and before a step.
-/

namespace EasyDeployMesh

open Foundations

/-! ### Edges -/

/-- What no section rewrites in a session. -/
structure SameOffer (old new : InstallerSession) : Prop where
  tokenDigest : new.tokenDigest = old.tokenDigest
  attemptId : new.attemptId = old.attemptId
  deviceId : new.deviceId = old.deviceId
  jobId : new.jobId = old.jobId
  imageId : new.imageId = old.imageId
  baseUrl : new.baseUrl = old.baseUrl

theorem SameOffer.refl (session : InstallerSession) : SameOffer session session :=
  ⟨rfl, rfl, rfl, rfl, rfl, rfl⟩

theorem SameOffer.trans {a b c : InstallerSession} (h : SameOffer a b) (h' : SameOffer b c) :
    SameOffer a c :=
  ⟨h'.tokenDigest.trans h.tokenDigest, h'.attemptId.trans h.attemptId, h'.deviceId.trans h.deviceId,
    h'.jobId.trans h.jobId, h'.imageId.trans h.imageId, h'.baseUrl.trans h.baseUrl⟩

/-- The call `c` rewrites the session: the state of the call, what it finds, and what it records. -/
inductive SessionEdge (c : InstallerCall) (sessionId : Uuid) (old : InstallerSession) :
    InstallerSession → Prop
  | claimed {call : GuardCall} {binding : SessionBinding}
      (hc : c = .authorizeGuard call (.offered binding)) (hid : call.sessionId = sessionId)
      (hphase : old.phase = .offered) :
      SessionEdge c sessionId old { old with phase := .authorizing }
  | recorded {call : GuardCall} {binding : SessionBinding} {autoinstall : String}
      {job : DeploymentJob} {leaseId : Uuid} {expiresAt : Instant}
      (hc : c = .authorizeGuard call (.leased binding autoinstall job leaseId expiresAt))
      (hid : binding.sessionId = sessionId) (hphase : old.phase = .authorizing) :
      SessionEdge c sessionId old
        { old with phase := .handedOff, leaseId := some leaseId, expiresAt }
  | released {call : GuardCall} {binding : SessionBinding} {error : InstallerDeploymentError}
      (hc : c = .authorizeGuard call (.refused binding error)) (hid : call.sessionId = sessionId)
      (hphase : old.phase = .authorizing) :
      SessionEdge c sessionId old { old with phase := .offered }
  | awaits {call : EventCall} {binding : SessionBinding} {job : DeploymentJob}
      (hc : c = .reportEvent call (.reported binding job)) (hid : call.sessionId = sessionId)
      (hphase : old.phase = .handedOff) :
      SessionEdge c sessionId old { old with phase := .awaitingFirstBoot }
  | failed {call : EventCall} {binding : SessionBinding} {job : DeploymentJob}
      (hc : c = .reportEvent call (.reported binding job)) (hid : call.sessionId = sessionId) :
      SessionEdge c sessionId old { old with phase := .completed }
  | booted {call : FirstBootCall} {binding : SessionBinding} {job : DeploymentJob}
      (hc : c = .completeFirstBoot call (.completed binding job))
      (hid : call.sessionId = sessionId) :
      SessionEdge c sessionId old { old with phase := .completed }

theorem SessionEdge.sameOffer {c : InstallerCall} {sessionId : Uuid} {old new : InstallerSession}
    (h : SessionEdge c sessionId old new) : SameOffer old new := by
  cases h <;> exact ⟨rfl, rfl, rfl, rfl, rfl, rfl⟩

/-- The call `c` replaces the table of sessions by another one. -/
inductive TableEdge (digest : String → String) (sessions : SessionTable) (input : SectionInput)
    (c : InstallerCall) : SessionTable → Prop
  | kept : TableEdge digest sessions input c sessions
  | rewritten {sessionId : Uuid} {old new : InstallerSession}
      (hlookup : sessions.lookup sessionId = some old) (hedge : SessionEdge c sessionId old new) :
      TableEdge digest sessions input c (sessions.insert sessionId new)
  | pruned {query : BootQuery} {device : Device} {job : DeploymentJob}
      (hc : c = .discover query (.booting device job)) :
      TableEdge digest sessions input c (sessions.prune job.id input.now)
  | opened {query : BootQuery} {device : Device} {job : DeploymentJob} {token : String}
      (hc : c = .discover query (.booting device job))
      (htoken : token = generateSecret "easydeploymesh_installer" input.secret.1 input.secret.2) :
      TableEdge digest sessions input c
        ((sessions.prune job.id input.now).insert input.sessionId
          (offeredSession digest query device job token input))

/-- Every section moves the table along an edge. -/
theorem SectionEdge.tableEdge {digest : String → String} {repo : JobRepository}
    {sessions : SessionTable} {input : SectionInput} {c : InstallerCall}
    {r : SectionResult InstallerCall} (h : SectionEdge digest repo sessions input c r) :
    TableEdge digest sessions input c r.sessions := by
  cases h with
  | unbound | rejected | assigned | marked | offered | replaying | checked | failedCheck | leased
  | failedLease | failedRecord | notReleased | replayed | reporting | reported | completing
  | completed => exact .kept
  | overflowed => exact .pruned rfl
  | opened _ _ _ htoken => exact .opened rfl htoken
  | claimed hlookup hphase => exact .rewritten hlookup (.claimed rfl rfl hphase)
  | recorded hlookup hphase => exact .rewritten hlookup (.recorded rfl rfl hphase)
  | released hlookup hphase => exact .rewritten hlookup (.released rfl rfl hphase)
  | eventCompleted hlookup => exact .rewritten hlookup (.failed rfl rfl)
  | eventAwaits hlookup hphase => exact .rewritten hlookup (.awaits rfl rfl hphase)
  | bootCompleted hlookup => exact .rewritten hlookup (.booted rfl rfl)

theorem SessionTable.lookup_prune_eq_some {sessions : SessionTable} {jobId sessionId : Uuid}
    {now : Instant} {session : InstallerSession} :
    (sessions.prune jobId now).lookup sessionId = some session ↔
      sessions.lookup sessionId = some session ∧ now ≤ session.expiresAt ∧
        session.jobId ≠ jobId := by
  simp [prune, AList.lookup_retain_eq_some, and_assoc]

namespace TableEdge

variable {digest : String → String} {sessions sessions' : SessionTable} {input : SectionInput}
  {c : InstallerCall} {sessionId : Uuid} {session : InstallerSession}

/-- A session after an edge was there before, was rewritten, or is the one that was opened. -/
theorem lookup_after_cases (h : TableEdge digest sessions input c sessions')
    (hlookup : sessions'.lookup sessionId = some session) :
    sessions.lookup sessionId = some session ∨
      (∃ old, sessions.lookup sessionId = some old ∧ SessionEdge c sessionId old session) ∨
      ∃ query device job token, c = .discover query (.booting device job) ∧
        token = generateSecret "easydeploymesh_installer" input.secret.1 input.secret.2 ∧
        sessionId = input.sessionId ∧
          session = offeredSession digest query device job token input := by
  cases h with
  | kept => exact Or.inl hlookup
  | @rewritten rewrittenId old new hold hedge =>
    by_cases heq : sessionId = rewrittenId
    · subst heq
      rw [AList.lookup_insert] at hlookup
      obtain rfl := Option.some.inj hlookup
      exact Or.inr (Or.inl ⟨old, hold, hedge⟩)
    · rw [AList.lookup_insert_ne heq] at hlookup
      exact Or.inl hlookup
  | pruned hc => exact Or.inl (SessionTable.lookup_prune_eq_some.1 hlookup).1
  | @opened query device job token hc htoken =>
    by_cases heq : sessionId = input.sessionId
    · subst heq
      rw [AList.lookup_insert] at hlookup
      exact Or.inr
        (Or.inr ⟨query, device, job, token, hc, htoken, rfl, (Option.some.inj hlookup).symm⟩)
    · rw [AList.lookup_insert_ne heq] at hlookup
      exact Or.inl (SessionTable.lookup_prune_eq_some.1 hlookup).1

/-- A session before an edge stays, is rewritten, or is dropped by the last section of a `discover`:
because it has expired, or because it belongs to the job that is offered. -/
theorem lookup_before_cases (h : TableEdge digest sessions input c sessions')
    (hfresh : ∀ query device job, c = .discover query (.booting device job) →
      sessionId ≠ input.sessionId)
    (hlookup : sessions.lookup sessionId = some session) :
    sessions'.lookup sessionId = some session ∨
      (∃ new, sessions'.lookup sessionId = some new ∧ SessionEdge c sessionId session new) ∨
      ∃ query device job, c = .discover query (.booting device job) ∧
        sessions'.lookup sessionId = none ∧
          (session.expiresAt < input.now ∨ session.jobId = job.id) := by
  have hprune : ∀ jobId, (sessions.prune jobId input.now).lookup sessionId = some session ∨
      (sessions.prune jobId input.now).lookup sessionId = none ∧
        (session.expiresAt < input.now ∨ session.jobId = jobId) := by
    intro jobId
    by_cases hkeep : input.now ≤ session.expiresAt ∧ session.jobId ≠ jobId
    · exact Or.inl (SessionTable.lookup_prune_eq_some.2 ⟨hlookup, hkeep⟩)
    · refine Or.inr ⟨Option.eq_none_iff_forall_ne_some.2 fun other hother => ?_, ?_⟩
      · obtain ⟨hother, hkeep'⟩ := SessionTable.lookup_prune_eq_some.1 hother
        obtain rfl := Option.some.inj (hother.symm.trans hlookup)
        exact hkeep hkeep'
      · rcases not_and_or.1 hkeep with hexpired | hjob
        · exact Or.inl (not_le.1 hexpired)
        · exact Or.inr (not_not.1 hjob)
  cases h with
  | kept => exact Or.inl hlookup
  | @rewritten rewrittenId old new hold hedge =>
    by_cases heq : sessionId = rewrittenId
    · subst heq
      obtain rfl := Option.some.inj (hold.symm.trans hlookup)
      exact Or.inr (Or.inl ⟨new, AList.lookup_insert _, hedge⟩)
    · exact Or.inl (by rw [AList.lookup_insert_ne heq, hlookup])
  | @pruned query device job hc =>
    rcases hprune job.id with hkept | ⟨hnone, hwhy⟩
    · exact Or.inl hkept
    · exact Or.inr (Or.inr ⟨query, device, job, hc, hnone, hwhy⟩)
  | @opened query device job token hc =>
    rw [AList.lookup_insert_ne (hfresh query device job hc)]
    rcases hprune job.id with hkept | ⟨hnone, hwhy⟩
    · exact Or.inl hkept
    · exact Or.inr (Or.inr ⟨query, device, job, hc, hnone, hwhy⟩)

end TableEdge

/-- The last section of a `discover` mints the ids of the session and of the attempt, and the
secret. -/
theorem SectionEdge.minted_of_booting {digest : String → String} {repo : JobRepository}
    {sessions : SessionTable} {input : SectionInput} {query : BootQuery} {device : Device}
    {job : DeploymentJob} {r : SectionResult InstallerCall}
    (h : SectionEdge digest repo sessions input (.discover query (.booting device job)) r) :
    r.minted = [input.sessionId, input.attemptId, input.secret.1, input.secret.2] := by
  cases h with
  | unbound hstop | rejected hstop => simp [InstallerCall.mayStop] at hstop
  | overflowed | opened => rfl

/-! ### Steps of the service -/

namespace ServiceWorld

variable {digest : String → String} {w w' : ServiceWorld} {e : ServiceEvent}

/-- The step from `w` to `w'` is a section of the call `c` with the number `i`. -/
structure Advances (digest : String → String) (w : ServiceWorld) (e : ServiceEvent)
    (w' : ServiceWorld) (i : ℕ) (input : SectionInput) (c : InstallerCall)
    (r : SectionResult InstallerCall) : Prop where
  event : e = .advance i input
  call : w.calls[i]? = some c
  edge : SectionEdge digest w.repository.repo w.sessions input c r
  fresh : ∀ id ∈ r.minted, id ∉ w.minted
  jobs : stepJobs w.repository r.jobs = some w'.repository
  sessions : w'.sessions = r.sessions
  calls : w'.calls = w.calls.set i r.state
  minted : w'.minted = r.minted ++ w.minted

theorem exists_advances {i : ℕ} {input : SectionInput}
    (h : w.step digest (.advance i input) = some w') :
    ∃ c r, Advances digest w (.advance i input) w' i input c r := by
  obtain ⟨c, r, hcall, hr, hinstall⟩ := step_advance_iff.1 h
  obtain ⟨⟨-, hfresh⟩, hjobs, -, hsessions, hcalls, hminted⟩ := install_eq_some_iff.1 hinstall
  exact ⟨c, r, rfl, hcall, InstallerCall.sectionEdge_of_advance hr, hfresh, hjobs,
    hsessions, hcalls, hminted⟩

/-- A step is a section of a call, or it leaves the sessions and at most appends a fresh call. -/
theorem step_cases (h : w.step digest e = some w') :
    (∃ i input c r, Advances digest w e w' i input c r) ∨
      (w'.sessions = w.sessions ∧ w'.minted = w.minted ∧ (∀ i input, e ≠ .advance i input) ∧
        (w'.calls = w.calls ∨ ∃ c, e = .call c ∧ c.isFresh = true ∧
          w'.calls = w.calls ++ [c])) := by
  cases e with
  | jobs e =>
    simp only [step] at h
    split_ifs at h
    obtain ⟨repository, -, rfl⟩ := Option.map_eq_some_iff.1 h
    exact Or.inr ⟨rfl, rfl, by simp, Or.inl rfl⟩
  | registry registry =>
    obtain rfl := Option.some.inj h
    exact Or.inr ⟨rfl, rfl, by simp, Or.inl rfl⟩
  | call c =>
    simp only [step] at h
    split_ifs at h with hfresh
    obtain rfl := Option.some.inj h
    exact Or.inr ⟨rfl, rfl, by simp, Or.inr ⟨c, rfl, hfresh, rfl⟩⟩
  | advance i input =>
    obtain ⟨c, r, hadvances⟩ := exists_advances h
    exact Or.inl ⟨i, input, c, r, hadvances⟩

theorem minted_subset (h : w.step digest e = some w') : w.minted ⊆ w'.minted := by
  rcases step_cases h with ⟨i, input, c, r, hadvances⟩ | ⟨-, heq, -⟩
  · rw [hadvances.minted]
    exact List.subset_append_right _ _
  · rw [heq]
    exact List.Subset.refl _

/-- A call after a step was there before, is fresh, or has run a section. -/
theorem call_after_cases (h : w.step digest e = some w') {j : ℕ} {c' : InstallerCall}
    (hcall : w'.calls[j]? = some c') :
    (w.calls[j]? = some c' ∧ ∀ input, e ≠ .advance j input) ∨ (e = .call c' ∧ c'.isFresh = true) ∨
      ∃ input c r, Advances digest w e w' j input c r ∧ c' = r.state := by
  rcases step_cases h with ⟨i, input, c, r, hadvances⟩ | ⟨-, -, hnot, heq | ⟨c, rfl, hfresh, heq⟩⟩
  · rw [hadvances.calls, List.getElem?_set] at hcall
    split_ifs at hcall with hij hlt
    · subst hij
      exact Or.inr (Or.inr ⟨input, c, r, hadvances, (Option.some.inj hcall).symm⟩)
    · refine Or.inl ⟨hcall, fun other heq => hij ?_⟩
      have hevent := hadvances.event.symm.trans heq
      injection hevent
  · exact Or.inl ⟨heq ▸ hcall, fun input => hnot j input⟩
  · rw [heq, List.getElem?_append] at hcall
    split_ifs at hcall with hlt
    · exact Or.inl ⟨hcall, fun input => hnot j input⟩
    · refine Or.inr (Or.inl ?_)
      have hmem := List.mem_of_getElem? hcall
      rw [List.mem_singleton.1 hmem]
      exact ⟨rfl, hfresh⟩

/-- A call before a step stays or runs a section. -/
theorem call_before_cases (h : w.step digest e = some w') {j : ℕ} {c : InstallerCall}
    (hcall : w.calls[j]? = some c) :
    (w'.calls[j]? = some c ∧ ∀ input, e ≠ .advance j input) ∨
      ∃ input r, Advances digest w e w' j input c r ∧ w'.calls[j]? = some r.state := by
  have hlt := (List.getElem?_eq_some_iff.1 hcall).1
  rcases step_cases h with ⟨i, input, d, r, hadvances⟩ | ⟨-, -, hnot, heq | ⟨d, -, -, heq⟩⟩
  · by_cases hij : i = j
    · subst hij
      obtain rfl := Option.some.inj (hadvances.call.symm.trans hcall)
      refine Or.inr ⟨input, r, hadvances, ?_⟩
      rw [hadvances.calls, List.getElem?_set_self hlt]
    · refine Or.inl ⟨?_, fun other heq => hij ?_⟩
      · rw [hadvances.calls, List.getElem?_set_ne hij, hcall]
      · have hevent := hadvances.event.symm.trans heq
        injection hevent
  · exact Or.inl ⟨heq ▸ hcall, fun input => hnot j input⟩
  · refine Or.inl ⟨?_, fun input => hnot j input⟩
    rw [heq, List.getElem?_append_left hlt, hcall]

/-- A session after a step was there before, was rewritten, or was opened with fresh ids. -/
theorem lookup_after_cases (h : w.step digest e = some w') {sessionId : Uuid}
    {session : InstallerSession} (hlookup : w'.sessions.lookup sessionId = some session) :
    w.sessions.lookup sessionId = some session ∨
      (∃ i input c r old, Advances digest w e w' i input c r ∧
        w.sessions.lookup sessionId = some old ∧ SessionEdge c sessionId old session) ∨
      ∃ i input query device job r token,
        Advances digest w e w' i input (.discover query (.booting device job)) r ∧
        token = generateSecret "easydeploymesh_installer" input.secret.1 input.secret.2 ∧
        sessionId = input.sessionId ∧ session = offeredSession digest query device job token input ∧
        sessionId ∉ w.minted ∧ sessionId ∈ w'.minted := by
  rcases step_cases h with ⟨i, input, c, r, hadvances⟩ | ⟨heq, -⟩
  · rw [hadvances.sessions] at hlookup
    rcases hadvances.edge.tableEdge.lookup_after_cases hlookup with
      hold | ⟨old, hold, hedge⟩ | ⟨query, device, job, token, rfl, htoken, rfl, hsession⟩
    · exact Or.inl hold
    · exact Or.inr (Or.inl ⟨i, input, c, r, old, hadvances, hold, hedge⟩)
    · have hminted := hadvances.edge.minted_of_booting
      refine Or.inr (Or.inr ⟨i, input, query, device, job, r, token, hadvances, htoken, rfl,
        hsession, hadvances.fresh _ ?_, ?_⟩)
      · simp [hminted]
      · simp [hadvances.minted, hminted]
  · exact Or.inl (heq ▸ hlookup)

/-- A session before a step stays, is rewritten, or is dropped by the last section of a
`discover`. -/
theorem lookup_before_cases (h : w.step digest e = some w') {sessionId : Uuid}
    {session : InstallerSession} (hminted : sessionId ∈ w.minted)
    (hlookup : w.sessions.lookup sessionId = some session) :
    w'.sessions.lookup sessionId = some session ∨
      (∃ i input c r new, Advances digest w e w' i input c r ∧
        w'.sessions.lookup sessionId = some new ∧ SessionEdge c sessionId session new) ∨
      ∃ i input query device job r,
        Advances digest w e w' i input (.discover query (.booting device job)) r ∧
        w'.sessions.lookup sessionId = none ∧
          (session.expiresAt < input.now ∨ session.jobId = job.id) := by
  rcases step_cases h with ⟨i, input, c, r, hadvances⟩ | ⟨heq, -⟩
  · have hfresh : ∀ query device job, c = .discover query (.booting device job) →
        sessionId ≠ input.sessionId := by
      rintro query device job rfl rfl
      have hlist := hadvances.edge.minted_of_booting
      exact hadvances.fresh input.sessionId (by simp [hlist]) hminted
    rw [hadvances.sessions]
    rcases hadvances.edge.tableEdge.lookup_before_cases hfresh hlookup with
      hkept | ⟨new, hnew, hedge⟩ | ⟨query, device, job, rfl, hnone, hwhy⟩
    · exact Or.inl hkept
    · exact Or.inr (Or.inl ⟨i, input, c, r, new, hadvances, hnew, hedge⟩)
    · exact Or.inr (Or.inr ⟨i, input, query, device, job, r, hadvances, hnone, hwhy⟩)
  · exact Or.inl (by rw [heq, hlookup])

/-- The last section of a `discover` drops the expired sessions and those of the offered job. -/
theorem Advances.lookup_eq_none {i : ℕ} {input : SectionInput} {query : BootQuery} {device : Device}
    {job : DeploymentJob} {r : SectionResult InstallerCall}
    (h : Advances digest w e w' i input (.discover query (.booting device job)) r)
    {sessionId : Uuid} {session : InstallerSession} (hminted : sessionId ∈ w.minted)
    (hlookup : w.sessions.lookup sessionId = some session)
    (hdropped : session.expiresAt < input.now ∨ session.jobId = job.id) :
    w'.sessions.lookup sessionId = none := by
  have hne : sessionId ≠ input.sessionId := by
    rintro rfl
    exact h.fresh input.sessionId (by simp [h.edge.minted_of_booting]) hminted
  have hprune : (w.sessions.prune job.id input.now).lookup sessionId = none := by
    refine Option.eq_none_iff_forall_ne_some.2 fun kept hkept => ?_
    obtain ⟨hkept, hcurrent, hjob⟩ := SessionTable.lookup_prune_eq_some.1 hkept
    obtain rfl := Option.some.inj (hkept.symm.trans hlookup)
    rcases hdropped with hexpired | hsame
    · exact absurd hcurrent (not_le.2 hexpired)
    · exact hjob hsame
  have hsessions := h.sessions
  cases h.edge with
  | unbound hstop | rejected hstop => simp [InstallerCall.mayStop] at hstop
  | overflowed =>
    rw [hsessions]
    exact hprune
  | opened =>
    rw [hsessions]
    exact (AList.lookup_insert_ne hne).trans hprune

end ServiceWorld

end EasyDeployMesh
