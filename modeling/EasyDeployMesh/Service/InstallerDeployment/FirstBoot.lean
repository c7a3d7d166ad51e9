import EasyDeployMesh.Service.InstallerDeployment.Attestation

/-!
# The acknowledgement of the first boot

`complete_first_boot` returns the job that has succeeded. For a session that is completed already it
returns no job and no error, since a machine may repeat its call. But `report_event` completes the
session of an attempt that has failed too, and the phase does not tell the two ends apart: the first
boot after a reported failure is acknowledged like the repetition of a success.

## Main definitions

* `EasyDeployMesh.ServiceWorld.EndsIn`: a step ends the job that runs under a lease.
* `EasyDeployMesh.ServiceWorld.Acknowledges`, `EasyDeployMesh.ServiceWorld.AcknowledgesSuccess`: the
  section that acknowledges the first boot, and the law of a run.
* `EasyDeployMesh.ServiceWorld.BootsFailedAttempt`: a machine reports the first boot of an attempt
  that has failed.

## Main results

* `EasyDeployMesh.ServiceWorld.endHistory_of_leads`: what has happened to the job of a session that
  is completed.
* `EasyDeployMesh.ServiceWorld.acknowledgesSuccess_iff`: a run obeys the law exactly when no machine
  reports the first boot of an attempt that has failed.
-/

namespace EasyDeployMesh

open Foundations

namespace ServiceWorld

variable {digest : String → String} {start w m n : ServiceWorld} {e : ServiceEvent}
  {es : List ServiceEvent} {i : ℕ} {jobId leaseId : Uuid} {job : DeploymentJob}
  {input : SectionInput} {manifestPath : String} {clock : Instant} {registry : DeviceRegistry}

/-! ### The end of an attempt -/

/-- The step moves the job, which runs under the lease, to the state. -/
def EndsIn (digest : String → String) (state : JobState) (jobId leaseId : Uuid) (w : ServiceWorld)
    (e : ServiceEvent) : Prop :=
  w.RunsUnder jobId leaseId ∧ ∃ n, w.step digest e = some n ∧
    ∃ job ∈ n.repository.repo.jobs, job.id = jobId ∧ job.state = state

/-- After its end, the attempt is over for good. -/
theorem EndsIn.lapsed {state : JobState} (hm : m.Coherent)
    (h : EndsIn digest state jobId leaseId m e) (hstate : state ≠ .running)
    (hstep : m.step digest e = some n) : n.Lapsed jobId leaseId := by
  obtain ⟨⟨old, hold, -, -, -, hlease⟩, n', hstep', job, hjob, hid, hjobState⟩ := h
  obtain rfl := Option.some.inj (hstep'.symm.trans hstep)
  have hn := hm.of_step hstep
  have hminted : leaseId ∈ m.repository.minted :=
    (hm.repository.jobs.job old hold).lease_minted leaseId hlease
  refine ⟨?_, ?_⟩
  · rcases repository_of_step hstep with ⟨-, heq⟩ | ⟨_, -, hjobs⟩
    · rwa [heq]
    · exact RepositoryWorld.minted_subset hjobs hminted
  · rintro ⟨other, hother, hotherId, -, hrunning, -⟩
    obtain rfl := hn.repository.jobs.eq_of_id_eq hother hjob (hotherId.trans hid.symm)
    exact hstate (hjobState.symm.trans hrunning)

/-- The attempt has ended in the state in the run of `es`. -/
def Ended (digest : String → String) (start : ServiceWorld) (es : List ServiceEvent)
    (state : JobState) (jobId leaseId : Uuid) : Prop :=
  Sometime (step digest) (EndsIn digest state jobId leaseId) start es

theorem not_ended_nil {state : JobState} : ¬ Ended digest start [] state jobId leaseId := by
  rintro ⟨pre, e, post, _, hes, -⟩
  simp at hes

theorem ended_concat {state : JobState} (hrun : Leads (step digest) start es m) :
    Ended digest start (es ++ [e]) state jobId leaseId ↔
      Ended digest start es state jobId leaseId ∨ EndsIn digest state jobId leaseId m e :=
  sometime_concat hrun

/-- An attempt ends once: after either end the job does not run under the lease, as it would have to
for the other. -/
private theorem ended_once (hrun : Leads (step digest) (empty manifestPath clock registry) es w) :
    (Ended digest (empty manifestPath clock registry) es .succeeded jobId leaseId ∨
        Ended digest (empty manifestPath clock registry) es .failed jobId leaseId →
      w.Lapsed jobId leaseId) ∧
    ¬ (Ended digest (empty manifestPath clock registry) es .succeeded jobId leaseId ∧
      Ended digest (empty manifestPath clock registry) es .failed jobId leaseId) := by
  induction es using List.reverseRecOn generalizing w with
  | nil => simp only [not_ended_nil, or_self, false_implies, and_self, not_false_eq_true]
  | append_singleton es e ih =>
    obtain ⟨m, hpre, hstep⟩ := leads_concat.1 hrun
    obtain ⟨hlapsed, hnot⟩ := ih hpre
    have hm := coherent_of_leads hpre
    simp only [ended_concat hpre]
    refine ⟨?_, ?_⟩
    · rintro ((hbefore | hends) | (hbefore | hends))
      · exact (hlapsed (Or.inl hbefore)).of_step hm hstep
      · exact hends.lapsed hm (by decide) hstep
      · exact (hlapsed (Or.inr hbefore)).of_step hm hstep
      · exact hends.lapsed hm (by decide) hstep
    · rintro ⟨hbefore | hends, hbefore' | hends'⟩
      · exact hnot ⟨hbefore, hbefore'⟩
      · exact (hlapsed (Or.inl hbefore)).2 hends'.1
      · exact (hlapsed (Or.inr hbefore')).2 hends.1
      · obtain ⟨-, x, hx, job, hjob, hid, hstate⟩ := hends
        obtain ⟨-, y, hy, job', hjob', hid', hstate'⟩ := hends'
        obtain rfl := Option.some.inj (hx.symm.trans hy)
        obtain rfl := (hm.of_step hx).repository.jobs.eq_of_id_eq hjob hjob' (hid.trans hid'.symm)
        exact absurd (hstate.symm.trans hstate') (by decide)

/-- An attempt that has succeeded has not failed. -/
theorem not_ended_failed (hrun : Leads (step digest) (empty manifestPath clock registry) es w)
    (h : Ended digest (empty manifestPath clock registry) es .succeeded jobId leaseId) :
    ¬ Ended digest (empty manifestPath clock registry) es .failed jobId leaseId :=
  fun hfailed => (ended_once hrun).2 ⟨h, hfailed⟩

/-- The report of an end that the repository accepts ends the attempt. -/
private theorem endsIn_of_completeInstaller {deviceId : Uuid} {succeeded : Bool}
    {message : Option String} {now later : Instant} {write : WriteOutcome}
    (hstep : m.step digest e = some n)
    (hjobs : m.repository.step (.completeInstaller jobId deviceId leaseId succeeded message now
      later write) = some n.repository)
    (hok : (m.repository.repo.completeInstaller jobId deviceId leaseId succeeded message now later
      write).1 = .ok job) :
    EndsIn digest (if succeeded then .succeeded else .failed) jobId leaseId m e := by
  obtain ⟨-, old, hold, hsame, hedge, hreplaces⟩ := JobRepository.completeInstaller_accepted hok
  have hrepo := Option.some.inj (RepositoryWorld.step_eq_some_iff.1 hjobs).2.1
  cases hedge with
  | finishInstaller hid hcheck hstate =>
    obtain ⟨hlinux, -, hrunning, hlease, -⟩ := DeploymentJob.checkInstallerLease_eq_ok_iff.1 hcheck
    exact ⟨⟨old, hold, hid, hlinux, hrunning, hlease⟩, n, hstep, job, hrepo ▸ hreplaces.mem_new,
      hsame.id.trans hid, hstate⟩

/-! ### What a completed session remembers -/

/-- What has happened in the run of `es` to the attempts that are known to be over. -/
structure EndHistory (digest : String → String) (start : ServiceWorld) (es : List ServiceEvent)
    (w : ServiceWorld) : Prop where
  /-- The attempt of a completed session has succeeded or failed. -/
  session : ∀ sessionId session, w.sessions.lookup sessionId = some session →
    session.phase = .completed → ∃ leaseId, session.leaseId = some leaseId ∧
      (Ended digest start es .succeeded session.jobId leaseId ∨
        Ended digest start es .failed session.jobId leaseId)
  /-- A `complete_first_boot` that marks its session has reported the success of its attempt. -/
  booted : ∀ (i : ℕ) call binding job,
    w.calls[i]? = some (.completeFirstBoot call (.completed binding job)) →
    binding.attemptId = call.attemptId ∧ ∃ leaseId, binding.leaseId = some leaseId ∧
      Ended digest start es .succeeded binding.jobId leaseId
  /-- A `report_event` that marks its session has reported the failure. -/
  reported : ∀ (i : ℕ) call binding job,
    w.calls[i]? = some (.reportEvent call (.reported binding job)) → call.request.kind = .failed →
    ∃ leaseId, binding.leaseId = some leaseId ∧
      Ended digest start es .failed binding.jobId leaseId

/-- A `complete_first_boot` comes to mark its session when the repository accepts the success. -/
private theorem endsIn_of_booted
    (hrun : Leads (step digest) (empty manifestPath clock registry) es m)
    (hstep : m.step digest (.advance i input) = some n) {call : FirstBootCall}
    {binding : SessionBinding}
    (hcall : n.calls[i]? = some (.completeFirstBoot call (.completed binding job))) :
    binding.attemptId = call.attemptId ∧ ∃ leaseId, binding.leaseId = some leaseId ∧
      EndsIn digest .succeeded binding.jobId leaseId m (.advance i input) := by
  obtain ⟨c, r, hc, hr, hinstall⟩ := step_advance_iff.1 hstep
  obtain ⟨-, hjobs, -, -, hcalls, -⟩ := install_eq_some_iff.1 hinstall
  rw [hcalls, List.getElem?_set_self (List.getElem?_eq_some_iff.1 hc).1] at hcall
  have hstate := Option.some.inj hcall
  have hedge := InstallerCall.sectionEdge_of_advance hr
  cases hedge with
  | unbound _ hunbound | rejected _ hunbound =>
    subst hstate
    cases hunbound
  | @completed _ _ leaseId =>
    obtain ⟨rfl, rfl, rfl⟩ : _ = call ∧ _ = binding ∧ _ = job := by
      simpa [SectionResult.ofJobs] using hstate
    have hlease := ((coherent_of_leads hrun).call i _ hc).2
    have hattempt := ((history_of_leads hrun).call i _ hc).2
    refine ⟨hattempt, leaseId, hlease, ?_⟩
    simp only [InstallerCall.advance, FirstBootState.advance] at hr
    split at hr
    · cases hr
    · rename_i updated hok
      exact endsIn_of_completeInstaller hstep hjobs hok
  | reported _ hstate' => cases hstate
  | assigned | marked | overflowed | opened | offered | replaying | claimed | checked | failedCheck
  | leased | failedLease | recorded | failedRecord | released | notReleased | replayed | reporting
  | eventCompleted | eventAwaits | completing | bootCompleted => cases hstate

/-- A `report_event` comes to mark its session when the repository accepts the event. -/
private theorem endsIn_of_reported (hm : m.Coherent)
    (hstep : m.step digest (.advance i input) = some n) {call : EventCall}
    {binding : SessionBinding}
    (hcall : n.calls[i]? = some (.reportEvent call (.reported binding job)))
    (hkind : call.request.kind = .failed) :
    ∃ leaseId, binding.leaseId = some leaseId ∧
      EndsIn digest .failed binding.jobId leaseId m (.advance i input) := by
  obtain ⟨c, r, hc, hr, hinstall⟩ := step_advance_iff.1 hstep
  obtain ⟨-, hjobs, -, -, hcalls, -⟩ := install_eq_some_iff.1 hinstall
  rw [hcalls, List.getElem?_set_self (List.getElem?_eq_some_iff.1 hc).1] at hcall
  have hstate := Option.some.inj hcall
  have hedge := InstallerCall.sectionEdge_of_advance hr
  cases hedge with
  | unbound _ hunbound | rejected _ hunbound =>
    subst hstate
    cases hunbound
  | @reported _ _ leaseId _ state jobEvent _ hnext =>
    obtain ⟨rfl, rfl⟩ : _ = call ∧ state = .reported binding job := by
      simpa [SectionResult.ofJobs] using hstate
    obtain ⟨rfl, rfl⟩ : binding = _ ∧ job = _ := by simpa using hnext
    have hlease := (hm.call i _ hc).2
    refine ⟨leaseId, hlease, ?_⟩
    simp only [InstallerCall.advance, EventState.advance, if_pos hkind] at hr
    split at hr
    · cases hr
    · rename_i updated hok
      have hevent := congrArg SectionResult.jobs (Option.some.inj hr)
      obtain rfl := Option.some.inj hevent
      exact endsIn_of_completeInstaller hstep hjobs hok
  | completed => cases hstate
  | assigned | marked | overflowed | opened | offered | replaying | claimed | checked | failedCheck
  | leased | failedLease | recorded | failedRecord | released | notReleased | replayed | reporting
  | eventCompleted | eventAwaits | completing | bootCompleted => cases hstate

/-- The section of a `report_event` that completes a session reports a failure. -/
private theorem kind_of_completed (hstep : m.step digest (.advance i input) = some n)
    {call : EventCall} {binding : SessionBinding} {old : InstallerSession}
    (hcall : m.calls[i]? = some (.reportEvent call (.reported binding job)))
    (hold : m.sessions.lookup call.sessionId = some old)
    (hnew : n.sessions.lookup call.sessionId = some { old with phase := .completed }) :
    call.request.kind = .failed ∨ old.phase = .completed := by
  by_cases hkind : call.request.kind = .failed
  · exact Or.inl hkind
  · obtain ⟨c, r, hc, hr, hinstall⟩ := step_advance_iff.1 hstep
    obtain ⟨-, -, -, hsessions, -⟩ := install_eq_some_iff.1 hinstall
    obtain rfl := Option.some.inj (hc.symm.trans hcall)
    simp only [InstallerCall.advance, EventState.advance, if_neg hkind, Option.map_some] at hr
    obtain rfl := Option.some.inj hr
    rw [hsessions] at hnew
    rcases SessionTable.setSessionPhase_cases m.sessions call.sessionId .handedOff
      .awaitingFirstBoot with ⟨session, -, -, heq⟩ | ⟨-, error, heq⟩
    · simp [SectionResult.quiet, SectionResult.map, heq] at hnew
    · simp only [SectionResult.quiet, SectionResult.map, heq] at hnew
      exact Or.inr (congrArg InstallerSession.phase (Option.some.inj (hold.symm.trans hnew)))

theorem endHistory_of_leads (hrun : Leads (step digest) (empty manifestPath clock registry) es w) :
    EndHistory digest (empty manifestPath clock registry) es w := by
  refine hrun.history ⟨by simp [empty], by simp [empty], by simp [empty]⟩ ?_
  intro pre m e n hpre hpast hstep
  have hm := coherent_of_leads hpre
  refine ⟨fun sessionId session hlookup hphase => ?_, fun i call binding job hcall => ?_,
    fun i call binding job hcall hkind => ?_⟩
  · simp only [ended_concat hpre]
    -- what was known before, of a session that was completed before or is completed by a call
    suffices h : ∃ leaseId, session.leaseId = some leaseId ∧
        (Ended digest (empty manifestPath clock registry) pre .succeeded session.jobId leaseId ∨
          Ended digest (empty manifestPath clock registry) pre .failed session.jobId leaseId) by
      obtain ⟨leaseId, hlease, hended⟩ := h
      exact ⟨leaseId, hlease, hended.imp Or.inl Or.inl⟩
    rcases lookup_after_cases hstep hlookup with
      hkept | ⟨i, input, c, r, old, hadvances, hold, hedge⟩ |
        ⟨_, _, _, _, _, _, _, -, -, -, rfl, -⟩
    · exact hpast.session sessionId session hkept hphase
    · obtain rfl := hadvances.event
      have hcall := hadvances.call
      cases hedge with
      | claimed | recorded | released | awaits => cases hphase
      | failed hc hid =>
        subst hc hid
        rcases kind_of_completed hstep hcall hold hlookup with hkind | hcompleted
        · obtain ⟨leaseId, hlease, hended⟩ := hpast.reported i _ _ _ hcall hkind
          have hreads := (hm.call i _ hcall).1.reads old hold
          exact ⟨leaseId, hreads.leaseId leaseId hlease, Or.inr (hreads.jobId ▸ hended)⟩
        · exact hpast.session _ old hold hcompleted
      | booted hc hid =>
        subst hc hid
        obtain ⟨-, leaseId, hlease, hended⟩ := hpast.booted i _ _ _ hcall
        have hreads := (hm.call i _ hcall).1.reads old hold
        exact ⟨leaseId, hreads.leaseId leaseId hlease, Or.inl (hreads.jobId ▸ hended)⟩
    · cases hphase
  · simp only [ended_concat hpre]
    rcases call_after_cases hstep hcall with ⟨hold, -⟩ | ⟨-, hfresh⟩ | ⟨input, c, r, hadvances, -⟩
    · obtain ⟨hattempt, leaseId, hlease, hended⟩ := hpast.booted i call binding job hold
      exact ⟨hattempt, leaseId, hlease, Or.inl hended⟩
    · cases hfresh
    · obtain rfl := hadvances.event
      obtain ⟨hattempt, leaseId, hlease, hends⟩ := endsIn_of_booted hpre hstep hcall
      exact ⟨hattempt, leaseId, hlease, Or.inr hends⟩
  · simp only [ended_concat hpre]
    rcases call_after_cases hstep hcall with ⟨hold, -⟩ | ⟨-, hfresh⟩ | ⟨input, c, r, hadvances, -⟩
    · obtain ⟨leaseId, hlease, hended⟩ := hpast.reported i call binding job hold hkind
      exact ⟨leaseId, hlease, Or.inl hended⟩
    · cases hfresh
    · obtain rfl := hadvances.event
      obtain ⟨leaseId, hlease, hends⟩ := endsIn_of_reported hm hstep hcall hkind
      exact ⟨leaseId, hlease, Or.inr hends⟩

/-! ### The law -/

/-- The step is the section in which the call `i` to `complete_first_boot` returns without an
error. -/
def Acknowledges (i : ℕ) (call : FirstBootCall) (e : ServiceEvent) (n : ServiceWorld) : Prop :=
  (∃ input, e = .advance i input) ∧
    ∃ result, n.calls[i]? = some (.completeFirstBoot call (.returned (.ok result)))

/-- The first boot is acknowledged only when the attempt of the session has succeeded; an attempt
that has failed is never acknowledged. -/
def AcknowledgesSuccess (digest : String → String) (start : ServiceWorld) (es : List ServiceEvent) :
    Prop :=
  ∀ pre e post m n i call, es = pre ++ e :: post → Leads (step digest) start pre m →
    m.step digest e = some n → Acknowledges i call e n →
    ∃ session leaseId, m.sessions.lookup call.sessionId = some session ∧
      session.attemptId = call.attemptId ∧ session.leaseId = some leaseId ∧
      Ended digest start pre .succeeded session.jobId leaseId ∧
      ¬ Ended digest start pre .failed session.jobId leaseId

/-- The first section of a `complete_first_boot`: the request presents the token and the attempt of
a session that is completed, and whose attempt has failed. -/
def BootsFailedAttempt (digest : String → String) (start : ServiceWorld) (pre : List ServiceEvent)
    (m : ServiceWorld) (e : ServiceEvent) : Prop :=
  ∃ i input call binding leaseId, e = .advance i input ∧
    m.calls[i]? = some (.completeFirstBoot call .start) ∧
    m.sessions.authenticateSession digest call.sessionId call.token input.now = .ok binding ∧
    binding.attemptId = call.attemptId ∧ binding.phase = .completed ∧
    binding.leaseId = some leaseId ∧ Ended digest start pre .failed binding.jobId leaseId

/-- The section that acknowledges the first boot is the first one, for a completed session, or the
last one, after the success. -/
private theorem acknowledges_cases (hstep : m.step digest (.advance i input) = some n)
    {call : FirstBootCall} {result : Option DeploymentJob}
    (hcall : n.calls[i]? = some (.completeFirstBoot call (.returned (.ok result)))) :
    (m.calls[i]? = some (.completeFirstBoot call .start) ∧ ∃ binding,
      m.sessions.authenticateSession digest call.sessionId call.token input.now = .ok binding ∧
        binding.attemptId = call.attemptId ∧ binding.phase = .completed) ∨
    ∃ binding job session, m.calls[i]? = some (.completeFirstBoot call (.completed binding job)) ∧
      m.sessions.lookup call.sessionId = some session := by
  obtain ⟨c, r, hc, hr, hinstall⟩ := step_advance_iff.1 hstep
  obtain ⟨-, -, -, -, hcalls, -⟩ := install_eq_some_iff.1 hinstall
  rw [hcalls, List.getElem?_set_self (List.getElem?_eq_some_iff.1 hc).1] at hcall
  have hstate := Option.some.inj hcall
  cases c with
  | completeFirstBoot call' state =>
    obtain ⟨r', hr', rfl⟩ := Option.map_eq_some_iff.1 hr
    obtain ⟨rfl, hresult⟩ : call' = call ∧ r'.state = .returned (.ok result) := by
      simpa [SectionResult.map] using hstate
    cases state with
    | start =>
      refine Or.inl ⟨hc, ?_⟩
      simp only [FirstBootState.advance] at hr'
      split at hr'
      · cases Option.some.inj hr'
        cases hresult
      · rename_i binding hauth
        split_ifs at hr' with hattempt
        · cases Option.some.inj hr'
          cases hresult
        · split at hr'
          · rename_i hphase
            exact ⟨binding, hauth, not_not.1 hattempt, hphase⟩
          all_goals
            cases Option.some.inj hr'
            cases hresult
    | completing binding leaseId =>
      simp only [FirstBootState.advance] at hr'
      split at hr'
      all_goals
        cases Option.some.inj hr'
        cases hresult
    | completed binding job =>
      refine Or.inr ⟨binding, job, ?_⟩
      rcases SessionTable.markSessionCompleted_cases m.sessions call'.sessionId with
        ⟨session, hlookup, -⟩ | heq
      · exact ⟨session, hc, hlookup⟩
      · simp only [FirstBootState.advance, heq] at hr'
        cases Option.some.inj hr'
        cases hresult
    | returned => cases hr'
  | discover | authorizeGuard | reportEvent | fetch =>
    obtain ⟨r', -, rfl⟩ := Option.map_eq_some_iff.1 hr
    cases hstate

/-- A machine that boots a failed attempt is acknowledged. -/
private theorem acknowledges_of_bootsFailedAttempt {pre : List ServiceEvent}
    (hboots : BootsFailedAttempt digest start pre m e) (hstep : m.step digest e = some n) :
    ∃ i call session leaseId, Acknowledges i call e n ∧
      m.sessions.lookup call.sessionId = some session ∧ session.leaseId = some leaseId ∧
      Ended digest start pre .failed session.jobId leaseId := by
  obtain ⟨i, input, call, binding, leaseId, rfl, hc, hauth, hattempt, hphase, hlease, hended⟩ :=
    hboots
  obtain ⟨-, -, session, hlookup, -, -, hbinding⟩ :=
    SessionTable.authenticateSession_eq_ok_iff.1 hauth
  obtain ⟨c, r, hc', hr, hinstall⟩ := step_advance_iff.1 hstep
  obtain ⟨-, -, -, -, hcalls, -⟩ := install_eq_some_iff.1 hinstall
  obtain rfl := Option.some.inj (hc'.symm.trans hc)
  obtain rfl := Option.some.inj (show some (SectionResult.timed m.sessions input.now
    (.completeFirstBoot call (.returned (.ok none)))) = some r by
      rw [← hr]
      simp [InstallerCall.advance, FirstBootState.advance, hauth, hattempt, hphase,
        SectionResult.timed, SectionResult.map])
  subst hbinding
  refine ⟨i, call, session, leaseId, ⟨⟨input, rfl⟩, none, ?_⟩, hlookup, hlease, hended⟩
  rw [hcalls, List.getElem?_set_self (List.getElem?_eq_some_iff.1 hc).1]
  rfl

/-- A run acknowledges the first boot only of attempts that have succeeded exactly when no machine
reports the first boot of an attempt that has failed. -/
theorem acknowledgesSuccess_iff (digest : String → String) (manifestPath : String) (clock : Instant)
    (registry : DeviceRegistry) (es : List ServiceEvent) :
    AcknowledgesSuccess digest (empty manifestPath clock registry) es ↔
      ∀ pre e post m, es = pre ++ e :: post →
        Leads (step digest) (empty manifestPath clock registry) pre m →
        (m.step digest e).isSome = true →
        ¬ BootsFailedAttempt digest (empty manifestPath clock registry) pre m e := by
  constructor
  · intro hlaw pre e post m hes hpre hsome hboots
    obtain ⟨n, hstep⟩ := Option.isSome_iff_exists.1 hsome
    obtain ⟨i, call, session, leaseId, hack, hlookup, hlease, hended⟩ :=
      acknowledges_of_bootsFailedAttempt hboots hstep
    obtain ⟨session', leaseId', hlookup', -, hlease', -, hnot⟩ :=
      hlaw pre e post m n i call hes hpre hstep hack
    obtain rfl := Option.some.inj (hlookup.symm.trans hlookup')
    obtain rfl := Option.some.inj (hlease.symm.trans hlease')
    exact hnot hended
  · rintro hnever pre e post m n i call hes hpre hstep ⟨⟨input, rfl⟩, result, hcall⟩
    have hpast := endHistory_of_leads hpre
    rcases acknowledges_cases hstep hcall with
      ⟨hc, binding, hauth, hattempt, hphase⟩ | ⟨binding, job, session, hc, hlookup⟩
    · obtain ⟨-, -, session, hlookup, -, -, rfl⟩ :=
        SessionTable.authenticateSession_eq_ok_iff.1 hauth
      obtain ⟨leaseId, hlease, hended⟩ := hpast.session call.sessionId session hlookup hphase
      have hnot : ¬ Ended digest (empty manifestPath clock registry) pre .failed session.jobId
          leaseId := fun hfailed =>
        hnever pre _ post m hes hpre (by rw [hstep, Option.isSome_some])
          ⟨i, input, call, _, leaseId, rfl, hc, hauth, hattempt, hphase, hlease, hfailed⟩
      exact ⟨session, leaseId, hlookup, hattempt, hlease, hended.resolve_right hnot, hnot⟩
    · obtain ⟨hattempt, leaseId, hlease, hended⟩ := hpast.booted i call binding job hc
      have hreads := ((coherent_of_leads hpre).call i _ hc).1.reads session hlookup
      rw [hreads.jobId] at hended
      exact ⟨session, leaseId, hlookup, hreads.attemptId.symm.trans hattempt,
        hreads.leaseId leaseId hlease, hended, not_ended_failed hpre hended⟩

/-- A failed installation: the installer reports the failure at minute 20. -/
def failedInstallEvents : List ServiceEvent :=
  .jobs (.enqueue linuxRequest 0 1 .written) :: offerEvents 0 (minutes 1) 10 ++
    guardEvents 1 10 (minutes 2) 30 ++ reportEvents 2 10 .failed (minutes 20) 40 ++
    [.advance 2 (labInput (minutes 20) 40)]

/-- The machine boots at minute 60, and reports its first boot. -/
def bootAfterFailure : List ServiceEvent :=
  failedInstallEvents ++ (firstBootEvents 3 10 (minutes 60) 50).take 1 ++
    [.advance 3 (labInput (minutes 60) 50)]

/-- The call has returned without an error. -/
def isAcknowledged : InstallerCall → Bool
  | .completeFirstBoot _ (.returned (.ok _)) => true
  | _ => false

private theorem bootAfterFailure_acknowledged :
    (runFrom (step labDigest) (empty "jobs.json" 0 labRegistry) bootAfterFailure).map
      (fun w => (w.calls[3]?).any isAcknowledged) = some true := by
  decide +kernel

private theorem bootAfterFailure_without_success :
    Along (step labDigest) (fun m e => ((m.step labDigest e).all fun n =>
        n.repository.repo.jobs.all fun job => job.state != .succeeded) = true)
      (empty "jobs.json" 0 labRegistry) bootAfterFailure := by
  decide +kernel

/-- The first boot of the failed attempt is acknowledged. -/
theorem acknowledgesSuccess_fails_of_bootAfterFailure :
    ¬ AcknowledgesSuccess labDigest (empty "jobs.json" 0 labRegistry) bootAfterFailure := by
  intro hlaw
  obtain ⟨w, hw, hend⟩ := exists_leads_of_map bootAfterFailure_acknowledged
  obtain ⟨c, hc, hack⟩ := (Option.any_eq_true _ _).1 hend
  obtain ⟨call, result, rfl⟩ :
      ∃ call result, c = .completeFirstBoot call (.returned (.ok result)) := by
    unfold isAcknowledged at hack
    split at hack
    · exact ⟨_, _, rfl⟩
    · cases hack
  obtain ⟨m, hpre, hstep⟩ := leads_concat.1 hw
  obtain ⟨_, _, -, -, -, ⟨before, e, after, x, hes, hbefore, -, n, hn, job, hjob, -, hstate⟩, -⟩ :=
    hlaw _ _ [] m w 3 call rfl hpre hstep ⟨⟨_, rfl⟩, result, hc⟩
  have hnone := bootAfterFailure_without_success before e
    (after ++ [.advance 3 (labInput (minutes 60) 50)]) x
      (by rw [bootAfterFailure, hes]; simp) hbefore
  simp only [hn, Option.all_some, List.all_eq_true] at hnone
  have hne := hnone job hjob
  rw [hstate] at hne
  cases hne

end ServiceWorld

end EasyDeployMesh
