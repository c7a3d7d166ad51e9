import EasyDeployMesh.Service.InstallerDeployment.Invariant

/-!
# The phases of a session

A session moves forward through its phases, from the offer to the completion; only a guard whose
authorization is refused moves its session back, from `authorizing` to `offered`. There is one
session for a job, since an offer drops the earlier session of its job, and a session records a
lease exactly from its handoff on.

## Main definitions

* `EasyDeployMesh.InstallerSessionPhase.rank`, `EasyDeployMesh.InstallerSessionPhase.Precedes`: the
  order of the phases, without and with the way back.
* `EasyDeployMesh.ServiceWorld.SessionsWellFormed`: the law of a run.

## Main results

* `EasyDeployMesh.ServiceWorld.later_of_leads`: the same session at two instants of a run.
* `EasyDeployMesh.ServiceWorld.sessionsWellFormed_empty`: every run obeys the law.
-/

namespace EasyDeployMesh

open Foundations

/-! ### The order of the phases -/

namespace InstallerSessionPhase

/-- The place of a phase in the order. -/
def rank : InstallerSessionPhase → ℕ
  | offered => 0
  | authorizing => 1
  | handedOff => 2
  | awaitingFirstBoot => 3
  | completed => 4

/-- A session in the phase `p` may be in the phase `q` later. -/
def Precedes (p q : InstallerSessionPhase) : Prop :=
  p.rank ≤ q.rank ∨ p = authorizing ∧ q = offered

theorem Precedes.refl (p : InstallerSessionPhase) : p.Precedes p := Or.inl (le_refl _)

theorem Precedes.trans {p q r : InstallerSessionPhase} (h : p.Precedes q) (h' : q.Precedes r) :
    p.Precedes r := by
  rcases h with hle | ⟨rfl, rfl⟩
  · rcases h' with hle' | ⟨rfl, rfl⟩
    · exact Or.inl (hle.trans hle')
    · -- only the phases up to `authorizing` come before the way back
      cases p with
      | offered => exact Or.inl (le_refl _)
      | authorizing => exact Or.inr ⟨rfl, rfl⟩
      | handedOff | awaitingFirstBoot | completed => exact absurd hle (by decide)
  · rcases h' with hle' | ⟨hphase, -⟩
    · cases r with
      | offered => exact Or.inr ⟨rfl, rfl⟩
      | authorizing | handedOff | awaitingFirstBoot | completed => exact Or.inl (by decide)
    · cases hphase

theorem rank_le_completed (p : InstallerSessionPhase) : p.rank ≤ completed.rank := by
  cases p <;> decide

end InstallerSessionPhase

/-- A call moves the phase of a session forward, or it is a guard that has been refused. -/
theorem SessionEdge.phase_cases {c : InstallerCall} {sessionId : Uuid} {old new : InstallerSession}
    (h : SessionEdge c sessionId old new) :
    old.phase.rank ≤ new.phase.rank ∨
      (old.phase = .authorizing ∧ new.phase = .offered) ∧
        ∃ call binding error, c = .authorizeGuard call (.refused binding error) ∧
          call.sessionId = sessionId := by
  cases h with
  | claimed _ _ hphase => exact Or.inl (by simp [hphase, InstallerSessionPhase.rank])
  | recorded _ _ hphase => exact Or.inl (by simp [hphase, InstallerSessionPhase.rank])
  | released hc hid hphase => exact Or.inr ⟨⟨hphase, rfl⟩, _, _, _, hc, hid⟩
  | awaits _ _ hphase => exact Or.inl (by simp [hphase, InstallerSessionPhase.rank])
  | failed => exact Or.inl (InstallerSessionPhase.rank_le_completed _)
  | booted => exact Or.inl (InstallerSessionPhase.rank_le_completed _)

namespace ServiceWorld

variable {digest : String → String} {m n w : ServiceWorld} {e : ServiceEvent}
  {es : List ServiceEvent} {sessionId : Uuid} {old new : InstallerSession}
  {manifestPath : String} {clock : Instant} {registry : DeviceRegistry}

/-! ### One session at two instants -/

/-- A step moves the phase of a session forward, or it is the last section of a refused guard. -/
theorem phase_of_step (hstep : m.step digest e = some n) (hminted : sessionId ∈ m.minted)
    (hold : m.sessions.lookup sessionId = some old)
    (hnew : n.sessions.lookup sessionId = some new) :
    SameOffer old new ∧ (old.phase.rank ≤ new.phase.rank ∨
      (old.phase = .authorizing ∧ new.phase = .offered) ∧
        ∃ i input call binding error, e = .advance i input ∧
          m.calls[i]? = some (.authorizeGuard call (.refused binding error)) ∧
          call.sessionId = sessionId) := by
  rcases lookup_before_cases hstep hminted hold with
    hkept | ⟨i, input, c, r, other, hadvances, hother, hedge⟩ | ⟨_, _, _, _, _, _, -, hnone, -⟩
  · obtain rfl := Option.some.inj (hnew.symm.trans hkept)
    exact ⟨.refl _, Or.inl (le_refl _)⟩
  · obtain rfl := Option.some.inj (hnew.symm.trans hother)
    refine ⟨hedge.sameOffer, ?_⟩
    rcases hedge.phase_cases with hle | ⟨hphases, call, binding, error, rfl, hid⟩
    · exact Or.inl hle
    · exact Or.inr ⟨hphases, i, input, call, binding, error, hadvances.event, hadvances.call, hid⟩
  · rw [hnone] at hnew
    cases hnew

/-- The same session at two instants of a run. -/
theorem later_of_leads (hm : m.Coherent) (hrun : Leads (step digest) m es w)
    (hold : m.sessions.lookup sessionId = some old)
    (hnew : w.sessions.lookup sessionId = some new) :
    SameOffer old new ∧ old.phase.Precedes new.phase := by
  have hend := hrun.invariant (I := fun x => x.Coherent ∧ sessionId ∈ x.minted ∧
    ∀ session, x.sessions.lookup sessionId = some session →
      SameOffer old session ∧ old.phase.Precedes session.phase) ⟨hm, ?_, ?_⟩ ?_
  · exact hend.2.2 new hnew
  · exact (hm.session sessionId old hold).minted
  · intro session hsession
    obtain rfl := Option.some.inj (hold.symm.trans hsession)
    exact ⟨.refl _, .refl _⟩
  · rintro x e y ⟨hx, hminted, hsessions⟩ hstep
    refine ⟨hx.of_step hstep, minted_subset hstep hminted, fun session hsession => ?_⟩
    -- the id was minted before, so the session is none that the step opens
    obtain ⟨before, hbefore⟩ : ∃ before, x.sessions.lookup sessionId = some before := by
      rcases lookup_after_cases hstep hsession with
        hkept | ⟨_, _, _, _, before, -, hbefore, -⟩ | ⟨_, _, _, _, _, _, _, -, -, -, -, hfresh, -⟩
      · exact ⟨session, hkept⟩
      · exact ⟨before, hbefore⟩
      · exact absurd hminted hfresh
    obtain ⟨hoffer, hprecedes⟩ := hsessions before hbefore
    obtain ⟨hoffer', hphase⟩ := phase_of_step hstep hminted hbefore hsession
    refine ⟨hoffer.trans hoffer', hprecedes.trans ?_⟩
    rcases hphase with hle | ⟨hback, -⟩
    · exact Or.inl hle
    · exact Or.inr hback

/-! ### One session for a job -/

/-- No two sessions are of one job. -/
def JobsDistinct (sessions : SessionTable) : Prop :=
  ∀ a b s t, sessions.lookup a = some s → sessions.lookup b = some t → s.jobId = t.jobId → a = b

theorem JobsDistinct.prune {sessions : SessionTable} (h : JobsDistinct sessions) (jobId : Uuid)
    (now : Instant) : JobsDistinct (sessions.prune jobId now) := by
  intro a b s t ha hb heq
  exact h a b s t (SessionTable.lookup_prune_eq_some.1 ha).1
    (SessionTable.lookup_prune_eq_some.1 hb).1 heq

/-- A session of a job that no other session is of may be put into the table. -/
theorem JobsDistinct.insert {sessions : SessionTable} (h : JobsDistinct sessions)
    {session : InstallerSession}
    (hother : ∀ a s, a ≠ sessionId → sessions.lookup a = some s → s.jobId ≠ session.jobId) :
    JobsDistinct (sessions.insert sessionId session) := by
  intro a b s t ha hb heq
  by_cases hsa : a = sessionId
  · subst hsa
    rw [AList.lookup_insert] at ha
    obtain rfl := Option.some.inj ha
    by_contra hne
    rw [AList.lookup_insert_ne (Ne.symm hne)] at hb
    exact hother b t (Ne.symm hne) hb heq.symm
  · rw [AList.lookup_insert_ne hsa] at ha
    by_cases hsb : b = sessionId
    · subst hsb
      rw [AList.lookup_insert] at hb
      obtain rfl := Option.some.inj hb
      exact absurd heq (hother a s hsa ha)
    · rw [AList.lookup_insert_ne hsb] at hb
      exact h a b s t ha hb heq

theorem TableEdge.jobsDistinct {sessions sessions' : SessionTable} {input : SectionInput}
    {c : InstallerCall} (h : TableEdge digest sessions input c sessions')
    (hdistinct : JobsDistinct sessions) : JobsDistinct sessions' := by
  cases h with
  | kept => exact hdistinct
  | @rewritten sessionId old new hlookup hedge =>
    refine hdistinct.insert fun a s hne hs heq => hne ?_
    exact hdistinct a sessionId s old hs hlookup (heq.trans hedge.sameOffer.jobId)
  | pruned => exact hdistinct.prune _ _
  | @opened query device job token hc htoken =>
    refine (hdistinct.prune _ _).insert fun a s hne hs => ?_
    exact (SessionTable.lookup_prune_eq_some.1 hs).2.2

theorem jobsDistinct_of_leads
    (hrun : Leads (step digest) (empty manifestPath clock registry) es w) :
    JobsDistinct w.sessions := by
  refine hrun.invariant (I := fun x => JobsDistinct x.sessions) ?_ ?_
  · simp [JobsDistinct, empty]
  · intro x e y hx hstep
    rcases step_cases hstep with ⟨i, input, c, r, hadvances⟩ | ⟨heq, -⟩
    · rw [hadvances.sessions]
      exact TableEdge.jobsDistinct hadvances.edge.tableEdge hx
    · rwa [heq]

/-! ### The law -/

/-- The law of the sessions along the run of `es`. -/
structure SessionsWellFormed (digest : String → String) (start : ServiceWorld)
    (es : List ServiceEvent) : Prop where
  one_per_job : ∀ pre post m, es = pre ++ post → Leads (step digest) start pre m →
    ∀ a b s t, m.sessions.lookup a = some s → m.sessions.lookup b = some t →
      s.jobId = t.jobId → a = b
  lease_iff : ∀ pre post m, es = pre ++ post → Leads (step digest) start pre m →
    ∀ sessionId session, m.sessions.lookup sessionId = some session →
      (session.leaseId.isSome = true ↔ session.phase = .handedOff ∨
        session.phase = .awaitingFirstBoot ∨ session.phase = .completed)
  /-- A step moves no session back, but for a guard that has been refused. -/
  phase_step : ∀ pre e post m n, es = pre ++ e :: post → Leads (step digest) start pre m →
    m.step digest e = some n → ∀ sessionId old new, m.sessions.lookup sessionId = some old →
    n.sessions.lookup sessionId = some new →
    old.phase.rank ≤ new.phase.rank ∨ (old.phase = .authorizing ∧ new.phase = .offered) ∧
      ∃ i input call binding error, e = .advance i input ∧
        m.calls[i]? = some (.authorizeGuard call (.refused binding error)) ∧
        call.sessionId = sessionId
  /-- From one instant of its life to any later one, a session moves forward, but for the way back
  from `authorizing` to `offered`. -/
  phase_life : ∀ pre mid post m n, es = pre ++ mid ++ post → Leads (step digest) start pre m →
    Leads (step digest) m mid n → ∀ sessionId old new, m.sessions.lookup sessionId = some old →
    n.sessions.lookup sessionId = some new → old.phase.Precedes new.phase

/-- Every run from the empty service obeys the law of the sessions. -/
theorem sessionsWellFormed_empty (digest : String → String) (manifestPath : String)
    (clock : Instant) (registry : DeviceRegistry) (es : List ServiceEvent) :
    SessionsWellFormed digest (empty manifestPath clock registry) es where
  one_per_job _ _ _ _ hpre := jobsDistinct_of_leads hpre
  lease_iff pre post m _ hpre sessionId session hlookup := by
    have hnone := ((coherent_of_leads hpre).session sessionId session hlookup).lease_none_iff
    rw [Option.isSome_iff_ne_none, ne_eq, hnone]
    cases session.phase <;> decide
  phase_step pre e post m n _ hpre hstep sessionId old new hold hnew :=
    (phase_of_step hstep ((coherent_of_leads hpre).session sessionId old hold).minted hold hnew).2
  phase_life pre mid post m n _ hpre hmid sessionId old new hold hnew :=
    (later_of_leads (coherent_of_leads hpre) hmid hold hnew).2

end ServiceWorld

end EasyDeployMesh
