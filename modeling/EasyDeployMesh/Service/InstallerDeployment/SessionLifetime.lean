import EasyDeployMesh.Service.InstallerDeployment.History

/-!
# The lifetime of a session and of its lease

A handed off session expires when the lease of the handoff would have expired. The progress events
of the installer renew the lease of the job, and leave the expiry of the session as it is. So the
requests of a long installation are refused while the job still holds the lease of its session: a
request is authenticated exactly until 240 minutes after the handoff.

## Main definitions

* `EasyDeployMesh.ServiceWorld.HoldsCurrentLease`: the job of a session runs under the unexpired
  lease that the session records.

## Main results

* `EasyDeployMesh.ServiceWorld.authenticated_iff_of_holdsCurrentLease`: when the requests of such a
  session are authenticated.
-/

namespace EasyDeployMesh

open Foundations

namespace ServiceWorld

variable {digest : String → String} {w : ServiceWorld} {es : List ServiceEvent} {sessionId : Uuid}
  {session : InstallerSession} {now : Instant} {manifestPath : String} {clock : Instant}
  {registry : DeviceRegistry}

/-- At the time `now`, a job runs under the lease that the session records, and the lease has not
expired. -/
structure HoldsCurrentLease (w : ServiceWorld) (sessionId : Uuid) (session : InstallerSession)
    (leaseId : Uuid) (now : Instant) : Prop where
  lookup : w.sessions.lookup sessionId = some session
  recorded : session.leaseId = some leaseId
  held : ∃ job ∈ w.repository.repo.jobs, job.state = .running ∧ job.leaseId = some leaseId ∧
    job.leaseCurrentAt now = true
  clock_le : w.repository.clock ≤ now

/-- The step offers the session with the token. -/
def OffersToken (digest : String → String) (sessionId : Uuid) (session : InstallerSession)
    (token : String) (w : ServiceWorld) (e : ServiceEvent) : Prop :=
  ∃ i input, e = .advance i input ∧ sessionId = input.sessionId ∧
    token = generateSecret "easydeploymesh_installer" input.secret.1 input.secret.2 ∧
    session.tokenDigest = digest token ∧ Opens digest sessionId session w e

/-- The token of an offer is neither empty nor too long. -/
private theorem token_admissible (first second : Uuid) :
    generateSecret "easydeploymesh_installer" first second ≠ "" ∧
      (generateSecret "easydeploymesh_installer" first second).utf8ByteSize ≤
        maxSessionTokenBytes := by
  have hsize := utf8ByteSize_generateSecret "easydeploymesh_installer" first second
  have hlabel : "easydeploymesh_installer".utf8ByteSize = 24 := by decide
  rw [hlabel] at hsize
  refine ⟨fun hempty => ?_, by rw [hsize]; decide⟩
  rw [hempty] at hsize
  exact absurd hsize (by decide)

/-- A session that records a lease was handed off at some reading of the clock, and a request that
presents its token is authenticated until 240 minutes after that reading, and has expired then. -/
theorem authenticateSession_of_handedOff
    (hrun : Leads (step digest) (empty manifestPath clock registry) es w) {leaseId : Uuid}
    (hlookup : w.sessions.lookup sessionId = some session)
    (hlease : session.leaseId = some leaseId) :
    ∃ i handoff token,
      Sometime (step digest) (Leases i sessionId session.jobId leaseId handoff)
        (empty manifestPath clock registry) es ∧
      Sometime (step digest) (OffersToken digest sessionId session token)
        (empty manifestPath clock registry) es ∧
      ∀ now, w.sessions.authenticateSession digest sessionId token now =
        if now ≤ handoff + minutes installerLeaseMinutes then .ok (session.binding sessionId)
        else .error .expired := by
  have hpast := (history_of_leads hrun).session sessionId session hlookup
  obtain ⟨i, handoff, hleased, hexpiry⟩ := hpast.leased leaseId hlease
  obtain ⟨pre, e, post, m, hes, hm, hopens⟩ := hpast.opened
  obtain ⟨j, input, query, device, job, token, he, hcall, hid, htoken, hsame⟩ := id hopens
  have hdigest : session.tokenDigest = digest token := hsame.tokenDigest
  refine ⟨i, handoff, token, hleased,
    ⟨pre, e, post, m, hes, hm, j, input, he, hid, htoken, hdigest, hopens⟩, fun now => ?_⟩
  have hadmissible := token_admissible input.secret.1 input.secret.2
  rw [← htoken] at hadmissible
  have hempty : (token.isEmpty || decide (maxSessionTokenBytes < token.utf8ByteSize)) = false := by
    simpa using hadmissible
  have hmatch : secretMatches digest session.tokenDigest token = true := by
    simp [secretMatches, hdigest]
  unfold SessionTable.authenticateSession
  rw [hempty, hlookup]
  dsimp only
  rw [hmatch, hexpiry]
  by_cases hnow : now ≤ handoff + minutes installerLeaseMinutes
  · simp only [hnow, not_lt.2 hnow, if_true, if_false, Bool.not_true, Bool.false_eq_true]
  · simp only [hnow, not_le.1 hnow, if_true, if_false, Bool.not_true, Bool.false_eq_true]

/-- While the job of a session runs under the unexpired lease that the session records, a request
that presents the token of the session is authenticated exactly until 240 minutes after the
handoff. -/
theorem authenticated_iff_of_holdsCurrentLease
    (hrun : Leads (step digest) (empty manifestPath clock registry) es w) {leaseId : Uuid}
    (hholds : w.HoldsCurrentLease sessionId session leaseId now) :
    ∃ i handoff token,
      Sometime (step digest) (Leases i sessionId session.jobId leaseId handoff)
        (empty manifestPath clock registry) es ∧
      Sometime (step digest) (OffersToken digest sessionId session token)
        (empty manifestPath clock registry) es ∧
      (w.sessions.authenticateSession digest sessionId token now = .ok (session.binding sessionId) ↔
        now ≤ handoff + minutes installerLeaseMinutes) := by
  obtain ⟨i, handoff, token, hleased, hoffered, hauth⟩ :=
    authenticateSession_of_handedOff hrun hholds.lookup hholds.recorded
  refine ⟨i, handoff, token, hleased, hoffered, ?_⟩
  rw [hauth now]
  split_ifs with hnow
  · simp [hnow]
  · simp [hnow]

/-- A long installation: the guard leases the job at minute 2, and the installer reports progress at
minute 200. -/
def longInstallEvents : List ServiceEvent :=
  .jobs (.enqueue linuxRequest 0 1 .written) :: offerEvents 0 (minutes 1) 10 ++
    guardEvents 1 10 (minutes 2) 30 ++ reportEvents 2 10 .installingSystem (minutes 200) 40

/-- At the end, the lease of the running job holds past minute 300, and a request of its session has
expired then. -/
private theorem longInstallEvents_end :
    (runFrom (step labDigest) (empty "jobs.json" 0 labRegistry) longInstallEvents).map
        (fun w => (w.repository.repo.jobs.any fun job => job.state == .running &&
            (job.leaseId == some 30 && job.leaseCurrentAt (minutes 300)),
          (w.sessions.lookup 11).map fun session => (session.leaseId, session.tokenDigest),
          decide (w.sessions.authenticateSession labDigest 11 (labGuard 10).token (minutes 300) =
            .error .expired),
          decide (w.repository.clock ≤ minutes 300))) =
      some (true, some (some 30, labDigest (labGuard 10).token), true, true) := by
  decide +kernel

private theorem exists_holdsCurrentLease_of_longInstallEvents :
    ∃ w session, Leads (step labDigest) (empty "jobs.json" 0 labRegistry) longInstallEvents w ∧
      w.HoldsCurrentLease 11 session 30 (minutes 300) ∧
      labDigest (labGuard 10).token = session.tokenDigest ∧
      w.sessions.authenticateSession labDigest 11 (labGuard 10).token (minutes 300) =
        .error .expired := by
  obtain ⟨w, hw, hend⟩ := exists_leads_of_map longInstallEvents_end
  obtain ⟨hjobs, hend⟩ := Prod.mk.inj hend
  obtain ⟨hsession, hend⟩ := Prod.mk.inj hend
  obtain ⟨hauth, hclock⟩ := Prod.mk.inj hend
  obtain ⟨session, hlookup, heq⟩ := Option.map_eq_some_iff.1 hsession
  obtain ⟨hlease, htoken⟩ := Prod.mk.inj heq
  have hheld : ∃ job ∈ w.repository.repo.jobs, job.state = .running ∧ job.leaseId = some 30 ∧
      job.leaseCurrentAt (minutes 300) = true := by
    simpa only [List.any_eq_true, Bool.and_eq_true, beq_iff_eq] using hjobs
  exact ⟨w, session, hw, ⟨hlookup, hlease, hheld, of_decide_eq_true hclock⟩, htoken.symm,
    of_decide_eq_true hauth⟩

/-- An accepted event renews the lease of the job until minute 440, and a request that presents the
token of the session at minute 300 is refused as expired. -/
theorem authenticated_fails_of_longInstall :
    ∃ w session, Leads (step labDigest) (empty "jobs.json" 0 labRegistry) longInstallEvents w ∧
      w.HoldsCurrentLease 11 session 30 (minutes 300) ∧
      labDigest (labGuard 10).token = session.tokenDigest ∧
      w.sessions.authenticateSession labDigest 11 (labGuard 10).token (minutes 300) =
        .error .expired :=
  exists_holdsCurrentLease_of_longInstallEvents

theorem authenticated_iff_longInstallEvents :
    ∃ (w : ServiceWorld) (session : InstallerSession),
      w.HoldsCurrentLease 11 session 30 (minutes 300) ∧ ∃ i handoff token,
      Sometime (step labDigest) (Leases i 11 session.jobId 30 handoff)
        (empty "jobs.json" 0 labRegistry) longInstallEvents ∧
      Sometime (step labDigest) (OffersToken labDigest 11 session token)
        (empty "jobs.json" 0 labRegistry) longInstallEvents ∧
      (w.sessions.authenticateSession labDigest 11 token (minutes 300) =
          .ok (session.binding 11) ↔
        minutes 300 ≤ handoff + minutes installerLeaseMinutes) := by
  obtain ⟨w, session, hw, hholds, -⟩ := exists_holdsCurrentLease_of_longInstallEvents
  exact ⟨w, session, hholds, authenticated_iff_of_holdsCurrentLease hw hholds⟩

end ServiceWorld

end EasyDeployMesh
