import EasyDeployMesh.Agent.Completion
import EasyDeployMesh.Agent.ExecutionSafety

/-!
# The loop of the Agent

`run` of `crates/agent/src/main.rs` registers the machine, sends heartbeats and claims jobs, and
`execute_lease` deploys a job, reports its result until the report is confirmed, and restarts the
machine after a success. Here is a whole run, whatever the host, the machine and the processes
answer. The settings have been read, the delays are left out, and `collect_inventory` is part of the
answer to the call that needs it.

The trace of a run has what the Agent asks and what it hears, one behind the other. What an event
must follow is said of the trace alone.

## Main definitions

* `EasyDeployMesh.runAgent`: the loop.
* `EasyDeployMesh.Duty`, `EasyDeployMesh.duty`: what the Agent has to do next about a lease.
* `EasyDeployMesh.Orderly`: every event follows those before it.

## Main results

* `EasyDeployMesh.orderly_runAgent`: every run is orderly.
* `EasyDeployMesh.deployed_of_reported`: an orderly Agent reports a success only of a deployment
  that has succeeded.
-/

namespace EasyDeployMesh

open Foundations Dialogue

/-! ### The Agent and the host -/

/-- Why the Agent stops. -/
inductive AgentError
  /-- The completion of a job could not be confirmed. -/
  | unconfirmed (jobId : Uuid) (source : RequestError)
  | rebootCommand (source : String)
  | rebootFailed
  deriving DecidableEq

/-- What the Agent asks, each time with what it hears right behind it. -/
inductive AgentEvent
  | register
  | registered (result : Except String AgentRegistration)
  | heartbeat (registration : AgentRegistration)
  /-- Whether the inventory of an accepted heartbeat has disks. -/
  | acknowledged (inventoryHasDisks : Except String Bool)
  | claim (registration : AgentRegistration)
  | claimed (result : Except RequestError (Option AgentJobLease))
  /-- The inventory that the deployment of a lease begins with. -/
  | inspected (lease : AgentJobLease) (disks : Except String (List Disk))
  /-- A deployment has ended with the result, and has left the world. -/
  | finished (lease : AgentJobLease) (deviceToken : String) (disks : List Disk)
    (result : Except String Unit) (after : ExecutionWorld)
  | complete (registration : AgentRegistration) (jobId : Uuid) (completion : AgentJobCompletion)
  | completed (response : Except RequestError Unit)
  | reboot
  | rebooted (succeeded : Except String Bool)

/-- What the Agent is answered. -/
inductive AgentAnswer
  | registration (result : Except String AgentRegistration)
  | heartbeat (inventoryHasDisks : Except String Bool)
  | lease (result : Except RequestError (Option AgentJobLease))
  | disks (result : Except String (List Disk))
  /-- Everything that a deployment is answered. -/
  | deployment (answers : List ExecutionAnswer)
  | completion (result : Except RequestError Unit)
  | reboot (succeeded : Except String Bool)

namespace AgentAnswer

/-- The answer to a registration. -/
def asRegistration : AgentAnswer → Option (Except String AgentRegistration)
  | registration result => some result
  | _ => none

/-- The answer to a heartbeat. -/
def asHeartbeat : AgentAnswer → Option (Except String Bool)
  | heartbeat inventoryHasDisks => some inventoryHasDisks
  | _ => none

/-- The answer to a claim. -/
def asLease : AgentAnswer → Option (Except RequestError (Option AgentJobLease))
  | lease result => some result
  | _ => none

/-- The disks of the machine. -/
def asDisks : AgentAnswer → Option (Except String (List Disk))
  | disks result => some result
  | _ => none

/-- The answers to a deployment. -/
def asDeployment : AgentAnswer → Option (List ExecutionAnswer)
  | deployment answers => some answers
  | _ => none

/-- The answer to a report. -/
def asCompletion : AgentAnswer → Option (Except RequestError Unit)
  | completion result => some result
  | _ => none

/-- Whether the restart could be started. -/
def asReboot : AgentAnswer → Option (Except String Bool)
  | reboot succeeded => some succeeded
  | _ => none

end AgentAnswer

/-- A program of the Agent, over the trace of its run. -/
abbrev AgentProgram := Dialogue AgentError AgentAnswer (List AgentEvent)

/-- The trace goes on with an event. -/
def note (event : AgentEvent) : AgentProgram Unit := act fun trace => trace ++ [event]

/-- An answer, which becomes an event. -/
def listen {α : Type} (kind : AgentAnswer → Option α) (heard : α → AgentEvent) :
    AgentProgram α := do
  let answer ← hear kind
  note (heard answer)
  pure answer

/-- A question and its answer. -/
def exchange {α : Type} (asked : AgentEvent) (kind : AgentAnswer → Option α)
    (heard : α → AgentEvent) : AgentProgram α := do
  note asked
  listen kind heard

/-! ### A lease -/

section Lease

variable (sha256 : List UInt8 → String) (inflate : List UInt8 → Option (List UInt8))
  (message : ExecutionError → String) (server : String)

/-- The end of a deployment, if it comes to an end with these answers. -/
def deploymentEnd (lease : AgentJobLease) (disks : List Disk) (deviceToken : String)
    (answers : List ExecutionAnswer) : Option (Except String Unit × ExecutionWorld) :=
  match execute sha256 inflate lease disks server deviceToken (.start, answers) with
  | .ok () t => some (.ok (), t.1)
  | .error (.failed error) t => some (.error (message error), t.1)
  | .error .waiting _ => none

/-- The deployment in `execute_lease`, with the inventory before it. -/
def deployLease (lease : AgentJobLease) (deviceToken : String) :
    AgentProgram (Except String Unit) := do
  match ← listen AgentAnswer.asDisks (.inspected lease) with
  | .error error => pure (.error error)
  | .ok disks => do
    let (result, after) ← hear fun answer => answer.asDeployment.bind
      (deploymentEnd sha256 inflate message server lease disks deviceToken)
    note (.finished lease deviceToken disks result after)
    pure result

/-- One pass of the loop that reports the result. -/
def completionPass (registration : AgentRegistration) (lease : AgentJobLease)
    (result : Except String Unit) : AgentProgram (Unit ⊕ Unit) := do
  let response ← exchange (.complete registration lease.jobId (lease.completion result))
    AgentAnswer.asCompletion .completed
  match reportPass result response with
  | .reporting => pure (.inl ())
  | .unconfirmed error => fail (.unconfirmed lease.jobId error)
  | .deploying | .rebooting | .continuing => pure (.inr ())

/-- `execute_lease`. -/
def executeLease (registration : AgentRegistration) (lease : AgentJobLease) :
    AgentProgram Unit := do
  let result ← deployLease sha256 inflate message server lease registration.deviceToken
  loop (fun _ => completionPass registration lease result) ()
  if result.isOk then do
    match ← exchange .reboot AgentAnswer.asReboot .rebooted with
    | .error source => fail (.rebootCommand source)
    | .ok false => fail .rebootFailed
    | .ok true => pure ()
  else pure ()

/-! ### The loop -/

/-- `claim_job_if_disk_available`. -/
def claimJobIfDiskAvailable (registration : AgentRegistration) (inventoryHasDisks : Bool) :
    AgentProgram (Except RequestError (Option AgentJobLease)) :=
  if inventoryHasDisks then exchange (.claim registration) AgentAnswer.asLease .claimed
  else pure (.ok none)

/-- One pass of the two loops of `run`: a registration, or a heartbeat of a registered machine and
what follows it. -/
def agentPass (once : Bool) :
    Option AgentRegistration → AgentProgram (Option AgentRegistration ⊕ Unit)
  | none => do
    match ← exchange .register AgentAnswer.asRegistration .registered with
    | .error _ => pure (.inl none)
    | .ok registration => pure (.inl (some registration))
  | some registration => do
    match ← exchange (.heartbeat registration) AgentAnswer.asHeartbeat .acknowledged with
    | .error _ => pure (.inl none)
    | .ok inventoryHasDisks =>
      if once then pure (.inr ())
      else do
        match ← claimJobIfDiskAvailable registration inventoryHasDisks with
        | .error _ => pure (.inl none)
        | .ok none => pure (.inl (some registration))
        | .ok (some lease) => do
          executeLease sha256 inflate message server registration lease
          pure (.inl (some registration))

/-- `run`. -/
def runAgent (once : Bool) : AgentProgram Unit :=
  loop (agentPass sha256 inflate message server once) none

end Lease

/-! ### Every pass hears an answer -/

section Hearing

variable {sha256 : List UInt8 → String} {inflate : List UInt8 → Option (List UInt8)}
  {message : ExecutionError → String} {server deviceToken : String}
  {registration : AgentRegistration} {lease : AgentJobLease} {result : Except String Unit}
  {once : Bool}

private theorem hears_note {event : AgentEvent} : Hears (fun _ => False) (note event) :=
  Hears.act id

private theorem hears_listen {α : Type} {kind : AgentAnswer → Option α} {heard : α → AgentEvent} :
    Hears (fun _ => True) (listen kind heard) :=
  Hears.bind_of_first (q := fun _ => False) Hears.hear fun _ =>
    Hears.bind hears_note fun _ => Hears.pure id

private theorem hears_exchange {α : Type} {asked : AgentEvent} {kind : AgentAnswer → Option α}
    {heard : α → AgentEvent} : Hears (fun _ => True) (exchange asked kind heard) :=
  Hears.bind hears_note fun _ => hears_listen

private theorem hears_completionPass :
    Hears (fun _ => True) (completionPass registration lease result) := by
  refine Hears.bind_of_first (q := fun _ => False) hears_exchange fun response => ?_
  cases reportPass result response with
  | reporting => exact Hears.pure id
  | unconfirmed error => exact Hears.fail
  | deploying | rebooting | continuing => exact Hears.pure id

theorem goesOnHearing_completionPass :
    GoesOnHearing fun _ => completionPass registration lease result :=
  fun _ => hears_completionPass.mono fun _ _ => trivial

private theorem hears_deployLease : Hears (fun _ => False)
    (deployLease sha256 inflate message server lease deviceToken) := by
  refine Hears.bind hears_listen fun disks => ?_
  cases disks with
  | error error => exact Hears.pure id
  | ok disks =>
    exact Hears.bind (p := fun _ => False) Hears.hear fun _ =>
      Hears.bind hears_note fun _ => Hears.pure id

private theorem hears_executeLease : Hears (fun _ => False)
    (executeLease sha256 inflate message server registration lease) := by
  refine Hears.bind hears_deployLease fun result => Hears.bind (q := fun _ => False)
    (Hears.loop (p := fun _ => True) (fun _ => hears_completionPass.mono fun _ _ => trivial) ())
    fun _ => ?_
  split_ifs
  · refine Hears.bind hears_exchange fun answer => ?_
    rcases answer with source | _ | _
    · exact Hears.fail
    · exact Hears.fail
    · exact Hears.pure id
  · exact Hears.pure id

private theorem hears_claimJobIfDiskAvailable {inventoryHasDisks : Bool} :
    Hears (fun _ => False) (claimJobIfDiskAvailable registration inventoryHasDisks) := by
  unfold claimJobIfDiskAvailable
  split_ifs
  · exact hears_exchange.mono fun _ _ => trivial
  · exact Hears.pure id

theorem goesOnHearing_agentPass :
    GoesOnHearing (agentPass sha256 inflate message server once) := by
  intro registration
  cases registration with
  | none =>
    refine Hears.bind_of_first (q := fun _ => False) hears_exchange fun answer => ?_
    cases answer with
    | error error => exact Hears.pure id
    | ok registration => exact Hears.pure id
  | some registration =>
    refine Hears.bind_of_first (q := fun _ => False) hears_exchange fun answer => ?_
    cases answer with
    | error error => exact Hears.pure id
    | ok inventoryHasDisks =>
      cases once with
      | true => exact Hears.pure id
      | false =>
        refine Hears.bind hears_claimJobIfDiskAvailable fun answer => ?_
        rcases answer with error | _ | lease
        · exact Hears.pure id
        · exact Hears.pure id
        · exact Hears.bind hears_executeLease fun _ => Hears.pure id

/-- The report is repeated as long as an error may pass. -/
theorem loop_completionPass : loop (fun _ => completionPass registration lease result) () = (do
    match ← completionPass registration lease result with
    | .inl b => loop (fun _ => completionPass registration lease result) b
    | .inr a => pure a) := by
  conv_lhs => rw [loop_eq goesOnHearing_completionPass]
  refine congrArg (completionPass registration lease result >>= ·) (funext fun r => ?_)
  cases r <;> rfl

/-- The Agent goes on until a pass ends or stops it. -/
theorem loop_agentPass (registration : Option AgentRegistration) :
    loop (agentPass sha256 inflate message server once) registration = (do
      match ← agentPass sha256 inflate message server once registration with
      | .inl registration => loop (agentPass sha256 inflate message server once) registration
      | .inr a => pure a) := by
  conv_lhs => rw [loop_eq goesOnHearing_agentPass]
  refine congrArg (agentPass sha256 inflate message server once registration >>= ·)
    (funext fun r => ?_)
  cases r <;> rfl

end Hearing

/-! ### What the trace says -/

/-- What the Agent has to do next about a lease. -/
inductive Duty
  | free
  | leased (lease : AgentJobLease)
  /-- The result of a deployment is not confirmed yet. -/
  | owing (lease : AgentJobLease) (result : Except String Unit)
  /-- A success is confirmed. -/
  | rebooting

/-- What an event makes of the duty. -/
def dutyAfter : Duty → AgentEvent → Duty
  | _, .claimed (.ok (some lease)) => .leased lease
  | _, .inspected lease (.error error) => .owing lease (.error error)
  | _, .finished lease _ _ result _ => .owing lease result
  | .owing _ (.ok ()), .completed (.ok ()) => .rebooting
  | .owing _ (.error _), .completed (.ok ()) => .free
  | .rebooting, .rebooted (.ok true) => .free
  | duty, _ => duty

/-- The duty after a trace. -/
def duty (trace : List AgentEvent) : Duty := trace.foldl dutyAfter .free

/-- The registration that an event gives to the Agent or takes from it. -/
def registrationAfter : Option AgentRegistration → AgentEvent → Option AgentRegistration
  | _, .registered (.ok registration) => some registration
  | _, .acknowledged (.error _) => none
  | _, .claimed (.error _) => none
  | registration, _ => registration

/-- The registration of the Agent after a trace. -/
def registrationOf (trace : List AgentEvent) : Option AgentRegistration :=
  trace.foldl registrationAfter none

theorem duty_concat (trace : List AgentEvent) (event : AgentEvent) :
    duty (trace ++ [event]) = dutyAfter (duty trace) event := by
  rw [duty, List.foldl_concat]
  rfl

theorem registrationOf_concat (trace : List AgentEvent) (event : AgentEvent) :
    registrationOf (trace ++ [event]) = registrationAfter (registrationOf trace) event := by
  rw [registrationOf, List.foldl_concat]
  rfl

/-- The duty after a question and its answer. -/
theorem duty_append_pair (trace : List AgentEvent) (asked heard : AgentEvent) :
    duty (trace ++ [asked, heard]) = dutyAfter (dutyAfter (duty trace) asked) heard := by
  rw [duty, List.foldl_append]
  rfl

/-- The registration after a question and its answer. -/
theorem registrationOf_append_pair (trace : List AgentEvent) (asked heard : AgentEvent) :
    registrationOf (trace ++ [asked, heard]) =
      registrationAfter (registrationAfter (registrationOf trace) asked) heard := by
  rw [registrationOf, List.foldl_append]
  rfl

section Order

variable (sha256 : List UInt8 → String) (inflate : List UInt8 → Option (List UInt8))
  (message : ExecutionError → String) (server : String)

/-- The result and the world are those of an `execute` of the lease: a success is one of a
deployment that has succeeded, and no volume is left locked. -/
structure Executed (lease : AgentJobLease) (deviceToken : String) (disks : List Disk)
    (result : Except String Unit) (after : ExecutionWorld) : Prop where
  executed : ∃ answers,
    deploymentEnd sha256 inflate message server lease disks deviceToken answers =
    some (result, after)
  deployed : result = .ok () → Deployed sha256 inflate lease disks server deviceToken after
  released : after.locked = false

/-- The first report of a result directly follows the end of the deployment, and another one an
error that may pass, as the answer to the same report. -/
inductive ReportFollows (registration : AgentRegistration) (lease : AgentJobLease) :
    Except String Unit → List AgentEvent → Prop
  | uninspected (earlier : List AgentEvent) (error : String) :
      ReportFollows registration lease (.error error)
        (earlier ++ [.inspected lease (.error error)])
  | finished (earlier : List AgentEvent) (deviceToken : String) (disks : List Disk)
      (result : Except String Unit) (after : ExecutionWorld) :
      ReportFollows registration lease result
        (earlier ++ [.finished lease deviceToken disks result after])
  | again (earlier : List AgentEvent) (result : Except String Unit) (error : RequestError)
      (htransient : isTransientRequestError error = true) :
      ReportFollows registration lease result
        (earlier ++ [.complete registration lease.jobId (lease.completion result),
          .completed (.error error)])

/-- The event follows those before it. -/
def AgentEvent.Follows (before : List AgentEvent) : AgentEvent → Prop
  | register => duty before = .free ∧ registrationOf before = none
  | registered _ => before.getLast? = some register
  | heartbeat registration => duty before = .free ∧ registrationOf before = some registration
  | acknowledged _ => ∃ registration, before.getLast? = some (heartbeat registration)
  | claim registration => duty before = .free ∧
    ∃ earlier, before = earlier ++ [heartbeat registration, acknowledged (.ok true)]
  | claimed _ => ∃ registration, before.getLast? = some (claim registration)
  | inspected lease _ => ∃ earlier registration,
    before = earlier ++ [claim registration, claimed (.ok (some lease))]
  | finished lease deviceToken disks result after =>
    (∃ earlier registration, before = earlier ++
      [claim registration, claimed (.ok (some lease)), inspected lease (.ok disks)] ∧
      registration.deviceToken = deviceToken) ∧
    Executed sha256 inflate message server lease deviceToken disks result after
  | complete registration jobId completion => registrationOf before = some registration ∧
    ∃ lease result, duty before = .owing lease result ∧ jobId = lease.jobId ∧
      completion = lease.completion result ∧ ReportFollows registration lease result before
  | completed _ => ∃ registration jobId completion,
    before.getLast? = some (complete registration jobId completion)
  | reboot => duty before = .rebooting ∧ ∃ earlier registration jobId completion,
    before = earlier ++ [complete registration jobId completion, completed (.ok ())] ∧
      completion.succeeded = true
  | rebooted _ => before.getLast? = some reboot

/-- Every event follows those before it. -/
def Orderly (trace : List AgentEvent) : Prop :=
  ∀ before event later, trace = before ++ event :: later →
    event.Follows sha256 inflate message server before

variable {sha256 inflate message server} {trace : List AgentEvent} {event : AgentEvent}

theorem orderly_nil : Orderly sha256 inflate message server [] := by
  intro before event later h
  simp at h

theorem Orderly.concat (h : Orderly sha256 inflate message server trace)
    (hevent : event.Follows sha256 inflate message server trace) :
    Orderly sha256 inflate message server (trace ++ [event]) := by
  intro before other later heq
  rcases List.eq_nil_or_concat later with rfl | ⟨init, last, rfl⟩
  · obtain ⟨rfl, hlast⟩ := List.append_inj' heq rfl
    obtain rfl : event = other := List.head_eq_of_cons_eq hlast
    exact hevent
  · rw [List.concat_eq_append, ← List.cons_append, ← List.append_assoc] at heq
    exact h before other init (List.append_inj' heq rfl).1

theorem dutyAfter_eq_owing {before : Duty} {lease : AgentJobLease}
    (h : dutyAfter before event = .owing lease (.ok ())) :
    before = .owing lease (.ok ()) ∨
      ∃ deviceToken disks after, event = .finished lease deviceToken disks (.ok ()) after := by
  unfold dutyAfter at h
  split at h <;> first
    | exact Or.inl h
    | cases h
  exact Or.inr ⟨_, _, _, rfl⟩

/-- A success that is owed is that of a deployment. -/
theorem exists_finished_of_owing {lease : AgentJobLease} (h : duty trace = .owing lease (.ok ())) :
    ∃ deviceToken disks after,
      AgentEvent.finished lease deviceToken disks (.ok ()) after ∈ trace := by
  induction trace using List.reverseRecOn with
  | nil => cases h
  | append_singleton trace event ih =>
    rw [duty_concat] at h
    rcases dutyAfter_eq_owing h with hbefore | ⟨deviceToken, disks, after, rfl⟩
    · obtain ⟨deviceToken, disks, after, hmem⟩ := ih hbefore
      exact ⟨deviceToken, disks, after, List.mem_append_left _ hmem⟩
    · exact ⟨deviceToken, disks, after, List.mem_append_right _ List.mem_cons_self⟩

/-- A success is reported only of a deployment that has succeeded, of a lease that was claimed. -/
theorem deployed_of_reported (h : Orderly sha256 inflate message server trace)
    {registration : AgentRegistration} {jobId : Uuid} {completion : AgentJobCompletion}
    (hmem : AgentEvent.complete registration jobId completion ∈ trace)
    (hsucceeded : completion.succeeded = true) :
    ∃ lease deviceToken disks after, lease.jobId = jobId ∧ lease.leaseId = completion.leaseId ∧
      AgentEvent.claimed (.ok (some lease)) ∈ trace ∧
      AgentEvent.finished lease deviceToken disks (.ok ()) after ∈ trace ∧
      Deployed sha256 inflate lease disks server deviceToken after := by
  obtain ⟨before, later, rfl⟩ := List.append_of_mem hmem
  obtain ⟨-, lease, result, hduty, rfl, rfl, -⟩ := h before _ later rfl
  cases result with
  | error error => exact absurd hsucceeded Bool.false_ne_true
  | ok a =>
    obtain ⟨deviceToken, disks, after, hfinished⟩ := exists_finished_of_owing hduty
    obtain ⟨earlier, rest, rfl⟩ := List.append_of_mem hfinished
    obtain ⟨⟨first, registration', hclaim, -⟩, hexecuted⟩ :=
      h earlier (.finished lease deviceToken disks (.ok ()) after) (rest ++ _ :: later)
        (by rw [List.append_assoc, List.cons_append])
    have hclaimed : AgentEvent.claimed (.ok (some lease)) ∈ earlier := by
      rw [hclaim]
      simp
    exact ⟨lease, deviceToken, disks, after, rfl, rfl,
      List.mem_append_left _ (List.mem_append_left _ hclaimed),
      List.mem_append_left _ hfinished, hexecuted.deployed rfl⟩

end Order

/-! ### Whole runs -/

section Runs

variable {sha256 : List UInt8 → String} {inflate : List UInt8 → Option (List UInt8)}
  {message : ExecutionError → String} {server deviceToken : String}
  {registration : AgentRegistration} {lease : AgentJobLease} {result : Except String Unit}
  {trace : List AgentEvent} {event : AgentEvent}

/-- The Agent stops in order. Where it stops over an unconfirmed completion, the host has refused
the report for good, and the result is owed. -/
def StopsOrderly (sha256 : List UInt8 → String) (inflate : List UInt8 → Option (List UInt8))
    (message : ExecutionError → String) (server : String) (halt : Halt AgentError)
    (trace : List AgentEvent) : Prop :=
  Orderly sha256 inflate message server trace ∧
    ∀ jobId source, halt = .failed (.unconfirmed jobId source) →
      isTransientRequestError source = false ∧
      ∃ earlier registration lease result, duty trace = .owing lease result ∧ lease.jobId = jobId ∧
        trace = earlier ++ [.complete registration jobId (lease.completion result),
          .completed (.error source)]

theorem Orderly.waits (h : Orderly sha256 inflate message server trace) :
    StopsOrderly sha256 inflate message server .waiting trace :=
  ⟨h, fun _ _ heq => by cases heq⟩

/-- An answer is heard in order, and decides what comes next. -/
theorem ensures_listen {α β : Type} {kind : AgentAnswer → Option α} {heard : α → AgentEvent}
    {rest : α → AgentProgram β} {Q : β → List AgentEvent → Prop}
    (h : Orderly sha256 inflate message server trace)
    (hheard : ∀ a, (heard a).Follows sha256 inflate message server trace)
    (hrest : ∀ a, Orderly sha256 inflate message server (trace ++ [heard a]) →
      Ensures (rest a) Q (StopsOrderly sha256 inflate message server) (trace ++ [heard a])) :
    Ensures (listen kind heard >>= rest) Q (StopsOrderly sha256 inflate message server) trace :=
  Ensures.bind (Ensures.bind (Ensures.hear (fun a => Ensures.bind (Ensures.act
    (Ensures.pure (hrest a (h.concat (hheard a)))))) h.waits))

/-- A question that is in order, and its answer. -/
theorem ensures_exchange {α β : Type} {asked : AgentEvent} {kind : AgentAnswer → Option α}
    {heard : α → AgentEvent} {rest : α → AgentProgram β} {Q : β → List AgentEvent → Prop}
    (h : Orderly sha256 inflate message server trace)
    (hasked : asked.Follows sha256 inflate message server trace)
    (hheard : ∀ a, (heard a).Follows sha256 inflate message server (trace ++ [asked]))
    (hrest : ∀ a, Orderly sha256 inflate message server (trace ++ [asked, heard a]) →
      Ensures (rest a) Q (StopsOrderly sha256 inflate message server)
        (trace ++ [asked, heard a])) :
    Ensures (exchange asked kind heard >>= rest) Q (StopsOrderly sha256 inflate message server)
      trace := by
  have happend : ∀ a, trace ++ [asked] ++ [heard a] = trace ++ [asked, heard a] := fun a => by
    rw [List.append_assoc, List.cons_append, List.nil_append]
  unfold exchange
  rw [bind_assoc]
  refine Ensures.bind (Ensures.act (ensures_listen (h.concat hasked) hheard fun a => ?_))
  rw [happend a]
  exact hrest a

theorem executed_of_deploymentEnd {disks : List Disk} {answers : List ExecutionAnswer}
    {after : ExecutionWorld}
    (h : deploymentEnd sha256 inflate message server lease disks deviceToken answers =
      some (result, after)) :
    Executed sha256 inflate message server lease deviceToken disks result after := by
  suffices hends :
      (result = .ok () → Deployed sha256 inflate lease disks server deviceToken after) ∧
      after.locked = false from ⟨⟨answers, h⟩, hends.1, hends.2⟩
  unfold deploymentEnd at h
  split at h
  · rename_i t hrun
    cases h
    have hdeployed := ensures_execute.of_eq_ok hrun
    exact ⟨fun _ => hdeployed, hdeployed.released⟩
  · rename_i error t hrun
    cases h
    have hstopped := ensures_execute.of_eq_error hrun
    exact ⟨fun hok => (by cases hok), hstopped.released (by rintro ⟨⟩)⟩
  · cases h

/-- The Agent has claimed the lease with the registration. -/
structure Leased (registration : AgentRegistration) (lease : AgentJobLease)
    (trace : List AgentEvent) : Prop where
  registered : registrationOf trace = some registration
  claimed : ∃ earlier, trace = earlier ++ [.claim registration, .claimed (.ok (some lease))]

/-- The Agent owes the result of the lease, and is to report it. -/
structure Owing (registration : AgentRegistration) (lease : AgentJobLease)
    (result : Except String Unit) (trace : List AgentEvent) : Prop where
  registered : registrationOf trace = some registration
  duty : duty trace = .owing lease result
  follows : ReportFollows registration lease result trace

/-- A deployment follows the claim of its lease, and its result is owed. -/
theorem ensures_deployLease (h : Orderly sha256 inflate message server trace)
    (hleased : Leased registration lease trace) :
    Ensures (deployLease sha256 inflate message server lease registration.deviceToken)
      (fun result trace => Orderly sha256 inflate message server trace ∧
        Owing registration lease result trace)
      (StopsOrderly sha256 inflate message server) trace := by
  obtain ⟨hregistered, earlier, hclaimed⟩ := hleased
  refine ensures_listen h (fun _ => ⟨earlier, registration, hclaimed⟩)
    fun inventory hinspected => ?_
  have hregistered' : registrationOf (trace ++ [.inspected lease inventory]) =
      some registration := (registrationOf_concat _ _).trans hregistered
  cases inventory with
  | error error =>
    exact Ensures.pure ⟨hinspected, hregistered', duty_concat _ _, .uninspected _ _⟩
  | ok disks =>
    refine Ensures.bind (Ensures.hear_of (fun answer found hanswer => ?_) hinspected.waits)
    obtain ⟨result, after⟩ := found
    obtain ⟨answers, -, hend⟩ := Option.bind_eq_some_iff.1 hanswer
    have hplace : trace ++ [.inspected lease (.ok disks)] = earlier ++
        [.claim registration, .claimed (.ok (some lease)), .inspected lease (.ok disks)] := by
      rw [hclaimed, List.append_assoc]
      rfl
    have hfinished : Orderly sha256 inflate message server
        (trace ++ [.inspected lease (.ok disks)] ++
          [.finished lease registration.deviceToken disks result after]) :=
      hinspected.concat ⟨⟨earlier, registration, hplace, rfl⟩, executed_of_deploymentEnd hend⟩
    exact Ensures.bind (Ensures.act (Ensures.pure ⟨hfinished,
      (registrationOf_concat _ _).trans hregistered', duty_concat _ _, .finished _ _ _ _ _⟩))

/-- What the Agent has to do after a confirmed report. -/
def dutyAfterReport : Except String Unit → Duty
  | .ok () => .rebooting
  | .error _ => .free

/-- The result is reported until it is confirmed. -/
theorem ensures_completionLoop (h : Orderly sha256 inflate message server trace)
    (howing : Owing registration lease result trace) :
    Ensures (loop (fun _ => completionPass registration lease result) ()) (fun _ trace =>
      Orderly sha256 inflate message server trace ∧ registrationOf trace = some registration ∧
      duty trace = dutyAfterReport result ∧ ∃ earlier, trace = earlier ++
        [.complete registration lease.jobId (lease.completion result), .completed (.ok ())])
      (StopsOrderly sha256 inflate message server) trace := by
  refine Ensures.loop (I := fun _ trace => Orderly sha256 inflate message server trace ∧
    Owing registration lease result trace) (fun _ _ hI => hI.1.waits) (fun _ trace hI => ?_)
    ⟨h, howing⟩
  obtain ⟨h, hregistered, hduty, hfollows⟩ := hI
  refine ensures_exchange h ⟨hregistered, lease, result, hduty, rfl, rfl, hfollows⟩
    (fun _ => ⟨_, _, _, List.getLast?_concat⟩) fun response hreported => ?_
  have hregistered' : registrationOf (trace ++ [.complete registration lease.jobId
      (lease.completion result), .completed response]) = some registration := by
    rw [registrationOf_append_pair, hregistered]
    rfl
  cases response with
  | ok a =>
    have hduty' : duty (trace ++ [.complete registration lease.jobId (lease.completion result),
        .completed (.ok a)]) = dutyAfterReport result := by
      rw [duty_append_pair, hduty]
      cases result <;> rfl
    cases result <;> exact Ensures.pure ⟨hreported, hregistered', hduty', trace, rfl⟩
  | error error =>
    have hduty' : duty (trace ++ [.complete registration lease.jobId (lease.completion result),
        .completed (.error error)]) = .owing lease result := by
      rw [duty_append_pair, hduty]
      cases result <;> rfl
    cases htransient : isTransientRequestError error with
    | true =>
      rw [show reportPass result (.error error) = .reporting from if_pos htransient]
      exact Ensures.pure ⟨hreported, hregistered', hduty', .again _ _ _ htransient⟩
    | false =>
      have hpass : reportPass result (.error error) = .unconfirmed error :=
        if_neg (by rw [htransient]; exact Bool.false_ne_true)
      rw [hpass]
      refine Ensures.fail ⟨hreported, fun jobId source heq => ?_⟩
      cases heq
      exact ⟨htransient, trace, registration, lease, result, hduty', rfl, rfl⟩

/-- The Agent is free to turn to the host, with the registration that it has. -/
structure Ready (sha256 : List UInt8 → String) (inflate : List UInt8 → Option (List UInt8))
    (message : ExecutionError → String) (server : String)
    (registration : Option AgentRegistration) (trace : List AgentEvent) : Prop where
  orderly : Orderly sha256 inflate message server trace
  free : duty trace = .free
  registered : registrationOf trace = registration

theorem ensures_executeLease (h : Orderly sha256 inflate message server trace)
    (hleased : Leased registration lease trace) :
    Ensures (executeLease sha256 inflate message server registration lease)
      (fun _ trace => Ready sha256 inflate message server (some registration) trace)
      (StopsOrderly sha256 inflate message server) trace := by
  refine Ensures.bind_of (ensures_deployLease h hleased) fun result trace hfinished => ?_
  refine Ensures.bind_of (ensures_completionLoop hfinished.1 hfinished.2) fun _ trace hdone => ?_
  obtain ⟨h, hregistered, hduty, earlier, htrace⟩ := hdone
  cases result with
  | error error => exact Ensures.pure ⟨h, hduty, hregistered⟩
  | ok a =>
    refine ensures_exchange h ⟨hduty, earlier, _, _, _, htrace, rfl⟩
      (fun _ => List.getLast?_concat) fun answer hrebooted => ?_
    rcases answer with source | _ | _
    · exact Ensures.fail ⟨hrebooted, fun _ _ heq => by cases heq⟩
    · exact Ensures.fail ⟨hrebooted, fun _ _ heq => by cases heq⟩
    · refine Ensures.pure ⟨hrebooted, ?_, ?_⟩
      · rw [duty_append_pair, hduty]
        rfl
      · rw [registrationOf_append_pair, hregistered]
        rfl

/-- Where the Agent stands after a claim. -/
def AfterClaim (sha256 : List UInt8 → String) (inflate : List UInt8 → Option (List UInt8))
    (message : ExecutionError → String) (server : String) (registration : AgentRegistration)
    (answer : Except RequestError (Option AgentJobLease)) (trace : List AgentEvent) : Prop :=
  match answer with
  | .error _ => Ready sha256 inflate message server none trace
  | .ok none => Ready sha256 inflate message server (some registration) trace
  | .ok (some lease) =>
    Orderly sha256 inflate message server trace ∧ Leased registration lease trace

/-- A machine with disks claims a job; one without them keeps its registration. -/
theorem ensures_claimJobIfDiskAvailable {inventoryHasDisks : Bool} {earlier : List AgentEvent}
    (h : Ready sha256 inflate message server (some registration) trace)
    (hbeat : trace = earlier ++
      [.heartbeat registration, .acknowledged (.ok inventoryHasDisks)]) :
    Ensures (claimJobIfDiskAvailable registration inventoryHasDisks)
      (AfterClaim sha256 inflate message server registration)
      (StopsOrderly sha256 inflate message server) trace := by
  obtain ⟨horderly, hfree, hregistered⟩ := h
  cases inventoryHasDisks with
  | false => exact Ensures.pure ⟨horderly, hfree, hregistered⟩
  | true =>
    have hexchange : Ensures
        (exchange (.claim registration) AgentAnswer.asLease .claimed >>= pure)
        (AfterClaim sha256 inflate message server registration)
        (StopsOrderly sha256 inflate message server) trace := by
      refine ensures_exchange horderly ⟨hfree, earlier, hbeat⟩
        (fun _ => ⟨_, List.getLast?_concat⟩) fun answer hclaim => Ensures.pure ?_
      have hduty : duty (trace ++ [.claim registration, .claimed answer]) =
          dutyAfter .free (.claimed answer) := by
        rw [duty_append_pair, hfree]
        rfl
      have hclaimed : registrationOf (trace ++ [.claim registration, .claimed answer]) =
          answer.toOption.map fun _ => registration := by
        rw [registrationOf_append_pair, hregistered]
        cases answer <;> rfl
      rcases answer with error | _ | lease
      · exact ⟨hclaim, hduty, hclaimed⟩
      · exact ⟨hclaim, hduty, hclaimed⟩
      · exact ⟨hclaim, hclaimed, trace, rfl⟩
    rwa [bind_pure] at hexchange

/-- A pass of a free Agent leaves it free, or stops it in order. -/
theorem ensures_agentPass {once : Bool} {registration : Option AgentRegistration}
    (h : Ready sha256 inflate message server registration trace) :
    Ensures (agentPass sha256 inflate message server once registration)
      (Sum.elim (fun registration trace => Ready sha256 inflate message server registration trace)
        fun _ trace => Orderly sha256 inflate message server trace ∧ duty trace = .free)
      (StopsOrderly sha256 inflate message server) trace := by
  obtain ⟨h, hfree, hregistered⟩ := h
  cases registration with
  | none =>
    refine ensures_exchange h ⟨hfree, hregistered⟩ (fun _ => List.getLast?_concat)
      fun answer hanswer => ?_
    have hfree' : duty (trace ++ [.register, .registered answer]) = .free := by
      rw [duty_append_pair, hfree]
      cases answer <;> rfl
    have hregistered' : registrationOf (trace ++ [.register, .registered answer]) =
        answer.toOption := by
      rw [registrationOf_append_pair, hregistered]
      cases answer <;> rfl
    cases answer with
    | error error => exact Ensures.pure ⟨hanswer, hfree', hregistered'⟩
    | ok registration => exact Ensures.pure ⟨hanswer, hfree', hregistered'⟩
  | some registration =>
    refine ensures_exchange h ⟨hfree, hregistered⟩ (fun _ => ⟨_, List.getLast?_concat⟩)
      fun answer hbeat => ?_
    have hfree' : duty (trace ++ [.heartbeat registration, .acknowledged answer]) = .free := by
      rw [duty_append_pair, hfree]
      rfl
    have hregistered' : registrationOf (trace ++ [.heartbeat registration, .acknowledged answer]) =
        answer.toOption.map fun _ => registration := by
      rw [registrationOf_append_pair, hregistered]
      cases answer <;> rfl
    cases answer with
    | error error => exact Ensures.pure ⟨hbeat, hfree', hregistered'⟩
    | ok inventoryHasDisks =>
      cases once with
      | true => exact Ensures.pure ⟨hbeat, hfree'⟩
      | false =>
        refine Ensures.bind_of (ensures_claimJobIfDiskAvailable ⟨hbeat, hfree', hregistered'⟩ rfl)
          fun answer _ hclaim => ?_
        rcases answer with error | _ | lease
        · exact Ensures.pure hclaim
        · exact Ensures.pure hclaim
        · exact Ensures.bind_of (ensures_executeLease hclaim.1 hclaim.2)
            fun _ _ hdone => Ensures.pure hdone

/-- Every run of the Agent is in order. -/
theorem ensures_runAgent {once : Bool} : Ensures (runAgent sha256 inflate message server once)
    (fun _ trace => Orderly sha256 inflate message server trace ∧ duty trace = .free)
    (StopsOrderly sha256 inflate message server) [] :=
  Ensures.loop (I := Ready sha256 inflate message server)
    (fun _ _ hI => hI.orderly.waits) (fun _ _ hI => ensures_agentPass hI)
    ⟨orderly_nil, rfl, rfl⟩

theorem orderly_worldAfter (once : Bool) (answers : List AgentAnswer) :
    Orderly sha256 inflate message server
      (worldAfter (runAgent sha256 inflate message server once ([], answers))) := by
  cases hrun : runAgent sha256 inflate message server once ([], answers) with
  | ok a t => exact (ensures_runAgent.of_eq_ok hrun).1
  | error halt t => exact (ensures_runAgent.of_eq_error hrun).1

/-- Whatever the Agent is answered, and at every moment: what it asks and hears is in order, it has
reported a success only of a deployment, of a lease that it has claimed, that has succeeded and left
the world that the trace has, and it stops over a completion only while this is owed and the host
has refused the report for good. -/
theorem orderly_runAgent (once : Bool) (answers : List AgentAnswer) :
    Orderly sha256 inflate message server
        (worldAfter (runAgent sha256 inflate message server once ([], answers))) ∧
      (∀ registration jobId completion, AgentEvent.complete registration jobId completion ∈
          worldAfter (runAgent sha256 inflate message server once ([], answers)) →
        completion.succeeded = true →
        ∃ lease deviceToken disks after, lease.jobId = jobId ∧
          lease.leaseId = completion.leaseId ∧
          AgentEvent.claimed (.ok (some lease)) ∈
            worldAfter (runAgent sha256 inflate message server once ([], answers)) ∧
          AgentEvent.finished lease deviceToken disks (.ok ()) after ∈
            worldAfter (runAgent sha256 inflate message server once ([], answers)) ∧
          Deployed sha256 inflate lease disks server deviceToken after) ∧
      ∀ jobId source t, runAgent sha256 inflate message server once ([], answers) =
        .error (.failed (.unconfirmed jobId source)) t →
        isTransientRequestError source = false ∧
        ∃ earlier registration lease result, duty t.1 = .owing lease result ∧
          lease.jobId = jobId ∧ t.1 = earlier ++
            [.complete registration jobId (lease.completion result), .completed (.error source)] :=
  ⟨orderly_worldAfter once answers,
    fun _ _ _ hmem hsucceeded => deployed_of_reported (orderly_worldAfter once answers) hmem
      hsucceeded,
    fun jobId source _ hrun => (ensures_runAgent.of_eq_error hrun).2 jobId source rfl⟩

end Runs

end EasyDeployMesh
