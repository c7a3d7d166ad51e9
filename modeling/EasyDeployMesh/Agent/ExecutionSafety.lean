import EasyDeployMesh.Agent.ExecutionSteps
import EasyDeployMesh.Gho.BlockFraming

/-!
# What a deployment does, and in which order

Whatever its surroundings answer, `execute` takes the steps of a plan in their order, and stops
somewhere on it: the disk is partitioned only after its fingerprint has been found again and the
layout has been prepared, the image is applied only after every byte of it has gone into the
approved digest, and the volume is not left locked. A deployment that succeeds has taken all steps,
and after a GHO deployment the volume holds the decoded partition.

## Main definitions

* `EasyDeployMesh.plannedSteps`, `EasyDeployMesh.deploymentPlan`: the steps of a deployment.
* `EasyDeployMesh.Deployed`: what holds after a success.

## Main results

* `EasyDeployMesh.ensures_execute`: every run of a deployment stays on plan.
* `EasyDeployMesh.stopped_execute`, `EasyDeployMesh.deployed_of_execute`: the same about the end of
  a run.
-/

namespace EasyDeployMesh

open Foundations Dialogue Gho

/-! ### The plan -/

section Plan

variable (lease : AgentJobLease) (layout : PreparedLayout) (server deviceToken : String)

/-- The steps up to the partitioned disk. -/
def partitionSteps : List ExecutionAction :=
  [.createDirAll (workDirectory lease),
    .writeFile (workDirectory lease ++ "\\partition.txt") layout.prepareScript,
    .writeFile (workDirectory lease ++ "\\cleanup.txt") layout.cleanupScript,
    .report .partitioning 10 "Partitioning the selected disk",
    .start "diskpart.exe" ["/s", workDirectory lease ++ "\\partition.txt"]]

/-- The step that applies the image. -/
def applyStep : ExecutionAction :=
  if lease.operation = .deployGho then .lockVolume
  else .start "dism.exe" (applyArguments lease layout)

/-- The steps after the image has been applied. -/
def bootSteps : List ExecutionAction :=
  [.report .configuringBoot 88 "Creating Windows boot files",
    .start "bcdboot.exe" (bootArguments layout),
    .report .finalizing 95 "Removing the temporary image cache",
    .start "diskpart.exe" ["/s", workDirectory lease ++ "\\cleanup.txt"],
    .report .rebooting 99 "Deployment complete; preparing to reboot"]

/-- The first action of a deployment. -/
def preflightStep : ExecutionAction := .report .preflight 2 "Validating target disk fingerprint"

/-- Every action of a deployment that succeeds, in their order; the polls are left out. -/
def plannedSteps : List ExecutionAction :=
  [preflightStep] ++ (partitionSteps lease layout ++
    .report .downloadingImage 20 "Downloading the deployment image" ::
    (downloadSteps server lease.image.downloadUrl deviceToken layout.imagePath ++
    .report .applyingImage 45 "Applying the Windows image" :: applyStep lease layout ::
    bootSteps lease layout))

/-- The steps of a deployment to one of these disks: without a layout, only the first report. -/
def deploymentPlan (disks : List Disk) : List ExecutionAction :=
  match chosenLayout lease disks with
  | .ok layout => plannedSteps lease layout server deviceToken
  | .error _ => [preflightStep]

theorem deploymentPlan_of_chosenLayout {disks : List Disk} {layout : PreparedLayout}
    (h : chosenLayout lease disks = .ok layout) :
    deploymentPlan lease server deviceToken disks =
      plannedSteps lease layout server deviceToken := by
  rw [deploymentPlan, h]

end Plan

/-- The deployment has taken all steps, with an approved image, and left its result. -/
structure Deployed (sha256 : List UInt8 → String) (inflate : List UInt8 → Option (List UInt8))
    (lease : AgentJobLease) (disks : List Disk) (server deviceToken : String)
    (w : ExecutionWorld) : Prop where
  steps : ∃ layout, chosenLayout lease disks = .ok layout ∧
    w.trace.filter ExecutionAction.isStep = plannedSteps lease layout server deviceToken
  commanded : Commanded w.trace
  approved : Approved sha256 lease w.image
  restored : ∀ gho, lease.operation = .deployGho → lease.gho = some gho →
    Restored sha256 inflate gho w.image w.volume
  released : w.locked = false

/-- Why an approved GHO image, or its metadata, is rejected. -/
inductive Rejects (sha256 : List UInt8 → String) (inflate : List UInt8 → Option (List UInt8))
    (lease : AgentJobLease) (image : List UInt8) : ExecutionError → Prop
  | metadata (hgho : lease.operation = .deployGho) (h : lease.gho = none) :
    Rejects sha256 inflate lease image .ghoMetadataMissing
  | restoration {gho : AgentGhoDeployment} {error : ExecutionError} (h : lease.gho = some gho)
      (happroved : Approved sha256 lease image)
      (hmismatch : RestoreMismatch sha256 inflate gho image error) :
    Rejects sha256 inflate lease image error

variable {verified : List UInt8 → Prop} {rejects : List UInt8 → ExecutionError → Prop}
  {image volume : List UInt8} {done steps plan : List ExecutionAction} {w : ExecutionWorld}

/-- Before anything has been applied, nothing is known about the image. -/
theorem stopsAt_unapplied (hplan : done <+: plan) :
    StopsAt (Stopped verified rejects plan) (fun _ => False) image volume done false :=
  fun _ _ hw hhalt => (hw.mono False.elim).stopped hplan (blames_of_isEnvironmental hhalt)

theorem stopsAt_applied (hplan : done <+: plan) :
    StopsAt (Stopped verified rejects plan) verified image volume done false :=
  fun _ _ hw hhalt => hw.stopped hplan (blames_of_isEnvironmental hhalt)

private theorem next_step {action : ExecutionAction} {rest : List ExecutionAction}
    (h : done ++ action :: rest = plan) : done ++ [action] ++ rest = plan := by
  rw [List.append_assoc]
  exact h

variable {sha256 : List UInt8 → String} {inflate : List UInt8 → Option (List UInt8)}
  {lease : AgentJobLease} {layout : PreparedLayout} {server deviceToken : String}

theorem ExecutionWorld.At.ensures_applyImage
    (h : w.At (Approved sha256 lease) image [] done false) (himage : Approved sha256 lease image)
    (hplan : done ++ [applyStep lease layout] <+: plan) :
    Ensures (applyImage sha256 inflate lease layout) (fun _ w => ∃ volume,
      w.At (Approved sha256 lease) image volume (done ++ [applyStep lease layout]) false ∧
      ∀ gho, lease.operation = .deployGho → lease.gho = some gho →
        Restored sha256 inflate gho image volume)
      (Stopped (Approved sha256 lease) (Rejects sha256 inflate lease) plan) w := by
  have hdone : done <+: plan := (List.prefix_append _ _).trans hplan
  by_cases hgho : lease.operation = .deployGho
  · simp only [applyImage, applyStep, hgho, if_true] at hplan ⊢
    cases hmetadata : lease.gho with
    | none =>
      refine Ensures.fail (h.stopped hdone ?_)
      rintro _ ⟨⟩ -
      exact .metadata hgho hmetadata
    | some gho =>
      refine Ensures.bind_of (h.ensures_awaitRunning (stopsAt_applied hdone)) ?_
      rintro _ w ⟨hw, -⟩
      refine Ensures.post (hw.ensures_restoreGhoPartition himage ?_ ?_ ?_) ?_
      · exact fun volume steps hsteps => stopsAt_applied (hsteps.trans hplan)
      · exact fun volume w hw => ⟨hw.onPlan hplan, fun hne => absurd rfl hne,
          blames_of_isEnvironmental isEnvironmental_waiting⟩
      · intro error volume steps w hmismatch hsteps hw
        refine hw.stopped (hsteps.trans hplan) ?_
        rintro _ ⟨⟩ -
        exact .restoration hmetadata himage hmismatch
      · rintro _ w ⟨volume, hw, hrestored⟩
        refine ⟨volume, hw, fun other _ hother => ?_⟩
        obtain rfl : gho = other := Option.some.inj hother
        exact hrestored
  · simp only [applyImage, applyStep, hgho, if_false] at hplan ⊢
    refine Ensures.bind_of (h.ensures_awaitRunning (stopsAt_applied hdone)) ?_
    rintro _ w ⟨hw, hrunning⟩
    refine Ensures.post
      (hw.ensures_runChecked hrunning (fun _ => himage) (stopsAt_applied hplan)) ?_
    exact fun _ w hw => ⟨[], hw, fun _ hop => hop.elim⟩

/-- The steps after the layout has been prepared. -/
theorem ExecutionWorld.At.ensures_carryOut (h : w.At (fun _ => False) [] [] [preflightStep] false) :
    Ensures (carryOut sha256 inflate lease layout server deviceToken) (fun _ w => ∃ image volume,
      w.At (Approved sha256 lease) image volume (plannedSteps lease layout server deviceToken)
        false ∧
      Approved sha256 lease image ∧
      ∀ gho, lease.operation = .deployGho → lease.gho = some gho →
        Restored sha256 inflate gho image volume)
      (Stopped (Approved sha256 lease) (Rejects sha256 inflate lease)
        (plannedSteps lease layout server deviceToken)) w := by
  have hplan : [preflightStep] ++ _ = plannedSteps lease layout server deviceToken := rfl
  replace hplan := next_step hplan
  refine Ensures.bind_of (h.ensures_fileStep rfl rfl rfl (stopsAt_unapplied ⟨_, hplan⟩))
    fun _ w h => ?_
  replace hplan := next_step hplan
  refine Ensures.bind_of (h.ensures_fileStep rfl rfl rfl (stopsAt_unapplied ⟨_, hplan⟩))
    fun _ w h => ?_
  replace hplan := next_step hplan
  refine Ensures.bind_of (h.ensures_fileStep rfl rfl rfl (stopsAt_unapplied ⟨_, hplan⟩))
    fun _ w h => ?_
  replace hplan := next_step hplan
  refine Ensures.bind_of (h.ensures_progress (stopsAt_unapplied ⟨_, hplan⟩)) fun _ w h => ?_
  refine Ensures.bind_of (h.ensures_awaitRunning (stopsAt_unapplied ⟨_, hplan⟩)) ?_
  rintro _ w ⟨h, hrunning⟩
  replace hplan := next_step hplan
  refine Ensures.bind_of (h.ensures_runChecked hrunning (fun hname => ?_)
    (stopsAt_unapplied ⟨_, hplan⟩)) fun _ w h => ?_
  · exact absurd hname (by decide)
  replace hplan := next_step hplan
  refine Ensures.bind_of (h.ensures_progress (stopsAt_unapplied ⟨_, hplan⟩)) fun _ w h => ?_
  rw [← List.append_assoc] at hplan
  refine Ensures.bind_of (h.ensures_downloadFile fun image steps hsteps =>
    stopsAt_unapplied (hsteps.trans ⟨_, hplan⟩)) ?_
  rintro _ w ⟨image, h⟩
  refine Ensures.bind_of (h.ensures_verifyImage sha256 (stopsAt_unapplied ⟨_, hplan⟩) fun w hw =>
    (hw.mono False.elim).stopped ⟨_, hplan⟩ (blames_of_not_isGho rfl)) ?_
  rintro _ w ⟨h, himage⟩
  replace hplan := next_step hplan
  refine Ensures.bind_of ((h.mono fun _ => himage).ensures_progress (stopsAt_applied ⟨_, hplan⟩))
    fun _ w h => ?_
  replace hplan := next_step hplan
  refine Ensures.bind_of (h.ensures_applyImage himage ⟨_, hplan⟩) ?_
  rintro _ w ⟨volume, h, hrestored⟩
  replace hplan := next_step hplan
  refine Ensures.bind_of (h.ensures_progress (stopsAt_applied ⟨_, hplan⟩)) fun _ w h => ?_
  refine Ensures.bind_of (h.ensures_awaitRunning (stopsAt_applied ⟨_, hplan⟩)) ?_
  rintro _ w ⟨h, hrunning⟩
  replace hplan := next_step hplan
  refine Ensures.bind_of (h.ensures_runChecked hrunning (fun _ => himage)
    (stopsAt_applied ⟨_, hplan⟩)) fun _ w h => ?_
  replace hplan := next_step hplan
  refine Ensures.bind_of (h.ensures_progress (stopsAt_applied ⟨_, hplan⟩)) fun _ w h => ?_
  refine Ensures.bind_of (h.ensures_awaitRunning (stopsAt_applied ⟨_, hplan⟩)) ?_
  rintro _ w ⟨h, hrunning⟩
  replace hplan := next_step hplan
  refine Ensures.bind_of (h.ensures_runChecked hrunning (fun _ => himage)
    (stopsAt_applied ⟨_, hplan⟩)) fun _ w h => ?_
  replace hplan := next_step hplan
  refine Ensures.post (h.ensures_progress (stopsAt_applied ⟨_, hplan⟩)) fun _ w h => ?_
  rw [← hplan, List.append_nil]
  exact ⟨image, volume, h, himage, hrestored⟩

theorem at_start : ExecutionWorld.start.At verified [] [] [] false where
  image_eq := rfl
  volume_eq := rfl
  steps := rfl
  locked_eq := rfl
  commanded := commanded_nil
  verified := by
    rintro ⟨action, haction, -⟩
    cases haction

section Execute

variable {disks : List Disk}

/-- Every run of a deployment stays on plan, and one that succeeds has taken all steps. -/
theorem ensures_execute : Ensures (execute sha256 inflate lease disks server deviceToken)
    (fun _ w => Deployed sha256 inflate lease disks server deviceToken w)
    (Stopped (Approved sha256 lease) (Rejects sha256 inflate lease)
      (deploymentPlan lease server deviceToken disks)) .start := by
  have hstart : ExecutionWorld.start.At (fun _ => False) [] [] [] false := at_start
  have hpreflight : [preflightStep] <+: deploymentPlan lease server deviceToken disks := by
    unfold deploymentPlan
    split
    · exact ⟨_, rfl⟩
    · exact List.prefix_rfl
  rw [execute]
  refine Ensures.check (fun _ => ?_) fun _ => ?_
  · exact (hstart.mono False.elim).stopped List.nil_prefix (blames_of_not_isGho rfl)
  refine Ensures.check (fun hmissing => ?_) fun _ => ?_
  · refine (hstart.mono False.elim).stopped List.nil_prefix ?_
    rintro _ ⟨⟩ -
    exact .metadata hmissing.1 hmissing.2
  refine Ensures.bind_of (hstart.ensures_progress (stopsAt_unapplied hpreflight))
    fun _ w h => ?_
  cases hlayout : chosenLayout lease disks with
  | error error =>
    exact Ensures.bind (Ensures.fail
      ((h.mono False.elim).stopped hpreflight (blames_of_not_isGho rfl)))
  | ok layout =>
    rw [deploymentPlan_of_chosenLayout lease server deviceToken hlayout]
    refine Ensures.bind (Ensures.pure (Ensures.post h.ensures_carryOut ?_))
    rintro _ w ⟨image, volume, hw, himage, hrestored⟩
    refine ⟨⟨layout, hlayout, hw.steps⟩, hw.commanded, ?_, fun gho hop hgho => ?_, hw.locked_eq⟩
    · rwa [hw.image_eq]
    · rw [hw.image_eq, hw.volume_eq]
      exact hrestored gho hop hgho

/-- Whatever is answered, and at every moment, a deployment is on plan: its steps are a beginning
of the planned ones, what destroys data directly follows an answer that the job runs, and an image
that is being applied is the approved one. A deployment that has stopped has released the volume. -/
theorem stopped_execute (answers : List ExecutionAnswer) :
    OnPlan (Approved sha256 lease) (deploymentPlan lease server deviceToken disks)
        (worldAfter (execute sha256 inflate lease disks server deviceToken (.start, answers))) ∧
      ((∃ t, execute sha256 inflate lease disks server deviceToken (.start, answers) =
          .error .waiting t) ∨
        (worldAfter (execute sha256 inflate lease disks server deviceToken
          (.start, answers))).locked = false) := by
  cases hrun : execute sha256 inflate lease disks server deviceToken (.start, answers) with
  | ok a t =>
    have hdeployed := ensures_execute.of_eq_ok hrun
    obtain ⟨layout, hlayout, hsteps⟩ := hdeployed.steps
    refine ⟨⟨?_, hdeployed.commanded, fun _ => hdeployed.approved⟩, Or.inr hdeployed.released⟩
    rw [deploymentPlan_of_chosenLayout lease server deviceToken hlayout, ← hsteps]
    exact List.prefix_rfl
  | error halt t =>
    have hstopped := ensures_execute.of_eq_error hrun
    refine ⟨hstopped.onPlan, ?_⟩
    by_cases hwaiting : halt = .waiting
    · exact Or.inl ⟨t, by rw [hwaiting]⟩
    · exact Or.inr (hstopped.released hwaiting)

/-- A deployment that fails over a GHO image has an approved image that is not what the metadata
say. -/
theorem rejects_of_execute {answers : List ExecutionAnswer} {error : ExecutionError}
    {t : ExecutionWorld × List ExecutionAnswer}
    (h : execute sha256 inflate lease disks server deviceToken (.start, answers) =
      .error (.failed error) t) (hgho : error.isGho = true) :
    Rejects sha256 inflate lease t.1.image error :=
  (ensures_execute.of_eq_error h).blames error rfl hgho

/-- A deployment that succeeds has taken all steps, with the approved image, and after a GHO
deployment the volume holds the decoded partition. -/
theorem deployed_of_execute {answers : List ExecutionAnswer}
    {t : ExecutionWorld × List ExecutionAnswer}
    (h : execute sha256 inflate lease disks server deviceToken (.start, answers) = .ok () t) :
    Deployed sha256 inflate lease disks server deviceToken t.1 :=
  ensures_execute.of_eq_ok h

end Execute

/-! ### Deployments that succeed -/

/-- The lease of a small WIM image. -/
def smoothLease : AgentJobLease :=
  { plannedLease PartitionPlan.uefiGpt with
    image := { plannedImage with
      sizeBytes := 3
      sha256 := "039058c6f2c0cb492c533b0a4d14ef77cc0f78abccced5287d84a1a2011cfb81" } }

/-- The lease of the GHO image of the laboratory. -/
def smoothGhoLease : AgentJobLease :=
  { plannedLease PartitionPlan.uefiGpt with
    operation := .deployGho
    image := { plannedImage with
      format := .gho
      sizeBytes := .ofNat labGhoImage.length
      sha256 := labSha256 labGhoImage }
    gho := some
      { parserVersion := ghoParserVersion, sourcePartition := 1, expandedSizeBytes := 11,
        expandedSha256 := labSha256 labVolume } }

/-- SHA-256, on the WIM image and on the image of the laboratory. -/
def smoothSha256 (bytes : List UInt8) : String :=
  if bytes = [1, 2, 3] then "039058c6f2c0cb492c533b0a4d14ef77cc0f78abccced5287d84a1a2011cfb81"
  else labSha256 bytes

/-- The file system did what it was asked for. -/
def answerDone : ExecutionAnswer := .file (.ok ())

/-- The host says that the job is running. -/
def answerRunning : ExecutionAnswer := .control (.ok .running)

/-- The answers to a deployment in which everything goes well: the image arrives in two parts. -/
def smoothAnswers (first second : List UInt8) (applied : List ExecutionAnswer) :
    List ExecutionAnswer :=
  let accepted := ExecutionAnswer.request (.ok ())
  let exited := ExecutionAnswer.pass (.ok .running) 0 (.ok (some 0))
  [accepted, answerDone, answerDone, answerDone, accepted, .control (.ok .paused), answerRunning,
    answerDone, exited, accepted, answerDone, accepted, answerDone, answerRunning,
    .body (.ok first), .stored (.ok ()), answerRunning, .body (.ok second), .stored (.ok ()),
    answerRunning, .body (.ok []), answerDone, answerDone, answerRunning, .count (.ok 4096),
    answerRunning, .count (.ok 4096), accepted, answerRunning] ++ applied ++
  [accepted, answerRunning, answerDone, exited, accepted, answerRunning, answerDone, exited,
    accepted]

/-- DISM applies the image. -/
def appliedAnswers : List ExecutionAnswer := [answerDone, .pass (.ok .running) 0 (.ok (some 0))]

/-- The image is restored, in two writes with an interrupted one between them. -/
def restoredAnswers : List ExecutionAnswer :=
  List.replicate 6 answerDone ++
    [answerRunning, .count (.ok 5), answerRunning, .count (.error .interrupted), answerRunning,
      .count (.ok 6), answerDone, answerDone]

/-- The answers to the deployment of the GHO image. -/
def smoothGhoAnswers : List ExecutionAnswer :=
  smoothAnswers (labGhoImage.take 600) (labGhoImage.drop 600) restoredAnswers

private theorem hasEnded_smoothAnswers :
    hasEnded (execute smoothSha256 (fun _ => none) smoothLease [physicalDisk] "http://10.0.0.1"
      "token" (.start, smoothAnswers [1, 2] [3] appliedAnswers)) = true := by
  decide +kernel

private theorem volume_smoothGhoAnswers :
    let run := execute smoothSha256 (fun _ => none) smoothGhoLease [physicalDisk] "http://10.0.0.1"
      "token" (.start, smoothGhoAnswers)
    hasEnded run = true ∧ (worldAfter run).volume = labVolume := by
  decide +kernel

/-- A WIM image and a GHO image are deployed, and the volume holds the partition of the latter. -/
theorem deployed_of_smoothAnswers :
    (∃ t, execute smoothSha256 (fun _ => none) smoothLease [physicalDisk] "http://10.0.0.1" "token"
        (.start, smoothAnswers [1, 2] [3] appliedAnswers) = .ok () t ∧
      Deployed smoothSha256 (fun _ => none) smoothLease [physicalDisk] "http://10.0.0.1" "token"
        t.1) ∧
    ∃ t, execute smoothSha256 (fun _ => none) smoothGhoLease [physicalDisk] "http://10.0.0.1"
        "token" (.start, smoothGhoAnswers) = .ok () t ∧ t.1.volume = labVolume ∧
      Deployed smoothSha256 (fun _ => none) smoothGhoLease [physicalDisk] "http://10.0.0.1" "token"
        t.1 := by
  obtain ⟨⟨⟩, t, ht⟩ := exists_of_hasEnded hasEnded_smoothAnswers
  obtain ⟨hended, hvolume⟩ := volume_smoothGhoAnswers
  obtain ⟨⟨⟩, u, hu⟩ := exists_of_hasEnded hended
  rw [hu] at hvolume
  exact ⟨⟨t, ht, deployed_of_execute ht⟩, u, hu, hvolume, deployed_of_execute hu⟩

end EasyDeployMesh
