import EasyDeployMesh.Agent.Execution
import EasyDeployMesh.Gho.DecodeLimit

/-!
# The steps of a deployment

What each part of `execute` does, whatever its surroundings answer: which steps it adds to the
trace, what becomes of the image in the cache and of the volume, and why it stops. Each process is
started, and each write to the volume is made, directly after an answer that the job runs.

## Main definitions

* `EasyDeployMesh.Commanded`: what destroys data directly follows an answer that the job runs.
* `EasyDeployMesh.ExecutionWorld.At`: where a deployment stands.
* `EasyDeployMesh.Stopped`: a deployment that has stopped is on plan, and why it has stopped.
* `EasyDeployMesh.Restored`, `EasyDeployMesh.RestoreMismatch`: the volume holds the decoded
  partition, and why it does not.

## Main results

* `EasyDeployMesh.ExecutionWorld.At.ensures_digest`: every byte of the image goes into the digest.
* `EasyDeployMesh.ExecutionWorld.At.ensures_decodeSpansInto`: the writer gets what the decoder
  writes.
* `EasyDeployMesh.ExecutionWorld.At.ensures_restoreGhoPartition`: what the restoration of a
  partition writes, and why it fails.
-/

namespace EasyDeployMesh

open Foundations Dialogue Gho

namespace ExecutionAction

/-- The action is a step of the plan: all but the answers to polls and the writes to the volume. -/
def isStep : ExecutionAction → Bool
  | control _ | writeVolume _ => false
  | _ => true

/-- The action destroys data: a process is started, or the volume is written. -/
def isDestructive : ExecutionAction → Bool
  | start .. | writeVolume _ => true
  | _ => false

/-- The action is part of applying the image. -/
def applies : ExecutionAction → Bool
  | start program _ => program == "dism.exe"
  | lockVolume | writeVolume _ => true
  | _ => false

end ExecutionAction

/-- The last action is an answer that the job runs. -/
def JustRunning (trace : List ExecutionAction) : Prop := trace.getLast? = some (.control .running)

/-- Every action that destroys data directly follows an answer that the job runs. -/
def Commanded (trace : List ExecutionAction) : Prop :=
  ∀ pre action post, trace = pre ++ action :: post → action.isDestructive = true → JustRunning pre

theorem commanded_nil : Commanded [] := by
  intro pre action post h
  simp at h

theorem Commanded.concat {trace : List ExecutionAction} {action : ExecutionAction}
    (h : Commanded trace) (ha : action.isDestructive = true → JustRunning trace) :
    Commanded (trace ++ [action]) := by
  intro pre other post heq hother
  rcases List.eq_nil_or_concat post with rfl | ⟨init, last, rfl⟩
  · obtain ⟨rfl, hlast⟩ := List.append_inj' heq rfl
    obtain rfl : action = other := List.head_eq_of_cons_eq hlast
    exact ha hother
  · rw [List.concat_eq_append, ← List.cons_append, ← List.append_assoc] at heq
    exact h pre other init (List.append_inj' heq rfl).1 hother

/-- Why the Agent stops, apart from what it has found out about the image. -/
def ExecutionError.isEnvironmental : ExecutionError → Bool
  | request _ | io _ | controlState _ | run _ | ghoOutput _ => true
  | _ => false

/-- The error is about a GHO image or about its metadata. -/
def ExecutionError.isGho : ExecutionError → Bool
  | ghoMetadataMissing | parserVersion | gho _ | ghoSize .. | ghoSha256 => true
  | _ => false

/-- The Agent waits, or its surroundings have failed. -/
def IsEnvironmental (halt : Halt ExecutionError) : Prop :=
  ∀ error, halt = .failed error → error.isEnvironmental = true

theorem isEnvironmental_waiting : IsEnvironmental .waiting := by
  intro error h
  cases h

theorem isEnvironmental_failed {error : ExecutionError} (h : error.isEnvironmental = true) :
    IsEnvironmental (.failed error) := by
  intro other hother
  cases hother
  exact h

/-! ### Where a deployment stands -/

/-- The image in the cache and the volume, the steps so far, and whether the volume is locked. An
image that is being applied is `verified`. -/
structure ExecutionWorld.At (verified : List UInt8 → Prop) (image volume : List UInt8)
    (done : List ExecutionAction) (locked : Bool) (w : ExecutionWorld) : Prop where
  image_eq : w.image = image
  volume_eq : w.volume = volume
  steps : w.trace.filter ExecutionAction.isStep = done
  locked_eq : w.locked = locked
  commanded : Commanded w.trace
  verified : (∃ action ∈ w.trace, action.applies = true) → verified image

variable {verified : List UInt8 → Prop} {image volume : List UInt8}
  {done plan : List ExecutionAction} {locked : Bool} {w : ExecutionWorld}

namespace ExecutionWorld.At

theorem noted (h : w.At verified image volume done locked) (action : ExecutionAction)
    (hrunning : action.isDestructive = true → JustRunning w.trace)
    (hverified : action.applies = true → verified image) :
    (w.note action).At verified image volume
      (done ++ [action].filter ExecutionAction.isStep) locked where
  image_eq := h.image_eq
  volume_eq := h.volume_eq
  steps := by rw [ExecutionWorld.note, List.filter_append, h.steps]
  locked_eq := h.locked_eq
  commanded := h.commanded.concat hrunning
  verified := by
    rintro ⟨other, hother, happlies⟩
    rcases List.mem_append.1 hother with hmem | hmem
    · exact h.verified ⟨other, hmem, happlies⟩
    · obtain rfl := List.mem_singleton.1 hmem
      exact hverified happlies

theorem noted_control (h : w.At verified image volume done locked) (state : JobState) :
    (w.note (.control state)).At verified image volume done locked := by
  have hnote := h.noted (.control state) (fun h => nomatch h) fun h => nomatch h
  rwa [List.filter_cons_of_neg Bool.false_ne_true, List.filter_nil, List.append_nil] at hnote

/-- Steps that neither destroy data nor apply the image. -/
theorem noted_quiet {action : ExecutionAction} (h : w.At verified image volume done locked)
    (hstep : action.isStep = true) (hdestructive : action.isDestructive = false)
    (happlies : action.applies = false) :
    (w.note action).At verified image volume (done ++ [action]) locked := by
  have hnote := h.noted action (by simp [hdestructive]) (by simp [happlies])
  rwa [List.filter_cons_of_pos hstep, List.filter_nil] at hnote

theorem mono {verified' : List UInt8 → Prop} (h : w.At verified image volume done locked)
    (hv : verified image → verified' image) : w.At verified' image volume done locked :=
  { h with verified := fun happlies => hv (h.verified happlies) }

/-- The image may change as long as it is not applied. -/
theorem withImage (h : w.At (fun _ => False) image volume done locked) (image' : List UInt8) :
    ({ w with image := image' } : ExecutionWorld).At (fun _ => False) image' volume done locked :=
  { h with image_eq := rfl }

theorem withLocked (h : w.At verified image volume done locked) (locked' : Bool) :
    ({ w with locked := locked' } : ExecutionWorld).At verified image volume done locked' :=
  { h with locked_eq := rfl }

end ExecutionWorld.At

/-- The steps so far are a beginning of the plan, and no image is applied that is not verified. -/
structure OnPlan (verified : List UInt8 → Prop) (plan : List ExecutionAction) (w : ExecutionWorld) :
    Prop where
  steps : w.trace.filter ExecutionAction.isStep <+: plan
  commanded : Commanded w.trace
  verified : (∃ action ∈ w.trace, action.applies = true) → verified w.image

/-- An error about a GHO image is one that rejects this image. -/
def Blames (rejects : List UInt8 → ExecutionError → Prop) (image : List UInt8)
    (halt : Halt ExecutionError) : Prop :=
  ∀ error, halt = .failed error → error.isGho = true → rejects image error

/-- The deployment has stopped, or waits: it is on plan, the volume is not left locked, and an error
about a GHO image rejects the image in the cache. -/
structure Stopped (verified : List UInt8 → Prop) (rejects : List UInt8 → ExecutionError → Prop)
    (plan : List ExecutionAction) (halt : Halt ExecutionError) (w : ExecutionWorld) : Prop where
  onPlan : OnPlan verified plan w
  released : halt ≠ .waiting → w.locked = false
  blames : Blames rejects w.image halt

theorem ExecutionWorld.At.onPlan (h : w.At verified image volume done locked)
    (hplan : done <+: plan) : OnPlan verified plan w where
  steps := h.steps ▸ hplan
  commanded := h.commanded
  verified := fun happlies => h.image_eq ▸ h.verified happlies

section Stopping

variable {rejects : List UInt8 → ExecutionError → Prop} {halt : Halt ExecutionError}

theorem blames_of_isEnvironmental (h : IsEnvironmental halt) : Blames rejects image halt := by
  intro error hhalt hgho
  have henvironmental := h error hhalt
  cases error <;> simp_all [ExecutionError.isEnvironmental, ExecutionError.isGho]

theorem blames_of_not_isGho {error : ExecutionError} (h : error.isGho = false) :
    Blames rejects image (.failed error) := by
  rintro _ ⟨⟩ hgho
  rw [h] at hgho
  cases hgho

theorem ExecutionWorld.At.stopped (h : w.At verified image volume done false)
    (hplan : done <+: plan) (hblames : Blames rejects image halt) :
    Stopped verified rejects plan halt w where
  onPlan := h.onPlan hplan
  released _ := h.locked_eq
  blames := h.image_eq.symm ▸ hblames

end Stopping

/-! ### Answers -/

section Answers

variable {α : Type} {E : Halt ExecutionError → ExecutionWorld → Prop}
  {Q : Unit → ExecutionWorld → Prop}

theorem ensures_mapError {ε : Type} {f : ε → ExecutionError} {Q : α → ExecutionWorld → Prop}
    (x : Except ε α) (hok : ∀ a, Q a w) (herror : ∀ error, E (.failed (f error)) w) :
    Ensures (ofResult (x.mapError f) : Execution α) Q E w := by
  cases x with
  | ok a => exact Ensures.pure (hok a)
  | error error => exact Ensures.fail (herror error)

theorem ensures_fileResult (hok : Q () w) (herror : ∀ halt, IsEnvironmental halt → E halt w) :
    Ensures fileResult Q E w := by
  refine Ensures.bind (Ensures.hear (fun result => ?_) (herror _ isEnvironmental_waiting))
  exact ensures_mapError result (fun _ => hok) fun error =>
    herror _ (isEnvironmental_failed rfl)

theorem ensures_requestResult (hok : Q () w) (herror : ∀ halt, IsEnvironmental halt → E halt w) :
    Ensures requestResult Q E w := by
  refine Ensures.bind (Ensures.hear (fun result => ?_) (herror _ isEnvironmental_waiting))
  exact ensures_mapError result (fun _ => hok) fun error =>
    herror _ (isEnvironmental_failed rfl)

/-- What stops the Agent at a place is of its surroundings. -/
def StopsAt (E : Halt ExecutionError → ExecutionWorld → Prop) (verified : List UInt8 → Prop)
    (image volume : List UInt8) (done : List ExecutionAction) (locked : Bool) : Prop :=
  ∀ halt w, w.At verified image volume done locked → IsEnvironmental halt → E halt w

/-- A step that neither destroys data nor applies the image. -/
theorem ExecutionWorld.At.ensures_fileStep {action : ExecutionAction}
    (h : w.At verified image volume done locked) (hstep : action.isStep = true)
    (hdestructive : action.isDestructive = false) (happlies : action.applies = false)
    (hE : StopsAt E verified image volume (done ++ [action]) locked) :
    Ensures (fileStep action)
      (fun _ w => w.At verified image volume (done ++ [action]) locked) E w := by
  have hnote := h.noted_quiet hstep hdestructive happlies
  exact Ensures.bind (Ensures.act (ensures_fileResult hnote fun halt => hE halt _ hnote))

theorem ExecutionWorld.At.ensures_requestStep {action : ExecutionAction}
    (h : w.At verified image volume done locked) (hstep : action.isStep = true)
    (hdestructive : action.isDestructive = false) (happlies : action.applies = false)
    (hE : StopsAt E verified image volume (done ++ [action]) locked) :
    Ensures (requestStep action)
      (fun _ w => w.At verified image volume (done ++ [action]) locked) E w := by
  have hnote := h.noted_quiet hstep hdestructive happlies
  exact Ensures.bind (Ensures.act (ensures_requestResult hnote fun halt => hE halt _ hnote))

theorem ExecutionWorld.At.ensures_progress {stage : DeploymentStage} {progressPercent : UInt8}
    {message : String} (h : w.At verified image volume done locked)
    (hE : StopsAt E verified image volume (done ++ [.report stage progressPercent message])
      locked) :
    Ensures (progress stage progressPercent message)
      (fun _ w => w.At verified image volume (done ++ [.report stage progressPercent message])
        locked)
      E w :=
  h.ensures_requestStep rfl rfl rfl hE

/-! ### Polls and processes -/

theorem ExecutionWorld.At.ensures_controlState (h : w.At verified image volume done locked)
    (hE : StopsAt E verified image volume done locked) :
    Ensures controlState (fun state w => w.At verified image volume done locked ∧
      w.trace.getLast? = some (.control state)) E w := by
  refine Ensures.bind (Ensures.hear (fun result => ?_) (hE _ w h isEnvironmental_waiting))
  refine Ensures.bind (ensures_mapError result (fun state => ?_) fun error =>
    hE _ w h (isEnvironmental_failed rfl))
  refine Ensures.bind (Ensures.act (Ensures.pure ⟨h.noted_control state, ?_⟩))
  rw [ExecutionWorld.note, List.getLast?_append, List.getLast?_singleton, Option.some_or]

theorem ExecutionWorld.At.ensures_awaitRunning (h : w.At verified image volume done locked)
    (hE : StopsAt E verified image volume done locked) :
    Ensures awaitRunning (fun _ w => w.At verified image volume done locked ∧
      JustRunning w.trace) E w := by
  refine Ensures.loop (fun _ w hw => hE _ w hw isEnvironmental_waiting) (fun _ w hw => ?_) h
  refine Ensures.bind_of (hw.ensures_controlState hE) fun state w hw => ?_
  cases state with
  | running => exact Ensures.pure hw
  | paused => exact Ensures.pure hw.1
  | _ => exact Ensures.fail (hE _ w hw.1 (isEnvironmental_failed rfl))

theorem ExecutionWorld.At.ensures_runChecked {program : String} {arguments : List String}
    (h : w.At verified image volume done locked) (hrunning : JustRunning w.trace)
    (hverified : program = "dism.exe" → verified image)
    (hE : StopsAt E verified image volume (done ++ [.start program arguments]) locked) :
    Ensures (runChecked program arguments)
      (fun _ w => w.At verified image volume (done ++ [.start program arguments]) locked) E w := by
  have hnote : (w.note (.start program arguments)).At verified image volume
      (done ++ [.start program arguments]) locked :=
    h.noted (.start program arguments) (fun _ => hrunning) fun happlies =>
      hverified (beq_iff_eq.1 happlies)
  refine Ensures.bind (Ensures.bind (Ensures.act (ensures_fileResult ?_ fun halt =>
    hE halt _ hnote)))
  refine Ensures.loop (fun _ w hw => hE _ w hw isEnvironmental_waiting) (fun suspended w hw => ?_)
    hnote
  refine Ensures.bind (Ensures.hear (fun turn => ?_) (hE _ w hw isEnvironmental_waiting))
  obtain ⟨requestedState, status, exit⟩ := turn
  change Ensures (afterPass (runCheckedPass suspended requestedState status exit)) _ _ _
  cases runCheckedPass suspended requestedState status exit with
  | idle => exact Ensures.pure hw
  | waiting suspended => exact Ensures.pure hw
  | returned result killed =>
    exact Ensures.bind (ensures_mapError result (fun _ => Ensures.pure hw) fun error =>
      hE _ w hw (isEnvironmental_failed rfl))

end Answers

/-! ### The image -/

section Image

variable {E : Halt ExecutionError → ExecutionWorld → Prop}
  {server downloadUrl deviceToken path : String}

theorem ExecutionWorld.At.ensures_storeChunk (h : w.At (fun _ => False) image volume done locked)
    (chunk : List UInt8) (hE : ∀ image, StopsAt E (fun _ => False) image volume done locked) :
    Ensures (storeChunk chunk)
      (fun _ w => w.At (fun _ => False) (image ++ chunk) volume done locked) E w := by
  refine Ensures.bind (Ensures.hear (fun result => ?_) (hE _ _ w h isEnvironmental_waiting))
  rcases result with ⟨count, source⟩ | _
  · refine Ensures.bind (Ensures.act (Ensures.fail ?_))
    exact hE _ _ _ (h.withImage _) (isEnvironmental_failed rfl)
  · refine Ensures.act ?_
    rw [h.image_eq]
    exact h.withImage _

/-- The steps of `download_file`. -/
def downloadSteps (server downloadUrl deviceToken path : String) : List ExecutionAction :=
  [.createDirAll imageDirectory, .get (imageUrl server downloadUrl) deviceToken, .createFile path]

theorem ExecutionWorld.At.ensures_downloadFile
    (h : w.At (fun _ => False) image volume done locked)
    (hE : ∀ image steps, steps <+: done ++ downloadSteps server downloadUrl deviceToken path →
      StopsAt E (fun _ => False) image volume steps locked) :
    Ensures (downloadFile downloadUrl server deviceToken path) (fun _ w => ∃ image,
      w.At (fun _ => False) image volume
        (done ++ downloadSteps server downloadUrl deviceToken path) locked) E w := by
  have hinitial : ∀ n, done ++ (downloadSteps server downloadUrl deviceToken path).take n <+:
      done ++ downloadSteps server downloadUrl deviceToken path := fun n =>
    (List.prefix_append_right_inj done).2 (List.take_prefix n _)
  refine Ensures.bind_of (h.ensures_fileStep rfl rfl rfl (hE _ _ (hinitial 1))) fun _ w hdir => ?_
  refine Ensures.bind_of (hdir.ensures_requestStep rfl rfl rfl ?_) fun _ w hget => ?_
  · rw [List.append_assoc]
    exact hE _ _ (hinitial 2)
  rw [List.append_assoc] at hget
  refine Ensures.bind_of (hget.ensures_fileStep rfl rfl rfl ?_) fun _ w hcreate => ?_
  · rw [List.append_assoc]
    exact hE _ _ (hinitial 3)
  rw [List.append_assoc] at hcreate
  refine Ensures.bind (Ensures.act (Ensures.bind_of (Q := fun _ w => ∃ image, w.At (fun _ => False)
    image volume (done ++ downloadSteps server downloadUrl deviceToken path) locked) ?_ ?_))
  · refine Ensures.loop (I := fun _ w => ∃ image, w.At (fun _ => False) image volume
      (done ++ downloadSteps server downloadUrl deviceToken path) locked) ?_ ?_
      ⟨[], hcreate.withImage []⟩
    · rintro _ w ⟨image, hw⟩
      exact hE _ _ (hinitial 3) _ w hw isEnvironmental_waiting
    · rintro _ w ⟨image, hw⟩
      have hstops : ∀ image, StopsAt E (fun _ => False) image volume
          (done ++ downloadSteps server downloadUrl deviceToken path) locked :=
        fun image => hE image _ (hinitial 3)
      refine Ensures.bind_of (hw.ensures_awaitRunning (hstops image)) ?_
      rintro _ w ⟨hw, -⟩
      refine Ensures.bind (Ensures.hear (fun body => ?_) (hstops _ _ w hw isEnvironmental_waiting))
      refine Ensures.bind (ensures_mapError body (fun bytes => ?_) fun error =>
        hstops _ _ w hw (isEnvironmental_failed rfl))
      by_cases hempty : (bytes.take imageBufferLen).isEmpty = true
      · simp only [hempty, if_true]
        exact Ensures.pure ⟨image, hw⟩
      · simp only [hempty, Bool.false_eq_true, if_false]
        exact Ensures.bind_of (hw.ensures_storeChunk _ hstops) fun _ w hw =>
          Ensures.pure ⟨_, hw⟩
  · rintro _ w ⟨image, hw⟩
    exact ensures_fileResult ⟨image, hw⟩ fun halt => hE _ _ (hinitial 3) halt _ hw

/-- Before the end of a file, a read returns something. -/
theorem readChunk_eq_nil_iff {file : List UInt8} {offset count : ℕ} :
    readChunk file offset count = [] ↔ file.length ≤ offset := by
  rw [readChunk, List.take_eq_nil_iff, List.drop_eq_nil_iff]
  omega

/-- A read goes on where the last one has ended. -/
theorem take_append_readChunk {file : List UInt8} {offset count : ℕ} :
    file.take offset ++ readChunk file offset count =
      file.take (offset + (readChunk file offset count).length) := by
  rw [List.take_add, readChunk, List.length_take, ← List.take_eq_take_min]

/-- Every byte of the image goes into the digest. -/
theorem ExecutionWorld.At.ensures_digest (h : w.At verified image volume done locked)
    (hE : StopsAt E verified image volume done locked) :
    Ensures (loop verifyPass []) (fun digested w => w.At verified image volume done locked ∧
      digested = image) E w := by
  refine Ensures.loop (I := fun digested w => w.At verified image volume done locked ∧
    digested = image.take digested.length) ?_ ?_ ⟨h, rfl⟩
  · rintro _ w ⟨hw, -⟩
    exact hE _ w hw isEnvironmental_waiting
  · rintro digested w ⟨hw, hdigested⟩
    refine Ensures.bind_of (hw.ensures_awaitRunning hE) ?_
    rintro _ w ⟨hw, -⟩
    refine Ensures.bind (Ensures.hear (fun count => ?_) (hE _ w hw isEnvironmental_waiting))
    refine Ensures.bind (ensures_mapError count (fun count => ?_) fun failure =>
      hE _ w hw (isEnvironmental_failed (by cases failure <;> rfl)))
    refine Ensures.bind (Ensures.look ?_)
    rw [hw.image_eq]
    by_cases hempty : readChunk image digested.length count = []
    · simp only [hempty, List.isEmpty_nil, if_true]
      refine Ensures.pure ⟨hw, ?_⟩
      rw [hdigested, List.take_of_length_le (readChunk_eq_nil_iff.1 hempty)]
    · simp only [List.isEmpty_iff, hempty, if_false]
      refine Ensures.pure ⟨hw, ?_⟩
      rw [List.length_append, ← take_append_readChunk, ← hdigested]

variable (sha256 : List UInt8 → String)

/-- The digest of the image is the approved one. -/
def Approved (lease : AgentJobLease) (image : List UInt8) : Prop :=
  Text.eqIgnoreAsciiCase (sha256 image) lease.image.sha256 = true

theorem ExecutionWorld.At.ensures_verifyImage {lease : AgentJobLease}
    (h : w.At verified image volume done locked)
    (hE : StopsAt E verified image volume done locked)
    (hchecksum : ∀ w, w.At verified image volume done locked → E (.failed .checksum) w) :
    Ensures (verifyImage sha256 lease.image.sha256) (fun _ w =>
      w.At verified image volume done locked ∧ Approved sha256 lease image) E w := by
  refine Ensures.bind (ensures_fileResult ?_ fun halt => hE halt w h)
  refine Ensures.bind_of (h.ensures_digest hE) ?_
  rintro digested w ⟨hw, hdigested⟩
  rw [hdigested]
  by_cases hsha : Text.eqIgnoreAsciiCase (sha256 image) lease.image.sha256 = true
  · simp only [hsha, Bool.not_true, Bool.false_eq_true, if_false]
    exact Ensures.pure ⟨hw, hsha⟩
  · simp only [hsha, Bool.not_false, if_true]
    exact Ensures.fail (hchecksum w hw)

end Image

/-! ### Restoring a GHO partition -/

/-- The writer after these bytes. -/
def DigestWriter.of (bytes : List UInt8) : DigestWriter where
  digested := bytes
  written := min bytes.length maxWritten

theorem DigestWriter.push_of (bytes more : List UInt8) :
    (DigestWriter.of bytes).push more = DigestWriter.of (bytes ++ more) := by
  simp only [DigestWriter.push, DigestWriter.of, List.length_append, DigestWriter.mk.injEq,
    true_and]
  omega

section Restore

variable {E : Halt ExecutionError → ExecutionWorld → Prop} {written : List UInt8}

/-- A write takes a part of the bytes, or is interrupted. -/
theorem ExecutionWorld.At.ensures_write (h : w.At verified image written done true)
    (hverified : verified image) (bytes : List UInt8)
    (hE : ∀ written, StopsAt E verified image written done true) :
    Ensures ((DigestWriter.of written).write bytes) (fun r w =>
      r = (none, .of written) ∧ w.At verified image written done true ∨
      ∃ taken rest, bytes = taken ++ rest ∧ r = (some taken.length, .of (written ++ taken)) ∧
        w.At verified image (written ++ taken) done true) E w := by
  refine Ensures.bind (Ensures.attempt (Ensures.mono (h.ensures_awaitRunning (E := fun halt w =>
    w.At verified image written done true) fun _ _ hw _ => hw) ?_ ?_))
  · rintro _ w ⟨hw, hrunning⟩
    refine Ensures.bind (Ensures.hear (fun count => ?_) (hE _ _ w hw isEnvironmental_waiting))
    rcases count with (_ | source) | count
    · exact Ensures.pure (Or.inl ⟨rfl, hw⟩)
    · exact Ensures.fail (hE _ _ w hw (isEnvironmental_failed rfl))
    · have hnote := hw.noted (.writeVolume (bytes.take count)) (fun _ => hrunning)
        fun _ => hverified
      rw [List.filter_cons_of_neg Bool.false_ne_true, List.filter_nil, List.append_nil] at hnote
      refine Ensures.bind (Ensures.act (Ensures.pure (Or.inr ⟨bytes.take count, bytes.drop count,
        (List.take_append_drop count bytes).symm, ?_, ?_⟩)))
      · rw [DigestWriter.push_of]
      · rw [hw.volume_eq]
        exact { hnote with volume_eq := rfl }
  · rintro (error | _) w hw
    · exact Ensures.fail (hE _ _ w hw (isEnvironmental_failed rfl))
    · exact hE _ _ w hw isEnvironmental_waiting

theorem ExecutionWorld.At.ensures_writeAll (h : w.At verified image written done true)
    (hverified : verified image) (bytes : List UInt8)
    (hE : ∀ written, StopsAt E verified image written done true) :
    Ensures ((DigestWriter.of written).writeAll bytes) (fun writer w =>
      writer = .of (written ++ bytes) ∧ w.At verified image (written ++ bytes) done true) E w := by
  refine Ensures.loop (I := fun s w => ∃ taken, s.1 = .of (written ++ taken) ∧
    bytes = taken ++ s.2 ∧ w.At verified image (written ++ taken) done true) ?_ ?_ ⟨[], ?_⟩
  · rintro s w ⟨taken, -, -, hw⟩
    exact hE _ _ w hw isEnvironmental_waiting
  · rintro ⟨writer, rest⟩ w ⟨taken, rfl, rfl, hw⟩
    unfold writeAllPass
    by_cases hempty : rest.isEmpty = true
    · simp only [hempty, if_true]
      rw [List.isEmpty_iff.1 hempty, List.append_nil]
      exact Ensures.pure ⟨rfl, hw⟩
    · simp only [hempty, Bool.false_eq_true, if_false]
      refine Ensures.bind_of (hw.ensures_write hverified rest hE) ?_
      rintro r w (⟨rfl, hw⟩ | ⟨more, rest', rfl, rfl, hw⟩)
      · exact Ensures.pure ⟨taken, rfl, rfl, hw⟩
      · cases more with
        | nil => exact Ensures.fail (hE _ _ w hw (isEnvironmental_failed rfl))
        | cons byte more =>
          refine Ensures.pure ⟨taken ++ byte :: more, ?_, ?_, ?_⟩
          · rw [List.append_assoc]
          · rw [List.append_assoc, List.drop_left]
          · rwa [← List.append_assoc]
  · rw [List.append_nil]
    exact ⟨rfl, rfl, h⟩

variable {inflate : List UInt8 → Option (List UInt8)} {file : List UInt8}
  {compression : Compression} {limit stop offset : ℕ} {p q : Progress} {spans : List (ℕ × ℕ)}

theorem written_of_blockStep {next : ℕ}
    (h : blockStep inflate file compression limit stop offset p = .ok (some (next, q))) :
    q.written = p.written ++ q.written.drop p.written.length := by
  obtain ⟨-, -, length, -, -, h⟩ := blockStep_eq_some_iff.1 h
  obtain ⟨data, count, expanded, -, -, -, -, -, -, -, -, -, rfl⟩ := storedStep_eq_ok_iff.1 h
  rw [List.drop_left]

theorem decodeSpanInto_eq (writer : DigestWriter) :
    decodeSpanInto inflate file compression limit stop offset p writer =
      if offset + 2 < 2 ^ 64 ∧ offset + 2 ≤ stop then do
        fileResult
        match blockStep inflate file compression limit stop offset p with
        | .error reason => fail (.gho reason)
        | .ok none => pure (p, writer)
        | .ok (some (next, q)) => do
          let writer ← writer.writeAll (q.written.drop p.written.length)
          decodeSpanInto inflate file compression limit stop next q writer
      else pure (p, writer) := by
  rw [decodeSpanInto]
  refine if_congr Iff.rfl (congrArg _ (funext fun _ => ?_)) rfl
  split <;> simp_all only

/-- The writer gets what the decoder writes. -/
theorem ExecutionWorld.At.ensures_decodeSpanInto (h : w.At verified image p.written done true)
    (hverified : verified image) (hE : ∀ written, StopsAt E verified image written done true)
    (hgho : ∀ reason written w,
      (decodeSpan inflate file compression limit stop offset p).1 = .error reason →
      w.At verified image written done true → E (.failed (.gho reason)) w) :
    Ensures (decodeSpanInto inflate file compression limit stop offset p (.of p.written))
      (fun r w => decodeSpan inflate file compression limit stop offset p = (.ok (), r.1) ∧
        r.2 = .of r.1.written ∧ w.At verified image r.1.written done true) E w := by
  induction hn : stop - offset using Nat.strong_induction_on generalizing offset p w with
  | _ n ih =>
    rw [decodeSpanInto_eq]
    rw [decodeSpan_eq] at hgho ⊢
    by_cases hroom : offset + 2 < 2 ^ 64 ∧ offset + 2 ≤ stop
    · rw [if_pos hroom]
      refine Ensures.bind (ensures_fileResult ?_ fun halt => hE _ halt w h)
      cases hstep : blockStep inflate file compression limit stop offset p with
      | error reason =>
        rw [hstep] at hgho
        exact Ensures.fail (hgho reason _ w rfl h)
      | ok next =>
        rcases next with _ | ⟨next, q⟩
        · exact Ensures.pure ⟨rfl, rfl, h⟩
        · rw [hstep] at hgho
          have hwritten := written_of_blockStep hstep
          have hnext := blockStep_next hstep
          refine Ensures.bind_of (h.ensures_writeAll hverified (q.written.drop p.written.length) hE)
            ?_
          rintro writer w ⟨rfl, hw⟩
          rw [← hwritten] at hw ⊢
          exact ih (stop - next) (by omega) hw hgho rfl
    · rw [if_neg hroom]
      have hnone : blockStep inflate file compression limit stop offset p = .ok none := by
        unfold blockStep
        rw [if_neg hroom]
        rfl
      rw [hnone]
      exact Ensures.pure ⟨rfl, rfl, h⟩

theorem ExecutionWorld.At.ensures_decodeSpansInto (h : w.At verified image p.written done true)
    (hverified : verified image) (hE : ∀ written, StopsAt E verified image written done true)
    (hgho : ∀ reason written w,
      (decodeSpans inflate file compression limit spans p).1 = .error reason →
      w.At verified image written done true → E (.failed (.gho reason)) w) :
    Ensures (decodeSpansInto inflate file compression limit spans p (.of p.written))
      (fun r w => decodeSpans inflate file compression limit spans p = (.ok (), r.1) ∧
        r.2 = .of r.1.written ∧ w.At verified image r.1.written done true) E w := by
  induction spans generalizing p w with
  | nil => exact Ensures.pure ⟨rfl, rfl, h⟩
  | cons span spans ih =>
    refine Ensures.bind_of (h.ensures_decodeSpanInto hverified hE fun reason written w hreason =>
      hgho reason written w ?_) ?_
    · rw [decodeSpans, Prod.eta (decodeSpan inflate file compression limit span.2 span.1 p) |>.symm,
        hreason]
    · rintro ⟨q, writer⟩ w ⟨hdecode, hwriter, hw⟩
      obtain rfl : writer = .of q.written := hwriter
      rw [decodeSpans, hdecode] at hgho ⊢
      exact ih hw hgho

variable {sourcePartition : ℕ}

theorem ExecutionWorld.At.ensures_decodePartitionInto (h : w.At verified image [] done true)
    (hverified : verified image) (hE : ∀ written, StopsAt E verified image written done true)
    (hgho : ∀ reason written w,
      (decodePartition inflate file sourcePartition limit).1 = .error reason →
      w.At verified image written done true → E (.failed (.gho reason)) w) :
    Ensures (decodePartitionInto inflate file sourcePartition limit (.of []))
      (fun r w => ∃ info written,
        decodePartition inflate file sourcePartition limit = (.ok (info, r.1), written) ∧
        r.2 = .of written ∧ w.At verified image written done true) E w := by
  refine Ensures.bind (ensures_fileResult ?_ fun halt => hE _ halt w h)
  cases hparse : parse file with
  | error error =>
    refine Ensures.bind (Ensures.fail (hgho _ _ w ?_ h))
    rw [decodePartition, hparse]
    rfl
  | ok result =>
    obtain ⟨partitions, info⟩ := result
    cases hselect : selectPartition partitions info sourcePartition with
    | error error =>
      refine Ensures.bind (Ensures.pure (Ensures.bind ?_))
      rw [hselect]
      refine Ensures.fail (hgho _ _ w ?_ h)
      rw [decodePartition, hparse]
      simp only [bind, Except.bind, hselect]
    | ok partition =>
      rw [decodePartition_of_parse hparse hselect] at hgho ⊢
      refine Ensures.bind (Ensures.pure (Ensures.bind ?_))
      rw [hselect]
      refine Ensures.pure (Ensures.bind_of (ExecutionWorld.At.ensures_decodeSpansInto
        (p := .start) h hverified hE fun reason written w hreason => hgho reason written w ?_) ?_)
      · rw [hreason]
        rfl
      · rintro ⟨q, writer⟩ w ⟨hdecode, hwriter, hw⟩
        refine Ensures.pure ⟨info, q.written, ?_, hwriter, hw⟩
        rw [hdecode]
        rfl

end Restore

/-- The volume holds the decoded partition, with the size and the digest of the metadata. -/
structure Restored (sha256 : List UInt8 → String) (inflate : List UInt8 → Option (List UInt8))
    (metadata : AgentGhoDeployment) (image volume : List UInt8) : Prop where
  decoded : ∃ info, decodePartition inflate image metadata.sourcePartition.toNat
    metadata.expandedSizeBytes.toNat = (.ok (info, metadata.expandedSizeBytes.toNat), volume)
  length : volume.length = metadata.expandedSizeBytes.toNat
  digest : Text.eqIgnoreAsciiCase (sha256 volume) metadata.expandedSha256 = true

/-- The image is not what the metadata say. -/
inductive RestoreMismatch (sha256 : List UInt8 → String)
    (inflate : List UInt8 → Option (List UInt8))
    (metadata : AgentGhoDeployment) (image : List UInt8) : ExecutionError → Prop
  | parserVersion (h : metadata.parserVersion ≠ ghoParserVersion) :
    RestoreMismatch sha256 inflate metadata image .parserVersion
  | gho {reason : Stop} (h : (decodePartition inflate image metadata.sourcePartition.toNat
      metadata.expandedSizeBytes.toNat).1 = .error reason) :
    RestoreMismatch sha256 inflate metadata image (.gho reason)
  | size {info : ImageInfo} {total : ℕ} {written : List UInt8} {decoded counted : ℕ}
      (h : decodePartition inflate image metadata.sourcePartition.toNat
        metadata.expandedSizeBytes.toNat = (.ok (info, total), written))
      (hsize : total ≠ metadata.expandedSizeBytes.toNat) :
    RestoreMismatch sha256 inflate metadata image
      (.ghoSize metadata.expandedSizeBytes decoded counted)
  | digest {info : ImageInfo} {total : ℕ} {written : List UInt8}
      (h : decodePartition inflate image metadata.sourcePartition.toNat
        metadata.expandedSizeBytes.toNat = (.ok (info, total), written))
      (hdigest : Text.eqIgnoreAsciiCase (sha256 written) metadata.expandedSha256 = false) :
    RestoreMismatch sha256 inflate metadata image .ghoSha256

section Volume

variable {E : Halt ExecutionError → ExecutionWorld → Prop} {sha256 : List UInt8 → String}
  {inflate : List UInt8 → Option (List UInt8)} {metadata : AgentGhoDeployment}

/-- What the restoration writes, and why it fails. -/
theorem ExecutionWorld.At.ensures_restoreLocked (h : w.At verified image [] done true)
    (hverified : verified image) (hE : ∀ written, StopsAt E verified image written done true)
    (hmismatch : ∀ error written w, RestoreMismatch sha256 inflate metadata image error →
      w.At verified image written done true → E (.failed error) w) :
    Ensures (restoreLocked sha256 inflate metadata) (fun _ w => ∃ volume,
      w.At verified image volume done true ∧ Restored sha256 inflate
        metadata image volume) E w := by
  refine Ensures.bind (Ensures.look ?_)
  rw [h.image_eq]
  refine Ensures.bind_of (h.ensures_decodePartitionInto hverified hE
    fun reason written w hreason hw => hmismatch _ written w (.gho hreason) hw) ?_
  rintro ⟨decoded, writer⟩ w ⟨info, written, hdecode, hwriter, hw⟩
  obtain rfl : writer = .of written := hwriter
  obtain ⟨hlength, hlimit⟩ := length_of_decodePartition hdecode
  refine Ensures.bind (ensures_fileResult ?_ fun halt => hE _ halt w hw)
  refine Ensures.bind (ensures_fileResult ?_ fun halt => hE _ halt w hw)
  have hcounted : (DigestWriter.of written).written = decoded := by
    have hsize := metadata.expandedSizeBytes.toNat_lt
    simp only [DigestWriter.of, maxWritten]
    omega
  by_cases hsize : decoded = metadata.expandedSizeBytes.toNat
  · subst hsize
    rw [hcounted]
    simp only [ne_eq, not_true, or_self, if_false]
    by_cases hdigest : Text.eqIgnoreAsciiCase (sha256 written) metadata.expandedSha256 = true
    · simp only [DigestWriter.of, hdigest, Bool.not_true, Bool.false_eq_true, if_false]
      exact Ensures.pure ⟨written, hw, ⟨info, hdecode⟩, hlength, hdigest⟩
    · simp only [DigestWriter.of, hdigest, Bool.not_false, if_true]
      exact Ensures.fail (hmismatch _ _ w (.digest hdecode (Bool.eq_false_iff.2 hdigest)) hw)
  · rw [if_pos (Or.inl hsize)]
    exact Ensures.bind (Ensures.fail (hmismatch _ _ w (.size hdecode hsize) hw))

/-- The restoration takes one step, and releases the volume however it ends. -/
theorem ExecutionWorld.At.ensures_restoreGhoPartition (h : w.At verified image [] done false)
    (hverified : verified image)
    (hE : ∀ volume steps, steps <+: done ++ [.lockVolume] →
      StopsAt E verified image volume steps false)
    (hwaiting : ∀ volume w, w.At verified image volume (done ++ [.lockVolume]) true → E .waiting w)
    (hmismatch : ∀ error volume steps w, RestoreMismatch sha256 inflate metadata image error →
      steps <+: done ++ [.lockVolume] → w.At verified image volume steps false →
      E (.failed error) w) :
    Ensures (restoreGhoPartition sha256 inflate metadata) (fun _ w => ∃ volume,
      w.At verified image volume (done ++ [.lockVolume]) false ∧
      Restored sha256 inflate metadata image volume) E w := by
  have hdone : done <+: done ++ [ExecutionAction.lockVolume] := List.prefix_append _ _
  have hstops := hE [] done hdone
  by_cases hversion : metadata.parserVersion = ghoParserVersion
  swap
  · simp only [restoreGhoPartition, ne_eq, hversion, not_false_eq_true, if_true]
    exact Ensures.bind (Ensures.fail
      (hmismatch _ [] _ w (.parserVersion hversion) hdone h))
  simp only [restoreGhoPartition, ne_eq, hversion, not_true, if_false]
  refine Ensures.bind (ensures_fileResult ?_ fun halt => hstops halt _ h)
  refine Ensures.bind (ensures_fileResult ?_ fun halt => hstops halt _ h)
  have hlock : (w.note .lockVolume).At verified image [] (done ++ [.lockVolume]) false :=
    h.noted .lockVolume (fun h => nomatch h) fun _ => hverified
  have hstops := fun volume => hE volume (done ++ [.lockVolume]) List.prefix_rfl
  refine Ensures.bind_of (Q := fun _ w => w.At verified image [] (done ++ [.lockVolume]) true)
    ?_ fun _ w hw => ?_
  · refine Ensures.bind (Ensures.bind (Ensures.act (ensures_fileResult ?_ fun halt =>
      hstops [] halt _ hlock)))
    have hheld := hlock.withLocked true
    refine Ensures.bind (Ensures.act (Ensures.bind (Ensures.attempt ?_)))
    refine ensures_fileResult (Ensures.pure hheld) fun halt hhalt => ?_
    cases halt with
    | failed error =>
      exact Ensures.bind (Ensures.act (Ensures.fail
        (hstops [] _ _ (hheld.withLocked false) hhalt)))
    | waiting => exact hwaiting [] _ hheld
  · refine Ensures.bind (Ensures.attempt (Ensures.mono (hw.ensures_restoreLocked hverified
      (E := fun halt w => ∃ volume, w.At verified image volume (done ++ [.lockVolume]) true ∧
        ∀ error, halt = .failed error → error.isEnvironmental = true ∨
          RestoreMismatch sha256 inflate metadata image error) ?_ ?_) ?_ ?_))
    · exact fun volume halt w hw hhalt => ⟨volume, hw, fun error heq => Or.inl (hhalt error heq)⟩
    · rintro error volume w herror hw
      refine ⟨volume, hw, fun other heq => ?_⟩
      cases heq
      exact Or.inr herror
    · rintro _ w ⟨volume, hw, hrestored⟩
      exact Ensures.bind (Ensures.act (Ensures.pure ⟨volume, hw.withLocked false, hrestored⟩))
    · rintro (error | _) w ⟨volume, hw, herror⟩
      · refine Ensures.bind (Ensures.act (Ensures.fail ?_))
        rcases herror error rfl with henvironment | hmis
        · exact hstops volume _ _ (hw.withLocked false) (isEnvironmental_failed henvironment)
        · exact hmismatch _ volume _ _ hmis List.prefix_rfl (hw.withLocked false)
      · exact hwaiting volume w hw

end Volume

end EasyDeployMesh
