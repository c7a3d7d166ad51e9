import EasyDeployMesh.Agent.HostAcceptance
import EasyDeployMesh.Agent.RunChecked
import EasyDeployMesh.Foundations.Dialogue
import EasyDeployMesh.Gho.Decode
import EasyDeployMesh.Service.ImageLibrary

/-!
# Carrying out a deployment

`execute` of `crates/agent/src/deployment.rs` as it runs inside Windows PE, in dialogue with what
surrounds it: the control plane accepts a progress report or not and answers the polls, a request
or a file operation may fail, a read and a write take as many bytes as they take, and a process ends
as it ends. The trace records what the Agent does, whether or not it succeeds. The deflate library
and the digest function are parameters.

## Main definitions

* `EasyDeployMesh.ExecutionAction`, `EasyDeployMesh.ExecutionWorld`,
  `EasyDeployMesh.ExecutionAnswer`: what the Agent does, the disk, and what the Agent hears.
* `EasyDeployMesh.awaitRunning`, `EasyDeployMesh.runChecked`, `EasyDeployMesh.downloadFile`,
  `EasyDeployMesh.verifyImage`, `EasyDeployMesh.restoreGhoPartition`: the steps.
* `EasyDeployMesh.execute`: the deployment.

## Main results

* `EasyDeployMesh.awaitRunning_eq`: the Agent polls until the job runs.
* `EasyDeployMesh.goesOnHearing_runCheckedTurn`, `EasyDeployMesh.goesOnHearing_downloadPass`,
  `EasyDeployMesh.goesOnHearing_verifyPass`, `EasyDeployMesh.goesOnHearing_writeAllPass`: every pass
  of the loops hears an answer, so each loop is its own unfolding.
-/

namespace EasyDeployMesh

open Foundations Dialogue Gho

/-! ### The Agent and its surroundings -/

/-- The errors on which a deployment stops. -/
inductive ExecutionError
  | incompatible
  | ghoMetadataMissing
  | deployment (source : DeploymentError)
  | request (source : RequestError)
  | io (source : String)
  | controlState (state : JobState)
  | run (source : RunError)
  | checksum
  | parserVersion
  | gho (reason : Stop)
  /-- The output of the decoder fails. -/
  | ghoOutput (source : ExecutionError)
  | ghoSize (expected : UInt64) (decoded written : ℕ)
  | ghoSha256
  deriving DecidableEq

/-- How a read or a write fails. -/
inductive IoFailure
  | interrupted
  | other (source : String)
  deriving DecidableEq

/-- What a deployment does to the world, in the words of the calls of the source. -/
inductive ExecutionAction
  | report (stage : DeploymentStage) (progressPercent : UInt8) (message : String)
  /-- A poll is answered with this state. -/
  | control (state : JobState)
  | createDirAll (path : String)
  | writeFile (path text : String)
  | get (url deviceToken : String)
  | createFile (path : String)
  | start (program : String) (arguments : List String)
  | lockVolume
  /-- Bytes have reached the volume. -/
  | writeVolume (bytes : List UInt8)
  deriving DecidableEq

/-- The trace, the image in the cache, what has been written to the volume `W:` from its beginning,
and whether the volume is locked. -/
structure ExecutionWorld where
  trace : List ExecutionAction
  image : List UInt8
  volume : List UInt8
  locked : Bool
  deriving DecidableEq

/-- What the world answers to an action. -/
inductive ExecutionAnswer
  | request (result : Except RequestError Unit)
  | control (state : Except RequestError JobState)
  /-- A part of the body of a response. -/
  | body (bytes : Except String (List UInt8))
  | file (result : Except String Unit)
  /-- The end of `write_all` on a file: where it fails, so many bytes have reached the file. -/
  | stored (result : Except (ℕ × String) Unit)
  | count (result : Except IoFailure ℕ)
  /-- What one pass of the loop of `run_checked` learns. -/
  | pass (requestedState : Except RequestError JobState) (status : Int32)
      (exit : Except String (Option UInt32))

namespace ExecutionAnswer

/-- The answer to a request of the Agent. -/
def asRequest : ExecutionAnswer → Option (Except RequestError Unit)
  | request result => some result
  | _ => none

/-- The answer to a poll of the control endpoint. -/
def asControl : ExecutionAnswer → Option (Except RequestError JobState)
  | control state => some state
  | _ => none

/-- The next part of the body of a response. -/
def asBody : ExecutionAnswer → Option (Except String (List UInt8))
  | body bytes => some bytes
  | _ => none

/-- The answer to an operation of the file system. -/
def asFile : ExecutionAnswer → Option (Except String Unit)
  | file result => some result
  | _ => none

/-- The answer to a write of a buffer in full. -/
def asStored : ExecutionAnswer → Option (Except (ℕ × String) Unit)
  | stored result => some result
  | _ => none

/-- The number of bytes that one read or write moved. -/
def asCount : ExecutionAnswer → Option (Except IoFailure ℕ)
  | count result => some result
  | _ => none

/-- The answers that one pass of `run_checked` hears. -/
def asPass : ExecutionAnswer →
    Option (Except RequestError JobState × Int32 × Except String (Option UInt32))
  | pass requestedState status exit => some (requestedState, status, exit)
  | _ => none

end ExecutionAnswer

/-- A deployment: it stops on an error, hears answers and leaves a trace of its actions. -/
abbrev Execution := Dialogue ExecutionError ExecutionAnswer ExecutionWorld

/-- The world before the deployment. -/
def ExecutionWorld.start : ExecutionWorld where
  trace := []
  image := []
  volume := []
  locked := false

/-- The world with one more action at the end of its trace. -/
def ExecutionWorld.note (action : ExecutionAction) (w : ExecutionWorld) : ExecutionWorld :=
  { w with trace := w.trace ++ [action] }

/-- An action whose answer is not read at once. -/
def record (action : ExecutionAction) : Execution Unit := act (ExecutionWorld.note action)

/-- The result of a file operation. -/
def fileResult : Execution Unit := do
  ofResult ((← hear ExecutionAnswer.asFile).mapError .io)

/-- The end of a request; an error stops the deployment. -/
def requestResult : Execution Unit := do
  ofResult ((← hear ExecutionAnswer.asRequest).mapError .request)

/-- A file operation, or the start of a process. -/
def fileStep (action : ExecutionAction) : Execution Unit := do
  record action
  fileResult

/-- A request and its answer. -/
def requestStep (action : ExecutionAction) : Execution Unit := do
  record action
  requestResult

/-- The closure `progress` of `execute_lease`. -/
def progress (stage : DeploymentStage) (progressPercent : UInt8) (message : String) :
    Execution Unit :=
  requestStep (.report stage progressPercent message)

/-- The closure `control_state` of `execute_lease`. -/
def controlState : Execution JobState := do
  let state ← ofResult ((← hear ExecutionAnswer.asControl).mapError .request)
  record (.control state)
  pure state

/-! ### Polls and processes -/

/-- One pass of the loop of `await_running`. -/
def awaitRunningPass : Execution (Unit ⊕ Unit) := do
  match ← controlState with
  | .running => pure (.inr ())
  | .paused => pure (.inl ())
  | state => fail (.controlState state)

/-- Polls until the job is running; a paused job is waited for. -/
def awaitRunning : Execution Unit := loop (fun _ => awaitRunningPass) ()

private theorem hears_ofResult {α : Type} {p : α → Prop} (hp : ∀ a, ¬ p a)
    (x : Except ExecutionError α) : Hears p (ofResult x : Execution α) := by
  cases x with
  | ok a => exact Hears.pure (hp a)
  | error error => exact Hears.fail

private theorem hears_controlState : Hears (fun _ => True) controlState :=
  Hears.bind_of_first Hears.hear fun _ =>
    Hears.bind (q := fun _ => False) (hears_ofResult (fun _ => id) _) fun _ =>
      Hears.bind (p := fun _ => False) (Hears.act id) fun _ => Hears.pure id

private theorem goesOnHearing_awaitRunningPass :
    GoesOnHearing fun _ : Unit => awaitRunningPass := by
  intro _
  refine Hears.bind_of_first (q := fun _ => False) hears_controlState fun state => ?_
  cases state with
  | running => exact Hears.pure id
  | paused => exact Hears.pure id
  | _ => exact Hears.fail

private theorem hears_awaitRunning {p : Unit → Prop} : Hears p awaitRunning := by
  refine Hears.mono (p := fun _ => True) (Hears.loop (fun _ => ?_) ()) fun _ _ => trivial
  refine Hears.bind_of_first (q := fun _ => False) hears_controlState fun state => ?_
  cases state with
  | running => exact Hears.pure id
  | paused => exact Hears.pure id
  | _ => exact Hears.fail

/-- The Agent polls until the job runs, and fails when it is neither running nor paused. -/
theorem awaitRunning_eq : awaitRunning = (do
    match ← controlState with
    | .running => pure ()
    | .paused => awaitRunning
    | state => fail (.controlState state)) := by
  conv_lhs => rw [awaitRunning, loop_eq goesOnHearing_awaitRunningPass]
  rw [awaitRunningPass, bind_assoc]
  refine congrArg (controlState >>= ·) (funext fun state => ?_)
  cases state <;> rfl

/-- What comes after a pass of the loop of `run_checked`. -/
def afterPass : RunnerState → Execution (Bool ⊕ Unit)
  | .idle => pure (.inl false)
  | .waiting suspended => pure (.inl suspended)
  | .returned result _ => do
    ofResult (result.mapError .run)
    pure (.inr ())

/-- One pass of the loop of `run_checked`. -/
def runCheckedTurn (suspended : Bool) : Execution (Bool ⊕ Unit) := do
  let (requestedState, status, exit) ← hear ExecutionAnswer.asPass
  afterPass (runCheckedPass suspended requestedState status exit)

private theorem hears_afterPass (state : RunnerState) : Hears (fun _ => False)
    (afterPass state) := by
  cases state with
  | idle => exact Hears.pure id
  | waiting suspended => exact Hears.pure id
  | returned result killed =>
    exact Hears.bind (hears_ofResult (fun _ => id) _) fun _ => Hears.pure id

theorem goesOnHearing_runCheckedTurn : GoesOnHearing runCheckedTurn := fun _ =>
  Hears.bind_of_first Hears.hear fun _ => hears_afterPass _

/-- A process is started and waited for, with a poll before each look at it. -/
def runChecked (program : String) (arguments : List String) : Execution Unit := do
  fileStep (.start program arguments)
  loop runCheckedTurn false

/-! ### The image -/

/-- The length of the buffers for the image. -/
def imageBufferLen : ℕ := 1024 * 1024

/-- The directory of the image in the cache. -/
def imageDirectory : String := "R:\\EasyDeployMesh"

/-- `trim_end_matches('/')`. -/
def trimEndSlashes (s : String) : String := String.ofList (s.toList.rdropWhile (· == '/'))

/-- The address of an image, relative to the server unless it names a scheme. -/
def imageUrl (server downloadUrl : String) : String :=
  if (Text.stripPrefix "http://" downloadUrl).isSome ∨
      (Text.stripPrefix "https://" downloadUrl).isSome then downloadUrl
  else trimEndSlashes server ++ downloadUrl

/-- `write_all` on the file of the image. -/
def storeChunk (chunk : List UInt8) : Execution Unit := do
  match ← hear ExecutionAnswer.asStored with
  | .ok () => act fun w => { w with image := w.image ++ chunk }
  | .error (count, source) => do
    act fun w => { w with image := w.image ++ chunk.take count }
    fail (.io source)

/-- One pass of the loop of `download_file`. -/
def downloadPass : Execution (Unit ⊕ Unit) := do
  awaitRunning
  let bytes ← ofResult ((← hear ExecutionAnswer.asBody).mapError .io)
  let chunk := bytes.take imageBufferLen
  if chunk.isEmpty then pure (.inr ())
  else do
    storeChunk chunk
    pure (.inl ())

private theorem hears_storeChunk (chunk : List UInt8) : Hears (fun _ => False)
    (storeChunk chunk) := by
  refine Hears.bind (p := fun _ => False) Hears.hear fun result => ?_
  cases result with
  | ok => exact Hears.act id
  | error failure => exact Hears.bind (p := fun _ => False) (Hears.act id) fun _ => Hears.fail

theorem goesOnHearing_downloadPass : GoesOnHearing fun _ : Unit => downloadPass := by
  intro _
  refine Hears.bind_of_first (q := fun _ => False) hears_awaitRunning fun _ =>
    Hears.bind (p := fun _ => False) Hears.hear fun body =>
      Hears.bind (hears_ofResult (fun _ => id) _) fun bytes => ?_
  by_cases hempty : (bytes.take imageBufferLen).isEmpty = true
  · simp only [hempty, if_true]
    exact Hears.pure id
  · simp only [hempty, Bool.false_eq_true, if_false]
    exact Hears.bind (hears_storeChunk _) fun _ => Hears.pure id

/-- The image of a lease is written to a file part by part. -/
def downloadFile (downloadUrl server deviceToken destination : String) : Execution Unit := do
  fileStep (.createDirAll imageDirectory)
  requestStep (.get (imageUrl server downloadUrl) deviceToken)
  fileStep (.createFile destination)
  act fun w => { w with image := [] }
  loop (fun _ => downloadPass) ()
  fileResult

/-- What a read of a file returns at an offset: at least one byte before the end of the file, and
no more than the buffer holds. -/
def readChunk (file : List UInt8) (offset count : ℕ) : List UInt8 :=
  (file.drop offset).take (max 1 (min count imageBufferLen))

/-- A failed read or write as an error of the deployment. -/
def IoFailure.toError : IoFailure → ExecutionError
  | interrupted => .io "operation interrupted"
  | other source => .io source

/-- One pass of the loop of `verify_image`, with the bytes that have gone into the digest. -/
def verifyPass (digested : List UInt8) : Execution (List UInt8 ⊕ List UInt8) := do
  awaitRunning
  let count ← ofResult ((← hear ExecutionAnswer.asCount).mapError IoFailure.toError)
  let chunk := readChunk (← look).image digested.length count
  if chunk.isEmpty then pure (.inr digested) else pure (.inl (digested ++ chunk))

theorem goesOnHearing_verifyPass : GoesOnHearing verifyPass := by
  intro digested
  refine Hears.bind_of_first (q := fun _ => False) hears_awaitRunning fun _ =>
    Hears.bind (p := fun _ => False) Hears.hear fun count =>
      Hears.bind (hears_ofResult (fun _ => id) _) fun count =>
        Hears.bind (Hears.look fun _ => id) fun w => ?_
  by_cases hempty : (readChunk w.image digested.length count).isEmpty = true
  · simp only [hempty, if_true]
    exact Hears.pure id
  · simp only [hempty, Bool.false_eq_true, if_false]
    exact Hears.pure id

section Digests

variable (sha256 : List UInt8 → String)

/-- The downloaded file is read once more and its digest compared with the lease. -/
def verifyImage (expectedSha256 : String) : Execution Unit := do
  fileResult
  let digested ← loop verifyPass []
  if !Text.eqIgnoreAsciiCase (sha256 digested) expectedSha256 then fail .checksum

/-! ### Restoring a GHO partition -/

/-- The bytes that have gone into the digest, and their number as it is counted. -/
structure DigestWriter where
  digested : List UInt8
  written : ℕ
  deriving DecidableEq

/-- The largest 64-bit number. -/
def maxWritten : ℕ := 2 ^ 64 - 1

/-- The writer behind a part that the volume took; the count stops at its largest value. -/
def DigestWriter.push (writer : DigestWriter) (bytes : List UInt8) : DigestWriter where
  digested := writer.digested ++ bytes
  written := min (writer.written + bytes.length) maxWritten

/-- `write`: the number of bytes, or that the call was interrupted. -/
def DigestWriter.write (writer : DigestWriter) (bytes : List UInt8) :
    Execution (Option ℕ × DigestWriter) := do
  match ← attempt awaitRunning with
  | .error error => fail (.ghoOutput error)
  | .ok () =>
    match ← hear ExecutionAnswer.asCount with
    | .error .interrupted => pure (none, writer)
    | .error (.other source) => fail (.ghoOutput (.io source))
    | .ok count => do
      let taken := bytes.take count
      act fun w => { (w.note (.writeVolume taken)) with volume := w.volume ++ taken }
      pure (some taken.length, writer.push taken)

/-- One pass of the loop of `write_all`. -/
def writeAllPass (s : DigestWriter × List UInt8) :
    Execution ((DigestWriter × List UInt8) ⊕ DigestWriter) := do
  if s.2.isEmpty then pure (.inr s.1)
  else
    match ← s.1.write s.2 with
    | (none, writer) => pure (.inl (writer, s.2))
    | (some 0, _) => fail (.ghoOutput (.io "failed to write whole buffer"))
    | (some count, writer) => pure (.inl (writer, s.2.drop count))

private theorem hears_write (writer : DigestWriter) (bytes : List UInt8) :
    Hears (fun _ => True) (writer.write bytes) := by
  refine Hears.bind (Hears.attempt (p := fun _ => False) hears_awaitRunning fun _ => id)
    fun result => ?_
  cases result with
  | error error => exact Hears.fail
  | ok =>
    refine Hears.bind_of_first (q := fun _ => False) Hears.hear fun count => ?_
    rcases count with (_ | source) | count
    · exact Hears.pure id
    · exact Hears.fail
    · exact Hears.bind (p := fun _ => False) (Hears.act id) fun _ => Hears.pure id

theorem goesOnHearing_writeAllPass : GoesOnHearing writeAllPass := by
  intro s
  unfold writeAllPass
  by_cases hempty : s.2.isEmpty = true
  · simp only [hempty, if_true]
    exact Hears.pure Bool.false_ne_true
  · simp only [hempty, Bool.false_eq_true, if_false]
    refine Hears.bind_of_first (q := fun _ => False) (hears_write _ _) fun r => ?_
    rcases r with ⟨_ | _ | count, writer⟩
    · exact Hears.pure id
    · exact Hears.fail
    · exact Hears.pure id

/-- Bytes are handed to the volume until it took them all. -/
def DigestWriter.writeAll (writer : DigestWriter) (bytes : List UInt8) : Execution DigestWriter :=
  loop writeAllPass (writer, bytes)

section Decoder

variable (inflate : List UInt8 → Option (List UInt8))

/-- The loop over the blocks of a span, with a writer. -/
def decodeSpanInto (file : List UInt8) (compression : Compression) (limit stop offset : ℕ)
    (p : Progress) (writer : DigestWriter) : Execution (Progress × DigestWriter) :=
  if offset + 2 < 2 ^ 64 ∧ offset + 2 ≤ stop then do
    fileResult
    match _hstep : blockStep inflate file compression limit stop offset p with
    | .error reason => fail (.gho reason)
    | .ok none => pure (p, writer)
    | .ok (some (next, q)) => do
      let writer ← writer.writeAll (q.written.drop p.written.length)
      decodeSpanInto file compression limit stop next q writer
  else pure (p, writer)
termination_by stop - offset
decreasing_by
  have hnext := blockStep_next _hstep
  omega

/-- The loop over the spans of a partition, with a writer. -/
def decodeSpansInto (file : List UInt8) (compression : Compression) (limit : ℕ) :
    List (ℕ × ℕ) → Progress → DigestWriter → Execution (Progress × DigestWriter)
  | [], p, writer => pure (p, writer)
  | span :: spans, p, writer => do
    let (p, writer) ← decodeSpanInto inflate file compression limit span.2 span.1 p writer
    decodeSpansInto file compression limit spans p writer

/-- `decode_partition` with a writer: the number of bytes, and the writer. -/
def decodePartitionInto (file : List UInt8) (sourcePartition expandedLimit : ℕ)
    (writer : DigestWriter) : Execution (ℕ × DigestWriter) := do
  fileResult
  let (partitions, info) ← ofResult ((parse file).mapError fun error => .gho (.error error))
  let partition ← ofResult ((selectPartition partitions info sourcePartition).mapError
    fun error => .gho (.error error))
  let (p, writer) ←
    decodeSpansInto inflate file info.compression expandedLimit partition.spans .start writer
  pure (p.total, writer)

/-- `LockedVolume::acquire`. -/
def acquireVolume : Execution Unit := do
  fileStep .lockVolume
  act fun w => { w with locked := true }
  match ← attempt fileResult with
  | .ok () => pure ()
  | .error error => do
    act fun w => { w with locked := false }
    fail error

/-- What `restore_gho_partition` does while it holds the volume. -/
def restoreLocked (metadata : AgentGhoDeployment) : Execution Unit := do
  let image := (← look).image
  let (decoded, writer) ← decodePartitionInto inflate image metadata.sourcePartition.toNat
    metadata.expandedSizeBytes.toNat { digested := [], written := 0 }
  fileResult
  fileResult
  if decoded ≠ metadata.expandedSizeBytes.toNat ∨
      writer.written ≠ metadata.expandedSizeBytes.toNat then
    fail (.ghoSize metadata.expandedSizeBytes decoded writer.written)
  if !Text.eqIgnoreAsciiCase (sha256 writer.digested) metadata.expandedSha256 then fail .ghoSha256

/-- The volume is released however the restoration ends. -/
def restoreGhoPartition (metadata : AgentGhoDeployment) : Execution Unit := do
  if metadata.parserVersion ≠ ghoParserVersion then fail .parserVersion
  fileResult
  fileResult
  acquireVolume
  let result ← attempt (restoreLocked sha256 inflate metadata)
  act fun w => { w with locked := false }
  ofResult result

/-! ### The deployment -/

/-- The directory for the scripts. -/
def workDirectory (lease : AgentJobLease) : String :=
  "X:\\EasyDeployMesh\\work\\" ++ lease.jobId.hyphenated

/-- The arguments of the command that applies a Windows image. -/
def applyArguments (lease : AgentJobLease) (layout : PreparedLayout) : List String :=
  ["/English", "/Apply-Image", "/ImageFile:" ++ layout.imagePath,
    "/Index:" ++ toString lease.image.index, "/ApplyDir:W:\\", "/CheckIntegrity"]

/-- The arguments of the command that writes the boot files. -/
def bootArguments (layout : PreparedLayout) : List String :=
  ["W:\\Windows", "/s", "S:", "/f", layout.firmware, "/c"]

/-- The image is applied to the volume. -/
def applyImage (lease : AgentJobLease) (layout : PreparedLayout) : Execution Unit := do
  if lease.operation = .deployGho then
    match lease.gho with
    | none => fail .ghoMetadataMissing
    | some gho => do
      awaitRunning
      restoreGhoPartition sha256 inflate gho
  else do
    awaitRunning
    runChecked "dism.exe" (applyArguments lease layout)

/-- `execute` after the layout has been prepared. -/
def carryOut (lease : AgentJobLease) (layout : PreparedLayout) (server deviceToken : String) :
    Execution Unit := do
  fileStep (.createDirAll (workDirectory lease))
  fileStep (.writeFile (workDirectory lease ++ "\\partition.txt") layout.prepareScript)
  fileStep (.writeFile (workDirectory lease ++ "\\cleanup.txt") layout.cleanupScript)
  progress .partitioning 10 "Partitioning the selected disk"
  awaitRunning
  runChecked "diskpart.exe" ["/s", workDirectory lease ++ "\\partition.txt"]
  progress .downloadingImage 20 "Downloading the deployment image"
  downloadFile lease.image.downloadUrl server deviceToken layout.imagePath
  verifyImage sha256 lease.image.sha256
  progress .applyingImage 45 "Applying the Windows image"
  applyImage sha256 inflate lease layout
  progress .configuringBoot 88 "Creating Windows boot files"
  awaitRunning
  runChecked "bcdboot.exe" (bootArguments layout)
  progress .finalizing 95 "Removing the temporary image cache"
  awaitRunning
  runChecked "diskpart.exe" ["/s", workDirectory lease ++ "\\cleanup.txt"]
  progress .rebooting 99 "Deployment complete; preparing to reboot"

/-- The layout on the disk that is found again. -/
def chosenLayout (lease : AgentJobLease) (disks : List Disk) :
    Except DeploymentError PreparedLayout := do
  prepareLayout lease (← matchingDisk lease disks)

/-- The deployment of a lease, from the check of its operation to the boot files. -/
def execute (lease : AgentJobLease) (inventoryDisks : List Disk) (server deviceToken : String) :
    Execution Unit := do
  if !compatibleFormat lease.operation lease.image.format then fail .incompatible
  if lease.operation = .deployGho ∧ lease.gho = none then fail .ghoMetadataMissing
  progress .preflight 2 "Validating target disk fingerprint"
  let layout ← ofResult ((chosenLayout lease inventoryDisks).mapError .deployment)
  carryOut sha256 inflate lease layout server deviceToken

end Decoder

end Digests

end EasyDeployMesh
