import EasyDeployMesh.Foundations.Bytes
import EasyDeployMesh.Foundations.Framing
import EasyDeployMesh.Foundations.Patch
import EasyDeployMesh.Foundations.Result
import EasyDeployMesh.Foundations.Text

/-!
# Patching the SYSTEM hive

The part of `crates/bcd/src/lib.rs` that replaces `Setup\CmdLine` in the offline SYSTEM hive of a
boot image. The hive is a list of bytes; a slice outside it ends in `BcdStop.panicked`. The registry
reader, which finds the value and reads its data, is a parameter. Positions are below the 64 MiB
limit of a hive, so no sum of them overflows.

## Main definitions

* `EasyDeployMesh.HiveReader`, `EasyDeployMesh.SetupEntry`: what the reader says of the value.
* `EasyDeployMesh.setupCmdline`: the text of the value.
* `EasyDeployMesh.findFreeCell`: the first free cell that is large enough.
* `EasyDeployMesh.updateChecksum`, `EasyDeployMesh.replaceSetupCmdline`: the patch.
-/

namespace EasyDeployMesh

open Foundations

/-! ### Errors -/

/-- The errors of the module that patches the boot configuration. -/
inductive BcdError
  | invalidSize
  | registry (message : String)
  | invalidBcd (label : String)
  | setupCmdLineMissing
  | setupCmdLineCapacity
  deriving DecidableEq, Repr

/-- How a call ends without a hive. -/
inductive BcdStop
  | failed (error : BcdError)
  | panicked
  deriving DecidableEq, Repr

/-- The program that Windows PE starts instead of its own shell. -/
def agentShell : String := "X:\\EasyDeployMesh\\easydeploymesh-shell.exe"

/-- The largest hive that is read. -/
def maxHiveBytes : ℕ := 64 * 1024 * 1024

/-- The base block of a hive, in front of its bins. -/
def regfHeaderBytes : ℕ := 4096

/-! ### Buffers -/

/-- `&bytes[first..last]`. -/
def sliceBytes (bytes : List UInt8) (first last : ℕ) : Except BcdStop (List UInt8) :=
  (slice bytes first last).elim (.error .panicked) .ok

/-- `bytes[first..first + part.len()].copy_from_slice(part)`. -/
def copyFromSlice (bytes : List UInt8) (first : ℕ) (part : List UInt8) :
    Except BcdStop (List UInt8) :=
  if first + part.length ≤ bytes.length then .ok (patch bytes first part) else .error .panicked

/-- `bytes[first..last].fill(0)`. -/
def fillZero (bytes : List UInt8) (first last : ℕ) : Except BcdStop (List UInt8) :=
  if first ≤ last then copyFromSlice bytes first (List.replicate (last - first) 0)
  else .error .panicked

/-- `i32::from_le_bytes`. -/
def i32FromLE (l : List UInt8) : ℤ :=
  if readLE l < 2 ^ 31 then readLE l else (readLE l : ℤ) - 2 ^ 32

/-- `i32::to_le_bytes`. -/
def i32ToLE (n : ℤ) : List UInt8 := writeLE 4 (n % 2 ^ 32).toNat

@[simp] theorem length_i32ToLE (n : ℤ) : (i32ToLE n).length = 4 := length_writeLE 4 _

theorem i32FromLE_i32ToLE {n : ℤ} (h : -2 ^ 31 ≤ n) (hlt : n < 2 ^ 31) :
    i32FromLE (i32ToLE n) = n := by
  rw [i32FromLE, i32ToLE, readLE_writeLE (by omega)]
  split_ifs <;> omega

/-! ### The value -/

/-- A text as UTF-16 with a final zero, in little-endian bytes. -/
def utf16 (value : String) : List UInt8 :=
  let unit (n : ℕ) := writeLE 2 n
  (value.toList.flatMap fun c =>
    if c.toNat < 0x10000 then unit c.toNat
    else
      unit (0xD800 + (c.toNat - 0x10000) / 0x400) ++
        unit (0xDC00 + (c.toNat - 0x10000) % 0x400)) ++ unit 0

/-- `regf::RegistryValue`. -/
inductive RegistryValue
  | string (value : String)
  | other
  deriving DecidableEq, Repr

/-- The value `Setup\CmdLine` of a hive: the offsets of its value cell and of its data cell behind
the header, and its data. -/
structure SetupEntry where
  offset : UInt32
  dataOffset : UInt32
  isDataResident : Bool
  data : Except String RegistryValue
  deriving DecidableEq

/-- `regf::RegistryHive::from_bytes`, and then the search for the value. -/
structure HiveReader where
  fromBytes : List UInt8 → Except String (Except String SetupEntry)

variable (reader : HiveReader)

/-- The hive behind the check of its size; what the reader of the registry says is kept. -/
def checkedHive (bytes : List UInt8) : Except BcdStop (Except String SetupEntry) :=
  if bytes.isEmpty ∨ maxHiveBytes < bytes.length then .error (.failed .invalidSize)
  else (reader.fromBytes bytes).mapError fun message => .failed (.registry message)

/-- The command line of the setup key; an empty one counts as missing. -/
def setupCmdline (bytes : List UInt8) : Except BcdStop String := do
  let hive ← checkedHive reader bytes
  match hive.bind SetupEntry.data with
  | .ok (.string value) =>
    if (Text.trim value).isEmpty then .error (.failed .setupCmdLineMissing) else .ok value
  | _ => .error (.failed .setupCmdLineMissing)

/-! ### Cells -/

/-- How the walk over the cells of a bin ends. -/
inductive CellWalk
  | found (cell : ℕ)
  | malformed
  | ended (cell : ℕ)
  deriving DecidableEq, Repr

/-- The cells of a bin that ends at `last`. -/
def walkCells (bytes : List UInt8) (required last cell : ℕ) : Except BcdStop CellWalk :=
  if last < cell + 4 then .ok (.ended cell)
  else
    match (sliceBytes bytes cell (cell + 4)).map i32FromLE with
    | .error stop => .error stop
    | .ok signed =>
      if signed = -2 ^ 31 ∨ signed = 0 then .ok .malformed
      else if signed.natAbs < 8 ∨ signed.natAbs % 8 ≠ 0 ∨ last < cell + signed.natAbs then
        .ok .malformed
      else if 0 < signed ∧ required ≤ signed.natAbs then .ok (.found cell)
      else walkCells bytes required last (cell + signed.natAbs)
termination_by last - cell

/-- The bins from one on. -/
def walkBins (bytes : List UInt8) (required bin : ℕ) : Except BcdStop (Option ℕ) :=
  if bytes.length < bin + 32 then .ok none
  else
    match sliceBytes bytes bin (bin + 4) with
    | .error stop => .error stop
    | .ok signature =>
      if signature ≠ stringBytes "hbin" then .ok none
      else
        match (sliceBytes bytes (bin + 8) (bin + 12)).map readLE with
        | .error stop => .error stop
        | .ok binSize =>
          if binSize < 32 ∨ bytes.length < bin + binSize then .ok none
          else
            match walkCells bytes required (bin + binSize) (bin + 32) with
            | .error stop => .error stop
            | .ok (.found cell) => .ok (some cell)
            | .ok .malformed => .ok none
            | .ok (.ended cell) =>
              if cell ≠ bin + binSize then .ok none
              else walkBins bytes required (bin + binSize)
termination_by bytes.length - bin

/-- The first free cell of the bins that has the required size. -/
def findFreeCell (bytes : List UInt8) (required : ℕ) : Except BcdStop (Option ℕ) :=
  walkBins bytes required regfHeaderBytes

/-! ### The patch -/

/-- The checksum of the words of a header: the two reserved values are never stored. -/
def headerChecksum (header : List UInt8) : UInt32 :=
  let checksum := (chunks 4 header).foldl (fun sum word => sum ^^^ UInt32.ofNat (readLE word)) 0
  if checksum = 0 then 1
  else if checksum = 0xFFFFFFFF then 0xFFFFFFFE
  else checksum

/-- Both sequence numbers move on together and the checksum of the base block follows. -/
def updateChecksum (bytes : List UInt8) : Except BcdStop (List UInt8) := do
  let sequence := UInt32.ofNat (readLE (← sliceBytes bytes 4 8)) + 1
  let bytes ← copyFromSlice bytes 4 (writeLE 4 sequence.toNat)
  let bytes ← copyFromSlice bytes 8 (writeLE 4 sequence.toNat)
  let bytes ← fillZero bytes 508 512
  let header ← sliceBytes bytes 0 508
  copyFromSlice bytes 508 (writeLE 4 (headerChecksum header).toNat)

/-- The front of a free cell is allocated, and what is left of it stays a free cell. -/
def allocateFront (bytes : List UInt8) (free freeSize required : ℕ) :
    Except BcdStop (List UInt8) := do
  let output ← copyFromSlice bytes free (i32ToLE (-(required : ℤ)))
  if freeSize > required then
    copyFromSlice output (free + required) (i32ToLE (freeSize - required : ℕ))
  else .ok output

/-- The old data cell is freed, and the data moves to the front of a free cell. -/
def moveData (bytes : List UInt8) (valueCell dataCell allocated length : ℕ) :
    Except BcdStop (ℕ × List UInt8) := do
  let required := (length + 4 + 7) / 8 * 8
  let free ← (← findFreeCell bytes required).elim (.error (.failed .setupCmdLineCapacity)) .ok
  let freeSize := (i32FromLE (← sliceBytes bytes free (free + 4))).toNat
  let output ← allocateFront bytes free freeSize required
  let output ← copyFromSlice output dataCell (i32ToLE allocated)
  let output ← copyFromSlice output (valueCell + 12) (writeLE 4 (free - regfHeaderBytes))
  .ok (free, output)

/-- The data stays in its cell if it fits. -/
def prepareCell (bytes : List UInt8) (valueCell dataCell allocated length : ℕ) :
    Except BcdStop (ℕ × List UInt8) :=
  if length ≤ allocated - 4 then .ok (dataCell, bytes)
  else moveData bytes valueCell dataCell allocated length

/-- The data and its length are stored, with zeros behind the data up to the end of the cell. -/
def storeData (bytes : List UInt8) (valueCell targetCell : ℕ) (replacement : List UInt8) :
    Except BcdStop (List UInt8) := do
  let targetSize := (i32FromLE (← sliceBytes bytes targetCell (targetCell + 4))).natAbs
  let output ← fillZero bytes (targetCell + 4) (targetCell + targetSize)
  let output ← copyFromSlice output (targetCell + 4) replacement
  let output ← copyFromSlice output (valueCell + 8) (writeLE 4 replacement.length)
  updateChecksum output

/-- The value is written into its data cell, or into another one if that is too small. -/
def writeSetupCmdline (bytes : List UInt8) (entry : SetupEntry) (replacement : List UInt8) :
    Except BcdStop (List UInt8) := do
  if entry.isDataResident then
    .error (.failed .setupCmdLineCapacity)
  let dataCell := regfHeaderBytes + entry.dataOffset.toNat
  let valueCell := regfHeaderBytes + entry.offset.toNat
  if dataCell + 4 > bytes.length ∨ valueCell + 16 > bytes.length then
    .error (.failed .setupCmdLineCapacity)
  let allocated := (i32FromLE (← sliceBytes bytes dataCell (dataCell + 4))).natAbs
  if allocated < 4 ∨ dataCell + allocated > bytes.length then
    .error (.failed .setupCmdLineCapacity)
  let (targetCell, output) ← prepareCell bytes valueCell dataCell allocated replacement.length
  storeData output valueCell targetCell replacement

/-- Replaces only `Setup\CmdLine` in place; the result has the original text of the value. -/
def replaceSetupCmdline (bytes : List UInt8) : Except BcdStop (String × List UInt8) := do
  let hive ← checkedHive reader bytes
  let original ← setupCmdline reader bytes
  if Text.eqIgnoreAsciiCase original agentShell then
    .ok (original, bytes)
  else
    let entry ← hive.mapError fun message => .failed (.registry message)
    let output ← writeSetupCmdline bytes entry (utf16 agentShell)
    let written ← setupCmdline reader output
    if written ≠ agentShell then
      .error (.failed (.invalidBcd "Setup\\CmdLine verification"))
    .ok (original, output)

end EasyDeployMesh
