import EasyDeployMesh.Foundations.Bytes
import EasyDeployMesh.Foundations.Result

/-!
# GHO containers

The container format of `crates/gho`: a header, and records that are found by their magic. A
partition record is followed by a header of its own and by data, which reach to the next record; a
continuation record adds data to the last partition. The input is the byte string that the reader
presents; an offset is a natural number, and the checked additions of the source fail from `2 ^ 64`
on.

## Main definitions

* `EasyDeployMesh.Gho.recordAt`, `EasyDeployMesh.Gho.findRecord`: the search for a record header.
* `EasyDeployMesh.Gho.recordStep`, `EasyDeployMesh.Gho.parseRecords`, `EasyDeployMesh.Gho.parse`:
  the partitions of a container.

## Main results

* `EasyDeployMesh.Gho.findRecord_eq`, `EasyDeployMesh.Gho.findRecord_eq_ok`: the search finds the
  first record header.
* `EasyDeployMesh.Gho.recordStep_next`: every record moves the offset forward.
-/

namespace EasyDeployMesh.Gho

open Foundations

/-- The compressions of a GHO image. -/
inductive Compression
  | none
  | fast
  | high (level : UInt8)
  deriving DecidableEq

/-- What the headers say about an image. -/
structure ImageInfo where
  compression : Compression
  partitionCount : ℕ
  sourcePartition : ℕ
  encrypted : Bool
  spanned : Bool
  deriving DecidableEq

/-- The errors of the parser and of the decoder. -/
inductive Error
  | truncated
  | invalidMagic
  | invalidRecord
  | unsupportedCompression (value : UInt8)
  | spannedUnsupported
  | spanMismatch
  | encryptedUnsupported
  | partitionCount (count : ℕ)
  | corruptBlock
  | expandedLimit
  | io (kind : String)
  deriving DecidableEq

/-- The bytes of a file header; such a header may stand once more in front of the data. -/
def headerSize : ℕ := 512

/-- The header of a record. -/
def recordHeaderSize : ℕ := 10

/-- The number at the start of a record. -/
def recordMagic : ℕ := 0x012f18d8

/-- The largest block in its expanded form. -/
def blockSize : ℕ := 32 * 1024

/-- The largest block as it is stored. -/
def maxStoredLen : ℕ := 33002

/-- The data of a partition: the first offset of each span, and the offset after it. -/
structure Partition where
  spans : List (ℕ × ℕ)
  deriving DecidableEq

/-! ### Reading -/

/-- `read_exact` of `n` bytes at an offset. -/
def readExact (file : List UInt8) (offset n : ℕ) : Except Error (List UInt8) :=
  let bytes := (file.drop offset).take n
  if bytes.length < n then .error .truncated else .ok bytes

theorem readExact_eq_ok_iff {file bytes : List UInt8} {offset n : ℕ} :
    readExact file offset n = .ok bytes ↔
      (file.drop offset).take n = bytes ∧ bytes.length = n := by
  unfold readExact
  dsimp only
  split_ifs with h
  · refine ⟨fun h => (by cases h), ?_⟩
    rintro ⟨rfl, hlength⟩
    omega
  · have hle := List.length_take_le n (file.drop offset)
    constructor
    · intro hok
      obtain rfl := Except.ok.inj hok
      exact ⟨rfl, by omega⟩
    · rintro ⟨rfl, -⟩
      rfl

/-! ### Records -/

/-- What a record header says: the kind of the record, and the length of its body. -/
structure RecordHeader where
  kind : ℕ
  bodyLen : ℕ
  deriving DecidableEq

/-- The record header at the beginning of a byte string. -/
def recordAt : List UInt8 → Option RecordHeader
  | k₀ :: k₁ :: _ :: _ :: m₀ :: m₁ :: m₂ :: m₃ :: l₀ :: l₁ :: _ =>
    if readLE [m₀, m₁, m₂, m₃] = recordMagic ∧
        readLE [k₀, k₁] ∈ [0x0006, 0x0603, 0x0703, 0x0023] then
      some { kind := readLE [k₀, k₁], bodyLen := readLE [l₀, l₁] }
    else none
  | _ => none

theorem hasWidth_recordAt : HasWidth recordAt recordHeaderSize where
  pos := by decide
  take l := by
    unfold recordHeaderSize
    rcases l with _ |
      ⟨a, _ | ⟨b, _ | ⟨c, _ | ⟨d, _ | ⟨e, _ | ⟨f, _ | ⟨g, _ | ⟨h, _ | ⟨i, _ | ⟨j, l⟩⟩⟩⟩⟩⟩⟩⟩⟩⟩ <;>
      rfl
  short l hl := by
    unfold recordHeaderSize at hl
    rcases l with _ |
      ⟨a, _ | ⟨b, _ | ⟨c, _ | ⟨d, _ | ⟨e, _ | ⟨f, _ | ⟨g, _ | ⟨h, _ | ⟨i, _ | ⟨j, l⟩⟩⟩⟩⟩⟩⟩⟩⟩⟩ <;>
      first
      | rfl
      | exact absurd hl (by simp only [List.length_cons]; omega)

/-- The window in which `find_record` searches at a time. -/
def searchWindow : ℕ := 64 * 1024 + recordHeaderSize

/-- The first record header at or after `start` that lies before `stop`. -/
def findRecord (file : List UInt8) (start stop : ℕ) : Except Error (Option (ℕ × RecordHeader)) :=
  if start < stop then
    let buffer := (file.drop start).take (min (stop - start) searchWindow)
    if _hread : buffer.length < recordHeaderSize then .ok none
    else
      match findSuffix recordAt buffer with
      | some (i, record) => .ok (some (start + i, record))
      | none =>
        let next := start + (buffer.length - (recordHeaderSize - 1))
        if next < 2 ^ 64 then findRecord file next stop else .error .invalidRecord
  else .ok none
termination_by stop - start
decreasing_by
  have hsize : recordHeaderSize = 10 := rfl
  show stop - (start + (buffer.length - (recordHeaderSize - 1))) < stop - start
  omega

/-- The first record header in `[start, stop)`, as a search through the whole range finds it. -/
def firstRecord (file : List UInt8) (start stop : ℕ) : Option (ℕ × RecordHeader) :=
  (findSuffix recordAt ((file.drop start).take (stop - start))).map fun r => (start + r.1, r.2)

/-- The bytes of a search, as the search sees them: no window is larger than what is left. -/
private theorem take_window {file : List UInt8} {start stop : ℕ} :
    (file.drop start).take (min (stop - start) searchWindow) =
      ((file.drop start).take (stop - start)).take (min (stop - start) searchWindow) := by
  rw [List.take_take, Nat.min_eq_left (Nat.min_le_left _ _)]

/-- What the search answers is the first record header of the range. -/
theorem findRecord_eq_ok {file : List UInt8} {start stop : ℕ} {r : Option (ℕ × RecordHeader)}
    (hstop : stop ≤ file.length) (h : findRecord file start stop = .ok r) :
    r = firstRecord file start stop := by
  have hsize : recordHeaderSize = 10 := rfl
  have hwindow : searchWindow = 65546 := rfl
  fun_induction findRecord file start stop with
  | case1 start hlt buffer hread =>
    obtain rfl := Except.ok.inj h
    have hlength : buffer.length = min (min (stop - start) searchWindow) (file.length - start) := by
      rw [List.length_take, List.length_drop]
    symm
    rw [firstRecord, Option.map_eq_none_iff]
    by_contra hfound
    obtain ⟨⟨i, record⟩, hfound⟩ := Option.ne_none_iff_exists'.1 hfound
    have hle := hasWidth_recordAt.add_le_of_findSuffix hfound
    rw [List.length_take, List.length_drop] at hle
    omega
  | case2 start hlt buffer hread i record hfound =>
    obtain rfl := Except.ok.inj h
    rw [show buffer = _ from take_window] at hfound
    have hrange := hasWidth_recordAt.findSuffix_of_take_eq_some hfound
    rw [firstRecord, hrange, Option.map_some]
  | case3 start hlt buffer hread hfound next hnext ih =>
    have hlength : buffer.length = min (stop - start) searchWindow := by
      rw [List.length_take, List.length_drop]
      omega
    rw [show buffer = _ from take_window] at hfound
    have hskip := hasWidth_recordAt.findSuffix_of_take_eq_none hfound (by omega)
      (by rw [List.length_take, List.length_drop]; omega)
    rw [ih h, firstRecord, firstRecord, hskip, ← hlength, List.drop_take, List.drop_drop,
      Option.map_map]
    have hleft : stop - start - (buffer.length - (recordHeaderSize - 1)) = stop - next := by
      show _ = stop - (start + (buffer.length - (recordHeaderSize - 1)))
      omega
    rw [hleft]
    refine congrArg₂ _ (funext fun r => ?_) rfl
    simp only [Function.comp_apply, Prod.mk.injEq, and_true]
    exact Nat.add_assoc _ _ _
  | case4 => cases h
  | case5 start hlt =>
    obtain rfl := Except.ok.inj h
    rw [firstRecord, Nat.sub_eq_zero_of_le (by omega), List.take_zero]
    rfl

/-- The search has an answer in every file that has an end. -/
theorem exists_findRecord {file : List UInt8} {start stop : ℕ} (hstop : stop < 2 ^ 64) :
    ∃ r, findRecord file start stop = .ok r := by
  have hsize : recordHeaderSize = 10 := rfl
  fun_induction findRecord file start stop with
  | case1 => exact ⟨_, rfl⟩
  | case2 => exact ⟨_, rfl⟩
  | case3 start hlt buffer hread hfound next hnext ih => exact ih
  | case4 start hlt buffer hread hfound next hnext =>
    have hle : buffer.length ≤ stop - start :=
      Nat.le_trans (List.length_take_le _ _) (Nat.min_le_left _ _)
    have hend : next = start + (buffer.length - (recordHeaderSize - 1)) := rfl
    omega
  | case5 => exact ⟨_, rfl⟩

theorem findRecord_eq {file : List UInt8} {start stop : ℕ} (hstop : stop ≤ file.length)
    (hlength : file.length < 2 ^ 64) :
    findRecord file start stop = .ok (firstRecord file start stop) := by
  obtain ⟨r, hr⟩ : ∃ r, findRecord file start stop = .ok r := exists_findRecord (by omega)
  rw [hr, findRecord_eq_ok hstop hr]

/-- The first record header of a range: it lies in the range, and no header begins before it. -/
theorem firstRecord_eq_some_iff {file : List UInt8} {start stop i : ℕ} {record : RecordHeader}
    (hstop : stop ≤ file.length) : firstRecord file start stop = some (i, record) ↔
      start ≤ i ∧ i + recordHeaderSize ≤ stop ∧ recordAt (file.drop i) = some record ∧
        ∀ j, start ≤ j → j < i → recordAt (file.drop j) = none := by
  have hpos : 0 < recordHeaderSize := by decide
  have hdrop : ∀ j, j + recordHeaderSize ≤ stop - start →
      recordAt (((file.drop start).take (stop - start)).drop j) =
        recordAt (file.drop (start + j)) := by
    intro j hj
    rw [hasWidth_recordAt.drop_take hj, List.drop_drop]
  rw [firstRecord, Option.map_eq_some_iff]
  constructor
  · rintro ⟨⟨k, found⟩, hfound, hk⟩
    simp only [Prod.mk.injEq] at hk
    obtain ⟨rfl, rfl⟩ := hk
    have hle := hasWidth_recordAt.add_le_of_findSuffix hfound
    obtain ⟨-, hrecord, hfirst⟩ := findSuffix_eq_some_iff.1 hfound
    rw [List.length_take, List.length_drop] at hle
    refine ⟨by omega, by omega, by rw [← hdrop k (by omega), hrecord], fun j hj hlt => ?_⟩
    have hj' := hfirst (j - start) (by omega)
    rwa [hdrop _ (by omega), Nat.add_sub_cancel' hj] at hj'
  · rintro ⟨hi, hle, hrecord, hfirst⟩
    refine ⟨(i - start, record), findSuffix_eq_some_iff.2 ⟨?_, ?_, fun j hj => ?_⟩, ?_⟩
    · rw [List.length_take, List.length_drop]
      omega
    · rw [hdrop _ (by omega), Nat.add_sub_cancel' hi, hrecord]
    · rw [hdrop _ (by omega)]
      exact hfirst _ (by omega) (by omega)
    · rw [Nat.add_sub_cancel' hi]

/-- Where the data end that begin at `dataStart`: at the next record, or with the file. -/
def dataEnd (file : List UInt8) (dataStart : ℕ) : Except Error ℕ := do
  let found ← findRecord file dataStart file.length
  return (found.map Prod.fst).getD file.length

/-- The data of a partition record whose body ends at `bodyEnd`, behind the header of the
partition. -/
def partitionSpan (file : List UInt8) (bodyEnd : ℕ) : Except Error (ℕ × ℕ) := do
  let dataStart := bodyEnd + headerSize
  if 2 ^ 64 ≤ dataStart then
    .error .invalidRecord
  if file.length < dataStart then
    .error .truncated
  let magic ← readExact file bodyEnd 2
  if readLE magic ≠ 0xeffe then
    .error .invalidMagic
  return (dataStart, ← dataEnd file dataStart)

/-- Where the data of a continuation record begin: behind a header when there is one. The sum is not
checked: a file has fewer than `2 ^ 63` bytes. -/
def continuationStart (file : List UInt8) (bodyEnd : ℕ) : Except Error ℕ :=
  if bodyEnd + headerSize ≤ file.length then do
    let magic ← readExact file bodyEnd 2
    return if readLE magic = 0xeffe then bodyEnd + headerSize else bodyEnd
  else return bodyEnd

/-- The data of a continuation record whose body ends at `bodyEnd`. -/
def continuationSpan (file : List UInt8) (bodyEnd : ℕ) : Except Error (ℕ × ℕ) := do
  let dataStart ← continuationStart file bodyEnd
  return (dataStart, ← dataEnd file dataStart)

/-- The partitions, with a span more in the last one. -/
def pushSpan (span : ℕ × ℕ) : List Partition → Except Error (List Partition)
  | [] => .error .invalidRecord
  | [partition] => .ok [{ partition with spans := partition.spans ++ [span] }]
  | partition :: partitions => (pushSpan span partitions).map (partition :: ·)

/-- One pass of the loop of `parse`: the partitions so far and the next offset, or `none` when the
loop breaks. -/
def recordStep (file : List UInt8) (offset : ℕ) (partitions : List Partition) :
    Except Error (Option (List Partition × ℕ)) := do
  match ← findRecord file offset file.length with
  | none => return none
  | some (recordOffset, record) =>
    let bodyEnd := recordOffset + recordHeaderSize + record.bodyLen
    if 2 ^ 64 ≤ bodyEnd then
      .error .invalidRecord
    if file.length < bodyEnd then
      .error .truncated
    if record.kind = 0x0603 then
      let span ← partitionSpan file bodyEnd
      return some (partitions ++ [{ spans := [span] }], span.2)
    else if record.kind = 0x0703 then
      let span ← continuationSpan file bodyEnd
      return some (← pushSpan span partitions, span.2)
    else if record.kind = 0x0023 then
      return none
    else
      return some (partitions, bodyEnd)

/-! ### Progress -/

private theorem firstRecord_of_findRecord {file : List UInt8} {start i : ℕ} {record : RecordHeader}
    (h : findRecord file start file.length = .ok (some (i, record))) :
    start ≤ i ∧ i + recordHeaderSize ≤ file.length ∧ recordAt (file.drop i) = some record ∧
      ∀ j, start ≤ j → j < i → recordAt (file.drop j) = none :=
  (firstRecord_eq_some_iff (Nat.le_refl _)).1 (findRecord_eq_ok (Nat.le_refl _) h).symm

theorem dataEnd_bounds {file : List UInt8} {dataStart stop : ℕ}
    (h : dataEnd file dataStart = .ok stop) (hstart : dataStart ≤ file.length) :
    dataStart ≤ stop ∧ stop ≤ file.length := by
  obtain ⟨found, hfound, hstop⟩ := bind_eq_ok_iff.1 h
  have hstop := Except.ok.inj hstop
  cases found with
  | none =>
    rw [← hstop]
    exact ⟨hstart, Nat.le_refl _⟩
  | some r =>
    obtain ⟨i, record⟩ := r
    obtain ⟨hle, hlt, -⟩ := firstRecord_of_findRecord hfound
    rw [← hstop]
    exact ⟨hle, by simp only [Option.map_some, Option.getD_some]; omega⟩

theorem partitionSpan_bounds {file : List UInt8} {bodyEnd : ℕ} {span : ℕ × ℕ}
    (h : partitionSpan file bodyEnd = .ok span) :
    span.1 = bodyEnd + headerSize ∧ span.1 ≤ span.2 ∧ span.2 ≤ file.length := by
  simp only [partitionSpan, check_eq_ok_iff, bind_eq_ok_iff] at h
  obtain ⟨-, hle, magic, -, -, stop, hstop, hspan⟩ := h
  obtain rfl := Except.ok.inj hspan
  exact ⟨rfl, dataEnd_bounds hstop (by omega)⟩

theorem continuationSpan_bounds {file : List UInt8} {bodyEnd : ℕ} {span : ℕ × ℕ}
    (h : continuationSpan file bodyEnd = .ok span) (hbody : bodyEnd ≤ file.length) :
    bodyEnd ≤ span.1 ∧ span.1 ≤ span.2 ∧ span.2 ≤ file.length := by
  simp only [continuationSpan, bind_eq_ok_iff] at h
  obtain ⟨dataStart, hstart, stop, hstop, hspan⟩ := h
  obtain rfl := Except.ok.inj hspan
  have hbounds : bodyEnd ≤ dataStart ∧ dataStart ≤ file.length := by
    unfold continuationStart at hstart
    split_ifs at hstart with hheader
    · obtain ⟨magic, -, hstart⟩ := bind_eq_ok_iff.1 hstart
      have hstart := Except.ok.inj hstart
      split_ifs at hstart <;> omega
    · have hstart := Except.ok.inj hstart
      omega
  exact ⟨hbounds.1, dataEnd_bounds hstop hbounds.2⟩

/-- Every record moves the offset forward, by at least the size of a record header. -/
theorem recordStep_next {file : List UInt8} {offset next : ℕ} {partitions result : List Partition}
    (h : recordStep file offset partitions = .ok (some (result, next))) :
    offset + recordHeaderSize ≤ next ∧ next ≤ file.length := by
  obtain ⟨found, hfound, h⟩ := bind_eq_ok_iff.1 h
  cases found with
  | none => exact absurd (Except.ok.inj h) (by simp)
  | some r =>
    obtain ⟨i, record⟩ := r
    obtain ⟨hle, hlt, -⟩ := firstRecord_of_findRecord hfound
    simp only [check_eq_ok_iff] at h
    obtain ⟨-, hbody, h⟩ := h
    split_ifs at h with hpartition hcontinuation hend
    · obtain ⟨span, hspan, h⟩ := bind_eq_ok_iff.1 h
      obtain ⟨hstart, hstop, hfile⟩ := partitionSpan_bounds hspan
      simp only [pure_eq_ok_iff, Option.some.injEq, Prod.mk.injEq] at h
      omega
    · obtain ⟨span, hspan, h⟩ := bind_eq_ok_iff.1 h
      obtain ⟨pushed, -, h⟩ := bind_eq_ok_iff.1 h
      obtain ⟨hstart, hstop, hfile⟩ := continuationSpan_bounds hspan (by omega)
      simp only [pure_eq_ok_iff, Option.some.injEq, Prod.mk.injEq] at h
      omega
    · exact absurd (Except.ok.inj h) (by simp)
    · simp only [pure_eq_ok_iff, Option.some.injEq, Prod.mk.injEq] at h
      omega

/-! ### Parsing -/

/-- The loop of `parse` over the records of the file. -/
def parseRecords (file : List UInt8) (offset : ℕ) (partitions : List Partition) :
    Except Error (List Partition) :=
  if offset < file.length then
    match _hstep : recordStep file offset partitions with
    | .error error => .error error
    | .ok none => .ok partitions
    | .ok (some (result, next)) => parseRecords file next result
  else .ok partitions
termination_by file.length - offset
decreasing_by
  have hnext := recordStep_next _hstep
  have hsize : recordHeaderSize = 10 := rfl
  omega

theorem parseRecords_eq {file : List UInt8} {offset : ℕ} {partitions : List Partition}
    (hoffset : offset < file.length) : parseRecords file offset partitions =
      match recordStep file offset partitions with
      | .error error => .error error
      | .ok none => .ok partitions
      | .ok (some (result, next)) => parseRecords file next result := by
  rw [parseRecords, if_pos hoffset]
  split <;> simp_all only

/-- The compression that the tag of the header names. -/
def compressionOf (tag : UInt8) : Except Error Compression :=
  if tag = 0 then .ok .none
  else if tag = 2 then .ok .fast
  else if 3 ≤ tag ∧ tag ≤ 9 then .ok (.high tag)
  else if tag = 10 then .ok (.high 9)
  else .error (.unsupportedCompression tag)

/-- The partitions of an image and what its headers say. -/
def parse (file : List UInt8) : Except Error (List Partition × ImageInfo) := do
  if file.length < headerSize then
    .error .truncated
  let header ← readExact file 0 headerSize
  if readLE (header.take 2) ≠ 0xeffe then
    .error .invalidMagic
  if header.getD 2 0 ≠ 1 then
    .error .spannedUnsupported
  if header.getD 12 0 &&& 0x02 ≠ 0 then
    .error .encryptedUnsupported
  let compression ← compressionOf (header.getD 3 0)
  let partitions ← parseRecords file headerSize []
  if 2 ^ 32 ≤ partitions.length then
    .error .invalidRecord
  if partitions.length = 0 then
    .error (.partitionCount 0)
  return (partitions, {
    compression
    partitionCount := partitions.length
    -- Inspection describes the container: the first partition, whatever the caller decodes.
    sourcePartition := 1
    encrypted := false
    spanned := false })

/-! ### The first partition -/

/-- Spans are only added to a partition: the first partition keeps those that it has. -/
def KeepsFirst (partitions result : List Partition) : Prop :=
  ∀ p ∈ partitions.head?, ∃ q ∈ result.head?, p.spans <+: q.spans

theorem KeepsFirst.refl (partitions : List Partition) : KeepsFirst partitions partitions :=
  fun p hp => ⟨p, hp, List.prefix_rfl⟩

theorem KeepsFirst.trans {a b c : List Partition} (hab : KeepsFirst a b) (hbc : KeepsFirst b c) :
    KeepsFirst a c := by
  intro p hp
  obtain ⟨q, hq, hpq⟩ := hab p hp
  obtain ⟨r, hr, hqr⟩ := hbc q hq
  exact ⟨r, hr, hpq.trans hqr⟩

theorem keepsFirst_append (partitions added : List Partition) :
    KeepsFirst partitions (partitions ++ added) := by
  intro p hp
  cases partitions with
  | nil => simp at hp
  | cons q partitions => exact ⟨p, hp, List.prefix_rfl⟩

theorem keepsFirst_pushSpan {span : ℕ × ℕ} {partitions result : List Partition}
    (h : pushSpan span partitions = .ok result) : KeepsFirst partitions result := by
  intro p hp
  match partitions, h with
  | [q], h =>
    obtain rfl := Except.ok.inj h
    obtain rfl : q = p := Option.some.inj hp
    exact ⟨_, rfl, List.prefix_append _ _⟩
  | q :: r :: partitions, h =>
    obtain ⟨pushed, -, rfl⟩ := map_eq_ok_iff.1 h
    exact ⟨p, hp, List.prefix_rfl⟩

theorem keepsFirst_recordStep {file : List UInt8} {offset next : ℕ}
    {partitions result : List Partition}
    (h : recordStep file offset partitions = .ok (some (result, next))) :
    KeepsFirst partitions result := by
  obtain ⟨found, -, h⟩ := bind_eq_ok_iff.1 h
  cases found with
  | none => exact absurd (Except.ok.inj h) (by simp)
  | some r =>
    simp only [check_eq_ok_iff] at h
    obtain ⟨-, -, h⟩ := h
    split_ifs at h with hpartition hcontinuation hend
    · obtain ⟨span, -, h⟩ := bind_eq_ok_iff.1 h
      simp only [pure_eq_ok_iff, Option.some.injEq, Prod.mk.injEq] at h
      rw [← h.1]
      exact keepsFirst_append _ _
    · obtain ⟨span, -, h⟩ := bind_eq_ok_iff.1 h
      obtain ⟨pushed, hpushed, h⟩ := bind_eq_ok_iff.1 h
      simp only [pure_eq_ok_iff, Option.some.injEq, Prod.mk.injEq] at h
      rw [← h.1]
      exact keepsFirst_pushSpan hpushed
    · exact absurd (Except.ok.inj h) (by simp)
    · simp only [pure_eq_ok_iff, Option.some.injEq, Prod.mk.injEq] at h
      rw [← h.1]
      exact .refl _

theorem keepsFirst_parseRecords {file : List UInt8} {offset : ℕ}
    {partitions result : List Partition}
    (h : parseRecords file offset partitions = .ok result) : KeepsFirst partitions result := by
  fun_induction parseRecords file offset partitions with
  | case1 => cases h
  | case2 => exact (Except.ok.inj h) ▸ .refl _
  | case3 offset partitions hlt next result' hstep ih =>
    exact (keepsFirst_recordStep hstep).trans (ih h)
  | case4 => exact (Except.ok.inj h) ▸ .refl _

end EasyDeployMesh.Gho
