import EasyDeployMesh.Foundations.Outcome
import EasyDeployMesh.Gho.Container

/-!
# Reading GHO containers

`parse` and `find_record` of `crates/gho` with everything that could go wrong in them: an addition
or subtraction that leaves its 64 bits panics unless it is a checked one, a slice out of range
panics, the loops run on fuel, and a call of `read` may give fewer bytes than it is asked for. What
the reader presents is a byte string of the language, so it has fewer than `2 ^ 63` bytes.

However the reader cuts its bytes up, parsing ends without a panic, every record moves the scan
forward, and the partitions lie in the file one behind the other.

## Main definitions

* `EasyDeployMesh.Gho.ByteReader`: a byte string, and how the calls of `read` cut it up.
* `EasyDeployMesh.Gho.Reading.findRecord`, `EasyDeployMesh.Gho.Reading.recordStep`,
  `EasyDeployMesh.Gho.Reading.parse`: the functions of the source.
* `EasyDeployMesh.Gho.WellFormed`: partitions in the file, in order and disjoint.

## Main results

* `EasyDeployMesh.Gho.parse_terminates_wellFormed`: parsing ends with well-formed partitions.
-/

namespace EasyDeployMesh.Gho

open Foundations

/-- A reader of a byte string. The `n`-th call of `read` gives at most `deliver n` bytes. -/
structure ByteReader where
  bytes : List UInt8
  length_lt : bytes.length < 2 ^ 63
  deliver : ℕ → ℕ

/-- A computation that counts the calls of `read`. -/
abbrev Reading := Run Error ℕ

namespace Reading

variable (reader : ByteReader)

/-- `read` of at most `wanted` bytes at an offset. -/
def read (offset wanted : ℕ) : Reading (List UInt8) := fun calls =>
  .ok ((reader.bytes.drop offset).take (min wanted (reader.deliver calls)), calls + 1)

/-- The record header at an index of the buffer. -/
def headerAt (buffer : List UInt8) (i : ℕ) : Reading (Option RecordHeader) := do
  let magic ← Run.slice buffer (i + 4) (i + 8)
  if readLE magic = recordMagic then do
    let kind ← Run.slice buffer i (i + 2)
    if readLE kind ∈ [0x0006, 0x0603, 0x0703, 0x0023] then do
      let bodyLen ← Run.slice buffer (i + 8) (i + 10)
      pure (some { kind := readLE kind, bodyLen := readLE bodyLen })
    else pure none
  else pure none

/-- The loop over the buffer: `count` indices from `i` on. -/
def scanBuffer (buffer : List UInt8) : ℕ → ℕ → Reading (Option (ℕ × RecordHeader))
  | 0, _ => pure none
  | count + 1, i => do
    match ← headerAt buffer i with
    | some record => pure (some (i, record))
    | none => scanBuffer buffer count (i + 1)

/-- `find_record` in `[offset, stop)`. -/
def findRecord : ℕ → ℕ → ℕ → Reading (Option (ℕ × RecordHeader))
  | 0, _, _ => Run.running
  | fuel + 1, offset, stop =>
    if offset < stop then do
      let left ← Run.minus stop offset
      let buffer ← read reader offset (min left searchWindow)
      if buffer.length < recordHeaderSize then pure none
      else do
        let last ← Run.minus buffer.length recordHeaderSize
        match ← scanBuffer buffer (last + 1) 0 with
        | some (i, record) => do
          let found ← Run.plus offset i
          pure (some (found, record))
        | none => do
          let skipped ← Run.minus buffer.length (recordHeaderSize - 1)
          let next ← Run.checkedPlus .invalidRecord offset skipped
          findRecord fuel next stop
    else pure none

/-- Where the data end that begin at `dataStart`. -/
def dataEnd (fuel dataStart : ℕ) : Reading ℕ := do
  let found ← findRecord reader fuel dataStart reader.bytes.length
  pure ((found.map Prod.fst).getD reader.bytes.length)

/-- The data of a partition record. -/
def partitionSpan (fuel bodyEnd : ℕ) : Reading (ℕ × ℕ) := do
  let dataStart ← Run.checkedPlus .invalidRecord bodyEnd headerSize
  if reader.bytes.length < dataStart then Run.fail .truncated
  else do
    let magic ← Run.ofExcept (readExact reader.bytes bodyEnd 2)
    if readLE magic ≠ 0xeffe then Run.fail .invalidMagic
    else do
      let stop ← dataEnd reader fuel dataStart
      pure (dataStart, stop)

/-- Where the data of a continuation record begin. -/
def continuationStart (bodyEnd : ℕ) : Reading ℕ := do
  let afterHeader ← Run.plus bodyEnd headerSize
  if afterHeader ≤ reader.bytes.length then do
    let magic ← Run.ofExcept (readExact reader.bytes bodyEnd 2)
    if readLE magic = 0xeffe then Run.plus bodyEnd headerSize else pure bodyEnd
  else pure bodyEnd

/-- The data of a continuation record. -/
def continuationSpan (fuel bodyEnd : ℕ) : Reading (ℕ × ℕ) := do
  let dataStart ← continuationStart reader bodyEnd
  let stop ← dataEnd reader fuel dataStart
  pure (dataStart, stop)

/-- One pass of the loop of `parse`: the partitions so far and the next offset, or `none` when the
loop breaks. -/
def recordStep (fuel offset : ℕ) (partitions : List Partition) :
    Reading (Option (List Partition × ℕ)) := do
  match ← findRecord reader fuel offset reader.bytes.length with
  | none => pure none
  | some (recordOffset, record) => do
    let headerEnd ← Run.checkedPlus .invalidRecord recordOffset recordHeaderSize
    let bodyEnd ← Run.checkedPlus .invalidRecord headerEnd record.bodyLen
    if reader.bytes.length < bodyEnd then Run.fail .truncated
    else if record.kind = 0x0603 then do
      let span ← partitionSpan reader fuel bodyEnd
      pure (some (partitions ++ [{ spans := [span] }], span.2))
    else if record.kind = 0x0703 then do
      let span ← continuationSpan reader fuel bodyEnd
      let pushed ← Run.ofExcept (pushSpan span partitions)
      pure (some (pushed, span.2))
    else if record.kind = 0x0023 then pure none
    else pure (some (partitions, bodyEnd))

/-- The loop of `parse`, for at most the given number of passes. -/
def parseRecords (fuel : ℕ) : ℕ → ℕ → List Partition → Reading (List Partition)
  | 0, _, _ => Run.running
  | passes + 1, offset, partitions =>
    if offset < reader.bytes.length then do
      match ← recordStep reader fuel offset partitions with
      | none => pure partitions
      | some (result, next) => parseRecords fuel passes next result
    else pure partitions

/-- The checks of the header, and the compression that it names. -/
def parseHeader : Except Error Compression := do
  if reader.bytes.length < headerSize then
    .error .truncated
  let header ← readExact reader.bytes 0 headerSize
  if readLE (header.take 2) ≠ 0xeffe then
    .error .invalidMagic
  if header.getD 2 0 ≠ 1 then
    .error .spannedUnsupported
  if header.getD 12 0 &&& 0x02 ≠ 0 then
    .error .encryptedUnsupported
  compressionOf (header.getD 3 0)

/-- `parse`. -/
def parse (fuel : ℕ) : Reading (List Partition × ImageInfo) := do
  let compression ← Run.ofExcept (parseHeader reader)
  let partitions ← parseRecords reader fuel fuel headerSize []
  if 2 ^ 32 ≤ partitions.length then Run.fail .invalidRecord
  else if partitions.length = 0 then Run.fail (.partitionCount 0)
  else pure (partitions, {
    compression
    partitionCount := partitions.length
    sourcePartition := 1
    encrypted := false
    spanned := false })

end Reading

/-! ### The search -/

section Search

variable {reader : ByteReader} {buffer : List UInt8} {i count fuel offset stop : ℕ}

/-- The header at an index with ten bytes behind it is read without a panic. -/
theorem Reading.ends_headerAt (h : i + recordHeaderSize ≤ buffer.length) :
    Ends (Reading.headerAt buffer i) fun _ => True := by
  have hsize : recordHeaderSize = 10 := rfl
  refine (Ends.slice (by omega) (by omega)).bind fun magic _ => ?_
  split_ifs
  · refine (Ends.slice (by omega) (by omega)).bind fun kind _ => ?_
    split_ifs
    · exact (Ends.slice (by omega) (by omega)).bind fun _ _ => Ends.pure trivial
    · exact Ends.pure trivial
  · exact Ends.pure trivial

/-- The loop over the buffer stays in it, and so does what it finds. -/
theorem Reading.ends_scanBuffer (h : i + count + (recordHeaderSize - 1) ≤ buffer.length) :
    Ends (Reading.scanBuffer buffer count i) fun found => ∀ j record,
      found = some (j, record) → i ≤ j ∧ j + recordHeaderSize ≤ buffer.length := by
  have hsize : recordHeaderSize = 10 := rfl
  induction count generalizing i with
  | zero =>
    refine Ends.pure ?_
    rintro j record ⟨⟩
  | succ count ih =>
    refine (Reading.ends_headerAt (by omega)).bind fun header _ => ?_
    cases header with
    | some record =>
      refine Ends.pure ?_
      rintro j record' ⟨⟩
      omega
    | none =>
      refine (@ih (i + 1) (by omega)).mono fun found hfound j record hj => ?_
      have := hfound j record hj
      omega

/-- The search ends when its fuel exceeds the range, and what it finds lies in the range. -/
theorem Reading.ends_findRecord (hstop : stop ≤ reader.bytes.length)
    (hfuel : stop - offset < fuel) :
    Ends (Reading.findRecord reader fuel offset stop) fun found => ∀ j record,
      found = some (j, record) → offset ≤ j ∧ j + recordHeaderSize ≤ stop := by
  have hsize : recordHeaderSize = 10 := rfl
  have hlength := reader.length_lt
  induction fuel generalizing offset with
  | zero => omega
  | succ fuel ih =>
    unfold Reading.findRecord
    split_ifs with hlt
    · refine (Ends.minus (by omega)).bind fun left hleft => ?_
      -- the bytes that the call of `read` gives
      have hread : Ends (Reading.read reader offset (min left searchWindow)) fun buffer =>
          buffer.length ≤ stop - offset := by
        refine ⟨fun calls => ?_⟩
        show (List.take _ _).length ≤ _
        rw [List.length_take, List.length_drop]
        omega
      refine hread.bind fun buffer hbuffer => ?_
      split_ifs with hshort
      · refine Ends.pure ?_
        rintro j record ⟨⟩
      · refine (Ends.minus (by omega)).bind fun last hlast => ?_
        refine (Reading.ends_scanBuffer (by omega)).bind fun found hfound => ?_
        cases found with
        | some r =>
          have hr := hfound r.1 r.2 rfl
          refine (Ends.plus (by omega)).bind fun place hplace => Ends.pure ?_
          rintro j record ⟨⟩
          omega
        | none =>
          refine (Ends.minus (by omega)).bind fun skipped hskipped => ?_
          refine Ends.checkedPlus.bind fun next hnext => ?_
          refine (@ih next (by omega)).mono fun found hfound j record hj => ?_
          have := hfound j record hj
          omega
    · refine Ends.pure ?_
      rintro j record ⟨⟩

end Search

/-! ### Records -/

section Records

variable {reader : ByteReader} {fuel offset bodyEnd dataStart : ℕ} {partitions : List Partition}

/-- The data that begin in the file end in the file. -/
theorem Reading.ends_dataEnd (hfuel : reader.bytes.length < fuel)
    (hstart : dataStart ≤ reader.bytes.length) :
    Ends (Reading.dataEnd reader fuel dataStart) fun stop =>
      dataStart ≤ stop ∧ stop ≤ reader.bytes.length := by
  unfold Reading.dataEnd
  refine (Reading.ends_findRecord (Nat.le_refl _) (by omega)).bind fun found hfound => Ends.pure ?_
  cases found with
  | none => exact ⟨hstart, Nat.le_refl _⟩
  | some r =>
    obtain ⟨hle, hend⟩ := hfound r.1 r.2 rfl
    exact ⟨hle, by simp only [Option.map_some, Option.getD_some]; omega⟩

theorem Reading.ends_partitionSpan (hfuel : reader.bytes.length < fuel) :
    Ends (Reading.partitionSpan reader fuel bodyEnd) fun span =>
      bodyEnd < span.1 ∧ span.1 ≤ span.2 ∧ span.2 ≤ reader.bytes.length := by
  have hsize : headerSize = 512 := rfl
  unfold Reading.partitionSpan
  refine Ends.checkedPlus.bind fun dataStart hdata => ?_
  split_ifs with htruncated
  · exact Ends.fail _
  · refine (Ends.of_ofExcept _).bind fun magic _ => ?_
    split_ifs
    · exact Ends.fail _
    · refine (Reading.ends_dataEnd hfuel (by omega)).bind fun stop hstop => Ends.pure ?_
      exact ⟨by show bodyEnd < dataStart; omega, hstop.1, hstop.2⟩

theorem Reading.ends_continuationSpan (hfuel : reader.bytes.length < fuel)
    (hbody : bodyEnd ≤ reader.bytes.length) :
    Ends (Reading.continuationSpan reader fuel bodyEnd) fun span =>
      bodyEnd ≤ span.1 ∧ span.1 ≤ span.2 ∧ span.2 ≤ reader.bytes.length := by
  have hsize : headerSize = 512 := rfl
  have hlength := reader.length_lt
  have hstart : Ends (Reading.continuationStart reader bodyEnd) fun dataStart =>
      bodyEnd ≤ dataStart ∧ dataStart ≤ reader.bytes.length := by
    unfold Reading.continuationStart
    refine (Ends.plus (by omega)).bind fun afterHeader hafter => ?_
    split_ifs with hheader
    · refine (Ends.of_ofExcept _).bind fun magic _ => ?_
      split_ifs
      · exact (Ends.plus (by omega)).mono fun dataStart hdata => by omega
      · exact Ends.pure ⟨Nat.le_refl _, hbody⟩
    · exact Ends.pure ⟨Nat.le_refl _, hbody⟩
  unfold Reading.continuationSpan
  refine hstart.bind fun dataStart hdata => ?_
  refine (Reading.ends_dataEnd hfuel hdata.2).bind fun stop hstop => Ends.pure ?_
  exact ⟨hdata.1, hstop.1, hstop.2⟩

/-- Ranges one behind the other, up to an offset. -/
structure InOrder (offset : ℕ) (spans : List (ℕ × ℕ)) : Prop where
  ordered : spans.Pairwise fun a b => a.2 ≤ b.1
  bounded : ∀ span ∈ spans, span.1 ≤ span.2 ∧ span.2 ≤ offset

theorem InOrder.nil (offset : ℕ) : InOrder offset [] :=
  ⟨List.Pairwise.nil, fun _ h => absurd h List.not_mem_nil⟩

theorem InOrder.mono {offset' : ℕ} {spans : List (ℕ × ℕ)} (h : InOrder offset spans)
    (hle : offset ≤ offset') : InOrder offset' spans :=
  ⟨h.ordered, fun span hspan =>
    ⟨(h.bounded span hspan).1, Nat.le_trans (h.bounded span hspan).2 hle⟩⟩

/-- A range behind the offset is the last one of the ranges up to its end. -/
theorem InOrder.concat {spans : List (ℕ × ℕ)} {span : ℕ × ℕ} (h : InOrder offset spans)
    (hoffset : offset ≤ span.1) (hspan : span.1 ≤ span.2) : InOrder span.2 (spans ++ [span]) where
  ordered := by
    refine List.pairwise_append.2 ⟨h.ordered, List.pairwise_singleton _ _, fun a ha b hb => ?_⟩
    rw [List.mem_singleton.1 hb]
    exact Nat.le_trans (h.bounded a ha).2 hoffset
  bounded a ha := by
    rcases List.mem_append.1 ha with ha | ha
    · have := h.bounded a ha
      omega
    · rw [List.mem_singleton.1 ha]
      exact ⟨hspan, Nat.le_refl _⟩

/-- All ranges of the partitions, in the order of the partitions. -/
def allSpans (partitions : List Partition) : List (ℕ × ℕ) := partitions.flatMap Partition.spans

/-- A continuation adds its range behind all the others. -/
theorem allSpans_of_pushSpan {span : ℕ × ℕ} {result : List Partition}
    (h : pushSpan span partitions = .ok result) :
    allSpans result = allSpans partitions ++ [span] := by
  induction partitions generalizing result with
  | nil => cases h
  | cons partition rest ih =>
    cases rest with
    | nil =>
      cases h
      simp [allSpans]
    | cons next rest =>
      obtain ⟨pushed, hpushed, rfl⟩ := map_eq_ok_iff.1 h
      have htail := ih hpushed
      unfold allSpans at htail ⊢
      rw [List.flatMap_cons, htail, ← List.append_assoc, ← List.flatMap_cons]

/-- Every record ends the pass without a panic and moves the scan forward in the file; the ranges
stay in order. -/
theorem Reading.ends_recordStep (hfuel : reader.bytes.length < fuel) :
    Ends (Reading.recordStep reader fuel offset partitions) fun step => ∀ result next,
      step = some (result, next) → offset < next ∧ next ≤ reader.bytes.length ∧
        (InOrder offset (allSpans partitions) → InOrder next (allSpans result)) := by
  have hsize : recordHeaderSize = 10 := rfl
  unfold Reading.recordStep
  refine (Reading.ends_findRecord (Nat.le_refl _) (by omega)).bind fun found hfound => ?_
  cases found with
  | none =>
    refine Ends.pure ?_
    rintro result next ⟨⟩
  | some r =>
    obtain ⟨hle, -⟩ := hfound r.1 r.2 rfl
    refine Ends.checkedPlus.bind fun headerEnd hheader =>
      Ends.checkedPlus.bind fun bodyEnd hbody => ?_
    split_ifs with htruncated hpartition hcontinuation hend
    · exact Ends.fail _
    · refine (Reading.ends_partitionSpan hfuel).bind fun span hspan => Ends.pure ?_
      rintro result next ⟨⟩
      refine ⟨by omega, hspan.2.2, fun horder => ?_⟩
      have hspans :
          allSpans (partitions ++ [{ spans := [span] }]) = allSpans partitions ++ [span] := by
        simp [allSpans]
      rw [hspans]
      exact horder.concat (by omega) hspan.2.1
    · refine (Reading.ends_continuationSpan hfuel (by omega)).bind fun span hspan => ?_
      refine (Ends.ofExcept fun _ => id).bind fun pushed hpushed => Ends.pure ?_
      rintro result next ⟨⟩
      refine ⟨by omega, hspan.2.2, fun horder => ?_⟩
      rw [allSpans_of_pushSpan hpushed]
      exact horder.concat (by omega) hspan.2.1
    · refine Ends.pure ?_
      rintro result next ⟨⟩
    · refine Ends.pure ?_
      rintro result next ⟨⟩
      exact ⟨by omega, by omega, fun horder => horder.mono (by omega)⟩

end Records

/-! ### Parsing -/

/-- The data ranges of the partitions lie in the file, one behind the other in the order of the
partitions, and no two of them share a position. -/
structure WellFormed (fileLen : ℕ) (partitions : List Partition) : Prop where
  inFile : ∀ span ∈ allSpans partitions, span.1 ≤ span.2 ∧ span.2 ≤ fileLen
  ordered : (allSpans partitions).Pairwise fun a b => a.1 ≤ b.1 ∧ a.2 ≤ b.2
  disjoint : (allSpans partitions).Pairwise fun a b =>
    ∀ position, a.1 ≤ position → position < a.2 → ¬ (b.1 ≤ position ∧ position < b.2)

theorem InOrder.wellFormed {fileLen : ℕ} {partitions : List Partition}
    (h : InOrder fileLen (allSpans partitions)) : WellFormed fileLen partitions where
  inFile := h.bounded
  ordered := h.ordered.imp_of_mem fun {a b} ha hb hab => by
    have := h.bounded a ha
    have := h.bounded b hb
    omega
  disjoint := h.ordered.imp fun {a b} hab position _ hlt hb => by omega

section Parse

variable {reader : ByteReader} {fuel passes offset : ℕ} {partitions : List Partition}

/-- The loop ends when its passes exceed what is left of the file. -/
theorem Reading.ends_parseRecords (hfuel : reader.bytes.length < fuel)
    (hpasses : reader.bytes.length - offset < passes) (hoffset : offset ≤ reader.bytes.length)
    (horder : InOrder offset (allSpans partitions)) :
    Ends (Reading.parseRecords reader fuel passes offset partitions) fun result =>
      InOrder reader.bytes.length (allSpans result) := by
  induction passes generalizing offset partitions with
  | zero => omega
  | succ passes ih =>
    unfold Reading.parseRecords
    split_ifs with hlt
    · refine (Reading.ends_recordStep hfuel).bind fun step hstep => ?_
      cases step with
      | none => exact Ends.pure (horder.mono hoffset)
      | some r =>
        obtain ⟨hforward, hnext, hkeeps⟩ := hstep r.1 r.2 rfl
        exact ih (by omega) hnext (hkeeps horder)
    · exact Ends.pure (horder.mono hoffset)

/-- Parsing ends when its fuel exceeds the length of the file. -/
theorem Reading.ends_parse (hfuel : reader.bytes.length < fuel) :
    Ends (Reading.parse reader fuel) fun parsed => WellFormed reader.bytes.length parsed.1 := by
  have hsize : headerSize = 512 := rfl
  have hheader : Ends (Run.ofExcept (Reading.parseHeader reader) : Reading Compression)
      fun _ => headerSize ≤ reader.bytes.length := by
    refine Ends.ofExcept fun compression h => ?_
    by_contra hshort
    rw [Reading.parseHeader, if_pos (by omega)] at h
    cases h
  unfold Reading.parse
  refine hheader.bind fun compression hlength => ?_
  refine (Reading.ends_parseRecords hfuel (by omega) hlength (InOrder.nil _)).bind
    fun partitions horder => ?_
  split_ifs
  · exact Ends.fail _
  · exact Ends.fail _
  · exact Ends.pure horder.wellFormed

/-- Parsing ends without a panic for every byte string and however it is cut up by the calls of
`read`; every record moves the scan forward, and where parsing succeeds the partitions are
well formed. -/
theorem parse_terminates_wellFormed (reader : ByteReader) : ∃ enough, ∀ fuel, enough ≤ fuel →
    Ends (Reading.parse reader fuel) (fun parsed => WellFormed reader.bytes.length parsed.1) ∧
      ∀ offset partitions, Ends (Reading.recordStep reader fuel offset partitions) fun step =>
        ∀ result next, step = some (result, next) → offset < next := by
  refine ⟨reader.bytes.length + 1, fun fuel hfuel => ⟨Reading.ends_parse (by omega), ?_⟩⟩
  intro offset partitions
  refine (Reading.ends_recordStep (by omega)).mono fun step hstep result next h => ?_
  exact (hstep result next h).1

end Parse

end EasyDeployMesh.Gho
