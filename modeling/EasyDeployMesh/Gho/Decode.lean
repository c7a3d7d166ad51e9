import EasyDeployMesh.Gho.FastLz

/-!
# Decoding a partition

The loop of `decode_partition` in `crates/gho`: the data of a partition are blocks, each behind its
stored length, up to a length of zero or to the end of a span. The deflate library is a parameter:
`inflate` is what it makes of the compressed bytes, or `none` when it reports an error. The writer
takes every byte that it is given.

## Main definitions

* `EasyDeployMesh.Gho.decodeBlock`: one block.
* `EasyDeployMesh.Gho.blockStep`, `EasyDeployMesh.Gho.decodeSpan`, `EasyDeployMesh.Gho.decodeSpans`:
  the loops over the blocks of a span, and over the spans.
* `EasyDeployMesh.Gho.decodePartition`: the operation of the crate.

## Main results

* `EasyDeployMesh.Gho.blockStep_next`: every block moves the offset forward, inside its span.
-/

namespace EasyDeployMesh.Gho

open Foundations

variable (inflate : List UInt8 → Option (List UInt8))

/-- The length of the output buffer. -/
def expandedLen : ℕ := blockSize + 1024

/-- The number of bytes that a block writes to the output buffer, and the buffer. -/
def zlib (data out : List UInt8) : Except Stop (ℕ × List UInt8) :=
  if data.length < 4 then .error (.error .corruptBlock)
  else if data.head? = some 1 then storedBlock data out
  else
    match inflate (data.drop 4) with
    | none => .error (.error .corruptBlock)
    | some bytes =>
      if out.length < bytes.length then .error (.error .corruptBlock)
      else .ok (bytes.length, bytes ++ out.drop bytes.length)

/-- The number of bytes in a block of a compression, and the output buffer after it. -/
def decodeBlock (compression : Compression) (data out : List UInt8) :
    Except Stop (ℕ × List UInt8) :=
  match compression with
  | .none =>
    if out.length < data.length then .error (.error .corruptBlock)
    else .ok (data.length, data ++ out.drop data.length)
  | .fast => fastLz data out
  | .high _ => zlib inflate data out

/-- What a decoder has done: the number of bytes, the output buffer, and the bytes written. -/
structure Progress where
  total : ℕ
  expanded : List UInt8
  written : List UInt8
  deriving DecidableEq

/-- The block of `stored` bytes at an offset of a span that ends at `stop`, and the next offset. -/
def storedStep (file : List UInt8) (compression : Compression) (limit stop offset stored : ℕ)
    (p : Progress) : Except Stop (ℕ × Progress) := do
  if stored < 3 ∨ maxStoredLen < stored then
    .error (.error .corruptBlock)
  let next := offset + stored
  if 2 ^ 64 ≤ next then
    .error (.error .corruptBlock)
  if stop < next then
    .error (.error .truncated)
  let data ← (readExact file (offset + 2) (stored - 2)).mapError .error
  let (count, expanded) ← decodeBlock inflate compression data p.expanded
  let total := p.total + count
  if 2 ^ 64 ≤ total ∨ limit < total then
    .error (.error .expandedLimit)
  return (next, { total, expanded, written := p.written ++ expanded.take count })

/-- One pass of the loop over the blocks of a span: `none` when the loop ends. -/
def blockStep (file : List UInt8) (compression : Compression) (limit stop offset : ℕ)
    (p : Progress) : Except Stop (Option (ℕ × Progress)) :=
  if offset + 2 < 2 ^ 64 ∧ offset + 2 ≤ stop then do
    let length ← (readExact file offset 2).mapError .error
    if readLE length = 0 then return none
    else return some (← storedStep inflate file compression limit stop offset (readLE length) p)
  else return none

variable {inflate} {file : List UInt8} {compression : Compression} {limit stop offset next : ℕ}
  {p q : Progress}

/-- What a block does: it lies in its span, and its bytes are written behind the others. -/
theorem storedStep_eq_ok_iff {stored : ℕ} :
    storedStep inflate file compression limit stop offset stored p = .ok (next, q) ↔
      ∃ data count expanded,
        next = offset + stored ∧ 3 ≤ stored ∧ stored ≤ maxStoredLen ∧ next < 2 ^ 64 ∧
        next ≤ stop ∧ readExact file (offset + 2) (stored - 2) = .ok data ∧
        decodeBlock inflate compression data p.expanded = .ok (count, expanded) ∧
        p.total + count < 2 ^ 64 ∧ p.total + count ≤ limit ∧
        q =
          { total := p.total + count, expanded,
            written := p.written ++ expanded.take count } := by
  simp only [storedStep, check_eq_ok_iff, bind_eq_ok_iff, mapError_eq_ok_iff, pure_eq_ok_iff,
    Prod.mk.injEq]
  constructor
  · rintro ⟨hstored, hnext, hle, data, hdata, ⟨count, expanded⟩, hblock, htotal, rfl, rfl⟩
    exact ⟨data, count, expanded, rfl, by omega, by omega, by omega, by omega, hdata, hblock,
      by omega, by omega, rfl⟩
  · rintro ⟨data, count, expanded, rfl, hstored, hmax, hnext, hle, hdata, hblock, htotal,
      hlimit, rfl⟩
    exact ⟨by omega, by omega, by omega, data, hdata, ⟨count, expanded⟩, hblock, by omega, rfl, rfl⟩

theorem blockStep_eq_some_iff :
    blockStep inflate file compression limit stop offset p = .ok (some (next, q)) ↔
      offset + 2 < 2 ^ 64 ∧ offset + 2 ≤ stop ∧ ∃ length, readExact file offset 2 = .ok length ∧
        readLE length ≠ 0 ∧
        storedStep inflate file compression limit stop offset (readLE length) p =
          .ok (next, q) := by
  unfold blockStep
  split_ifs with hstop
  · simp only [bind_eq_ok_iff, mapError_eq_ok_iff, hstop, true_and]
    refine exists_congr fun length => and_congr_right fun _ => ?_
    split_ifs with hzero
    · simp [pure_eq_ok_iff, hzero]
    · simp only [bind_eq_ok_iff, pure_eq_ok_iff, Option.some.injEq, exists_eq_right, hzero, ne_eq,
        not_false_eq_true, true_and]
  · refine iff_of_false (by simp [pure_eq_ok_iff]) ?_
    rintro ⟨hoffset, hle, -⟩
    exact hstop ⟨hoffset, hle⟩

/-- Every block moves the offset forward, inside its span. -/
theorem blockStep_next
    (h : blockStep inflate file compression limit stop offset p = .ok (some (next, q))) :
    offset < next ∧ next ≤ stop := by
  obtain ⟨-, -, length, -, -, h⟩ := blockStep_eq_some_iff.1 h
  obtain ⟨data, count, expanded, rfl, hstored, -, -, hle, -⟩ := storedStep_eq_ok_iff.1 h
  omega

variable (inflate)

/-- The loop over the blocks of a span. -/
def decodeSpan (file : List UInt8) (compression : Compression) (limit stop offset : ℕ)
    (p : Progress) : Except Stop Unit × Progress :=
  match _hstep : blockStep inflate file compression limit stop offset p with
  | .error reason => (.error reason, p)
  | .ok none => (.ok (), p)
  | .ok (some (next, q)) => decodeSpan file compression limit stop next q
termination_by stop - offset
decreasing_by
  have hnext := blockStep_next _hstep
  omega

theorem decodeSpan_eq : decodeSpan inflate file compression limit stop offset p =
    match blockStep inflate file compression limit stop offset p with
    | .error reason => (.error reason, p)
    | .ok none => (.ok (), p)
    | .ok (some (next, q)) => decodeSpan inflate file compression limit stop next q := by
  rw [decodeSpan]
  split <;> simp_all only

/-- The loop over the spans of a partition. -/
def decodeSpans (file : List UInt8) (compression : Compression) (limit : ℕ) :
    List (ℕ × ℕ) → Progress → Except Stop Unit × Progress
  | [], p => (.ok (), p)
  | span :: spans, p =>
    match decodeSpan inflate file compression limit span.2 span.1 p with
    | (.error reason, q) => (.error reason, q)
    | (.ok (), q) => decodeSpans file compression limit spans q

/-- The partition with a number, where the first one has number 1. -/
def selectPartition (partitions : List Partition) (info : ImageInfo) (sourcePartition : ℕ) :
    Except Error Partition :=
  if sourcePartition = 0 ∨ info.partitionCount < sourcePartition then
    .error (.partitionCount info.partitionCount)
  else partitions[sourcePartition - 1]?.elim (.error (.partitionCount info.partitionCount)) .ok

/-- The state of the decoder before the first block. -/
def Progress.start : Progress where
  total := 0
  expanded := List.replicate expandedLen 0
  written := []

/-- The result of `decode_partition`, and the bytes that it writes. -/
def decodePartition (file : List UInt8) (sourcePartition expandedLimit : ℕ) :
    Except Stop (ImageInfo × ℕ) × List UInt8 :=
  match (do
      let (partitions, info) ← parse file
      return (info, ← selectPartition partitions info sourcePartition)) with
  | .error error => (.error (.error error), [])
  | .ok (info, partition) =>
    let (result, p) :=
      decodeSpans inflate file info.compression expandedLimit partition.spans .start
    (result.map fun _ => (info, p.total), p.written)

variable {inflate}

theorem decodePartition_of_parse {partitions : List Partition} {info : ImageInfo} {n : ℕ}
    {partition : Partition} (hparse : parse file = .ok (partitions, info))
    (hselect : selectPartition partitions info n = .ok partition) :
    decodePartition inflate file n limit =
      ((decodeSpans inflate file info.compression limit partition.spans .start).1.map
          fun _ => (info, (decodeSpans inflate file info.compression limit partition.spans
            .start).2.total),
        (decodeSpans inflate file info.compression limit partition.spans .start).2.written) := by
  rw [decodePartition, hparse]
  simp only [bind, Except.bind, hselect, pure, Except.pure]

theorem parse_of_decodePartition {n : ℕ} {r : ImageInfo × ℕ}
    (h : (decodePartition inflate file n limit).1 = .ok r) :
    ∃ partitions info, parse file = .ok (partitions, info) := by
  cases hparse : parse file with
  | error error =>
    rw [decodePartition, hparse] at h
    cases h
  | ok result => exact ⟨result.1, result.2, rfl⟩

end EasyDeployMesh.Gho
