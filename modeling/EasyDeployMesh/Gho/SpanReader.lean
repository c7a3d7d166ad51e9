import EasyDeployMesh.Foundations.Segments
import EasyDeployMesh.Gho.Container
import Mathlib.Data.Int.Notation

/-!
# Spanned containers as one stream

`SpanReader` of `crates/gho`: a primary file and its continuation files, read as one stream without
the headers of the continuations. A file is its bytes. Every read of a file comes behind a seek, and
may return fewer bytes than there are, although not none; how many is left to a schedule, which the
model counts along.

The stream is an abstract object, too: a byte string with a position, where a read returns all the
bytes that fit. The reader refines it: whatever the schedule is, it answers as the abstract stream
does.

## Main definitions

* `EasyDeployMesh.Gho.SpanReader`, `EasyDeployMesh.Gho.SpanReader.new`,
  `EasyDeployMesh.Gho.SpanReader.read`, `EasyDeployMesh.Gho.SpanReader.seek`: the reader.
* `EasyDeployMesh.Gho.flatImage`, `EasyDeployMesh.Gho.FlatStream`: the abstract stream.
* `EasyDeployMesh.Gho.SpanReader.Presents`: the reader stands at a position of the stream.

## Main results

* `EasyDeployMesh.Gho.presents_new`: a new reader stands at the beginning.
* `EasyDeployMesh.Gho.total_of_new`: the stream is one header shorter for each continuation.
* `EasyDeployMesh.Gho.SpanReader.Presents.read`, `EasyDeployMesh.Gho.SpanReader.Presents.seek`: one
  call.
* `EasyDeployMesh.Gho.SpanReader.Presents.run`: every sequence of calls.
-/

namespace EasyDeployMesh.Gho

open Foundations

/-! ### Files -/

/-- A read of at most `wanted` bytes behind a seek to `offset`, when the file returns no more than
`short` bytes, or one. -/
def readAt (file : List UInt8) (offset wanted short : ℕ) : List UInt8 :=
  (file.drop offset).take (min wanted (max 1 short))

/-- The number of bytes at the beginning of a file that are not part of the stream. -/
def skipped (index : ℕ) : ℕ :=
  if index = 0 then 0 else headerSize

/-! ### The reader -/

/-- The files of a split image behind one position. -/
structure SpanReader where
  readers : List (List UInt8)
  starts : List ℕ
  lengths : List ℕ
  position : ℕ
  total : ℕ
  /-- The number of reads of the files so far. -/
  reads : ℕ
  deriving DecidableEq

/-- The check of a continuation against the header of the primary file. -/
def checkContinuation (primary : List UInt8) (index : ℕ) (file : List UInt8) : Except Error Unit :=
  if 0 < index then do
    let header ← readExact file 0 headerSize
    if readLE (header.take 2) ≠ 0xeffe ∨ header.getD 2 0 ≠ 9 ∨
        header.getD 3 0 ≠ primary.getD 3 0 ∨ (header.drop 4).take 4 ≠ (primary.drop 4).take 4 then
      .error .spanMismatch
    return ()
  else return ()

/-- One file more behind those that the reader has measured. -/
def SpanReader.measure (primary : List UInt8) (r : SpanReader) (file : List UInt8) :
    Except Error SpanReader := do
  let index := r.lengths.length
  if file.length < headerSize then
    .error .truncated
  checkContinuation primary index file
  let length := file.length - skipped index
  if 2 ^ 64 ≤ r.total + length then
    .error .invalidRecord
  return { r with
    starts := r.starts ++ [r.total]
    lengths := r.lengths ++ [length]
    total := r.total + length }

/-- The reader of the files of an image, each with a header of its own. -/
def SpanReader.new (readers : List (List UInt8)) : Except Error SpanReader :=
  match readers with
  | [] => .error .truncated
  | first :: _ => do
    let header ← readExact first 0 headerSize
    if readLE (header.take 2) ≠ 0xeffe ∨ header.getD 2 0 ≠ 1 then
      .error .invalidMagic
    readers.foldlM (SpanReader.measure header) {
      readers
      starts := []
      lengths := []
      position := 0
      total := 0
      reads := 0 }

/-- The errors of a read or a seek. -/
inductive IoError
  | unexpectedEof
  | invalidInput
  deriving DecidableEq

/-- The bytes that one read of a file returns to a buffer with room for `room` bytes. The file is
the last one that begins at the position or before it. -/
def SpanReader.chunk (r : SpanReader) (short : ℕ → ℕ) (room : ℕ) : List UInt8 :=
  let index := lastStart r.starts r.position
  let relative := r.position - r.starts.getD index 0
  let available := r.lengths.getD index 0 - relative
  readAt (r.readers.getD index []) (skipped index + relative) (min available room) (short r.reads)

/-- The reader behind some bytes. -/
def SpanReader.advance (r : SpanReader) (count : ℕ) : SpanReader :=
  { r with position := r.position + count, reads := r.reads + 1 }

/-- The loop of `read` to a buffer with room for `room` bytes. -/
def SpanReader.read (short : ℕ → ℕ) (r : SpanReader) (room : ℕ) :
    Except IoError (List UInt8) × SpanReader :=
  if _hroom : 0 < room ∧ r.position < r.total then
    let bytes := r.chunk short room
    if _hbytes : bytes.length = 0 then (.error .unexpectedEof, r.advance 0)
    else
      let (rest, r) := SpanReader.read short (r.advance bytes.length) (room - bytes.length)
      (rest.map (bytes ++ ·), r)
  else (.ok [], r)
termination_by room
decreasing_by
  show room - bytes.length < room
  omega

/-- A target of `seek`: a distance from the beginning, the end, or the position. -/
inductive SeekFrom
  | start (value : ℕ)
  | fromEnd (value : ℤ)
  | current (value : ℤ)

/-- The position that a target names. -/
def SeekFrom.target (total position : ℕ) : SeekFrom → ℤ
  | .start value => value
  | .fromEnd value => total + value
  | .current value => position + value

/-- A seek within the joined stream. -/
def SpanReader.seek (r : SpanReader) (target : SeekFrom) : Except IoError ℕ × SpanReader :=
  let next := target.target r.total r.position
  if 0 ≤ next ∧ next ≤ r.total then (.ok next.toNat, { r with position := next.toNat })
  else (.error .invalidInput, r)

/-! ### The abstract stream -/

/-- The part of each file that belongs to the stream. -/
def payloads (readers : List (List UInt8)) : List (List UInt8) :=
  readers.mapIdx fun index file => file.drop (skipped index)

/-- The bytes of the stream. -/
def flatImage (readers : List (List UInt8)) : List UInt8 :=
  (payloads readers).flatten

/-- The primary file, and each continuation without its first 512 bytes. -/
theorem flatImage_cons (first : List UInt8) (spans : List (List UInt8)) :
    flatImage (first :: spans) = first ++ (spans.map (List.drop headerSize)).flatten := by
  have hspans : spans.mapIdx (fun index file => file.drop (skipped (index + 1))) =
      spans.map (List.drop headerSize) := by
    apply List.ext_getElem?
    intro n
    rw [List.getElem?_mapIdx, List.getElem?_map]
    rfl
  rw [flatImage, payloads, List.mapIdx_cons, hspans, List.flatten_cons]
  rfl

/-- A byte string that is read from a position on. -/
structure FlatStream where
  bytes : List UInt8
  position : ℕ
  deriving DecidableEq

/-- A read of the stream that one file would hold. -/
def FlatStream.read (f : FlatStream) (room : ℕ) : Except IoError (List UInt8) × FlatStream :=
  let bytes := (f.bytes.drop f.position).take room
  (.ok bytes, { f with position := f.position + bytes.length })

/-- A seek in the stream that one file would hold. -/
def FlatStream.seek (f : FlatStream) (target : SeekFrom) : Except IoError ℕ × FlatStream :=
  let next := target.target f.bytes.length f.position
  if 0 ≤ next ∧ next ≤ f.bytes.length then (.ok next.toNat, { f with position := next.toNat })
  else (.error .invalidInput, f)

/-- The reader has measured the first files. -/
structure Measured (readers : List (List UInt8)) (r : SpanReader) : Prop where
  starts : r.starts = offsets (payloads readers)
  lengths : r.lengths = (payloads readers).map List.length
  total : r.total = (flatImage readers).length

/-- The reader stands at the position of the stream. -/
structure SpanReader.Presents (r : SpanReader) (f : FlatStream) : Prop where
  bytes : f.bytes = flatImage r.readers
  position : f.position = r.position
  measured : Measured r.readers r
  inside : r.position ≤ r.total

/-! ### A new reader -/

theorem payloads_append_singleton (readers : List (List UInt8)) (file : List UInt8) :
    payloads (readers ++ [file]) =
      payloads readers ++ [file.drop (skipped readers.length)] := by
  rw [payloads, List.mapIdx_append]
  simp [payloads]

/-- Measuring a file more. -/
theorem measured_measure {primary file : List UInt8} {done : List (List UInt8)} {r s : SpanReader}
    (hr : Measured done r) (h : r.measure primary file = .ok s) :
    Measured (done ++ [file]) s ∧ s.readers = r.readers ∧ s.position = r.position := by
  simp only [SpanReader.measure, check_eq_ok_iff, bind_unit_eq_ok_iff, pure_eq_ok_iff] at h
  obtain ⟨-, -, -, rfl⟩ := h
  have hindex : r.lengths.length = done.length := by
    rw [hr.lengths, List.length_map, payloads, List.length_mapIdx]
  refine ⟨⟨?_, ?_, ?_⟩, rfl, rfl⟩
  · rw [payloads_append_singleton, offsets_append_singleton, ← hr.starts, hr.total]
    rfl
  · rw [payloads_append_singleton, List.map_append, ← hr.lengths, hindex]
    simp
  · rw [flatImage, payloads_append_singleton, List.flatten_append, List.length_append, hindex,
      hr.total, List.flatten_singleton, List.length_drop]
    rfl

theorem measured_foldlM {primary : List UInt8} {done files : List (List UInt8)} {r s : SpanReader}
    (hr : Measured done r) (h : files.foldlM (SpanReader.measure primary) r = .ok s) :
    Measured (done ++ files) s ∧ s.readers = r.readers ∧ s.position = r.position := by
  induction files generalizing done r with
  | nil =>
    obtain rfl := pure_eq_ok_iff.1 h
    exact ⟨by rwa [List.append_nil], rfl, rfl⟩
  | cons file files ih =>
    rw [List.foldlM_cons] at h
    obtain ⟨u, hu, h⟩ := bind_eq_ok_iff.1 h
    obtain ⟨hmeasured, hreaders, hposition⟩ := measured_measure hr hu
    obtain ⟨hall, hreaders', hposition'⟩ := ih hmeasured h
    rw [List.append_assoc] at hall
    exact ⟨hall, hreaders'.trans hreaders, hposition'.trans hposition⟩

/-- A new reader stands at the beginning of the stream. -/
theorem presents_new {readers : List (List UInt8)} {r : SpanReader}
    (h : SpanReader.new readers = .ok r) :
    r.readers = readers ∧ r.Presents { bytes := flatImage readers, position := 0 } := by
  cases readers with
  | nil => cases h
  | cons first spans =>
    simp only [SpanReader.new, check_eq_ok_iff, bind_eq_ok_iff] at h
    obtain ⟨header, -, -, h⟩ := h
    obtain ⟨hmeasured, hreaders, hposition⟩ :=
      measured_foldlM (show Measured [] _ from ⟨rfl, rfl, rfl⟩) h
    refine ⟨hreaders, ?_, hposition.symm, ?_, ?_⟩
    · rw [hreaders]
    · rw [hreaders]
      exact hmeasured
    · rw [hposition]
      exact Nat.zero_le _

/-- Every measured file has a header, and the total is a `u64`. -/
theorem headers_of_foldlM {primary : List UInt8} {files : List (List UInt8)} {r s : SpanReader}
    (hr : r.total < 2 ^ 64) (h : files.foldlM (SpanReader.measure primary) r = .ok s) :
    (∀ file ∈ files, headerSize ≤ file.length) ∧ s.total < 2 ^ 64 := by
  induction files generalizing r with
  | nil =>
    obtain rfl := pure_eq_ok_iff.1 h
    exact ⟨by simp, hr⟩
  | cons file files ih =>
    rw [List.foldlM_cons] at h
    obtain ⟨u, hu, h⟩ := bind_eq_ok_iff.1 h
    simp only [SpanReader.measure, check_eq_ok_iff, bind_unit_eq_ok_iff, pure_eq_ok_iff] at hu
    obtain ⟨hheader, -, htotal, rfl⟩ := hu
    obtain ⟨hheaders, hlt⟩ := ih (Nat.lt_of_not_le htotal) h
    exact ⟨List.forall_mem_cons.2 ⟨Nat.le_of_not_lt hheader, hheaders⟩, hlt⟩

/-- The length of the files without the headers of the continuations. -/
private theorem length_drop_headers {spans : List (List UInt8)}
    (h : ∀ span ∈ spans, headerSize ≤ span.length) :
    (spans.map (List.drop headerSize)).flatten.length + headerSize * spans.length =
      spans.flatten.length := by
  induction spans with
  | nil => rfl
  | cons span spans ih =>
    obtain ⟨hspan, hspans⟩ := List.forall_mem_cons.1 h
    have ih := ih hspans
    simp only [List.map_cons, List.flatten_cons, List.length_append, List.length_drop,
      List.length_cons]
    rw [Nat.mul_succ]
    omega

/-- The stream is shorter than its files by one header for each continuation. -/
theorem total_of_new {primary : List UInt8} {spans : List (List UInt8)} {r : SpanReader}
    (h : SpanReader.new (primary :: spans) = .ok r) :
    r.total + headerSize * spans.length = (primary :: spans).flatten.length ∧ r.total < 2 ^ 64 := by
  obtain ⟨hreaders, hpresents⟩ := presents_new h
  have htotal := hpresents.measured.total
  rw [hreaders, flatImage_cons, List.length_append] at htotal
  simp only [SpanReader.new, check_eq_ok_iff, bind_eq_ok_iff] at h
  obtain ⟨header, -, -, h⟩ := h
  obtain ⟨hheaders, hlt⟩ := headers_of_foldlM (Nat.two_pow_pos 64) h
  have hspans := length_drop_headers (List.forall_mem_cons.1 hheaders).2
  rw [List.flatten_cons, List.length_append]
  exact ⟨by omega, hlt⟩

/-! ### Calls -/

/-- A read that fits can be made in two parts. -/
theorem FlatStream.read_split {f : FlatStream} {count room : ℕ} (hle : count ≤ room)
    (hlength : ((f.bytes.drop f.position).take count).length = count) :
    f.read room =
      (((FlatStream.mk f.bytes (f.position + count)).read (room - count)).1.map
          ((f.bytes.drop f.position).take count ++ ·),
        ((FlatStream.mk f.bytes (f.position + count)).read (room - count)).2) := by
  obtain ⟨rest, rfl⟩ := Nat.exists_eq_add_of_le hle
  simp only [FlatStream.read, Nat.add_sub_cancel_left, ← List.drop_drop, List.take_add,
    List.length_append, hlength, Except.map, Nat.add_assoc]

variable (short : ℕ → ℕ) {r : SpanReader} {f : FlatStream} {room : ℕ}

/-- One read of a file returns bytes of the stream from the position on, at least one. -/
theorem SpanReader.Presents.chunk (h : r.Presents f) (hroom : 0 < room)
    (hposition : r.position < r.total) :
    ∃ count, 0 < count ∧ count ≤ room ∧ (r.chunk short room).length = count ∧
      r.chunk short room = (f.bytes.drop f.position).take count ∧ r.position + count ≤ r.total := by
  obtain ⟨k, hk⟩ : ∃ k, lastStart r.starts r.position = k := ⟨_, rfl⟩
  have hflat : r.position < (payloads r.readers).flatten.length := h.measured.total ▸ hposition
  obtain ⟨hlt, hle, hend⟩ := locate (h.measured.starts ▸ hk) hflat
  obtain ⟨relative, hrelative⟩ := Nat.exists_eq_add_of_le hle
  have hfile : k < r.readers.length := by
    rwa [payloads, List.length_mapIdx] at hlt
  have hpayload : (payloads r.readers)[k] = r.readers[k].drop (skipped k) := by
    simp only [payloads, List.getElem_mapIdx]
  have hstart : r.starts.getD k 0 = ((payloads r.readers).take k).flatten.length := by
    rw [h.measured.starts, List.getD_eq_getElem?_getD, getElem?_offsets hlt, Option.getD_some]
  have hlength : r.lengths.getD k 0 = (payloads r.readers)[k].length := by
    rw [h.measured.lengths, List.getD_eq_getElem?_getD, List.getElem?_map,
      List.getElem?_eq_getElem hlt, Option.map_some, Option.getD_some]
  have hreader : (r.readers.getD k []).drop (skipped k + relative) =
      (payloads r.readers)[k].drop relative := by
    rw [List.getD_eq_getElem?_getD, List.getElem?_eq_getElem hfile, Option.getD_some, hpayload,
      List.drop_drop]
  have hdrop := drop_flatten hlt (show relative ≤ (payloads r.readers)[k].length by omega)
  rw [← hrelative] at hdrop
  have hbytes : r.chunk short room = ((payloads r.readers)[k].drop relative).take
      (min (min ((payloads r.readers)[k].length - relative) room) (max 1 (short r.reads))) := by
    rw [SpanReader.chunk, hk, hstart, hlength, readAt, show r.position -
      ((payloads r.readers).take k).flatten.length = relative by omega, hreader]
  obtain ⟨count, hcount⟩ : ∃ count, min (min ((payloads r.readers)[k].length - relative) room)
    (max 1 (short r.reads)) = count := ⟨_, rfl⟩
  rw [hcount] at hbytes
  have hdropLength : ((payloads r.readers)[k].drop relative).length =
      (payloads r.readers)[k].length - relative := List.length_drop
  have hbehind := congrArg List.length hdrop
  rw [List.length_drop, List.length_append, hdropLength] at hbehind
  have htotal : r.total = (payloads r.readers).flatten.length := h.measured.total
  refine ⟨count, by omega, by omega, ?_, ?_, by omega⟩
  · rw [hbytes, List.length_take]
    omega
  · rw [hbytes, h.bytes, h.position, flatImage, hdrop, List.take_append_of_le_length (by omega)]

/-- Bytes that are returned move the stream and the reader alike. -/
theorem SpanReader.Presents.advance {count : ℕ} (h : r.Presents f)
    (hinside : r.position + count ≤ r.total) :
    (r.advance count).Presents { f with position := f.position + count } where
  bytes := h.bytes
  position := congrArg (· + count) h.position
  measured := ⟨h.measured.starts, h.measured.lengths, h.measured.total⟩
  inside := hinside

/-- However short the reads of the files are, a read returns all the bytes that fit. -/
theorem SpanReader.Presents.read (h : r.Presents f) :
    (r.read short room).1 = (f.read room).1 ∧ (r.read short room).2.Presents (f.read room).2 ∧
      (r.read short room).2.readers = r.readers := by
  fun_induction SpanReader.read short r room generalizing f with
  | case1 r room hroom bytes =>
    have hzero : bytes.length = 0 := by assumption
    obtain ⟨count, hpos, -, hlength, -⟩ := h.chunk short hroom.1 hroom.2
    have hcount : bytes.length = count := hlength
    omega
  | case2 r room hroom bytes _ rest s hrest =>
    rename_i ih
    obtain ⟨count, hpos, hle, hlength, hchunk, hinside⟩ := h.chunk short hroom.1 hroom.2
    have hcount : bytes.length = count := hlength
    have hbytes : bytes = (f.bytes.drop f.position).take count := hchunk
    rw [hcount] at hrest ih
    obtain ⟨hanswer, hpresents, hreaders⟩ := ih (h.advance hinside)
    rw [hrest] at hanswer hpresents hreaders
    rw [FlatStream.read_split hle (hbytes ▸ hcount), hbytes]
    exact ⟨congrArg (Except.map _) hanswer, hpresents, hreaders⟩
  | case3 r room hroom =>
    have hnone : (f.bytes.drop f.position).take room = [] := by
      rcases Nat.eq_zero_or_pos room with rfl | hpos
      · rw [List.take_zero]
      · have hend : f.bytes.length ≤ f.position := by
          rw [h.bytes, ← h.measured.total, h.position]
          exact Nat.le_of_not_lt fun hlt => hroom ⟨hpos, hlt⟩
        rw [List.drop_of_length_le hend, List.take_nil]
    rw [FlatStream.read, hnone]
    exact ⟨rfl, h, rfl⟩

/-- A seek names the same position for both, and moves there when it lies in the stream. -/
theorem SpanReader.Presents.seek (h : r.Presents f) (target : SeekFrom) :
    (r.seek target).1 = (f.seek target).1 ∧ (r.seek target).2.Presents (f.seek target).2 ∧
      (r.seek target).2.readers = r.readers := by
  have htotal : r.total = f.bytes.length := by
    rw [h.bytes, h.measured.total]
  simp only [SpanReader.seek, FlatStream.seek, ← htotal, h.position]
  split_ifs with hinside
  · refine ⟨rfl, ⟨h.bytes, rfl, ⟨h.measured.starts, h.measured.lengths, h.measured.total⟩, ?_⟩, rfl⟩
    show (SeekFrom.target r.total r.position target).toNat ≤ r.total
    omega
  · exact ⟨rfl, h, rfl⟩

/-! ### Sequences of calls -/

/-- A call on a stream. -/
inductive StreamCall
  | read (room : ℕ)
  | seek (target : SeekFrom)

/-- What a call answers: the bytes of a read, or the position of a seek. -/
inductive StreamAnswer
  | bytes (result : Except IoError (List UInt8))
  | position (result : Except IoError ℕ)

/-- A call on the files of a split image. -/
def SpanReader.call (short : ℕ → ℕ) (r : SpanReader) : StreamCall → StreamAnswer × SpanReader
  | .read room => (.bytes (r.read short room).1, (r.read short room).2)
  | .seek target => (.position (r.seek target).1, (r.seek target).2)

/-- A call on the stream that one file would hold. -/
def FlatStream.call (f : FlatStream) : StreamCall → StreamAnswer × FlatStream
  | .read room => (.bytes (f.read room).1, (f.read room).2)
  | .seek target => (.position (f.seek target).1, (f.seek target).2)

/-- The answers to a sequence of calls, and the reader behind them. -/
def SpanReader.run (short : ℕ → ℕ) (r : SpanReader) :
    List StreamCall → List StreamAnswer × SpanReader
  | [] => ([], r)
  | call :: calls =>
    let (answer, s) := r.call short call
    let (answers, t) := SpanReader.run short s calls
    (answer :: answers, t)

/-- Calls on the stream that one file would hold, one after another. -/
def FlatStream.run (f : FlatStream) : List StreamCall → List StreamAnswer × FlatStream
  | [] => ([], f)
  | call :: calls =>
    let (answer, g) := f.call call
    let (answers, t) := FlatStream.run g calls
    (answer :: answers, t)

theorem SpanReader.Presents.call (h : r.Presents f) (call : StreamCall) :
    (r.call short call).1 = (f.call call).1 ∧ (r.call short call).2.Presents (f.call call).2 := by
  cases call with
  | read room =>
    obtain ⟨hanswer, hpresents, -⟩ := h.read short
    exact ⟨congrArg _ hanswer, hpresents⟩
  | seek target =>
    obtain ⟨hanswer, hpresents, -⟩ := h.seek target
    exact ⟨congrArg _ hanswer, hpresents⟩

/-- The reader and the stream give the same answers to every sequence of calls. -/
theorem SpanReader.Presents.run (h : r.Presents f) (calls : List StreamCall) :
    (r.run short calls).1 = (f.run calls).1 ∧ (r.run short calls).2.Presents (f.run calls).2 := by
  induction calls generalizing r f with
  | nil => exact ⟨rfl, h⟩
  | cons call calls ih =>
    obtain ⟨hanswer, hpresents⟩ := h.call short call
    obtain ⟨hanswers, hpresents'⟩ := ih hpresents
    exact ⟨congrArg₂ List.cons hanswer hanswers, hpresents'⟩

theorem FlatStream.bytes_run (f : FlatStream) (calls : List StreamCall) :
    (f.run calls).2.bytes = f.bytes := by
  induction calls generalizing f with
  | nil => rfl
  | cons call calls ih =>
    refine (ih _).trans ?_
    cases call with
    | read room => rfl
    | seek target =>
      simp only [FlatStream.seek]
      split_ifs <;> rfl

/-- At its position, a reader treats a byte string as a file with these bytes would be treated. -/
structure SpanReader.Reads (short : ℕ → ℕ) (flat : List UInt8) (r : SpanReader) : Prop where
  inside : r.position ≤ flat.length
  read : ∀ room, ∃ bytes s, r.read short room = (.ok bytes, s) ∧
    bytes = (flat.drop r.position).take room ∧ s.position = r.position + bytes.length ∧
    (bytes = [] ↔ room = 0 ∨ r.position = flat.length)
  seek : ∀ target : SeekFrom, ∀ next, target.target flat.length r.position = next →
    (0 ≤ next ∧ next ≤ flat.length →
      ∃ s, r.seek target = (.ok next.toNat, s) ∧ (s.position : ℤ) = next) ∧
    (¬ (0 ≤ next ∧ next ≤ flat.length) → r.seek target = (.error .invalidInput, r))

/-- A reader that stands at a position of a stream reads its bytes. -/
theorem SpanReader.Presents.reads (h : r.Presents f) : r.Reads short f.bytes := by
  have htotal : r.total = f.bytes.length := by
    rw [h.bytes, h.measured.total]
  refine ⟨htotal ▸ h.inside, fun room => ?_, fun target next hnext => ⟨?_, ?_⟩⟩
  · obtain ⟨hanswer, hpresents, -⟩ := @SpanReader.Presents.read short r f room h
    refine ⟨_, _, Prod.ext hanswer rfl, by rw [h.position], ?_, ?_⟩
    · rw [← hpresents.position]
      show f.position + ((f.bytes.drop f.position).take room).length = _
      rw [h.position]
    · have hinside := h.inside
      rw [h.position, List.take_eq_nil_iff, List.drop_eq_nil_iff]
      omega
  · intro hinside
    subst hnext
    rw [← htotal] at hinside ⊢
    rw [SpanReader.seek, if_pos hinside]
    exact ⟨_, rfl, Int.toNat_of_nonneg hinside.1⟩
  · intro houtside
    subst hnext
    rw [← htotal] at houtside
    rw [SpanReader.seek, if_neg houtside]

end EasyDeployMesh.Gho
