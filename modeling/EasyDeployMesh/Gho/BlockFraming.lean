import EasyDeployMesh.Gho.Decode

/-!
# Blocks that look like records

An uncompressed container with one partition: its blocks stand behind their stored lengths, and a
record of kind `0x23` ends the data. The end of the data is not stored; `find_record` searches the
data for the first record header, and the two bytes of a stored length can be the kind of a header
whose magic stands in the block. Such a header ends the partition in front of the block, without an
error.

## Main definitions

* `EasyDeployMesh.Gho.frame`, `EasyDeployMesh.Gho.image`: the container.
* `EasyDeployMesh.Gho.InStoredLength`, `EasyDeployMesh.Gho.EndsInStoredLength`: the first record
  header begins in a stored length.
* `EasyDeployMesh.Gho.DecodesExactly`: decoding writes the blocks, or reports an error.

## Main results

* `EasyDeployMesh.Gho.blockStep_frame`: one block is written.
* `EasyDeployMesh.Gho.decodeSpan_frames`, `EasyDeployMesh.Gho.decodeSpan_of_inStoredLength`: the
  blocks up to the end of a span.
* `EasyDeployMesh.Gho.parse_image_eq_ok_iff`: the spans of the container.
* `EasyDeployMesh.Gho.decodesExactly_iff_not_endsInStoredLength`: no byte is lost when the first
  record header does not begin in a stored length.
-/

namespace EasyDeployMesh.Gho

open Foundations

/-! ### The container -/

/-- A block behind its stored length. -/
def frame (block : List UInt8) : List UInt8 :=
  writeLE 2 (block.length + 2) ++ block

/-- A record header, as a container stores it. -/
def recordBytes (kind bodyLen : ℕ) : List UInt8 :=
  writeLE 4 kind ++ (writeLE 4 recordMagic ++ writeLE 2 bodyLen)

/-- The data of the partition, and the record behind them. -/
def blockData (blocks : List (List UInt8)) : List UInt8 :=
  blocks.flatMap frame ++ recordBytes 0x0023 0

/-- The container up to the data: its header, the partition record, and the header of the
partition. -/
def imageHead (compression : UInt8) : List UInt8 :=
  ([0xfe, 0xef, 1, compression] ++ List.replicate 508 0) ++
    (recordBytes 0x0603 20 ++ (List.replicate 20 0 ++ ([0xfe, 0xef] ++ List.replicate 510 0)))

/-- A container with one partition. -/
def image (compression : UInt8) (blocks : List (List UInt8)) : List UInt8 :=
  imageHead compression ++ blockData blocks

/-- Where the data of the partition begin. -/
def dataStart : ℕ := 1054

/-- The byte `i` of the data is one of the two bytes of a stored length. -/
def InStoredLength : List (List UInt8) → ℕ → Prop
  | [], _ => False
  | block :: blocks, i =>
    i < 2 ∨ (frame block).length ≤ i ∧ InStoredLength blocks (i - (frame block).length)

instance decidableInStoredLength : (blocks : List (List UInt8)) → (i : ℕ) →
    Decidable (InStoredLength blocks i)
  | [], _ => .isFalse id
  | block :: blocks, i =>
    have := decidableInStoredLength blocks (i - (frame block).length)
    inferInstanceAs (Decidable (_ ∨ _ ∧ _))

/-- The first place of the data at which a record header is found. -/
def firstHeader (blocks : List (List UInt8)) : Option (ℕ × RecordHeader) :=
  findSuffix recordAt (blockData blocks)

/-- The search for the end of the data stops in a stored length. -/
def EndsInStoredLength (blocks : List (List UInt8)) : Prop :=
  ∃ r ∈ firstHeader blocks, InStoredLength blocks r.1

/-- Decoding writes the bytes of the blocks and answers their number, or reports an error. -/
def DecodesExactly (inflate : List UInt8 → Option (List UInt8)) (blocks : List (List UInt8))
    (limit : ℕ) : Prop :=
  ∀ info n, (decodePartition inflate (image 0 blocks) 1 limit).1 = .ok (info, n) →
    (decodePartition inflate (image 0 blocks) 1 limit).2 = blocks.flatten ∧
      n = blocks.flatten.length

@[simp] theorem length_frame (block : List UInt8) : (frame block).length = block.length + 2 := by
  rw [frame, List.length_append, length_writeLE, Nat.add_comm]

/-! ### The blocks of a span -/

variable {inflate : List UInt8 → Option (List UInt8)} {file rest block : List UInt8}
  {blocks : List (List UInt8)} {limit stop offset i : ℕ} {p q : Progress}

/-- A block more. -/
def Progress.push (p : Progress) (block : List UInt8) : Progress where
  total := p.total + block.length
  expanded := block ++ p.expanded.drop block.length
  written := p.written ++ block

private theorem readExact_of_drop {bytes : List UInt8} (h : file.drop offset = bytes ++ rest) :
    readExact file offset bytes.length = .ok bytes :=
  readExact_eq_ok_iff.2 ⟨by rw [h, List.take_left], rfl⟩

private theorem readExact_frame (h : file.drop offset = frame block ++ rest)
    (hlength : block.length ≤ 33000) :
    readExact file offset 2 = .ok (writeLE 2 (block.length + 2)) ∧
      readLE (writeLE 2 (block.length + 2)) = block.length + 2 ∧
      readExact file (offset + 2) block.length = .ok block := by
  rw [frame, List.append_assoc] at h
  have htwo := readExact_of_drop h
  rw [length_writeLE] at htwo
  have hdata : file.drop (offset + 2) = block ++ rest := by
    rw [← List.drop_drop, h, List.drop_left' (length_writeLE _ _)]
  have hfits : block.length + 2 < 256 ^ 2 := by
    omega
  exact ⟨htwo, readLE_writeLE hfits, readExact_of_drop hdata⟩

/-- A block that lies in its span is written. -/
theorem blockStep_frame (h : file.drop offset = frame block ++ rest)
    (hblock : 1 ≤ block.length ∧ block.length ≤ 33000)
    (hstop : offset + (frame block).length ≤ stop) (hfits : stop < 2 ^ 64)
    (hexpanded : p.expanded.length = expandedLen) (htotal : p.total + block.length < 2 ^ 64)
    (hlimit : p.total + block.length ≤ limit) :
    blockStep inflate file .none limit stop offset p =
      .ok (some (offset + (frame block).length, p.push block)) := by
  obtain ⟨hlength, hread, hdata⟩ := readExact_frame h hblock.2
  rw [length_frame] at hstop ⊢
  have hsize : expandedLen = 33792 := by decide
  have hroom : ¬ p.expanded.length < block.length := by
    omega
  refine blockStep_eq_some_iff.2 ⟨by omega, by omega, _, hlength, by omega, ?_⟩
  rw [hread]
  refine storedStep_eq_ok_iff.2 ⟨block, block.length, block ++ p.expanded.drop block.length, rfl,
    by omega, ?_, by omega, by omega, hdata, ?_, htotal, hlimit, ?_⟩
  · show block.length + 2 ≤ 33002
    omega
  · rw [decodeBlock, if_neg hroom]
  · rw [Progress.push, List.take_left]

/-- A block that reaches over the end of its span is an error. -/
theorem blockStep_cut (h : file.drop offset = frame block ++ rest)
    (hblock : 1 ≤ block.length ∧ block.length ≤ 33000) (hstart : offset + 2 ≤ stop)
    (hstop : stop < offset + (frame block).length) (hfits : stop < 2 ^ 64) :
    ∃ reason, blockStep inflate file .none limit stop offset p = .error reason := by
  obtain ⟨hlength, hread, hdata⟩ := readExact_frame h hblock.2
  rw [length_frame] at hstop
  cases hstep : blockStep inflate file .none limit stop offset p with
  | error reason => exact ⟨reason, rfl⟩
  | ok result =>
    exfalso
    cases result with
    | none =>
      unfold blockStep at hstep
      rw [if_pos ⟨by omega, hstart⟩, hlength] at hstep
      obtain ⟨length, heq, hstep⟩ := bind_eq_ok_iff.1 hstep
      obtain rfl := Except.ok.inj (mapError_eq_ok_iff.1 heq)
      rw [hread, if_neg (by omega)] at hstep
      obtain ⟨r, -, hr⟩ := bind_eq_ok_iff.1 hstep
      cases hr
    | some r =>
      obtain ⟨-, -, length, heq, -, hstored⟩ := blockStep_eq_some_iff.1 hstep
      obtain rfl := Except.ok.inj (hlength.symm.trans heq)
      obtain ⟨data, count, expanded, hnext, -, -, -, hle, -⟩ := storedStep_eq_ok_iff.1 hstored
      omega

/-- The loop stops where no stored length fits in the span. -/
theorem decodeSpan_end (h : stop < offset + 2) :
    decodeSpan inflate file .none limit stop offset p = (.ok (), p) := by
  have hstep : blockStep inflate file .none limit stop offset p = .ok none := by
    rw [blockStep, if_neg (by omega)]
    rfl
  rw [decodeSpan_eq, hstep]

private theorem drop_frame (h : file.drop offset = (block :: blocks).flatMap frame ++ rest) :
    file.drop offset = frame block ++ (blocks.flatMap frame ++ rest) ∧
      file.drop (offset + (frame block).length) = blocks.flatMap frame ++ rest := by
  rw [List.flatMap_cons, List.append_assoc] at h
  exact ⟨h, by rw [← List.drop_drop, h, List.drop_left]⟩

private theorem length_expanded_push (hexpanded : p.expanded.length = expandedLen)
    (hblock : block.length ≤ 33000) : (p.push block).expanded.length = expandedLen := by
  have hsize : expandedLen = 33792 := by decide
  rw [Progress.push, List.length_append, List.length_drop, hexpanded]
  omega

/-- One block of a span, and the rest of it. -/
private theorem decodeSpan_cons (h : file.drop offset = frame block ++ rest)
    (hblock : 1 ≤ block.length ∧ block.length ≤ 33000) (hi : (frame block).length ≤ i)
    (hfits : offset + i < 2 ^ 64) (hexpanded : p.expanded.length = expandedLen)
    (htotal : p.total + block.length < 2 ^ 64) (hlimit : p.total + block.length ≤ limit) :
    decodeSpan inflate file .none limit (offset + i) offset p =
      decodeSpan inflate file .none limit
        (offset + (frame block).length + (i - (frame block).length))
        (offset + (frame block).length) (p.push block) := by
  have hstop : offset + (frame block).length + (i - (frame block).length) = offset + i := by
    omega
  rw [decodeSpan_eq, hstop,
    blockStep_frame h hblock (by omega) hfits hexpanded htotal hlimit]

/-- A span that does not end in a stored length ends with the blocks, and all of them are written,
or it ends inside a block, and decoding it is an error. -/
theorem decodeSpan_frames (h : file.drop offset = blocks.flatMap frame ++ rest)
    (hblocks : ∀ block ∈ blocks, 1 ≤ block.length ∧ block.length ≤ 33000)
    (hi : i ≤ (blocks.flatMap frame).length) (hclean : ¬ InStoredLength blocks i)
    (hfits : offset + i < 2 ^ 64) (hexpanded : p.expanded.length = expandedLen)
    (htotal : p.total + blocks.flatten.length < 2 ^ 64)
    (hlimit : p.total + blocks.flatten.length ≤ limit) :
    (∃ reason q, decodeSpan inflate file .none limit (offset + i) offset p = (.error reason, q)) ∨
      i = (blocks.flatMap frame).length ∧
        ∃ q, decodeSpan inflate file .none limit (offset + i) offset p = (.ok (), q) ∧
          q.total = p.total + blocks.flatten.length ∧ q.written = p.written ++ blocks.flatten := by
  induction blocks generalizing offset i p with
  | nil =>
    obtain rfl : i = 0 := Nat.le_zero.1 hi
    exact .inr ⟨rfl, p, decodeSpan_end (by omega), rfl, (List.append_nil _).symm⟩
  | cons block blocks ih =>
    obtain ⟨hfirst, hrest⟩ := drop_frame h
    have hblock := hblocks block List.mem_cons_self
    simp only [InStoredLength, not_or, not_and] at hclean
    obtain ⟨htwo, hclean⟩ := hclean
    rw [List.flatten_cons, List.length_append] at htotal hlimit
    rw [List.flatMap_cons, List.length_append] at hi
    by_cases hcut : i < (frame block).length
    · obtain ⟨reason, hstep⟩ : ∃ reason,
          blockStep inflate file .none limit (offset + i) offset p = .error reason :=
        blockStep_cut hfirst hblock (by omega) (by omega) hfits
      exact .inl ⟨reason, p, by rw [decodeSpan_eq, hstep]⟩
    · have hle : (frame block).length ≤ i := Nat.le_of_not_lt hcut
      have hpush : (p.push block).total = p.total + block.length := rfl
      rw [decodeSpan_cons hfirst hblock hle hfits hexpanded (by omega) (by omega)]
      rcases ih hrest (fun b hb => hblocks b (List.mem_cons_of_mem _ hb)) (by omega) (hclean hle)
        (by omega) (length_expanded_push hexpanded hblock.2) (by omega) (by omega) with
        herror | ⟨hend, q, hq, htotal', hwritten⟩
      · exact .inl herror
      · refine .inr ⟨?_, q, hq, ?_, ?_⟩
        · rw [List.flatMap_cons, List.length_append]
          omega
        · rw [htotal', hpush, List.flatten_cons, List.length_append, Nat.add_assoc]
        · rw [hwritten, Progress.push, List.flatten_cons, List.append_assoc]

/-- A span that ends in a stored length loses that block and all behind it, and no error is
reported. -/
theorem decodeSpan_of_inStoredLength (h : file.drop offset = blocks.flatMap frame ++ rest)
    (hblocks : ∀ block ∈ blocks, 1 ≤ block.length ∧ block.length ≤ 33000)
    (hstored : InStoredLength blocks i) (hfits : offset + i < 2 ^ 64)
    (hexpanded : p.expanded.length = expandedLen)
    (htotal : p.total + blocks.flatten.length < 2 ^ 64)
    (hlimit : p.total + blocks.flatten.length ≤ limit) :
    ∃ q, decodeSpan inflate file .none limit (offset + i) offset p = (.ok (), q) ∧
      q.total < p.total + blocks.flatten.length := by
  induction blocks generalizing offset i p with
  | nil => exact hstored.elim
  | cons block blocks ih =>
    obtain ⟨hfirst, hrest⟩ := drop_frame h
    have hblock := hblocks block List.mem_cons_self
    rw [List.flatten_cons, List.length_append] at htotal hlimit ⊢
    rcases hstored with htwo | ⟨hle, hstored⟩
    · exact ⟨p, decodeSpan_end (by omega), by omega⟩
    · have hpush : (p.push block).total = p.total + block.length := rfl
      rw [decodeSpan_cons hfirst hblock hle hfits hexpanded (by omega) (by omega)]
      obtain ⟨q, hq, hlt⟩ := ih hrest (fun b hb => hblocks b (List.mem_cons_of_mem _ hb)) hstored
        (by omega) (length_expanded_push hexpanded hblock.2) (by omega) (by omega)
      exact ⟨q, hq, by omega⟩

/-! ### Parsing the container -/

theorem length_imageHead (compression : UInt8) : (imageHead compression).length = dataStart := by
  simp only [imageHead, recordBytes, List.length_append, List.length_replicate, length_writeLE,
    List.length_cons, List.length_nil, dataStart]

theorem drop_image (compression : UInt8) (blocks : List (List UInt8)) :
    (image compression blocks).drop dataStart = blockData blocks := by
  rw [image, List.drop_left' (length_imageHead compression)]

private theorem recordAt_partition (rest : List UInt8) :
    recordAt (recordBytes 0x0603 20 ++ rest) = some { kind := 0x0603, bodyLen := 20 } :=
  rfl

private theorem recordAt_end (rest : List UInt8) :
    recordAt (recordBytes 0x0023 0 ++ rest) = some { kind := 0x0023, bodyLen := 0 } :=
  rfl

/-- The container behind its header. -/
private theorem drop_headerSize (compression : UInt8) (blocks : List (List UInt8)) :
    ∃ rest, (image compression blocks).drop headerSize = recordBytes 0x0603 20 ++ rest := by
  refine ⟨List.replicate 20 0 ++ ([0xfe, 0xef] ++ List.replicate 510 0) ++ blockData blocks, ?_⟩
  have hlength : ([0xfe, 0xef, 1, compression] ++ List.replicate 508 0).length = headerSize := by
    simp only [List.length_append, List.length_replicate, List.length_cons, List.length_nil,
      headerSize]
  rw [image, imageHead, List.append_assoc, List.drop_left' hlength, List.append_assoc]

/-- Some header is found in the data: the record behind the blocks, or one in front of it. -/
theorem exists_firstHeader (blocks : List (List UInt8)) : ∃ i record,
    firstHeader blocks = some (i, record) ∧ i ≤ (blocks.flatMap frame).length ∧
      (i = (blocks.flatMap frame).length → record = { kind := 0x0023, bodyLen := 0 }) := by
  have hend : recordAt ((blockData blocks).drop (blocks.flatMap frame).length) =
      some { kind := 0x0023, bodyLen := 0 } := by
    rw [blockData, List.drop_left]
    exact recordAt_end []
  cases hfound : firstHeader blocks with
  | none =>
    have hlt : (blocks.flatMap frame).length < (blockData blocks).length := by
      rw [blockData, List.length_append]
      exact Nat.lt_add_of_pos_right (by decide)
    rw [findSuffix_eq_none_iff.1 hfound _ hlt] at hend
    cases hend
  | some r =>
    obtain ⟨i, record⟩ := r
    obtain ⟨-, hrecord, hfirst⟩ := findSuffix_eq_some_iff.1 hfound
    refine ⟨i, record, rfl, ?_, ?_⟩
    · by_contra hlt
      rw [hfirst _ (Nat.lt_of_not_le hlt)] at hend
      cases hend
    · rintro rfl
      exact Option.some.inj (hrecord.symm.trans hend)

variable {compression : UInt8} {record : RecordHeader}

/-- The data of the partition end where the first header is found in them. -/
private theorem dataEnd_image (hfound : firstHeader blocks = some (i, record))
    (hlength : (image compression blocks).length < 2 ^ 64) :
    dataEnd (image compression blocks) dataStart = .ok (dataStart + i) := by
  have hrange : (image compression blocks).length - dataStart = (blockData blocks).length := by
    rw [image, List.length_append, length_imageHead, Nat.add_sub_cancel_left]
  rw [dataEnd, findRecord_eq (Nat.le_refl _) hlength, firstRecord, drop_image, hrange,
    List.take_length, show findSuffix recordAt (blockData blocks) = _ from hfound]
  rfl

private theorem firstRecord_image (compression : UInt8) (blocks : List (List UInt8)) :
    firstRecord (image compression blocks) headerSize (image compression blocks).length =
      some (headerSize, { kind := 0x0603, bodyLen := 20 }) := by
  obtain ⟨rest, hrest⟩ := drop_headerSize compression blocks
  refine (firstRecord_eq_some_iff (Nat.le_refl _)).2 ⟨Nat.le_refl _, ?_, ?_, fun j hj hlt => ?_⟩
  · rw [image, List.length_append, length_imageHead]
    exact Nat.le_trans (by decide) (Nat.le_add_right _ _)
  · rw [hrest]
    exact recordAt_partition rest
  · exact absurd hlt (Nat.not_lt_of_le hj)

/-- The header of the partition, behind its record. -/
private theorem readExact_partition (compression : UInt8) (blocks : List (List UInt8)) :
    readExact (image compression blocks) 542 2 = .ok [0xfe, 0xef] := by
  refine readExact_eq_ok_iff.2 ⟨?_, rfl⟩
  have hlength : ([0xfe, 0xef, 1, compression] ++ List.replicate 508 0 ++
      (recordBytes 0x0603 20 ++ List.replicate 20 0)).length = 542 := by
    simp only [recordBytes, List.length_append, List.length_replicate, length_writeLE,
      List.length_cons, List.length_nil]
  have hsplit : image compression blocks = [0xfe, 0xef, 1, compression] ++ List.replicate 508 0 ++
      (recordBytes 0x0603 20 ++ List.replicate 20 0) ++
        ([0xfe, 0xef] ++ (List.replicate 510 0 ++ blockData blocks)) := by
    simp only [image, imageHead, List.append_assoc]
  rw [hsplit, List.drop_left' hlength]
  rfl

/-- The first record of the container is the partition, with its first span. -/
private theorem recordStep_image (hfound : firstHeader blocks = some (i, record))
    (hlength : (image compression blocks).length < 2 ^ 64) :
    recordStep (image compression blocks) headerSize [] =
      .ok (some ([{ spans := [(dataStart, dataStart + i)] }], dataStart + i)) := by
  have hstart : dataStart ≤ (image compression blocks).length := by
    rw [image, List.length_append, length_imageHead]
    exact Nat.le_add_right _ _
  have hsize : dataStart = 1054 := rfl
  have hspan : partitionSpan (image compression blocks) 542 = .ok (dataStart, dataStart + i) := by
    simp only [partitionSpan, check_eq_ok_iff, bind_eq_ok_iff, pure_eq_ok_iff]
    exact ⟨by decide, Nat.not_lt_of_le hstart, _, readExact_partition _ _, by decide, _,
      dataEnd_image hfound hlength, rfl⟩
  refine bind_eq_ok_iff.2 ⟨_, findRecord_eq (Nat.le_refl _) hlength, ?_⟩
  rw [firstRecord_image]
  simp only [check_eq_ok_iff]
  refine ⟨by decide, ?_, ?_⟩
  · exact Nat.not_lt_of_le (Nat.le_trans (by decide) hstart)
  · rw [if_pos trivial]
    exact bind_eq_ok_iff.2 ⟨_, hspan, rfl⟩

/-- What the records behind the partition add. -/
private theorem parseRecords_image (hfound : firstHeader blocks = some (i, record))
    (hlength : (image compression blocks).length < 2 ^ 64) :
    parseRecords (image compression blocks) headerSize [] =
      parseRecords (image compression blocks) (dataStart + i)
        [{ spans := [(dataStart, dataStart + i)] }] := by
  have hsize : headerSize < (image compression blocks).length := by
    rw [image, List.length_append, length_imageHead]
    exact Nat.lt_of_lt_of_le (by decide) (Nat.le_add_right _ _)
  rw [parseRecords_eq hsize, recordStep_image hfound hlength]

/-- Nothing is parsed behind an end record. -/
private theorem parseRecords_end {partitions : List Partition} {bodyLen : ℕ}
    (hrecord : recordAt (file.drop offset) = some { kind := 0x0023, bodyLen })
    (hbody : offset + recordHeaderSize + bodyLen ≤ file.length) (hlength : file.length < 2 ^ 64) :
    parseRecords file offset partitions = .ok partitions := by
  have hsize : recordHeaderSize = 10 := rfl
  have hfirst : firstRecord file offset file.length = some (offset, { kind := 0x0023, bodyLen }) :=
    (firstRecord_eq_some_iff (Nat.le_refl _)).2 ⟨Nat.le_refl _, by omega, hrecord,
      fun j hj hlt => absurd hlt (Nat.not_lt_of_le hj)⟩
  have hstep : recordStep file offset partitions = .ok none := by
    refine bind_eq_ok_iff.2 ⟨_, findRecord_eq (Nat.le_refl _) hlength, ?_⟩
    rw [hfirst]
    simp only [check_eq_ok_iff]
    exact ⟨by omega, by omega, rfl⟩
  rw [parseRecords_eq (by omega), hstep]

/-- What a parse of the container answers. -/
theorem parse_image_eq_ok_iff {partitions : List Partition} {info : ImageInfo}
    (hfound : firstHeader blocks = some (i, record)) (hlength : (image 0 blocks).length < 2 ^ 64) :
    parse (image 0 blocks) = .ok (partitions, info) ↔
      parseRecords (image 0 blocks) (dataStart + i) [{ spans := [(dataStart, dataStart + i)] }] =
        .ok partitions ∧ partitions.length < 2 ^ 32 ∧ partitions.length ≠ 0 ∧
      info = {
        compression := .none
        partitionCount := partitions.length
        sourcePartition := 1
        encrypted := false
        spanned := false } := by
  have hheader : readExact (image 0 blocks) 0 headerSize =
      .ok ([0xfe, 0xef, 1, 0] ++ List.replicate 508 0) := by
    have hsize : ([0xfe, 0xef, 1, 0] ++ List.replicate 508 0 : List UInt8).length = headerSize := by
      simp only [List.length_append, List.length_replicate, List.length_cons, List.length_nil,
        headerSize]
    refine readExact_eq_ok_iff.2 ⟨?_, hsize⟩
    rw [List.drop_zero, image, imageHead, List.append_assoc, List.take_left' hsize]
  have hlarge : ¬ (image 0 blocks).length < headerSize := by
    rw [image, List.length_append, length_imageHead]
    exact Nat.not_lt_of_le (Nat.le_trans (by decide) (Nat.le_add_right _ _))
  simp only [parse, check_eq_ok_iff, bind_eq_ok_iff, pure_eq_ok_iff, Prod.mk.injEq, hheader,
    Except.ok.injEq, exists_eq_left', parseRecords_image hfound hlength]
  constructor
  · rintro ⟨-, -, -, -, compression, hcompression, result, hresult, hcount, hzero, rfl, rfl⟩
    rw [← Except.ok.inj (show Except.ok Compression.none = _ from hcompression)]
    exact ⟨hresult, Nat.lt_of_not_le hcount, hzero, rfl⟩
  · rintro ⟨hresult, hcount, hzero, rfl⟩
    exact ⟨hlarge, by decide, by decide, by decide, .none, rfl, _, hresult, Nat.not_le_of_lt hcount,
      hzero, rfl, rfl⟩

/-- The first partition of the container. -/
private theorem exists_partition {partitions : List Partition} {info : ImageInfo}
    (hfound : firstHeader blocks = some (i, record)) (hlength : (image 0 blocks).length < 2 ^ 64)
    (hparse : parse (image 0 blocks) = .ok (partitions, info)) :
    ∃ partition, partitions.head? = some partition ∧
      selectPartition partitions info 1 = .ok partition ∧ info.compression = .none ∧
      [(dataStart, dataStart + i)] <+: partition.spans ∧
      (i = (blocks.flatMap frame).length → partition.spans = [(dataStart, dataStart + i)]) := by
  obtain ⟨hrecords, -, hcount, rfl⟩ := (parse_image_eq_ok_iff hfound hlength).1 hparse
  obtain ⟨partition, hhead, hprefix⟩ := keepsFirst_parseRecords hrecords _ rfl
  refine ⟨partition, hhead, ?_, rfl, hprefix, fun hend => ?_⟩
  · cases partitions with
    | nil => exact absurd rfl hcount
    | cons first partitions =>
      obtain rfl : first = partition := Option.some.inj hhead
      rw [selectPartition, if_neg (by simp only [List.length_cons]; omega)]
      rfl
  · have hrecord : recordAt ((image 0 blocks).drop (dataStart + i)) =
        some { kind := 0x0023, bodyLen := 0 } := by
      rw [← List.drop_drop, drop_image, hend, blockData, List.drop_left]
      exact recordAt_end []
    have hle := hasWidth_recordAt.le_length hrecord
    rw [List.length_drop] at hle
    have hsize : recordHeaderSize = 10 := rfl
    rw [parseRecords_end hrecord (by omega) hlength] at hrecords
    rw [← Except.ok.inj hrecords] at hhead
    rw [← Option.some.inj hhead]

/-! ### Exactness -/

private theorem dataStart_add_lt (hi : i ≤ (blocks.flatMap frame).length)
    (hlength : (image 0 blocks).length < 2 ^ 64) : dataStart + i < 2 ^ 64 := by
  rw [image, blockData, List.length_append, List.length_append, length_imageHead] at hlength
  omega

private theorem length_flatten_le (blocks : List (List UInt8)) :
    dataStart + blocks.flatten.length ≤ (image 0 blocks).length := by
  have hle : blocks.flatten.length ≤ (blocks.flatMap frame).length := by
    induction blocks with
    | nil => exact Nat.le_refl _
    | cons block blocks ih =>
      rw [List.flatten_cons, List.flatMap_cons, List.length_append, List.length_append,
        length_frame]
      omega
  rw [image, blockData, List.length_append, List.length_append, length_imageHead]
  omega

section Exactness

variable (hblocks : ∀ block ∈ blocks, 1 ≤ block.length ∧ block.length ≤ 33000)
  (hlimit : blocks.flatten.length ≤ limit) (hlength : (image 0 blocks).length < 2 ^ 64)

include hblocks hlimit hlength

/-- No byte is lost when the first header does not begin in a stored length. -/
theorem decodesExactly_of_not_endsInStoredLength (hclean : ¬ EndsInStoredLength blocks) :
    DecodesExactly inflate blocks limit := by
  intro info n hok
  obtain ⟨i, record, hfound, hi, -⟩ := exists_firstHeader blocks
  obtain ⟨partitions, info', hparse⟩ := parse_of_decodePartition hok
  obtain ⟨partition, -, hselect, hcompression, ⟨spans, hspans⟩, hend⟩ :=
    exists_partition hfound hlength hparse
  have htotal := length_flatten_le blocks
  have hstart : Progress.start.total = 0 := rfl
  have hnot : ¬ InStoredLength blocks i := fun hin => hclean ⟨_, hfound, hin⟩
  rw [decodePartition_of_parse hparse hselect, hcompression] at hok ⊢
  have hspan : (∃ reason q, decodeSpan inflate (image 0 blocks) .none limit (dataStart + i)
      dataStart .start = (.error reason, q)) ∨ _ :=
    decodeSpan_frames (drop_image 0 blocks) hblocks hi hnot (dataStart_add_lt hi hlength)
      List.length_replicate (by omega) (by omega)
  rcases hspan with ⟨reason, q, hq⟩ | ⟨rfl, q, hq, hcount, hwritten⟩
  · rw [← hspans, List.singleton_append, decodeSpans, hq] at hok
    cases hok
  · have hall : decodeSpans inflate (image 0 blocks) .none limit partition.spans .start =
        (.ok (), q) := by
      rw [hend rfl, decodeSpans, hq]
      rfl
    rw [hall] at hok ⊢
    obtain ⟨-, rfl⟩ := Prod.mk.inj (Except.ok.inj hok)
    exact ⟨by rw [hwritten]; rfl, by rw [hcount, hstart, Nat.zero_add]⟩

/-- Bytes are lost when the first header begins in a stored length and the data end there. -/
theorem not_decodesExactly_of_endsInStoredLength {partitions : List Partition} {info : ImageInfo}
    {partition : Partition} (hparse : parse (image 0 blocks) = .ok (partition :: partitions, info))
    (hsingle : partition.spans.length = 1) (hin : EndsInStoredLength blocks) :
    ¬ DecodesExactly inflate blocks limit := by
  intro hexact
  obtain ⟨⟨i, record⟩, hfound, hin⟩ := hin
  obtain ⟨j, record', hfound', hi, -⟩ := exists_firstHeader blocks
  obtain ⟨rfl, rfl⟩ := Prod.mk.inj (Option.some.inj (hfound.symm.trans hfound'))
  obtain ⟨first, hhead, hselect, hcompression, ⟨spans, hspans⟩, -⟩ :=
    exists_partition hfound hlength hparse
  obtain rfl : partition = first := Option.some.inj hhead
  have htotal := length_flatten_le blocks
  have hstart : Progress.start.total = 0 := rfl
  obtain rfl : spans = [] := by
    rw [← hspans, List.length_append] at hsingle
    exact List.length_eq_zero_iff.1 (Nat.add_left_cancel hsingle)
  obtain ⟨q, hq, hlt⟩ : ∃ q, decodeSpan inflate (image 0 blocks) .none limit (dataStart + i)
      dataStart .start = (.ok (), q) ∧ q.total < Progress.start.total + blocks.flatten.length :=
    decodeSpan_of_inStoredLength (drop_image 0 blocks) hblocks hin (dataStart_add_lt hi hlength)
      List.length_replicate (by omega) (by omega)
  have hall : decodeSpans inflate (image 0 blocks) .none limit partition.spans .start =
      (.ok (), q) := by
    rw [← hspans, List.append_nil, decodeSpans, hq]
    rfl
  have hresult : decodePartition inflate (image 0 blocks) 1 limit = _ :=
    decodePartition_of_parse hparse hselect
  rw [hcompression, hall] at hresult
  obtain ⟨-, hcount⟩ := hexact info q.total (by rw [hresult]; rfl)
  omega

/-- The container is decoded exactly when the search for the end of the data does not stop in a
stored length; the converse when the parser accepts the container and the partition has no
continuation. -/
theorem decodesExactly_iff_not_endsInStoredLength :
    (¬ EndsInStoredLength blocks → DecodesExactly inflate blocks limit) ∧
      ((∀ result, parse (image 0 blocks) ≠ .ok result) → DecodesExactly inflate blocks limit) ∧
        ∀ partition partitions info,
          parse (image 0 blocks) = .ok (partition :: partitions, info) →
          partition.spans.length = 1 →
          (DecodesExactly inflate blocks limit ↔ ¬ EndsInStoredLength blocks) := by
  refine ⟨decodesExactly_of_not_endsInStoredLength hblocks hlimit hlength, fun hreject => ?_, ?_⟩
  · intro info n hok
    obtain ⟨partitions, info', hparse⟩ := parse_of_decodePartition hok
    exact absurd hparse (hreject _)
  · intro partition partitions info hparse hsingle
    refine ⟨fun hexact hin => ?_, decodesExactly_of_not_endsInStoredLength hblocks hlimit hlength⟩
    exact not_decodesExactly_of_endsInStoredLength hblocks hlimit hlength hparse hsingle hin hexact

end Exactness

/-- An end record in a block: the parser takes it for the end of the container. -/
theorem parse_image_of_endRecord {bodyLen : ℕ}
    (hfound : firstHeader blocks = some (i, { kind := 0x0023, bodyLen }))
    (hbody : i + recordHeaderSize + bodyLen ≤ (blockData blocks).length)
    (hlength : (image 0 blocks).length < 2 ^ 64) :
    parse (image 0 blocks) = .ok ([{ spans := [(dataStart, dataStart + i)] }], {
      compression := .none
      partitionCount := 1
      sourcePartition := 1
      encrypted := false
      spanned := false }) := by
  obtain ⟨hi, hrecord, -⟩ := findSuffix_eq_some_iff.1 hfound
  have hdrop : recordAt ((image 0 blocks).drop (dataStart + i)) =
      some { kind := 0x0023, bodyLen } := by
    rw [← List.drop_drop, drop_image, hrecord]
  have hend : dataStart + i + recordHeaderSize + bodyLen ≤ (image 0 blocks).length := by
    rw [image, List.length_append, length_imageHead]
    omega
  exact (parse_image_eq_ok_iff hfound hlength).2
    ⟨parseRecords_end hdrop hend hlength, Nat.one_lt_two_pow (by decide), Nat.one_ne_zero, rfl⟩

/-- The block of 33 bytes with the magic behind its first two bytes: its stored length 35 is the
kind of an end record. -/
def disguisedBlock : List UInt8 :=
  [0, 0, 0xd8, 0x18, 0x2f, 0x01] ++ List.replicate 27 0

private theorem firstHeader_disguisedBlock :
    firstHeader [disguisedBlock] = some (0, { kind := 0x0023, bodyLen := 0 }) := by
  decide

/-- The equivalence at a disguised block, which the parser accepts with a single span. -/
theorem decodesExactly_iff_disguisedBlock :
    DecodesExactly (fun _ => none) [disguisedBlock] 33 ↔ ¬ EndsInStoredLength [disguisedBlock] := by
  have hlength : (image 0 [disguisedBlock]).length < 2 ^ 64 := by
    rw [image, List.length_append, length_imageHead]
    decide
  exact (decodesExactly_iff_not_endsInStoredLength (by decide) (by decide) hlength).2.2 _ _ _
    (parse_image_of_endRecord firstHeader_disguisedBlock (by decide) hlength) rfl

/-- A container whose only block of 33 bytes is not written, although no error is reported. -/
theorem not_decodesExactly_disguisedBlock :
    ¬ ∀ (inflate : List UInt8 → Option (List UInt8)) (blocks : List (List UInt8)) (limit : ℕ),
      (∀ block ∈ blocks, 1 ≤ block.length ∧ block.length ≤ 33000) →
      blocks.flatten.length ≤ limit → (image 0 blocks).length < 2 ^ 64 →
      DecodesExactly inflate blocks limit := by
  intro h
  have hlength : (image 0 [disguisedBlock]).length < 2 ^ 64 := by
    rw [image, List.length_append, length_imageHead]
    decide
  have hin : EndsInStoredLength [disguisedBlock] :=
    ⟨_, firstHeader_disguisedBlock, by decide⟩
  exact not_decodesExactly_of_endsInStoredLength (by decide) (by decide) hlength
    (parse_image_of_endRecord firstHeader_disguisedBlock (by decide) hlength) rfl hin
    (h (fun _ => none) [disguisedBlock] 33 (by decide) (by decide) hlength)

/-! ### The image of the laboratory -/

/-- The beginning of an NTFS volume. -/
def labVolume : List UInt8 := [0xeb, 0x52, 0x90, 0x4e, 0x54, 0x46, 0x53, 0x20, 0x20, 0x20, 0x20]

/-- A GHO image with one NTFS partition. -/
def labGhoImage : List UInt8 := image 0 [labVolume]

/-- SHA-256, on the image of the laboratory and on its volume. -/
def labSha256 (bytes : List UInt8) : String :=
  if bytes = labGhoImage then "9e484614c096157a32b3a4b89020d59a74b8d4361a4bea4580b6606bb9100419"
  else if bytes = labVolume then "31d8233ca5e09344616973de6908c8eb0d6b6792d6aac6950e44b92ad796fb52"
  else ""

end EasyDeployMesh.Gho
