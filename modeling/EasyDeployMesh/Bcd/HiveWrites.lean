import EasyDeployMesh.Bcd.HiveLayout

/-!
# What the writes of the hive patch change

Each helper of `replace_setup_cmdline` changes a few positions of the buffer and writes what is then
read there: the header fields, the data and its length, and the headers of the cells when the data
moves to another cell.

## Main definitions

* `EasyDeployMesh.HasHeaderChecksum`: the stored checksum is the one of the header.
* `EasyDeployMesh.DataStored`, `EasyDeployMesh.DataMoved`: what the helpers write.

## Main results

* `EasyDeployMesh.eqOutside_of_updateChecksum`, `EasyDeployMesh.dataStored_of_storeData`,
  `EasyDeployMesh.exists_dataMoved_of_moveData`: one lemma for each helper.
-/

namespace EasyDeployMesh

open Foundations

/-! ### The header -/

/-- The sequence numbers and the checksum. -/
def HeaderField (j : ℕ) : Prop := 4 ≤ j ∧ j < 12 ∨ 508 ≤ j ∧ j < 512

/-- The exclusive or of the little-endian words. -/
def xorWords : List UInt8 → UInt32
  | b₀ :: b₁ :: b₂ :: b₃ :: rest => UInt32.ofNat (readLE [b₀, b₁, b₂, b₃]) ^^^ xorWords rest
  | _ => 0

/-- The checksum of a header: the exclusive or of its words, but never 0 or the greatest word. -/
structure IsHeaderChecksum (header : List UInt8) (checksum : UInt32) : Prop where
  of_zero : xorWords header = 0 → checksum = 1
  of_max : xorWords header = 0xFFFFFFFF → checksum = 0xFFFFFFFE
  of_ne : xorWords header ≠ 0 → xorWords header ≠ 0xFFFFFFFF → checksum = xorWords header

/-- The stored checksum is that of the header in front of it. -/
def HasHeaderChecksum (bytes : List UInt8) : Prop :=
  ∃ header checksum, slice bytes 0 508 = some header ∧
    slice bytes 508 512 = some (writeLE 4 checksum.toNat) ∧ IsHeaderChecksum header checksum

theorem IsHeaderChecksum.ne_reserved {header : List UInt8} {checksum : UInt32}
    (h : IsHeaderChecksum header checksum) : checksum ≠ 0 ∧ checksum ≠ 0xFFFFFFFF := by
  by_cases hzero : xorWords header = 0
  · rw [h.of_zero hzero]
    decide
  · by_cases hmax : xorWords header = 0xFFFFFFFF
    · rw [h.of_max hmax]
      decide
    · rw [h.of_ne hzero hmax]
      exact ⟨hzero, hmax⟩

/-- The words are the pieces of four bytes. -/
theorem foldl_chunks_eq_xorWords (header : List UInt8) (hlength : header.length % 4 = 0)
    (sum : UInt32) :
    (chunks 4 header).foldl (fun sum word => sum ^^^ UInt32.ofNat (readLE word)) sum =
      sum ^^^ xorWords header := by
  induction header using xorWords.induct generalizing sum with
  | case1 b₀ b₁ b₂ b₃ rest ih =>
    have hrest : rest.length % 4 = 0 := by
      simp only [List.length_cons] at hlength
      omega
    rw [chunks_of_ne_nil (by omega) (List.cons_ne_nil _ _), List.foldl_cons, xorWords,
      ← UInt32.xor_assoc]
    exact ih hrest _
  | case2 header hshort =>
    match header with
    | [] => rw [chunks_nil, List.foldl_nil, xorWords, UInt32.xor_zero]; exact hshort
    | [_] | [_, _] | [_, _, _] => simp at hlength
    | b₀ :: b₁ :: b₂ :: b₃ :: rest => exact absurd rfl (hshort b₀ b₁ b₂ b₃ rest)

theorem isHeaderChecksum_headerChecksum {header : List UInt8} (hlength : header.length % 4 = 0) :
    IsHeaderChecksum header (headerChecksum header) := by
  have hfold := foldl_chunks_eq_xorWords header hlength 0
  rw [UInt32.zero_xor] at hfold
  rw [headerChecksum, hfold]
  refine ⟨fun hzero => if_pos hzero, fun hmax => ?_, fun hzero hmax => ?_⟩
  · rw [hmax]
    rfl
  · rw [if_neg hzero, if_neg hmax]

section Spec

variable {bytes output replacement : List UInt8}

theorem eqOutside_of_updateChecksum (h : updateChecksum bytes = .ok output) :
    EqOutside HeaderField bytes output ∧ HasHeaderChecksum output := by
  simp only [updateChecksum, bind_eq_ok_iff, sliceBytes_eq_ok_iff, fillZero_eq_ok_iff] at h
  obtain ⟨word, -, bytes₁, h₁, bytes₂, h₂, bytes₃, ⟨-, h₃⟩, header, hheader, h₄⟩ := h
  have hframe : EqOutside HeaderField bytes bytes₃ := by
    refine eqOutside_of_copyFromSlice (eqOutside_of_copyFromSlice (eqOutside_of_copyFromSlice
      (EqOutside.refl _ bytes) h₁ ?_) h₂ ?_) h₃ ?_ <;>
    · intro j hle hlt
      simp only [length_writeLE, List.length_replicate] at hlt
      rw [HeaderField]
      omega
  have hlength : header.length = 508 := length_of_slice hheader
  refine ⟨eqOutside_of_copyFromSlice hframe h₄ fun j hle hlt => ?_, header, _, ?_,
    slice_of_copyFromSlice h₄ (by rw [length_writeLE]),
    isHeaderChecksum_headerChecksum (by rw [hlength])⟩
  · rw [length_writeLE] at hlt
    exact .inr ⟨hle, hlt⟩
  · rw [slice_eq_of_copyFromSlice h₄ (.inl le_rfl), hheader]

/-! ### The data -/

/-- The data was stored in a cell, and the header of the hive was brought up to date. -/
structure DataStored (bytes output : List UInt8) (valueCell targetCell targetSize : ℕ)
    (replacement : List UInt8) : Prop where
  frame : EqOutside (fun j => HeaderField j ∨ targetCell + 4 ≤ j ∧ j < targetCell + targetSize ∨
    valueCell + 8 ≤ j ∧ j < valueCell + 12) bytes output
  data : slice output (targetCell + 4) (targetCell + 4 + replacement.length) = some replacement
  length : (slice output (valueCell + 8) (valueCell + 12)).map readLE = some replacement.length
  checksum : HasHeaderChecksum output

theorem dataStored_of_storeData {valueCell targetCell targetSize : ℕ} {signed : ℤ}
    (hheader : cellHeader bytes targetCell = some signed) (habs : signed.natAbs = targetSize)
    (hvalue : regfHeaderBytes ≤ valueCell) (htarget : regfHeaderBytes ≤ targetCell)
    (hdisjoint : valueCell + 12 ≤ targetCell + 4 ∨ targetCell + targetSize ≤ valueCell + 8)
    (hfits : replacement.length + 4 ≤ targetSize) (hlength : replacement.length < 2 ^ 32)
    (h : storeData bytes valueCell targetCell replacement = .ok output) :
    DataStored bytes output valueCell targetCell targetSize replacement := by
  simp only [storeData, bind_eq_ok_iff, sliceBytes_eq_ok_iff, fillZero_eq_ok_iff] at h
  obtain ⟨word, hword, bytes₁, ⟨-, h₁⟩, bytes₂, h₂, bytes₃, h₃, h₄⟩ := h
  have hsize : (i32FromLE word).natAbs = targetSize := by
    rw [cellHeader, hword] at hheader
    rw [← habs, ← Option.some.inj hheader]
  rw [hsize] at h₁
  obtain ⟨hframe, hchecksum⟩ := eqOutside_of_updateChecksum h₄
  have hheaderField {j : ℕ} (hj : HeaderField j) : j < regfHeaderBytes := by
    rw [HeaderField] at hj
    rw [regfHeaderBytes]
    omega
  refine ⟨?_, ?_, ?_, hchecksum⟩
  · have hzeros : (List.replicate (targetCell + targetSize - (targetCell + 4)) (0 : UInt8)).length =
        targetCell + targetSize - (targetCell + 4) := List.length_replicate
    have hcount := length_writeLE 4 replacement.length
    have hwritten : EqOutside (fun j => targetCell + 4 ≤ j ∧ j < targetCell + targetSize ∨
        valueCell + 8 ≤ j ∧ j < valueCell + 12) bytes bytes₃ := by
      refine eqOutside_of_copyFromSlice (eqOutside_of_copyFromSlice (eqOutside_of_copyFromSlice
        (EqOutside.refl _ bytes) h₁ ?_) h₂ ?_) h₃ ?_ <;>
      · intro j hle hlt
        omega
    exact hwritten.trans hframe (fun j hj => .inr hj) fun j hj => .inl hj
  · rw [hframe.slice_eq fun j hle _ hj => ?_, slice_eq_of_copyFromSlice h₃ ?_,
      slice_of_copyFromSlice h₂ rfl]
    · rw [length_writeLE]
      omega
    · have := hheaderField hj
      omega
  · rw [hframe.slice_eq fun j hle _ hj => ?_, slice_of_copyFromSlice h₃ (by rw [length_writeLE]),
      Option.map_some, readLE_writeLE (by omega)]
    have := hheaderField hj
    omega

/-- The old data cell was freed, and a part of a free cell was allocated in its place. -/
structure DataMoved (bytes output : List UInt8) (valueCell dataCell allocated required free
    freeSize : ℕ) : Prop where
  frame : EqOutside (fun j => dataCell ≤ j ∧ j < dataCell + 4 ∨ free ≤ j ∧ j < free + 4 ∨
    required < freeSize ∧ free + required ≤ j ∧ j < free + required + 4 ∨
    valueCell + 12 ≤ j ∧ j < valueCell + 16) bytes output
  newHeader : cellHeader output free = some (-(required : ℤ))
  remainder : required < freeSize →
    cellHeader output (free + required) = some ((freeSize - required : ℕ) : ℤ)
  oldHeader : cellHeader output dataCell = some (allocated : ℤ)
  dataOffset : (slice output (valueCell + 12) (valueCell + 16)).map readLE =
    some (free - regfHeaderBytes)

theorem cellHeader_of_copyFromSlice {first : ℕ} {signed : ℤ} (hmin : -2 ^ 31 ≤ signed)
    (hmax : signed < 2 ^ 31) (h : copyFromSlice bytes first (i32ToLE signed) = .ok output) :
    cellHeader output first = some signed := by
  rw [cellHeader, slice_of_copyFromSlice h (by rw [length_i32ToLE]), Option.map_some,
    i32FromLE_i32ToLE hmin hmax]

theorem cellHeader_eq_of_copyFromSlice {start first : ℕ} {part : List UInt8}
    (h : copyFromSlice bytes start part = .ok output)
    (hdisjoint : first + 4 ≤ start ∨ start + part.length ≤ first) :
    cellHeader output first = cellHeader bytes first := by
  rw [cellHeader, slice_eq_of_copyFromSlice h hdisjoint, cellHeader]

/-- The cells that a move touches do not overlap. -/
structure MoveLayout (valueCell dataCell allocated free freeSize : ℕ) : Prop where
  le_allocated : 8 ≤ allocated
  value_data : valueCell + 16 ≤ dataCell ∨ dataCell + allocated ≤ valueCell
  value_free : valueCell + 16 ≤ free ∨ free + freeSize ≤ valueCell
  data_free : dataCell + allocated ≤ free ∨ free + freeSize ≤ dataCell

/-- The front of a free cell is allocated. -/
theorem frame_of_allocateFront {free freeSize required : ℕ} (hle : required ≤ freeSize)
    (hrequired : 4 ≤ required) (hmax : freeSize < 2 ^ 31)
    (h : allocateFront bytes free freeSize required = .ok output) :
    EqOutside (fun j => free ≤ j ∧ j < free + 4 ∨
      required < freeSize ∧ free + required ≤ j ∧ j < free + required + 4) bytes output ∧
      cellHeader output free = some (-(required : ℤ)) ∧ (required < freeSize →
        cellHeader output (free + required) = some ((freeSize - required : ℕ) : ℤ)) := by
  simp only [allocateFront, bind_eq_ok_iff] at h
  obtain ⟨bytes₁, h₁, h₂⟩ := h
  have hframe : EqOutside (fun j => free ≤ j ∧ j < free + 4 ∨
      required < freeSize ∧ free + required ≤ j ∧ j < free + required + 4) bytes bytes₁ := by
    refine eqOutside_of_copyFromSlice (EqOutside.refl _ bytes) h₁ fun j hj hlt => ?_
    rw [length_i32ToLE] at hlt
    exact .inl ⟨hj, hlt⟩
  have hheader := cellHeader_of_copyFromSlice (by omega) (by omega) h₁
  split_ifs at h₂ with hsplit
  · refine ⟨eqOutside_of_copyFromSlice hframe h₂ fun j hj hlt => ?_, ?_, fun _ =>
      cellHeader_of_copyFromSlice (by omega) (by omega) h₂⟩
    · rw [length_i32ToLE] at hlt
      exact .inr ⟨hsplit, hj, hlt⟩
    · rw [cellHeader_eq_of_copyFromSlice h₂ (.inl (by omega)), hheader]
  · obtain rfl := Except.ok.inj h₂
    exact ⟨hframe, hheader, fun hlt => absurd hlt hsplit⟩

theorem exists_dataMoved_of_moveData {valueCell dataCell allocated length target : ℕ}
    (hbytes : bytes.length < 2 ^ 31) (hdata : dataCell + allocated ≤ bytes.length)
    (hlayout : ∀ free freeSize, findFreeCell bytes ((length + 4 + 7) / 8 * 8) = .ok (some free) →
      IsFreeCell bytes free freeSize → MoveLayout valueCell dataCell allocated free freeSize)
    (h : moveData bytes valueCell dataCell allocated length = .ok (target, output)) :
    findFreeCell bytes ((length + 4 + 7) / 8 * 8) = .ok (some target) ∧
      ∃ freeSize, IsFreeCell bytes target freeSize ∧ (length + 4 + 7) / 8 * 8 ≤ freeSize ∧
        DataMoved bytes output valueCell dataCell allocated ((length + 4 + 7) / 8 * 8) target
          freeSize := by
  simp only [moveData, bind_eq_ok_iff, sliceBytes_eq_ok_iff, elim_eq_ok_iff] at h
  obtain ⟨_, hfind, free, rfl, word, hword, bytes₁, h₁, bytes₂, h₂, bytes₃, h₃, heq⟩ := h
  obtain ⟨rfl, rfl⟩ := Prod.mk.inj (Except.ok.inj heq)
  obtain ⟨hfree, freeSize, hcell, hrequired⟩ := exists_isFreeCell_of_findFreeCell hfind
  obtain ⟨hallocated, hvd, hvf, hdf⟩ := hlayout free freeSize hfind hcell
  have hrequiredPos : 4 ≤ (length + 4 + 7) / 8 * 8 := by omega
  have hrequiredMod : (length + 4 + 7) / 8 * 8 % 8 = 0 := Nat.mul_mod_left _ _
  generalize (length + 4 + 7) / 8 * 8 = required at *
  refine ⟨hfind, freeSize, hcell, hrequired, ?_⟩
  have hheader := hcell.header
  rw [cellHeader, hword] at hheader
  have hsize : (i32FromLE word).toNat = freeSize := by
    rw [Option.some.inj hheader, Int.toNat_natCast]
  have hle := hcell.le_length
  have hmod := hcell.mod_size
  rw [hsize] at h₁
  obtain ⟨hframe, hnew, hrest⟩ := frame_of_allocateFront hrequired hrequiredPos (by omega) h₁
  have hlength₂ := length_i32ToLE allocated
  have hlength₃ := length_writeLE 4 (free - regfHeaderBytes)
  refine ⟨?_, ?_, fun hsplit => ?_, ?_, ?_⟩
  · have hmoved : EqOutside (fun j => dataCell ≤ j ∧ j < dataCell + 4 ∨
        valueCell + 12 ≤ j ∧ j < valueCell + 16) bytes₁ bytes₃ := by
      refine eqOutside_of_copyFromSlice (eqOutside_of_copyFromSlice (EqOutside.refl _ bytes₁)
        h₂ ?_) h₃ ?_ <;>
      · intro j hj hlt
        omega
    exact hframe.trans hmoved (fun j hj => by omega) fun j hj => by omega
  · rw [cellHeader_eq_of_copyFromSlice h₃ (by omega), cellHeader_eq_of_copyFromSlice h₂ (by omega),
      hnew]
  · rw [cellHeader_eq_of_copyFromSlice h₃ (by omega), cellHeader_eq_of_copyFromSlice h₂ (by omega),
      hrest hsplit]
  · rw [cellHeader_eq_of_copyFromSlice h₃ (by omega),
      cellHeader_of_copyFromSlice (by omega) (by omega) h₂]
  · rw [slice_of_copyFromSlice h₃ (by rw [hlength₃]), Option.map_some, readLE_writeLE (by omega)]

end Spec

end EasyDeployMesh
