import EasyDeployMesh.Bcd.HiveWrites

/-!
# Patching the SYSTEM hive keeps it well formed

A successful `replace_setup_cmdline` changes the sequence numbers and the checksum in the header,
the data length and the data offset in the cell of the value, and the data: in the old cell if it
fits there, and otherwise in the front of a free cell, while the old cell becomes free. The cells of
every bin tile it as before. That the reader finds the value in the cell that the hive has for it is
an assumption.

## Main definitions

* `EasyDeployMesh.LocatesSetup`: the reader finds the cells of the value.
* `EasyDeployMesh.HiveBin.retile`: the cells of a bin after the patch.
* `EasyDeployMesh.HivePatched`: what holds of a patched hive.

## Main results

* `EasyDeployMesh.IsHive.retile`: a hive whose cells are replaced one by one.
* `EasyDeployMesh.hivePatched_of_replaceSetupCmdline`: every successful patch.
-/

namespace EasyDeployMesh

open Foundations

/-! ### The cells after the patch -/

/-- The old data cell is freed, and the new one is taken from the front of a free cell. -/
def HiveCell.retile (old new cell : HiveCell) : List HiveCell :=
  if cell.start = new.start then
    if cell.allocated then [cell]
    else new :: (if new.size < cell.size then
      [⟨new.start + new.size, cell.size - new.size, false⟩] else [])
  else if cell = old then [⟨old.start, old.size, false⟩]
  else [cell]

/-- A bin whose old cell is freed and whose free cell gives way to the new one. -/
def HiveBin.retile (old new : HiveCell) (bin : HiveBin) : HiveBin :=
  { bin with cells := bin.cells.flatMap (HiveCell.retile old new) }

section Retile

variable {bytes output : List UInt8} {bins : List HiveBin} {last : ℕ} {changed : ℕ → Prop}
  {cell old new : HiveCell}

theorem cellHeader_eq_of_eqOutside {start : ℕ} (h : EqOutside changed bytes output)
    (hchanged : ∀ j, start ≤ j → j < start + 4 → ¬ changed j) :
    cellHeader output start = cellHeader bytes start := by
  rw [cellHeader, h.slice_eq hchanged, cellHeader]

/-- A cell whose header is the same is the same cell. -/
theorem HiveCell.Reads.of_cellHeader_eq (h : cell.Reads bytes)
    (hheader : cellHeader output cell.start = cellHeader bytes cell.start) : cell.Reads output where
  header := hheader.trans h.header
  le_size := h.le_size
  mod_size := h.mod_size

/-- The headers of the bins are left alone, and each cell is replaced by cells that tile it. -/
theorem IsHive.retile (h : IsHive bytes bins last) (hframe : EqOutside changed bytes output)
    (hbins : ∀ bin ∈ bins, ∀ j, bin.start ≤ j → j < bin.start + 32 → ¬ changed j)
    (htiles : ∀ cell ∈ hiveCells bins, Tiles HiveCell.start HiveCell.size cell.start
      (HiveCell.retile old new cell) (cell.start + cell.size))
    (hreads : ∀ cell ∈ hiveCells bins, ∀ piece ∈ HiveCell.retile old new cell, piece.Reads output) :
    IsHive output (bins.map (HiveBin.retile old new)) last where
  tiles := h.tiles.map (fun _ => rfl) fun _ => rfl
  le_length := by
    rw [hframe.length_eq]
    exact h.le_length
  bins := by
    intro bin' hbin'
    obtain ⟨bin, hbin, rfl⟩ := List.mem_map.mp hbin'
    have hread := h.bins bin hbin
    have hstart : (HiveBin.retile old new bin).start = bin.start := rfl
    have hmem {cell : HiveCell} (hcell : cell ∈ bin.cells) : cell ∈ hiveCells bins :=
      List.mem_flatMap.mpr ⟨bin, hbin, hcell⟩
    refine ⟨?_, ?_, hread.le_size, hread.tiles.flatMap fun cell hcell => htiles cell (hmem hcell),
      fun piece hpiece => ?_⟩
    · exact (hframe.slice_eq fun j hle hlt => hbins bin hbin j hle (by omega)).trans hread.signature
    · refine Eq.trans (congrArg _ (hframe.slice_eq fun j hle hlt => ?_)) hread.header
      exact hbins bin hbin j (by omega) (by omega)
    · obtain ⟨cell, hcell, hpiece⟩ := List.mem_flatMap.mp hpiece
      exact hreads cell (hmem hcell) piece hpiece

end Retile

/-! ### The patched hive -/

/-- The reader finds the value in the cell `value`, and its data in the cell `old` unless the value
cell holds the data itself. -/
structure LocatesSetup (reader : HiveReader) (bytes : List UInt8) (bins : List HiveBin)
    (value old : HiveCell) : Prop where
  exists_entry : ∃ entry, reader.fromBytes bytes = .ok (.ok entry) ∧
    value.start = regfHeaderBytes + entry.offset.toNat ∧
    (entry.isDataResident = false → old.start = regfHeaderBytes + entry.dataOffset.toNat ∧
      (slice bytes (value.start + 12) (value.start + 16)).map readLE =
        some entry.dataOffset.toNat)
  value_mem : value ∈ hiveCells bins
  old_mem : old ∈ hiveCells bins
  ne : value ≠ old
  value_allocated : value.allocated = true
  old_allocated : old.allocated = true
  /-- The fixed part of the record of a value has 20 bytes. -/
  le_size : 24 ≤ value.size

/-- The record of the value has the length of the data and the offset of the cell that holds it. -/
structure HoldsData (bytes : List UInt8) (value cell : HiveCell) (content : List UInt8) : Prop where
  reads : cell.Reads bytes
  allocated : cell.allocated = true
  le_start : regfHeaderBytes ≤ cell.start
  offset : (slice bytes (value.start + 12) (value.start + 16)).map readLE =
    some (cell.start - regfHeaderBytes)
  length : (slice bytes (value.start + 8) (value.start + 12)).map readLE = some content.length
  data : slice bytes (cell.start + 4) (cell.start + 4 + content.length) = some content
  fits : content.length + 4 ≤ cell.size

/-- The positions that a patch may change: the header fields, the length and the offset in the value
cell, the two data cells, and the header of what is left of a free cell that was split. -/
def PatchedByte (bytes : List UInt8) (value old new : HiveCell) (j : ℕ) : Prop :=
  HeaderField j ∨ value.start + 8 ≤ j ∧ j < value.start + 16 ∨
    old.start ≤ j ∧ j < old.start + old.size ∨ new.start ≤ j ∧ j < new.start + new.size ∨
    ∃ freeSize, IsFreeCell bytes new.start freeSize ∧ new.size < freeSize ∧
      new.start + new.size ≤ j ∧ j < new.start + new.size + 4

/-- What a patch leaves of the bytes and the cells: `new` is the cell of the data. -/
structure CellsPatched (bytes output : List UInt8) (bins : List HiveBin) (last : ℕ)
    (value old new : HiveCell) (data : List UInt8) : Prop where
  frame : EqOutside (PatchedByte bytes value old new) bytes output
  hive : IsHive output (bins.map (HiveBin.retile old new)) last
  holds : HoldsData output value new data
  checksum : HasHeaderChecksum output

section Cases

variable {bytes output moved data : List UInt8} {bins : List HiveBin} {last free freeSize : ℕ}
  {value old cell : HiveCell}

private theorem not_headerField {j : ℕ} (h : regfHeaderBytes ≤ j) : ¬ HeaderField j := by
  rw [regfHeaderBytes] at h
  rw [HeaderField]
  omega

/-- The data stays in its cell. -/
theorem cellsPatched_of_dataStored (h : IsHive bytes bins last) (hvalue : value ∈ hiveCells bins)
    (hold : old ∈ hiveCells bins) (hne : value ≠ old) (hallocated : old.allocated = true)
    (hsize : 24 ≤ value.size) (hfits : data.length + 4 ≤ old.size)
    (hoffset : (slice bytes (value.start + 12) (value.start + 16)).map readLE =
      some (old.start - regfHeaderBytes))
    (hstored : DataStored bytes output value.start old.start old.size data) :
    CellsPatched bytes output bins last value old old data := by
  have hvalueBounds := h.bounds hvalue
  have holdBounds := h.bounds hold
  have hdisjoint := (h.cell_disjoint hvalue hold).resolve_left hne
  have hheader {cell : HiveCell} (hcell : cell ∈ hiveCells bins) :
      cellHeader output cell.start = cellHeader bytes cell.start := by
    refine cellHeader_eq_of_eqOutside hstored.frame fun j hle hlt hj => ?_
    have hbounds := h.bounds hcell
    have hcellSize := (h.reads_of_mem hcell).le_size
    rcases hj with hj | hj | hj
    · exact not_headerField (by omega) hj
    · rcases h.cell_disjoint hcell hold with rfl | hapart | hapart <;> omega
    · rcases h.cell_disjoint hcell hvalue with rfl | hapart | hapart <;> omega
  have hretile {cell : HiveCell} (hcell : cell ∈ hiveCells bins) :
      HiveCell.retile old old cell = [cell] := by
    rcases eq_or_ne cell.start old.start with hstart | hstart
    · rw [HiveCell.retile, if_pos hstart, h.eq_of_start_eq hcell hold hstart, if_pos hallocated]
    · rw [HiveCell.retile, if_neg hstart, if_neg fun heq => hstart (congrArg HiveCell.start heq)]
  refine ⟨⟨hstored.frame.length_eq, fun j hj => hstored.frame.getElem?_eq j fun hchanged => hj ?_⟩,
    h.retile hstored.frame (fun bin hbin j hle hlt hj => ?_) (fun cell hcell => ?_)
      fun cell hcell piece hpiece => ?_,
    ⟨?_, hallocated, by omega, ?_, hstored.length, hstored.data, hfits⟩, hstored.checksum⟩
  · rcases hchanged with hchanged | hchanged | hchanged
    · exact .inl hchanged
    · exact .inr (.inr (.inl (by omega)))
    · exact .inr (.inl (by omega))
  · have hbin' := (h.tiles.bounds.2 bin hbin).1
    have hvalueBin := h.binHeader_disjoint hbin hvalue
    have holdBin := h.binHeader_disjoint hbin hold
    rcases hj with hj | hj | hj
    · exact not_headerField (by omega) hj
    · omega
    · omega
  · rw [hretile hcell]
    exact ⟨rfl, rfl⟩
  · rw [hretile hcell, List.mem_singleton] at hpiece
    subst hpiece
    exact (h.reads_of_mem hcell).of_cellHeader_eq (hheader hcell)
  · exact (h.reads_of_mem hold).of_cellHeader_eq (hheader hold)
  · rw [hstored.frame.slice_eq fun j hle hlt hj => ?_, hoffset]
    rcases hj with hj | hj | hj
    · exact not_headerField (by omega) hj
    · omega
    · omega

/-- The size of a free cell is in its header. -/
theorem IsHive.size_eq_of_isFreeCell (h : IsHive bytes bins last) (hcell : cell ∈ hiveCells bins)
    (hstate : cell.allocated = false) (hfree : IsFreeCell bytes cell.start freeSize) :
    cell.size = freeSize := by
  have hheader := (h.reads_of_mem hcell).header.symm.trans hfree.header
  rw [hstate, if_neg Bool.false_ne_true] at hheader
  exact Int.ofNat_inj.mp (Option.some.inj hheader)

/-- What was found does not overlap the other cells of the hive. -/
theorem IsHive.apart_of_isFreeCell (h : IsHive bytes bins last)
    (hfree : IsFreeCell bytes free freeSize)
    (hmem : (∃ cell ∈ hiveCells bins, cell.start = free ∧ cell.allocated = false) ∨ last ≤ free)
    (hcell : cell ∈ hiveCells bins) :
    (cell.start = free ∧ cell.size = freeSize ∧ cell.allocated = false) ∨
      cell.start + cell.size ≤ free ∨ free + freeSize ≤ cell.start := by
  rcases hmem with ⟨found, hfound, rfl, hstate⟩ | hbehind
  · have hsize := h.size_eq_of_isFreeCell hfound hstate hfree
    rcases h.cell_disjoint hcell hfound with rfl | hapart | hapart
    · exact .inl ⟨rfl, hsize, hstate⟩
    · exact .inr (.inl hapart)
    · exact .inr (.inr (by omega))
  · exact .inr (.inl ((h.bounds hcell).2.trans hbehind))

/-- What was found is no part of the header of a bin. -/
theorem IsHive.binHeader_apart_of_isFreeCell (h : IsHive bytes bins last)
    (hfree : IsFreeCell bytes free freeSize)
    (hmem : (∃ cell ∈ hiveCells bins, cell.start = free ∧ cell.allocated = false) ∨ last ≤ free)
    {bin : HiveBin} (hbin : bin ∈ bins) :
    bin.start + 32 ≤ free ∨ free + freeSize ≤ bin.start := by
  rcases hmem with ⟨found, hfound, rfl, hstate⟩ | hbehind
  · rw [← h.size_eq_of_isFreeCell hfound hstate hfree]
    exact h.binHeader_disjoint hbin hfound
  · have hbounds := (h.tiles.bounds.2 bin hbin).2
    have hsize := (h.bins bin hbin).le_size
    exact .inl (by omega)

/-- An allocated cell does not overlap what was found. -/
theorem IsHive.allocated_apart_of_isFreeCell (h : IsHive bytes bins last)
    (hfree : IsFreeCell bytes free freeSize)
    (hmem : (∃ cell ∈ hiveCells bins, cell.start = free ∧ cell.allocated = false) ∨ last ≤ free)
    (hcell : cell ∈ hiveCells bins) (hstate : cell.allocated = true) :
    cell.start + cell.size ≤ free ∨ free + freeSize ≤ cell.start := by
  refine (h.apart_of_isFreeCell hfree hmem hcell).resolve_left ?_
  rintro ⟨-, -, hunallocated⟩
  rw [hstate] at hunallocated
  exact Bool.noConfusion hunallocated

/-- The data moves to the front of a free cell, of which `required` bytes are allocated. -/
structure DataRelocated (bytes moved output : List UInt8) (bins : List HiveBin) (last : ℕ)
    (value old : HiveCell) (free freeSize required : ℕ) (content : List UInt8) : Prop where
  hive : IsHive bytes bins last
  value_mem : value ∈ hiveCells bins
  old_mem : old ∈ hiveCells bins
  ne : value ≠ old
  value_allocated : value.allocated = true
  old_allocated : old.allocated = true
  le_value : 24 ≤ value.size
  isFree : IsFreeCell bytes free freeSize
  found : (∃ cell ∈ hiveCells bins, cell.start = free ∧ cell.allocated = false) ∨ last ≤ free
  le_free : regfHeaderBytes ≤ free
  required_le : required ≤ freeSize
  mod_required : required % 8 = 0
  fits : content.length + 4 ≤ required
  dataMoved : DataMoved bytes moved value.start old.start old.size required free freeSize
  dataStored : DataStored moved output value.start free required content

/-- The positions that a move and the store behind it change. -/
def RelocatedByte (value old : HiveCell) (free freeSize required j : ℕ) : Prop :=
  HeaderField j ∨ old.start ≤ j ∧ j < old.start + 4 ∨ free ≤ j ∧ j < free + required ∨
    required < freeSize ∧ free + required ≤ j ∧ j < free + required + 4 ∨
    value.start + 8 ≤ j ∧ j < value.start + 16

namespace DataRelocated

variable {required : ℕ}
  (h : DataRelocated bytes moved output bins last value old free freeSize required data)

include h

theorem value_old : value.start + value.size ≤ old.start ∨ old.start + old.size ≤ value.start :=
  (h.hive.cell_disjoint h.value_mem h.old_mem).resolve_left h.ne

theorem value_free : value.start + value.size ≤ free ∨ free + freeSize ≤ value.start :=
  h.hive.allocated_apart_of_isFreeCell h.isFree h.found h.value_mem h.value_allocated

theorem old_free : old.start + old.size ≤ free ∨ free + freeSize ≤ old.start :=
  h.hive.allocated_apart_of_isFreeCell h.isFree h.found h.old_mem h.old_allocated

theorem frame : EqOutside (RelocatedByte value old free freeSize required) bytes output := by
  have hfits := h.fits
  refine h.dataMoved.frame.trans h.dataStored.frame (fun j hj => ?_) fun j hj => ?_
  · rw [RelocatedByte]
    omega
  · rcases hj with hj | hj
    · exact .inl hj
    · exact .inr (by omega)

/-- The headers of the cells are those that the move wrote. -/
theorem cellHeader_eq (start : ℕ) (hle : regfHeaderBytes ≤ start)
    (hdata : start + 4 ≤ free + 4 ∨ free + required ≤ start)
    (hrecord : start + 4 ≤ value.start + 8 ∨ value.start + 12 ≤ start) :
    cellHeader output start = cellHeader moved start := by
  refine cellHeader_eq_of_eqOutside h.dataStored.frame fun j hle' hlt hj => ?_
  rcases hj with hj | hj
  · exact not_headerField (by omega) hj
  · omega

theorem new_reads : HiveCell.Reads output ⟨free, required, true⟩ := by
  have hfits := h.fits
  have hmod := h.mod_required
  have hle := h.required_le
  have hvalue := h.le_value
  have hapart := h.value_free
  exact ⟨(h.cellHeader_eq free h.le_free (by omega) (by omega)).trans h.dataMoved.newHeader,
    show 8 ≤ required by omega, hmod⟩

theorem remainder_reads (hsplit : required < freeSize) :
    HiveCell.Reads output ⟨free + required, freeSize - required, false⟩ := by
  have hmod := h.mod_required
  have hfreeMod := h.isFree.mod_size
  have hle := h.le_free
  have hvalue := h.le_value
  have hapart := h.value_free
  refine ⟨?_, show 8 ≤ freeSize - required by omega, show (freeSize - required) % 8 = 0 by omega⟩
  exact (h.cellHeader_eq (free + required) (by omega) (by omega) (by omega)).trans
    (h.dataMoved.remainder hsplit)

theorem freed_reads : HiveCell.Reads output ⟨old.start, old.size, false⟩ := by
  have hread := h.hive.reads_of_mem h.old_mem
  have hsize := hread.le_size
  have hbounds := h.hive.bounds h.old_mem
  have hle := h.required_le
  have hvalue := h.le_value
  have hapart := h.value_old
  have hfree := h.old_free
  refine ⟨?_, hread.le_size, hread.mod_size⟩
  exact (h.cellHeader_eq old.start (by omega) (by omega) (by omega)).trans h.dataMoved.oldHeader

/-- The other cells keep their headers. -/
theorem kept_reads (hcell : cell ∈ hiveCells bins) (hne : cell ≠ old)
    (hapart : cell.start + cell.size ≤ free ∨ free + freeSize ≤ cell.start) :
    cell.Reads output := by
  have hread := h.hive.reads_of_mem hcell
  have hsize := hread.le_size
  have hbounds := h.hive.bounds hcell
  have holdSize := (h.hive.reads_of_mem h.old_mem).le_size
  have hold := (h.hive.cell_disjoint hcell h.old_mem).resolve_left hne
  have hmod := h.mod_required
  have hfreeMod := h.isFree.mod_size
  have hle := h.required_le
  have hvalue := h.le_value
  refine hread.of_cellHeader_eq (cellHeader_eq_of_eqOutside h.frame fun j hle hlt hj => ?_)
  rcases hj with hj | hj
  · exact not_headerField (by omega) hj
  · rcases h.hive.cell_disjoint hcell h.value_mem with rfl | hdisjoint <;> omega

/-- Each cell is tiled by the cells that come in its place. -/
theorem retile_reads (hcell : cell ∈ hiveCells bins) :
    Tiles HiveCell.start HiveCell.size cell.start
      (HiveCell.retile old ⟨free, required, true⟩ cell) (cell.start + cell.size) ∧
    ∀ piece ∈ HiveCell.retile old ⟨free, required, true⟩ cell, piece.Reads output := by
  have hsize := (h.hive.reads_of_mem hcell).le_size
  have hfreeSize := h.isFree.le_size
  have hle := h.required_le
  rcases h.hive.apart_of_isFreeCell h.isFree h.found hcell with ⟨rfl, hcellFree, hstate⟩ | hapart
  · rw [HiveCell.retile, if_pos rfl, hstate, if_neg Bool.false_ne_true, hcellFree]
    dsimp only
    split_ifs with hsplit
    · refine ⟨⟨rfl, rfl, ?_⟩, List.forall_mem_cons.mpr ⟨h.new_reads,
        List.forall_mem_singleton.mpr (h.remainder_reads hsplit)⟩⟩
      change cell.start + required + (freeSize - required) = cell.start + freeSize
      omega
    · refine ⟨⟨rfl, ?_⟩, List.forall_mem_singleton.mpr h.new_reads⟩
      change cell.start + required = cell.start + freeSize
      omega
  · rw [HiveCell.retile, if_neg (by dsimp only; omega)]
    split_ifs with heq
    · subst heq
      exact ⟨⟨rfl, rfl⟩, List.forall_mem_singleton.mpr h.freed_reads⟩
    · exact ⟨⟨rfl, rfl⟩, List.forall_mem_singleton.mpr (h.kept_reads hcell heq hapart)⟩

/-- The headers of the bins are left alone. -/
theorem binHeader_kept {bin : HiveBin} (hbin : bin ∈ bins) {j : ℕ} (hle : bin.start ≤ j)
    (hlt : j < bin.start + 32) : ¬ RelocatedByte value old free freeSize required j := by
  have hbounds := (h.hive.tiles.bounds.2 bin hbin).1
  have hvalueBin := h.hive.binHeader_disjoint hbin h.value_mem
  have holdBin := h.hive.binHeader_disjoint hbin h.old_mem
  have holdSize := (h.hive.reads_of_mem h.old_mem).le_size
  have hfreeBin := h.hive.binHeader_apart_of_isFreeCell h.isFree h.found hbin
  have hmod := h.mod_required
  have hfreeMod := h.isFree.mod_size
  have hvalue := h.le_value
  have hrequired := h.required_le
  rintro (hj | hj)
  · exact not_headerField (by omega) hj
  · omega

theorem holds : HoldsData output value ⟨free, required, true⟩ data := by
  refine ⟨h.new_reads, rfl, h.le_free, ?_, h.dataStored.length, h.dataStored.data, h.fits⟩
  have hbounds := h.hive.bounds h.value_mem
  have hvalue := h.le_value
  have hrequired := h.required_le
  have hapart := h.value_free
  rw [h.dataStored.frame.slice_eq fun j hle hlt hj => ?_, h.dataMoved.dataOffset]
  rcases hj with hj | hj
  · exact not_headerField (by omega) hj
  · omega

theorem cellsPatched :
    CellsPatched bytes output bins last value old ⟨free, required, true⟩ data := by
  refine ⟨⟨h.frame.length_eq, fun j hj => h.frame.getElem?_eq j fun hchanged => hj ?_⟩,
    h.hive.retile h.frame (fun bin hbin j hle hlt => h.binHeader_kept hbin hle hlt)
      (fun cell hcell => (h.retile_reads hcell).1) fun cell hcell => (h.retile_reads hcell).2,
    h.holds, h.dataStored.checksum⟩
  have holdSize := (h.hive.reads_of_mem h.old_mem).le_size
  rcases hchanged with hchanged | hchanged | hchanged | ⟨hsplit, hchanged⟩ | hchanged
  · exact .inl hchanged
  · exact .inr (.inr (.inl (by omega)))
  · exact .inr (.inr (.inr (.inl hchanged)))
  · exact .inr (.inr (.inr (.inr ⟨freeSize, h.isFree, hsplit, hchanged⟩)))
  · exact .inr (.inl hchanged)

end DataRelocated

end Cases

/-! ### The result of a call -/

section Result

variable {reader : HiveReader} {bytes output content : List UInt8} {original : String}
  {bins : List HiveBin} {last : ℕ} {value old : HiveCell} {entry : SetupEntry}

theorem length_le_of_checkedHive {hive : Except String SetupEntry}
    (h : checkedHive reader bytes = .ok hive) :
    bytes.length ≤ maxHiveBytes ∧ reader.fromBytes bytes = .ok hive := by
  rw [checkedHive] at h
  split_ifs at h with hsize
  exact ⟨Nat.le_of_not_lt (not_or.mp hsize).2, mapError_eq_ok_iff.mp h⟩

/-- A patch of a value that the reader found. -/
theorem exists_cellsPatched_of_writeSetupCmdline (h : IsHive bytes bins last)
    (hlocates : LocatesSetup reader bytes bins value old)
    (hentry : reader.fromBytes bytes = .ok (.ok entry)) (hbytes : bytes.length ≤ maxHiveBytes)
    (hlength : content.length < 2 ^ 32)
    (hwrite : writeSetupCmdline bytes entry content = .ok output) :
    ∃ new, CellsPatched bytes output bins last value old new content := by
  obtain ⟨found, hfound, hvalueStart, hdata⟩ := hlocates.exists_entry
  obtain rfl : entry = found := Except.ok.inj (Except.ok.inj (hentry.symm.trans hfound))
  simp only [writeSetupCmdline, bind_eq_ok_iff, check_eq_ok_iff, sliceBytes_eq_ok_iff] at hwrite
  obtain ⟨hresident, -, word, hword, -, ⟨target, moved⟩, hprepare, hstore⟩ := hwrite
  obtain ⟨holdStart, hoffset⟩ := hdata (Bool.eq_false_of_not_eq_true hresident)
  rw [← hvalueStart] at hprepare hstore
  rw [← holdStart] at hword hprepare
  have holdReads := h.reads_of_mem hlocates.old_mem
  have holdHeader : cellHeader bytes old.start = some (-(old.size : ℤ)) := by
    rw [holdReads.header, hlocates.old_allocated, if_pos rfl]
  have habs : (i32FromLE word).natAbs = old.size := by
    rw [cellHeader, hword] at holdHeader
    rw [Option.some.inj holdHeader, Int.natAbs_neg, Int.natAbs_natCast]
  rw [habs, prepareCell] at hprepare
  have holdSize := holdReads.le_size
  have hvalueSize := hlocates.le_size
  have hvalueBounds := h.bounds hlocates.value_mem
  have holdBounds := h.bounds hlocates.old_mem
  have hapart := (h.cell_disjoint hlocates.value_mem hlocates.old_mem).resolve_left hlocates.ne
  have hlast := h.le_length
  split_ifs at hprepare with hfits
  · obtain ⟨rfl, rfl⟩ := Prod.mk.inj (Except.ok.inj hprepare)
    refine ⟨old, cellsPatched_of_dataStored h hlocates.value_mem hlocates.old_mem hlocates.ne
      hlocates.old_allocated hvalueSize (by omega) ?_ (dataStored_of_storeData holdHeader ?_
      (by omega) (by omega) (by omega) (by omega) hlength hstore)⟩
    · rw [hoffset, holdStart, Nat.add_sub_cancel_left]
    · rw [Int.natAbs_neg, Int.natAbs_natCast]
  · have hmem {free : ℕ} (hfind : findFreeCell bytes ((content.length + 4 + 7) / 8 * 8) =
        .ok (some free)) := h.mem_of_findFreeCell hfind
    have hvalueFree {free freeSize : ℕ} (hfind : findFreeCell bytes
        ((content.length + 4 + 7) / 8 * 8) = .ok (some free))
        (hfree : IsFreeCell bytes free freeSize) :=
      h.allocated_apart_of_isFreeCell hfree (hmem hfind) hlocates.value_mem hlocates.value_allocated
    have holdFree {free freeSize : ℕ} (hfind : findFreeCell bytes
        ((content.length + 4 + 7) / 8 * 8) = .ok (some free))
        (hfree : IsFreeCell bytes free freeSize) :=
      h.allocated_apart_of_isFreeCell hfree (hmem hfind) hlocates.old_mem hlocates.old_allocated
    have hmax : bytes.length < 2 ^ 31 := by
      rw [maxHiveBytes] at hbytes
      omega
    obtain ⟨hfind, freeSize, hfree, hrequired, hmoved⟩ :=
      exists_dataMoved_of_moveData hmax (holdBounds.2.trans hlast)
        (fun free freeSize hfind hfree =>
          ⟨holdSize, by omega, by have := hvalueFree hfind hfree; omega, holdFree hfind hfree⟩)
        hprepare
    have hle := (exists_isFreeCell_of_findFreeCell hfind).1
    have hvalueTarget := hvalueFree hfind hfree
    refine ⟨_, DataRelocated.cellsPatched ⟨h, hlocates.value_mem, hlocates.old_mem, hlocates.ne,
      hlocates.value_allocated, hlocates.old_allocated, hvalueSize, hfree, hmem hfind, by omega,
      hrequired, Nat.mul_mod_left _ _, by omega, hmoved, dataStored_of_storeData hmoved.newHeader
      ?_ (by omega) (by omega) (by omega) (by omega) hlength hstore⟩⟩
    rw [Int.natAbs_neg, Int.natAbs_natCast]

/-- What a successful call has done, unless the value was the shell already. -/
theorem exists_writeSetupCmdline_of_replaceSetupCmdline
    (h : replaceSetupCmdline reader bytes = .ok (original, output)) (hchanged : output ≠ bytes) :
    bytes.length ≤ maxHiveBytes ∧ (∃ entry, reader.fromBytes bytes = .ok (.ok entry) ∧
      writeSetupCmdline bytes entry (utf16 agentShell) = .ok output) ∧
      setupCmdline reader output = .ok agentShell := by
  simp only [replaceSetupCmdline, bind_eq_ok_iff] at h
  obtain ⟨hive, hhive, text, -, h⟩ := h
  obtain ⟨hbytes, hread⟩ := length_le_of_checkedHive hhive
  split_ifs at h
  · exact absurd (Prod.mk.inj (Except.ok.inj h)).2.symm hchanged
  · simp only [bind_eq_ok_iff, check_eq_ok_iff, mapError_eq_ok_iff] at h
    obtain ⟨entry, rfl, written, hwrite, shell, hshell, hverified, heq⟩ := h
    obtain ⟨rfl, rfl⟩ := Prod.mk.inj (Except.ok.inj heq)
    rw [not_not] at hverified
    exact ⟨hbytes, ⟨entry, hread, hwrite⟩, by rw [hshell, hverified]⟩

/-- A second call changes nothing. -/
theorem replaceSetupCmdline_of_setupCmdline (h : setupCmdline reader bytes = .ok agentShell) :
    replaceSetupCmdline reader bytes = .ok (agentShell, bytes) := by
  have hread := h
  simp only [setupCmdline, bind_eq_ok_iff] at hread
  obtain ⟨hive, hhive, -⟩ := hread
  have hsame : Text.eqIgnoreAsciiCase agentShell agentShell = true :=
    Text.eqIgnoreAsciiCase_iff.mpr rfl
  simp only [replaceSetupCmdline, bind_eq_ok_iff]
  refine ⟨hive, hhive, agentShell, h, ?_⟩
  rw [if_pos hsame]

theorem length_utf16_agentShell : (utf16 agentShell).length = 86 := by decide +kernel

end Result

/-! ### The patched hive -/

/-- A hive that was patched: `new` is the cell of the data, whose record says so, the value reads
back as the shell, and a second patch changes nothing. -/
structure HivePatched (reader : HiveReader) (bytes output : List UInt8) (bins : List HiveBin)
    (last : ℕ) (value old : HiveCell) : Prop where
  length_eq : output.length = bytes.length
  exists_cell : ∃ new, (∀ j, output[j]? ≠ bytes[j]? → PatchedByte bytes value old new j) ∧
    IsHive output (bins.map (HiveBin.retile old new)) last ∧
    HoldsData output value new (utf16 agentShell)
  exists_checksum : ∃ header checksum, slice output 0 508 = some header ∧
    slice output 508 512 = some (writeLE 4 checksum.toNat) ∧
    IsHeaderChecksum header checksum ∧ checksum ≠ 0 ∧ checksum ≠ 0xFFFFFFFF
  readsBack : setupCmdline reader output = .ok agentShell
  idempotent : replaceSetupCmdline reader output = .ok (agentShell, output)

/-- Every successful patch of a well-formed hive that changes it leaves a well-formed hive. -/
theorem hivePatched_of_replaceSetupCmdline {reader : HiveReader} {bytes output : List UInt8}
    {original : String} {bins : List HiveBin} {last : ℕ} {value old : HiveCell}
    (hhive : IsHive bytes bins last) (hlocates : LocatesSetup reader bytes bins value old)
    (h : replaceSetupCmdline reader bytes = .ok (original, output)) (hchanged : output ≠ bytes) :
    HivePatched reader bytes output bins last value old := by
  obtain ⟨hbytes, ⟨entry, hentry, hwrite⟩, hshell⟩ :=
    exists_writeSetupCmdline_of_replaceSetupCmdline h hchanged
  obtain ⟨new, hpatched⟩ := exists_cellsPatched_of_writeSetupCmdline hhive hlocates hentry hbytes
    (by rw [length_utf16_agentShell]; omega) hwrite
  obtain ⟨header, checksum, hheader, hstored, hchecksum⟩ := hpatched.checksum
  refine ⟨hpatched.frame.length_eq, ⟨new, fun j hj => ?_, hpatched.hive, hpatched.holds⟩,
    ⟨header, checksum, hheader, hstored, hchecksum, hchecksum.ne_reserved⟩, hshell,
    replaceSetupCmdline_of_setupCmdline hshell⟩
  by_contra hpatch
  exact hj (hpatched.frame.getElem?_eq j hpatch)

/-! ### A hive -/

/-- The record of a key. -/
def keyRecord (flags parent subkeyCount subkeyList valueCount valueList : ℕ) (name : String) :
    List UInt8 :=
  [stringBytes "nk", writeLE 2 flags, List.replicate 12 0, writeLE 4 parent,
    writeLE 4 subkeyCount, writeLE 4 0, writeLE 4 subkeyList, writeLE 4 0xFFFFFFFF,
    writeLE 4 valueCount, writeLE 4 valueList, writeLE 4 0xFFFFFFFF, writeLE 4 0xFFFFFFFF,
    List.replicate 20 0, writeLE 2 (stringBytes name).length, writeLE 2 0, stringBytes name].flatten

/-- An allocated cell with a record. -/
def cellBytes (size : ℕ) (record : List UInt8) : List UInt8 :=
  i32ToLE (-(size : ℤ)) ++ (record ++ List.replicate (size - 4 - record.length) 0)

/-- A SYSTEM hive with the value `cmd.exe` and one free cell. -/
def labHive : List UInt8 :=
  let header := [stringBytes "regf", writeLE 4 1, writeLE 4 1, List.replicate 8 0, writeLE 4 1,
    writeLE 4 5, writeLE 4 0, writeLE 4 1, writeLE 4 32, writeLE 4 4096, writeLE 4 1,
    List.replicate 460 0].flatten
  [header, writeLE 4 (headerChecksum header).toNat, List.replicate 3584 0,
    stringBytes "hbin", writeLE 4 0, writeLE 4 4096, List.replicate 20 0,
    cellBytes 88 (keyRecord 0x2C 0xFFFFFFFF 1 120 0 0xFFFFFFFF "ROOT"),
    cellBytes 16 (stringBytes "lf" ++ writeLE 2 1 ++ writeLE 4 136 ++ stringBytes "Setu"),
    cellBytes 88 (keyRecord 0x20 32 0 0xFFFFFFFF 1 224 "Setup"),
    cellBytes 8 (writeLE 4 232),
    cellBytes 32 (stringBytes "vk" ++ writeLE 2 7 ++ writeLE 4 16 ++ writeLE 4 264 ++ writeLE 4 1 ++
      writeLE 2 1 ++ writeLE 2 0 ++ stringBytes "CmdLine"),
    cellBytes 24 (utf16 "cmd.exe"),
    i32ToLE 3808, List.replicate 3804 0].flatten

/-- The bin of the hive of the example, cell by cell. -/
def labBin : HiveBin :=
  ⟨4096, 4096, [⟨4128, 88, true⟩, ⟨4216, 16, true⟩, ⟨4232, 88, true⟩, ⟨4320, 8, true⟩,
    ⟨4328, 32, true⟩, ⟨4360, 24, true⟩, ⟨4384, 3808, false⟩]⟩

/-- The value that the list of values of the key `Setup` names. -/
def labSetupEntry (bytes : List UInt8) : Option SetupEntry := do
  let offset := readLE (← slice bytes 4324 4328)
  let length := readLE (← slice bytes (4096 + offset + 8) (4096 + offset + 12))
  let dataOffset := readLE (← slice bytes (4096 + offset + 12) (4096 + offset + 16))
  let data ← slice bytes (4096 + dataOffset + 4) (4096 + dataOffset + 4 + length)
  let text := (chunks 2 data.dropLast.dropLast).map fun unit => Char.ofNat (readLE unit)
  some ⟨UInt32.ofNat offset, UInt32.ofNat dataOffset, false, .ok (.string (String.ofList text))⟩

/-- A reader for hives with the keys of `labHive`. -/
def labHiveReader : HiveReader where
  fromBytes bytes := .ok ((labSetupEntry bytes).elim (.error "missing") .ok)

theorem isHive_labHive : IsHive labHive [labBin] 8192 := by
  have hcells : ∀ cell ∈ labBin.cells, cellHeader labHive cell.start =
      some (if cell.allocated then -(cell.size : ℤ) else cell.size) := by decide +kernel
  have hsizes : ∀ cell ∈ labBin.cells, 8 ≤ cell.size ∧ cell.size % 8 = 0 := by decide
  refine ⟨⟨rfl, rfl⟩, by decide +kernel, fun bin hbin => ?_⟩
  obtain rfl := List.mem_singleton.mp hbin
  refine ⟨by decide +kernel, by decide +kernel, by decide, ⟨rfl, rfl, rfl, rfl, rfl, rfl, rfl, rfl⟩,
    fun cell hcell => ⟨hcells cell hcell, (hsizes cell hcell).1, (hsizes cell hcell).2⟩⟩

theorem locatesSetup_labHive :
    LocatesSetup labHiveReader labHive [labBin] ⟨4328, 32, true⟩ ⟨4360, 24, true⟩ where
  exists_entry := ⟨⟨232, 264, false, .ok (.string "cmd.exe")⟩, by decide +kernel, by decide,
    fun _ => ⟨by decide, by decide +kernel⟩⟩
  value_mem := by decide
  old_mem := by decide
  ne := by decide
  value_allocated := rfl
  old_allocated := rfl
  le_size := by decide

theorem hivePatched_labHive : ∃ output,
    HivePatched labHiveReader labHive output [labBin] 8192 ⟨4328, 32, true⟩ ⟨4360, 24, true⟩ := by
  have hpatch : (replaceSetupCmdline labHiveReader labHive).toOption.any
      (fun result => result.2 != labHive) = true := by decide +kernel
  obtain ⟨⟨original, output⟩, hresult, hchanged⟩ := Option.any_eq_true _ _ |>.mp hpatch
  exact ⟨output, hivePatched_of_replaceSetupCmdline isHive_labHive locatesSetup_labHive
    (toOption_eq_some_iff.mp hresult) (bne_iff_ne.mp hchanged)⟩

end EasyDeployMesh
