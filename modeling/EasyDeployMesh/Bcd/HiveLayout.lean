import EasyDeployMesh.Bcd.Hive

/-!
# The layout of a hive

Behind its header a hive has bins without a gap between them, and behind its own header each bin has
cells. The walk of `find_free_cell` stays on the cells of a well-formed hive, so what it finds there
is one of them; it may also find a cell behind the last bin.

## Main definitions

* `EasyDeployMesh.HiveCell`, `EasyDeployMesh.HiveBin`, `EasyDeployMesh.IsHive`: the bins of a hive
  and their cells.

## Main results

* `EasyDeployMesh.IsHive.cell_disjoint`, `EasyDeployMesh.IsHive.binHeader_disjoint`: nothing
  overlaps.
* `EasyDeployMesh.exists_isFreeCell_of_findFreeCell`: what is found is a free cell.
* `EasyDeployMesh.IsHive.mem_of_findFreeCell`: it is a cell of a bin, or behind the bins.
-/

namespace EasyDeployMesh

open Foundations

/-! ### Buffers -/

section Buffers

variable {bytes output part : List UInt8} {first last : ℕ}

theorem sliceBytes_eq_ok_iff : sliceBytes bytes first last = .ok part ↔
    slice bytes first last = some part :=
  elim_eq_ok_iff

theorem copyFromSlice_eq_ok_iff : copyFromSlice bytes first part = .ok output ↔
    first + part.length ≤ bytes.length ∧ patch bytes first part = output := by
  rw [copyFromSlice]
  split_ifs with h <;> simp [h]

/-- What was copied is read back. -/
theorem slice_of_copyFromSlice (h : copyFromSlice bytes first part = .ok output)
    (hlast : first + part.length = last) : slice output first last = some part := by
  obtain ⟨hle, rfl⟩ := copyFromSlice_eq_ok_iff.mp h
  rw [← hlast]
  exact slice_patch hle

/-- What was not copied over is read as before. -/
theorem slice_eq_of_copyFromSlice {start : ℕ} (h : copyFromSlice bytes start part = .ok output)
    (hdisjoint : last ≤ start ∨ start + part.length ≤ first) :
    slice output first last = slice bytes first last := by
  obtain ⟨hle, rfl⟩ := copyFromSlice_eq_ok_iff.mp h
  exact slice_patch_of_disjoint hle hdisjoint

theorem fillZero_eq_ok_iff : fillZero bytes first last = .ok output ↔
    first ≤ last ∧ copyFromSlice bytes first (List.replicate (last - first) 0) = .ok output := by
  rw [fillZero]
  split_ifs with h <;> simp [h]

variable {original : List UInt8} {changed : ℕ → Prop}

/-- Copying changes what it overwrites. -/
theorem eqOutside_of_copyFromSlice (h : EqOutside changed original bytes)
    (hcopy : copyFromSlice bytes first part = .ok output)
    (hchanged : ∀ j, first ≤ j → j < first + part.length → changed j) :
    EqOutside changed original output := by
  obtain ⟨hle, rfl⟩ := copyFromSlice_eq_ok_iff.mp hcopy
  exact h.patch (by rwa [← h.length_eq]) hchanged

end Buffers

/-! ### Bins and cells -/

/-- One cell of a bin: where it starts, its length and whether it is allocated. -/
structure HiveCell where
  start : ℕ
  size : ℕ
  allocated : Bool
  deriving DecidableEq, Repr

/-- One bin of a hive with the cells that tile it. -/
structure HiveBin where
  start : ℕ
  size : ℕ
  cells : List HiveCell
  deriving DecidableEq, Repr

/-- The number in the header of a cell. -/
def cellHeader (bytes : List UInt8) (start : ℕ) : Option ℤ :=
  (slice bytes start (start + 4)).map i32FromLE

/-- The header of a cell: the size is negative in an allocated cell. -/
structure HiveCell.Reads (bytes : List UInt8) (cell : HiveCell) : Prop where
  header : cellHeader bytes cell.start =
    some (if cell.allocated then -(cell.size : ℤ) else cell.size)
  le_size : 8 ≤ cell.size
  mod_size : cell.size % 8 = 0

/-- A bin: its header, and cells from there to its end. -/
structure HiveBin.Reads (bytes : List UInt8) (bin : HiveBin) : Prop where
  signature : slice bytes bin.start (bin.start + 4) = some (stringBytes "hbin")
  header : (slice bytes (bin.start + 8) (bin.start + 12)).map readLE = some bin.size
  le_size : 32 ≤ bin.size
  tiles : Tiles HiveCell.start HiveCell.size (bin.start + 32) bin.cells (bin.start + bin.size)
  cells : ∀ cell ∈ bin.cells, cell.Reads bytes

/-- The bins of a hive end at `last`. -/
structure IsHive (bytes : List UInt8) (bins : List HiveBin) (last : ℕ) : Prop where
  tiles : Tiles HiveBin.start HiveBin.size regfHeaderBytes bins last
  le_length : last ≤ bytes.length
  bins : ∀ bin ∈ bins, bin.Reads bytes

/-- The cells of all bins. -/
def hiveCells (bins : List HiveBin) : List HiveCell := bins.flatMap HiveBin.cells

namespace IsHive

variable {bytes : List UInt8} {bins : List HiveBin} {last : ℕ} {cell other : HiveCell}

theorem reads_of_mem (h : IsHive bytes bins last) (hcell : cell ∈ hiveCells bins) :
    cell.Reads bytes := by
  obtain ⟨bin, hbin, hmem⟩ := List.mem_flatMap.mp hcell
  exact (h.bins bin hbin).cells cell hmem

theorem bounds (h : IsHive bytes bins last) (hcell : cell ∈ hiveCells bins) :
    regfHeaderBytes + 32 ≤ cell.start ∧ cell.start + cell.size ≤ last := by
  obtain ⟨bin, hbin, hmem⟩ := List.mem_flatMap.mp hcell
  have houter := h.tiles.bounds.2 bin hbin
  have hinner := (h.bins bin hbin).tiles.bounds.2 cell hmem
  omega

/-- Two cells are the same or do not overlap. -/
theorem cell_disjoint (h : IsHive bytes bins last) (hcell : cell ∈ hiveCells bins)
    (hother : other ∈ hiveCells bins) :
    cell = other ∨ cell.start + cell.size ≤ other.start ∨
      other.start + other.size ≤ cell.start := by
  obtain ⟨bin, hbin, hmem⟩ := List.mem_flatMap.mp hcell
  obtain ⟨bin', hbin', hmem'⟩ := List.mem_flatMap.mp hother
  have hin := (h.bins bin hbin).tiles.bounds.2 cell hmem
  have hin' := (h.bins bin' hbin').tiles.bounds.2 other hmem'
  rcases h.tiles.disjoint hbin hbin' with rfl | hlt | hlt
  · exact (h.bins bin hbin).tiles.disjoint hmem hmem'
  · exact .inr (.inl (by omega))
  · exact .inr (.inr (by omega))

/-- The cells with one start are the same. -/
theorem eq_of_start_eq (h : IsHive bytes bins last) (hcell : cell ∈ hiveCells bins)
    (hother : other ∈ hiveCells bins) (hstart : cell.start = other.start) : cell = other := by
  have hpos := (h.reads_of_mem hcell).le_size
  have hpos' := (h.reads_of_mem hother).le_size
  rcases h.cell_disjoint hcell hother with heq | hlt | hlt
  · exact heq
  · omega
  · omega

/-- The header of a bin is no part of a cell. -/
theorem binHeader_disjoint (h : IsHive bytes bins last) {bin : HiveBin} (hbin : bin ∈ bins)
    (hcell : cell ∈ hiveCells bins) :
    bin.start + 32 ≤ cell.start ∨ cell.start + cell.size ≤ bin.start := by
  obtain ⟨bin', hbin', hmem'⟩ := List.mem_flatMap.mp hcell
  have hin := (h.bins bin' hbin').tiles.bounds.2 cell hmem'
  have hsize := (h.bins bin hbin).le_size
  rcases h.tiles.disjoint hbin hbin' with rfl | hlt | hlt
  · exact .inl hin.1
  · exact .inl (by omega)
  · exact .inr (by omega)

end IsHive

/-! ### Free cells -/

/-- A free cell, wherever it is in the buffer. -/
structure IsFreeCell (bytes : List UInt8) (start size : ℕ) : Prop where
  header : cellHeader bytes start = some (size : ℤ)
  le_size : 8 ≤ size
  mod_size : size % 8 = 0
  le_length : start + size ≤ bytes.length

section FreeCells

variable {bytes : List UInt8} {required first last free : ℕ}

/-- The header that the walk reads. -/
private theorem cellHeader_of_sliceBytes {start : ℕ} {signed : ℤ}
    (h : (sliceBytes bytes start (start + 4)).map i32FromLE = .ok signed) :
    cellHeader bytes start = some signed := by
  obtain ⟨word, hword, rfl⟩ := map_eq_ok_iff.mp h
  rw [cellHeader, sliceBytes_eq_ok_iff.mp hword]
  rfl

/-- What the walk over the cells of a bin finds. -/
theorem exists_isFreeCell_of_walkCells (hlast : last ≤ bytes.length)
    (h : walkCells bytes required last first = .ok (.found free)) :
    first ≤ free ∧ ∃ size, IsFreeCell bytes free size ∧ required ≤ size := by
  induction hk : last - first using Nat.strong_induction_on generalizing first with
  | h k ih =>
    rw [walkCells] at h
    split at h
    · simp at h
    · split at h
      · simp at h
      next signed hsigned =>
        split at h
        · simp at h
        · split at h
          · simp at h
          · split at h
            next hfree =>
              obtain rfl := CellWalk.found.inj (Except.ok.inj h)
              refine ⟨le_rfl, signed.natAbs, ⟨?_, by omega, by omega, by omega⟩, hfree.2⟩
              rw [cellHeader_of_sliceBytes hsigned]
              exact congrArg some (by omega)
            next =>
              obtain ⟨hle, hfound⟩ := ih _ (by omega) h rfl
              exact ⟨by omega, hfound⟩

theorem exists_isFreeCell_of_walkBins (h : walkBins bytes required first = .ok (some free)) :
    first + 32 ≤ free ∧ ∃ size, IsFreeCell bytes free size ∧ required ≤ size := by
  induction hk : bytes.length - first using Nat.strong_induction_on generalizing first with
  | h k ih =>
    rw [walkBins] at h
    split at h
    · simp at h
    · split at h
      · simp at h
      · split at h
        · simp at h
        · split at h
          · simp at h
          · split at h
            · simp at h
            next hbin =>
              split at h
              · simp at h
              next hwalk =>
                obtain rfl := Option.some.inj (Except.ok.inj h)
                exact exists_isFreeCell_of_walkCells (by omega) hwalk
              · simp at h
              · split at h
                · simp at h
                · obtain ⟨hle, hfound⟩ := ih _ (by omega) h rfl
                  exact ⟨by omega, hfound⟩

/-- What is found is a free cell that is large enough. -/
theorem exists_isFreeCell_of_findFreeCell (h : findFreeCell bytes required = .ok (some free)) :
    regfHeaderBytes + 32 ≤ free ∧ ∃ size, IsFreeCell bytes free size ∧ required ≤ size :=
  exists_isFreeCell_of_walkBins h

/-- On cells that tile the rest of a bin, the walk finds one of them. -/
theorem mem_of_walkCells {cells : List HiveCell}
    (htiles : Tiles HiveCell.start HiveCell.size first cells last)
    (hreads : ∀ cell ∈ cells, cell.Reads bytes)
    (h : walkCells bytes required last first = .ok (.found free)) :
    ∃ cell ∈ cells, cell.start = free ∧ cell.allocated = false := by
  induction cells generalizing first with
  | nil =>
    obtain rfl : first = last := htiles
    rw [walkCells, if_pos (by omega)] at h
    simp at h
  | cons cell cells ih =>
    obtain ⟨rfl, hrest⟩ := htiles
    have hcell := hreads cell List.mem_cons_self
    have hsize := hcell.le_size
    have hbounds := hrest.bounds.1
    rw [walkCells, if_neg (by omega)] at h
    split at h
    · simp at h
    next signed hsigned =>
      have hheader := (cellHeader_of_sliceBytes hsigned).symm.trans hcell.header
      have habs : signed.natAbs = cell.size := by
        rw [Option.some.inj hheader]
        split_ifs <;> omega
      rw [habs] at h
      split at h
      · simp at h
      · split at h
        · simp at h
        · split at h
          next hfree =>
            refine ⟨cell, List.mem_cons_self, CellWalk.found.inj (Except.ok.inj h), ?_⟩
            by_contra hallocated
            have hsign := Option.some.inj hheader
            rw [if_pos (by simpa using hallocated)] at hsign
            omega
          next =>
            obtain ⟨found, hfound, hspec⟩ :=
              ih hrest (fun c hc => hreads c (List.mem_cons_of_mem _ hc)) h
            exact ⟨found, List.mem_cons_of_mem _ hfound, hspec⟩

theorem mem_of_walkBins {bins : List HiveBin}
    (htiles : Tiles HiveBin.start HiveBin.size first bins last)
    (hreads : ∀ bin ∈ bins, bin.Reads bytes)
    (h : walkBins bytes required first = .ok (some free)) :
    (∃ cell ∈ hiveCells bins, cell.start = free ∧ cell.allocated = false) ∨ last ≤ free := by
  induction bins generalizing first with
  | nil =>
    obtain rfl : first = last := htiles
    exact .inr (by have := (exists_isFreeCell_of_walkBins h).1; omega)
  | cons bin bins ih =>
    obtain ⟨rfl, hrest⟩ := htiles
    have hbin := hreads bin List.mem_cons_self
    rw [walkBins] at h
    split at h
    · simp at h
    · split at h
      · simp at h
      · split at h
        · simp at h
        · split at h
          · simp at h
          next binSize hsize =>
            have hbinSize : binSize = bin.size := by
              obtain ⟨word, hword, rfl⟩ := map_eq_ok_iff.mp hsize
              have hheader := hbin.header
              rw [sliceBytes_eq_ok_iff.mp hword] at hheader
              exact Option.some.inj hheader
            subst hbinSize
            split at h
            · simp at h
            · split at h
              · simp at h
              next hwalk =>
                obtain rfl := Option.some.inj (Except.ok.inj h)
                obtain ⟨cell, hcell, hspec⟩ := mem_of_walkCells hbin.tiles hbin.cells hwalk
                exact .inl ⟨cell, List.mem_flatMap.mpr ⟨bin, List.mem_cons_self, hcell⟩, hspec⟩
              · simp at h
              · split at h
                · simp at h
                · rcases ih hrest (fun b hb => hreads b (List.mem_cons_of_mem _ hb)) h with
                    ⟨cell, hcell, hspec⟩ | hbehind
                  · obtain ⟨b, hb, hmem⟩ := List.mem_flatMap.mp hcell
                    exact .inl ⟨cell,
                      List.mem_flatMap.mpr ⟨b, List.mem_cons_of_mem _ hb, hmem⟩, hspec⟩
                  · exact .inr hbehind

/-- What is found is a free cell of a bin, or lies behind the bins. -/
theorem IsHive.mem_of_findFreeCell {bins : List HiveBin} (h : IsHive bytes bins last)
    (hfind : findFreeCell bytes required = .ok (some free)) :
    (∃ cell ∈ hiveCells bins, cell.start = free ∧ cell.allocated = false) ∨ last ≤ free :=
  mem_of_walkBins h.tiles h.bins hfind

end FreeCells

end EasyDeployMesh
