import EasyDeployMesh.Bcd.HiveLayout

/-!
# The search for a free cell

`find_free_cell` of `crates/bcd` on an arbitrary buffer. The search walks over the bins and, in each
bin, over the cells, by the sizes that it reads; it goes on only from a bin or a cell that lies in
the buffer and is not empty, so it ends and no read leaves the buffer. What it has walked over are
bins and cells without a gap, none of which is free and large enough; so the cell that it returns is
the first one.

## Main definitions

* `EasyDeployMesh.HiveCell.Suits`: a cell is free and large enough.
* `EasyDeployMesh.IsFirstFit`: a cell is the first one, in its bin, that suits.

## Main results

* `EasyDeployMesh.findFreeCell_isFirstFit`: the search ends, and returns the first cell that suits.
-/

namespace EasyDeployMesh

open Foundations

/-- The cell is free and has the required size. -/
def HiveCell.Suits (required : ℕ) (cell : HiveCell) : Prop :=
  cell.allocated = false ∧ required ≤ cell.size

/-- Cells from `first` to `last`, without a gap, none of which suits. -/
structure CellsPassed (bytes : List UInt8) (required first : ℕ) (cells : List HiveCell) (last : ℕ) :
    Prop where
  tiles : Tiles HiveCell.start HiveCell.size first cells last
  reads : ∀ cell ∈ cells, cell.Reads bytes
  unfit : ∀ cell ∈ cells, ¬ cell.Suits required

/-- Bins from `first` to `last`, without a gap, none of whose cells suits. -/
structure BinsPassed (bytes : List UInt8) (required first : ℕ) (bins : List HiveBin) (last : ℕ) :
    Prop where
  tiles : Tiles HiveBin.start HiveBin.size first bins last
  reads : ∀ bin ∈ bins, bin.Reads bytes
  unfit : ∀ cell ∈ hiveCells bins, ¬ cell.Suits required

/-- A bin of the buffer as its header describes it, whatever its cells are. -/
structure BinHeader (bytes : List UInt8) (start size : ℕ) : Prop where
  signature : slice bytes start (start + 4) = some (stringBytes "hbin")
  header : (slice bytes (start + 8) (start + 12)).map readLE = some size
  le_size : 32 ≤ size
  le_length : start + size ≤ bytes.length

/-- The cell suits and lies in the bin at `start`; the bins before this one and the cells before the
cell are passed over, from the first bin on. -/
structure IsFirstFit (bytes : List UInt8) (required : ℕ) (bins : List HiveBin) (start size : ℕ)
    (cells : List HiveCell) (cell : HiveCell) : Prop where
  bins : BinsPassed bytes required regfHeaderBytes bins start
  bin : BinHeader bytes start size
  cells : CellsPassed bytes required (start + 32) cells cell.start
  reads : cell.Reads bytes
  suits : cell.Suits required
  inside : start + 32 ≤ cell.start ∧ cell.start + cell.size ≤ start + size

/-! ### The cells of a bin -/

section Cells

variable {bytes : List UInt8} {required first last : ℕ} {cells : List HiveCell} {cell : HiveCell}

theorem CellsPassed.nil : CellsPassed bytes required first [] first :=
  ⟨rfl, fun _ h => absurd h List.not_mem_nil, fun _ h => absurd h List.not_mem_nil⟩

theorem CellsPassed.cons (hreads : cell.Reads bytes) (hunfit : ¬ cell.Suits required)
    (h : CellsPassed bytes required (cell.start + cell.size) cells last) :
    CellsPassed bytes required cell.start (cell :: cells) last where
  tiles := ⟨rfl, h.tiles⟩
  reads := List.forall_mem_cons.2 ⟨hreads, h.reads⟩
  unfit := List.forall_mem_cons.2 ⟨hunfit, h.unfit⟩

/-- How the walk over the cells of a bin ends. -/
def WalkedCells (bytes : List UInt8) (required first last : ℕ) : CellWalk → Prop
  | .found free => ∃ (cells : List HiveCell) (cell : HiveCell),
      CellsPassed bytes required first cells free ∧ cell.start = free ∧ cell.Reads bytes ∧
        cell.Suits required ∧ free + cell.size ≤ last
  | .malformed => True
  | .ended stop => ∃ cells, CellsPassed bytes required first cells stop

/-- A cell that is walked over comes first in what is walked over. -/
theorem WalkedCells.cons {walk : CellWalk} (hreads : cell.Reads bytes)
    (hunfit : ¬ cell.Suits required)
    (h : WalkedCells bytes required (cell.start + cell.size) last walk) :
    WalkedCells bytes required cell.start last walk := by
  cases walk with
  | found free =>
    obtain ⟨cells, found, hpassed, hfound⟩ := h
    exact ⟨cell :: cells, found, hpassed.cons hreads hunfit, hfound⟩
  | malformed => trivial
  | ended stop =>
    obtain ⟨cells, hpassed⟩ := h
    exact ⟨cell :: cells, hpassed.cons hreads hunfit⟩

/-- The header of a cell of the walk. -/
private theorem reads_of_header {signed : ℤ} (hheader : cellHeader bytes first = some signed)
    (hsize : ¬ (signed.natAbs < 8 ∨ signed.natAbs % 8 ≠ 0 ∨ last < first + signed.natAbs)) :
    HiveCell.Reads bytes ⟨first, signed.natAbs, decide (signed < 0)⟩ where
  header := by
    rw [hheader]
    by_cases hneg : signed < 0
    · rw [decide_eq_true hneg, if_pos rfl]
      refine congrArg some ?_
      show signed = -(signed.natAbs : ℤ)
      omega
    · rw [decide_eq_false hneg, if_neg Bool.false_ne_true]
      refine congrArg some ?_
      show signed = (signed.natAbs : ℤ)
      omega
  le_size := by
    show 8 ≤ signed.natAbs
    omega
  mod_size := by
    show signed.natAbs % 8 = 0
    omega

/-- The walk over the cells of a bin ends inside the buffer. -/
theorem exists_walkCells (hlast : last ≤ bytes.length) :
    ∃ walk, walkCells bytes required last first = .ok walk ∧
      WalkedCells bytes required first last walk := by
  induction hk : last - first using Nat.strong_induction_on generalizing first with
  | h k ih =>
    rw [walkCells]
    by_cases hend : last < first + 4
    · rw [if_pos hend]
      exact ⟨_, rfl, [], CellsPassed.nil⟩
    · rw [if_neg hend]
      obtain ⟨word, hword, -⟩ := exists_slice (l := bytes) (Nat.le_add_right first 4) (by omega)
      have hheader : cellHeader bytes first = some (i32FromLE word) := by
        rw [cellHeader, hword]
        rfl
      rw [sliceBytes_eq_ok_iff.2 hword]
      dsimp only [Except.map]
      generalize i32FromLE word = signed at hheader
      by_cases hzero : signed = -2 ^ 31 ∨ signed = 0
      · rw [if_pos hzero]
        exact ⟨_, rfl, trivial⟩
      · rw [if_neg hzero]
        by_cases hsize : signed.natAbs < 8 ∨ signed.natAbs % 8 ≠ 0 ∨ last < first + signed.natAbs
        · rw [if_pos hsize]
          exact ⟨_, rfl, trivial⟩
        · rw [if_neg hsize]
          have hreads := reads_of_header hheader hsize
          by_cases hfree : 0 < signed ∧ required ≤ signed.natAbs
          · rw [if_pos hfree]
            refine ⟨_, rfl, [], _, CellsPassed.nil, rfl, hreads, ⟨?_, hfree.2⟩, ?_⟩
            · exact decide_eq_false (by omega)
            · show first + signed.natAbs ≤ last
              omega
          · rw [if_neg hfree]
            obtain ⟨walk, hwalk, hwalked⟩ := @ih _ (by omega) (first + signed.natAbs) rfl
            refine ⟨walk, hwalk, hwalked.cons hreads ?_⟩
            rintro ⟨hallocated, hlarge⟩
            have hneg : ¬ signed < 0 := of_decide_eq_false hallocated
            exact hfree ⟨by omega, hlarge⟩

end Cells

/-! ### The bins -/

section Bins

variable {bytes : List UInt8} {required first last : ℕ} {bins : List HiveBin} {bin : HiveBin}

theorem BinsPassed.nil : BinsPassed bytes required first [] first :=
  ⟨rfl, fun _ h => absurd h List.not_mem_nil, fun _ h => absurd h List.not_mem_nil⟩

theorem BinsPassed.cons (hreads : bin.Reads bytes)
    (hunfit : ∀ cell ∈ bin.cells, ¬ cell.Suits required)
    (h : BinsPassed bytes required (bin.start + bin.size) bins last) :
    BinsPassed bytes required bin.start (bin :: bins) last where
  tiles := ⟨rfl, h.tiles⟩
  reads := List.forall_mem_cons.2 ⟨hreads, h.reads⟩
  unfit cell hcell := by
    rw [hiveCells, List.flatMap_cons] at hcell
    rcases List.mem_append.1 hcell with hcell | hcell
    · exact hunfit cell hcell
    · exact h.unfit cell hcell

/-- The first cell that suits, from the bin at `first` on. -/
def FirstFitFrom (bytes : List UInt8) (required first free : ℕ) : Prop :=
  ∃ (bins : List HiveBin) (start size : ℕ) (cells : List HiveCell) (cell : HiveCell),
    BinsPassed bytes required first bins start ∧ BinHeader bytes start size ∧
      CellsPassed bytes required (start + 32) cells free ∧ cell.start = free ∧
      cell.Reads bytes ∧ cell.Suits required ∧ free + cell.size ≤ start + size

theorem exists_walkBins : ∃ found, walkBins bytes required first = .ok found ∧
    ∀ free ∈ found, FirstFitFrom bytes required first free := by
  induction hk : bytes.length - first using Nat.strong_induction_on generalizing first with
  | h k ih =>
    rw [walkBins]
    by_cases hend : bytes.length < first + 32
    · rw [if_pos hend]
      exact ⟨none, rfl, fun free h => by cases h⟩
    · rw [if_neg hend]
      obtain ⟨signature, hsignature, -⟩ :=
        exists_slice (l := bytes) (Nat.le_add_right first 4) (by omega)
      rw [sliceBytes_eq_ok_iff.2 hsignature]
      dsimp only
      by_cases hbin : signature ≠ stringBytes "hbin"
      · rw [if_pos hbin]
        exact ⟨none, rfl, fun free h => by cases h⟩
      · rw [if_neg hbin]
        obtain ⟨word, hword, -⟩ :=
          exists_slice (l := bytes) (Nat.add_le_add_left (by decide : 8 ≤ 12) first) (by omega)
        rw [sliceBytes_eq_ok_iff.2 hword]
        dsimp only [Except.map]
        generalize hsize : readLE word = binSize
        by_cases hmalformed : binSize < 32 ∨ bytes.length < first + binSize
        · rw [if_pos hmalformed]
          exact ⟨none, rfl, fun free h => by cases h⟩
        · rw [if_neg hmalformed]
          have hheader : BinHeader bytes first binSize := by
            refine ⟨?_, ?_, by omega, by omega⟩
            · rw [hsignature, not_not.1 hbin]
            · rw [hword, Option.map_some, hsize]
          have hlast : first + binSize ≤ bytes.length := by omega
          obtain ⟨walk, hwalk, hwalked⟩ : ∃ walk,
              walkCells bytes required (first + binSize) (first + 32) = .ok walk ∧
                WalkedCells bytes required (first + 32) (first + binSize) walk :=
            exists_walkCells hlast
          rw [hwalk]
          cases walk with
          | found free =>
            obtain ⟨cells, cell, hpassed, hstart, hreads, hsuits, hinside⟩ := hwalked
            refine ⟨some free, rfl, ?_⟩
            rintro _ ⟨⟩
            exact ⟨[], first, binSize, cells, cell, BinsPassed.nil, hheader, hpassed,
              hstart, hreads,
              hsuits, hinside⟩
          | malformed => exact ⟨none, rfl, fun free h => by cases h⟩
          | ended stop =>
            obtain ⟨cells, hpassed⟩ := hwalked
            dsimp only
            by_cases hgap : stop ≠ first + binSize
            · rw [if_pos hgap]
              exact ⟨none, rfl, fun free h => by cases h⟩
            · rw [if_neg hgap]
              obtain rfl : stop = first + binSize := not_not.1 hgap
              -- the whole bin is passed over
              have hreads : HiveBin.Reads bytes ⟨first, binSize, cells⟩ :=
                ⟨hheader.signature, hheader.header, hheader.le_size, hpassed.tiles, hpassed.reads⟩
              obtain ⟨found, hfound, hfirst⟩ := @ih _ (by omega) (first + binSize) rfl
              refine ⟨found, hfound, fun free hfree => ?_⟩
              obtain ⟨bins, start, size, before, cell, hbins, hrest⟩ := hfirst free hfree
              exact ⟨_ :: bins, start, size, before, cell, hbins.cons hreads hpassed.unfit, hrest⟩

/-- For every buffer and every size the search ends inside the buffer, and what it returns is the
first free cell of the size, in the order of the bins and of their cells; the cell lies in its
bin. -/
theorem findFreeCell_isFirstFit (bytes : List UInt8) (required : ℕ) :
    ∃ found, findFreeCell bytes required = .ok found ∧ ∀ free ∈ found,
      ∃ bins start size cells cell, cell.start = free ∧
        IsFirstFit bytes required bins start size cells cell := by
  obtain ⟨found, hfound, hfirst⟩ : ∃ found, walkBins bytes required regfHeaderBytes = .ok found ∧
      ∀ free ∈ found, FirstFitFrom bytes required regfHeaderBytes free := exists_walkBins
  refine ⟨found, hfound, fun free hfree => ?_⟩
  obtain ⟨bins, start, size, cells, cell, hbins, hbin, hcells, rfl, hreads, hsuits, hinside⟩ :=
    hfirst free hfree
  exact ⟨bins, start, size, cells, cell, rfl, hbins, hbin, hcells, hreads, hsuits,
    hcells.tiles.bounds.1, hinside⟩

end Bins

end EasyDeployMesh
