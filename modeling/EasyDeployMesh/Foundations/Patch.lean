import EasyDeployMesh.Foundations.Network

/-!
# Patches and tilings

A part of a buffer is overwritten in place, and what is read elsewhere stays the same. An interval
is tiled by pieces that follow each other without a gap; if each piece is replaced by pieces that
tile it, the new pieces tile the interval again.

## Main definitions

* `Foundations.patch`: a part of a list is overwritten.
* `Foundations.EqOutside`: two lists agree outside a set of positions.
* `Foundations.Tiles`: pieces tile an interval.

## Main results

* `Foundations.slice_patch`, `Foundations.slice_patch_of_disjoint`: reading from a patched list.
* `Foundations.EqOutside.patch`, `Foundations.EqOutside.slice_eq`: the frame of patches.
* `Foundations.Tiles.disjoint`, `Foundations.Tiles.flatMap`: pieces do not overlap, and can be
  replaced one by one.
-/

namespace Foundations

/-! ### Patches -/

section Patch

variable {α : Type} {l l' part : List α} {i first last : ℕ}

/-- The elements of a list from a position on are overwritten. -/
def patch : List α → ℕ → List α → List α
  | l, 0, part => part ++ l.drop part.length
  | [], _ + 1, _ => []
  | a :: l, i + 1, part => a :: patch l i part

theorem patch_eq (h : i ≤ l.length) :
    patch l i part = l.take i ++ part ++ l.drop (i + part.length) := by
  induction l generalizing i with
  | nil =>
    obtain rfl : i = 0 := Nat.le_zero.mp h
    rw [patch, List.take_zero, List.nil_append, Nat.zero_add]
  | cons a l ih =>
    cases i with
    | zero => rw [patch, List.take_zero, List.nil_append, Nat.zero_add]
    | succ i =>
      rw [patch, ih (Nat.le_of_succ_le_succ h), List.take_succ_cons, List.cons_append,
        List.cons_append, Nat.succ_add, List.drop_succ_cons]

theorem length_patch (h : i + part.length ≤ l.length) : (patch l i part).length = l.length := by
  rw [patch_eq (by omega), List.length_append, List.length_append, List.length_take,
    List.length_drop]
  omega

theorem getElem?_patch_of_notMem {j : ℕ} (h : i + part.length ≤ l.length)
    (hj : j < i ∨ i + part.length ≤ j) : (patch l i part)[j]? = l[j]? := by
  have htake : (l.take i).length = i := by
    rw [List.length_take]
    omega
  rcases hj with hj | hj
  · rw [patch_eq (by omega), List.append_assoc, List.getElem?_append_left (by omega),
      List.getElem?_take_of_lt hj]
  · rw [patch_eq (by omega), List.getElem?_append_right (by rw [List.length_append]; omega),
      List.length_append, htake, List.getElem?_drop, Nat.add_sub_cancel' hj]

/-- A slice depends on its elements only. -/
theorem slice_congr (hlength : l.length = l'.length)
    (h : ∀ j, first ≤ j → j < last → l[j]? = l'[j]?) :
    slice l first last = slice l' first last := by
  rw [slice, slice, hlength]
  refine if_congr Iff.rfl (congrArg some (List.ext_getElem? fun k => ?_)) rfl
  rcases Nat.lt_or_ge k (last - first) with hk | hk
  · rw [List.getElem?_take_of_lt hk, List.getElem?_take_of_lt hk, List.getElem?_drop,
      List.getElem?_drop]
    exact h _ (Nat.le_add_right _ _) (by omega)
  · rw [List.getElem?_take_eq_none hk, List.getElem?_take_eq_none hk]

theorem length_of_slice (h : slice l first last = some part) : part.length = last - first := by
  rw [slice] at h
  split_ifs at h with hle
  rw [← Option.some.inj h, List.length_take, List.length_drop]
  omega

/-- What was written is read back. -/
theorem slice_patch (h : i + part.length ≤ l.length) :
    slice (patch l i part) i (i + part.length) = some part := by
  rw [patch_eq (by omega)]
  exact slice_append (by rw [List.length_take]; omega) (by rw [List.length_take]; omega)

theorem slice_patch_of_disjoint (h : i + part.length ≤ l.length)
    (hdisjoint : last ≤ i ∨ i + part.length ≤ first) :
    slice (patch l i part) first last = slice l first last :=
  slice_congr (length_patch h) fun j _ _ => getElem?_patch_of_notMem h (by omega)

end Patch

/-! ### Frames -/

section Frame

variable {α : Type} {l l' : List α} {changed : ℕ → Prop}

/-- Two lists of one length agree outside a set of positions. -/
structure EqOutside (changed : ℕ → Prop) (l l' : List α) : Prop where
  length_eq : l'.length = l.length
  getElem?_eq : ∀ j, ¬ changed j → l'[j]? = l[j]?

theorem EqOutside.refl (changed : ℕ → Prop) (l : List α) : EqOutside changed l l :=
  ⟨rfl, fun _ _ => rfl⟩

/-- Two changes after each other, both of positions in one set. -/
theorem EqOutside.trans {l'' : List α} {first second : ℕ → Prop} (h : EqOutside first l l')
    (h' : EqOutside second l' l'') (hfirst : ∀ j, first j → changed j)
    (hsecond : ∀ j, second j → changed j) : EqOutside changed l l'' where
  length_eq := h'.length_eq.trans h.length_eq
  getElem?_eq j hj := (h'.getElem?_eq j (mt (hsecond j) hj)).trans
    (h.getElem?_eq j (mt (hfirst j) hj))

/-- A patch changes what it overwrites. -/
theorem EqOutside.patch (h : EqOutside changed l l') {i : ℕ} {part : List α}
    (hlength : i + part.length ≤ l.length)
    (hchanged : ∀ j, i ≤ j → j < i + part.length → changed j) :
    EqOutside changed l (patch l' i part) := by
  have hle : i + part.length ≤ l'.length := by rwa [h.length_eq]
  refine ⟨(length_patch hle).trans h.length_eq, fun j hj => ?_⟩
  rw [getElem?_patch_of_notMem hle, h.getElem?_eq j hj]
  by_contra hinside
  exact hj (hchanged j (by omega) (by omega))

theorem EqOutside.slice_eq (h : EqOutside changed l l') {first last : ℕ}
    (hchanged : ∀ j, first ≤ j → j < last → ¬ changed j) :
    slice l' first last = slice l first last :=
  slice_congr h.length_eq fun j hfirst hlast => h.getElem?_eq j (hchanged j hfirst hlast)

end Frame

/-! ### Tilings -/

section Tiling

variable {α : Type} {start size : α → ℕ} {first middle last : ℕ} {pieces : List α}

/-- Pieces that follow each other without a gap, from one position to another. -/
def Tiles (start size : α → ℕ) : ℕ → List α → ℕ → Prop
  | first, [], last => first = last
  | first, piece :: pieces, last =>
    start piece = first ∧ Tiles start size (first + size piece) pieces last

theorem Tiles.bounds (h : Tiles start size first pieces last) :
    first ≤ last ∧ ∀ piece ∈ pieces, first ≤ start piece ∧ start piece + size piece ≤ last := by
  induction pieces generalizing first with
  | nil => exact ⟨Nat.le_of_eq h, by simp⟩
  | cons piece pieces ih =>
    obtain ⟨hstart, hrest⟩ := h
    obtain ⟨hle, hpieces⟩ := ih hrest
    refine ⟨by omega, fun other hother => ?_⟩
    rcases List.mem_cons.mp hother with rfl | hother
    · exact ⟨hstart.ge, by omega⟩
    · have := hpieces other hother
      exact ⟨by omega, this.2⟩

theorem Tiles.append {rest : List α} (h : Tiles start size first pieces middle)
    (hrest : Tiles start size middle rest last) : Tiles start size first (pieces ++ rest) last := by
  induction pieces generalizing first with
  | nil =>
    obtain rfl : first = middle := h
    exact hrest
  | cons piece pieces ih => exact ⟨h.1, ih h.2⟩

/-- A change of the pieces that keeps where they are. -/
theorem Tiles.map {β : Type} {start' size' : β → ℕ} {f : α → β}
    (h : Tiles start size first pieces last) (hstart : ∀ piece, start' (f piece) = start piece)
    (hsize : ∀ piece, size' (f piece) = size piece) :
    Tiles start' size' first (pieces.map f) last := by
  induction pieces generalizing first with
  | nil => exact h
  | cons piece pieces ih =>
    obtain ⟨hfirst, hrest⟩ := h
    refine ⟨(hstart piece).trans hfirst, ?_⟩
    rw [hsize]
    exact ih hrest

/-- A piece lies in front of the pieces behind it. -/
theorem Tiles.pairwise (h : Tiles start size first pieces last) :
    pieces.Pairwise fun a b => start a + size a ≤ start b := by
  induction pieces generalizing first with
  | nil => exact List.Pairwise.nil
  | cons piece pieces ih =>
    obtain ⟨hstart, hrest⟩ := h
    refine List.pairwise_cons.mpr ⟨fun other hother => ?_, ih hrest⟩
    have := (hrest.bounds.2 other hother).1
    omega

/-- Two pieces are the same or do not overlap. -/
theorem Tiles.disjoint (h : Tiles start size first pieces last) {a b : α} (ha : a ∈ pieces)
    (hb : b ∈ pieces) :
    a = b ∨ start a + size a ≤ start b ∨ start b + size b ≤ start a := by
  have hor : ∀ ⦃a⦄, a ∈ pieces → ∀ ⦃b⦄, b ∈ pieces →
      a = b ∨ start a + size a ≤ start b ∨ start b + size b ≤ start a :=
    List.Pairwise.forall_of_forall_of_flip (fun a _ => .inl rfl)
      (h.pairwise.imp fun hle => .inr (.inl hle)) (h.pairwise.imp fun hle => .inr (.inr hle))
  exact hor ha hb

/-- Each piece is replaced by pieces that tile it. -/
theorem Tiles.flatMap {β : Type} {start' size' : β → ℕ} {f : α → List β}
    (h : Tiles start size first pieces last)
    (hf : ∀ piece ∈ pieces, Tiles start' size' (start piece) (f piece) (start piece + size piece)) :
    Tiles start' size' first (pieces.flatMap f) last := by
  induction pieces generalizing first with
  | nil => exact h
  | cons piece pieces ih =>
    obtain ⟨rfl, hrest⟩ := h
    rw [List.flatMap_cons]
    exact (hf piece List.mem_cons_self).append
      (ih hrest fun other hother => hf other (List.mem_cons_of_mem _ hother))

end Tiling

end Foundations
