import Mathlib.Tactic.Common

/-!
# Cutting a list into lines

A list is cut after every element that ends a line; what is left behind the last one is a line as
well. Lists of lines that can come about in this way are the well-cut ones: they are read back from
their concatenation, and a line may be replaced or added in them.

## Main definitions

* `Foundations.cutAfter`: the lines of a list.
* `Foundations.Terminated`, `Foundations.WellCut`: lines that can come about.
* `Foundations.splitAtFirst`: a list around the first element with a property.

## Main results

* `Foundations.cutAfter_flatten`: lines that are put together are cut again.
* `Foundations.WellCut.replace`, `Foundations.WellCut.insert`: changed lines.
-/

namespace Foundations

variable {α : Type}

/-- The lines of a list, `current` being what has been seen of the first one. -/
def cutAfter (ends : α → Bool) (current : List α) : List α → List (List α)
  | [] => if current.isEmpty then [] else [current]
  | a :: l =>
    if ends a then (current ++ [a]) :: cutAfter ends [] l else cutAfter ends (current ++ [a]) l

/-- A line with its ending. -/
def Terminated (ends : α → Bool) (line : List α) : Prop :=
  ∃ body a, line = body ++ [a] ∧ ends a = true ∧ ∀ b ∈ body, ends b = false

/-- Every line has its ending, except that the last one may lack it. -/
def WellCut (ends : α → Bool) : List (List α) → Prop
  | [] => True
  | line :: lines => (Terminated ends line ∧ WellCut ends lines) ∨
      (line ≠ [] ∧ (∀ b ∈ line, ends b = false) ∧ lines = [])

section Cut

variable {ends : α → Bool} {current line line' body l : List α} {before after lines : List (List α)}

theorem wellCut_cutAfter (h : ∀ b ∈ current, ends b = false) :
    WellCut ends (cutAfter ends current l) := by
  induction l generalizing current with
  | nil =>
    unfold cutAfter
    cases current with
    | nil => trivial
    | cons a current => exact .inr ⟨List.cons_ne_nil _ _, h, rfl⟩
  | cons a l ih =>
    unfold cutAfter
    split_ifs with ha
    · exact .inl ⟨⟨current, a, rfl, ha, h⟩, ih fun b hb => absurd hb List.not_mem_nil⟩
    · refine ih fun b hb => ?_
      rcases List.mem_append.1 hb with hb | hb
      · exact h b hb
      · rw [List.mem_singleton.1 hb]
        exact Bool.eq_false_iff.2 ha

theorem cutAfter_append (h : ∀ b ∈ body, ends b = false) :
    cutAfter ends current (body ++ l) = cutAfter ends (current ++ body) l := by
  induction body generalizing current with
  | nil => rw [List.nil_append, List.append_nil]
  | cons a body ih =>
    obtain ⟨ha, hbody⟩ := List.forall_mem_cons.1 h
    rw [List.cons_append, cutAfter, if_neg (by rw [ha]; exact Bool.false_ne_true), ih hbody,
      List.append_assoc, List.singleton_append]

/-- Well-cut lines are read back. -/
theorem cutAfter_flatten (h : WellCut ends lines) : cutAfter ends [] lines.flatten = lines := by
  induction lines with
  | nil => rfl
  | cons line lines ih =>
    rw [List.flatten_cons]
    rcases h with ⟨⟨body, a, rfl, ha, hbody⟩, hlines⟩ | ⟨hne, hline, rfl⟩
    · rw [List.append_assoc, cutAfter_append hbody, List.nil_append, List.singleton_append,
        cutAfter,
        if_pos ha, ih hlines]
    · have hempty : line.isEmpty = false := by simpa using hne
      rw [List.flatten_nil, cutAfter_append hline, List.nil_append, cutAfter, hempty,
        if_neg Bool.false_ne_true]

/-- All lines but the last one have their ending. -/
theorem wellCut_append (hne : lines ≠ []) : WellCut ends (before ++ lines) ↔
    (∀ line ∈ before, Terminated ends line) ∧ WellCut ends lines := by
  induction before with
  | nil => simp
  | cons line before ih =>
    have happend : before ++ lines ≠ [] := List.append_ne_nil_of_right_ne_nil _ hne
    rw [List.cons_append, WellCut, ih, List.forall_mem_cons]
    constructor
    · rintro (⟨hline, hrest⟩ | ⟨-, -, hnil⟩)
      · exact ⟨⟨hline, hrest.1⟩, hrest.2⟩
      · exact absurd hnil happend
    · rintro ⟨⟨hline, hbefore⟩, hlines⟩
      exact .inl ⟨hline, hbefore, hlines⟩

theorem WellCut.tail (h : WellCut ends (line :: lines)) : WellCut ends lines := by
  rcases h with ⟨-, h⟩ | ⟨-, -, rfl⟩
  · exact h
  · trivial

theorem Terminated.ne_nil (h : Terminated ends line) : line ≠ [] := by
  obtain ⟨body, a, rfl, -⟩ := h
  exact List.append_ne_nil_of_right_ne_nil _ (List.cons_ne_nil _ _)

/-- A line of well-cut lines has an ending, or it is the last one and has none. -/
theorem WellCut.terminated_or (h : WellCut ends (before ++ line :: after)) :
    Terminated ends line ∨ after = [] ∧ line ≠ [] ∧ ∀ b ∈ line, ends b = false := by
  rcases ((wellCut_append (List.cons_ne_nil _ _)).1 h).2 with ⟨hline, -⟩ | ⟨hne, hline, rfl⟩
  · exact .inl hline
  · exact .inr ⟨rfl, hne, hline⟩

theorem Terminated.append (hbody : ∀ b ∈ body, ends b = false) (h : Terminated ends line) :
    Terminated ends (body ++ line) := by
  obtain ⟨front, a, rfl, ha, hfront⟩ := h
  refine ⟨body ++ front, a, (List.append_assoc _ _ _).symm, ha, fun b hb => ?_⟩
  rcases List.mem_append.1 hb with hb | hb
  · exact hbody b hb
  · exact hfront b hb

/-- A line with an ending may stand in the place of any line. -/
theorem WellCut.replace (h : WellCut ends (before ++ line :: after))
    (hline : Terminated ends line') :
    WellCut ends (before ++ line' :: after) := by
  rw [wellCut_append (List.cons_ne_nil _ _)] at h ⊢
  exact ⟨h.1, .inl ⟨hline, h.2.tail⟩⟩

/-- A line with an ending may be added behind another one. -/
theorem WellCut.insert (h : WellCut ends (before ++ line :: after)) (hline : Terminated ends line)
    (hline' : Terminated ends line') : WellCut ends (before ++ line :: line' :: after) := by
  rw [wellCut_append (List.cons_ne_nil _ _)] at h ⊢
  exact ⟨h.1, .inl ⟨hline, .inl ⟨hline', h.2.tail⟩⟩⟩

end Cut

/-! ### The first element with a property -/

/-- What stands before the first element with a property, this element, and what follows. -/
def splitAtFirst (p : α → Bool) : List α → Option (List α × α × List α)
  | [] => none
  | a :: l => if p a then some ([], a, l) else (splitAtFirst p l).map fun r => (a :: r.1, r.2)

section First

variable {p : α → Bool} {l before after : List α} {a : α}

theorem splitAtFirst_eq_some_iff : splitAtFirst p l = some (before, a, after) ↔
    l = before ++ a :: after ∧ p a = true ∧ ∀ b ∈ before, p b = false := by
  induction l generalizing before with
  | nil =>
    refine iff_of_false (fun h => by cases h) ?_
    rintro ⟨h, -⟩
    exact absurd h.symm (List.append_ne_nil_of_right_ne_nil _ (List.cons_ne_nil _ _))
  | cons b l ih =>
    unfold splitAtFirst
    by_cases hb : p b = true
    · rw [if_pos hb]
      constructor
      · intro h
        obtain ⟨rfl, rfl, rfl⟩ := by simpa using h
        exact ⟨rfl, hb, fun _ h => absurd h List.not_mem_nil⟩
      · rintro ⟨h, ha, hbefore⟩
        cases before with
        | nil =>
          obtain ⟨rfl, rfl⟩ := List.cons.inj h
          rfl
        | cons c before =>
          obtain ⟨rfl, -⟩ := List.cons.inj h
          exact absurd hb (Bool.eq_false_iff.1 (hbefore b List.mem_cons_self))
    · rw [if_neg hb, Option.map_eq_some_iff]
      constructor
      · rintro ⟨⟨front, c, rest⟩, hfound, heq⟩
        obtain ⟨rfl, rfl, rfl⟩ : b :: front = before ∧ c = a ∧ rest = after := by simpa using heq
        obtain ⟨rfl, hc, hfront⟩ := ih.1 hfound
        exact ⟨rfl, hc, List.forall_mem_cons.2 ⟨Bool.eq_false_iff.2 hb, hfront⟩⟩
      · rintro ⟨h, ha, hbefore⟩
        cases before with
        | nil =>
          obtain ⟨rfl, -⟩ := List.cons.inj h
          exact absurd ha hb
        | cons c before =>
          obtain ⟨rfl, hl⟩ := List.cons.inj h
          exact ⟨(before, a, after), ih.2 ⟨hl, ha, (List.forall_mem_cons.1 hbefore).2⟩, rfl⟩

theorem splitAtFirst_eq_none_iff : splitAtFirst p l = none ↔ ∀ b ∈ l, p b = false := by
  induction l with
  | nil => exact iff_of_true rfl fun _ h => absurd h List.not_mem_nil
  | cons b l ih =>
    unfold splitAtFirst
    by_cases hb : p b = true
    · rw [if_pos hb]
      refine iff_of_false (fun h => by cases h) fun h => ?_
      exact absurd hb (Bool.eq_false_iff.1 (h b List.mem_cons_self))
    · rw [if_neg hb, Option.map_eq_none_iff, ih, List.forall_mem_cons]
      exact ⟨fun h => ⟨Bool.eq_false_iff.2 hb, h⟩, And.right⟩

end First

end Foundations
