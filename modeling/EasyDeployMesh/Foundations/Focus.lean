import Mathlib.Tactic.Common
import Mathlib.Data.List.Basic
import Mathlib.Data.List.Nodup
import Mathlib.Data.List.AList

/-!
# Updates of one element of a list and of a keyed table

`focus p l` is the first element of `l` satisfying `p`, together with the function that puts an
element in its place: the reading of `iter_mut().find(p)` as a value. A list whose elements have
pairwise distinct keys is updated at one key without disturbing the others; the finite map of
Mathlib (`AList`) is restricted to the entries satisfying a predicate by `AList.retain`.

## Main definitions

* `Foundations.focus`: the first element satisfying a predicate and its replacement function.
* `Foundations.Replaces`: one list arises from another by replacing one element.
* `AList.retain`: the entries of a finite map that satisfy a predicate.
* `AList.DistinctBy`: a finite map whose values differ in a function of theirs.

## Main results

* `Foundations.focus_eq_some_iff`, `Foundations.focus_eq_none_iff`: what `focus` finds.
* `Foundations.Replaces.map_eq`, `Foundations.Replaces.mem_iff`: a replacement that keeps the key
  keeps the list of keys, and exchanges one element for another.
* `Foundations.find?_key_eq_some`: with pairwise distinct keys, a search by key finds the element.
* `AList.lookup_retain_eq_some`: lookup in a restricted map.
* `AList.DistinctBy.erase`, `AList.DistinctBy.retain`, `AList.DistinctBy.insert`: the updates that
  keep the values distinct.
-/

namespace Foundations

variable {α κ : Type*}

/-- The first element satisfying `p`, and the function putting another element in its place. -/
def focus (p : α → Bool) : List α → Option (α × (α → List α))
  | [] => none
  | a :: l => if p a then some (a, fun b => b :: l)
      else (focus p l).map fun r => (r.1, fun b => a :: r.2 b)

theorem focus_eq_none_iff {p : α → Bool} {l : List α} :
    focus p l = none ↔ ∀ a ∈ l, p a = false := by
  induction l with
  | nil => simp [focus]
  | cons a l ih =>
    simp only [focus, List.forall_mem_cons]
    split_ifs with h
    · simp [h]
    · simp [h, ih]

theorem focus_eq_some_iff {p : α → Bool} {l : List α} {a : α} {put : α → List α} :
    focus p l = some (a, put) ↔ ∃ pre post, l = pre ++ a :: post ∧ (∀ b ∈ pre, p b = false) ∧
      p a = true ∧ put = fun b => pre ++ b :: post := by
  induction l generalizing put with
  | nil => simp [focus]
  | cons c l ih =>
    simp only [focus]
    split_ifs with h
    · constructor
      · intro heq
        obtain ⟨rfl, rfl⟩ := Prod.mk.inj (Option.some.inj heq)
        exact ⟨[], l, rfl, by simp, h, rfl⟩
      · rintro ⟨pre, post, hl, hpre, ha, rfl⟩
        cases pre with
        | nil =>
          obtain ⟨rfl, rfl⟩ := List.cons.inj hl
          rfl
        | cons d pre =>
          obtain ⟨rfl, -⟩ := List.cons.inj hl
          exact absurd (hpre c List.mem_cons_self) (by simp [h])
    · constructor
      · intro heq
        obtain ⟨⟨a', put'⟩, hfoc, hr⟩ := Option.map_eq_some_iff.1 heq
        obtain ⟨rfl, rfl⟩ := Prod.mk.inj hr
        obtain ⟨pre, post, rfl, hpre, ha, rfl⟩ := ih.1 hfoc
        refine ⟨c :: pre, post, rfl, ?_, ha, rfl⟩
        simpa [h] using hpre
      · rintro ⟨pre, post, hl, hpre, ha, rfl⟩
        cases pre with
        | nil =>
          obtain ⟨rfl, rfl⟩ := List.cons.inj hl
          exact absurd ha h
        | cons d pre =>
          obtain ⟨rfl, htail⟩ := List.cons.inj hl
          have hfoc :=
            ih.2 ⟨pre, post, htail, fun b hb => hpre b (List.mem_cons_of_mem _ hb), ha, rfl⟩
          exact Option.map_eq_some_iff.2 ⟨_, hfoc, rfl⟩

/-- The element in focus is the one that a search finds. -/
theorem find?_eq_map_focus (p : α → Bool) (l : List α) : l.find? p = (focus p l).map Prod.fst := by
  induction l with
  | nil => rfl
  | cons a l ih =>
    simp only [focus]
    split_ifs with h
    · rw [List.find?_cons_of_pos h, Option.map_some]
    · rw [List.find?_cons_of_neg h, ih, Option.map_map]
      rfl

/-! ### Replacing one element -/

/-- `l'` arises from `l` by replacing the element `a` with `b` at one place. -/
def Replaces (l : List α) (a b : α) (l' : List α) : Prop :=
  ∃ pre post, l = pre ++ a :: post ∧ l' = pre ++ b :: post

namespace Replaces

variable {l l' : List α} {a b c : α}

theorem of_focus {p : α → Bool} {put : α → List α} (h : focus p l = some (a, put)) (b : α) :
    Replaces l a b (put b) := by
  obtain ⟨pre, post, rfl, -, -, rfl⟩ := focus_eq_some_iff.1 h
  exact ⟨pre, post, rfl, rfl⟩

theorem mem_old (h : Replaces l a b l') : a ∈ l := by
  obtain ⟨pre, post, rfl, rfl⟩ := h
  simp

theorem mem_new (h : Replaces l a b l') : b ∈ l' := by
  obtain ⟨pre, post, rfl, rfl⟩ := h
  simp

/-- A replacement that changes nothing exchanges an element for itself. -/
theorem eq_of_self (h : Replaces l a b l) : a = b := by
  obtain ⟨pre, post, hl, hl'⟩ := h
  exact (List.cons.inj (List.append_cancel_left (hl.symm.trans hl'))).1

/-- A replacement by an element with the same key keeps the list of keys. -/
theorem map_eq (h : Replaces l a b l') (key : α → κ) (hkey : key b = key a) :
    l'.map key = l.map key := by
  obtain ⟨pre, post, rfl, rfl⟩ := h
  simp [hkey]

/-- Every element of the new list is the new element or an old one. -/
theorem of_mem (h : Replaces l a b l') (hc : c ∈ l') : c = b ∨ c ∈ l := by
  obtain ⟨pre, post, rfl, rfl⟩ := h
  simp only [List.mem_append, List.mem_cons] at hc ⊢
  tauto

/-- The other elements stay. -/
theorem mem_of_ne (h : Replaces l a b l') (hc : c ∈ l) (hne : c ≠ a) : c ∈ l' := by
  obtain ⟨pre, post, rfl, rfl⟩ := h
  simp only [List.mem_append, List.mem_cons] at hc ⊢
  tauto

/-- With pairwise distinct keys, the new list holds the new element and the old elements whose
key is another one. -/
theorem mem_iff (h : Replaces l a b l') (key : α → κ) (hkey : key b = key a)
    (hnodup : (l.map key).Nodup) : c ∈ l' ↔ c = b ∨ (c ∈ l ∧ key c ≠ key a) := by
  obtain ⟨pre, post, rfl, rfl⟩ := h
  simp only [List.map_append, List.map_cons, List.nodup_middle, List.nodup_cons, List.mem_append,
    List.mem_map, not_or, not_exists, not_and] at hnodup
  simp only [List.mem_append, List.mem_cons]
  obtain ⟨⟨hpre, hpost⟩, -⟩ := hnodup
  constructor
  · rintro (hc | rfl | hc)
    · exact Or.inr ⟨Or.inl hc, hpre c hc⟩
    · exact Or.inl rfl
    · exact Or.inr ⟨Or.inr (Or.inr hc), hpost c hc⟩
  · rintro (rfl | ⟨hc | rfl | hc, hne⟩)
    · exact Or.inr (Or.inl rfl)
    · exact Or.inl hc
    · exact absurd rfl hne
    · exact Or.inr (Or.inr hc)

/-- The keys stay distinct exactly when no other element has the key of the new one. -/
theorem nodup_map_iff (h : Replaces l a b l') (key : α → κ) (hnodup : (l.map key).Nodup) :
    (l'.map key).Nodup ↔ ∀ c ∈ l, key c ≠ key a → key c ≠ key b := by
  obtain ⟨pre, post, rfl, rfl⟩ := h
  simp only [List.map_append, List.map_cons, List.nodup_middle, List.nodup_cons, List.mem_append,
    List.mem_map, not_or, not_exists, not_and] at hnodup ⊢
  obtain ⟨⟨hpre, hpost⟩, hrest⟩ := hnodup
  simp only [hrest, and_true, List.mem_cons]
  constructor
  · rintro ⟨hpre', hpost'⟩ c (hc | rfl | hc) hne
    · exact hpre' c hc
    · exact absurd rfl hne
    · exact hpost' c hc
  · intro hother
    exact ⟨fun c hc => hother c (Or.inl hc) (hpre c hc),
      fun c hc => hother c (Or.inr (Or.inr hc)) (hpost c hc)⟩

end Replaces

/-- An element with a key of its own is added at the end of a part of the list. -/
theorem nodup_map_concat {l l' : List α} {b : α} (key : α → κ) (hnodup : (l.map key).Nodup)
    (hsub : l'.Sublist l) (hb : ∀ a ∈ l', key a ≠ key b) : ((l' ++ [b]).map key).Nodup := by
  rw [List.map_append, List.map_singleton, List.nodup_append]
  refine ⟨(hsub.map key).nodup hnodup, by simp, ?_⟩
  simpa using hb

/-- With pairwise distinct keys, two elements with the same key are equal. -/
theorem eq_of_key_eq {l : List α} {a b : α} (key : α → κ) (hnodup : (l.map key).Nodup)
    (ha : a ∈ l) (hb : b ∈ l) (h : key a = key b) : a = b :=
  List.inj_on_of_nodup_map hnodup ha hb h

/-- With pairwise distinct keys, `focus` on the key of an element finds that element. -/
theorem exists_focus_eq {l : List α} {a : α} [DecidableEq κ] (key : α → κ)
    (hnodup : (l.map key).Nodup) (ha : a ∈ l) :
    ∃ put, focus (fun b => decide (key b = key a)) l = some (a, put) := by
  cases h : focus (fun b => decide (key b = key a)) l with
  | none => exact absurd (focus_eq_none_iff.1 h a ha) (by simp)
  | some r =>
    obtain ⟨b, put⟩ := r
    obtain ⟨pre, post, rfl, -, hb, -⟩ := focus_eq_some_iff.1 h
    have hba : b = a := eq_of_key_eq key hnodup (by simp) ha (by simpa using hb)
    exact ⟨put, by rw [hba]⟩

/-- With pairwise distinct keys, searching for the key of an element finds that element. -/
theorem find?_key_eq_some {l : List α} {a : α} [DecidableEq κ] (key : α → κ)
    (hnodup : (l.map key).Nodup) (ha : a ∈ l) :
    l.find? (fun b => decide (key b = key a)) = some a := by
  cases h : l.find? (fun b => decide (key b = key a)) with
  | none => exact absurd (List.find?_eq_none.1 h a ha) (by simp)
  | some b =>
    have hkey : key b = key a := by simpa using List.find?_some h
    rw [eq_of_key_eq key hnodup (List.mem_of_find?_eq_some h) ha hkey]

end Foundations

/-! ### Restriction of a finite map -/

namespace AList

variable {α : Type*} {β : α → Type*}

/-- The entries of a finite map that satisfy `p`. -/
def retain (p : (a : α) → β a → Bool) (s : AList β) : AList β where
  entries := s.entries.filter fun e => p e.1 e.2
  nodupKeys := s.nodupKeys.sublist List.filter_sublist

variable [DecidableEq α] {p : (a : α) → β a → Bool} {s : AList β} {a : α} {b : β a}

theorem lookup_retain_eq_some :
    (s.retain p).lookup a = some b ↔ s.lookup a = some b ∧ p a b = true := by
  have hold : s.lookup a = some b ↔ Sigma.mk a b ∈ s.entries := mem_lookup_iff
  have hnew : (s.retain p).lookup a = some b ↔ Sigma.mk a b ∈ (s.retain p).entries := mem_lookup_iff
  rw [hold, hnew]
  simp [retain]

/-! ### Values that are distinct under a function -/

/-- No two keys have values with the same image under `f`. -/
def DistinctBy {α β γ : Type*} [DecidableEq α] (f : β → γ) (s : AList fun _ : α => β) : Prop :=
  ∀ a a' b b', s.lookup a = some b → s.lookup a' = some b' → f b = f b' → a = a'

namespace DistinctBy

variable {α β γ : Type*} [DecidableEq α] {f : β → γ} {s : AList fun _ : α => β}

theorem erase (h : DistinctBy f s) (a : α) : DistinctBy f (s.erase a) := by
  have hold : ∀ a' b, (s.erase a).lookup a' = some b → s.lookup a' = some b := by
    intro a' b hb
    rcases eq_or_ne a' a with rfl | hne
    · simp at hb
    · rwa [lookup_erase_ne hne] at hb
  intro a₁ a₂ b₁ b₂ h₁ h₂ heq
  exact h a₁ a₂ b₁ b₂ (hold a₁ b₁ h₁) (hold a₂ b₂ h₂) heq

theorem retain (h : DistinctBy f s) (p : α → β → Bool) : DistinctBy f (s.retain p) := by
  intro a₁ a₂ b₁ b₂ h₁ h₂ heq
  exact h a₁ a₂ b₁ b₂ (lookup_retain_eq_some.1 h₁).1 (lookup_retain_eq_some.1 h₂).1 heq

/-- A value that no other key has is put in. -/
theorem insert (h : DistinctBy f s) {a : α} {b : β}
    (hnew : ∀ a' b', s.lookup a' = some b' → f b' = f b → a' = a) :
    DistinctBy f (s.insert a b) := by
  intro a₁ a₂ b₁ b₂ h₁ h₂ heq
  by_cases he₁ : a₁ = a <;> by_cases he₂ : a₂ = a
  · rw [he₁, he₂]
  · rw [he₁, lookup_insert] at h₁
    rw [lookup_insert_ne he₂] at h₂
    obtain rfl := Option.some.inj h₁
    rw [he₁, hnew a₂ b₂ h₂ heq.symm]
  · rw [lookup_insert_ne he₁] at h₁
    rw [he₂, lookup_insert] at h₂
    obtain rfl := Option.some.inj h₂
    rw [he₂, hnew a₁ b₁ h₁ heq]
  · rw [lookup_insert_ne he₁] at h₁
    rw [lookup_insert_ne he₂] at h₂
    exact h a₁ a₂ b₁ b₂ h₁ h₂ heq

end DistinctBy

end AList
