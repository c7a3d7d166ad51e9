import EasyDeployMesh.Foundations.Lines
import Mathlib.Data.List.Chain
import Mathlib.Data.List.DropRight

/-!
# Words of a line

A line is trimmed of what separates its words, cut at the first two separators in a row, and split
into words. Each of these functions is described by how the line is put together.

## Main definitions

* `Foundations.trimmed`: a list without the separators at its ends.
* `Foundations.cutAtPair`: a list cut before the first two separators in a row.
* `Foundations.IsToken`: a word of a list, between separators or the ends.

## Main results

* `Foundations.trimmed_append_append`: trimming around something that stays.
* `Foundations.cutAtPair_eq_some_iff`: where the list is cut.
* `Foundations.mem_splitOnP_iff`: what splitting yields.
-/

namespace Foundations

variable {α : Type} {p : α → Bool} {l word before after : List α}

/-! ### Trimming -/

/-- A list without the separators at its ends. -/
def trimmed (p : α → Bool) (l : List α) : List α := (l.dropWhile p).rdropWhile p

/-- Something that neither begins nor ends with a separator. -/
structure Bare (p : α → Bool) (word : List α) : Prop where
  ne_nil : word ≠ []
  head : p (word.head ne_nil) = false
  last : p (word.getLast ne_nil) = false

theorem Bare.dropWhile_append (h : Bare p word) :
    (before ++ (word ++ after)).dropWhile p = before.dropWhile p ++ (word ++ after) := by
  obtain ⟨a, rest, rfl⟩ := List.exists_cons_of_ne_nil h.ne_nil
  have hstop : ((a :: rest) ++ after).dropWhile p = (a :: rest) ++ after :=
    List.dropWhile_cons_of_neg (by rw [show p a = false from h.head]; exact Bool.false_ne_true)
  rw [List.dropWhile_append]
  by_cases hempty : (before.dropWhile p).isEmpty = true
  · rw [if_pos hempty, hstop, List.isEmpty_iff.1 hempty, List.nil_append]
  · rw [if_neg hempty]

theorem Bare.rdropWhile_append (h : Bare p word) :
    (before ++ word ++ after).rdropWhile p = before ++ word ++ after.rdropWhile p := by
  induction after using List.reverseRecOn with
  | nil =>
    rw [List.rdropWhile_nil, List.append_nil, List.rdropWhile_eq_self_iff]
    intro hne
    rw [List.getLast_append_of_ne_nil hne h.ne_nil, h.last]
    exact Bool.false_ne_true
  | append_singleton after a ih =>
    rw [← List.append_assoc]
    by_cases ha : p a = true
    · rw [List.rdropWhile_concat_pos _ _ _ ha, List.rdropWhile_concat_pos _ _ _ ha, ih]
    · rw [List.rdropWhile_concat_neg _ _ _ ha, List.rdropWhile_concat_neg _ _ _ ha,
        List.append_assoc]

theorem trimmed_append_append (h : Bare p word) :
    trimmed p (before ++ word ++ after) = before.dropWhile p ++ word ++ after.rdropWhile p := by
  rw [trimmed, List.append_assoc, h.dropWhile_append, ← List.append_assoc, h.rdropWhile_append]

/-- Something bare is not trimmed. -/
theorem Bare.trimmed_eq (h : Bare p word) : trimmed p word = word := by
  have happend : trimmed p ([] ++ word ++ []) = [].dropWhile p ++ word ++ [].rdropWhile p :=
    trimmed_append_append h
  simpa using happend

theorem Bare.eq_nil_of_append (h : Bare p (before ++ l)) (hbefore : ∀ a ∈ before, p a = true) :
    before = [] := by
  cases before with
  | nil => rfl
  | cons a before =>
    have hhead : p a = false := h.head
    rw [hbefore a List.mem_cons_self] at hhead
    cases hhead

theorem Bare.join (h : Bare p before) (h' : Bare p after) : Bare p (before ++ l ++ after) := by
  refine ⟨List.append_ne_nil_of_right_ne_nil _ h'.ne_nil, ?_, ?_⟩
  · simp only [List.append_assoc, List.head_append_of_ne_nil h.ne_nil, h.head]
  · rw [List.getLast_append_of_ne_nil _ h'.ne_nil, h'.last]

theorem rdropWhile_append_of_pos (h : ∀ a ∈ after, p a = true) :
    (l ++ after).rdropWhile p = l.rdropWhile p := by
  have hreverse : ∀ a ∈ after.reverse, p a = true := fun a ha => h a (List.mem_reverse.1 ha)
  rw [List.rdropWhile, List.reverse_append, List.dropWhile_append_of_pos hreverse,
    ← List.rdropWhile]

/-- What is trimmed is bare, unless nothing is left. -/
theorem bare_trimmed (h : trimmed p l ≠ []) : Bare p (trimmed p l) := by
  refine ⟨h, ?_, Bool.eq_false_iff.2 (List.rdropWhile_last_not p _ h)⟩
  obtain ⟨rest, hrest⟩ : trimmed p l <+: l.dropWhile p := List.rdropWhile_prefix p _
  have hdrop : l.dropWhile p ≠ [] := fun hnil => h (by rw [trimmed, hnil, List.rdropWhile_nil])
  have hhead : (trimmed p l).head h = (l.dropWhile p).head hdrop := by
    rw [← Option.some_inj, ← List.head?_eq_some_head, ← List.head?_eq_some_head, ← hrest,
      List.head?_append_of_ne_nil _ h]
  rw [hhead]
  exact List.head_dropWhile_not p hdrop

theorem trimmed_eq_nil_iff : trimmed p l = [] ↔ ∀ a ∈ l, p a = true := by
  rw [trimmed, List.rdropWhile_eq_nil_iff]
  constructor
  · intro h a ha
    rw [← List.takeWhile_append_dropWhile (p := p) (l := l)] at ha
    rcases List.mem_append.1 ha with ha | ha
    · exact List.mem_takeWhile_imp ha
    · exact h a ha
  · exact fun h a ha => h a ((List.dropWhile_sublist p).subset ha)

/-- A list is its trimmed part between separators. -/
theorem exists_trimmed (p : α → Bool) (l : List α) : ∃ before after,
    l = before ++ trimmed p l ++ after ∧ (∀ a ∈ before, p a = true) ∧ ∀ a ∈ after, p a = true := by
  refine ⟨l.takeWhile p, (l.dropWhile p).rtakeWhile p, ?_, fun a ha => List.mem_takeWhile_imp ha,
    fun a ha => List.mem_rtakeWhile_imp ha⟩
  rw [List.append_assoc, trimmed, List.rdropWhile_append_rtakeWhile,
    List.takeWhile_append_dropWhile]

/-! ### The first two separators in a row -/

/-- A list cut before the first two separators in a row. -/
def cutAtPair (p : α → Bool) : List α → Option (List α × List α)
  | a :: b :: l =>
    if p a && p b then some ([], a :: b :: l)
    else (cutAtPair p (b :: l)).map fun r => (a :: r.1, r.2)
  | _ => none

/-- No two separators in a row. -/
def SingleSeparated (p : α → Bool) (l : List α) : Prop := l.IsChain fun a b => (p a && p b) = false

theorem cutAtPair_eq_some_iff : cutAtPair p l = some (before, after) ↔
    l = before ++ after ∧ ∃ a b rest, after = a :: b :: rest ∧ (p a && p b) = true ∧
      SingleSeparated p (before ++ [a]) := by
  induction l generalizing before with
  | nil =>
    refine iff_of_false (fun h => by cases h) ?_
    rintro ⟨hnil, a, b, rest, rfl, -⟩
    exact absurd hnil.symm (List.append_ne_nil_of_right_ne_nil _ (List.cons_ne_nil _ _))
  | cons c l ih =>
    cases l with
    | nil =>
      refine iff_of_false (fun h => by cases h) ?_
      rintro ⟨hlist, a, b, rest, rfl, -⟩
      have hlength := congrArg List.length hlist
      simp only [List.length_append, List.length_cons, List.length_nil] at hlength
      omega
    | cons d l =>
      rw [cutAtPair]
      by_cases hpair : (p c && p d) = true
      · rw [if_pos hpair]
        constructor
        · intro h
          obtain ⟨rfl, rfl⟩ : [] = before ∧ c :: d :: l = after := by simpa using h
          exact ⟨rfl, c, d, l, rfl, hpair, List.isChain_singleton c⟩
        · rintro ⟨hlist, a, b, rest, rfl, -, hchain⟩
          cases before with
          | nil => rw [hlist, List.nil_append]
          | cons e before =>
            -- the pair would be inside the first part
            exfalso
            obtain ⟨rfl, htail⟩ := List.cons.inj hlist
            cases before with
            | nil =>
              obtain ⟨rfl, -⟩ := List.cons.inj htail
              exact absurd (List.isChain_cons_cons.1 hchain).1 (by rw [hpair]; decide)
            | cons f before =>
              obtain ⟨rfl, -⟩ := List.cons.inj htail
              exact absurd (List.isChain_cons_cons.1 hchain).1 (by rw [hpair]; decide)
      · rw [if_neg hpair, Option.map_eq_some_iff]
        have hsingle : (p c && p d) = false := Bool.eq_false_iff.2 hpair
        constructor
        · rintro ⟨⟨front, back⟩, hcut, heq⟩
          obtain ⟨rfl, rfl⟩ : c :: front = before ∧ back = after := by simpa using heq
          obtain ⟨hlist, a, b, rest, hback, hab, hchain⟩ := ih.1 hcut
          refine ⟨by rw [hlist, List.cons_append], a, b, rest, hback, hab, ?_⟩
          cases front with
          | nil =>
            obtain ⟨rfl, -⟩ : d = a ∧ l = b :: rest := by simpa [hback] using hlist
            exact List.isChain_cons_cons.2 ⟨hsingle, List.isChain_singleton d⟩
          | cons e front =>
            obtain ⟨rfl, -⟩ := List.cons.inj hlist
            exact List.isChain_cons_cons.2 ⟨hsingle, hchain⟩
        · rintro ⟨hlist, a, b, rest, hafter, hab, hchain⟩
          cases before with
          | nil =>
            obtain ⟨rfl, rfl, -⟩ : c = a ∧ d = b ∧ l = rest := by simpa [hafter] using hlist
            exact absurd hab hpair
          | cons e before =>
            obtain ⟨rfl, htail⟩ := List.cons.inj hlist
            exact ⟨(before, after), ih.2 ⟨htail, a, b, rest, hafter, hab, hchain.tail⟩, rfl⟩

/-! ### Words -/

/-- A word of a list, between separators or the ends. -/
structure IsToken (p : α → Bool) (word l : List α) : Prop where
  within : ∃ before after, l = before ++ word ++ after ∧
    (∀ a, before.getLast? = some a → p a = true) ∧ ∀ a, after.head? = some a → p a = true
  clean : ∀ a ∈ word, p a = false

theorem isToken_self (h : ∀ a ∈ word, p a = false) : IsToken p word word :=
  ⟨⟨[], [], by simp, nofun, nofun⟩, h⟩

private theorem splitOnP_append_separator {a : α} (ha : p a = true) :
    (before ++ a :: after).splitOnP p = before.splitOnP p ++ after.splitOnP p :=
  List.splitOnP_append_cons before after ha

private theorem mem_splitOnP_of_isToken (h : IsToken p word l) : word ∈ l.splitOnP p := by
  obtain ⟨⟨before, after, rfl, hbefore, hafter⟩, hclean⟩ := h
  have hword : word ∈ (word ++ after).splitOnP p := by
    cases after with
    | nil =>
      rw [List.append_nil, List.splitOnP_eq_singleton hclean]
      exact List.mem_singleton_self word
    | cons a after =>
      rw [List.splitOnP_append_cons_of_forall_mem hclean a (hafter a rfl)]
      exact List.mem_cons_self
  rcases List.eq_nil_or_concat before with rfl | ⟨front, a, rfl⟩
  · exact hword
  · have ha : p a = true := hbefore a (by rw [List.concat_eq_append, List.getLast?_concat])
    rw [List.concat_eq_append, List.append_assoc, List.append_assoc, List.singleton_append,
      splitOnP_append_separator ha]
    exact List.mem_append_right _ hword

private theorem isToken_of_mem_splitOnP {n : ℕ} (hn : l.length ≤ n) (h : word ∈ l.splitOnP p) :
    IsToken p word l := by
  induction n generalizing l with
  | zero =>
    rw [List.length_eq_zero_iff.1 (Nat.le_zero.1 hn), List.splitOnP_nil, List.mem_singleton] at h
    rw [List.length_eq_zero_iff.1 (Nat.le_zero.1 hn), h]
    exact isToken_self fun _ h => absurd h List.not_mem_nil
  | succ n ih =>
    rcases hsplit : splitAtFirst p l with _ | ⟨first, a, rest⟩
    · have hclean := splitAtFirst_eq_none_iff.1 hsplit
      rw [List.splitOnP_eq_singleton hclean, List.mem_singleton] at h
      rw [h]
      exact isToken_self hclean
    · obtain ⟨rfl, ha, hclean⟩ := splitAtFirst_eq_some_iff.1 hsplit
      rw [List.splitOnP_append_cons_of_forall_mem hclean a ha, List.mem_cons] at h
      rcases h with rfl | h
      · refine ⟨⟨[], a :: rest, by simp, nofun, fun b hb => ?_⟩, hclean⟩
        cases hb
        exact ha
      · have hlength : rest.length ≤ n := by
          simp only [List.length_append, List.length_cons] at hn
          omega
        obtain ⟨⟨before, after, rfl, hbefore, hafter⟩, hword⟩ := ih hlength h
        refine ⟨⟨first ++ a :: before, after, by simp, fun b hb => ?_, hafter⟩, hword⟩
        rcases List.eq_nil_or_concat before with rfl | ⟨front, c, rfl⟩
        · rw [List.getLast?_concat] at hb
          cases hb
          exact ha
        · refine hbefore b ?_
          rw [List.concat_eq_append, ← List.cons_append, ← List.append_assoc,
            List.getLast?_concat] at hb
          rw [List.concat_eq_append, List.getLast?_concat, hb]

/-- Splitting a list at separators yields its words. -/
theorem mem_splitOnP_iff : word ∈ l.splitOnP p ↔ IsToken p word l :=
  ⟨isToken_of_mem_splitOnP le_rfl, mem_splitOnP_of_isToken⟩

/-- Trimming at the end keeps the words. -/
theorem isToken_rdropWhile_iff (hword : word ≠ []) :
    IsToken p word (l.rdropWhile p) ↔ IsToken p word l := by
  constructor
  · rintro ⟨⟨before, after, hl, hbefore, hafter⟩, hclean⟩
    refine ⟨⟨before, after ++ l.rtakeWhile p, ?_, hbefore, fun a ha => ?_⟩, hclean⟩
    · rw [← List.append_assoc, ← hl, List.rdropWhile_append_rtakeWhile]
    · cases after with
      | nil => exact List.mem_rtakeWhile_imp (List.mem_of_mem_head? ha)
      | cons b after => exact hafter a ha
  · rintro ⟨⟨before, after, rfl, hbefore, hafter⟩, hclean⟩
    have hbare : Bare p word :=
      ⟨hword, hclean _ (List.head_mem hword), hclean _ (List.getLast_mem hword)⟩
    refine ⟨⟨before, after.rdropWhile p, hbare.rdropWhile_append, hbefore, fun a ha => ?_⟩, hclean⟩
    obtain ⟨rest, hrest⟩ : after.rdropWhile p <+: after := List.rdropWhile_prefix p _
    refine hafter a ?_
    rw [← hrest, List.head?_append, ha, Option.some_or]

end Foundations
