import Mathlib.Algebra.Ring.Nat
import Mathlib.Tactic.Common
import Mathlib.Data.List.Basic
import Mathlib.Data.List.Induction

/-!
# Runs of a guarded step function

A system is given by a partial step function `step : σ → ε → Option σ`: the event `e` carries
everything the environment decides, and `step s e` is `none` exactly when the environment cannot
produce `e` in state `s`. A *run* is the iteration of `step` along a list of events, so a concrete
run is computed and a property of all runs is proved by induction on the events.

## Main definitions

* `Foundations.runFrom`: the state at the end of a list of events.
* `Foundations.Leads`: the events lead from one state to another.
* `Foundations.Along`, `Foundations.Sometime`: every step, or some step, of a run meets a condition
  on its state and its event.

## Main results

* `Foundations.Leads.invariant`, `Foundations.Leads.invariant_along`: what every step preserves
  holds at the end of the run.
* `Foundations.Leads.transfer`: a reflexive and transitive relation that every step respects
  relates the two ends of a run.
* `Foundations.Leads.exists_last_cause`: if `P` fails at the start of a run and holds at its end,
  then some step of the run makes `P` true, and `P` holds in every state after that step.
-/

namespace Foundations

variable {σ ε : Type*}

/-- The state that the events `es` lead to from `s`, if the environment can produce them. -/
def runFrom (step : σ → ε → Option σ) (s : σ) : List ε → Option σ
  | [] => some s
  | e :: es => (step s e).bind fun t => runFrom step t es

/-- The events `es` lead from `s` to `t`. -/
def Leads (step : σ → ε → Option σ) (s : σ) (es : List ε) (t : σ) : Prop :=
  runFrom step s es = some t

/-- Every step of the run of `es` from `s` meets the condition `C` on the state before it and on
its event. -/
def Along (step : σ → ε → Option σ) (C : σ → ε → Prop) (s : σ) (es : List ε) : Prop :=
  ∀ pre e post m, es = pre ++ e :: post → Leads step s pre m → C m e

variable {step : σ → ε → Option σ} {s t u : σ} {e : ε} {es es' : List ε}

/-! ### Composition of runs -/

@[simp] theorem leads_nil : Leads step s [] t ↔ s = t := by
  simp [Leads, runFrom]

@[simp] theorem leads_cons :
    Leads step s (e :: es) t ↔ ∃ m, step s e = some m ∧ Leads step m es t := by
  simp [Leads, runFrom, Option.bind_eq_some_iff]

theorem leads_append :
    Leads step s (es ++ es') t ↔ ∃ m, Leads step s es m ∧ Leads step m es' t := by
  induction es generalizing s with
  | nil => simp
  | cons e es ih =>
    simp only [List.cons_append, leads_cons, ih]
    constructor
    · rintro ⟨m, hm, n, hn, ht⟩
      exact ⟨n, ⟨m, hm, hn⟩, ht⟩
    · rintro ⟨n, ⟨m, hm, hn⟩, ht⟩
      exact ⟨m, hm, n, hn, ht⟩

theorem leads_concat :
    Leads step s (es ++ [e]) t ↔ ∃ m, Leads step s es m ∧ step m e = some t := by
  simp [leads_append]

/-- A run that can be computed leads somewhere. -/
theorem exists_leads_of_map {β : Type*} {f : σ → β} {b : β}
    (h : (runFrom step s es).map f = some b) : ∃ t, Leads step s es t ∧ f t = b :=
  Option.map_eq_some_iff.1 h

/-- A run is determined by its events. -/
theorem Leads.unique (h : Leads step s es t) (h' : Leads step s es u) : t = u :=
  Option.some.inj (h.symm.trans h')

theorem Leads.trans (h : Leads step s es t) (h' : Leads step t es' u) :
    Leads step s (es ++ es') u :=
  leads_append.2 ⟨t, h, h'⟩

theorem Leads.concat (h : Leads step s es t) (h' : step t e = some u) :
    Leads step s (es ++ [e]) u :=
  leads_concat.2 ⟨t, h, h'⟩

/-- A run to which one more event is added, seen from the added event. -/
theorem Leads.split (h : Leads step s (es ++ e :: es') u) :
    ∃ m n, Leads step s es m ∧ step m e = some n ∧ Leads step n es' u := by
  obtain ⟨m, hm, h⟩ := leads_append.1 h
  obtain ⟨n, hn, hu⟩ := leads_cons.1 h
  exact ⟨m, n, hm, hn, hu⟩

/-! ### Conditions along a run -/

variable {C D : σ → ε → Prop}

@[simp] theorem along_nil : Along step C s [] := by
  intro pre e post m h
  simp at h

theorem Along.mono (h : Along step C s es) (hCD : ∀ m e, C m e → D m e) : Along step D s es :=
  fun pre e post m he hm => hCD m e (h pre e post m he hm)

/-- The condition holds at the last step of a run. -/
theorem Along.last (h : Along step C s (es ++ [e])) (ht : Leads step s es t) : C t e :=
  h es e [] t rfl ht

/-- The condition holds along every initial part of a run. -/
theorem Along.init (h : Along step C s (es ++ es')) : Along step C s es :=
  fun pre e post m he hm => h pre e (post ++ es') m (by simp [he]) hm

/-- The condition holds along every final part of a run. -/
theorem Along.tail (h : Along step C s (es ++ es')) (ht : Leads step s es t) :
    Along step C t es' :=
  fun pre e post m he hm => h (es ++ pre) e post m (by simp [he]) (ht.trans hm)

theorem along_cons : Along step C s (e :: es) ↔ C s e ∧ ∀ t ∈ step s e, Along step C t es := by
  constructor
  · intro h
    exact ⟨h [] e es s rfl rfl,
      fun t ht => Along.tail (show Along step C s ([e] ++ es) from h)
        (leads_cons.2 ⟨t, ht, leads_nil.2 rfl⟩)⟩
  · rintro ⟨hfirst, hrest⟩ pre e' post m he hm
    cases pre with
    | nil =>
      obtain ⟨rfl, -⟩ := List.cons.inj he
      exact leads_nil.1 hm ▸ hfirst
    | cons x pre =>
      obtain ⟨rfl, htail⟩ := List.cons.inj he
      obtain ⟨t, ht, hm⟩ := leads_cons.1 hm
      exact hrest t ht pre e' post m htail hm

/-- A condition along a run is decided by computing the run. -/
instance decidableAlong [∀ m e, Decidable (C m e)] :
    (es : List ε) → (s : σ) → Decidable (Along step C s es)
  | [], _ => .isTrue along_nil
  | e :: es, s =>
    have : Decidable (∀ t ∈ step s e, Along step C t es) :=
      match step s e with
      | none => .isTrue nofun
      | some t =>
        have := decidableAlong es t
        decidable_of_iff (Along step C t es) (by simp)
    decidable_of_iff _ along_cons.symm

/-- Some step of the run of `es` from `s` meets the condition `C`. -/
def Sometime (step : σ → ε → Option σ) (C : σ → ε → Prop) (s : σ) (es : List ε) : Prop :=
  ∃ pre e post m, es = pre ++ e :: post ∧ Leads step s pre m ∧ C m e

/-- Some step of a run meets a condition, or every step avoids it. -/
theorem sometime_or_along (C : σ → ε → Prop) (s : σ) (es : List ε) :
    Sometime step C s es ∨ Along step (fun m e => ¬ C m e) s es := by
  by_cases h : Sometime step C s es
  · exact Or.inl h
  · exact Or.inr fun pre e post m he hm hC => h ⟨pre, e, post, m, he, hm, hC⟩

theorem Sometime.append (h : Sometime step C s es) (es' : List ε) :
    Sometime step C s (es ++ es') := by
  obtain ⟨pre, e, post, m, rfl, hm, hC⟩ := h
  exact ⟨pre, e, post ++ es', m, by simp, hm, hC⟩

/-- The step after a run meets the condition. -/
theorem Leads.sometime (h : Leads step s es t) (hC : C t e) : Sometime step C s (es ++ [e]) :=
  ⟨es, e, [], t, rfl, h, hC⟩

theorem sometime_concat (ht : Leads step s es t) :
    Sometime step C s (es ++ [e]) ↔ Sometime step C s es ∨ C t e := by
  constructor
  · rintro ⟨pre, e', post, m, he, hm, hC⟩
    rcases List.eq_nil_or_concat post with rfl | ⟨post, x, rfl⟩
    · obtain ⟨rfl, he'⟩ := List.append_inj' he rfl
      obtain rfl : e = e' := by simpa using he'
      exact Or.inr (ht.unique hm ▸ hC)
    · have hsplit : es ++ [e] = (pre ++ e' :: post) ++ [x] := by simpa using he
      exact Or.inl ⟨pre, e', post, m, (List.append_inj' hsplit rfl).1, hm, hC⟩
  · rintro (h | hC)
    · exact h.append [e]
    · exact ht.sometime hC

theorem Sometime.mono (h : Sometime step C s es) (hCD : ∀ m e, C m e → D m e) :
    Sometime step D s es := by
  obtain ⟨pre, e, post, m, he, hm, hC⟩ := h
  exact ⟨pre, e, post, m, he, hm, hCD m e hC⟩

/-! ### What every step preserves -/

/-- A predicate that every step meeting the condition preserves holds at the end of every run
whose steps meet the condition. -/
theorem Leads.invariant_along {I : σ → Prop} (h : Leads step s es t) (hC : Along step C s es)
    (hs : I s) (hstep : ∀ m e n, I m → C m e → step m e = some n → I n) : I t := by
  induction es using List.reverseRecOn generalizing t with
  | nil => exact leads_nil.1 h ▸ hs
  | append_singleton es e ih =>
    obtain ⟨m, hm, ht⟩ := leads_concat.1 h
    exact hstep m e t (ih hm hC.init) (hC.last hm) ht

/-- A predicate that every step preserves holds at the end of every run. -/
theorem Leads.invariant {I : σ → Prop} (h : Leads step s es t) (hs : I s)
    (hstep : ∀ m e n, I m → step m e = some n → I n) : I t :=
  h.invariant_along (C := fun _ _ => True) (fun _ _ _ _ _ _ => trivial) hs
    fun m e n hm _ hn => hstep m e n hm hn

/-- A reflexive and transitive relation between states that every step from a state satisfying
the invariant `I` respects relates the two ends of a run. -/
theorem Leads.transfer {I : σ → Prop} {R : σ → σ → Prop} (h : Leads step s es t) (hs : I s)
    (hI : ∀ m e n, I m → step m e = some n → I n) (hrefl : ∀ m, R m m)
    (htrans : ∀ l m n, R l m → R m n → R l n)
    (hstep : ∀ m e n, I m → step m e = some n → R m n) : R s t := by
  refine (h.invariant (I := fun m => I m ∧ R s m) ⟨hs, hrefl s⟩ ?_).2
  rintro m e n ⟨hm, hR⟩ hn
  exact ⟨hI m e n hm hn, htrans s m n hR (hstep m e n hm hn)⟩

/-- A predicate on pairs of a state and the events that led to it, proved by adding one event at
the end. -/
theorem Leads.history {H : List ε → σ → Prop} (h : Leads step s es t) (hs : H [] s)
    (hstep : ∀ pre m e n, Leads step s pre m → H pre m → step m e = some n → H (pre ++ [e]) n) :
    H es t := by
  induction es using List.reverseRecOn generalizing t with
  | nil => exact leads_nil.1 h ▸ hs
  | append_singleton es e ih =>
    obtain ⟨m, hm, ht⟩ := leads_concat.1 h
    exact hstep es m e t hm (ih hm) ht

/-! ### The step that made a predicate true -/

/-- If `P` fails at the start of a run and holds at its end, some step makes `P` true, and `P`
holds in every state from that step on. -/
theorem Leads.exists_last_cause {P : σ → Prop} (h : Leads step s es t) (hs : ¬ P s) (ht : P t) :
    ∃ pre e post m n, es = pre ++ e :: post ∧ Leads step s pre m ∧ step m e = some n ∧
      Leads step n post t ∧ ¬ P m ∧ P n ∧
      ∀ mid rest u, post = mid ++ rest → Leads step n mid u → P u := by
  induction es using List.reverseRecOn generalizing t with
  | nil => exact absurd (leads_nil.1 h ▸ ht) hs
  | append_singleton es e ih =>
    obtain ⟨m, hm, hmt⟩ := leads_concat.1 h
    by_cases hPm : P m
    · obtain ⟨pre, e', post, m', n, rfl, hm', hn, hpost, hPm', hPn, hall⟩ := ih hm hPm
      refine ⟨pre, e', post ++ [e], m', n, by simp, hm', hn, hpost.concat hmt, hPm', hPn, ?_⟩
      intro mid rest u hmid hu
      rcases List.eq_nil_or_concat rest with rfl | ⟨rest, x, rfl⟩
      · obtain rfl : mid = post ++ [e] := by simpa using hmid.symm
        exact hu.unique (hpost.concat hmt) ▸ ht
      · have hsplit : post ++ [e] = (mid ++ rest) ++ [x] := by simpa using hmid
        exact hall mid rest u (List.append_inj' hsplit rfl).1 hu
    · refine ⟨es, e, [], m, t, rfl, hm, hmt, leads_nil.2 rfl, hPm, ht, ?_⟩
      intro mid rest u hmid hu
      obtain ⟨rfl, -⟩ := List.append_eq_nil_iff.1 hmid.symm
      exact leads_nil.1 hu ▸ ht

end Foundations
