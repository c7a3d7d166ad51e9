import Mathlib.Tactic.Common
import Mathlib.Order.Nat

/-!
# Programs in dialogue with their environment

A program works on a world and hears, one after the other, the answers of its environment: what a
request comes to, how much a read returns, how a process ends. The answers of a run are a list, so a
run may also stop because the next answer is not there yet. What holds after every list of answers
therefore holds at every moment of every run. An answer that is not of the kind that the program
asks for cannot be produced at this point, and the program waits.

## Main definitions

* `Foundations.Halt`, `Foundations.Dialogue`: how a program stops, and programs.
* `Foundations.Dialogue.act`, `Foundations.Dialogue.hear`, `Foundations.Dialogue.fail`,
  `Foundations.Dialogue.attempt`, `Foundations.Dialogue.loop`: their parts.
* `Foundations.Dialogue.Ensures`: what holds of the world where a program ends, and where it stops.
* `Foundations.Dialogue.Hears`: the program consumes answers.

## Main results

* `Foundations.Dialogue.Ensures.bind`, `Foundations.Dialogue.Ensures.loop`: sequences and loops.
* `Foundations.Dialogue.loop_eq`: a loop each pass of which hears an answer is its own unfolding.
-/

namespace Foundations

variable {ε ε' ρ σ α β : Type}

/-- Why a program has stopped before its end. -/
inductive Halt (ε : Type)
  | failed (error : ε)
  /-- The environment has not answered yet. -/
  | waiting
  deriving DecidableEq

/-- A program with a world that it changes and the answers that are still to come. -/
abbrev Dialogue (ε ρ σ : Type) := EStateM (Halt ε) (σ × List ρ)

namespace Dialogue

/-- Changes the state. -/
def act (f : σ → σ) : Dialogue ε ρ σ Unit := fun s => .ok () (f s.1, s.2)

/-- Reads the state. -/
def look : Dialogue ε ρ σ σ := fun s => .ok s.1 s

/-- Stops with an error of the program. -/
def fail (error : ε) : Dialogue ε ρ σ α := fun s => .error (.failed error) s

/-- The outcome of a computation without effects. -/
def ofResult : Except ε α → Dialogue ε ρ σ α
  | .ok a => pure a
  | .error error => fail error

/-- The next answer, where it is of the kind that is asked for. -/
def hear (kind : ρ → Option α) : Dialogue ε ρ σ α := fun s =>
  match s.2 with
  | [] => .error .waiting s
  | answer :: rest =>
    match kind answer with
    | none => .error .waiting s
    | some a => .ok a (s.1, rest)

theorem hear_cons (kind : ρ → Option α) (w : σ) (answer : ρ) (rest : List ρ) :
    (hear kind : Dialogue ε ρ σ α) (w, answer :: rest) = match kind answer with
      | none => .error .waiting (w, answer :: rest)
      | some a => .ok a (w, rest) := rfl

/-- The outcome as a value. A program that waits goes on waiting. -/
def attempt (run : Dialogue ε ρ σ α) : Dialogue ε' ρ σ (Except ε α) := fun s =>
  match run s with
  | .ok a t => .ok (.ok a) t
  | .error (.failed error) t => .ok (.error error) t
  | .error .waiting t => .error .waiting t

/-- At most so many passes. -/
def loopFor (pass : β → Dialogue ε ρ σ (β ⊕ α)) : ℕ → β → Dialogue ε ρ σ α
  | 0, _ => fun s => .error .waiting s
  | fuel + 1, b => do
    match ← pass b with
    | .inl b => loopFor pass fuel b
    | .inr a => pure a

/-- The loop whose passes either go on or give the value of the loop. -/
def loop (pass : β → Dialogue ε ρ σ (β ⊕ α)) (b : β) : Dialogue ε ρ σ α := fun s =>
  loopFor pass (s.2.length + 1) b s

/-- The world that a run leaves. -/
def worldAfter : EStateM.Result (Halt ε) (σ × List ρ) α → σ
  | .ok _ s => s.1
  | .error _ s => s.1

/-- The run has ended with a value. -/
def hasEnded : EStateM.Result (Halt ε) (σ × List ρ) α → Bool
  | .ok .. => true
  | .error .. => false

theorem exists_of_hasEnded {r : EStateM.Result (Halt ε) (σ × List ρ) α} (h : hasEnded r = true) :
    ∃ a s, r = .ok a s := by
  cases r with
  | ok a s => exact ⟨a, s, rfl⟩
  | error halt s => cases h

/-! ### What a program ensures -/

/-- From the world `w`, whatever is answered: `Q` where the program ends, and `E` where it stops. -/
def Ensures (run : Dialogue ε ρ σ α) (Q : α → σ → Prop) (E : Halt ε → σ → Prop) (w : σ) : Prop :=
  ∀ answers, match run (w, answers) with
    | .ok a t => Q a t.1
    | .error halt t => E halt t.1

namespace Ensures

variable {run : Dialogue ε ρ σ α} {next : α → Dialogue ε ρ σ β} {Q Q' : α → σ → Prop}
  {R : β → σ → Prop} {E E' : Halt ε → σ → Prop} {w : σ}

theorem of_eq_ok {answers : List ρ} {a : α} {t : σ × List ρ} (h : Ensures run Q E w)
    (hrun : run (w, answers) = .ok a t) : Q a t.1 := by
  have := h answers
  rwa [hrun] at this

theorem of_eq_error {answers : List ρ} {halt : Halt ε} {t : σ × List ρ} (h : Ensures run Q E w)
    (hrun : run (w, answers) = .error halt t) : E halt t.1 := by
  have := h answers
  rwa [hrun] at this

theorem mono (h : Ensures run Q E w) (hQ : ∀ a w, Q a w → Q' a w)
    (hE : ∀ halt w, E halt w → E' halt w) : Ensures run Q' E' w := by
  intro answers
  have := h answers
  cases hrun : run (w, answers) with
  | ok a t =>
    rw [hrun] at this
    exact hQ a t.1 this
  | error halt t =>
    rw [hrun] at this
    exact hE halt t.1 this

theorem post (h : Ensures run Q E w) (hQ : ∀ a w, Q a w → Q' a w) : Ensures run Q' E w :=
  h.mono hQ fun _ _ => id

theorem pure {a : α} (h : Q a w) : Ensures (pure a : Dialogue ε ρ σ α) Q E w := fun _ => h

theorem bind (h : Ensures run (fun a => Ensures (next a) R E) E w) :
    Ensures (run >>= next) R E w := by
  intro answers
  have hrun := h answers
  change match EStateM.bind run next (w, answers) with
    | .ok b t => R b t.1
    | .error halt t => E halt t.1
  unfold EStateM.bind
  cases hcase : run (w, answers) with
  | ok a t =>
    rw [hcase] at hrun
    exact hrun t.2
  | error halt t =>
    rw [hcase] at hrun
    exact hrun

/-- The value of the program decides what comes next. -/
theorem bind_of (h : Ensures run Q E w) (hnext : ∀ a w, Q a w → Ensures (next a) R E w) :
    Ensures (run >>= next) R E w :=
  bind (h.post hnext)

theorem map {f : α → β} (h : Ensures run (fun a => R (f a)) E w) : Ensures (f <$> run) R E w := by
  rw [← bind_pure_comp]
  exact bind (h.post fun a w ha => Ensures.pure ha)

theorem act {f : σ → σ} {Q : Unit → σ → Prop} (h : Q () (f w)) :
    Ensures (act f : Dialogue ε ρ σ Unit) Q E w := fun _ => h

theorem look {Q : σ → σ → Prop} (h : Q w w) : Ensures (look : Dialogue ε ρ σ σ) Q E w :=
  fun _ => h

theorem fail {error : ε} (h : E (.failed error) w) :
    Ensures (fail error : Dialogue ε ρ σ α) Q E w := fun _ => h

/-- Fail under a condition, and go on otherwise. -/
theorem check {c : Prop} [Decidable c] {error : ε} {rest : Unit → Dialogue ε ρ σ α}
    (hfail : c → E (.failed error) w) (hrest : ¬ c → Ensures (rest ()) Q E w) :
    Ensures (if c then Dialogue.fail error >>= rest else rest ()) Q E w := by
  by_cases h : c
  · rw [if_pos h]
    exact bind (fail (hfail h))
  · rw [if_neg h]
    exact hrest h

theorem ofResult {x : Except ε α} (hok : ∀ a, x = .ok a → Q a w)
    (herror : ∀ error, x = .error error → E (.failed error) w) :
    Ensures (ofResult x : Dialogue ε ρ σ α) Q E w := by
  cases x with
  | ok a => exact pure (hok a rfl)
  | error error => exact fail (herror error rfl)

theorem hear_of {kind : ρ → Option α} (hanswer : ∀ answer a, kind answer = some a → Q a w)
    (hwaiting : E .waiting w) : Ensures (hear kind : Dialogue ε ρ σ α) Q E w := by
  intro answers
  cases answers with
  | nil => exact hwaiting
  | cons answer rest =>
    rw [hear_cons]
    cases hkind : kind answer with
    | none => exact hwaiting
    | some a => exact hanswer answer a hkind

theorem hear {kind : ρ → Option α} (hanswer : ∀ a, Q a w) (hwaiting : E .waiting w) :
    Ensures (hear kind : Dialogue ε ρ σ α) Q E w :=
  hear_of (fun _ a _ => hanswer a) hwaiting

theorem attempt {Q : Except ε α → σ → Prop} {E : Halt ε' → σ → Prop}
    (h : Ensures run (fun a => Q (.ok a)) (fun halt => match halt with
      | .failed error => Q (.error error)
      | .waiting => E .waiting) w) : Ensures (attempt run) Q E w := by
  intro answers
  have := h answers
  simp only [Dialogue.attempt]
  cases hrun : run (w, answers) with
  | ok a t =>
    rw [hrun] at this
    exact this
  | error halt t =>
    rw [hrun] at this
    cases halt with
    | failed error => exact this
    | waiting => exact this

section Loop

variable {pass : β → Dialogue ε ρ σ (β ⊕ α)} {I : β → σ → Prop}

theorem loopFor (hwaiting : ∀ b w, I b w → E .waiting w)
    (hpass : ∀ b w, I b w → Ensures (pass b) (Sum.elim I Q) E w) (fuel : ℕ) {b : β} (h : I b w) :
    Ensures (loopFor pass fuel b) Q E w := by
  induction fuel generalizing b w with
  | zero => exact fun _ => hwaiting b w h
  | succ fuel ih =>
    refine bind_of (hpass b w h) fun r w hr => ?_
    cases r with
    | inl b => exact ih hr
    | inr a => exact pure hr

/-- An invariant that every pass keeps holds as long as the loop goes on. -/
theorem loop (hwaiting : ∀ b w, I b w → E .waiting w)
    (hpass : ∀ b w, I b w → Ensures (pass b) (Sum.elim I Q) E w) {b : β} (h : I b w) :
    Ensures (loop pass b) Q E w :=
  fun answers => loopFor hwaiting hpass (answers.length + 1) h answers

end Loop

end Ensures

/-! ### Loops that hear -/

/-- The program adds no answers, and consumes one where it gives a value with `p`. -/
structure Hears (p : α → Prop) (run : Dialogue ε ρ σ α) : Prop where
  ok : ∀ s a t, run s = .ok a t → t.2.length ≤ s.2.length
  less : ∀ s a t, run s = .ok a t → p a → t.2.length < s.2.length
  error : ∀ s halt t, run s = .error halt t → t.2.length ≤ s.2.length

section Hears

variable {run : Dialogue ε ρ σ α} {next : α → Dialogue ε ρ σ β} {p p' : α → Prop} {q r : β → Prop}

theorem bind_eq_ok {s : σ × List ρ} {b : β} {u : σ × List ρ} (h : (run >>= next) s = .ok b u) :
    ∃ a t, run s = .ok a t ∧ next a t = .ok b u := by
  change EStateM.bind run next s = .ok b u at h
  unfold EStateM.bind at h
  cases hrun : run s with
  | ok a t =>
    rw [hrun] at h
    exact ⟨a, t, rfl, h⟩
  | error halt t =>
    rw [hrun] at h
    cases h

theorem bind_eq_error {s : σ × List ρ} {halt : Halt ε} {u : σ × List ρ}
    (h : (run >>= next) s = .error halt u) :
    run s = .error halt u ∨ ∃ a t, run s = .ok a t ∧ next a t = .error halt u := by
  change EStateM.bind run next s = .error halt u at h
  unfold EStateM.bind at h
  cases hrun : run s with
  | ok a t =>
    rw [hrun] at h
    exact Or.inr ⟨a, t, rfl, h⟩
  | error halt t =>
    rw [hrun] at h
    cases h
    exact Or.inl rfl

namespace Hears

theorem mono (h : Hears p run) (hp : ∀ a, p' a → p a) : Hears p' run where
  ok := h.ok
  less s a t hrun ha := h.less s a t hrun (hp a ha)
  error := h.error

theorem pure {a : α} (h : ¬ p a) : Hears p (pure a : Dialogue ε ρ σ α) where
  ok s b t hrun := by
    cases hrun
    exact le_rfl
  less s b t hrun hp := by
    cases hrun
    exact absurd hp h
  error s halt t hrun := by cases hrun

theorem act {p : Unit → Prop} (h : ¬ p ()) {f : σ → σ} :
    Hears p (act f : Dialogue ε ρ σ Unit) where
  ok s a t hrun := by
    cases hrun
    exact le_rfl
  less s a t hrun hp := absurd hp h
  error s halt t hrun := by cases hrun

theorem look {p : σ → Prop} (h : ∀ w, ¬ p w) : Hears p (look : Dialogue ε ρ σ σ) where
  ok s a t hrun := by
    cases hrun
    exact le_rfl
  less s a t hrun hp := absurd hp (h a)
  error s halt t hrun := by cases hrun

theorem fail {error : ε} : Hears p (fail error : Dialogue ε ρ σ α) where
  ok s a t hrun := by cases hrun
  less s a t hrun := by cases hrun
  error s halt t hrun := by
    cases hrun
    exact le_rfl

private theorem hear_cases (kind : ρ → Option α) (s : σ × List ρ) :
    (∃ a, (Dialogue.hear kind : Dialogue ε ρ σ α) s = .ok a (s.1, s.2.tail) ∧
      s.2.tail.length < s.2.length) ∨
    (Dialogue.hear kind : Dialogue ε ρ σ α) s = .error .waiting s := by
  obtain ⟨w, answers⟩ := s
  cases answers with
  | nil => exact Or.inr rfl
  | cons answer rest =>
    rw [hear_cons]
    cases kind answer with
    | none => exact Or.inr rfl
    | some a => exact Or.inl ⟨a, rfl, Nat.lt_succ_self _⟩

theorem hear {kind : ρ → Option α} : Hears p (hear kind : Dialogue ε ρ σ α) := by
  refine ⟨fun s a t hrun => ?_, fun s a t hrun _ => ?_, fun s halt t hrun => ?_⟩ <;>
    rcases hear_cases kind s with ⟨b, hb, hlt⟩ | hwaiting
  · rw [hb] at hrun
    cases hrun
    exact hlt.le
  · rw [hwaiting] at hrun
    cases hrun
  · rw [hb] at hrun
    cases hrun
    exact hlt
  · rw [hwaiting] at hrun
    cases hrun
  · rw [hb] at hrun
    cases hrun
  · rw [hwaiting] at hrun
    cases hrun
    exact le_rfl

theorem attempt (h : Hears p run) {p' : Except ε α → Prop} (hp : ∀ r, ¬ p' r) :
    Hears p' (attempt run : Dialogue ε' ρ σ (Except ε α)) where
  ok s a t hrun := by
    simp only [Dialogue.attempt] at hrun
    split at hrun <;> cases hrun
    · exact h.ok s _ t (by assumption)
    · exact h.error s _ t (by assumption)
  less s a t hrun hpa := absurd hpa (hp a)
  error s halt t hrun := by
    simp only [Dialogue.attempt] at hrun
    split at hrun <;> cases hrun
    exact h.error s _ t (by assumption)

theorem bind (h : Hears p run) (hnext : ∀ a, Hears q (next a)) : Hears q (run >>= next) where
  ok s b u hrun := by
    obtain ⟨a, t, ha, hb⟩ := bind_eq_ok hrun
    exact ((hnext a).ok t b u hb).trans (h.ok s a t ha)
  less s b u hrun hq := by
    obtain ⟨a, t, ha, hb⟩ := bind_eq_ok hrun
    exact ((hnext a).less t b u hb hq).trans_le (h.ok s a t ha)
  error s halt u hrun := by
    rcases bind_eq_error hrun with herror | ⟨a, t, ha, hb⟩
    · exact h.error s halt u herror
    · exact ((hnext a).error t halt u hb).trans (h.ok s a t ha)

/-- Enough is heard before the rest. -/
theorem bind_of_first (h : Hears (fun _ => True) run) (hnext : ∀ a, Hears q (next a)) :
    Hears r (run >>= next) where
  ok := (bind h hnext).ok
  less s b u hrun _ := by
    obtain ⟨a, t, ha, hb⟩ := bind_eq_ok hrun
    exact ((hnext a).ok t b u hb).trans_lt (h.less s a t ha trivial)
  error := (bind h hnext).error

end Hears

end Hears

section Loop

variable {pass : β → Dialogue ε ρ σ (β ⊕ α)}

/-- The pass hears an answer wherever the loop goes on. -/
def GoesOnHearing (pass : β → Dialogue ε ρ σ (β ⊕ α)) : Prop :=
  ∀ b, Hears (fun r => r.isLeft = true) (pass b)

private theorem loopFor_eq_of_lt (h : GoesOnHearing pass) {m n : ℕ} {s : σ × List ρ}
    (hm : s.2.length < m) (hn : s.2.length < n) (b : β) :
    loopFor pass m b s = loopFor pass n b s := by
  induction m generalizing n s b with
  | zero => omega
  | succ m ih =>
    obtain ⟨n, rfl⟩ : ∃ k, n = k + 1 := ⟨n - 1, by omega⟩
    simp only [loopFor, bind, EStateM.bind]
    cases hpass : pass b s with
    | error halt t => rfl
    | ok r t =>
      cases r with
      | inr a => rfl
      | inl next =>
        have hlt := (h b).less s (.inl next) t hpass rfl
        exact ih (by omega) (by omega) next

/-- The unfolding of a loop. -/
theorem loop_eq (h : GoesOnHearing pass) (b : β) : loop pass b = (do
    match ← pass b with
    | .inl b => loop pass b
    | .inr a => pure a) := by
  funext s
  simp only [loop, loopFor, bind, EStateM.bind]
  cases hpass : pass b s with
  | error halt t => rfl
  | ok r t =>
    cases r with
    | inr a => rfl
    | inl next =>
      have hlt := (h b).less s (.inl next) t hpass rfl
      exact loopFor_eq_of_lt h hlt (Nat.lt_succ_self _) next

private theorem Hears.loopFor {p : α → Prop} (h : ∀ b, Hears (Sum.elim (fun _ => False) p) (pass b))
    (fuel : ℕ) (b : β) : Hears p (Dialogue.loopFor pass fuel b) := by
  induction fuel generalizing b with
  | zero =>
    refine ⟨fun s a t hrun => ?_, fun s a t hrun => ?_, fun s halt t hrun => ?_⟩ <;> cases hrun
    exact le_rfl
  | succ fuel ih =>
    constructor
    · intro s a u hrun
      obtain ⟨r, t, hr, ha⟩ := bind_eq_ok hrun
      have hle := (h b).ok s r t hr
      cases r with
      | inl next => exact ((ih next).ok t a u ha).trans hle
      | inr value =>
        cases ha
        exact hle
    · intro s a u hrun hp
      obtain ⟨r, t, hr, ha⟩ := bind_eq_ok hrun
      cases r with
      | inl next => exact ((ih next).less t a u ha hp).trans_le ((h b).ok s _ t hr)
      | inr value =>
        cases ha
        exact (h b).less s _ u hr hp
    · intro s halt u hrun
      rcases bind_eq_error hrun with herror | ⟨r, t, hr, ha⟩
      · exact (h b).error s halt u herror
      · cases r with
        | inl next => exact ((ih next).error t halt u ha).trans ((h b).ok s _ t hr)
        | inr value => cases ha

/-- A loop hears what its last pass hears. -/
theorem Hears.loop {p : α → Prop} (h : ∀ b, Hears (Sum.elim (fun _ => False) p) (pass b)) (b : β) :
    Hears p (Dialogue.loop pass b) where
  ok s := (Hears.loopFor h (s.2.length + 1) b).ok s
  less s := (Hears.loopFor h (s.2.length + 1) b).less s
  error s := (Hears.loopFor h (s.2.length + 1) b).error s

end Loop

end Dialogue

end Foundations
