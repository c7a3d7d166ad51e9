import EasyDeployMesh.Foundations.Result

/-!
# Computations that avoid a failure

A computation in `Except` may fail in several ways, one of which, such as a panic, must not happen.
`Avoids` says that it does not happen, and what holds of the value when there is one. It is proved
part by part.

## Main definitions

* `Foundations.Avoids`: a computation never fails in one way, and its values have a property.

## Main results

* `Foundations.Avoids.bind`, `Foundations.Avoids.check`: sequences and checks.
-/

namespace Foundations

variable {ε α β : Type} {stop error : ε}

/-- The computation does not fail with `stop`, and `post` holds of its value. -/
structure Avoids (stop : ε) (x : Except ε α) (post : α → Prop) : Prop where
  ne_error : x ≠ .error stop
  of_ok : ∀ a, x = .ok a → post a

namespace Avoids

variable {x : Except ε α} {next : α → Except ε β} {y : Except ε β} {post post' : α → Prop}
  {post₂ : β → Prop} {c : Prop} [Decidable c]

theorem ok {a : α} (h : post a) : Avoids stop (.ok a) post where
  ne_error := by rintro ⟨⟩
  of_ok b hb := Except.ok.inj hb ▸ h

theorem pure {a : α} (h : post a) : Avoids stop (Pure.pure a) post := ok h

theorem failed (h : error ≠ stop) : Avoids stop (.error error : Except ε α) post where
  ne_error heq := h (Except.error.inj heq)
  of_ok a ha := by cases ha

theorem mono (hx : Avoids stop x post) (h : ∀ a, post a → post' a) : Avoids stop x post' :=
  ⟨hx.ne_error, fun a ha => h a (hx.of_ok a ha)⟩

/-- A sequence avoids a failure when its parts do. -/
theorem bind (hx : Avoids stop x post) (hnext : ∀ a, post a → Avoids stop (next a) post₂) :
    Avoids stop (x >>= next) post₂ where
  ne_error h := by
    rcases bind_eq_error_iff.1 h with h | ⟨a, ha, h⟩
    · exact hx.ne_error h
    · exact (hnext a (hx.of_ok a ha)).ne_error h
  of_ok b h := by
    obtain ⟨a, ha, h⟩ := bind_eq_ok_iff.1 h
    exact (hnext a (hx.of_ok a ha)).of_ok b h

/-- A check that fails in another way. -/
theorem check (herror : error ≠ stop) (h : ¬ c → Avoids stop y post₂) :
    Avoids stop (if c then Except.error error >>= next else y) post₂ := by
  split_ifs with hc
  · exact failed herror
  · exact h hc

theorem map {f : α → β} (hx : Avoids stop x post) (h : ∀ a, post a → post₂ (f a)) :
    Avoids stop (x.map f) post₂ where
  ne_error heq := by
    cases x with
    | error error => exact hx.ne_error (congrArg _ (Except.error.inj heq))
    | ok a => cases heq
  of_ok b hb := by
    obtain ⟨a, ha, rfl⟩ := map_eq_ok_iff.1 hb
    exact h a (hx.of_ok a ha)

end Avoids

end Foundations
