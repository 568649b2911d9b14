/-
  Foundation/Outcome.lean --- computations that have returned.

  Inversion: what the steps of a computation have done, once it is known to have
  returned.
-/
import Qalsh.Foundation.Effect

set_option autoImplicit false

namespace Qalsh.Foundation

variable {ε σ ρ α β : Type}

theorem bind_eq_ok {x : EStateM ε σ α} {f : α → EStateM ε σ β} {s s' : σ} {b : β} :
    (x >>= f) s = .ok b s' ↔ ∃ a t, x s = .ok a t ∧ f a t = .ok b s' := by
  rw [bind_apply]
  cases x s with
  | ok a t => exact ⟨fun h => ⟨a, t, rfl, h⟩, fun ⟨_, _, heq, h⟩ => by cases heq; exact h⟩
  | error e t => exact ⟨fun h => (nomatch h), fun ⟨_, _, heq, _⟩ => nomatch heq⟩

theorem pure_eq_ok {a b : α} {s s' : σ} :
    (pure a : EStateM ε σ α) s = .ok b s' ↔ a = b ∧ s = s' := by
  rw [pure_apply, EStateM.Result.ok.injEq]

theorem liftResult_eq_ok {x : Except ε α} {a : α} {s s' : σ} :
    liftResult x s = .ok a s' ↔ x = .ok a ∧ s = s' := by
  cases x with
  | ok b =>
      rw [liftResult_ok, EStateM.Result.ok.injEq, Except.ok.injEq]
  | error e => exact ⟨fun h => (nomatch h), fun h => nomatch h.1⟩

theorem outside_eq_ok {x : EStateM ε σ α} {u u' : ρ × σ} {a : α} :
    outside x u = .ok a u' ↔ x u.2 = .ok a u'.2 ∧ u'.1 = u.1 := by
  unfold outside
  cases x u.2 with
  | ok b t =>
      rw [EStateM.Result.ok.injEq, EStateM.Result.ok.injEq, Prod.ext_iff]
      exact ⟨fun h => ⟨⟨h.1, h.2.2⟩, h.2.1.symm⟩, fun h => ⟨h.1.1, h.2.symm, h.1.2⟩⟩
  | error e t => exact ⟨fun h => (nomatch h), fun h => nomatch h.1⟩

/-- What a triple says when the computation returns. -/
theorem Triple.returns {P : σ → Prop} {x : EStateM ε σ α} {Q : α → σ → Prop} {E : ε → σ → Prop}
    {s s' : σ} {a : α} (h : Triple P x Q E) (hs : P s) (hx : x s = .ok a s') : Q a s' := by
  have hpost := h s hs
  rw [hx] at hpost
  exact hpost

end Qalsh.Foundation
