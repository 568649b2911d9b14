/-
  Foundation/Replay.lean --- callers that go on after an exception.

  A caller makes one call after the other on an object and catches what a call throws.
  Where a rejected call leaves the object as it was, leaving the rejected calls out of
  the sequence changes nothing: the same calls are then made in the same states.
-/
import Qalsh.Foundation.Effect

set_option autoImplicit false

namespace Qalsh.Foundation

variable {ε σ α κ : Type}

/-! ## Exceptions of one call -/

/-- What an unwound computation passes on may be changed by a destructor. -/
theorem Triple.onThrow {P : σ → Prop} {Q : α → σ → Prop} {E E' : ε → σ → Prop}
    {x : EStateM ε σ α} {unwind : σ → σ} (hx : Triple P x Q E)
    (hunwind : ∀ e s, E e s → E' e (unwind s)) :
    Triple P (Foundation.onThrow unwind x) Q E' := by
  intro s hs
  have h := hx s hs
  unfold Foundation.onThrow
  cases hr : x s with
  | ok a s' =>
      rw [hr] at h
      exact h
  | error e s' =>
      rw [hr] at h
      exact hunwind e s' h

/-- What a computation keeps of its part of the state, the whole state keeps. -/
theorem Triple.zoom {τ : Type} {l : Lens σ τ} {P : τ → Prop} {I : σ → Prop} {x : EStateM ε τ α}
    (hx : Triple P x (fun _ => P) fun _ => P) (hget : ∀ s, I s → P (l.get s))
    (hset : ∀ s t, I s → P t → I (l.set t s)) :
    Triple I (l.zoom x) (fun _ => I) fun _ => I := by
  intro s hs
  have h := hx (l.get s) (hget s hs)
  unfold Lens.zoom
  cases hr : x (l.get s) with
  | ok a t =>
      rw [hr] at h
      exact hset s t hs h
  | error e t =>
      rw [hr] at h
      exact hset s t hs h

/-- The outcome of a call and the state it leaves. -/
def attemptAt (x : EStateM ε σ α) (s : σ) : Except ε α × σ :=
  match x s with
  | .ok a s' => (.ok a, s')
  | .error e s' => (.error e, s')

theorem attemptAt_error {x : EStateM ε σ α} {s s' : σ} {e : ε} (h : x s = .error e s') :
    attemptAt x s = (.error e, s') := by
  unfold attemptAt
  rw [h]

/-- What a call keeps however it ends. -/
theorem Triple.attemptAt {I : σ → Prop} {x : EStateM ε σ α}
    (h : Triple I x (fun _ => I) fun _ => I) {s : σ} (hs : I s) : I (attemptAt x s).2 := by
  have hx := h s hs
  unfold Foundation.attemptAt
  cases hr : x s with
  | ok a s' =>
      rw [hr] at hx
      exact hx
  | error e s' =>
      rw [hr] at hx
      exact hx

/-! ## Sequences of calls -/

section Replay

variable (perform : κ → EStateM ε σ α) (rejects : σ → κ → Bool)

/-- The state after a sequence of calls. -/
def stateAfter : List κ → σ → σ
  | [], s => s
  | call :: calls, s => stateAfter calls (attemptAt (perform call) s).2

/-- The outcomes of a sequence of calls, each with the verdict on the call where it is
made. -/
def outcomes : List κ → σ → List (Bool × Except ε α)
  | [], _ => []
  | call :: calls, s =>
      (rejects s call, (attemptAt (perform call) s).1) ::
        outcomes calls (attemptAt (perform call) s).2

/-- A sequence of calls without those that are rejected where they are made. -/
def withoutRejected : List κ → σ → List κ
  | [], _ => []
  | call :: calls, s =>
      if rejects s call = true then withoutRejected calls (attemptAt (perform call) s).2
      else call :: withoutRejected calls (attemptAt (perform call) s).2

variable {perform rejects} {I : σ → Prop}

theorem stateAfter_keeps (hkeeps : ∀ call, Triple I (perform call) (fun _ => I) fun _ => I) :
    ∀ (calls : List κ) {s : σ}, I s → I (stateAfter perform calls s) := by
  intro calls
  induction calls with
  | nil => exact fun hs => hs
  | cons call calls ih => exact fun hs => ih ((hkeeps call).attemptAt hs)

/-- Rejected calls that leave the state as it was may be left out. -/
theorem withoutRejected_replays
    (hkeeps : ∀ call, Triple I (perform call) (fun _ => I) fun _ => I)
    (hrejected : ∀ s call, I s → rejects s call = true → ∃ e, perform call s = .error e s) :
    ∀ (calls : List κ) {s : σ}, I s →
      stateAfter perform (withoutRejected perform rejects calls s) s = stateAfter perform calls s ∧
        outcomes perform rejects (withoutRejected perform rejects calls s) s =
          (outcomes perform rejects calls s).filter fun outcome => !outcome.1 := by
  intro calls
  induction calls with
  | nil => exact fun _ => ⟨rfl, rfl⟩
  | cons call calls ih =>
      intro s hs
      cases hcall : rejects s call with
      | true =>
          -- the rest starts where this call started
          obtain ⟨e, herror⟩ := hrejected s call hs hcall
          have hrest := ih hs
          simp only [withoutRejected, stateAfter, outcomes, hcall, attemptAt_error herror, if_true,
            Bool.not_true, Bool.false_eq_true, not_false_eq_true, List.filter_cons_of_neg]
          exact hrest
      | false =>
          obtain ⟨hstate, houtcomes⟩ := ih ((hkeeps call).attemptAt hs)
          simp only [withoutRejected, stateAfter, outcomes, hcall, Bool.false_eq_true, if_false,
            Bool.not_false, List.filter_cons_of_pos, hstate, houtcomes, and_self]

end Replay

end Qalsh.Foundation
