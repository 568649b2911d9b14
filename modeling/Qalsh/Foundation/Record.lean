/-
  Foundation/Record.lean --- computations beside a record.

  A computation can be run beside a list that gets one line when it ends.  What holds
  of each line and of the lines before it holds throughout the record.
-/
import Qalsh.Foundation.Effect

set_option autoImplicit false

namespace Qalsh.Foundation

variable {ε σ α κ : Type}

/-! ## What holds throughout a record -/

/-- Each line is in `P` with the lines before it. -/
def Throughout (P : List κ → κ → Prop) (lines : List κ) : Prop :=
  ∀ before line after, lines = before ++ line :: after → P before line

namespace Throughout

variable {P Q : List κ → κ → Prop} {lines : List κ} {line : κ}

theorem nil : Throughout P [] := by
  intro before line after heq
  cases before <;> cases heq

theorem concat (h : Throughout P lines) (hline : P lines line) : Throughout P (lines ++ [line]) := by
  intro before line' after heq
  rcases List.eq_nil_or_concat after with rfl | ⟨after, last, rfl⟩
  · obtain ⟨rfl, hlast⟩ := List.append_inj' heq rfl
    cases hlast
    exact hline
  · rw [List.concat_eq_append, ← List.cons_append, ← List.append_assoc] at heq
    obtain ⟨hinit, -⟩ := List.append_inj' heq rfl
    exact h before line' after hinit

theorem mono (h : Throughout P lines) (hPQ : ∀ before line, P before line → Q before line) :
    Throughout Q lines :=
  fun before line after heq => hPQ before line (h before line after heq)

end Throughout

/-! ## Recording -/

/-- Run a computation beside a record; its line says from which state and how it ended. -/
def recorded (line : σ → Except ε α → κ) (x : EStateM ε σ α) : EStateM ε (List κ × σ) α := fun u =>
  match x u.2 with
  | .ok a s => .ok a (u.1 ++ [line u.2 (.ok a)], s)
  | .error e s => .error e (u.1 ++ [line u.2 (.error e)], s)

variable {line : σ → Except ε α → κ} {x : EStateM ε σ α}

/-- A recorded computation does what the computation does. -/
theorem recorded_agrees :
    Agrees (fun (u : List κ × σ) s => u.2 = s) (fun u s => u.2 = s) (recorded line x) x := by
  rintro ⟨lines, s⟩ _ rfl
  unfold recorded
  dsimp only
  cases x s with
  | ok a s' => exact ⟨rfl, rfl⟩
  | error e s' => exact ⟨rfl, rfl⟩

/-- Computations that correspond write the same record. -/
theorem Simulates.recorded {τ : Type} {R S E : σ → τ → Prop} {line' : τ → Except ε α → κ}
    {y : EStateM ε τ α} (hline : ∀ s t, R s t → line s = line' t)
    (h : Simulates R x y (fun a b s t => a = b ∧ S s t) E) :
    Simulates (fun (u : List κ × σ) (v : List κ × τ) => u.1 = v.1 ∧ R u.2 v.2)
      (Foundation.recorded line x) (Foundation.recorded line' y)
      (fun a b u v => a = b ∧ u.1 = v.1 ∧ S u.2 v.2) fun u v => u.1 = v.1 ∧ E u.2 v.2 := by
  rintro ⟨lines, s⟩ ⟨_, t⟩ ⟨rfl, hst⟩
  have hxy := h s t hst
  unfold Foundation.recorded
  dsimp only
  rw [hline s t hst]
  cases hx : x s with
  | ok a s' =>
      cases hy : y t with
      | ok b t' =>
          rw [hx, hy] at hxy
          obtain ⟨rfl, hst'⟩ := hxy
          exact ⟨rfl, rfl, hst'⟩
      | error e t' => rw [hx, hy] at hxy; exact hxy.elim
  | error e s' =>
      cases hy : y t with
      | ok b t' => rw [hx, hy] at hxy; exact hxy.elim
      | error e' t' =>
          rw [hx, hy] at hxy
          obtain ⟨rfl, hst'⟩ := hxy
          exact ⟨rfl, rfl, hst'⟩

end Qalsh.Foundation
