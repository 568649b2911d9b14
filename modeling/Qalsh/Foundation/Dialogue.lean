/-
  Foundation/Dialogue.lean --- programs that talk to a party they cannot trust.

  A dialogue is a log of requests with what came back, and a replier that may answer
  anything, by the whole log so far.  A log is grounded when every request in it had
  its grounds in what came before it.  The rules below carry that property, and what
  else is known of the log, through requests, sequencing and caught exceptions.
-/
import Mathlib
import Qalsh.Foundation.Effect

set_option autoImplicit false

namespace Qalsh.Foundation

variable {ε α β Q A : Type}

/-! ## Dialogues -/

/-- A replier and the exchanges so far. -/
structure Dialogue (Q A : Type) where
  reply : List (Q × A) → Q → A
  log : List (Q × A)

/-- Send a request and take the answer. -/
def ask (request : Q) : EStateM ε (Dialogue Q A) A := fun dialogue =>
  .ok (dialogue.reply dialogue.log request)
    { dialogue with log := dialogue.log ++ [(request, dialogue.reply dialogue.log request)] }

/-- The log of a run that starts with nothing said. -/
def logOf (x : EStateM ε (Dialogue Q A) α) (reply : List (Q × A) → Q → A) : List (Q × A) :=
  match x { reply := reply, log := [] } with
  | .ok _ dialogue => dialogue.log
  | .error _ dialogue => dialogue.log

/-- Run `x` and hand over the exception it throws, as a `try` statement does. -/
def attempt {σ : Type} (x : EStateM ε σ α) : EStateM ε σ (Except ε α) := fun s =>
  match x s with
  | .ok a s' => .ok (.ok a) s'
  | .error e s' => .ok (.error e) s'

/-! ## Grounds -/

/-- Every request of the log is grounded in what was said before it. -/
def Grounded (P : List (Q × A) → Q → Prop) (log : List (Q × A)) : Prop :=
  ∀ before request answer after, log = before ++ (request, answer) :: after → P before request

variable {P : List (Q × A) → Q → Prop} {log : List (Q × A)}

theorem Grounded.nil : Grounded P [] := by
  intro before request answer after h
  simp at h

theorem Grounded.concat (h : Grounded P log) {request : Q} (hrequest : P log request) (answer : A) :
    Grounded P (log ++ [(request, answer)]) := by
  intro before request' answer' after heq
  rcases List.eq_nil_or_concat after with rfl | ⟨after', last, rfl⟩
  · obtain ⟨hlog, hlast⟩ := List.append_inj' heq rfl
    obtain ⟨hsame, -⟩ := Prod.mk.inj (List.cons.inj hlast).1
    rwa [← hlog, ← hsame]
  · rw [List.concat_eq_append, ← List.cons_append, ← List.append_assoc] at heq
    exact h before request' answer' after' (List.append_inj' heq rfl).1

/-- A grounded log about which more is known. -/
def Says (P : List (Q × A) → Q → Prop) (I : List (Q × A) → Prop) (dialogue : Dialogue Q A) : Prop :=
  Grounded P dialogue.log ∧ I dialogue.log

theorem Says.mono {I J : List (Q × A) → Prop} {dialogue : Dialogue Q A} (h : Says P I dialogue)
    (hIJ : ∀ log, I log → J log) : Says P J dialogue :=
  ⟨h.1, hIJ _ h.2⟩

/-! ## Rules -/

variable {I : List (Q × A) → Prop}

/-- A request needs its grounds, and is the last exchange afterwards. -/
theorem ask_spec {request : Q} {E : ε → Dialogue Q A → Prop} (hgrounds : ∀ log, I log → P log request) :
    Triple (Says P I) (ask request)
      (fun answer => Says P fun log => ∃ before, log = before ++ [(request, answer)] ∧ I before) E := by
  intro dialogue h
  exact ⟨h.1.concat (hgrounds _ h.2) _, dialogue.log, rfl, h.2⟩

/-- A caught exception becomes a result. -/
theorem Triple.attempt {σ : Type} {R : σ → Prop} {x : EStateM ε σ α} {M : α → σ → Prop}
    {N E : ε → σ → Prop} (h : Triple R x M N) :
    Triple R (Foundation.attempt x)
      (fun result s => (∀ a, result = .ok a → M a s) ∧ ∀ e, result = .error e → N e s) E := by
  intro s hs
  have hx := h s hs
  unfold Foundation.attempt
  cases hr : x s with
  | ok a s' =>
      rw [hr] at hx
      refine ⟨fun a' heq => ?_, fun e heq => (by cases heq)⟩
      cases heq
      exact hx
  | error e s' =>
      rw [hr] at hx
      refine ⟨fun a heq => (by cases heq), fun e' heq => ?_⟩
      cases heq
      exact hx

/-- A run that keeps its log grounded leaves a grounded log. -/
theorem grounded_logOf {x : EStateM ε (Dialogue Q A) α}
    (h : Triple (Says P fun log => log = []) x (fun _ => Says P fun _ => True)
      fun _ => Says P fun _ => True) (reply : List (Q × A) → Q → A) : Grounded P (logOf x reply) := by
  have hrun := h { reply := reply, log := [] } ⟨Grounded.nil, rfl⟩
  unfold logOf
  cases hr : x { reply := reply, log := [] } with
  | ok a dialogue =>
      rw [hr] at hrun
      exact hrun.1
  | error e dialogue =>
      rw [hr] at hrun
      exact hrun.1

end Qalsh.Foundation
