/-
  Foundation/Effect.lean --- rules for stateful code that may throw.

  A computation is an `EStateM ε σ α`: it returns or throws, and in both cases the
  state it reached survives, which is what exceptions do to objects that outlive
  the throwing call.

  Two judgements are used.  `Triple` is the Hoare triple with one postcondition for
  returning and one for throwing.  `Simulates` relates two computations, possibly
  over different state types, that must return related results or throw the same
  exception.
-/
import Mathlib

set_option autoImplicit false

namespace Qalsh.Foundation

variable {ε σ τ α β γ δ : Type}

/-! ## Evaluation equations -/

/-- Lift a pure fallible result. -/
def liftResult (x : Except ε α) : EStateM ε σ α := fun s =>
  match x with
  | .ok a => .ok a s
  | .error e => .error e s

@[simp] theorem liftResult_ok (a : α) (s : σ) :
    liftResult (ε := ε) (.ok a) s = .ok a s := rfl

@[simp] theorem liftResult_error (e : ε) (s : σ) :
    liftResult (α := α) (.error e) s = .error e s := rfl

theorem bind_apply (x : EStateM ε σ α) (f : α → EStateM ε σ β) (s : σ) :
    (x >>= f) s = match x s with
      | .ok a s' => f a s'
      | .error e s' => .error e s' := by
  show EStateM.bind x f s = _
  unfold EStateM.bind
  cases x s <;> rfl

@[simp] theorem pure_apply (a : α) (s : σ) : (pure a : EStateM ε σ α) s = .ok a s := rfl

@[simp] theorem throw_apply (e : ε) (s : σ) :
    (throw e : EStateM ε σ α) s = .error e s := rfl

@[simp] theorem get_apply (s : σ) : (get : EStateM ε σ σ) s = .ok s s := rfl

@[simp] theorem set_apply (t s : σ) : (set t : EStateM ε σ PUnit) s = .ok ⟨⟩ t := rfl

@[simp] theorem modify_apply (f : σ → σ) (s : σ) :
    (modify f : EStateM ε σ PUnit) s = .ok ⟨⟩ (f s) := rfl

/-! ## Focusing on a part of the state -/

/-- A part of the state: how to read it and how to put it back. -/
structure Lens (σ τ : Type) where
  get : σ → τ
  set : τ → σ → σ

/-- Run a computation on the part a lens focuses on. -/
def Lens.zoom (l : Lens σ τ) (x : EStateM ε τ α) : EStateM ε σ α := fun s =>
  match x (l.get s) with
  | .ok a t => .ok a (l.set t s)
  | .error e t => .error e (l.set t s)

/-- Run a computation on the second part of a pair. -/
def outside {ρ : Type} (x : EStateM ε τ α) : EStateM ε (ρ × τ) α := fun s =>
  match x s.2 with
  | .ok a t => .ok a (s.1, t)
  | .error e t => .error e (s.1, t)

/-- Run a computation on the first part of a pair. -/
def inside {ρ : Type} (x : EStateM ε ρ α) : EStateM ε (ρ × τ) α := fun s =>
  match x s.1 with
  | .ok a r => .ok a (r, s.2)
  | .error e r => .error e (r, s.2)

/-- Run a computation beside a first part that does not outlive it. -/
def enclosed {ρ : Type} (initial : ρ) (x : EStateM ε (ρ × τ) α) : EStateM ε τ α := fun s =>
  match x (initial, s) with
  | .ok a t => .ok a t.2
  | .error e t => .error e t.2

/-- Run `x`; when it throws, apply `unwind` to the state on the way out, as the
destructor of a guard object does. -/
def onThrow (unwind : σ → σ) (x : EStateM ε σ α) : EStateM ε σ α := fun s =>
  match x s with
  | .ok a s' => .ok a s'
  | .error e s' => .error e (unwind s')

/-! ## Hoare triples -/

/-- From every state satisfying `P`, `x` returns into `Q` or throws into `E`. -/
def Triple (P : σ → Prop) (x : EStateM ε σ α) (Q : α → σ → Prop) (E : ε → σ → Prop) : Prop :=
  ∀ s, P s → match x s with
    | .ok a s' => Q a s'
    | .error e s' => E e s'

namespace Triple

variable {P P' : σ → Prop} {Q Q' : α → σ → Prop} {E E' : ε → σ → Prop}

theorem pure {a : α} (h : ∀ s, P s → Q a s) : Triple P (pure a : EStateM ε σ α) Q E :=
  fun s hs => h s hs

theorem throw {e : ε} (h : ∀ s, P s → E e s) : Triple P (throw e : EStateM ε σ α) Q E :=
  fun s hs => h s hs

theorem bind {x : EStateM ε σ β} {f : β → EStateM ε σ α} {M : β → σ → Prop}
    (hx : Triple P x M E) (hf : ∀ b, Triple (M b) (f b) Q E) : Triple P (x >>= f) Q E := by
  intro s hs
  rw [bind_apply]
  have hxs := hx s hs
  cases hr : x s with
  | ok b s' =>
      rw [hr] at hxs
      exact hf b s' hxs
  | error e s' =>
      rw [hr] at hxs
      exact hxs

theorem consequence {x : EStateM ε σ α} (hx : Triple P x Q E) (hP : ∀ s, P' s → P s)
    (hQ : ∀ a s, Q a s → Q' a s) (hE : ∀ e s, E e s → E' e s) : Triple P' x Q' E' := by
  intro s hs
  have hxs := hx s (hP s hs)
  cases hr : x s with
  | ok a s' => rw [hr] at hxs; exact hQ a s' hxs
  | error e s' => rw [hr] at hxs; exact hE e s' hxs

/-- A pure precondition may be assumed. -/
theorem assume {p : Prop} {x : EStateM ε σ α} (h : p → Triple P x Q E) :
    Triple (fun s => p ∧ P s) x Q E :=
  fun s hs => h hs.1 s hs.2

theorem liftResult {x : Except ε α} (hok : ∀ a, x = .ok a → ∀ s, P s → Q a s)
    (herr : ∀ e, x = .error e → ∀ s, P s → E e s) :
    Triple P (Foundation.liftResult x) Q E := by
  intro s hs
  cases hx : x with
  | ok a => exact hok a hx s hs
  | error e => exact herr e hx s hs

/-- What runs on the second part of a pair keeps what is known of the first. -/
theorem outside {ρ : Type} {x : EStateM ε σ α} (G : ρ → Prop) (h : Triple P x Q E) :
    Triple (fun u : ρ × σ => G u.1 ∧ P u.2) (Foundation.outside x) (fun a u => G u.1 ∧ Q a u.2)
      (fun e u => E e u.2) := by
  intro u hu
  have hx := h u.2 hu.2
  unfold Foundation.outside
  cases hr : x u.2 with
  | ok a s' => rw [hr] at hx; exact ⟨hu.1, hx⟩
  | error e s' => rw [hr] at hx; exact hx

/-- A computation beside a first part that does not outlive it. -/
theorem enclosed {ρ : Type} {P : ρ × σ → Prop} {Q : α → ρ × σ → Prop} {E : ε → σ → Prop}
    {x : EStateM ε (ρ × σ) α} (initial : ρ) (h : Triple P x Q fun e u => E e u.2) :
    Triple (fun s => P (initial, s)) (Foundation.enclosed initial x) (fun a s => ∃ r, Q a (r, s))
      E := by
  intro s hs
  have hx := h (initial, s) hs
  unfold Foundation.enclosed
  cases hr : x (initial, s) with
  | ok a u => rw [hr] at hx; exact ⟨u.1, hx⟩
  | error e u => rw [hr] at hx; exact hx

/-- A precondition with a witness. -/
theorem exists_pre {ι : Sort*} {P : ι → σ → Prop} {x : EStateM ε σ α}
    (h : ∀ i, Triple (P i) x Q E) : Triple (fun s => ∃ i, P i s) x Q E :=
  fun s ⟨i, hi⟩ => h i s hi

/-- The invariant rule for folding an effectful step over a list: `I` speaks about
the accumulator and about how much of the list is done. -/
theorem foldlM {step : γ → δ → EStateM ε σ γ} {I : List δ → γ → σ → Prop} {all : List δ}
    (hstep : ∀ done d rest c, all = done ++ d :: rest →
      Triple (I done c) (step c d) (fun c' s => I (done ++ [d]) c' s) E) :
    ∀ (rest done : List δ) (c : γ), all = done ++ rest →
      Triple (I done c) (rest.foldlM step c) (fun c' s => I all c' s) E := by
  intro rest
  induction rest with
  | nil =>
      intro done c hall
      rw [List.append_nil] at hall
      subst hall
      exact Triple.pure fun s hs => hs
  | cons d rest ih =>
      intro done c hall
      rw [List.foldlM_cons]
      refine Triple.bind (hstep done d rest c hall) fun c' => ?_
      exact ih (done ++ [d]) c' (by simp [hall])

end Triple

/-! ## Relating two computations -/

/-- From related states, `x` and `y` either both return, with results and states
related by `Q`, or both throw the same exception, with states related by `E`. -/
def Simulates (R : σ → τ → Prop) (x : EStateM ε σ α) (y : EStateM ε τ β)
    (Q : α → β → σ → τ → Prop) (E : σ → τ → Prop) : Prop :=
  ∀ s t, R s t → match x s, y t with
    | .ok a s', .ok b t' => Q a b s' t'
    | .error e s', .error e' t' => e = e' ∧ E s' t'
    | _, _ => False

namespace Simulates

variable {R R' : σ → τ → Prop} {Q Q' : α → β → σ → τ → Prop} {E E' : σ → τ → Prop}

theorem pure {a : α} {b : β} (h : ∀ s t, R s t → Q a b s t) :
    Simulates R (pure a : EStateM ε σ α) (pure b : EStateM ε τ β) Q E :=
  fun s t hst => h s t hst

theorem bind {α' β' : Type} {x : EStateM ε σ α'} {y : EStateM ε τ β'}
    {f : α' → EStateM ε σ α} {g : β' → EStateM ε τ β} {M : α' → β' → σ → τ → Prop}
    (hxy : Simulates R x y M E) (hfg : ∀ a b, Simulates (M a b) (f a) (g b) Q E) :
    Simulates R (x >>= f) (y >>= g) Q E := by
  intro s t hst
  have h := hxy s t hst
  rw [bind_apply, bind_apply]
  cases hx : x s with
  | ok a s' =>
      cases hy : y t with
      | ok b t' => rw [hx, hy] at h; exact hfg a b s' t' h
      | error e t' => rw [hx, hy] at h; exact h.elim
  | error e s' =>
      cases hy : y t with
      | ok b t' => rw [hx, hy] at h; exact h.elim
      | error e' t' => rw [hx, hy] at h; exact h

/-- A step of the first computation alone. -/
theorem bind_left {α' : Type} {x : EStateM ε σ α'} {f : α' → EStateM ε σ α} {y : EStateM ε τ β}
    {a : α'} (hx : ∀ s t, R s t → ∃ s', x s = .ok a s' ∧ R' s' t)
    (hf : Simulates R' (f a) y Q E) : Simulates R (x >>= f) y Q E := by
  intro s t hst
  obtain ⟨s', hs', hst'⟩ := hx s t hst
  rw [bind_apply, hs']
  exact hf s' t hst'

theorem consequence {x : EStateM ε σ α} {y : EStateM ε τ β} (h : Simulates R x y Q E)
    (hR : ∀ s t, R' s t → R s t) (hQ : ∀ a b s t, Q a b s t → Q' a b s t)
    (hE : ∀ s t, E s t → E' s t) : Simulates R' x y Q' E' := by
  intro s t hst
  have hxy := h s t (hR s t hst)
  cases hx : x s with
  | ok a s' =>
      cases hy : y t with
      | ok b t' => rw [hx, hy] at hxy; exact hQ _ _ _ _ hxy
      | error e t' => rw [hx, hy] at hxy; exact hxy.elim
  | error e s' =>
      cases hy : y t with
      | ok b t' => rw [hx, hy] at hxy; exact hxy.elim
      | error e' t' => rw [hx, hy] at hxy; exact ⟨hxy.1, hE _ _ hxy.2⟩

/-- One computation from one state. -/
theorem same (x : EStateM ε σ α) :
    Simulates (fun s t => s = t) x x (fun a b s t => a = b ∧ s = t) fun s t => s = t := by
  rintro s _ rfl
  cases x s with
  | ok a s' => exact ⟨rfl, rfl⟩
  | error e s' => exact ⟨rfl, rfl⟩

/-- A fact about the first computation may be added to what two computations share. -/
theorem and_left {x : EStateM ε σ α} {y : EStateM ε τ β} {P : α → Prop} (h : Simulates R x y Q E)
    (hx : ∀ s a s', x s = .ok a s' → P a) :
    Simulates R x y (fun a b s t => P a ∧ Q a b s t) E := by
  intro s t hst
  have hxy := h s t hst
  cases hr : x s with
  | ok a s' =>
      cases hy : y t with
      | ok b t' => rw [hr, hy] at hxy; exact ⟨hx s a s' hr, hxy⟩
      | error e t' => rw [hr, hy] at hxy; exact hxy.elim
  | error e s' =>
      cases hy : y t with
      | ok b t' => rw [hr, hy] at hxy; exact hxy.elim
      | error e' t' => rw [hr, hy] at hxy; exact hxy

theorem liftResult {x : Except ε α} {R : σ → τ → Prop} {Q : α → α → σ → τ → Prop}
    (hok : ∀ a, x = .ok a → ∀ s t, R s t → Q a a s t) (herr : ∀ s t, R s t → E s t) :
    Simulates R (Foundation.liftResult x) (Foundation.liftResult x) Q E := by
  intro s t hst
  cases hx : x with
  | ok a => exact hok a hx s t hst
  | error e => exact ⟨rfl, herr s t hst⟩

/-- Folding related steps over one list keeps the accumulators related. -/
theorem foldlM {γ' : Type} {step : γ → δ → EStateM ε σ γ} {step' : γ' → δ → EStateM ε τ γ'}
    {I : γ → γ' → σ → τ → Prop} (items : List δ)
    (hstep : ∀ d ∈ items, ∀ c c', Simulates (I c c') (step c d) (step' c' d) I E) (c : γ) (c' : γ') :
    Simulates (I c c') (items.foldlM step c) (items.foldlM step' c') I E := by
  induction items generalizing c c' with
  | nil => exact Simulates.pure fun s t hst => hst
  | cons d rest ih =>
      rw [List.foldlM_cons, List.foldlM_cons]
      exact Simulates.bind (hstep d List.mem_cons_self c c') fun a b =>
        ih (fun d' hd' => hstep d' (List.mem_cons_of_mem _ hd')) a b

/-- Two loops over the same numbers, with a relation for each turn. -/
theorem forM_range {I : Nat → σ → τ → Prop} {x : Nat → EStateM ε σ PUnit}
    {y : Nat → EStateM ε τ PUnit} (n : Nat)
    (h : ∀ i < n, Simulates (I i) (x i) (y i) (fun _ _ => I (i + 1)) E) :
    Simulates (I 0) ((List.range n).forM x) ((List.range n).forM y) (fun _ _ => I n) E := by
  have hrest : ∀ m i, i + m = n → Simulates (I i) ((List.range' i m).forM x)
      ((List.range' i m).forM y) (fun _ _ => I n) E := by
    intro m
    induction m with
    | zero =>
        rintro i rfl
        exact Simulates.pure fun s t hst => hst
    | succ m ih =>
        intro i hi
        exact Simulates.bind (h i (by omega)) fun _ _ => ih (i + 1) (by omega)
  rw [List.range_eq_range']
  exact hrest n 0 (Nat.zero_add n)

/-- A state change on both sides. -/
theorem modify {f : σ → σ} {g : τ → τ} {Q : PUnit → PUnit → σ → τ → Prop}
    (h : ∀ s t, R s t → Q ⟨⟩ ⟨⟩ (f s) (g t)) :
    Simulates R (modify f : EStateM ε σ PUnit) (modify g : EStateM ε τ PUnit) Q E :=
  fun s t hst => h s t hst

/-- Reading both states. -/
theorem get_bind {f : σ → EStateM ε σ α} {g : τ → EStateM ε τ β}
    (h : ∀ s t, R s t → Simulates (fun s' t' => s' = s ∧ t' = t) (f s) (g t) Q E) :
    Simulates R (get >>= f) (get >>= g) Q E := by
  intro s t hst
  rw [bind_apply, bind_apply, get_apply, get_apply]
  exact h s t hst s t ⟨rfl, rfl⟩

/-- A first part of the second state that does not outlive its computation. -/
theorem enclosed {ρ : Type} {R : σ → ρ × τ → Prop} {Q : α → β → σ → ρ × τ → Prop}
    {E : σ → ρ × τ → Prop} {x : EStateM ε σ α} {y : EStateM ε (ρ × τ) β} (initial : ρ)
    (h : Simulates R x y Q E) :
    Simulates (fun s t => R s (initial, t)) x (Foundation.enclosed initial y)
      (fun a b s t => ∃ r, Q a b s (r, t)) (fun s t => ∃ r, E s (r, t)) := by
  intro s t hst
  have hxy := h s (initial, t) hst
  unfold Foundation.enclosed
  cases hx : x s with
  | ok a s' =>
      cases hy : y (initial, t) with
      | ok b u => rw [hx, hy] at hxy; exact ⟨u.1, hxy⟩
      | error e u => rw [hx, hy] at hxy; exact hxy.elim
  | error e s' =>
      cases hy : y (initial, t) with
      | ok b u => rw [hx, hy] at hxy; exact hxy.elim
      | error e' u => rw [hx, hy] at hxy; exact ⟨hxy.1, u.1, hxy.2⟩

/-- What runs on the second parts of pairs keeps the first parts equal. -/
theorem outside {ρ : Type} {x : EStateM ε σ α} {y : EStateM ε τ β} (h : Simulates R x y Q E) :
    Simulates (fun (u : ρ × σ) (v : ρ × τ) => u.1 = v.1 ∧ R u.2 v.2) (Foundation.outside x)
      (Foundation.outside y) (fun a b u v => u.1 = v.1 ∧ Q a b u.2 v.2)
      (fun u v => u.1 = v.1 ∧ E u.2 v.2) := by
  rintro ⟨r, s⟩ ⟨_, t⟩ ⟨rfl, hst⟩
  have hxy := h s t hst
  unfold Foundation.outside
  dsimp only
  cases hx : x s with
  | ok a s' =>
      cases hy : y t with
      | ok b t' => rw [hx, hy] at hxy; exact ⟨rfl, hxy⟩
      | error e t' => rw [hx, hy] at hxy; exact hxy.elim
  | error e s' =>
      cases hy : y t with
      | ok b t' => rw [hx, hy] at hxy; exact hxy.elim
      | error e' t' => rw [hx, hy] at hxy; exact ⟨hxy.1, rfl, hxy.2⟩

/-- First parts on both sides that do not outlive their computations. -/
theorem enclosed_both {ρ : Type} {R : ρ × σ → ρ × τ → Prop} {Q : α → β → σ → τ → Prop}
    {E : σ → τ → Prop} {x : EStateM ε (ρ × σ) α} {y : EStateM ε (ρ × τ) β} (initial : ρ)
    (h : Simulates R x y (fun a b u v => Q a b u.2 v.2) fun u v => E u.2 v.2) :
    Simulates (fun s t => R (initial, s) (initial, t)) (Foundation.enclosed initial x)
      (Foundation.enclosed initial y) Q E := by
  intro s t hst
  have hxy := h (initial, s) (initial, t) hst
  unfold Foundation.enclosed
  cases hx : x (initial, s) with
  | ok a u =>
      cases hy : y (initial, t) with
      | ok b v => rw [hx, hy] at hxy; exact hxy
      | error e v => rw [hx, hy] at hxy; exact hxy.elim
  | error e u =>
      cases hy : y (initial, t) with
      | ok b v => rw [hx, hy] at hxy; exact hxy.elim
      | error e' v => rw [hx, hy] at hxy; exact hxy

/-- A case distinction on a value both sides share. -/
theorem ite {p : Prop} [Decidable p] {x x' : EStateM ε σ α} {y y' : EStateM ε τ β}
    (ht : p → Simulates R x y Q E) (hf : ¬ p → Simulates R x' y' Q E) :
    Simulates R (if p then x else x') (if p then y else y') Q E := by
  by_cases hp : p
  · rw [if_pos hp, if_pos hp]
    exact ht hp
  · rw [if_neg hp, if_neg hp]
    exact hf hp

end Simulates

/-- Two computations that return the same result or throw the same exception, and keep
their states related. -/
abbrev Agrees (R : σ → τ → Prop) (E : σ → τ → Prop) (x : EStateM ε σ α) (y : EStateM ε τ α) :
    Prop :=
  Simulates R x y (fun a b s t => a = b ∧ R s t) E

namespace Agrees

variable {R : σ → τ → Prop} {E : σ → τ → Prop}

theorem pure (a : α) : Agrees R E (pure a : EStateM ε σ α) (pure a) :=
  Simulates.pure fun _ _ h => ⟨rfl, h⟩

/-- After the first computations have agreed, the rest may assume one result. -/
theorem bind {α' : Type} {Q : α → β → σ → τ → Prop} {x : EStateM ε σ α'} {y : EStateM ε τ α'}
    {f : α' → EStateM ε σ α} {g : α' → EStateM ε τ β} (hxy : Agrees R E x y)
    (hfg : ∀ a, Simulates R (f a) (g a) Q E) : Simulates R (x >>= f) (y >>= g) Q E := by
  refine Simulates.bind hxy fun a b s t h => ?_
  obtain ⟨rfl, h⟩ := h
  exact hfg a s t h

theorem liftResult (x : Except ε α) (herr : ∀ s t, R s t → E s t) :
    Agrees R E (Foundation.liftResult x) (Foundation.liftResult x) :=
  Simulates.liftResult (fun _ _ _ _ h => ⟨rfl, h⟩) herr

theorem foldlM {step : γ → δ → EStateM ε σ γ} {step' : γ → δ → EStateM ε τ γ}
    (hstep : ∀ c d, Agrees R E (step c d) (step' c d)) (items : List δ) (c : γ) :
    Agrees R E (items.foldlM step c) (items.foldlM step' c) := by
  induction items generalizing c with
  | nil => exact pure c
  | cons d rest ih =>
      rw [List.foldlM_cons, List.foldlM_cons]
      exact bind (hstep c d) ih

theorem forM {step : δ → EStateM ε σ PUnit} {step' : δ → EStateM ε τ PUnit} (items : List δ)
    (hstep : ∀ d ∈ items, Agrees R E (step d) (step' d)) :
    Agrees R E (items.forM step) (items.forM step') := by
  induction items with
  | nil => exact Agrees.pure PUnit.unit
  | cons d rest ih =>
      exact bind (hstep d List.mem_cons_self) fun _ =>
        ih fun d' hd' => hstep d' (List.mem_cons_of_mem _ hd')

end Agrees

end Qalsh.Foundation
