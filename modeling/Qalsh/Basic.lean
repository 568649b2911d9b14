/-
  Basic.lean --- errors, `Require` and the checked 64-bit arithmetic.

  Sizes, offsets, counts and point ids are natural numbers.  Where the source guards
  a 64-bit operation the guard is kept; `undefined` marks an access whose effect the
  language leaves open, so that its absence can be stated and proved.
-/
import Mathlib
import Qalsh.Foundation.Effect

set_option autoImplicit false

namespace Qalsh

/-- How a call ends when it does not return. -/
inductive Error where
  /-- `std::invalid_argument` -/
  | invalidArgument (message : String)
  /-- `std::runtime_error` -/
  | runtimeError (message : String)
  /-- `std::overflow_error` -/
  | overflowError (message : String)
  /-- an exception thrown by a strategy, a rule or a point accessor -/
  | callback (what : String)
  /-- an access the language leaves undefined -/
  | undefined (what : String)
  deriving DecidableEq, Repr

/-- A `std::uint32_t` that no check bounds further. -/
abbrev Word32 : Type := Fin (2 ^ 32)

def require (condition : Prop) [Decidable condition] (message : String) : Except Error Unit :=
  if condition then .ok () else .error (.invalidArgument message)

@[simp] theorem require_eq_ok {condition : Prop} [Decidable condition] {message : String}
    {u : Unit} : require condition message = .ok u ↔ condition := by
  unfold require
  split <;> simp_all

theorem require_of {condition : Prop} [Decidable condition] {message : String}
    (h : condition) : require condition message = .ok () := by
  simp [h]

/-! ## Sequencing fallible results -/

theorem except_bind_eq_ok {ε α β : Type} {x : Except ε α} {f : α → Except ε β} {b : β} :
    (x >>= f) = .ok b ↔ ∃ a, x = .ok a ∧ f a = .ok b := by
  cases x with
  | error e => simp [bind, Except.bind]
  | ok a => simp [bind, Except.bind]

theorem except_unit_bind_eq_ok {ε β : Type} {x : Except ε Unit} {f : Unit → Except ε β} {b : β} :
    (x >>= f) = .ok b ↔ x = .ok () ∧ f () = .ok b := by
  cases x with
  | error e => simp [bind, Except.bind]
  | ok a => simp [bind, Except.bind]

theorem forM_eq_ok {ε α : Type} {f : α → Except ε Unit} {items : List α} :
    items.forM f = .ok () ↔ ∀ x ∈ items, f x = .ok () := by
  induction items with
  | nil => simp [pure, Except.pure]
  | cons x rest ih =>
      show (f x >>= fun _ => rest.forM f) = _ ↔ _
      rw [except_unit_bind_eq_ok, ih]
      simp

/-- A map whose every step is a test and a value. -/
theorem mapM_eq_ok_iff {ε α β : Type} {f : α → Except ε β} {c : α → Prop} {v : α → β}
    {items : List α} (h : ∀ a ∈ items, ∀ b, f a = .ok b ↔ c a ∧ b = v a) {results : List β} :
    items.mapM f = .ok results ↔ (∀ a ∈ items, c a) ∧ results = items.map v := by
  induction items generalizing results with
  | nil => simp [pure, Except.pure, eq_comm]
  | cons a rest ih =>
      have hrest : ∀ r : List β, rest.mapM f = .ok r ↔ (∀ a ∈ rest, c a) ∧ r = rest.map v :=
        fun r => ih fun b hb => h b (List.mem_cons_of_mem _ hb)
      rw [List.mapM_cons, except_bind_eq_ok]
      constructor
      · rintro ⟨b, hb, hmore⟩
        rw [except_bind_eq_ok] at hmore
        obtain ⟨bs, hbs, hend⟩ := hmore
        obtain ⟨hc, rfl⟩ := (h a List.mem_cons_self b).mp hb
        obtain ⟨hall, rfl⟩ := (hrest bs).mp hbs
        cases hend
        exact ⟨List.forall_mem_cons.mpr ⟨hc, hall⟩, rfl⟩
      · rintro ⟨hall, rfl⟩
        obtain ⟨hc, hall⟩ := List.forall_mem_cons.mp hall
        refine ⟨v a, (h a List.mem_cons_self _).mpr ⟨hc, rfl⟩, ?_⟩
        rw [except_bind_eq_ok]
        exact ⟨rest.map v, (hrest _).mpr ⟨hall, rfl⟩, rfl⟩

@[simp] theorem except_ok_bind {ε α β : Type} (a : α) (f : α → Except ε β) :
    ((Except.ok a : Except ε α) >>= f) = f a := rfl

@[simp] theorem except_error_bind {ε α β : Type} (e : ε) (f : α → Except ε β) :
    ((Except.error e : Except ε α) >>= f) = .error e := rfl

@[simp] theorem except_pure {ε α : Type} (a : α) : (pure a : Except ε α) = .ok a := rfl

/-- A loop over an index range that does not fail keeps an invariant. -/
theorem foldlM_range_invariant {ε σ : Type} {step : σ → Nat → Except ε σ} {P : Nat → σ → Prop}
    {n : Nat} {start result : σ} (h0 : P 0 start)
    (hstep : ∀ i s s', i < n → P i s → step s i = .ok s' → P (i + 1) s')
    (h : (List.range n).foldlM step start = .ok result) : P n result := by
  induction n generalizing result with
  | zero =>
      cases h
      exact h0
  | succ n ih =>
      rw [List.range_succ, List.foldlM_append, except_bind_eq_ok] at h
      obtain ⟨middle, hmiddle, hlast⟩ := h
      rw [List.foldlM_cons, except_bind_eq_ok] at hlast
      obtain ⟨last, hlast, hend⟩ := hlast
      cases hend
      exact hstep n middle result (by omega)
        (ih (fun i s s' hi => hstep i s s' (by omega)) hmiddle) hlast

/-- A loop over an index range whose steps succeed under an invariant succeeds. -/
theorem foldlM_range_ok {ε σ : Type} {step : σ → Nat → Except ε σ} {P : Nat → σ → Prop}
    {n : Nat} {start : σ} (h0 : P 0 start)
    (hstep : ∀ i s, i < n → P i s → ∃ s', step s i = .ok s' ∧ P (i + 1) s') :
    ∃ result, (List.range n).foldlM step start = .ok result ∧ P n result := by
  induction n with
  | zero => exact ⟨start, rfl, h0⟩
  | succ n ih =>
      obtain ⟨middle, hmiddle, hP⟩ := ih fun i s hi => hstep i s (by omega)
      obtain ⟨result, hresult, hP'⟩ := hstep n middle (by omega) hP
      refine ⟨result, ?_, hP'⟩
      rw [List.range_succ, List.foldlM_append, hmiddle, except_ok_bind, List.foldlM_cons, hresult]
      rfl

/-! ## Checked arithmetic -/

/-- The largest value of `std::uint64_t` and of `std::size_t`. -/
def uint64Max : Nat := 2 ^ 64 - 1

/-- The largest value of `off_t`. -/
def offMax : Nat := 2 ^ 63 - 1

def checkedAdd (lhs rhs : Nat) : Option Nat :=
  if rhs > uint64Max - lhs then none else some (lhs + rhs)

def checkedMultiply (lhs rhs : Nat) : Option Nat :=
  if lhs ≠ 0 ∧ rhs > uint64Max / lhs then none else some (lhs * rhs)

def checkedAddOrThrow (lhs rhs : Nat) (description : String) : Except Error Nat :=
  match checkedAdd lhs rhs with
  | some result => .ok result
  | none => .error (.invalidArgument description)

def checkedMultiplyOrThrow (lhs rhs : Nat) (description : String) : Except Error Nat :=
  match checkedMultiply lhs rhs with
  | some result => .ok result
  | none => .error (.invalidArgument description)

def checkedSize (value : Nat) (description : String) : Except Error Nat := do
  require (value ≤ uint64Max) description
  return value

def alignUp (value alignment : Nat) : Except Error Nat := do
  require (alignment > 0) "alignment must be positive"
  let remainder := value % alignment
  if remainder = 0 then return value
  checkedAddOrThrow value (alignment - remainder) "index layout arithmetic overflow"

theorem checkedAddOrThrow_of_le {lhs rhs : Nat} {description : String}
    (h : lhs + rhs ≤ uint64Max) : checkedAddOrThrow lhs rhs description = .ok (lhs + rhs) := by
  have : ¬ rhs > uint64Max - lhs := by omega
  simp [checkedAddOrThrow, checkedAdd, this]

theorem checkedMultiplyOrThrow_of_le {lhs rhs : Nat} {description : String}
    (h : lhs * rhs ≤ uint64Max) :
    checkedMultiplyOrThrow lhs rhs description = .ok (lhs * rhs) := by
  have : ¬ (lhs ≠ 0 ∧ rhs > uint64Max / lhs) := by
    rintro ⟨hne, hgt⟩
    have := (Nat.div_lt_iff_lt_mul (Nat.pos_of_ne_zero hne)).mp hgt
    rw [Nat.mul_comm] at this
    omega
  simp only [checkedMultiplyOrThrow, checkedMultiply, if_neg this]

theorem checkedAddOrThrow_eq_ok {lhs rhs result : Nat} {description : String}
    (hlhs : lhs ≤ uint64Max) (h : checkedAddOrThrow lhs rhs description = .ok result) :
    result = lhs + rhs ∧ lhs + rhs ≤ uint64Max := by
  unfold checkedAddOrThrow checkedAdd at h
  split at h
  · rename_i heq
    split at heq
    · cases heq
    · cases heq
      cases h
      exact ⟨rfl, by omega⟩
  · cases h

theorem checkedMultiplyOrThrow_eq_ok {lhs rhs result : Nat} {description : String}
    (h : checkedMultiplyOrThrow lhs rhs description = .ok result) :
    result = lhs * rhs ∧ lhs * rhs ≤ uint64Max := by
  unfold checkedMultiplyOrThrow checkedMultiply at h
  split at h
  · rename_i heq
    split at heq
    · cases heq
    · rename_i hno
      cases heq
      cases h
      refine ⟨rfl, ?_⟩
      rcases Nat.eq_zero_or_pos lhs with h0 | hpos
      · simp [h0]
      · have hle : rhs ≤ uint64Max / lhs := by
          by_contra hgt
          exact hno ⟨hpos.ne', Nat.lt_of_not_le hgt⟩
        have := (Nat.le_div_iff_mul_le hpos).mp hle
        rwa [Nat.mul_comm] at this
  · cases h

theorem checkedSize_eq_ok {value result : Nat} {description : String} :
    checkedSize value description = .ok result ↔ result = value ∧ value ≤ uint64Max := by
  unfold checkedSize
  by_cases h : value ≤ uint64Max
  · simp [require, h, eq_comm]
  · simp [require, h]

/-- What `alignUp` returns: the least multiple of the alignment not below `value`. -/
theorem alignUp_eq_ok {value alignment result : Nat} (hvalue : value ≤ uint64Max)
    (h : alignUp value alignment = .ok result) :
    result % alignment = 0 ∧ value ≤ result ∧ result < value + alignment := by
  unfold alignUp at h
  rw [except_bind_eq_ok] at h
  obtain ⟨_, hpos, h⟩ := h
  have hpos := require_eq_ok.mp hpos
  have hdm := Nat.div_add_mod value alignment
  have hml := Nat.mod_lt value hpos
  by_cases hr : value % alignment = 0
  · simp only [hr, if_true, except_pure, Except.ok.injEq] at h
    subst h
    exact ⟨hr, le_rfl, by omega⟩
  · simp only [hr, if_false] at h
    obtain ⟨rfl, -⟩ := checkedAddOrThrow_eq_ok hvalue h
    refine ⟨?_, by omega, by omega⟩
    have : value + (alignment - value % alignment) =
        alignment * (value / alignment) + alignment := by omega
    rw [this, ← Nat.mul_succ, Nat.mul_mod_right]

end Qalsh
