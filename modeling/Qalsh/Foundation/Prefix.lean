/-
  Foundation/Prefix.lean --- predicates that hold on a prefix of the positions.

  `leading p n` counts the positions from zero up to the first failure of `p`.
  When `p` is prefix closed that count is the partition point that a bisection
  finds, whichever bracket the bisection starts from.
-/
import Mathlib

set_option autoImplicit false

namespace Qalsh.Foundation

/-! ## The leading run -/

/-- How many positions below `n` come before the first one where `p` fails. -/
def leading (p : Nat → Bool) : Nat → Nat
  | 0 => 0
  | n + 1 => if p 0 then leading (fun i => p (i + 1)) n + 1 else 0

theorem leading_le (p : Nat → Bool) (n : Nat) : leading p n ≤ n := by
  induction n generalizing p with
  | zero => exact le_rfl
  | succ n ih =>
      unfold leading
      split
      · exact Nat.succ_le_succ (ih _)
      · exact Nat.zero_le _

theorem leading_holds {p : Nat → Bool} {n i : Nat} (h : i < leading p n) : p i = true := by
  induction n generalizing p i with
  | zero => simp [leading] at h
  | succ n ih =>
      unfold leading at h
      split at h
      · rename_i h0
        cases i with
        | zero => exact h0
        | succ i => exact ih (p := fun i => p (i + 1)) (by omega)
      · omega

theorem leading_stop {p : Nat → Bool} {n : Nat} (h : leading p n < n) :
    p (leading p n) = false := by
  induction n generalizing p with
  | zero => omega
  | succ n ih =>
      unfold leading at h ⊢
      by_cases h0 : p 0 = true
      · simp only [h0, if_true] at h ⊢
        exact ih (p := fun i => p (i + 1)) (by omega)
      · simp [h0]

theorem leading_unique {p : Nat → Bool} {n c : Nat} (hc : c ≤ n)
    (holds : ∀ i < c, p i = true) (stop : c < n → p c = false) : leading p n = c := by
  rcases Nat.lt_trichotomy (leading p n) c with hlt | heq | hgt
  · have := leading_stop (lt_of_lt_of_le hlt hc)
    rw [holds _ hlt] at this
    cases this
  · exact heq
  · have := leading_holds hgt
    rw [stop (lt_of_lt_of_le hgt (leading_le p n))] at this
    cases this

theorem leading_congr {p q : Nat → Bool} {n : Nat} (h : ∀ i < n, p i = q i) :
    leading p n = leading q n := by
  refine leading_unique (leading_le q n) (fun i hi => ?_) (fun hlt => ?_)
  · rw [h i (lt_of_lt_of_le hi (leading_le q n))]
    exact leading_holds hi
  · rw [h _ hlt]
    exact leading_stop hlt

/-- A run that is stopped early is stopped at the same place in any longer range. -/
theorem leading_of_stopped {p : Nat → Bool} {m n : Nat} (hmn : m ≤ n) (h : leading p m < m) :
    leading p n = leading p m :=
  leading_unique ((leading_le p m).trans hmn) (fun _ hi => leading_holds hi)
    (fun _ => leading_stop h)

/-- A run that fills its range continues from there. -/
theorem leading_add {p : Nat → Bool} {m : Nat} (n : Nat) (h : leading p m = m) :
    leading p (m + n) = m + leading (fun i => p (m + i)) n := by
  have hle := leading_le (fun i => p (m + i)) n
  refine leading_unique (by omega) (fun i hi => ?_) (fun hlt => ?_)
  · rcases Nat.lt_or_ge i m with him | him
    · exact leading_holds (n := m) (by omega)
    · have := leading_holds (p := fun i => p (m + i)) (n := n) (i := i - m) (by omega)
      simpa [Nat.add_sub_cancel' him] using this
  · exact leading_stop (p := fun i => p (m + i)) (by omega)

/-- Restricting the range truncates the run. -/
theorem leading_of_le {p : Nat → Bool} {m n : Nat} (h : m ≤ n) :
    leading p m = min m (leading p n) := by
  refine leading_unique (Nat.min_le_left _ _) (fun i hi => leading_holds (n := n) ?_) (fun hlt => ?_)
  · omega
  · have heq : min m (leading p n) = leading p n := by omega
    rw [heq]
    exact leading_stop (by omega)

theorem leading_min (p : Nat → Bool) (m n : Nat) : leading p (min m n) = min m (leading p n) := by
  have hle := leading_le p n
  rw [leading_of_le (Nat.min_le_right m n)]
  omega

/-! ## Bisection -/

/-- `p` holds on a prefix of the positions below `n`. -/
def PrefixClosed (p : Nat → Bool) (n : Nat) : Prop :=
  ∀ i j, i ≤ j → j < n → p j = true → p i = true

/-- The partition point of a prefix-closed predicate, by halving `[lo, hi)`. -/
def bisect (p : Nat → Bool) (lo hi : Nat) : Nat :=
  if lo < hi then
    let middle := lo + (hi - lo) / 2
    if p middle then bisect p (middle + 1) hi else bisect p lo middle
  else lo
termination_by hi - lo

/-- `bisect` with a predicate that may fail to evaluate. -/
def bisectM {ε : Type} (p : Nat → Except ε Bool) (lo hi : Nat) : Except ε Nat :=
  if lo < hi then do
    let middle := lo + (hi - lo) / 2
    if (← p middle) then bisectM p (middle + 1) hi else bisectM p lo middle
  else pure lo
termination_by hi - lo

theorem bisect_le (p : Nat → Bool) {lo hi : Nat} (h : lo ≤ hi) : bisect p lo hi ≤ hi := by
  fun_induction bisect p lo hi with
  | case1 lo hi hlt middle hmid ih => exact ih (by omega)
  | case2 lo hi hlt middle hmid ih => exact (ih (by omega)).trans (by omega)
  | case3 lo hi hlt => exact h

theorem bisect_eq_leading {p : Nat → Bool} {n : Nat} (hp : PrefixClosed p n) (lo hi : Nat)
    (hlo : lo ≤ leading p n) (hhi : leading p n ≤ hi) (hn : hi ≤ n) :
    bisect p lo hi = leading p n := by
  fun_induction bisect p lo hi with
  | case1 lo hi hlt middle hmid ih =>
      -- the middle is inside the run, so the run reaches past it
      refine ih ?_ hhi hn
      by_contra hcon
      have hstop := leading_stop (p := p) (n := n) (by omega)
      rw [hp _ middle (by omega) (by omega) hmid] at hstop
      cases hstop
  | case2 lo hi hlt middle hmid ih =>
      refine ih hlo ?_ (by omega)
      by_contra hcon
      exact hmid (leading_holds (p := p) (n := n) (by omega))
  | case3 lo hi hlt => omega

theorem bisectM_eq {ε : Type} {p : Nat → Except ε Bool} {q : Nat → Bool} (lo hi : Nat)
    (h : ∀ i, lo ≤ i → i < hi → p i = .ok (q i)) : bisectM p lo hi = .ok (bisect q lo hi) := by
  fun_induction bisect q lo hi with
  | case1 lo hi hlt middle hmid ih =>
      rw [bisectM, if_pos hlt]
      have hp := h middle (by omega) (by omega)
      show (p middle >>= _) = _
      rw [hp]
      simp only [bind, Except.bind, hmid, if_true]
      exact ih fun i h₁ h₂ => h i (by omega) h₂
  | case2 lo hi hlt middle hmid ih =>
      rw [bisectM, if_pos hlt]
      have hp := h middle (by omega) (by omega)
      show (p middle >>= _) = _
      rw [hp]
      simp only [bind, Except.bind, hmid]
      exact ih fun i h₁ h₂ => h i h₁ (by omega)
  | case3 lo hi hlt =>
      rw [bisectM, if_neg hlt]
      rfl

/-! ## Counting an interval -/

/-- A predicate that holds on an interval only counts its positions. -/
theorem countP_interval {p : Nat → Bool} {a b n : Nat} (hab : a ≤ b) (hbn : b ≤ n)
    (h : ∀ i < n, p i = true ↔ a ≤ i ∧ i < b) : (List.range n).countP p = b - a := by
  have hparts : List.range n = List.range a ++ List.range' a (b - a) ++ List.range' b (n - b) := by
    rw [List.range_eq_range', List.range_eq_range']
    have hfirst := List.range'_append_1 (s := 0) (m := a) (n := b - a)
    have hlast := List.range'_append_1 (s := 0) (m := b) (n := n - b)
    rw [Nat.zero_add] at hfirst hlast
    rw [hfirst, show a + (b - a) = b by omega, hlast, show b + (n - b) = n by omega]
  have hbefore : (List.range a).countP p = 0 := by
    refine List.countP_eq_zero.mpr fun i hi hp => ?_
    rw [List.mem_range] at hi
    have hin := (h i (by omega)).mp hp
    omega
  have hinside : (List.range' a (b - a)).countP p = b - a := by
    refine (List.countP_eq_length.mpr fun i hi => ?_).trans List.length_range'
    rw [List.mem_range'_1] at hi
    exact (h i (by omega)).mpr (by omega)
  have hafter : (List.range' b (n - b)).countP p = 0 := by
    refine List.countP_eq_zero.mpr fun i hi hp => ?_
    rw [List.mem_range'_1] at hi
    have hin := (h i (by omega)).mp hp
    omega
  rw [hparts, List.countP_append, List.countP_append, hbefore, hinside, hafter]
  omega

end Qalsh.Foundation
