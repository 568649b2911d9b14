/-
  Foundation/Countdown.lean --- counters that count down from a threshold.

  Each event names a counter, which goes down by one until it is zero.  A counter
  reaches zero at the event that is the threshold-th to name it, and at no other.
-/
import Mathlib

set_option autoImplicit false

namespace Qalsh.Foundation

/-- Counters for the items below `items` that have counted down from `threshold`. -/
structure CountsDown (threshold items : Nat) (events counters : List Nat) : Prop where
  length_eq : counters.length = items
  count_eq : ∀ i < items, counters.getD i 0 = threshold - events.count i

namespace CountsDown

variable {threshold items i : Nat} {events counters : List Nat}

theorem start (threshold items : Nat) :
    CountsDown threshold items [] (List.replicate items threshold) where
  length_eq := List.length_replicate
  count_eq i hi := by
    rw [List.getD_eq_getElem _ _ (List.length_replicate.symm ▸ hi), List.getElem_replicate]
    rfl

theorem step (h : CountsDown threshold items events counters) (hi : i < items) :
    CountsDown threshold items (events ++ [i]) (counters.set i (counters.getD i 0 - 1)) where
  length_eq := List.length_set.trans h.length_eq
  count_eq j hj := by
    have hcount := h.count_eq j hj
    rw [List.getD_eq_getElem?_getD] at hcount ⊢
    rw [List.getElem?_set, List.count_append, List.count_singleton]
    by_cases hij : i = j
    · subst hij
      rw [if_pos rfl, if_pos (h.length_eq.symm ▸ hi), if_pos (beq_self_eq_true i), Option.getD_some,
        h.count_eq i hi]
      omega
    · rw [if_neg hij, hcount, if_neg (fun hbeq => hij (beq_iff_eq.mp hbeq)), Nat.add_zero]

/-- The event that makes a counter zero. -/
theorem eq_one_iff (h : CountsDown threshold items events counters) (hi : i < items) :
    counters.getD i 0 = 1 ↔ threshold = events.count i + 1 := by
  rw [h.count_eq i hi]
  omega

end CountsDown

end Qalsh.Foundation
