/-
  Foundation/Blocks.lean --- positions of a sequence stored in blocks.

  A sequence is cut into consecutive non-empty blocks of given sizes.  `blockStart`
  is where a block begins; the extent of a scan at a position is the rest of its
  block, in either direction.
-/
import Mathlib
import Qalsh.Foundation.Outward

set_option autoImplicit false

namespace Qalsh.Foundation

/-! ## Where blocks start -/

/-- The position of the first element of block `i`. -/
def blockStart (sizes : List Nat) (i : Nat) : Nat := (sizes.take i).sum

@[simp] theorem blockStart_zero (sizes : List Nat) : blockStart sizes 0 = 0 := rfl

theorem blockStart_succ {sizes : List Nat} {i : Nat} (h : i < sizes.length) :
    blockStart sizes (i + 1) = blockStart sizes i + sizes[i] := by
  rw [blockStart, List.take_succ_eq_append_getElem h, List.sum_append]
  simp [blockStart]

theorem blockStart_cons_succ (size : Nat) (sizes : List Nat) (i : Nat) :
    blockStart (size :: sizes) (i + 1) = size + blockStart sizes i := by
  simp [blockStart]

theorem blockStart_length (sizes : List Nat) : blockStart sizes sizes.length = sizes.sum := by
  simp [blockStart]

theorem blockStart_mono {sizes : List Nat} {i j : Nat} (h : i ≤ j) :
    blockStart sizes i ≤ blockStart sizes j := by
  obtain ⟨d, rfl⟩ := Nat.exists_eq_add_of_le h
  rw [blockStart, blockStart, List.take_add, List.sum_append]
  exact Nat.le_add_right _ _

theorem blockStart_le_sum (sizes : List Nat) (i : Nat) : blockStart sizes i ≤ sizes.sum := by
  rcases Nat.le_total i sizes.length with h | h
  · rw [← blockStart_length]
    exact blockStart_mono h
  · rw [blockStart, List.take_of_length_le h]

/-- Every position lies in a block. -/
theorem exists_block {sizes : List Nat} {p : Nat} (h : p < sizes.sum) :
    ∃ i j, ∃ hi : i < sizes.length, j < sizes[i] ∧ p = blockStart sizes i + j := by
  induction sizes generalizing p with
  | nil => simp at h
  | cons size sizes ih =>
      rcases Nat.lt_or_ge p size with hlt | hge
      · exact ⟨0, p, by simp, hlt, by simp⟩
      · have hrest : p - size < sizes.sum := by
          rw [List.sum_cons] at h
          omega
        obtain ⟨i, j, hi, hj, hp⟩ := ih hrest
        refine ⟨i + 1, j, by simpa using hi, by simpa using hj, ?_⟩
        rw [blockStart_cons_succ]
        omega

/-- The element at an offset of a block. -/
theorem getElem?_flatMap_blockStart {α β : Type} {f : α → List β} {items : List α} {i j : Nat}
    (hi : i < items.length) (hj : j < (f items[i]).length) :
    (items.flatMap f)[blockStart (items.map fun item => (f item).length) i + j]? =
      some (f items[i])[j] := by
  induction items generalizing i with
  | nil => simp at hi
  | cons item items ih =>
      cases i with
      | zero =>
          have hj : j < (f item).length := hj
          rw [List.flatMap_cons, List.map_cons, blockStart_zero, Nat.zero_add,
            List.getElem?_append_left hj, List.getElem?_eq_getElem hj]
          rfl
      | succ i =>
          rw [List.flatMap_cons, List.map_cons, blockStart_cons_succ, Nat.add_assoc,
            List.getElem?_append_right (by omega), Nat.add_sub_cancel_left]
          exact ih (by simpa using hi) hj

/-! ## The rest of a block -/

/-- How far a block reaches down from the position before `l`. -/
def blockLeft : List Nat → Nat → Nat
  | [], _ => 0
  | size :: sizes, l => if l ≤ size then l else blockLeft sizes (l - size)

/-- How far a block reaches up from the position `r`. -/
def blockRight : List Nat → Nat → Nat
  | [], _ => 0
  | size :: sizes, r => if r < size then size - r else blockRight sizes (r - size)

theorem blockLeft_at {sizes : List Nat} {i j : Nat} (hi : i < sizes.length) (hj : j < sizes[i]) :
    blockLeft sizes (blockStart sizes i + j + 1) = j + 1 := by
  induction sizes generalizing i with
  | nil => simp at hi
  | cons size sizes ih =>
      cases i with
      | zero =>
          have hj : j < size := hj
          rw [blockStart_zero, Nat.zero_add, blockLeft, if_pos (by omega)]
      | succ i =>
          rw [blockStart_cons_succ, blockLeft, if_neg (by omega),
            show size + blockStart sizes i + j + 1 - size = blockStart sizes i + j + 1 by omega]
          exact ih (by simpa using hi) (by simpa using hj)

theorem blockRight_at {sizes : List Nat} {i j : Nat} (hi : i < sizes.length) (hj : j < sizes[i]) :
    blockRight sizes (blockStart sizes i + j) = sizes[i] - j := by
  induction sizes generalizing i with
  | nil => simp at hi
  | cons size sizes ih =>
      cases i with
      | zero =>
          have hj : j < size := hj
          rw [blockStart_zero, Nat.zero_add, blockRight, if_pos hj]
          rfl
      | succ i =>
          rw [blockStart_cons_succ, blockRight, if_neg (by omega),
            show size + blockStart sizes i + j - size = blockStart sizes i + j by omega]
          simpa using ih (by simpa using hi) (by simpa using hj)

theorem blockLeft_zero (sizes : List Nat) : blockLeft sizes 0 = 0 := by
  cases sizes <;> simp [blockLeft]

/-- The extent of a sequence stored in blocks: the rest of the block. -/
def Extent.ofBlocks (sizes : List Nat) {n : Nat} (h : sizes.sum = n) : Extent n where
  left l := if l ≤ n then blockLeft sizes l else l
  right r := if r < n then blockRight sizes r else 0
  left_le l := by
    subst h
    split
    · rename_i hl
      rcases Nat.eq_zero_or_pos l with rfl | hpos
      · rw [blockLeft_zero]
      · obtain ⟨i, j, hi, hj, hp⟩ := exists_block (show l - 1 < sizes.sum by omega)
        rw [show l = blockStart sizes i + j + 1 by omega, blockLeft_at hi hj]
        omega
    · exact le_rfl
  left_pos l hl := by
    subst h
    split
    · obtain ⟨i, j, hi, hj, hp⟩ := exists_block (show l - 1 < sizes.sum by omega)
      rw [show l = blockStart sizes i + j + 1 by omega, blockLeft_at hi hj]
      omega
    · exact hl
  right_le r _ := by
    subst h
    split
    · rename_i hr
      obtain ⟨i, j, hi, hj, rfl⟩ := exists_block hr
      have hnext := blockStart_succ hi
      have hle := blockStart_le_sum sizes (i + 1)
      rw [blockRight_at hi hj]
      omega
    · exact Nat.zero_le _
  right_pos r hr := by
    subst h
    obtain ⟨i, j, hi, hj, rfl⟩ := exists_block hr
    rw [if_pos hr, blockRight_at hi hj]
    omega

theorem Extent.ofBlocks_left {sizes : List Nat} {n : Nat} (h : sizes.sum = n) {i j : Nat}
    (hi : i < sizes.length) (hj : j < sizes[i]) :
    (Extent.ofBlocks sizes h).left (blockStart sizes i + j + 1) = j + 1 := by
  have hnext := blockStart_succ hi
  have hle := blockStart_le_sum sizes (i + 1)
  show (if _ then _ else _) = _
  rw [if_pos (by omega), blockLeft_at hi hj]

theorem Extent.ofBlocks_right {sizes : List Nat} {n : Nat} (h : sizes.sum = n) {i j : Nat}
    (hi : i < sizes.length) (hj : j < sizes[i]) :
    (Extent.ofBlocks sizes h).right (blockStart sizes i + j) = sizes[i] - j := by
  have hnext := blockStart_succ hi
  have hle := blockStart_le_sum sizes (i + 1)
  show (if _ then _ else _) = _
  rw [if_pos (by omega), blockRight_at hi hj]

end Qalsh.Foundation
