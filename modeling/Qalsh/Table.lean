/-
  Table.lean --- sorted projection tables and their windows.

  `SortedTable` is what every backend stores for one projection: all points, once
  each, strictly ordered by value and then by id.  `QueryTable` adds the query
  value.  Its windows `|query - value| <= bound` form a family closed towards the
  lower bound of the query, which is what an outward scan relies on.
-/
import Mathlib
import Qalsh.Cursor

set_option autoImplicit false

namespace Qalsh

open Foundation

/-! ## Sorted tables -/

/-- A projection table over `points` points. -/
structure SortedTable (points : Nat) where
  entries : List Entry
  ordered : entries.Pairwise fun a b => keyLess a b = true
  finite : ∀ e ∈ entries, e.value.isFinite = true
  ids : (entries.map Entry.pointId).Perm (List.range points)

namespace SortedTable

variable {points : Nat} (table : SortedTable points)

theorem length_entries : table.entries.length = points := by
  simpa using table.ids.length_eq

def entryAt (i : Nat) : Entry := table.entries.getD i default

theorem entryAt_mem {i : Nat} (h : i < points) : table.entryAt i ∈ table.entries := by
  have hlt : i < table.entries.length := by rw [table.length_entries]; exact h
  rw [entryAt, List.getD_eq_getElem _ _ hlt]
  exact List.getElem_mem hlt

theorem entryAt_finite {i : Nat} (h : i < points) : (table.entryAt i).value.isFinite = true :=
  table.finite _ (table.entryAt_mem h)

theorem pointId_lt {i : Nat} (h : i < points) : (table.entryAt i).pointId < points := by
  have := table.ids.mem_iff.mp (List.mem_map.mpr ⟨_, table.entryAt_mem h, rfl⟩)
  simpa using this

theorem keyLess_entryAt {i j : Nat} (hij : i < j) (hj : j < points) :
    keyLess (table.entryAt i) (table.entryAt j) = true := by
  have hlen := table.length_entries
  have h := (List.pairwise_iff_getElem.mp table.ordered) i j (by omega) (by omega) hij
  rwa [entryAt, entryAt, List.getD_eq_getElem _ _ (by omega), List.getD_eq_getElem _ _ (by omega)]

theorem orderKey_le_of_keyLess {a b : Entry} (h : keyLess a b = true) :
    a.value.orderKey ≤ b.value.orderKey := by
  simp only [keyLess, Binary32.lt, Binary32.eq, Bool.or_eq_true, Bool.and_eq_true,
    decide_eq_true_eq] at h
  rcases h with h | h
  · exact h.2.le
  · exact h.1.2.le

theorem orderKey_mono {i j : Nat} (hij : i ≤ j) (hj : j < points) :
    (table.entryAt i).value.orderKey ≤ (table.entryAt j).value.orderKey := by
  rcases Nat.lt_or_ge i j with hlt | hge
  · exact orderKey_le_of_keyLess (table.keyLess_entryAt hlt hj)
  · rw [show i = j by omega]

/-- The position of the first entry whose value is not below `query`. -/
def lowerBound (query : Binary32) : Nat :=
  leading (fun i => (table.entryAt i).value.lt query) points

theorem lowerBound_le (query : Binary32) : table.lowerBound query ≤ points := leading_le _ _

theorem below_closed {query : Binary32} (hq : query.isFinite = true) :
    PrefixClosed (fun i => (table.entryAt i).value.lt query) points := by
  intro i j hij hj hlt
  rw [Binary32.lt_iff_of_isFinite (table.entryAt_finite hj) hq] at hlt
  show (table.entryAt i).value.lt query = true
  rw [Binary32.lt_iff_of_isFinite (table.entryAt_finite (by omega)) hq]
  exact lt_of_le_of_lt (table.orderKey_mono hij hj) hlt

theorem lt_of_lt_lowerBound {query : Binary32} (hq : query.isFinite = true) {i : Nat}
    (h : i < table.lowerBound query) : (table.entryAt i).value.orderKey < query.orderKey := by
  have hlt := leading_holds (p := fun i => (table.entryAt i).value.lt query) h
  have hi : i < points := lt_of_lt_of_le h (table.lowerBound_le query)
  exact (Binary32.lt_iff_of_isFinite (table.entryAt_finite hi) hq).mp hlt

theorem le_of_lowerBound_le {query : Binary32} (hq : query.isFinite = true) {i : Nat}
    (h : table.lowerBound query ≤ i) (hi : i < points) :
    query.orderKey ≤ (table.entryAt i).value.orderKey := by
  by_contra hcon
  have hstop := leading_stop (p := fun i => (table.entryAt i).value.lt query) (n := points)
    (show table.lowerBound query < points by omega)
  have hin : (table.entryAt i).value.lt query = true :=
    (Binary32.lt_iff_of_isFinite (table.entryAt_finite hi) hq).mpr (by omega)
  have hbelow : (table.entryAt (table.lowerBound query)).value.lt query = true :=
    table.below_closed hq _ i h hi hin
  exact absurd (hbelow.symm.trans hstop) (by decide)

end SortedTable

/-! ## Tables from a sequence -/

theorem keyLess_trans {a b c : Entry} (hab : keyLess a b = true) (hbc : keyLess b c = true) :
    keyLess a c = true := by
  simp only [keyLess, Binary32.lt, Binary32.eq, Bool.or_eq_true, Bool.and_eq_true,
    Bool.not_eq_true', decide_eq_true_eq] at *
  grind

/-- Adjacent entries in order are all in order. -/
theorem keyLess_of_adjacent {f : Nat → Entry} {n : Nat}
    (h : ∀ i, i + 1 < n → keyLess (f i) (f (i + 1)) = true) {i j : Nat} (hij : i < j) (hj : j < n) :
    keyLess (f i) (f j) = true := by
  induction j with
  | zero => omega
  | succ j ih =>
      rcases Nat.lt_or_ge i j with hlt | hge
      · exact keyLess_trans (ih hlt (by omega)) (h j hj)
      · rw [show i = j by omega]
        exact h j hj

/-- Distinct ids below `n`, `n` of them, are all the ids. -/
theorem perm_range_of_nodup {ids : List Nat} {n : Nat} (hnodup : ids.Nodup)
    (hlt : ∀ id ∈ ids, id < n) (hlen : ids.length = n) : ids.Perm (List.range n) := by
  have hsub : ids.Subperm (List.range n) :=
    List.subperm_of_subset hnodup fun id hid => List.mem_range.mpr (hlt id hid)
  exact hsub.perm_of_length_le (by simp [hlen])

/-- A sequence of `n` entries in strict order, with every id below `n` and no id twice. -/
def SortedTable.ofSequence (f : Nat → Entry) (n : Nat)
    (hfinite : ∀ i < n, (f i).value.isFinite = true) (hids : ∀ i < n, (f i).pointId < n)
    (hadjacent : ∀ i, i + 1 < n → keyLess (f i) (f (i + 1)) = true)
    (hdistinct : ∀ i j, i < j → j < n → (f i).pointId ≠ (f j).pointId) : SortedTable n where
  entries := (List.range n).map f
  ordered := by
    rw [List.pairwise_map]
    refine List.pairwise_lt_range.imp_of_mem fun {i j} _ hj hij => ?_
    exact keyLess_of_adjacent hadjacent hij (List.mem_range.mp hj)
  finite e he := by
    obtain ⟨i, hi, rfl⟩ := List.mem_map.mp he
    exact hfinite i (List.mem_range.mp hi)
  ids := by
    refine perm_range_of_nodup ?_ ?_ (by simp)
    · rw [List.map_map]
      refine List.pairwise_map.mpr (List.pairwise_lt_range.imp_of_mem fun {i j} _ hj hij => ?_)
      exact hdistinct i j hij (List.mem_range.mp hj)
    · intro id hid
      simp only [List.map_map, List.mem_map, List.mem_range, Function.comp] at hid
      obtain ⟨i, hi, rfl⟩ := hid
      exact hids i hi

theorem SortedTable.entryAt_ofSequence {f : Nat → Entry} {n : Nat} {hfinite hids hadjacent hdistinct}
    {i : Nat} (hi : i < n) :
    (SortedTable.ofSequence f n hfinite hids hadjacent hdistinct).entryAt i = f i := by
  simp [SortedTable.entryAt, SortedTable.ofSequence, List.getD_eq_getElem?_getD, hi]

/-! ## A table with a query -/

structure QueryTable (points : Nat) where
  table : SortedTable points
  tableId : Nat
  queryValue : Binary32
  query_finite : queryValue.isFinite = true

/-- A bound the scanner accepts. -/
abbrev ScanBound (R : Type) [RadiusArithmetic R] : Type := { bound : R // ValidBound bound }

variable {R : Type} [RadiusArithmetic R] {points : Nat}

namespace QueryTable

variable (t : QueryTable points)

/-- The lower bound of the query, where the outward scan starts. -/
def split : Nat := t.table.lowerBound t.queryValue

def hitAt (i : Nat) : ProjectionHit := hitOf t.tableId t.queryValue (t.table.entryAt i)

def insideAt (bound : R) (i : Nat) : Bool := withinWindow t.queryValue bound (t.table.entryAt i)

theorem split_le : t.split ≤ points := t.table.lowerBound_le _

theorem insideAt_left {bound : R} {i j : Nat} (hij : i ≤ j) (hj : j < t.split)
    (h : t.insideAt bound i = true) : t.insideAt bound j = true := by
  have hle := t.split_le
  have hi := t.table.entryAt_finite (i := i) (by omega)
  have hj' := t.table.entryAt_finite (i := j) (by omega)
  exact RadiusArithmetic.covers_anti (Binary32.absDiff_mono_below t.query_finite hj' hi
    (t.table.orderKey_mono hij (by omega))
    (t.table.lt_of_lt_lowerBound t.query_finite hj).le) h

theorem insideAt_right {bound : R} {i j : Nat} (hi : t.split ≤ i) (hij : i ≤ j) (hj : j < points)
    (h : t.insideAt bound j = true) : t.insideAt bound i = true := by
  have hfi := t.table.entryAt_finite (i := i) (by omega)
  have hfj := t.table.entryAt_finite hj
  exact RadiusArithmetic.covers_anti (Binary32.absDiff_mono_above t.query_finite hfi hfj
    (t.table.le_of_lowerBound_le t.query_finite hi (by omega))
    (t.table.orderKey_mono hij hj)) h

/-- The windows of a table around the query. -/
def windows : Windows (ScanBound R) where
  length := points
  split := t.split
  split_le := t.split_le
  le a b := RadiusArithmetic.le a.1 b.1
  le_refl b := (RadiusArithmetic.le_total b.2.1 b.2.1).elim id id
  le_trans := RadiusArithmetic.le_trans
  le_total a b := RadiusArithmetic.le_total a.2.1 b.2.1
  inside b i := t.insideAt b.1 i
  inside_mono _ hle h := RadiusArithmetic.covers_mono hle h
  inside_left := t.insideAt_left
  inside_right := t.insideAt_right

/-! ## Its two sides -/

/-- The entries below the query, outward. -/
def leftSide (ext : Extent points) (breaks : Bool) : Side where
  total := t.split
  entry k := t.table.entryAt (t.split - 1 - k)
  extent k := ext.left (t.split - k)
  tableId := t.tableId
  queryValue := t.queryValue
  breaks := breaks
  extent_pos k hk := ext.left_pos _ (by omega)
  extent_le k hk := by have := ext.left_le (t.split - k); omega

/-- The other entries, outward. -/
def rightSide (ext : Extent points) (breaks : Bool) : Side where
  total := points - t.split
  entry k := t.table.entryAt (t.split + k)
  extent k := ext.right (t.split + k)
  tableId := t.tableId
  queryValue := t.queryValue
  breaks := breaks
  extent_pos k hk := ext.right_pos _ (by have := t.split_le; omega)
  extent_le k hk := by
    have := t.split_le
    have := ext.right_le (t.split + k) (by omega)
    omega

theorem leftSide_closed (ext : Extent points) (breaks : Bool) (bound : R) :
    PrefixClosed ((t.leftSide ext breaks).inside bound) (t.leftSide ext breaks).total := by
  intro i j hij hj h
  have hj : j < t.split := hj
  exact t.insideAt_left (i := t.split - 1 - j) (j := t.split - 1 - i) (by omega) (by omega) h

theorem rightSide_closed (ext : Extent points) (breaks : Bool) (bound : R) :
    PrefixClosed ((t.rightSide ext breaks).inside bound) (t.rightSide ext breaks).total := by
  intro i j hij hj h
  have hj : j < points - t.split := hj
  exact t.insideAt_right (i := t.split + i) (j := t.split + j) (by omega) (by omega) (by omega) h

theorem leftSide_hits (ext : Extent points) (breaks : Bool) {k count : Nat} :
    (t.leftSide ext breaks).hits k count = (descending (t.split - k) count).map t.hitAt := by
  unfold Side.hits descending
  rw [List.map_map]
  refine List.map_congr_left fun i _ => ?_
  show hitOf t.tableId t.queryValue (t.table.entryAt (t.split - 1 - (k + i))) =
    hitOf t.tableId t.queryValue (t.table.entryAt (t.split - k - 1 - i))
  congr 2
  omega

theorem rightSide_hits (ext : Extent points) (breaks : Bool) {k count : Nat} :
    (t.rightSide ext breaks).hits k count = (List.range' (t.split + k) count).map t.hitAt := by
  unfold Side.hits
  rw [List.range'_eq_map_range, List.map_map]
  refine List.map_congr_left fun i _ => ?_
  show hitOf t.tableId t.queryValue (t.table.entryAt (t.split + (k + i))) = t.hitAt (t.split + k + i)
  rw [Nat.add_assoc]
  rfl

end QueryTable

end Qalsh
