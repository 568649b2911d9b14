/-
  WindowProbe.lean --- what `ClampToWindow` reads.

  The same clamp over a storage that refuses every access outside the range: a load
  of a pair of entries is two accesses, whether or not a lane is used afterwards.
  That it never fails and agrees with the unguarded clamp says that each probe of
  either build stays below the count of the range.
-/
import Qalsh.Window

set_option autoImplicit false

namespace Qalsh

open Foundation

variable {R : Type} [RadiusArithmetic R]

/-- Read one entry; only the strides of the range may be touched. -/
def probe (range : HitRange) (stride : Nat) : Except Error Entry :=
  if (List.range range.count).any fun position => range.stride position == stride then
    .ok (range.entryAt stride)
  else .error (.undefined "read outside the range")

def insideProbed (range : HitRange) (bound : R) (position : Nat) : Except Error Bool := do
  let entry ← probe range (range.stride position)
  return withinWindow range.queryValue bound entry

/-- `loadPair` with both of its entries probed. -/
def loadPairProbed (range : HitRange) (stride : Nat) : Except Error Lanes := do
  let low ← probe range stride
  let high ← probe range (stride + 1)
  return { lane0 := low.value.bits
           lane1 := BitVec.ofNat 32 low.pointId
           lane2 := high.value.bits
           lane3 := BitVec.ofNat 32 high.pointId }

def loadFourForwardProbed (range : HitRange) (first : Nat) : Except Error Lanes := do
  let firstPair ← loadPairProbed range first
  let secondPair ← loadPairProbed range (first + 2)
  return unpackLow firstPair.shuffle2020 secondPair.shuffle2020

def loadFourReverseProbed (range : HitRange) (first : Nat) : Except Error Lanes := do
  let firstPair ← loadPairProbed range (first - 1)
  let secondPair ← loadPairProbed range (first - 3)
  return unpackLow firstPair.shuffle2020.shuffle0101 secondPair.shuffle2020.shuffle0101

def insideMaskProbed (range : HitRange) (bound : R) (position : Nat) : Except Error Nat := do
  let values ← if range.reverse then loadFourReverseProbed range (range.first - position)
    else loadFourForwardProbed range (range.first + position)
  return laneBit range.queryValue bound values.lane0 1 +
    laneBit range.queryValue bound values.lane1 2 +
    laneBit range.queryValue bound values.lane2 4 + laneBit range.queryValue bound values.lane3 8

/-- The blockwise search of the SSE2 path. -/
def clampBlocksProbed (range : HitRange) (bound : R) (lo hi : Nat) : Except Error Nat :=
  if hi - lo > 4 then do
    let middle := lo + (hi - lo) / 2
    let start := if middle ≤ hi - 4 then middle else hi - 4
    let mask ← insideMaskProbed range bound start
    if mask = 0xF then clampBlocksProbed range bound (start + 4) hi
    else if mask = 0 then clampBlocksProbed range bound lo start
    else return start + firstZero mask
  else bisectM (insideProbed range bound) lo hi
termination_by hi - lo
decreasing_by
  · have _ : hi - lo > 4 := ‹_›
    show hi - ((if lo + (hi - lo) / 2 ≤ hi - 4 then lo + (hi - lo) / 2 else hi - 4) + 4) < hi - lo
    split <;> omega
  · have _ : hi - lo > 4 := ‹_›
    show (if lo + (hi - lo) / 2 ≤ hi - 4 then lo + (hi - lo) / 2 else hi - 4) - lo < hi - lo
    split <;> omega

/-- `ClampToWindow` over the guarded storage. -/
def clampToWindowProbed [Platform] (range : HitRange) (bound : R) : Except Error HitRange := do
  if range.count = 0 then return range
  if (← insideProbed range bound (range.count - 1)) then return range
  if !(← insideProbed range bound 0) then return { range with count := 0 }
  let count ← if Platform.sse2 then clampBlocksProbed range bound 1 range.count
    else bisectM (insideProbed range bound) 1 range.count
  return { range with count := count }

/-! ## No probe leaves the range -/

/-- The entries of a range lie in storage: a reverse range does not start before them. -/
def HitRange.Fits (range : HitRange) : Prop := range.reverse = true → range.count ≤ range.first + 1

theorem probe_stride {range : HitRange} {position : Nat} (h : position < range.count) :
    probe range (range.stride position) = .ok (range.entry position) := by
  unfold probe
  rw [if_pos]
  · rfl
  · simp only [List.any_eq_true, List.mem_range, beq_iff_eq]
    exact ⟨position, h, rfl⟩

theorem probe_of {range : HitRange} {stride : Nat} (position : Nat) (h : position < range.count)
    (heq : stride = range.stride position) : probe range stride = .ok (range.entryAt stride) := by
  subst heq
  exact probe_stride h

theorem insideProbed_eq {range : HitRange} {position : Nat} (h : position < range.count)
    (bound : R) : insideProbed range bound position = .ok (inside range bound position) := by
  unfold insideProbed
  rw [probe_stride h]
  rfl

/-- A pair load touches the two strides it covers, here two positions of the range. -/
theorem loadPairProbed_eq {range : HitRange} {stride : Nat} (low high : Nat)
    (hlow : low < range.count) (hhigh : high < range.count) (heq : stride = range.stride low)
    (heq' : stride + 1 = range.stride high) :
    loadPairProbed range stride = .ok (loadPair range.entryAt stride) := by
  unfold loadPairProbed
  rw [probe_of low hlow heq, except_ok_bind, probe_of high hhigh heq']
  rfl

/-- The four lanes of a block lie at four positions of the range. -/
theorem insideMaskProbed_eq {range : HitRange} (hfits : range.Fits) {position : Nat}
    (h : position + 3 < range.count) (bound : R) :
    insideMaskProbed range bound position = .ok (insideMask range bound position) := by
  unfold insideMaskProbed insideMask
  cases hrev : range.reverse with
  | false =>
      have hstride : ∀ i, range.stride i = range.first + i := fun i => by
        simp [HitRange.stride, hrev]
      have hfirst := loadPairProbed_eq position (position + 1) (by omega) (by omega)
        (hstride position).symm (hstride (position + 1)).symm
      have hsecond : loadPairProbed range (range.first + position + 2) = _ :=
        loadPairProbed_eq (position + 2) (position + 3) (by omega) (by omega)
          (hstride (position + 2)).symm (hstride (position + 3)).symm
      simp only [Bool.false_eq_true, if_false, loadFourForwardProbed, hfirst, hsecond,
        except_ok_bind, except_pure]
      rfl
  | true =>
      have hcount := hfits hrev
      have hstride : ∀ i, range.stride i = range.first - i := fun i => by
        simp [HitRange.stride, hrev]
      have hfirst : loadPairProbed range (range.first - position - 1) = _ :=
        loadPairProbed_eq (position + 1) position (by omega) (by omega)
          (by rw [hstride]; omega) (by rw [hstride]; omega)
      have hsecond : loadPairProbed range (range.first - position - 3) = _ :=
        loadPairProbed_eq (position + 3) (position + 2) (by omega) (by omega)
          (by rw [hstride]; omega) (by rw [hstride]; omega)
      simp only [if_true, loadFourReverseProbed, hfirst, hsecond, except_ok_bind, except_pure]
      rfl

theorem clampBlocksProbed_eq {range : HitRange} (hfits : range.Fits) (bound : R) (lo hi : Nat)
    (hhi : hi ≤ range.count) :
    clampBlocksProbed range bound lo hi = .ok (clampBlocks range bound lo hi) := by
  have hblock : ∀ lo hi : Nat, hi - lo > 4 → ∀ start,
      start = (if lo + (hi - lo) / 2 ≤ hi - 4 then lo + (hi - lo) / 2 else hi - 4) →
      start + 4 ≤ hi := by
    intro lo hi hgap start hstart
    split at hstart <;> omega
  fun_induction clampBlocks range bound lo hi with
  | case1 lo hi hgap middle start mask hmask ih =>
      have hstart := hblock lo hi hgap start rfl
      unfold clampBlocksProbed
      rw [if_pos hgap]
      show (insideMaskProbed range bound start >>= _) = _
      rw [insideMaskProbed_eq hfits (by omega), except_ok_bind]
      exact (if_pos hmask).trans (ih hhi)
  | case2 lo hi hgap middle start mask hfull hmask ih =>
      have hstart := hblock lo hi hgap start rfl
      unfold clampBlocksProbed
      rw [if_pos hgap]
      show (insideMaskProbed range bound start >>= _) = _
      rw [insideMaskProbed_eq hfits (by omega), except_ok_bind]
      exact (if_neg hfull).trans ((if_pos hmask).trans (ih (by omega)))
  | case3 lo hi hgap middle start mask hfull hempty =>
      have hstart := hblock lo hi hgap start rfl
      unfold clampBlocksProbed
      rw [if_pos hgap]
      show (insideMaskProbed range bound start >>= _) = _
      rw [insideMaskProbed_eq hfits (by omega), except_ok_bind]
      exact (if_neg hfull).trans (if_neg hempty)
  | case4 lo hi hgap =>
      unfold clampBlocksProbed
      rw [if_neg hgap]
      exact bisectM_eq lo hi fun i _ hi' => insideProbed_eq (by omega) bound

/-- Over the guarded storage the clamp does what it does without the guard. -/
theorem clampToWindowProbed_eq [Platform] {range : HitRange} (hfits : range.Fits) (bound : R) :
    clampToWindowProbed range bound = .ok (clampToWindow range bound) := by
  unfold clampToWindowProbed clampToWindow clampCount
  by_cases hzero : range.count = 0
  · simp only [if_pos hzero, if_pos (Or.inl hzero), except_pure]
  · simp only [insideProbed_eq (show range.count - 1 < range.count by omega) bound,
      insideProbed_eq (show 0 < range.count by omega) bound, except_ok_bind, except_pure, hzero,
      false_or]
    by_cases hlast : inside range bound (range.count - 1) = true
    · simp only [hlast, if_true, if_false]
    · simp only [Bool.not_eq_true] at hlast
      simp only [hlast, Bool.false_eq_true, if_false]
      cases hfirst : inside range bound 0 with
      | false => simp
      | true =>
          cases Platform.sse2 with
          | true => simp [clampBlocksProbed_eq hfits bound 1 range.count le_rfl]
          | false =>
              have hbisect := bisectM_eq (p := insideProbed range bound) 1 range.count
                fun i _ hi => insideProbed_eq hi bound
              simp [hbisect]

/-- On a range whose window is a prefix both builds keep exactly that prefix, change
nothing else and read nothing outside the range. -/
theorem clampToWindow_linear [Platform] {range : HitRange} (hfits : range.Fits) (bound : R)
    {cutoff : Nat} (hcutoff : cutoff ≤ range.count)
    (hinside : ∀ position < cutoff, inside range bound position = true)
    (houtside : ∀ position, cutoff ≤ position → position < range.count →
      inside range bound position = false) :
    clampToWindowProbed range bound = .ok { range with count := cutoff } ∧
      clampToWindow range bound = { range with count := cutoff } := by
  have hclosed : PrefixClosed (inside range bound) range.count := by
    intro i j hij hj hin
    refine hinside i (lt_of_le_of_lt hij ?_)
    by_contra hcon
    rw [houtside j (by omega) hj] at hin
    cases hin
  have hcount : clampCount range bound = cutoff := by
    rw [clampCount_eq_leading hfits hclosed]
    exact leading_unique hcutoff hinside fun hlt => houtside cutoff le_rfl hlt
  have hclamp : clampToWindow range bound = { range with count := cutoff } := by
    rw [clampToWindow, hcount]
  exact ⟨(clampToWindowProbed_eq hfits bound).trans (congrArg Except.ok hclamp), hclamp⟩

/-- Six entries backward from the query, three of them in the window. -/
theorem clampToWindow_linear_three :
    let range : HitRange :=
      { entryAt := fun stride => ⟨Binary32.ofMagnitude false stride, stride⟩
        first := 5
        count := 6
        reverse := true
        tableId := 0
        queryValue := Binary32.ofMagnitude false 5 }
    @clampToWindowProbed Binary32 _ (exactPlatform true) range (Binary32.ofMagnitude false 2) =
        .ok { range with count := 3 } ∧
      @clampToWindow Binary32 _ (exactPlatform true) range (Binary32.ofMagnitude false 2) =
        { range with count := 3 } := by
  intro range
  refine @clampToWindow_linear Binary32 _ (exactPlatform true) range (by intro _; decide)
    (Binary32.ofMagnitude false 2) 3 (by decide) (by decide) ?_
  intro position hlow hhigh
  change position < 6 at hhigh
  obtain rfl | rfl | rfl : position = 3 ∨ position = 4 ∨ position = 5 := by omega
  · decide
  · decide
  · decide

end Qalsh
