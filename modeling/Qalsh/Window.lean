/-
  Window.lean --- table entries, delivered ranges and the window clamp.

  A `HitRange` walks over storage in strides of one entry, forward or backward from
  `first`.  Storage is a function from stride number to entry, so that a sorted
  table, a mapped table and the entry area of a page are read the same way.
-/
import Qalsh.Platform
import Qalsh.Radius
import Qalsh.Foundation.Prefix

set_option autoImplicit false

namespace Qalsh

open Foundation

/-- A projected value with its point, the record of every table. -/
structure Entry where
  value : Binary32
  pointId : Nat
  deriving DecidableEq, Repr, Inhabited

/-- `KeyLess` on two entries. -/
def keyLess (lhs rhs : Entry) : Bool :=
  lhs.value.lt rhs.value || (lhs.value.eq rhs.value && decide (lhs.pointId < rhs.pointId))

structure HitRange where
  /-- the storage `first` points into, in strides of `kEntryStride` -/
  entryAt : Nat → Entry
  first : Nat
  count : Nat
  reverse : Bool
  tableId : Nat
  queryValue : Binary32

/-- The stride at a logical position of a range. -/
def HitRange.stride (range : HitRange) (position : Nat) : Nat :=
  if range.reverse then range.first - position else range.first + position

def HitRange.entry (range : HitRange) (position : Nat) : Entry :=
  range.entryAt (range.stride position)

/-! ## `ClampToWindow` -/

variable {R : Type} [RadiusArithmetic R]

/-- The test `|query - value| <= bound`. -/
def withinWindow (query : Binary32) (bound : R) (entry : Entry) : Bool :=
  RadiusArithmetic.covers bound (query.absDiff entry.value)

def inside (range : HitRange) (bound : R) (position : Nat) : Bool :=
  withinWindow range.queryValue bound (range.entry position)

/-- Four 32-bit lanes. -/
structure Lanes where
  lane0 : BitVec 32
  lane1 : BitVec 32
  lane2 : BitVec 32
  lane3 : BitVec 32
  deriving DecidableEq, Repr

/-- A 16-byte load: two adjacent entries, values in the even lanes. -/
def loadPair (entryAt : Nat → Entry) (stride : Nat) : Lanes where
  lane0 := (entryAt stride).value.bits
  lane1 := BitVec.ofNat 32 (entryAt stride).pointId
  lane2 := (entryAt (stride + 1)).value.bits
  lane3 := BitVec.ofNat 32 (entryAt (stride + 1)).pointId

/-- `_mm_shuffle_epi32(v, _MM_SHUFFLE(2, 0, 2, 0))` -/
def Lanes.shuffle2020 (v : Lanes) : Lanes := ⟨v.lane0, v.lane2, v.lane0, v.lane2⟩

/-- `_mm_shuffle_epi32(v, _MM_SHUFFLE(0, 1, 0, 1))` -/
def Lanes.shuffle0101 (v : Lanes) : Lanes := ⟨v.lane1, v.lane0, v.lane1, v.lane0⟩

/-- `_mm_unpacklo_epi64` -/
def unpackLow (a b : Lanes) : Lanes := ⟨a.lane0, a.lane1, b.lane0, b.lane1⟩

def loadFourForward (entryAt : Nat → Entry) (first : Nat) : Lanes :=
  unpackLow (loadPair entryAt first).shuffle2020 (loadPair entryAt (first + 2)).shuffle2020

def loadFourReverse (entryAt : Nat → Entry) (first : Nat) : Lanes :=
  unpackLow (loadPair entryAt (first - 1)).shuffle2020.shuffle0101
    (loadPair entryAt (first - 3)).shuffle2020.shuffle0101

/-- One lane of the comparison, as the bit `_mm_movemask_ps` extracts. -/
def laneBit (query : Binary32) (bound : R) (lane : BitVec 32) (weight : Nat) : Nat :=
  if RadiusArithmetic.covers bound (query.absDiff ⟨lane⟩) then weight else 0

def insideMask (range : HitRange) (bound : R) (position : Nat) : Nat :=
  let values := if range.reverse then loadFourReverse range.entryAt (range.first - position)
    else loadFourForward range.entryAt (range.first + position)
  laneBit range.queryValue bound values.lane0 1 + laneBit range.queryValue bound values.lane1 2 +
    laneBit range.queryValue bound values.lane2 4 + laneBit range.queryValue bound values.lane3 8

/-- The first lane whose mask bit is clear, four when there is none. -/
def firstZero (mask : Nat) : Nat := leading (fun lane => mask.testBit lane) 4

/-- The blockwise search of the SSE2 path; a mixed block ends it. -/
def clampBlocks (range : HitRange) (bound : R) (lo hi : Nat) : Nat :=
  if hi - lo > 4 then
    let middle := lo + (hi - lo) / 2
    let start := if middle ≤ hi - 4 then middle else hi - 4
    let mask := insideMask range bound start
    if mask = 0xF then clampBlocks range bound (start + 4) hi
    else if mask = 0 then clampBlocks range bound lo start
    else start + firstZero mask
  else bisect (inside range bound) lo hi
termination_by hi - lo
decreasing_by
  · rename_i h _
    show hi - ((if lo + (hi - lo) / 2 ≤ hi - 4 then lo + (hi - lo) / 2 else hi - 4) + 4) < hi - lo
    split <;> omega
  · rename_i h _ _
    show (if lo + (hi - lo) / 2 ≤ hi - 4 then lo + (hi - lo) / 2 else hi - 4) - lo < hi - lo
    split <;> omega

/-- The number of entries `ClampToWindow` keeps. -/
def clampCount [Platform] (range : HitRange) (bound : R) : Nat :=
  if range.count = 0 ∨ inside range bound (range.count - 1) = true then range.count
  else if inside range bound 0 = false then 0
  else if Platform.sse2 then clampBlocks range bound 1 range.count
  else bisect (inside range bound) 1 range.count

def clampToWindow [Platform] (range : HitRange) (bound : R) : HitRange :=
  { range with count := clampCount range bound }

/-- The four lanes of a block are the four logical positions it starts at. -/
theorem insideMask_eq (range : HitRange) (bound : R) (position : Nat)
    (hreach : range.reverse = true → position + 3 ≤ range.first) :
    insideMask range bound position =
      (if inside range bound position then 1 else 0) +
      (if inside range bound (position + 1) then 2 else 0) +
      (if inside range bound (position + 2) then 4 else 0) +
      (if inside range bound (position + 3) then 8 else 0) := by
  unfold insideMask inside withinWindow HitRange.entry HitRange.stride
  cases hrev : range.reverse with
  | false => simp [loadFourForward, unpackLow, Lanes.shuffle2020, loadPair, laneBit, Nat.add_assoc]
  | true =>
      have h := hreach hrev
      have h1 : range.first - (position + 1) + 1 = range.first - position := by omega
      have h3 : range.first - (position + 3) + 1 = range.first - (position + 2) := by omega
      simp only [if_true, loadFourReverse, unpackLow, Lanes.shuffle2020, Lanes.shuffle0101, loadPair,
        laneBit, Nat.sub_sub, h1, h3]

/-- The SSE2 block search finds the end of the prefix. -/
theorem clampBlocks_eq_leading {range : HitRange} {bound : R} {n : Nat}
    (hreach : range.reverse = true → n ≤ range.first + 1)
    (hp : PrefixClosed (inside range bound) n) (lo hi : Nat)
    (hlo : lo ≤ leading (inside range bound) n) (hhi : leading (inside range bound) n ≤ hi)
    (hn : hi ≤ n) : clampBlocks range bound lo hi = leading (inside range bound) n := by
  have hstop : ∀ j < n, inside range bound j = false → leading (inside range bound) n ≤ j := by
    intro j hj hout
    by_contra hcon
    rw [leading_holds (p := inside range bound) (n := n) (by omega)] at hout
    cases hout
  have hkeep : ∀ j < n, inside range bound j = true → j < leading (inside range bound) n := by
    intro j hj hin
    by_contra hcon
    have hout := leading_stop (p := inside range bound) (n := n) (by omega)
    rw [hp _ j (by omega) hj hin] at hout
    cases hout
  fun_induction clampBlocks range bound lo hi with
  | case1 lo hi hgap middle start mask hmask ih =>
      have hstart : start + 4 ≤ hi ∧ lo ≤ start := by
        show (if middle ≤ hi - 4 then middle else hi - 4) + 4 ≤ hi ∧
          lo ≤ (if middle ≤ hi - 4 then middle else hi - 4)
        split <;> omega
      have hm : insideMask range bound start = 15 := hmask
      rw [insideMask_eq range bound start (fun h => by have := hreach h; omega)] at hm
      have hlast : inside range bound (start + 3) = true := by
        by_contra hno
        simp only [hno] at hm
        split at hm <;> split at hm <;> split at hm <;> simp at hm
      have := hkeep (start + 3) (by omega) hlast
      exact ih (by omega) hhi hn
  | case2 lo hi hgap middle start mask hfull hmask ih =>
      have hstart : start + 4 ≤ hi ∧ lo ≤ start := by
        show (if middle ≤ hi - 4 then middle else hi - 4) + 4 ≤ hi ∧
          lo ≤ (if middle ≤ hi - 4 then middle else hi - 4)
        split <;> omega
      have hm : insideMask range bound start = 0 := hmask
      rw [insideMask_eq range bound start (fun h => by have := hreach h; omega)] at hm
      have hfirst : inside range bound start = false := by
        by_contra hno
        simp [hno] at hm
      have := hstop start (by omega) hfirst
      exact ih hlo this (by omega)
  | case3 lo hi hgap middle start mask hfull hempty =>
      have hstart : start + 4 ≤ hi ∧ lo ≤ start := by
        show (if middle ≤ hi - 4 then middle else hi - 4) + 4 ≤ hi ∧
          lo ≤ (if middle ≤ hi - 4 then middle else hi - 4)
        split <;> omega
      have hm : mask = insideMask range bound start := rfl
      rw [insideMask_eq range bound start (fun h => by have := hreach h; omega)] at hm
      have hclosed : ∀ i j, i ≤ j → j < 4 → inside range bound (start + j) = true →
          inside range bound (start + i) = true := fun i j hij hj hin =>
        hp _ _ (by omega) (by omega) hin
      have h10 := hclosed 0 1 (by omega) (by omega)
      have h21 := hclosed 1 2 (by omega) (by omega)
      have h32 := hclosed 2 3 (by omega) (by omega)
      simp only [Nat.add_zero] at h10
      -- the mask is one of 0001, 0011, 0111: the first clear lane ends the prefix
      have hcase : ∃ c, firstZero mask = c ∧ 0 < c ∧ c < 4 ∧
          inside range bound (start + (c - 1)) = true ∧ inside range bound (start + c) = false := by
        cases b0 : inside range bound start with
        | false =>
            have b1 : inside range bound (start + 1) = false := by
              by_contra hno; simp [h10 (by simpa using hno)] at b0
            have b2 : inside range bound (start + 2) = false := by
              by_contra hno; simp [h21 (by simpa using hno)] at b1
            have b3 : inside range bound (start + 3) = false := by
              by_contra hno; simp [h32 (by simpa using hno)] at b2
            simp only [b0, b1, b2, b3] at hm
            exact absurd hm hempty
        | true =>
            cases b1 : inside range bound (start + 1) with
            | false =>
                have b2 : inside range bound (start + 2) = false := by
                  by_contra hno; simp [h21 (by simpa using hno)] at b1
                have b3 : inside range bound (start + 3) = false := by
                  by_contra hno; simp [h32 (by simpa using hno)] at b2
                simp only [b0, b1, b2, b3] at hm
                exact ⟨1, by rw [hm]; decide, by omega, by omega, by simpa using b0, b1⟩
            | true =>
                cases b2 : inside range bound (start + 2) with
                | false =>
                    have b3 : inside range bound (start + 3) = false := by
                      by_contra hno; simp [h32 (by simpa using hno)] at b2
                    simp only [b0, b1, b2, b3] at hm
                    exact ⟨2, by rw [hm]; decide, by omega, by omega, b1, b2⟩
                | true =>
                    cases b3 : inside range bound (start + 3) with
                    | false =>
                        simp only [b0, b1, b2, b3] at hm
                        exact ⟨3, by rw [hm]; decide, by omega, by omega, b2, b3⟩
                    | true =>
                        simp only [b0, b1, b2, b3] at hm
                        exact absurd hm hfull
      obtain ⟨c, hc, hpos, hlt, hin, hout⟩ := hcase
      have h1 := hkeep _ (by omega) hin
      have h2 := hstop _ (by omega) hout
      rw [hc]
      omega
  | case4 lo hi hgap => exact bisect_eq_leading hp lo hi hlo hhi hn

/-- On a range whose window is a prefix, both builds keep exactly that prefix. -/
theorem clampCount_eq_leading [Platform] {range : HitRange} {bound : R}
    (hreach : range.reverse = true → range.count ≤ range.first + 1)
    (hp : PrefixClosed (inside range bound) range.count) :
    clampCount range bound = leading (inside range bound) range.count := by
  unfold clampCount
  split
  · rename_i hall
    refine (leading_unique le_rfl (fun i hi => ?_) (fun h => absurd h (lt_irrefl _))).symm
    rcases hall with h0 | hlast
    · omega
    · exact hp i (range.count - 1) (by omega) (by omega) hlast
  · rename_i hnot
    split
    · rename_i hfirst
      exact (leading_unique (Nat.zero_le _) (fun i hi => by omega) (fun _ => hfirst)).symm
    · rename_i hfirst
      have hpos : 1 ≤ leading (inside range bound) range.count := by
        by_contra hcon
        have hz : leading (inside range bound) range.count = 0 := by omega
        have hout := leading_stop (p := inside range bound) (n := range.count) (by omega)
        rw [hz] at hout
        exact hfirst hout
      split
      · exact clampBlocks_eq_leading hreach hp 1 _ hpos (leading_le _ _) le_rfl
      · exact bisect_eq_leading hp 1 _ hpos (leading_le _ _) le_rfl

/-! ## Hits -/

structure ProjectionHit where
  tableId : Nat
  pointId : Nat
  projectedValue : Binary32
  queryValue : Binary32
  absoluteDifference : Binary32
  deriving DecidableEq, Repr

/-- The hit a table entry is delivered as. -/
def hitOf (tableId : Nat) (queryValue : Binary32) (entry : Entry) : ProjectionHit where
  tableId := tableId
  pointId := entry.pointId
  projectedValue := entry.value
  queryValue := queryValue
  absoluteDifference := queryValue.absDiff entry.value

/-- The entries of a range in delivery order. -/
def HitRange.entries (range : HitRange) : List Entry :=
  (List.range range.count).map range.entry

/-- The hits `ForEachHit` visits, in order. -/
def HitRange.hits (range : HitRange) : List ProjectionHit :=
  range.entries.map (hitOf range.tableId range.queryValue)

end Qalsh
