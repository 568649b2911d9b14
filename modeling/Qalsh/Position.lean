/-
  Position.lean --- the scanner over an array of entries.

  The in-memory index and the sorted-array index keep two array positions.  They
  differ in how many entries they offer together: everything that is left, or the
  rest of a region, after which a range scan ends.
-/
import Qalsh.Scan

set_option autoImplicit false

namespace Qalsh

open Foundation

variable {R : Type}

/-! ## The two loops -/

def PositionCursor.sides (position : PositionCursor R) : BoundedSides R where
  lastBound := position.lastBound
  leftBlocked := position.leftBlocked
  rightBlocked := position.rightBlocked

def PositionCursor.withSides (position : PositionCursor R) (sides : BoundedSides R) :
    PositionCursor R :=
  { position with
    lastBound := sides.lastBound
    leftBlocked := sides.leftBlocked
    rightBlocked := sides.rightBlocked }

/-- `scan_left` over an array: `offer` entries together at an index, and the call
ends with them when `ends` is set. -/
def positionLeft (entryAt : Nat → Entry) (offer : Nat → Nat) (ends : Bool) :
    SideLoop (PositionCursor R) where
  active position := position.left.isSome
  blocked position := position.leftBlocked
  available remaining position := min remaining (offer (position.left.getD 0))
  range available position :=
    { entryAt := entryAt
      first := position.left.getD 0
      count := available
      reverse := true
      tableId := position.tableId
      queryValue := position.queryValue }
  setBlocked blocked position := { position with leftBlocked := blocked }
  advance count available position :=
    let index := position.left.getD 0
    let finishedRegion := ends && decide (count = available) && decide (available = offer index)
    .ok ({ position with left := if count = index + 1 then none else some (index - count) },
      finishedRegion)

/-- `scan_right` over an array of `size` entries. -/
def positionRight (entryAt : Nat → Entry) (size : Nat) (offer : Nat → Nat) (ends : Bool) :
    SideLoop (PositionCursor R) where
  active position := position.right.isSome
  blocked position := position.rightBlocked
  available remaining position := min remaining (offer (position.right.getD 0))
  range available position :=
    { entryAt := entryAt
      first := position.right.getD 0
      count := available
      reverse := false
      tableId := position.tableId
      queryValue := position.queryValue }
  setBlocked blocked position := { position with rightBlocked := blocked }
  advance count available position :=
    let index := position.right.getD 0
    let finishedRegion := ends && decide (count = available) && decide (available = offer index)
    .ok ({ position with right := if index + count = size then none else some (index + count) },
      finishedRegion)

def positionScanner (entryAt : Nat → Entry) (size : Nat) (offerLeft offerRight : Nat → Nat)
    (ends : Bool) : Scanner (PositionCursor R) where
  left := positionLeft entryAt offerLeft ends
  right := positionRight entryAt size offerRight ends
  enterLeft := .ok
  enterRight := .ok

/-! ## Refinement -/

/-- The abstract cursor of a position. -/
def PositionCursor.view (points : Nat) (position : PositionCursor R) : Outward R where
  left := position.left.elim 0 (· + 1)
  right := position.right.getD points
  leftBlocked := position.leftBlocked
  rightBlocked := position.rightBlocked
  lastBound := position.lastBound

variable {points : Nat}

/-- A position of a cursor of `owner` on `t`. -/
structure PositionCursor.On (owner : Option Nat) (t : QueryTable points)
    (position : PositionCursor R) : Prop where
  owner_eq : position.owner = owner
  table : position.tableId = t.tableId
  query : position.queryValue = t.queryValue
  left : ∀ i, position.left = some i → i < t.split
  right : ∀ i, position.right = some i → t.split ≤ i ∧ i < points

theorem PositionCursor.On.view_bounds {owner : Option Nat} {t : QueryTable points}
    {position : PositionCursor R} (h : position.On owner t) :
    (position.view points).left ≤ t.split ∧ t.split ≤ (position.view points).right ∧
      (position.view points).right ≤ points := by
  have hsplit := t.split_le
  have hl := h.left
  have hr := h.right
  unfold view
  refine ⟨?_, ?_, ?_⟩
  · cases hc : position.left with
    | none => exact Nat.zero_le _
    | some i => exact hl i hc
  · cases hc : position.right with
    | none => exact hsplit
    | some i => exact (hr i hc).1
  · cases hc : position.right with
    | none => exact le_rfl
    | some i => exact (hr i hc).2.le

section Loops

variable {owner : Option Nat} {t : QueryTable points} {ext : Extent points} {breaks ends : Bool}
  {entryAt : Nat → Entry} {offerLeft offerRight : Nat → Nat}

theorem positionLeft_runsOn (hentry : ∀ i < points, entryAt i = t.table.entryAt i)
    (hoffer : ∀ i < points, offerLeft i = ext.left (i + 1)) (hends : ends = true → breaks = true)
    (hbreaks : breaks = true → ends = true ∨ ∀ l, ext.left l = l) (f : Outward R) :
    (positionLeft entryAt offerLeft ends).RunsOn (t.leftSide ext breaks)
      (fun p => PositionCursor.On owner t p ∧ leftFrame (p.view points) = f)
      (fun p => t.split - (p.view points).left) := by
  have hsplit := t.split_le
  -- an active position is some index below the split
  have hactive : ∀ p : PositionCursor R, PositionCursor.On owner t p →
      t.split - (p.view points).left < t.split → ∃ i, p.left = some i ∧ i < t.split := by
    intro p hp hlt
    cases hl : p.left with
    | none => simp [PositionCursor.view, hl] at hlt
    | some i => exact ⟨i, rfl, hp.left i hl⟩
  refine ⟨fun p _ => Nat.sub_le _ _, ?_, ?_, ?_, ?_, ?_⟩
  · rintro p ⟨hp, -⟩
    show p.left.isSome = true ↔ t.split - (p.view points).left < t.split
    cases hl : p.left with
    | none => simp [PositionCursor.view, hl]
    | some i =>
        have := hp.left i hl
        simp only [Option.isSome_some, PositionCursor.view, hl, Option.elim_some, true_iff]
        omega
  · rintro p remaining ⟨hp, -⟩ hlt
    obtain ⟨i, hi, his⟩ := hactive p hp hlt
    show min remaining (offerLeft (p.left.getD 0)) = min remaining
      (ext.left (t.split - (t.split - (p.view points).left)))
    simp only [hi, Option.getD_some, PositionCursor.view, Option.elim_some]
    rw [hoffer i (by omega), show t.split - (t.split - (i + 1)) = i + 1 by omega]
  · rintro p available ⟨hp, -⟩ hlt hav
    obtain ⟨i, hi, his⟩ := hactive p hp hlt
    have hext := ext.left_le (i + 1)
    have hview : (p.view points).left = i + 1 := by simp [PositionCursor.view, hi]
    change available ≤ ext.left (t.split - (t.split - (p.view points).left)) at hav
    rw [hview, show t.split - (t.split - (i + 1)) = i + 1 by omega] at hav
    refine ⟨rfl, hp.table, hp.query, fun _ => ?_, fun j hj => ?_⟩
    · show available ≤ p.left.getD 0 + 1
      rw [hi, Option.getD_some]
      omega
    · show entryAt (p.left.getD 0 - j) =
        t.table.entryAt (t.split - 1 - (t.split - (p.view points).left + j))
      rw [hi, Option.getD_some, hentry _ (by omega), hview]
      congr 1
      omega
  · rintro p b ⟨hp, hf⟩
    exact ⟨⟨⟨hp.owner_eq, hp.table, hp.query, hp.left, hp.right⟩, hf⟩, rfl, rfl⟩
  · rintro p count available remaining ⟨hp, hf⟩ hlt hav hcount
    obtain ⟨i, hi, his⟩ := hactive p hp hlt
    have hext := ext.left_le (i + 1)
    have hview : (p.view points).left = i + 1 := by simp [PositionCursor.view, hi]
    have hextent : (t.leftSide ext breaks).extent (t.split - (p.view points).left) =
        ext.left (i + 1) := by
      show ext.left (t.split - (t.split - (p.view points).left)) = _
      rw [hview, show t.split - (t.split - (i + 1)) = i + 1 by omega]
    rw [hextent] at hav ⊢
    refine ⟨_, _, rfl, ⟨⟨hp.owner_eq, hp.table, hp.query, ?_, hp.right⟩, hf⟩, ?_, rfl, ?_, ?_⟩
    · intro j hj
      simp only [hi, Option.getD_some] at hj
      split at hj
      · cases hj
      · cases hj
        omega
    · rw [hview]
      simp only [PositionCursor.view, hi, Option.getD_some]
      split <;> simp only [Option.elim_none, Option.elim_some] <;> omega
    · intro hstop
      simp only [hi, Option.getD_some, Bool.and_eq_true, decide_eq_true_eq,
        hoffer i (by omega)] at hstop
      exact ⟨hends hstop.1.1, by omega⟩
    · intro hb hfull hrest
      simp only [hi, Option.getD_some, Bool.and_eq_true, decide_eq_true_eq, hoffer i (by omega)]
      change t.split - (p.view points).left + count < t.split at hrest
      rcases hbreaks hb with he | hwhole
      · exact ⟨⟨he, by omega⟩, by omega⟩
      · rw [hwhole] at hfull
        omega

theorem positionRight_runsOn (hentry : ∀ i < points, entryAt i = t.table.entryAt i)
    (hoffer : ∀ i < points, offerRight i = ext.right i) (hends : ends = true → breaks = true)
    (hbreaks : breaks = true → ends = true ∨ ∀ r < points, ext.right r = points - r)
    (f : Outward R) :
    (positionRight entryAt points offerRight ends).RunsOn (t.rightSide ext breaks)
      (fun p => PositionCursor.On owner t p ∧ rightFrame (p.view points) = f)
      (fun p => (p.view points).right - t.split) := by
  have hsplit := t.split_le
  have hactive : ∀ p : PositionCursor R, PositionCursor.On owner t p →
      (p.view points).right - t.split < points - t.split →
      ∃ i, p.right = some i ∧ t.split ≤ i ∧ i < points := by
    intro p hp hlt
    cases hr : p.right with
    | none => simp [PositionCursor.view, hr] at hlt
    | some i => exact ⟨i, rfl, hp.right i hr⟩
  refine ⟨?_, ?_, ?_, ?_, ?_, ?_⟩
  · rintro p ⟨hp, -⟩
    have := hp.view_bounds
    show (p.view points).right - t.split ≤ points - t.split
    omega
  · rintro p ⟨hp, -⟩
    show p.right.isSome = true ↔ (p.view points).right - t.split < points - t.split
    cases hr : p.right with
    | none => simp [PositionCursor.view, hr]
    | some i =>
        have := hp.right i hr
        simp only [Option.isSome_some, PositionCursor.view, hr, Option.getD_some, true_iff]
        omega
  · rintro p remaining ⟨hp, -⟩ hlt
    obtain ⟨i, hi, his, hip⟩ := hactive p hp hlt
    show min remaining (offerRight (p.right.getD 0)) = min remaining
      (ext.right (t.split + ((p.view points).right - t.split)))
    simp only [hi, Option.getD_some, PositionCursor.view]
    rw [hoffer i hip, show t.split + (i - t.split) = i by omega]
  · rintro p available ⟨hp, -⟩ hlt hav
    obtain ⟨i, hi, his, hip⟩ := hactive p hp hlt
    have hext := ext.right_le i hip.le
    have hview : (p.view points).right = i := by simp [PositionCursor.view, hi]
    change available ≤ ext.right (t.split + ((p.view points).right - t.split)) at hav
    rw [hview, show t.split + (i - t.split) = i by omega] at hav
    refine ⟨rfl, hp.table, hp.query, (fun h : false = true => by cases h), fun j hj => ?_⟩
    show entryAt (p.right.getD 0 + j) =
      t.table.entryAt (t.split + ((p.view points).right - t.split + j))
    rw [hi, Option.getD_some, hentry _ (by omega), hview]
    congr 1
    omega
  · rintro p b ⟨hp, hf⟩
    exact ⟨⟨⟨hp.owner_eq, hp.table, hp.query, hp.left, hp.right⟩, hf⟩, rfl, rfl⟩
  · rintro p count available remaining ⟨hp, hf⟩ hlt hav hcount
    obtain ⟨i, hi, his, hip⟩ := hactive p hp hlt
    have hext := ext.right_le i hip.le
    have hview : (p.view points).right = i := by simp [PositionCursor.view, hi]
    have hextent : (t.rightSide ext breaks).extent ((p.view points).right - t.split) =
        ext.right i := by
      show ext.right (t.split + ((p.view points).right - t.split)) = _
      rw [hview, show t.split + (i - t.split) = i by omega]
    rw [hextent] at hav ⊢
    refine ⟨_, _, rfl, ⟨⟨hp.owner_eq, hp.table, hp.query, hp.left, ?_⟩, hf⟩, ?_, rfl, ?_, ?_⟩
    · intro j hj
      simp only [hi, Option.getD_some] at hj
      split at hj
      · cases hj
      · cases hj
        omega
    · rw [hview]
      simp only [PositionCursor.view, hi, Option.getD_some]
      split <;> simp only [Option.getD_none, Option.getD_some] <;> omega
    · intro hstop
      simp only [hi, Option.getD_some, Bool.and_eq_true, decide_eq_true_eq,
        hoffer i hip] at hstop
      exact ⟨hends hstop.1.1, by omega⟩
    · intro hb hfull hrest
      simp only [hi, Option.getD_some, Bool.and_eq_true, decide_eq_true_eq, hoffer i hip]
      change (p.view points).right - t.split + count < points - t.split at hrest
      rcases hbreaks hb with he | hwhole
      · exact ⟨⟨he, by omega⟩, by omega⟩
      · rw [hwhole i hip] at hfull
        omega

theorem positionScanner_traverses (hentry : ∀ i < points, entryAt i = t.table.entryAt i)
    (hleft : ∀ i < points, offerLeft i = ext.left (i + 1))
    (hright : ∀ i < points, offerRight i = ext.right i) (hends : ends = true → breaks = true)
    (hbreaks : breaks = true → ends = true ∨
      ((∀ l, ext.left l = l) ∧ ∀ r < points, ext.right r = points - r)) :
    (positionScanner entryAt points offerLeft offerRight ends).Traverses t ext breaks
      (PositionCursor.On owner t) (PositionCursor.On owner t) (PositionCursor.On owner t)
      (PositionCursor.view (R := R) points) where
  bounds _ hp := hp.view_bounds
  good_left _ hp := hp
  good_right _ hp := hp
  leftActive p _ := by
    show p.left.isSome = decide (0 < p.left.elim 0 (· + 1))
    cases p.left <;> simp
  rightActive p hp := by
    show p.right.isSome = decide (p.right.getD points < points)
    cases hr : p.right with
    | none => simp
    | some i => simpa using (hp.right i hr).2
  leftBlocked _ _ := rfl
  rightBlocked _ _ := rfl
  enterLeft p hp _ := ⟨p, rfl, hp, rfl⟩
  enterRight p hp _ := ⟨p, rfl, hp, rfl⟩
  left := positionLeft_runsOn hentry hleft hends fun hb => (hbreaks hb).imp id And.left
  right := positionRight_runsOn hentry hright hends fun hb => (hbreaks hb).imp id And.right

end Loops

/-! ## Starting and raising a position -/

/-- The position `reset_cursor` stores: both sides next to `position`. -/
def PositionCursor.place (owner : Option Nat) (tableId : Nat) (queryValue : Binary32)
    (position size : Nat) : PositionCursor R :=
  { PositionCursor.blank owner with
    tableId := tableId
    queryValue := queryValue
    left := if position = 0 then none else some (position - 1)
    right := if position = size then none else some position }

section Scanned

variable [RadiusArithmetic R] {owner : Option Nat} {t : QueryTable points}

/-- A position of a cursor of `owner` on `t` whose abstract cursor is `o`. -/
abbrev PositionCursor.Holds (owner : Option Nat) (t : QueryTable points)
    (o : Outward (ScanBound R)) (position : PositionCursor R) : Prop :=
  Qalsh.Holds (PositionCursor.On owner t) (PositionCursor.view points) o position

theorem PositionCursor.place_holds (owner : Option Nat) (t : QueryTable points) :
    PositionCursor.Holds (R := R) owner t (Outward.start t.split)
      (PositionCursor.place owner t.tableId t.queryValue t.split points) := by
  have hle := t.split_le
  refine ⟨⟨rfl, rfl, rfl, fun i hi => ?_, fun i hi => ?_⟩, ?_⟩
  · simp only [place] at hi
    split at hi
    · cases hi
    · cases hi
      omega
  · simp only [place] at hi
    split at hi
    · cases hi
    · cases hi
      omega
  · refine Outward.ext ?_ ?_ rfl rfl rfl
    · show (if t.split = 0 then none else some (t.split - 1)).elim 0 (· + 1) = t.split
      split
      · simp_all
      · simp only [Option.elim_some]
        omega
    · show (if t.split = points then none else some t.split).getD points = t.split
      split <;> simp_all

theorem PositionCursor.Holds.sides_eq {o : Outward (ScanBound R)} {position : PositionCursor R}
    (h : position.Holds owner t o) : position.sides = sidesOf o := by
  have hv := h.view_eq
  unfold sides sidesOf
  congr 1
  · exact congrArg Outward.lastBound hv
  · exact congrArg Outward.leftBlocked hv
  · exact congrArg Outward.rightBlocked hv

/-- Storing the sides of a raised cursor in a position raises the position. -/
theorem PositionCursor.Holds.withSides {o o' : Outward (ScanBound R)} {position : PositionCursor R}
    (h : position.Holds owner t o) (hleft : o'.left = o.left) (hright : o'.right = o.right) :
    (position.withSides (sidesOf o')).Holds owner t o' := by
  have hv := h.view_eq
  refine ⟨⟨h.good.owner_eq, h.good.table, h.good.query, h.good.left, h.good.right⟩,
    Outward.ext ?_ ?_ rfl rfl rfl⟩
  · show (position.view points).left = o'.left
    rw [hv, hleft]
    rfl
  · show (position.view points).right = o'.right
    rw [hv, hright]
    rfl

end Scanned

end Qalsh
