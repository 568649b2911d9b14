/-
  Foundation/Outward.lean --- resumable scans that move outward from a split point.

  A sorted sequence of `length` positions is split in two.  A cursor remembers how
  far each side has been consumed, `left` counting down from the split and `right`
  counting up, and whether a side stopped because its next position lies outside
  the window of the current bound.  One scan consumes a run of each side, limited
  by a budget and by how far the side may go in one call (its extent).

  Windows grow with the bound and are closed towards the split.  Under these two
  assumptions a cursor never delivers a position twice, delivers only positions
  inside the window, and its blocked flags decide completeness of the window.
-/
import Mathlib
import Qalsh.Foundation.Prefix

set_option autoImplicit false

namespace Qalsh.Foundation

variable {B : Type}

/-! ## Windows, cursors and extents -/

/-- A family of windows over the positions below `length`, closed towards
`split` and monotone in the bound. -/
structure Windows (B : Type) where
  length : Nat
  split : Nat
  split_le : split ≤ length
  /-- the order on bounds, as the program tests it -/
  le : B → B → Bool
  le_refl : ∀ b, le b b = true
  le_trans : ∀ {a b c}, le a b = true → le b c = true → le a c = true
  le_total : ∀ a b, le a b = true ∨ le b a = true
  inside : B → Nat → Bool
  inside_mono : ∀ {b b' i}, i < length → le b b' = true → inside b i = true → inside b' i = true
  inside_left : ∀ {b i j}, i ≤ j → j < split → inside b i = true → inside b j = true
  inside_right : ∀ {b i j}, split ≤ i → i ≤ j → j < length → inside b j = true → inside b i = true

/-- How far a scan has gone on each side. -/
@[ext]
structure Outward (B : Type) where
  /-- positions from `left` up to the split have been delivered -/
  left : Nat
  /-- positions from the split up to `right` have been delivered -/
  right : Nat
  leftBlocked : Bool
  rightBlocked : Bool
  lastBound : Option B
  deriving DecidableEq, Repr

/-- How many positions one call may offer on each side. -/
structure Extent (length : Nat) where
  left : Nat → Nat
  right : Nat → Nat
  left_le : ∀ l, left l ≤ l
  left_pos : ∀ l, 0 < l → 0 < left l
  right_le : ∀ r, r ≤ length → right r ≤ length - r
  right_pos : ∀ r, r < length → 0 < right r

/-- The extent of a sequence that is not divided: everything that is left. -/
def Extent.whole (length : Nat) : Extent length where
  left l := l
  right r := length - r
  left_le _ := le_rfl
  left_pos _ h := h
  right_le _ _ := le_rfl
  right_pos _ h := by omega

/-- The extent of a sequence divided into blocks of `capacity`: the rest of the block. -/
def Extent.blocks (length capacity : Nat) (hcapacity : 0 < capacity) : Extent length where
  left l := if l = 0 then 0 else (l - 1) - (l - 1) / capacity * capacity + 1
  right r := if r < length then min length (r / capacity * capacity + capacity) - r else 0
  left_le l := by
    split
    · exact Nat.zero_le _
    · omega
  left_pos l h := by
    rw [if_neg (by omega)]
    omega
  right_le r _ := by
    split <;> omega
  right_pos r h := by
    have hdiv := Nat.div_add_mod' r capacity
    have hmod := Nat.mod_lt r hcapacity
    rw [if_pos h]
    omega

/-- A cursor at the split point. -/
def Outward.start (split : Nat) : Outward B :=
  { left := split, right := split, leftBlocked := false, rightBlocked := false, lastBound := none }

/-- The same cursor with its bound read differently. -/
def Outward.map {C : Type} (f : B → C) (c : Outward B) : Outward C :=
  { left := c.left, right := c.right, leftBlocked := c.leftBlocked, rightBlocked := c.rightBlocked,
    lastBound := c.lastBound.map f }

/-- A growing bound reopens both sides. -/
def Outward.raise (le : B → B → Bool) (bound : B) (c : Outward B) : Outward B :=
  match c.lastBound with
  | none => { c with leftBlocked := false, rightBlocked := false, lastBound := some bound }
  | some last =>
      if le bound last then c
      else { c with leftBlocked := false, rightBlocked := false, lastBound := some bound }

/-! ## One scan -/

/-- The share of the budget the left side gets: all of it for an extent-limited
scan, the larger half otherwise. -/
def leftLimit (ranged : Bool) (budget : Nat) : Nat :=
  if ranged then budget else budget / 2 + budget % 2

/-- The share of the right side; a scan whose half is empty gets what is left over. -/
def rightLimit (ranged : Bool) (budget taken : Nat) : Nat :=
  if ranged then budget else if budget / 2 = 0 then budget - taken else budget / 2

/-- The run consumed on the left of `l` out of `avail` offered positions. -/
def leftRun (inside : Nat → Bool) (l avail : Nat) : Nat :=
  leading (fun i => inside (l - 1 - i)) avail

/-- The run consumed from `r` on out of `avail` offered positions. -/
def rightRun (inside : Nat → Bool) (r avail : Nat) : Nat :=
  leading (fun i => inside (r + i)) avail

/-- Positions below `l`, outward, `count` of them. -/
def descending (l count : Nat) : List Nat := (List.range count).map (l - 1 - ·)

/-- What one scan consumed and the cursor it left. -/
structure OutwardStep (B : Type) where
  leftTaken : Nat
  rightTaken : Nat
  cursor : Outward B

/-- Consume one run on each side. -/
def Outward.consume {n : Nat} (inside : Nat → Bool) (ext : Extent n) (ranged : Bool)
    (budget : Nat) (c : Outward B) : OutwardStep B :=
  let availLeft := min (leftLimit ranged budget) (ext.left c.left)
  let a := if c.leftBlocked then 0 else leftRun inside c.left availLeft
  let availRight := min (rightLimit ranged budget a) (ext.right c.right)
  let b := if c.rightBlocked then 0 else rightRun inside c.right availRight
  { leftTaken := a
    rightTaken := b
    cursor :=
      { c with
        left := c.left - a
        right := c.right + b
        leftBlocked := c.leftBlocked || decide (a < availLeft)
        rightBlocked := c.rightBlocked || decide (b < availRight) } }

/-- The positions a step delivers, left side first. -/
def OutwardStep.positions (s : OutwardStep B) (before : Outward B) : List Nat :=
  descending before.left s.leftTaken ++ List.range' before.right s.rightTaken

/-- Neither side can go further within the window. -/
def Outward.complete (length : Nat) (c : Outward B) : Bool :=
  (decide (c.left = 0) || c.leftBlocked) && (decide (c.right = length) || c.rightBlocked)

/-- Nothing is left on either side. -/
def Outward.exhausted (length : Nat) (c : Outward B) : Bool :=
  decide (c.left = 0) && decide (c.right = length)

/-! ## Validity of a cursor -/

/-- What holds of a cursor between scans. -/
structure Outward.Valid (w : Windows B) (c : Outward B) : Prop where
  left_le : c.left ≤ w.split
  le_right : w.split ≤ c.right
  right_le : c.right ≤ w.length
  fresh : c.lastBound = none →
    c.left = w.split ∧ c.right = w.split ∧ c.leftBlocked = false ∧ c.rightBlocked = false
  delivered : ∀ b, c.lastBound = some b → ∀ i, c.left ≤ i → i < c.right → w.inside b i = true
  leftBlocked : c.leftBlocked = true → 0 < c.left ∧
    ∀ b, c.lastBound = some b → w.inside b (c.left - 1) = false
  rightBlocked : c.rightBlocked = true → c.right < w.length ∧
    ∀ b, c.lastBound = some b → w.inside b c.right = false

/-- The bound of a cursor is one a later call may still use. -/
def Outward.Admits (w : Windows B) (c : Outward B) (bound : B) : Prop :=
  ∀ last, c.lastBound = some last → w.le last bound = true

/-- The cursor's bound and `bound` describe the same window. -/
def Outward.At (w : Windows B) (c : Outward B) (bound : B) : Prop :=
  ∃ last, c.lastBound = some last ∧ w.le last bound = true ∧ w.le bound last = true

theorem Outward.start_valid (w : Windows B) : (Outward.start w.split).Valid w where
  left_le := le_rfl
  le_right := le_rfl
  right_le := w.split_le
  fresh _ := ⟨rfl, rfl, rfl, rfl⟩
  delivered b h := by cases h
  leftBlocked h := by cases h
  rightBlocked h := by cases h

theorem Outward.At.inside_iff {w : Windows B} {c : Outward B} {bound last : B}
    (h : c.At w bound) (hlast : c.lastBound = some last) {i : Nat} (hi : i < w.length) :
    w.inside bound i = w.inside last i := by
  obtain ⟨b, hb, h₁, h₂⟩ := h
  cases hlast.symm.trans hb
  rw [Bool.eq_iff_iff]
  exact ⟨w.inside_mono hi h₂, w.inside_mono hi h₁⟩

@[simp] theorem Outward.raise_left (le : B → B → Bool) (bound : B) (c : Outward B) :
    (c.raise le bound).left = c.left := by
  unfold raise; split <;> [rfl; (split <;> rfl)]

@[simp] theorem Outward.raise_right (le : B → B → Bool) (bound : B) (c : Outward B) :
    (c.raise le bound).right = c.right := by
  unfold raise; split <;> [rfl; (split <;> rfl)]

/-- Raising to an admissible bound keeps the cursor valid and makes the bound current. -/
theorem Outward.raise_valid {w : Windows B} {c : Outward B} {bound : B} (hc : c.Valid w)
    (hb : c.Admits w bound) : (c.raise w.le bound).Valid w ∧ (c.raise w.le bound).At w bound := by
  unfold raise
  cases hlast : c.lastBound with
  | none =>
      obtain ⟨hl, hr, hlb, hrb⟩ := hc.fresh hlast
      refine ⟨⟨hc.left_le, hc.le_right, hc.right_le, by simp, ?_, by simp, by simp⟩,
        ⟨bound, rfl, w.le_refl _, w.le_refl _⟩⟩
      intro b _ i h₁ h₂
      simp only at h₁ h₂
      omega
  | some last =>
      have hle := hb last hlast
      by_cases hback : w.le bound last = true
      · simp only [hback, if_true]
        exact ⟨hc, last, hlast, hle, hback⟩
      · simp only [hback]
        refine ⟨⟨hc.left_le, hc.le_right, hc.right_le, by simp, ?_, by simp, by simp⟩,
          ⟨bound, rfl, w.le_refl _, w.le_refl _⟩⟩
        intro b hbb i h₁ h₂
        cases hbb
        exact w.inside_mono (lt_of_lt_of_le h₂ hc.right_le) hle (hc.delivered last hlast i h₁ h₂)

/-! ## What one scan preserves -/

section Step

variable {w : Windows B} {c : Outward B} {bound : B} {ext : Extent w.length} {ranged : Bool}
  {budget : Nat}

variable (w c bound ext ranged budget) in
theorem Outward.leftTaken_le :
    (c.consume (w.inside bound) ext ranged budget).leftTaken ≤ ext.left c.left := by
  simp only [consume]
  split
  · exact Nat.zero_le _
  · exact (leading_le _ _).trans (Nat.min_le_right _ _)

variable (w c bound ext ranged budget) in
theorem Outward.rightTaken_le :
    (c.consume (w.inside bound) ext ranged budget).rightTaken ≤ ext.right c.right := by
  simp only [consume]
  split
  · exact Nat.zero_le _
  · exact (leading_le _ _).trans (Nat.min_le_right _ _)

/-- Every delivered position lies inside the window. -/
theorem Outward.consume_inside {i : Nat}
    (hi : i ∈ (c.consume (w.inside bound) ext ranged budget).positions c) :
    w.inside bound i = true := by
  simp only [OutwardStep.positions, List.mem_append, descending, List.mem_map, List.mem_range,
    List.mem_range'_1] at hi
  rcases hi with ⟨j, hj, rfl⟩ | ⟨h₁, h₂⟩
  · simp only [consume] at hj
    split at hj
    · omega
    · exact leading_holds (p := fun i => w.inside bound (c.left - 1 - i)) hj
  · simp only [consume] at h₂
    by_cases hb : c.rightBlocked = true
    · simp only [hb, if_true] at h₂
      omega
    · rw [if_neg hb] at h₂
      unfold rightRun at h₂
      generalize min (rightLimit ranged budget _) (ext.right c.right) = avail at h₂
      have hlead := leading_holds (p := fun i => w.inside bound (c.right + i)) (i := i - c.right)
        (n := avail) (by omega)
      simpa [Nat.add_sub_cancel' h₁] using hlead

variable (ext ranged budget) in
/-- One scan under the current bound keeps the cursor valid. -/
theorem Outward.consume_valid (hc : c.Valid w) (hat : c.At w bound) :
    (c.consume (w.inside bound) ext ranged budget).cursor.Valid w ∧
      (c.consume (w.inside bound) ext ranged budget).cursor.At w bound := by
  obtain ⟨last, hlast, hle, hge⟩ := hat
  have hsame : ∀ {i}, i < w.length → w.inside bound i = w.inside last i := fun hi =>
    Outward.At.inside_iff ⟨last, hlast, hle, hge⟩ hlast hi
  have hlt := Outward.leftTaken_le w c bound ext ranged budget
  have hrt := Outward.rightTaken_le w c bound ext ranged budget
  have hll := ext.left_le c.left
  have hrl := ext.right_le c.right hc.right_le
  have hins := @Outward.consume_inside B w c bound ext ranged budget
  generalize hs : c.consume (w.inside bound) ext ranged budget = s at *
  have hleft : s.cursor.left = c.left - s.leftTaken := by rw [← hs]; rfl
  have hright : s.cursor.right = c.right + s.rightTaken := by rw [← hs]; rfl
  have hb : s.cursor.lastBound = c.lastBound := by rw [← hs]; rfl
  have h₁ := hc.left_le
  have h₂ := hc.le_right
  have h₃ := hc.right_le
  have h₄ := w.split_le
  refine ⟨⟨by omega, by omega, by omega, ?_, ?_, ?_, ?_⟩, ⟨last, by rw [hb, hlast], hle, hge⟩⟩
  · intro hnone
    rw [hb, hlast] at hnone
    cases hnone
  · intro b hbb i hi₁ hi₂
    rw [hb, hlast] at hbb
    cases hbb
    rw [hleft] at hi₁
    rw [hright] at hi₂
    -- a position delivered before this scan, or by it on the left or on the right
    by_cases hold : c.left ≤ i ∧ i < c.right
    · exact hc.delivered last hlast i hold.1 hold.2
    · rw [← hsame (by omega)]
      refine hins ?_
      simp only [OutwardStep.positions, List.mem_append, descending, List.mem_map,
        List.mem_range, List.mem_range'_1]
      by_cases hside : i < c.left
      · exact Or.inl ⟨c.left - 1 - i, by omega, by omega⟩
      · exact Or.inr ⟨by omega, by omega⟩
  · intro hblk
    have hcase : c.leftBlocked = true ∨ (c.leftBlocked = false ∧ s.leftTaken <
        min (leftLimit ranged budget) (ext.left c.left)) := by
      rw [← hs] at hblk ⊢
      simp only [consume, Bool.or_eq_true, decide_eq_true_eq] at hblk ⊢
      cases hcb : c.leftBlocked
      · simp only [hcb, Bool.false_eq_true, false_or] at hblk
        exact Or.inr ⟨rfl, by simpa using hblk⟩
      · exact Or.inl rfl
    rcases hcase with hcb | ⟨hcb, hstop⟩
    · have hzero : s.leftTaken = 0 := by rw [← hs]; simp [consume, hcb]
      have hold := hc.leftBlocked hcb
      rw [hleft, hzero, Nat.sub_zero, hb]
      exact hold
    · refine ⟨by omega, fun b hbb => ?_⟩
      rw [hb, hlast] at hbb
      cases hbb
      rw [← hsame (by omega), hleft]
      have htaken : s.leftTaken = leading (fun i => w.inside bound (c.left - 1 - i))
          (min (leftLimit ranged budget) (ext.left c.left)) := by
        rw [← hs]; simp [consume, hcb, leftRun]
      have := leading_stop (p := fun i => w.inside bound (c.left - 1 - i)) (htaken ▸ hstop)
      rw [← htaken] at this
      rw [Nat.sub_right_comm]
      exact this
  · intro hblk
    have hcase : c.rightBlocked = true ∨ (c.rightBlocked = false ∧ s.rightTaken <
        min (rightLimit ranged budget s.leftTaken) (ext.right c.right)) := by
      rw [← hs] at hblk ⊢
      simp only [consume, Bool.or_eq_true, decide_eq_true_eq] at hblk ⊢
      cases hcb : c.rightBlocked
      · simp only [hcb, Bool.false_eq_true, false_or] at hblk
        exact Or.inr ⟨rfl, by simpa using hblk⟩
      · exact Or.inl rfl
    rcases hcase with hcb | ⟨hcb, hstop⟩
    · have hzero : s.rightTaken = 0 := by rw [← hs]; simp [consume, hcb]
      have hold := hc.rightBlocked hcb
      rw [hright, hzero, Nat.add_zero, hb]
      exact hold
    · refine ⟨by omega, fun b hbb => ?_⟩
      rw [hb, hlast] at hbb
      cases hbb
      rw [← hsame (by omega), hright]
      have htaken : s.rightTaken = leading (fun i => w.inside bound (c.right + i))
          (min (rightLimit ranged budget s.leftTaken) (ext.right c.right)) := by
        rw [← hs]; simp [consume, hcb, rightRun]
      have := leading_stop (p := fun i => w.inside bound (c.right + i)) (htaken ▸ hstop)
      rw [← htaken] at this
      exact this

variable (bound ext ranged) in
/-- A scan with a budget delivers something or finds the window complete. -/
theorem Outward.consume_progress (hbudget : 0 < budget) (hr : c.right ≤ w.length)
    (hnone : (c.consume (w.inside bound) ext ranged budget).leftTaken +
      (c.consume (w.inside bound) ext ranged budget).rightTaken = 0) :
    (c.consume (w.inside bound) ext ranged budget).cursor.complete w.length = true := by
  have hl0 : (c.consume (w.inside bound) ext ranged budget).leftTaken = 0 := by omega
  have hr0 : (c.consume (w.inside bound) ext ranged budget).rightTaken = 0 := by omega
  have hL : c.left = 0 ∨ c.leftBlocked = true ∨
      0 < min (leftLimit ranged budget) (ext.left c.left) := by
    rcases Nat.eq_zero_or_pos c.left with h | h
    · exact Or.inl h
    · refine Or.inr (Or.inr ?_)
      have := ext.left_pos _ h
      unfold leftLimit
      split <;> omega
  have hR : c.right = w.length ∨ c.rightBlocked = true ∨
      0 < min (rightLimit ranged budget 0) (ext.right c.right) := by
    rcases Nat.eq_or_lt_of_le hr with h | h
    · exact Or.inl h
    · refine Or.inr (Or.inr ?_)
      have := ext.right_pos _ h
      unfold rightLimit
      split
      · omega
      · split <;> omega
  have hla : (if c.leftBlocked = true then 0 else leftRun (w.inside bound) c.left
      (min (leftLimit ranged budget) (ext.left c.left))) = 0 := hl0
  simp only [complete, consume, hla, Nat.sub_zero] at hr0 ⊢
  rw [hr0]
  simp only [Bool.and_eq_true, Bool.or_eq_true, decide_eq_true_eq, Nat.add_zero]
  exact ⟨hL.imp id (fun h => h), hR.imp id (fun h => h)⟩

/-- A complete window has been delivered entirely. -/
theorem Outward.complete_iff_delivered (hc : c.Valid w) (hat : c.At w bound)
    (hcomplete : c.complete w.length = true) {i : Nat} (hi : i < w.length) :
    w.inside bound i = true ↔ c.left ≤ i ∧ i < c.right := by
  obtain ⟨last, hlast, hle, hge⟩ := hat
  rw [Outward.At.inside_iff ⟨last, hlast, hle, hge⟩ hlast hi]
  have h₁ := hc.left_le
  have h₂ := hc.le_right
  simp only [complete, Bool.and_eq_true, Bool.or_eq_true, decide_eq_true_eq] at hcomplete
  refine ⟨fun hin => ⟨?_, ?_⟩, fun h => hc.delivered last hlast i h.1 h.2⟩
  · by_contra hlt
    rcases hcomplete.1 with h0 | hblk
    · omega
    · have hout := (hc.leftBlocked hblk).2 last hlast
      rw [w.inside_left (i := i) (j := c.left - 1) (by omega) (by omega) hin] at hout
      cases hout
  · by_contra hge'
    rcases hcomplete.2 with h0 | hblk
    · omega
    · obtain ⟨hlen, hout⟩ := hc.rightBlocked hblk
      have := hout last hlast
      rw [w.inside_right (i := c.right) (j := i) h₂ (by omega) hi hin] at this
      cases this

end Step

end Qalsh.Foundation
