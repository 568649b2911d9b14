/-
  Cursor.lean --- cursors, scan reports and the loop shared by the six side scans.

  Every backend scans each side with the same loop: offer some entries, clamp them
  to the window, deliver what is left, block the side when the clamp removed
  something, and move on.  `SideLoop` holds what differs between the six loops and
  `SideLoop.run` is the loop.  `run_spec` says what it does once: it visits a list
  of ranges that together are the leading run of the side.
-/
import Qalsh.Window
import Qalsh.Foundation.OutwardRun

set_option autoImplicit false

namespace Qalsh

open Foundation

/-! ## Cursors and reports -/

inductive ScanScope where
  | quantum
  | range
  | invalid (code : Nat)
  deriving DecidableEq, Repr

/-- The scopes `scan` accepts. -/
def ScanScope.isValid : ScanScope → Bool
  | .quantum | .range => true
  | .invalid _ => false

structure ScanReport where
  tableId : Nat
  entriesVisited : Nat
  windowExhausted : Bool
  tableExhausted : Bool
  roundComplete : Bool
  allTablesExhausted : Bool
  deriving DecidableEq, Repr

/-- `MemoryCursor` and `ArrayCursor`; an absent position is `kNoIndex`, an absent
bound is minus infinity. -/
structure PositionCursor (R : Type) where
  owner : Option Nat
  tableId : Nat
  queryValue : Binary32
  left : Option Nat
  right : Option Nat
  leftBlocked : Bool
  rightBlocked : Bool
  lastBound : Option R
  deriving DecidableEq, Repr

structure DiskCursor (R : Type) where
  owner : Option Nat
  tableId : Nat
  queryValue : Binary32
  leftPage : Nat
  leftLeafRank : Nat
  rightPage : Nat
  rightLeafRank : Nat
  leftIndex : Nat
  rightIndex : Nat
  leftActive : Bool
  rightActive : Bool
  leftBlocked : Bool
  rightBlocked : Bool
  lastBound : Option R
  cachedPage : Nat
  /-- the mapping offset of `cached_page_data` -/
  cachedPageData : Option Nat
  deriving DecidableEq, Repr

/-- `PositionCursor{}` of the given owner. -/
def PositionCursor.blank {R : Type} (owner : Option Nat) : PositionCursor R where
  owner := owner
  tableId := 0
  queryValue := Binary32.zero
  left := none
  right := none
  leftBlocked := false
  rightBlocked := false
  lastBound := none

/-- `DiskCursor{}` of the given owner. -/
def DiskCursor.blank {R : Type} (owner : Option Nat) : DiskCursor R where
  owner := owner
  tableId := 0
  queryValue := Binary32.zero
  leftPage := 0
  leftLeafRank := 0
  rightPage := 0
  rightLeafRank := 0
  leftIndex := 0
  rightIndex := 0
  leftActive := false
  rightActive := false
  leftBlocked := false
  rightBlocked := false
  lastBound := none
  cachedPage := 0
  cachedPageData := none

/-- A cursor object, by its dynamic type. -/
inductive Cursor (R : Type) where
  | memory (cursor : PositionCursor R)
  | disk (cursor : DiskCursor R)
  | array (cursor : PositionCursor R)
  deriving DecidableEq, Repr

/-- The three fields `ResetBoundedSides` works on. -/
structure BoundedSides (R : Type) where
  lastBound : Option R
  leftBlocked : Bool
  rightBlocked : Bool

variable {R : Type} [RadiusArithmetic R]

def resetBoundedSides (bound : R) (sides : BoundedSides R) : Except Error (BoundedSides R) := do
  match sides.lastBound with
  | none => return { lastBound := some bound, leftBlocked := false, rightBlocked := false }
  | some lastBound =>
      require (RadiusArithmetic.le lastBound bound = true)
        "scan bound cannot decrease for an existing cursor"
      if RadiusArithmetic.lt lastBound bound then
        return { lastBound := some bound, leftBlocked := false, rightBlocked := false }
      else return sides

/-! ## The loop of one side -/

/-- What distinguishes one side scan from another; `γ` is the traversal position. -/
structure SideLoop (γ : Type) where
  /-- the side still has a position -/
  active : γ → Bool
  blocked : γ → Bool
  /-- how many entries to offer when `remaining` of the budget is left -/
  available : (remaining : Nat) → γ → Nat
  /-- the offered entries -/
  range : (available : Nat) → γ → HitRange
  setBlocked : Bool → γ → γ
  /-- move past `count` of `available` entries; true leaves the loop -/
  advance : (count available : Nat) → γ → Except Error (γ × Bool)

variable {σ γ β : Type}

/-- `if (range.count != 0) visitor(range)`; `park` stores the position on unwinding. -/
def deliver (park : γ → σ → σ) (visitor : β → HitRange → EStateM Error σ β) (position : γ)
    (acc : β) (range : HitRange) : EStateM Error σ β :=
  if range.count ≠ 0 then onThrow (park position) (visitor acc range) else pure acc

/-- The loop.  A pass that does not leave it consumes at least one entry of the
budget, so `limit` passes are enough. -/
def SideLoop.run [Platform] (loop : SideLoop γ) (park : γ → σ → σ) (bound : R)
    (visitor : β → HitRange → EStateM Error σ β) (limit : Nat) :
    (passes scanned visited : Nat) → γ → β → EStateM Error σ (γ × Nat × β)
  | 0, _, visited, position, acc => pure (position, visited, acc)
  | passes + 1, scanned, visited, position, acc =>
      if scanned < limit ∧ loop.active position = true ∧ loop.blocked position = false then do
        let available := loop.available (limit - scanned) position
        let range := clampToWindow (loop.range available position) bound
        let position := loop.setBlocked (decide (range.count < available)) position
        let acc ← deliver park visitor position acc range
        let (position, stop) ← onThrow (park position)
          (liftResult (loop.advance range.count available position))
        if stop then
          pure (position, visited + range.count, acc)
        else
          loop.run park bound visitor limit passes (scanned + range.count)
            (visited + range.count) position acc
      else pure (position, visited, acc)

/-! ## What the loop does -/

/-- A side of a table as a loop sees it: `total` entries outward from the split,
`extent k` of them offered together after `k` have been consumed. -/
structure Side where
  total : Nat
  entry : Nat → Entry
  extent : Nat → Nat
  tableId : Nat
  queryValue : Binary32
  /-- the call ends when an extent has been consumed -/
  breaks : Bool
  extent_pos : ∀ k, k < total → 0 < extent k
  extent_le : ∀ k, k ≤ total → k + extent k ≤ total

/-- How many entries one call may consume after `k`. -/
def Side.reach (side : Side) (k : Nat) : Nat :=
  if side.breaks then side.extent k else side.total - k

/-- A loop runs over a side: `consumed` reads off how much of it is behind. -/
structure SideLoop.RunsOn (loop : SideLoop γ) (side : Side) (Good : γ → Prop)
    (consumed : γ → Nat) : Prop where
  consumed_le : ∀ p, Good p → consumed p ≤ side.total
  active : ∀ p, Good p → (loop.active p = true ↔ consumed p < side.total)
  available : ∀ p remaining, Good p → consumed p < side.total →
    loop.available remaining p = min remaining (side.extent (consumed p))
  range : ∀ p available, Good p → consumed p < side.total → available ≤ side.extent (consumed p) →
    (loop.range available p).count = available ∧
    (loop.range available p).tableId = side.tableId ∧
    (loop.range available p).queryValue = side.queryValue ∧
    ((loop.range available p).reverse = true → available ≤ (loop.range available p).first + 1) ∧
    ∀ i < available, (loop.range available p).entry i = side.entry (consumed p + i)
  setBlocked : ∀ p b, Good p → Good (loop.setBlocked b p) ∧
    consumed (loop.setBlocked b p) = consumed p ∧ loop.blocked (loop.setBlocked b p) = b
  advance : ∀ p count available remaining, Good p → consumed p < side.total →
    available = min remaining (side.extent (consumed p)) → count ≤ available →
    ∃ p' stop, loop.advance count available p = .ok (p', stop) ∧ Good p' ∧
      consumed p' = consumed p + count ∧ loop.blocked p' = loop.blocked p ∧
      (stop = true → side.breaks = true ∧ count = side.extent (consumed p)) ∧
      (side.breaks = true → count = side.extent (consumed p) →
        consumed p + count < side.total → stop = true)

/-- The hits of a run of `count` entries after `k`. -/
def Side.hits (side : Side) (k count : Nat) : List ProjectionHit :=
  (List.range count).map fun i => hitOf side.tableId side.queryValue (side.entry (k + i))

/-- The window test along a side. -/
def Side.inside (side : Side) (bound : R) (k : Nat) : Bool :=
  withinWindow side.queryValue bound (side.entry k)

/-- The run one call consumes after `k`. -/
def Side.take (side : Side) (bound : R) (limit k : Nat) : Nat :=
  leading (fun i => side.inside bound (k + i)) (min limit (side.reach k))

/-- Outcome of a computation that visits `ranges`: the fold over them decides whether
it returns `result` and leaves the state changed by `leave`, or is unwound. -/
def Delivers {α : Type} (visitor : β → HitRange → EStateM Error σ β) (ranges : List HitRange)
    (acc : β) (x : EStateM Error σ α) (result : β → α) (leave : σ → σ)
    (unwound : σ → σ → Prop) : Prop :=
  ∀ s, match ranges.foldlM visitor acc s with
    | .ok acc' s' => x s = .ok (result acc') (leave s')
    | .error e s' => ∃ s'', x s = .error e s'' ∧ unwound s' s''

/-- A loop that visits `ranges` and stops at `done`. -/
abbrev Visits (visitor : β → HitRange → EStateM Error σ β) (ranges : List HitRange) (acc : β)
    (x : EStateM Error σ (γ × Nat × β)) (done : γ) (visited : Nat)
    (unwound : σ → σ → Prop) : Prop :=
  Delivers visitor ranges acc x (fun acc' => (done, visited, acc')) id unwound

theorem Delivers.mono {α : Type} {visitor : β → HitRange → EStateM Error σ β}
    {ranges : List HitRange} {acc : β} {x : EStateM Error σ α} {result : β → α} {leave : σ → σ}
    {unwound unwound' : σ → σ → Prop} (h : Delivers visitor ranges acc x result leave unwound)
    (hu : ∀ s s', unwound s s' → unwound' s s') :
    Delivers visitor ranges acc x result leave unwound' := by
  intro s
  have hs := h s
  cases hr : ranges.foldlM visitor acc s with
  | ok acc' s' => rw [hr] at hs; exact hs
  | error e s' =>
      rw [hr] at hs
      obtain ⟨s'', hx, hs''⟩ := hs
      exact ⟨s'', hx, hu _ _ hs''⟩

/-- Ranges visited one after the other. -/
theorem Delivers.bind {α α' : Type} {visitor : β → HitRange → EStateM Error σ β}
    {ranges ranges' : List HitRange} {acc : β} {x : EStateM Error σ α'} {y : α' → EStateM Error σ α}
    {result : β → α'} {result' : β → α} {leave : σ → σ} {unwound : σ → σ → Prop}
    (hx : Delivers visitor ranges acc x result id unwound)
    (hy : ∀ acc', Delivers visitor ranges' acc' (y (result acc')) result' leave unwound) :
    Delivers visitor (ranges ++ ranges') acc (x >>= y) result' leave unwound := by
  intro s
  have h := hx s
  rw [List.foldlM_append, bind_apply]
  cases hr : ranges.foldlM visitor acc s with
  | error e s' =>
      rw [hr] at h
      obtain ⟨s'', hxs, hu⟩ := h
      exact ⟨s'', by rw [bind_apply, hxs], hu⟩
  | ok acc' s' =>
      rw [hr] at h
      have hxs : x s = .ok (result acc') s' := h
      have hrest := hy acc' s'
      rw [bind_apply, hxs]
      exact hrest

theorem Side.hits_append (side : Side) (k m n : Nat) :
    side.hits k m ++ side.hits (k + m) n = side.hits k (m + n) := by
  unfold Side.hits
  rw [List.range_add, List.map_append, List.map_map]
  congr 1
  refine List.map_congr_left fun i _ => ?_
  simp [Nat.add_assoc]

theorem foldlM_cons_apply (visitor : β → HitRange → EStateM Error σ β) (range : HitRange)
    (ranges : List HitRange) (acc : β) (s : σ) :
    (range :: ranges).foldlM visitor acc s =
      match visitor acc range s with
      | .ok acc' s' => ranges.foldlM visitor acc' s'
      | .error e s' => .error e s' := by
  rw [List.foldlM_cons, bind_apply]
  cases visitor acc range s <;> rfl

/-- A clamped range of a side keeps its leading run. -/
theorem SideLoop.RunsOn.clamp [Platform] {loop : SideLoop γ} {side : Side} {Good : γ → Prop}
    {consumed : γ → Nat} (h : loop.RunsOn side Good consumed) {bound : R}
    (hp : PrefixClosed (side.inside bound) side.total) {p : γ} (available : Nat) (hp' : Good p)
    (hlt : consumed p < side.total) (hav : available ≤ side.extent (consumed p)) :
    (clampToWindow (loop.range available p) bound).count =
        leading (fun i => side.inside bound (consumed p + i)) available ∧
      (clampToWindow (loop.range available p) bound).hits =
        side.hits (consumed p)
          (leading (fun i => side.inside bound (consumed p + i)) available) := by
  obtain ⟨hcount, htable, hquery, hreach, hentry⟩ := h.range p available hp' hlt hav
  have hext := side.extent_le (consumed p) (by omega)
  have hinside : ∀ i < available, Qalsh.inside (loop.range available p) bound i =
      side.inside bound (consumed p + i) := by
    intro i hi
    unfold Qalsh.inside Side.inside
    rw [hentry i hi, hquery]
  have hclosed : PrefixClosed (Qalsh.inside (loop.range available p) bound)
      (loop.range available p).count := by
    rw [hcount]
    intro i j hij hj hin
    rw [hinside j hj] at hin
    rw [hinside i (by omega)]
    exact hp _ _ (by omega) (by omega) hin
  have hkeep : clampCount (loop.range available p) bound =
      leading (fun i => side.inside bound (consumed p + i)) available := by
    rw [clampCount_eq_leading (by rw [hcount]; exact hreach) hclosed, hcount]
    exact leading_congr hinside
  refine ⟨hkeep, ?_⟩
  have hle := leading_le (fun i => side.inside bound (consumed p + i)) available
  show (List.map _ (List.map (loop.range available p).entry (List.range (clampCount _ bound)))) = _
  rw [hkeep, List.map_map]
  refine List.map_congr_left fun i hi => ?_
  rw [List.mem_range] at hi
  show hitOf (loop.range available p).tableId (loop.range available p).queryValue
    ((loop.range available p).entry i) = _
  rw [hentry i (by omega), htable, hquery]

/-- Reach and budget shrink together while a full range is consumed. -/
theorem Side.min_reach_add (side : Side) {k remaining count : Nat} (hk : k < side.total)
    (hcount : count = min remaining (side.extent k))
    (hlast : side.breaks = true → count = side.extent k → side.total ≤ k + count) :
    min remaining (side.reach k) =
      count + min (remaining - count) (side.reach (k + count)) := by
  have hext := side.extent_le k hk.le
  unfold Side.reach
  cases hb : side.breaks with
  | false =>
      simp only [Bool.false_eq_true, if_false]
      omega
  | true =>
      simp only [if_true]
      by_cases hfull : count = side.extent k
      · have hend : side.extent (k + count) = 0 := by
          have := side.extent_le (k + count) (by omega)
          have := hlast hb hfull
          omega
        omega
      · omega

theorem Side.take_zero (side : Side) (bound : R) {k remaining : Nat}
    (h : remaining = 0 ∨ side.total ≤ k) (hk : k ≤ side.total) : side.take bound remaining k = 0 := by
  have hzero : min remaining (side.reach k) = 0 := by
    rcases h with h | h
    · omega
    · have := side.extent_le k hk
      unfold Side.reach
      split <;> omega
  unfold Side.take
  rw [hzero]
  rfl

/-- How many entries the loop consumes from a position. -/
def SideLoop.taken (loop : SideLoop γ) (side : Side) (consumed : γ → Nat) (bound : R)
    (remaining : Nat) (p : γ) : Nat :=
  if loop.blocked p = true then 0 else side.take bound remaining (consumed p)

/-- What a run of the loop from `p` with `remaining` of the budget amounts to: the
visited ranges are the leading run of the side, and `p'` lies behind that run,
blocked exactly when the window ended it. -/
structure SideLoop.Ran (loop : SideLoop γ) (side : Side) (Good : γ → Prop) (consumed : γ → Nat)
    (bound : R) (park : γ → σ → σ) (visitor : β → HitRange → EStateM Error σ β)
    (remaining : Nat) (p : γ) (x : Nat → β → EStateM Error σ (γ × Nat × β))
    (ranges : List HitRange) (p' : γ) : Prop where
  good : Good p'
  visits : ∀ visited acc, Visits visitor ranges acc (x visited acc) p'
    (visited + loop.taken side consumed bound remaining p) (fun s s' => ∃ q, Good q ∧ s' = park q s)
  consumed_eq : consumed p' = consumed p + loop.taken side consumed bound remaining p
  blocked : loop.blocked p' = (loop.blocked p ||
    decide (side.take bound remaining (consumed p) < min remaining (side.reach (consumed p))))
  hits : ranges.flatMap HitRange.hits =
    side.hits (consumed p) (loop.taken side consumed bound remaining p)

section Run

variable [Platform] {loop : SideLoop γ} {side : Side} {Good : γ → Prop} {consumed : γ → Nat}
  {bound : R} {park : γ → σ → σ} {visitor : β → HitRange → EStateM Error σ β}

omit [Platform] in
/-- A run that stops at once. -/
theorem SideLoop.ran_pure {remaining : Nat} {p : γ} (hp : Good p)
    (hle : consumed p ≤ side.total)
    (hstop : loop.blocked p = true ∨ remaining = 0 ∨ side.total ≤ consumed p) :
    loop.Ran side Good consumed bound park visitor remaining p
      (fun visited acc => pure (p, visited, acc)) [] p := by
  have htaken : loop.taken side consumed bound remaining p = 0 := by
    unfold SideLoop.taken
    split
    · rfl
    · rcases hstop with hb | hz
      · contradiction
      · exact side.take_zero bound hz hle
  refine ⟨hp, fun visited acc s => by rw [htaken]; rfl, by rw [htaken]; rfl, ?_,
    by rw [htaken]; rfl⟩
  rcases hstop with hb | hz
  · rw [hb, Bool.true_or]
  · have hzero : min remaining (side.reach (consumed p)) = 0 := by
      have := side.extent_le (consumed p) hle
      unfold Side.reach
      split <;> omega
    rw [hzero]
    simp

theorem SideLoop.run_of_blocked {limit passes scanned visited : Nat} {p : γ} {acc : β}
    (hb : loop.blocked p = true) :
    loop.run park bound visitor limit passes scanned visited p acc = pure (p, visited, acc) := by
  cases passes with
  | zero => rfl
  | succ passes => simp [SideLoop.run, hb]

omit [Platform] in
/-- Delivering one range, then whatever `y` visits. -/
theorem Visits.cons {range : HitRange} {ranges : List HitRange} {p : γ}
    {y : β → EStateM Error σ (γ × Nat × β)} {done : γ} {visited : Nat}
    {unwound : σ → σ → Prop} (hpark : ∀ s, unwound s (park p s))
    (hy : ∀ acc, Visits visitor ranges acc (y acc) done visited unwound) (acc : β) :
    Visits visitor (if range.count ≠ 0 then range :: ranges else ranges) acc
      (deliver park visitor p acc range >>= y) done visited unwound := by
  intro s
  unfold deliver
  by_cases hne : range.count ≠ 0
  · rw [if_pos hne, if_pos hne, foldlM_cons_apply, bind_apply]
    cases hv : visitor acc range s with
    | error e s' =>
        refine ⟨park p s', ?_, hpark s'⟩
        simp [onThrow, hv]
    | ok acc' s' =>
        simp only [onThrow, hv]
        exact hy acc' s'
  · rw [if_neg hne, if_neg hne]
    exact hy acc s

variable (park visitor) in
/-- The loop visits ranges that together are the leading run of its side.  Induction
is on the passes; a full range is followed by the run from behind it, a clamped one
blocks the side. -/
theorem SideLoop.RunsOn.run_spec (h : loop.RunsOn side Good consumed)
    (hp : PrefixClosed (side.inside bound) side.total) (limit : Nat) :
    ∀ (passes scanned : Nat) (p : γ), Good p → limit - scanned ≤ passes →
      ∃ ranges p', loop.Ran side Good consumed bound park visitor (limit - scanned) p
        (fun visited acc => loop.run park bound visitor limit passes scanned visited p acc)
        ranges p' := by
  intro passes
  induction passes with
  | zero =>
      intro scanned p hgood hpasses
      exact ⟨[], p, SideLoop.ran_pure hgood (h.consumed_le p hgood) (Or.inr (Or.inl (by omega)))⟩
  | succ passes ih =>
      intro scanned p hgood hpasses
      by_cases hcond : scanned < limit ∧ loop.active p = true ∧ loop.blocked p = false
      · obtain ⟨hlt, hactive, hopen⟩ := hcond
        have hk := (h.active p hgood).mp hactive
        have hav := h.available p (limit - scanned) hgood hk
        obtain ⟨hcount, hhits⟩ := h.clamp hp (loop.available (limit - scanned) p) hgood hk (by omega)
        simp only [SideLoop.run, hlt, hactive, hopen, and_self, if_true]
        generalize hrange : clampToWindow (loop.range (loop.available (limit - scanned) p) p) bound =
          range at *
        generalize hA : loop.available (limit - scanned) p = available at *
        have hcle : range.count ≤ available := hcount ▸ leading_le _ _
        obtain ⟨hgood₁, hconsumed₁, hblocked₁⟩ :=
          h.setBlocked p (decide (range.count < available)) hgood
        generalize loop.setBlocked (decide (range.count < available)) p = p₁ at *
        obtain ⟨p₂, stop, hadvance, hgood₂, hconsumed₂, hblocked₂, hstop, hbreak⟩ :=
          h.advance p₁ range.count available (limit - scanned) hgood₁ (by omega)
            (by rw [hconsumed₁]; exact hav) hcle
        rw [hconsumed₁] at hconsumed₂ hstop hbreak
        rw [hblocked₁] at hblocked₂
        have hpos := side.extent_pos _ hk
        -- what follows the range: nothing when the loop is left, a run from `p₂` otherwise
        obtain ⟨rest, p', m, hgood', hvisits, hconsumed', htake, hblocked', hrest⟩ :
            ∃ rest p' m, Good p' ∧
              (∀ visited acc, Visits visitor rest acc
                (if stop then pure (p₂, visited + range.count, acc)
                  else loop.run park bound visitor limit passes (scanned + range.count)
                    (visited + range.count) p₂ acc) p' (visited + range.count + m)
                (fun s s' => ∃ q, Good q ∧ s' = park q s)) ∧
              consumed p' = consumed p + range.count + m ∧
              side.take bound (limit - scanned) (consumed p) = range.count + m ∧
              loop.blocked p' = decide (side.take bound (limit - scanned) (consumed p) <
                min (limit - scanned) (side.reach (consumed p))) ∧
              rest.flatMap HitRange.hits = side.hits (consumed p + range.count) m := by
          cases hs : stop with
          | true =>
              -- the extent is consumed and the call may not go beyond it
              obtain ⟨hb, hfull⟩ := hstop hs
              have hreach : side.reach (consumed p) = side.extent (consumed p) := by
                simp [Side.reach, hb]
              have htake : side.take bound (limit - scanned) (consumed p) = range.count := by
                rw [Side.take, hreach, ← hav, ← hcount]
              refine ⟨[], p₂, 0, hgood₂, fun visited acc s => rfl, by omega, htake, ?_, rfl⟩
              rw [htake, hreach, ← hav, hblocked₂]
          | false =>
              by_cases hclamped : range.count < available
              · -- the window ended the range
                have hb₂ : loop.blocked p₂ = true := by rw [hblocked₂]; simpa using hclamped
                have hle : available ≤ min (limit - scanned) (side.reach (consumed p)) := by
                  have := side.extent_le (consumed p) hk.le
                  unfold Side.reach
                  split <;> omega
                have htake : side.take bound (limit - scanned) (consumed p) = range.count := by
                  rw [Side.take, hcount]
                  exact leading_of_stopped hle (hcount ▸ hclamped)
                refine ⟨[], p₂, 0, hgood₂, fun visited acc s => ?_, by omega, htake, ?_, rfl⟩
                · simp only [Bool.false_eq_true, if_false, SideLoop.run_of_blocked hb₂]
                  rfl
                · rw [htake, hb₂]
                  exact (decide_eq_true (by omega)).symm
              · have hfull : range.count = available := by omega
                obtain ⟨rest, p', hran⟩ := ih (scanned + range.count) p₂ hgood₂ (by omega)
                have hopen₂ : loop.blocked p₂ = false := by rw [hblocked₂]; simpa using hclamped
                have hsub : limit - (scanned + range.count) = limit - scanned - range.count := by
                  omega
                rw [hsub] at hran
                have hmin := side.min_reach_add hk (hfull.trans hav) fun hb hc => by
                  by_contra hcon
                  exact absurd (hbreak hb hc (by omega)) (by simp [hs])
                have htaken : loop.taken side consumed bound (limit - scanned - range.count) p₂ =
                    side.take bound (limit - scanned - range.count) (consumed p₂) := by
                  simp [SideLoop.taken, hopen₂]
                have htake : side.take bound (limit - scanned) (consumed p) = range.count +
                    side.take bound (limit - scanned - range.count) (consumed p₂) := by
                  rw [Side.take, hmin, leading_add _ (by rw [hfull]; exact hcount ▸ hfull), Side.take,
                    hconsumed₂]
                  simp only [Nat.add_assoc]
                have hvisits := hran.visits
                have hblocked := hran.blocked
                have hconsumed := hran.consumed_eq
                have hhits' := hran.hits
                rw [htaken] at hvisits hconsumed hhits'
                refine ⟨rest, p', _, hran.good, fun visited acc => ?_, by rw [hconsumed, hconsumed₂],
                  htake, ?_, by rw [hhits', hconsumed₂]⟩
                · simpa using hvisits (visited + range.count) acc
                · rw [hblocked, hopen₂, Bool.false_or, htake, hmin, hconsumed₂]
                  simp
        have htaken : loop.taken side consumed bound (limit - scanned) p = range.count + m := by
          rw [SideLoop.taken, hopen, htake]
          simp
        refine ⟨if range.count ≠ 0 then range :: rest else rest, p', hgood', fun visited acc => ?_,
          ?_, ?_, ?_⟩
        · rw [htaken, ← Nat.add_assoc]
          simp only [hadvance]
          refine Visits.cons (fun s => ⟨p₁, hgood₁, rfl⟩) (fun acc' => ?_) acc
          exact hvisits visited acc'
        · rw [htaken, hconsumed', Nat.add_assoc]
        · rw [hopen, Bool.false_or]
          exact hblocked'
        · rw [htaken, ← Side.hits_append, ← hrest, hcount, ← hhits, ← hcount]
          split
          · rw [List.flatMap_cons]
          · rename_i hzero
            have : range.hits = [] := by
              simp [HitRange.hits, HitRange.entries, not_not.mp hzero]
            rw [this, List.nil_append]
      · have hrun : (fun visited acc =>
            loop.run park bound visitor limit (passes + 1) scanned visited p acc) =
            fun visited acc => pure (p, visited, acc) := by
          funext visited acc
          rw [SideLoop.run, if_neg hcond]
        rw [hrun]
        refine ⟨[], p, SideLoop.ran_pure hgood (h.consumed_le p hgood) ?_⟩
        by_cases hb : loop.blocked p = true
        · exact Or.inl hb
        · refine Or.inr ?_
          by_cases hs : scanned < limit
          · right
            by_contra hact
            exact hcond ⟨hs, (h.active p hgood).mpr (by omega), by simpa using hb⟩
          · left
            omega

end Run

end Qalsh
