/-
  Scan.lean --- one scan call over both sides, and what it delivers.

  The body of `scan_impl` after its checks is the same for every backend: scan the
  left side with its share of the budget, then the right side with its own or with
  what is left over, then report.  `Scanner.Traverses` is what a backend has to
  establish about its two loops; `Scanner.scan_spec` says that its calls then
  consume exactly what the abstract outward cursor consumes.
-/
import Qalsh.Table

set_option autoImplicit false

namespace Qalsh

open Foundation

variable {R : Type} [RadiusArithmetic R] {σ γ β : Type}

/-! ## The call -/

/-- The two side scans of a backend; `enter` is what a side does before its loop. -/
structure Scanner (γ : Type) where
  left : SideLoop γ
  right : SideLoop γ
  enterLeft : γ → Except Error γ
  enterRight : γ → Except Error γ

/-- `scan_left` or `scan_right`; an inactive or blocked side does nothing. -/
def SideLoop.scan [Platform] (loop : SideLoop γ) (enter : γ → Except Error γ)
    (park : γ → σ → σ) (bound : R) (visitor : β → HitRange → EStateM Error σ β)
    (limit visited : Nat) (position : γ) (acc : β) : EStateM Error σ (γ × Nat × β) :=
  if loop.active position = true ∧ loop.blocked position = false then do
    let position ← onThrow (park position) (liftResult (enter position))
    loop.run park bound visitor limit limit 0 visited position acc
  else pure (position, visited, acc)

def leftLimitOf (scope : ScanScope) (maxEntries : Nat) : Nat :=
  if scope = .range then maxEntries else maxEntries / 2 + maxEntries % 2

/-- `right_limit`, after the left side has visited `entriesVisited`. -/
def rightLimitOf (scope : ScanScope) (maxEntries entriesVisited : Nat) : Nat :=
  let rightLimit := if scope = .range then maxEntries else maxEntries / 2
  if scope = .quantum ∧ rightLimit = 0 then maxEntries - entriesVisited else rightLimit

def Scanner.report (scanner : Scanner γ) (tableId entriesVisited : Nat) (position : γ) :
    ScanReport where
  tableId := tableId
  entriesVisited := entriesVisited
  windowExhausted := (!scanner.left.active position || scanner.left.blocked position) &&
    (!scanner.right.active position || scanner.right.blocked position)
  tableExhausted := !scanner.left.active position && !scanner.right.active position
  roundComplete := false
  allTablesExhausted := false

def Scanner.scan [Platform] (scanner : Scanner γ) (park : γ → σ → σ) (bound : R)
    (maxEntries : Nat) (visitor : β → HitRange → EStateM Error σ β) (scope : ScanScope)
    (tableId : Nat) (position : γ) (acc : β) : EStateM Error σ (γ × ScanReport × β) := do
  let (position, entriesVisited, acc) ← scanner.left.scan scanner.enterLeft park bound visitor
    (leftLimitOf scope maxEntries) 0 position acc
  let (position, entriesVisited, acc) ←
    scanner.right.scan scanner.enterRight park bound visitor
      (rightLimitOf scope maxEntries entriesVisited) entriesVisited position acc
  return (position, scanner.report tableId entriesVisited position, acc)

/-! ## Refinement -/

/-- The part of an outward cursor a left scan leaves alone. -/
def leftFrame {B : Type} (o : Outward B) : Outward B := { o with left := 0, leftBlocked := false }

/-- The part a right scan leaves alone. -/
def rightFrame {B : Type} (o : Outward B) : Outward B :=
  { o with right := 0, rightBlocked := false }

theorem leftFrame_eq {B : Type} {o o' : Outward B} (h : leftFrame o = leftFrame o') :
    o.right = o'.right ∧ o.rightBlocked = o'.rightBlocked ∧ o.lastBound = o'.lastBound := by
  simpa [leftFrame] using h

theorem rightFrame_eq {B : Type} {o o' : Outward B} (h : rightFrame o = rightFrame o') :
    o.left = o'.left ∧ o.leftBlocked = o'.leftBlocked ∧ o.lastBound = o'.lastBound := by
  simpa [rightFrame] using h

variable {points : Nat}

/-- The loops of a scanner move outward over a table.  `view` reads the abstract
cursor off a position. -/
structure Scanner.Traverses (scanner : Scanner γ) (t : QueryTable points) (ext : Extent points)
    (breaks : Bool) (Good GoodLeft GoodRight : γ → Prop) (view : γ → Outward R) : Prop where
  bounds : ∀ p, Good p →
    (view p).left ≤ t.split ∧ t.split ≤ (view p).right ∧ (view p).right ≤ points
  good_left : ∀ p, GoodLeft p → Good p
  good_right : ∀ p, GoodRight p → Good p
  leftActive : ∀ p, Good p → scanner.left.active p = decide (0 < (view p).left)
  rightActive : ∀ p, Good p → scanner.right.active p = decide ((view p).right < points)
  leftBlocked : ∀ p, Good p → scanner.left.blocked p = (view p).leftBlocked
  rightBlocked : ∀ p, Good p → scanner.right.blocked p = (view p).rightBlocked
  enterLeft : ∀ p, Good p → 0 < (view p).left →
    ∃ p', scanner.enterLeft p = .ok p' ∧ GoodLeft p' ∧ view p' = view p
  enterRight : ∀ p, Good p → (view p).right < points →
    ∃ p', scanner.enterRight p = .ok p' ∧ GoodRight p' ∧ view p' = view p
  left : ∀ f, scanner.left.RunsOn (t.leftSide ext breaks)
    (fun p => GoodLeft p ∧ leftFrame (view p) = f) (fun p => t.split - (view p).left)
  right : ∀ f, scanner.right.RunsOn (t.rightSide ext breaks)
    (fun p => GoodRight p ∧ rightFrame (view p) = f) (fun p => (view p).right - t.split)

/-- The report of an abstract step. -/
def reportOf {B : Type} (tableId points : Nat) (step : OutwardStep B) : ScanReport where
  tableId := tableId
  entriesVisited := step.leftTaken + step.rightTaken
  windowExhausted := step.cursor.complete points
  tableExhausted := step.cursor.exhausted points
  roundComplete := false
  allTablesExhausted := false

/-- Entering a side and running its loop. -/
theorem SideLoop.RunsOn.scan_spec [Platform] {loop : SideLoop γ} {side : Side}
    {Good : γ → Prop} {consumed : γ → Nat} (h : loop.RunsOn side Good consumed)
    (Outside : γ → Prop) (enter : γ → Except Error γ) (park : γ → σ → σ) {bound : R}
    (visitor : β → HitRange → EStateM Error σ β) (limit : Nat)
    (hclosed : PrefixClosed (side.inside bound) side.total) {p : γ} (hp : Outside p)
    (hout : ∀ q, Good q → Outside q) (hle : consumed p ≤ side.total)
    (hactive : loop.active p = true ↔ consumed p < side.total)
    (henter : consumed p < side.total → ∃ q, enter p = .ok q ∧ Good q ∧
      consumed q = consumed p ∧ loop.blocked q = loop.blocked p) :
    ∃ ranges p', loop.Ran side Outside consumed bound park visitor limit p
      (fun visited acc => loop.scan enter park bound visitor limit visited p acc) ranges p' := by
  by_cases hcond : loop.active p = true ∧ loop.blocked p = false
  · obtain ⟨q, hq, hgood, hconsumed, hblocked⟩ := henter (hactive.mp hcond.1)
    obtain ⟨ranges, p', hran⟩ := h.run_spec park visitor hclosed limit limit 0 q
      hgood (by omega)
    have htaken : loop.taken side consumed bound limit p = loop.taken side consumed bound limit q := by
      rw [SideLoop.taken, SideLoop.taken, hconsumed, hblocked]
    refine ⟨ranges, p', hout _ hran.good, fun visited acc => ?_, ?_, ?_, ?_⟩
    · have hv := hran.visits visited acc
      rw [Nat.sub_zero, ← htaken] at hv
      intro s
      have hs := hv s
      simp only [SideLoop.scan, hcond, and_self, if_true, hq]
      cases hr : ranges.foldlM visitor acc s with
      | ok acc' s' => rw [hr] at hs; exact hs
      | error e s' =>
          rw [hr] at hs
          obtain ⟨s'', hx, r, hr, hpark⟩ := hs
          exact ⟨s'', hx, r, hout r hr, hpark⟩
    · rw [hran.consumed_eq, Nat.sub_zero, htaken, hconsumed]
    · rw [hran.blocked, Nat.sub_zero, hblocked, hconsumed]
    · rw [hran.hits, Nat.sub_zero, htaken, hconsumed]
  · have hstop : loop.blocked p = true ∨ limit = 0 ∨ side.total ≤ consumed p := by
      by_cases hb : loop.blocked p = true
      · exact Or.inl hb
      · refine Or.inr (Or.inr ?_)
        by_contra hlt
        exact hcond ⟨hactive.mpr (by omega), by simpa using hb⟩
    have hscan : (fun visited acc => loop.scan enter park bound visitor limit visited p acc) =
        fun visited acc => pure (p, visited, acc) := by
      funext visited acc
      rw [SideLoop.scan, if_neg hcond]
    rw [hscan]
    exact ⟨[], p, SideLoop.ran_pure hp hle hstop⟩

theorem leftLimitOf_eq {scope : ScanScope} {breaks : Bool}
    (hscope : breaks = decide (scope = .range)) (maxEntries : Nat) :
    leftLimitOf scope maxEntries = leftLimit breaks maxEntries := by
  subst hscope
  simp [leftLimitOf, leftLimit]

theorem rightLimitOf_eq {scope : ScanScope} {breaks : Bool} (hvalid : scope.isValid = true)
    (hscope : breaks = decide (scope = .range)) (maxEntries visited : Nat) :
    rightLimitOf scope maxEntries visited = rightLimit breaks maxEntries visited := by
  subst hscope
  cases scope with
  | quantum => simp [rightLimitOf, rightLimit]
  | range => simp [rightLimitOf, rightLimit]
  | invalid code => simp [ScanScope.isValid] at hvalid

theorem QueryTable.leftSide_reach (t : QueryTable points) (ext : Extent points) (breaks : Bool)
    (k : Nat) : (t.leftSide ext breaks).reach k = (callExtent ext breaks).left (t.split - k) := by
  unfold Side.reach callExtent
  cases breaks <;> rfl

theorem QueryTable.rightSide_reach (t : QueryTable points) (ext : Extent points) (breaks : Bool)
    (k : Nat) : (t.rightSide ext breaks).reach k = (callExtent ext breaks).right (t.split + k) := by
  unfold Side.reach callExtent
  cases breaks
  · show points - t.split - k = points - (t.split + k)
    omega
  · rfl

/-- The run a left scan takes, in the terms of the abstract cursor. -/
theorem QueryTable.leftSide_take (t : QueryTable points) (ext : Extent points) (breaks : Bool)
    (bound : R) (limit : Nat) {l : Nat} (hl : l ≤ t.split) :
    (t.leftSide ext breaks).take bound limit (t.split - l) =
      leftRun (t.insideAt bound) l (min limit ((callExtent ext breaks).left l)) := by
  unfold Side.take leftRun
  rw [t.leftSide_reach, show t.split - (t.split - l) = l by omega]
  refine leading_congr fun i _ => ?_
  show withinWindow t.queryValue bound (t.table.entryAt (t.split - 1 - (t.split - l + i))) = _
  rw [show t.split - 1 - (t.split - l + i) = l - 1 - i by omega]
  rfl

theorem QueryTable.rightSide_take (t : QueryTable points) (ext : Extent points) (breaks : Bool)
    (bound : R) (limit : Nat) {r : Nat} (hr : t.split ≤ r) :
    (t.rightSide ext breaks).take bound limit (r - t.split) =
      rightRun (t.insideAt bound) r (min limit ((callExtent ext breaks).right r)) := by
  unfold Side.take rightRun
  rw [t.rightSide_reach, show t.split + (r - t.split) = r by omega]
  refine leading_congr fun i _ => ?_
  show withinWindow t.queryValue bound (t.table.entryAt (t.split + (r - t.split + i))) = _
  rw [show t.split + (r - t.split + i) = r + i by omega]
  rfl

/-- One call consumes what the abstract cursor consumes, delivers the hits of these
positions in that order and reports the state of the abstract cursor. -/
theorem Scanner.Traverses.scan_spec [Platform] {scanner : Scanner γ} {t : QueryTable points}
    {ext : Extent points} {breaks : Bool} {Good GoodLeft GoodRight : γ → Prop}
    {view : γ → Outward R} (h : scanner.Traverses t ext breaks Good GoodLeft GoodRight view)
    {scope : ScanScope} (hvalid : scope.isValid = true) (hscope : breaks = decide (scope = .range))
    (park : γ → σ → σ) (bound : R) (maxEntries : Nat)
    (visitor : β → HitRange → EStateM Error σ β) {p : γ} (hp : Good p) {step : OutwardStep R}
    (hstep : step = (view p).consume (t.insideAt bound) (callExtent ext breaks) breaks maxEntries) :
    ∃ ranges p', Good p' ∧ view p' = step.cursor ∧
      ranges.flatMap HitRange.hits = (step.positions (view p)).map t.hitAt ∧
      ∀ acc, Delivers visitor ranges acc
        (scanner.scan park bound maxEntries visitor scope t.tableId p acc)
        (fun acc' => (p', reportOf t.tableId points step, acc')) id
        (fun s s' => ∃ q, Good q ∧ s' = park q s) := by
  obtain ⟨hb₁, hb₂, hb₃⟩ := h.bounds p hp
  -- the left side
  obtain ⟨leftRanges, p₁, hleft⟩ := (h.left (leftFrame (view p))).scan_spec
    (fun q => Good q ∧ leftFrame (view q) = leftFrame (view p)) scanner.enterLeft park visitor
    (leftLimitOf scope maxEntries)
    (t.leftSide_closed ext breaks bound) (p := p) ⟨hp, rfl⟩
    (fun q hq => ⟨h.good_left q hq.1, hq.2⟩)
    (Nat.sub_le _ _)
    (by
      rw [h.leftActive p hp, decide_eq_true_eq]
      show _ ↔ t.split - (view p).left < t.split
      omega)
    (by
      intro hlt
      obtain ⟨q, hq, hgood, hview⟩ := h.enterLeft p hp (by
        change t.split - (view p).left < t.split at hlt
        omega)
      exact ⟨q, hq, ⟨hgood, by rw [hview]⟩, by rw [hview],
        by rw [h.leftBlocked _ (h.good_left q hgood), h.leftBlocked _ hp, hview]⟩)
  obtain ⟨hgood₁, hframe₁⟩ := hleft.good
  obtain ⟨hb₁₁, hb₁₂, hb₁₃⟩ := h.bounds p₁ hgood₁
  obtain ⟨hright₁, hrb₁, hlast₁⟩ := leftFrame_eq hframe₁
  have htakenL : scanner.left.taken (t.leftSide ext breaks) (fun p => t.split - (view p).left) bound
      (leftLimitOf scope maxEntries) p = step.leftTaken := by
    rw [SideLoop.taken, h.leftBlocked p hp, t.leftSide_take ext breaks bound _ hb₁,
      leftLimitOf_eq hscope, hstep]
    rfl
  have hblockedL := hleft.blocked
  rw [h.leftBlocked p hp, h.leftBlocked p₁ hgood₁, t.leftSide_take ext breaks bound _ hb₁,
    t.leftSide_reach, leftLimitOf_eq hscope, show t.split - (t.split - (view p).left) =
      (view p).left by omega] at hblockedL
  have hconsumedL := hleft.consumed_eq
  rw [htakenL] at hconsumedL
  -- the right side
  obtain ⟨rightRanges, p₂, hright⟩ := (h.right (rightFrame (view p₁))).scan_spec
    (fun q => Good q ∧ rightFrame (view q) = rightFrame (view p₁)) scanner.enterRight park visitor
    (rightLimitOf scope maxEntries step.leftTaken)
    (t.rightSide_closed ext breaks bound) (p := p₁) ⟨hgood₁, rfl⟩
    (fun q hq => ⟨h.good_right q hq.1, hq.2⟩)
    (by
      show (view p₁).right - t.split ≤ points - t.split
      omega)
    (by
      rw [h.rightActive p₁ hgood₁, decide_eq_true_eq]
      show _ ↔ (view p₁).right - t.split < points - t.split
      omega)
    (by
      intro hlt
      obtain ⟨q, hq, hgood, hview⟩ := h.enterRight p₁ hgood₁ (by
        change (view p₁).right - t.split < points - t.split at hlt
        omega)
      exact ⟨q, hq, ⟨hgood, by rw [hview]⟩, by rw [hview],
        by rw [h.rightBlocked _ (h.good_right q hgood), h.rightBlocked _ hgood₁, hview]⟩)
  obtain ⟨hgood₂, hframe₂⟩ := hright.good
  obtain ⟨hb₂₁, hb₂₂, hb₂₃⟩ := h.bounds p₂ hgood₂
  obtain ⟨hleft₂, hlb₂, hlast₂⟩ := rightFrame_eq hframe₂
  have htakenR : scanner.right.taken (t.rightSide ext breaks) (fun p => (view p).right - t.split)
      bound (rightLimitOf scope maxEntries step.leftTaken) p₁ = step.rightTaken := by
    rw [SideLoop.taken, h.rightBlocked p₁ hgood₁, t.rightSide_take ext breaks bound _ hb₁₂,
      rightLimitOf_eq hvalid hscope, hright₁, hrb₁, hstep]
    rfl
  have hblockedR := hright.blocked
  rw [h.rightBlocked p₁ hgood₁, h.rightBlocked p₂ hgood₂, t.rightSide_take ext breaks bound _ hb₁₂,
    t.rightSide_reach, rightLimitOf_eq hvalid hscope, hright₁, hrb₁,
    show t.split + ((view p).right - t.split) = (view p).right by omega] at hblockedR
  have hconsumedR := hright.consumed_eq
  rw [htakenR] at hconsumedR
  have hview : view p₂ = step.cursor := by
    have hcl : step.cursor.left = (view p).left - step.leftTaken := by rw [hstep]; rfl
    have hcr : step.cursor.right = (view p).right + step.rightTaken := by rw [hstep]; rfl
    refine Outward.ext (by omega) (by omega) ?_ ?_ ?_
    · rw [hlb₂, hblockedL, hstep]
      simp only [Outward.consume]
      cases (view p).leftBlocked <;> simp
    · rw [hblockedR, hstep]
      simp only [Outward.consume]
      cases (view p).rightBlocked <;> simp
    · rw [hlast₂, hlast₁, hstep]
      rfl
  refine ⟨leftRanges ++ rightRanges, p₂, hgood₂, hview, ?_, fun acc => ?_⟩
  · rw [List.flatMap_append, hleft.hits, hright.hits, htakenL, htakenR, t.leftSide_hits,
      t.rightSide_hits, ← List.map_append, show t.split - (t.split - (view p).left) = (view p).left
      by omega, show t.split + ((view p₁).right - t.split) = (view p).right by omega]
    rfl
  · have hreport : scanner.report t.tableId (step.leftTaken + step.rightTaken) p₂ =
        reportOf t.tableId points step := by
      unfold Scanner.report reportOf Outward.complete Outward.exhausted
      rw [h.leftActive p₂ hgood₂, h.rightActive p₂ hgood₂, h.leftBlocked p₂ hgood₂,
        h.rightBlocked p₂ hgood₂, hview]
      have hl : (!decide (0 < step.cursor.left)) = decide (step.cursor.left = 0) := by
        rw [← decide_not]
        exact decide_eq_decide.mpr (by omega)
      have hr : (!decide (step.cursor.right < points)) = decide (step.cursor.right = points) := by
        rw [← decide_not, ← hview]
        exact decide_eq_decide.mpr (by omega)
      rw [hl, hr]
    have hunwound : ∀ {f : Outward R → Outward R} {o : Outward R} {s s' : σ},
        (∃ q, (Good q ∧ f (view q) = o) ∧ s' = park q s) → ∃ q, Good q ∧ s' = park q s := by
      rintro f o s s' ⟨q, hq, hs⟩
      exact ⟨q, hq.1, hs⟩
    have hvisitsL := (hleft.visits 0 acc).mono fun s s' => hunwound
    rw [htakenL, Nat.zero_add] at hvisitsL
    refine Delivers.bind hvisitsL fun acc' => ?_
    have hvisitsR := (hright.visits step.leftTaken acc').mono fun s s' => hunwound
    rw [htakenR] at hvisitsR
    rw [← List.append_nil rightRanges]
    refine Delivers.bind hvisitsR fun acc'' => ?_
    rw [← hreport]
    exact fun s => rfl

/-! ## A call on a cursor -/

/-- The scan of a cursor stored in a part of the state.  `commit` is what the call
stores when it returns, `park` what it stores while it is being unwound. -/
def Scanner.call [Platform] (scanner : Scanner γ) (park commit : γ → Cursor R)
    (slot : Lens σ (Cursor R)) (bound : R) (maxEntries : Nat)
    (visitor : β → HitRange → EStateM Error σ β) (scope : ScanScope) (tableId : Nat)
    (position : γ) (acc : β) : EStateM Error σ (ScanReport × β) := do
  let (position, report, acc) ← scanner.scan (fun q => slot.set (park q)) bound maxEntries visitor
    scope tableId position acc
  modify (slot.set (commit position))
  return (report, acc)

/-- A position whose abstract cursor is `o`. -/
structure Holds (Good : γ → Prop) (view : γ → Outward R) (o : Outward (ScanBound R)) (p : γ) :
    Prop where
  good : Good p
  view_eq : view p = o.map Subtype.val

/-- What the scan of a cursor amounts to: some ranges whose hits are those of the
abstract step, the report of that step, and a position behind it. -/
def CallSpec {points : Nat} (t : QueryTable points) (step : OutwardStep (ScanBound R))
    (before : Outward (ScanBound R)) (visitor : β → HitRange → EStateM Error σ β)
    (call : β → EStateM Error σ (ScanReport × β)) (slot : Lens σ (Cursor R))
    (After Parked : Cursor R → Prop) : Prop :=
  ∃ ranges cursor, After cursor ∧
    ranges.flatMap HitRange.hits = (step.positions before).map t.hitAt ∧
    ∀ acc, Delivers visitor ranges acc (call acc)
      (fun acc' => (reportOf t.tableId points step, acc')) (slot.set cursor)
      (fun s s' => ∃ parked, Parked parked ∧ s' = slot.set parked s)

theorem CallSpec.mono {points : Nat} {t : QueryTable points} {step : OutwardStep (ScanBound R)}
    {before : Outward (ScanBound R)} {visitor : β → HitRange → EStateM Error σ β}
    {call : β → EStateM Error σ (ScanReport × β)} {slot : Lens σ (Cursor R)}
    {After Parked After' Parked' : Cursor R → Prop}
    (h : CallSpec t step before visitor call slot After Parked) (ha : ∀ c, After c → After' c)
    (hp : ∀ c, Parked c → Parked' c) : CallSpec t step before visitor call slot After' Parked' := by
  obtain ⟨ranges, cursor, hafter, hhits, hdelivers⟩ := h
  refine ⟨ranges, cursor, ha _ hafter, hhits, fun acc => (hdelivers acc).mono ?_⟩
  rintro s s' ⟨parked, hparked, hs⟩
  exact ⟨parked, hp _ hparked, hs⟩

theorem Scanner.Traverses.call_spec [Platform] {scanner : Scanner γ} {t : QueryTable points}
    {ext : Extent points} {breaks : Bool} {Good GoodLeft GoodRight : γ → Prop}
    {view : γ → Outward R} (h : scanner.Traverses t ext breaks Good GoodLeft GoodRight view)
    {scope : ScanScope} (hvalid : scope.isValid = true) (hscope : breaks = decide (scope = .range))
    (park commit : γ → Cursor R) (slot : Lens σ (Cursor R)) (bound : ScanBound R)
    (maxEntries : Nat) (visitor : β → HitRange → EStateM Error σ β) {p : γ}
    {o : Outward (ScanBound R)} (hp : Holds Good view o p) :
    CallSpec t (o.consume (t.windows.inside bound) (callExtent ext breaks) breaks maxEntries) o
      visitor (scanner.call park commit slot bound.1 maxEntries visitor scope t.tableId p) slot
      (fun c => ∃ q, c = commit q ∧ Holds Good view (o.consume (t.windows.inside bound)
        (callExtent ext breaks) breaks maxEntries).cursor q)
      (fun c => ∃ q, c = park q ∧ Good q) := by
  have hview := hp.view_eq
  obtain ⟨ranges, p', hgood, hview', hhits, hdelivers⟩ := h.scan_spec hvalid hscope
    (fun q => slot.set (park q)) bound.1 maxEntries visitor hp.good rfl
  rw [hview] at hview' hhits hdelivers
  refine ⟨ranges, commit p', ⟨p', rfl, hgood, hview'⟩, hhits, fun acc s => ?_⟩
  have hs := hdelivers acc s
  unfold Scanner.call
  rw [bind_apply]
  cases hr : ranges.foldlM visitor acc s with
  | ok acc' s' =>
      rw [hr] at hs
      have hs : scanner.scan (fun q => slot.set (park q)) bound.1 maxEntries visitor scope t.tableId
        p acc s = .ok _ _ := hs
      rw [hs]
      rfl
  | error e s' =>
      rw [hr] at hs
      obtain ⟨s'', hx, q, hq, hpark⟩ := hs
      exact ⟨s'', by rw [hx], park q, ⟨q, rfl, hq⟩, hpark⟩

/-! ## The bound of a call -/

/-- The three fields of a cursor that depend on the bound. -/
def sidesOf (o : Outward (ScanBound R)) : BoundedSides R where
  lastBound := o.lastBound.map Subtype.val
  leftBlocked := o.leftBlocked
  rightBlocked := o.rightBlocked

theorem resetBoundedSides_eq (t : QueryTable points) {o : Outward (ScanBound R)}
    {bound : ScanBound R} (h : o.Admits t.windows bound) :
    resetBoundedSides bound.1 (sidesOf o) = .ok (sidesOf (o.raise t.windows.le bound)) := by
  unfold resetBoundedSides sidesOf Outward.raise
  cases hlast : o.lastBound with
  | none => rfl
  | some last =>
      have hle : RadiusArithmetic.le last.1 bound.1 = true := h last hlast
      have hlt := RadiusArithmetic.lt_iff last.2.1 bound.2.1
      simp only [Option.map_some, require_of hle, except_ok_bind]
      by_cases hback : t.windows.le bound last = true
      · have hback' : RadiusArithmetic.le bound.1 last.1 = true := hback
        have : RadiusArithmetic.lt last.1 bound.1 = false := by
          rw [← Bool.not_eq_true, hlt, hback']
          decide
        simp [this, hback, hlast]
      · have hback' : RadiusArithmetic.le bound.1 last.1 = false := by
          rw [← Bool.not_eq_true]
          exact hback
        have : RadiusArithmetic.lt last.1 bound.1 = true := hlt.mpr hback'
        simp [this, hback]

end Qalsh
