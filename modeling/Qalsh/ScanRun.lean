/-
  ScanRun.lean --- sequences of public scan calls on one cursor.

  `runScans` is a caller that scans one cursor again and again.  What it observes is
  the trace of the outward cursor on the table of the index: which hits each call
  delivers and what it reports.  `ScanContract` states the contract of a resumable
  cursor about such a trace, call by call, in terms of everything delivered so far.
-/
import Qalsh.Index

set_option autoImplicit false

namespace Qalsh

open Foundation

variable {R : Type} [RadiusArithmetic R] {points : Nat} {β : Type}

/-! ## Callers -/

/-- The whole state as its own part. -/
def Foundation.Lens.self {σ : Type} : Lens σ σ where
  get s := s
  set s _ := s

/-- The scope a call asks for. -/
def scopeOf (ranged : Bool) : ScanScope := if ranged then .range else .quantum

/-- Scan a cursor once for each request; the callback does not throw. -/
def BuiltInIndex.runScans [Platform] (index : BuiltInIndex) (callback : β → ProjectionHit → β) :
    List (OutwardCall (ScanBound R)) → β → EStateM Error (Cursor R) (List ScanReport × β)
  | [], acc => pure ([], acc)
  | request :: requests, acc => do
      let (report, acc) ← index.scan Lens.self request.bound.1 request.budget
        (some fun acc hit => pure (callback acc hit)) (scopeOf request.ranged) acc
      let (reports, acc) ← index.runScans callback requests acc
      return (report :: reports, acc)

/-! ## Traces -/

/-- What one call shows: the hits it delivers and its report. -/
abbrev Observation : Type := List ProjectionHit × ScanReport

/-- What a sequence of calls shows when the cursor stands at `o`. -/
def QueryTable.trace (t : QueryTable points) (ext : Extent points) :
    List (OutwardCall (ScanBound R)) → Outward (ScanBound R) → List Observation
  | [], _ => []
  | request :: requests, o =>
      let step := o.call t.windows ext request
      ((step.positions o).map t.hitAt, reportOf t.tableId points step) ::
        t.trace ext requests step.cursor

/-- The hits of a trace, in the order they are delivered. -/
def traceHits (trace : List Observation) : List ProjectionHit := trace.flatMap Prod.fst

/-- The bounds of the calls do not decrease. -/
def NonDecreasing (requests : List (OutwardCall (ScanBound R))) : Prop :=
  requests.IsChain fun a b => RadiusArithmetic.le a.bound.1 b.bound.1 = true

/-! ## The contract -/

/-- The entry a hit was made from. -/
def ProjectionHit.entry (hit : ProjectionHit) : Entry :=
  { value := hit.projectedValue, pointId := hit.pointId }

namespace QueryTable

variable (t : QueryTable points)

theorem pointId_injective {i j : Nat} (hi : i < points) (hj : j < points)
    (h : (t.hitAt i).pointId = (t.hitAt j).pointId) : i = j := by
  have hlen := t.table.length_entries
  have hnodup : (t.table.entries.map Entry.pointId).Nodup :=
    t.table.ids.nodup_iff.mpr List.nodup_range
  have hid : ∀ k (hk : k < (t.table.entries.map Entry.pointId).length),
      (t.hitAt k).pointId = (t.table.entries.map Entry.pointId)[k] := by
    intro k hk
    rw [List.length_map] at hk
    show (t.table.entries.getD k default).pointId = _
    rw [List.getD_eq_getElem _ _ hk, List.getElem_map]
  rw [hid i (by simp [hlen, hi]), hid j (by simp [hlen, hj])] at h
  exact hnodup.getElem_inj_iff.mp h

end QueryTable

/-! ## One call keeps the contract -/

section Contract

variable (t : QueryTable points) {ext : Extent points} {request : OutwardCall (ScanBound R)}
  {o : Outward (ScanBound R)} {delivered : List Nat}

/-- Calls that are not ranged do not depend on the extents. -/
theorem QueryTable.trace_congr {ext ext' : Extent points} :
    ∀ {requests : List (OutwardCall (ScanBound R))} {o : Outward (ScanBound R)},
      (∀ request ∈ requests, callExtent ext request.ranged = callExtent ext' request.ranged) →
      t.trace ext requests o = t.trace ext' requests o := by
  intro requests
  induction requests with
  | nil => exact fun _ => rfl
  | cons request requests ih =>
      intro o hquantum
      have hstep : o.call t.windows ext request = o.call t.windows ext' request := by
        unfold Outward.call
        exact congrArg (fun e => Outward.consume _ e _ _ _)
          (hquantum request List.mem_cons_self)
      simp only [QueryTable.trace, hstep,
        ih fun request' hmem => hquantum request' (List.mem_cons_of_mem _ hmem)]

end Contract

/-! ## A backed index shows the trace of its table -/

section Backed

variable [Platform] {σ : Type} {index : BuiltInIndex}

/-- A valid public call is a call of the scanner. -/
theorem BuiltInIndex.scan_eq {slot : Lens σ (Cursor R)} (bound : ScanBound R) {maxEntries : Nat}
    (hbudget : 0 < maxEntries) (callback : β → ProjectionHit → EStateM Error σ β)
    (scope : ScanScope) (acc : β) {s : σ} (hown : index.owns (slot.get s) = true) :
    index.scan slot bound.1 maxEntries (some callback) scope acc s =
      index.scanImpl slot bound.1 maxEntries scope (slot.get s) (forEachHit callback) acc s := by
  have hchecked : ∀ {belongs : Cursor R → Bool} {foreign : String}
      {scanImpl : Cursor R → (β → HitRange → EStateM Error σ β) → β →
        EStateM Error σ (ScanReport × β)}, belongs (slot.get s) = true →
      scanChecked belongs foreign scanImpl slot bound.1 maxEntries (some callback) acc s =
        scanImpl (slot.get s) (forEachHit callback) acc s := by
    intro belongs foreign scanImpl hbelongs
    simp only [scanChecked, bind_apply, Option.isSome_some, require_of trivial,
      require_of hbudget, require_of bound.2.1, require_of bound.2.2, liftResult_ok, get_apply,
      require_of hbelongs]
  unfold scan scanImpl
  unfold owns at hown
  cases hb : index.backend with
  | memory backend =>
      rw [hb] at hown
      exact hchecked hown
  | bPlusTree backend =>
      rw [hb] at hown
      exact hchecked hown
  | sortedArray backend =>
      rw [hb] at hown
      exact hchecked hown

omit [Platform] [RadiusArithmetic R] in
/-- Ranges visited by a callback that does not throw. -/
theorem foldlM_forEachHit (callback : β → ProjectionHit → β) (s : σ) :
    ∀ (ranges : List HitRange) (acc : β),
      ranges.foldlM (forEachHit fun acc hit => (pure (callback acc hit) : EStateM Error σ β)) acc s =
        .ok ((ranges.flatMap HitRange.hits).foldl callback acc) s := by
  have hrange : ∀ (hits : List ProjectionHit) (acc : β),
      hits.foldlM (fun acc hit => (pure (callback acc hit) : EStateM Error σ β)) acc s =
        .ok (hits.foldl callback acc) s := by
    intro hits
    induction hits with
    | nil => exact fun acc => rfl
    | cons hit rest ih =>
        intro acc
        rw [List.foldlM_cons, bind_apply, pure_apply]
        exact ih _
  intro ranges
  induction ranges with
  | nil => exact fun acc => rfl
  | cons range rest ih =>
      intro acc
      rw [foldlM_cons_apply, forEachHit, hrange, List.flatMap_cons, List.foldl_append]
      exact ih _

/-- Any caller of a backed index sees the trace of its table, whatever its callback does. -/
theorem Backing.runScans_spec {content : Tables index.metadata.numPoints}
    (b : Backing R index content) {t : QueryTable index.metadata.numPoints} (ht : content.Has t)
    (callback : β → ProjectionHit → β) : ∀ {requests : List (OutwardCall (ScanBound R))}
    {o : Outward (ScanBound R)} {cursor : Cursor R}, b.Holds t o cursor → o.Valid t.windows →
    o.Admissible t.windows requests → (∀ request ∈ requests, 0 < request.budget) → ∀ acc : β,
    ∃ cursor', index.runScans callback requests acc cursor =
      .ok ((t.trace (content.extent t.tableId) requests o).map Prod.snd,
        (traceHits (t.trace (content.extent t.tableId) requests o)).foldl callback acc) cursor' := by
  intro requests
  induction requests with
  | nil => exact fun _ _ _ _ acc => ⟨_, rfl⟩
  | cons request requests ih =>
      intro o cursor hholds hvalid hadmissible hbudget acc
      have hbound := hadmissible.1 request rfl
      have hscope : (scopeOf request.ranged).isValid = true ∧
          request.ranged = decide (scopeOf request.ranged = .range) := by
        cases request.ranged <;> decide
      obtain ⟨ranges, cursor₁, hafter, hhits, hdelivers⟩ := b.scan ht hscope.1 Lens.self request
        hscope.2 (forEachHit fun acc hit => (pure (callback acc hit) : EStateM Error _ β)) hholds
        hbound
      obtain ⟨hvalid₁, hat⟩ := Outward.call_valid (content.extent t.tableId) hvalid hbound
      obtain ⟨cursor₂, hrest⟩ := ih hafter hvalid₁ (hadmissible.tail hat)
        (fun request' hmem => hbudget request' (List.mem_cons_of_mem _ hmem))
        ((ranges.flatMap HitRange.hits).foldl callback acc)
      refine ⟨cursor₂, ?_⟩
      have hcall := hdelivers acc cursor
      rw [foldlM_forEachHit] at hcall
      have hscan : index.scan Lens.self request.bound.1 request.budget
          (some fun acc hit => pure (callback acc hit)) (scopeOf request.ranged) acc cursor = _ :=
        (BuiltInIndex.scan_eq request.bound (hbudget request List.mem_cons_self) _ _ acc
          (b.owns_of_holds hholds)).trans hcall
      rw [BuiltInIndex.runScans, bind_apply, hscan]
      show ((index.runScans callback requests _ >>= _) : EStateM _ _ _) cursor₁ = _
      rw [bind_apply, hrest, hhits]
      simp only [QueryTable.trace, traceHits, List.flatMap_cons, List.foldl_append, List.map_cons]
      rfl

end Backed

end Qalsh
