/-
  InMemory.lean --- the in-memory index and the public scan checks.
-/
import Qalsh.Build
import Qalsh.Position

set_option autoImplicit false

namespace Qalsh

open Foundation

variable {R : Type} [RadiusArithmetic R] {σ β : Type}

/-! ## The public scan -/

/-- `ForEachHit` with a callback. -/
def forEachHit (callback : β → ProjectionHit → EStateM Error σ β) (acc : β) (range : HitRange) :
    EStateM Error σ β :=
  range.hits.foldlM callback acc

/-- The public `scan` of every backend: its checks, then its `scan_impl`. -/
def scanChecked (belongs : Cursor R → Bool) (foreign : String)
    (scanImpl : Cursor R → (β → HitRange → EStateM Error σ β) → β →
      EStateM Error σ (ScanReport × β))
    (slot : Lens σ (Cursor R)) (bound : R) (maxEntries : Nat)
    (callback : Option (β → ProjectionHit → EStateM Error σ β)) (acc : β) :
    EStateM Error σ (ScanReport × β) := do
  liftResult (require (callback.isSome = true) "projection hit callback is required")
  liftResult (require (maxEntries > 0) "scan quantum must be positive")
  liftResult (require (RadiusArithmetic.isFinite bound = true) "scan bound must be finite")
  liftResult (require (RadiusArithmetic.nonnegative bound = true)
    "scan bound must not be negative")
  let cursor := slot.get (← get)
  liftResult (require (belongs cursor = true) foreign)
  match callback with
  | some callback => scanImpl cursor (forEachHit callback) acc
  | none => throw (.undefined "callback")

/-! ## The index -/

structure InMemoryIndex where
  metadata : IndexMetadata
  projectionVectors : List Binary32
  tables : List (List Entry)

def InMemoryIndex.build [Platform] (config : IndexConfig) (accessor : Option PointAccessor) :
    Except Error InMemoryIndex := do
  validateConfig config
  match accessor with
  | none => throw (.invalidArgument "point accessor is required")
  | some accessor =>
      let vectors ← makeProjectionVectors config
      let tables ← projectTables config vectors accessor
      return { metadata := metadataFromConfig config 0 .inMemory
               projectionVectors := vectors
               tables := tables }

/-- `build` succeeds on what its caller promises. -/
theorem Projectable.build [Platform] {config : IndexConfig} {vectors : List Binary32}
    {accessor : PointAccessor} (h : Projectable config vectors accessor) :
    ∃ index, InMemoryIndex.build config (some accessor) = .ok index := by
  obtain ⟨tables, htables⟩ := h.projectTables
  exact ⟨_, by
    simp only [InMemoryIndex.build, validateConfig_eq_ok.mpr h.valid, except_ok_bind, h.made, htables]
    rfl⟩

namespace InMemoryIndex

/-- `dynamic_cast` to `MemoryCursor` and the owner test; `self` is the index object. -/
def owns (self : Nat) : Cursor R → Bool
  | .memory cursor => cursor.owner == some self
  | _ => false

def resetCursor (index : InMemoryIndex) (self tableId : Nat) (queryValue : Binary32) :
    EStateM Error (Cursor R) Unit := do
  liftResult (require (tableId < index.tables.length) "projection table id is out of range")
  liftResult (requireFinite queryValue "projection query value")
  if owns self (← get) then
    let entries := index.tables.getD tableId []
    let position := bisect (fun i => (entries.getD i default).value.lt queryValue) 0 entries.length
    set (Cursor.memory (PositionCursor.place (some self) tableId queryValue position
      entries.length) : Cursor R)
  else throw (.invalidArgument "cursor does not belong to this in-memory index")

/-- The scanner over the entries of one table. -/
def scanner (entries : List Entry) : Scanner (PositionCursor R) :=
  positionScanner (fun i => entries.getD i default) entries.length (fun index => index + 1)
    (fun index => entries.length - index) false

def scanImpl [Platform] (index : InMemoryIndex) (slot : Lens σ (Cursor R)) (bound : R)
    (maxEntries : Nat) (scope : ScanScope) (cursor : Cursor R)
    (visitor : β → HitRange → EStateM Error σ β) (acc : β) :
    EStateM Error σ (ScanReport × β) := do
  liftResult (require (scope.isValid = true) "invalid projection scan scope")
  match cursor with
  | .memory cursor =>
      match index.tables[cursor.tableId]? with
      | some entries =>
          let sides ← liftResult (resetBoundedSides bound cursor.sides)
          (scanner entries).call Cursor.memory Cursor.memory slot bound maxEntries visitor scope
            cursor.tableId (cursor.withSides sides) acc
      | none => throw (.undefined "tables_[cursor->table_id]")
  | _ => throw (.undefined "static_cast<MemoryCursor*>")

def scan [Platform] (index : InMemoryIndex) (self : Nat) (slot : Lens σ (Cursor R)) (bound : R)
    (maxEntries : Nat) (callback : Option (β → ProjectionHit → EStateM Error σ β))
    (scope : ScanScope) (acc : β) : EStateM Error σ (ScanReport × β) :=
  scanChecked (owns self) "cursor does not belong to this in-memory index"
    (index.scanImpl slot bound maxEntries scope) slot bound maxEntries callback acc

/-! ## What its operations do -/

variable {points : Nat}

/-- The index stores the table of `t`. -/
def Stores (index : InMemoryIndex) (t : QueryTable points) : Prop :=
  index.tables[t.tableId]? = some t.table.entries

theorem resetCursor_spec {index : InMemoryIndex} {self : Nat} {t : QueryTable points}
    (h : index.Stores t) {cursor : Cursor R} (hown : owns self cursor = true) :
    ∃ p : PositionCursor R, p.Holds (some self) t (Outward.start t.split) ∧
      index.resetCursor self t.tableId t.queryValue cursor = .ok () (.memory p) := by
  obtain ⟨hlt, hget⟩ := List.getElem?_eq_some_iff.mp h
  have hentries : index.tables.getD t.tableId [] = t.table.entries := by
    rw [List.getD_eq_getElem?_getD, h]
    rfl
  have hsplit : bisect (fun i => (t.table.entries.getD i default).value.lt t.queryValue) 0
      points = t.split := by
    exact bisect_eq_leading (t.table.below_closed t.query_finite) 0 points (Nat.zero_le _)
      t.split_le le_rfl
  refine ⟨_, PositionCursor.place_holds (some self) t, ?_⟩
  simp only [resetCursor, requireFinite, bind_apply, require_of hlt, require_of t.query_finite,
    liftResult_ok, get_apply, hown, if_true, set_apply, hentries, t.table.length_entries,
    hsplit]

omit [RadiusArithmetic R] in
theorem scanner_traverses (t : QueryTable points) (owner : Option Nat) (breaks : Bool) :
    (scanner t.table.entries).Traverses t (Extent.whole points) breaks
      (PositionCursor.On owner t) (PositionCursor.On owner t) (PositionCursor.On owner t)
      (PositionCursor.view (R := R) points) := by
  unfold scanner
  rw [t.table.length_entries]
  exact positionScanner_traverses (fun _ _ => rfl) (fun _ _ => rfl) (fun _ _ => rfl)
    (fun h => by cases h) (fun _ => Or.inr ⟨fun _ => rfl, fun _ _ => rfl⟩)

theorem scanImpl_spec [Platform] {index : InMemoryIndex} {t : QueryTable points}
    (h : index.Stores t) {owner : Option Nat} {scope : ScanScope} (hvalid : scope.isValid = true)
    (slot : Lens σ (Cursor R)) {bound : ScanBound R} (maxEntries : Nat)
    (visitor : β → HitRange → EStateM Error σ β) {p : PositionCursor R}
    {o : Outward (ScanBound R)} (hp : p.Holds owner t o) (hbound : o.Admits t.windows bound)
    {step : OutwardStep (ScanBound R)}
    (hstep : step = (o.raise t.windows.le bound).consume (t.windows.inside bound)
      (Extent.whole points) (decide (scope = .range)) maxEntries) :
    CallSpec t step (o.raise t.windows.le bound) visitor
      (index.scanImpl slot bound.1 maxEntries scope (.memory p) visitor) slot
      (fun c => ∃ q, c = .memory q ∧ q.Holds owner t step.cursor)
      (fun c => ∃ q, c = .memory q ∧ q.On owner t) := by
  have hsides := hp.sides_eq
  have hraised : (p.withSides (sidesOf (o.raise t.windows.le bound))).Holds owner t
      (o.raise t.windows.le bound) := hp.withSides (by simp) (by simp)
  have hcall : index.scanImpl slot bound.1 maxEntries scope (.memory p) visitor =
      (scanner t.table.entries).call Cursor.memory Cursor.memory slot bound.1 maxEntries visitor
        scope t.tableId (p.withSides (sidesOf (o.raise t.windows.le bound))) := by
    funext acc s
    have htable : index.tables[p.tableId]? = some t.table.entries := by
      rw [hp.good.table]
      exact h
    simp only [scanImpl, bind_apply, require_of hvalid, liftResult_ok, htable, hsides,
      resetBoundedSides_eq t hbound]
    rw [hp.good.table]
  rw [hcall]
  have hspec := (scanner_traverses t owner (decide (scope = .range))).call_spec hvalid rfl
    Cursor.memory Cursor.memory slot bound maxEntries visitor hraised
  rw [callExtent_whole, ← hstep] at hspec
  exact hspec

end InMemoryIndex

end Qalsh
