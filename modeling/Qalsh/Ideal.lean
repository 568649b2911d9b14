/-
  Ideal.lean --- a search over tables, with cursors and marks of its own.

  The search of the engine goes through index objects, a pool of scratch records and
  cursors with weak identities.  What it computes depends on none of these: it is the
  search defined here, which scans sorted tables with outward cursors and keeps the
  points it has seen in a set.
-/
import Mathlib
import Qalsh.Drivers
import Qalsh.Scratch

set_option autoImplicit false

namespace Qalsh

open Foundation

variable {R : Type} [RadiusArithmetic R] {σ : Type}

/-! ## Settings -/

/-- What a search is about: its parameters, and the tables it scans around the
projections of the query. -/
structure Setting extends SearchParameters where
  table : Nat → QueryTable metadata.numPoints
  extent : Nat → Extent metadata.numPoints
  tableId_eq : ∀ tableId < tableCount, (table tableId).tableId = tableId
  metadata_valid : ValidMetadata metadata
  k_pos : 0 < k
  k_le : k ≤ metadata.numPoints
  tables_pos : 0 < tableCount
  quantum_pos : 0 < scanQuantum

/-- What a search keeps away from its callbacks. -/
structure Private (R : Type) [RadiusArithmetic R] where
  cursors : Nat → Outward (ScanBound R)
  seen : Nat → Bool

/-- The callbacks of a strategy beside another state. -/
def SearchStrategy.beside (ρ : Type) (strategy : SearchStrategy R σ) : SearchStrategy R (ρ × σ) where
  start query := outside (strategy.start query)
  next state := outside (strategy.next state)
  onProjectionHit hit state := outside (strategy.onProjectionHit hit state)
  onEvaluation event state := outside (strategy.onEvaluation event state)
  onScanBoundary event state := outside (strategy.onScanBoundary event state)
  onRadiusAdvanced state := outside (strategy.onRadiusAdvanced state)

/-- What decides about one hit. -/
abbrev Accept (R σ : Type) : Type :=
  ProjectionHit → QuerySnapshot R → EStateM Error σ HitDecision

namespace Setting

variable (setting : Setting)

/-- The request of one scan action. -/
def request (bound : ScanBound R) (limit : Nat) (scope : ScanScope) : OutwardCall (ScanBound R) where
  bound := bound
  budget := limit
  ranged := decide (scope = .range)

/-- What a scan of a table does to its cursor. -/
def step (tableId : Nat) (request : OutwardCall (ScanBound R)) (o : Outward (ScanBound R)) :
    OutwardStep (ScanBound R) :=
  o.call (setting.table tableId).windows (setting.extent tableId) request

/-- A scan delivers the hits of its step one by one and moves the cursor at the end. -/
def scan (accept : Accept R (Private R × σ))
    (evaluate : Progress R → Nat → EStateM Error (Private R × σ) (Progress R)) (tableId : Nat)
    (bound : R) (limit : Nat) (scope : ScanScope) (progress : Progress R) :
    EStateM Error (Private R × σ) (ScanReport × Progress R) := do
  liftResult (require (scope.isValid = true) "invalid projection scan scope")
  if hbound : ValidBound bound then
    let o := (← get).1.cursors tableId
    let step := setting.step tableId (request ⟨bound, hbound⟩ limit scope) o
    let progress ← ((step.positions o).map (setting.table tableId).hitAt).foldlM
      (deliverHit accept evaluate) progress
    modify fun s => ({ s.1 with cursors := Function.update s.1.cursors tableId step.cursor }, s.2)
    return (reportOf (setting.table tableId).tableId setting.metadata.numPoints step, progress)
  else throw (.undefined "scan bound")

theorem scan_invalid {accept : Accept R (Private R × σ)}
    {evaluate : Progress R → Nat → EStateM Error (Private R × σ) (Progress R)} {tableId : Nat}
    {bound : R} {limit : Nat} {scope : ScanScope} {progress : Progress R} {u : Private R × σ}
    (hscope : ¬ scope.isValid = true) :
    setting.scan accept evaluate tableId bound limit scope progress u =
      .error (.invalidArgument "invalid projection scan scope") u := by
  simp [scan, bind_apply, Qalsh.require, hscope]

/-- What a scan with a valid scope and bound does. -/
theorem scan_valid {accept : Accept R (Private R × σ)}
    {evaluate : Progress R → Nat → EStateM Error (Private R × σ) (Progress R)} {tableId : Nat}
    (bound : ScanBound R) {limit : Nat} {scope : ScanScope} {progress : Progress R}
    {u : Private R × σ} (hscope : scope.isValid = true) {step : OutwardStep (ScanBound R)}
    (hstep : setting.step tableId (request bound limit scope) (u.1.cursors tableId) = step) :
    setting.scan accept evaluate tableId bound.1 limit scope progress u =
      match ((step.positions (u.1.cursors tableId)).map (setting.table tableId).hitAt).foldlM
          (deliverHit accept evaluate) progress u with
      | .ok progress' u' =>
          .ok (reportOf (setting.table tableId).tableId setting.metadata.numPoints step, progress')
            ({ u'.1 with cursors := Function.update u'.1.cursors tableId step.cursor }, u'.2)
      | .error e u' => .error e u' := by
  subst hstep
  obtain ⟨bound, hbound⟩ := bound
  simp only [scan, bind_apply, require_of hscope, liftResult_ok, dif_pos hbound, get_apply]
  cases ((((setting.step tableId (request ⟨bound, hbound⟩ limit scope)
      (u.1.cursors tableId)).positions (u.1.cursors tableId)).map
        (setting.table tableId).hitAt).foldlM (deliverHit accept evaluate) progress u) <;> rfl

def services (accept : Accept R σ) : Services R (Private R × σ) where
  scan := setting.scan fun hit state => outside (accept hit state)
  seen pointId := do return (← get).1.seen pointId
  mark pointId :=
    modify fun s => ({ s.1 with seen := Function.update s.1.seen pointId true }, s.2)

/-- The context of the loop; `accept` is what the driver of the strategy does with a hit. -/
def context (strategy : SearchStrategy R σ) (accessor : Nat → EStateM Error σ PointView)
    (accept : Accept R σ) : SearchContext R (Private R × σ) where
  toSearchParameters := setting.toSearchParameters
  strategy := strategy.beside (Private R)
  accessor pointId := outside (accessor pointId)
  services := setting.services accept

/-- Cursors at the query and nothing seen. -/
def fresh : Private R where
  cursors tableId := Outward.start (setting.table tableId).split
  seen _ := false

/-- The search, once the bound of the first round is known. -/
def searchFrom [Platform] (strategy : SearchStrategy R σ) (accessor : Nat → EStateM Error σ PointView)
    (accept : Accept R σ) (bound : R) : EStateM Error σ SearchResult := do
  let radius : R := RadiusArithmetic.ofFloat setting.metadata.qalsh.initialRadius
  strategy.start (queryStart setting.metadata setting.tableCount setting.k radius)
  let limit ← liftResult
    (stepLimit setting.metadata setting.tableCount setting.options.maxSteps)
  let (runtime, reason) ← enclosed setting.fresh
    ((setting.context strategy accessor accept).searchLoop limit
      (SearchRuntime.initial radius bound setting.tableCount))
  return setting.result runtime reason

end Setting

end Qalsh
