/-
  Engine.lean --- the search loop of the engine.

  The loop owns a runtime record and asks the strategy what to do next.  It scans
  projection tables, evaluates candidates, keeps the nearest neighbors and hands
  out snapshots from a cache with a dirty flag.  What the loop takes from the index
  and from the scratch of its thread (scans, and the marks of points already seen)
  are its `Services`.
-/
import Qalsh.Distance
import Qalsh.InMemory
import Qalsh.Strategy

set_option autoImplicit false

namespace Qalsh

open Foundation

variable {R : Type} [RadiusArithmetic R] {σ ω : Type}

/-! ## The runtime -/

structure SearchOptions where
  numHashTables : Option Nat
  /-- zero selects the quantum of the index -/
  scanQuantum : Nat
  /-- zero selects the default step limit -/
  maxSteps : Nat
  boundedDistance : Bool
  deriving DecidableEq, Repr

/-- `SearchOptions{}` -/
def SearchOptions.blank : SearchOptions where
  numHashTables := none
  scanQuantum := 0
  maxSteps := 0
  boundedDistance := true

/-- `SearchRuntime`, without the marks of the points seen. -/
structure SearchRuntime (R : Type) where
  radius : R
  bound : R
  evaluated : Nat
  hits : Nat
  roundComplete : Bool
  tableExhausted : List Bool
  exhaustedTables : Nat
  completedTables : Nat
  tableRoundComplete : List Bool
  neighbors : List Neighbor
  snapshotCache : QuerySnapshot R
  snapshotDirty : Bool

def SearchRuntime.initial (radius bound : R) (tableCount : Nat) : SearchRuntime R where
  radius := radius
  bound := bound
  evaluated := 0
  hits := 0
  roundComplete := false
  tableExhausted := List.replicate tableCount false
  exhaustedTables := 0
  completedTables := 0
  tableRoundComplete := List.replicate tableCount false
  neighbors := []
  snapshotCache := QuerySnapshot.blank R
  snapshotDirty := true

/-- `BetterNeighbor` -/
def betterNeighbor (lhs rhs : Neighbor) : Bool :=
  lhs.distance.lt rhs.distance ||
    (lhs.distance.eq rhs.distance && decide (lhs.pointId < rhs.pointId))

/-- `InsertNeighbor` on the list of neighbors. -/
def insertNeighbor (neighbors : List Neighbor) (candidate : Neighbor) (k : Nat) : List Neighbor :=
  let insertion := bisect (fun i => betterNeighbor (neighbors.getD i default) candidate) 0
    neighbors.length
  if neighbors.length = k ∧ insertion = neighbors.length then neighbors
  else
    let inserted := neighbors.insertIdx insertion candidate
    if inserted.length > k then inserted.dropLast else inserted

namespace SearchRuntime

/-- The snapshot `MakeSnapshot` builds when the cache is dirty. -/
def snapshot (runtime : SearchRuntime R) (k : Nat) : QuerySnapshot R where
  radius := runtime.radius
  bound := runtime.bound
  k := k
  evaluatedCandidates := runtime.evaluated
  projectionHits := runtime.hits
  currentRoundComplete := runtime.roundComplete
  allTablesExhausted := decide (runtime.exhaustedTables = runtime.tableExhausted.length)
  neighbors := runtime.neighbors

/-- `MakeSnapshot`; what it returns is `snapshotCache`. -/
def makeSnapshot (runtime : SearchRuntime R) (k : Nat) : SearchRuntime R :=
  if runtime.snapshotDirty then
    { runtime with snapshotCache := runtime.snapshot k, snapshotDirty := false }
  else runtime

def invalidateSnapshot (runtime : SearchRuntime R) : SearchRuntime R :=
  { runtime with snapshotDirty := true }

/-- The hit counter and its copy in the cache. -/
def setHits (runtime : SearchRuntime R) (hits : Nat) : SearchRuntime R :=
  { runtime with
    hits := hits
    snapshotCache := { runtime.snapshotCache with projectionHits := hits } }

/-- A table reported exhausted is counted once. -/
def countExhausted (runtime : SearchRuntime R) (tableId : Nat) (report : ScanReport) :
    SearchRuntime R :=
  if report.tableExhausted = true ∧ runtime.tableExhausted.getD tableId false = false then
    { runtime with
      tableExhausted := runtime.tableExhausted.set tableId true
      exhaustedTables := runtime.exhaustedTables + 1 }
  else runtime

/-- A window reported complete is counted once a round. -/
def countCompleted (runtime : SearchRuntime R) (tableId : Nat) (report : ScanReport) :
    SearchRuntime R :=
  if (report.windowExhausted || report.tableExhausted) = true ∧
      runtime.tableRoundComplete.getD tableId false = false then
    { runtime with
      tableRoundComplete := runtime.tableRoundComplete.set tableId true
      completedTables := runtime.completedTables + 1 }
  else runtime

/-- The ledgers after a scan. -/
def closeScan (runtime : SearchRuntime R) (tableCount tableId : Nat) (report : ScanReport) :
    SearchRuntime R :=
  let counted := (runtime.countExhausted tableId report).countCompleted tableId report
  { counted with
    roundComplete := decide (counted.completedTables = tableCount)
    snapshotDirty := true }

/-- The ledgers after a radius change; exhausted tables stay complete. -/
def openRound (runtime : SearchRuntime R) (tableCount : Nat) (radius bound : R) :
    SearchRuntime R :=
  { runtime with
    radius := radius
    bound := bound
    completedTables := runtime.exhaustedTables
    roundComplete := decide (runtime.exhaustedTables = tableCount)
    snapshotDirty := true
    tableRoundComplete := runtime.tableExhausted }

end SearchRuntime

/-! ## Candidates -/

/-- `RangeExecution` with the runtime its context points to. -/
structure Progress (R : Type) where
  runtime : SearchRuntime R
  state : QuerySnapshot R

def Progress.withHits (progress : Progress R) (hits : Nat) : Progress R :=
  { progress with state := { progress.state with projectionHits := hits } }

/-- What the loop takes from the index and the scratch of its thread. -/
structure Services (R σ : Type) where
  /-- scan the cursor of a table; candidates go to the first argument -/
  scan : (Progress R → Nat → EStateM Error σ (Progress R)) → (tableId : Nat) → (bound : R) →
    (limit : Nat) → ScanScope → Progress R → EStateM Error σ (ScanReport × Progress R)
  /-- `seen[point_id] == seen_epoch` -/
  seen : Nat → EStateM Error σ Bool
  /-- `seen[point_id] = seen_epoch` -/
  mark : Nat → EStateM Error σ Unit

/-- The values fixed during a search. -/
structure SearchParameters where
  options : SearchOptions
  metadata : IndexMetadata
  query : PointView
  k : Nat
  tableCount : Nat
  scanQuantum : Nat

/-- `SearchHitContext`, with the local function `scan`. -/
structure SearchContext (R σ : Type) extends SearchParameters where
  strategy : SearchStrategy R σ
  accessor : Nat → EStateM Error σ PointView
  services : Services R σ

namespace SearchParameters

variable (parameters : SearchParameters)

/-- The bound an evaluation may prune with. -/
def upperBound (runtime : SearchRuntime R) : Binary32 :=
  if parameters.options.boundedDistance = true ∧ runtime.neighbors.length = parameters.k then
    match runtime.neighbors.getLast? with
    | some last => last.distance
    | none => Binary32.infinity
  else Binary32.infinity

/-- The runtime after a distance has been computed. -/
def recordDistance (runtime : SearchRuntime R) (pointId : Nat) (distance : BoundedDistance) :
    SearchRuntime R :=
  let counted := { runtime with evaluated := runtime.evaluated + 1 }
  let inserted := if distance.exact then
      { counted with
        neighbors := insertNeighbor counted.neighbors
          { distance := distance.distance, pointId := pointId } parameters.k }
    else counted
  inserted.invalidateSnapshot.makeSnapshot parameters.k

/-- The radius and the bound of the next round. -/
def nextRound (radius : R) : Except Error (R × R) := do
  let nextRadius := RadiusArithmetic.grow radius parameters.metadata.qalsh.radiusGrowth
  require (RadiusArithmetic.isFinite nextRadius = true ∧
    RadiusArithmetic.lt radius nextRadius = true)
    "strategy requested an invalid radius progression"
  let bound ← windowBound parameters.metadata.qalsh.bucketWidth nextRadius
  return (nextRadius, bound)

/-- The result of a loop that has ended. -/
def result (runtime : SearchRuntime R) (reason : Option TerminationReason) : SearchResult where
  neighbors := runtime.neighbors
  reason := reason.getD .stepLimit
  evaluatedCandidates := runtime.evaluated
  projectionHits := runtime.hits
  complete := reason.isSome && decide (runtime.neighbors.length = parameters.k) &&
    (decide (reason = some .strategy) || decide (reason = some .scanExhausted))

end SearchParameters

namespace SearchContext

variable [Platform] (ctx : SearchContext R σ)

/-- `EvaluateCandidate` -/
def evaluateCandidate (runtime : SearchRuntime R) (pointId : Nat) :
    EStateM Error σ (SearchRuntime R) := do
  liftResult (require (pointId < ctx.metadata.numPoints) "strategy requested an invalid point id")
  if ← ctx.services.seen pointId then
    let runtime := runtime.makeSnapshot ctx.k
    ctx.strategy.onEvaluation
      { pointId := pointId
        status := .duplicate
        exactDistance := false
        distance := Binary32.zero }
      runtime.snapshotCache
    return runtime
  else
    ctx.services.mark pointId
    let point ← ctx.accessor pointId
    liftResult (validatePoint point ctx.metadata.numDimensions pointId)
    let distance ← liftResult
      (boundedDistanceValueUnchecked point ctx.query ctx.metadata.metric (ctx.upperBound runtime))
    let runtime := ctx.recordDistance runtime pointId distance
    ctx.strategy.onEvaluation
      { pointId := pointId
        status := .evaluated
        exactDistance := distance.exact
        distance := distance.distance }
      runtime.snapshotCache
    return runtime

/-- `RangeExecution::evaluate` -/
def evaluateHit (progress : Progress R) (pointId : Nat) : EStateM Error σ (Progress R) := do
  let runtime ← ctx.evaluateCandidate (progress.runtime.setHits progress.state.projectionHits)
    pointId
  let runtime := runtime.makeSnapshot ctx.k
  return { runtime := runtime, state := runtime.snapshotCache }

/-! ## The loop -/

/-- The action `scan`. -/
def scanTable (runtime : SearchRuntime R) (tableId : Nat) (scope : ScanScope) :
    EStateM Error σ (SearchRuntime R) := do
  liftResult (require (tableId < ctx.tableCount) "strategy requested an invalid projection table")
  let scanLimit := if scope = .range then uint64Max else ctx.scanQuantum
  let runtime := runtime.makeSnapshot ctx.k
  let (report, progress) ← ctx.services.scan ctx.evaluateHit tableId runtime.bound scanLimit scope
    { runtime := runtime, state := runtime.snapshotCache }
  let closed := { progress.runtime with hits := progress.state.projectionHits }.closeScan
    ctx.tableCount tableId report
  let withGlobal := { report with
    roundComplete := closed.roundComplete
    allTablesExhausted := decide (closed.exhaustedTables = ctx.tableCount) }
  let runtime := closed.makeSnapshot ctx.k
  ctx.strategy.onScanBoundary { report := withGlobal, radius := runtime.radius }
    runtime.snapshotCache
  return runtime

/-- The action `advance_radius`. -/
def advanceRadius (runtime : SearchRuntime R) : EStateM Error σ (SearchRuntime R) := do
  let (radius, bound) ← liftResult (ctx.nextRound runtime.radius)
  let runtime := (runtime.openRound ctx.tableCount radius bound).makeSnapshot ctx.k
  ctx.strategy.onRadiusAdvanced runtime.snapshotCache
  return runtime

/-- The loop; `none` stands for a loop that used all its steps. -/
def searchLoop : (steps : Nat) → SearchRuntime R →
    EStateM Error σ (SearchRuntime R × Option TerminationReason)
  | 0, runtime => pure (runtime, none)
  | steps + 1, runtime => do
      let runtime := runtime.makeSnapshot ctx.k
      let before := runtime.snapshotCache
      let action ← ctx.strategy.next before
      match action with
      | .scan tableId scope =>
          let runtime ← ctx.scanTable runtime tableId scope
          searchLoop steps runtime
      | .evaluate pointId =>
          let runtime ← ctx.evaluateCandidate runtime pointId
          searchLoop steps runtime
      | .advanceRadius =>
          let runtime ← ctx.advanceRadius runtime
          searchLoop steps runtime
      | .finish =>
          pure (runtime, some (if before.allTablesExhausted then .scanExhausted else .strategy))
      | .invalid _ => pure (runtime, some .invalidStrategyAction)

end SearchContext

/-! ## Delivering a range -/

/-- `RangeDriver`: it hands a range to a strategy and its candidates to `evaluate`. -/
abbrev RangeDriver (R σ : Type) : Type :=
  (Progress R → Nat → EStateM Error σ (Progress R)) → Progress R → HitRange →
    EStateM Error σ (Progress R)

/-- One hit for an arbitrary strategy, which sees a current snapshot. -/
def deliverHit (accept : ProjectionHit → QuerySnapshot R → EStateM Error σ HitDecision)
    (evaluate : Progress R → Nat → EStateM Error σ (Progress R)) (progress : Progress R)
    (hit : ProjectionHit) : EStateM Error σ (Progress R) := do
  let progress := progress.withHits (progress.state.projectionHits + 1)
  let decision ← accept hit progress.state
  if decision.hasCandidate then evaluate progress decision.candidate else return progress

/-- `DeliverRange<Strategy>` for any other strategy than the default one. -/
def deliverRange (strategy : SearchStrategy R σ) : RangeDriver R σ := fun evaluate progress range =>
  range.hits.foldlM (deliverHit strategy.onProjectionHit evaluate) progress

/-- One hit under a custom candidate rule; `state` is the counter before the range. -/
def deliverCustom (rule : CandidateRule ω)
    (evaluate : Progress R → Nat → EStateM Error (WithDefault R ω) (Progress R)) (state : Nat)
    (progress : Progress R) (hit : ProjectionHit × Nat) :
    EStateM Error (WithDefault R ω) (Progress R) := do
  let decision ← DefaultOptions.acceptCustom rule hit.1
  if decision.hasCandidate then
    evaluate (progress.withHits (state + hit.2 + 1)) decision.candidate
  else return progress

/-- One id in standard mode; the flag is what the loop last read of `finish_requested_`. -/
def deliverId (evaluate : Progress R → Nat → EStateM Error (WithDefault R ω) (Progress R))
    (state : Nat) (progress : Progress R × Bool) (id : Nat × Nat) :
    EStateM Error (WithDefault R ω) (Progress R × Bool) := do
  if !progress.2 then return progress
  let decision ← DefaultOptions.acceptBuiltinId id.1
  if decision.hasCandidate then
    let evaluated ← evaluate (progress.1.withHits (state + id.2 + 1)) decision.candidate
    return (evaluated, !(← get).1.finishRequested)
  else return progress

/-- `DeliverRange<DefaultQalshStrategy>` -/
def deliverRangeDefault (options : DefaultOptions R ω) : RangeDriver R (WithDefault R ω) :=
  fun evaluate progress range => do
    let state := progress.state.projectionHits
    match options.candidateRule with
    | some rule =>
        let progress ← range.hits.zipIdx.foldlM (deliverCustom rule evaluate state) progress
        return progress.withHits (state + range.count)
    | none =>
        let accepting := !(← get).1.finishRequested
        let (progress, _) ← (range.entries.map Entry.pointId).zipIdx.foldlM
          (deliverId evaluate state) (progress, accepting)
        return progress.withHits (state + range.count)

end Qalsh
