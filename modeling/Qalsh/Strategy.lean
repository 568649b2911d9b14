/-
  Strategy.lean --- the search strategy contract, the table schedule and the
  default strategy.

  A strategy is an object with mutable state, so its callbacks are computations
  over a state that may throw.  The default strategy keeps its own state in a
  record and takes its candidate and termination rules as computations too: a rule
  may carry state of its own.
-/
import Qalsh.Config
import Qalsh.Cursor

set_option autoImplicit false

namespace Qalsh

open Foundation

/-! ## What the engine and a strategy exchange -/

structure Neighbor where
  distance : Binary32
  pointId : Nat
  deriving DecidableEq, Repr, Inhabited

inductive TerminationReason where
  | strategy
  | scanExhausted
  | invalidStrategyAction
  | stepLimit
  deriving DecidableEq, Repr

structure SearchResult where
  neighbors : List Neighbor
  reason : TerminationReason
  evaluatedCandidates : Nat
  projectionHits : Nat
  complete : Bool
  deriving DecidableEq, Repr

structure QueryStart (R : Type) where
  numPoints : Nat
  numDimensions : Nat
  numHashTables : Nat
  k : Nat
  metric : Metric
  radius : R
  radiusGrowth : Binary32
  bucketWidth : Binary32
  collisionThreshold : Nat
  candidateBudget : Nat
  approximationRatio : Binary32
  deriving DecidableEq, Repr

/-- `QueryStart{}` -/
def QueryStart.blank (R : Type) [RadiusArithmetic R] : QueryStart R where
  numPoints := 0
  numDimensions := 0
  numHashTables := 0
  k := 0
  metric := .l2
  radius := RadiusArithmetic.ofFloat one
  radiusGrowth := Binary32.ofMagnitude false 0x40000000
  bucketWidth := Binary32.zero
  collisionThreshold := 0
  candidateBudget := 100
  approximationRatio := Binary32.ofMagnitude false 0x40000000

structure QuerySnapshot (R : Type) where
  radius : R
  bound : R
  k : Nat
  evaluatedCandidates : Nat
  projectionHits : Nat
  currentRoundComplete : Bool
  allTablesExhausted : Bool
  neighbors : List Neighbor
  deriving DecidableEq, Repr

inductive EvaluationStatus where
  | evaluated
  | duplicate
  deriving DecidableEq, Repr

structure EvaluationEvent where
  pointId : Nat
  status : EvaluationStatus
  exactDistance : Bool
  distance : Binary32
  deriving DecidableEq, Repr

/-- `QuerySnapshot{}` -/
def QuerySnapshot.blank (R : Type) [RadiusArithmetic R] : QuerySnapshot R where
  radius := RadiusArithmetic.ofFloat one
  bound := RadiusArithmetic.ofFloat Binary32.zero
  k := 0
  evaluatedCandidates := 0
  projectionHits := 0
  currentRoundComplete := false
  allTablesExhausted := false
  neighbors := []

structure ScanBoundaryEvent (R : Type) where
  report : ScanReport
  radius : R
  deriving DecidableEq, Repr

/-- An action with the fields its kind uses. -/
inductive StrategyAction where
  | scan (tableId : Nat) (scanScope : ScanScope)
  | evaluate (pointId : Nat)
  | advanceRadius
  | finish
  /-- a kind outside the enumeration -/
  | invalid (code : Nat)
  deriving DecidableEq, Repr

/-- `HitDecision::kNoCandidate` -/
def noCandidate : Nat := 2 ^ 32 - 1

structure HitDecision where
  candidate : Nat
  deriving DecidableEq, Repr

/-- `HitDecision{}` -/
def HitDecision.ignore : HitDecision := { candidate := noCandidate }

def HitDecision.hasCandidate (decision : HitDecision) : Bool :=
  decide (decision.candidate ≠ noCandidate)

/-- The callbacks of a strategy whose state is a part of `σ`. -/
structure SearchStrategy (R σ : Type) where
  start : QueryStart R → EStateM Error σ Unit
  next : QuerySnapshot R → EStateM Error σ StrategyAction
  onProjectionHit : ProjectionHit → QuerySnapshot R → EStateM Error σ HitDecision
  onEvaluation : EvaluationEvent → QuerySnapshot R → EStateM Error σ Unit
  onScanBoundary : ScanBoundaryEvent R → QuerySnapshot R → EStateM Error σ Unit
  onRadiusAdvanced : QuerySnapshot R → EStateM Error σ Unit

/-! ## `TableScanSchedule` -/

structure TableScanSchedule where
  tableCount : Nat
  exhaustedTables : Nat
  completedTables : Nat
  tableExhausted : List Bool
  tableCompleted : List Bool
  pendingTables : List Nat
  deriving DecidableEq, Repr

namespace TableScanSchedule

/-- `TableScanSchedule{}` -/
def blank : TableScanSchedule where
  tableCount := 0
  exhaustedTables := 0
  completedTables := 0
  tableExhausted := []
  tableCompleted := []
  pendingTables := []

def start (tableCount : Nat) : TableScanSchedule where
  tableCount := tableCount
  exhaustedTables := 0
  completedTables := 0
  tableExhausted := List.replicate tableCount false
  tableCompleted := List.replicate tableCount false
  pendingTables := List.range tableCount

/-- `next_table`; the front of the queue is removed. -/
def nextTable (schedule : TableScanSchedule) : Option Nat × TableScanSchedule :=
  match schedule.pendingTables with
  | [] => (none, schedule)
  | table :: rest => (some table, { schedule with pendingTables := rest })

/-- The first part of `on_scan_boundary`: a table reported exhausted is counted once. -/
def countExhausted (schedule : TableScanSchedule) (table : Nat) (exhausted : Bool) :
    TableScanSchedule :=
  if exhausted = true ∧ schedule.tableExhausted.getD table false = false then
    { schedule with
      tableExhausted := schedule.tableExhausted.set table true
      exhaustedTables := schedule.exhaustedTables + 1 }
  else schedule

/-- A window is counted once. -/
def countCompleted (schedule : TableScanSchedule) (table : Nat) : TableScanSchedule :=
  if schedule.tableCompleted.getD table false = false then
    { schedule with
      tableCompleted := schedule.tableCompleted.set table true
      completedTables := schedule.completedTables + 1 }
  else schedule

def onScanBoundary {R : Type} (schedule : TableScanSchedule) (event : ScanBoundaryEvent R) :
    Except Error TableScanSchedule := do
  require (event.report.tableId < schedule.tableCount)
    "scan boundary references an invalid projection table"
  let table := event.report.tableId
  let schedule := schedule.countExhausted table event.report.tableExhausted
  if event.report.windowExhausted || event.report.tableExhausted then
    return schedule.countCompleted table
  if schedule.tableExhausted.getD table false = false then
    return { schedule with pendingTables := schedule.pendingTables ++ [table] }
  else return schedule

/-- The loop over the tables completes the exhausted ones and queues the others. -/
def onRadiusAdvanced (schedule : TableScanSchedule) : TableScanSchedule where
  tableCount := schedule.tableCount
  exhaustedTables := schedule.exhaustedTables
  completedTables := schedule.exhaustedTables
  tableExhausted := schedule.tableExhausted
  tableCompleted := (List.range schedule.tableCount).map fun table =>
    schedule.tableExhausted.getD table false
  pendingTables := (List.range schedule.tableCount).filter fun table =>
    !schedule.tableExhausted.getD table false

def roundComplete (schedule : TableScanSchedule) : Bool :=
  decide (schedule.completedTables = schedule.tableCount)

def allTablesExhausted (schedule : TableScanSchedule) : Bool :=
  decide (schedule.exhaustedTables = schedule.tableCount)

end TableScanSchedule

/-! ## `DefaultQalshStrategy` -/

structure CollisionObservation where
  hit : ProjectionHit
  collisionCount : Nat
  deriving DecidableEq, Repr

abbrev CandidateRule (σ : Type) : Type := CollisionObservation → EStateM Error σ Bool

abbrev TerminationRule (R σ : Type) : Type := QuerySnapshot R → EStateM Error σ Bool

/-- What the setters configure before a search. -/
structure DefaultOptions (R σ : Type) where
  collisionThreshold : Nat
  candidateRule : Option (CandidateRule σ)
  terminationRule : Option (TerminationRule R σ)
  /-- present once `set_candidate_budget` has been called -/
  candidateBudgetOverride : Option (Option Nat)
  checkAfterEvaluation : Bool
  checkAtRoundBoundary : Bool

/-- `DefaultQalshStrategy(collision_threshold)` -/
def DefaultOptions.make {R σ : Type} (collisionThreshold : Nat) : DefaultOptions R σ where
  collisionThreshold := collisionThreshold
  candidateRule := none
  terminationRule := none
  candidateBudgetOverride := none
  checkAfterEvaluation := true
  checkAtRoundBoundary := true

def DefaultOptions.setCandidateBudget {R σ : Type} (options : DefaultOptions R σ)
    (budget : Option Nat) : Except Error (DefaultOptions R σ) := do
  match budget with
  | some budget => require (budget > 0) "candidate budget must be positive"
  | none => pure ()
  return { options with candidateBudgetOverride := some budget }

/-- The members a search changes. -/
structure DefaultState (R : Type) where
  activeCollisionThreshold : Nat
  activeCandidateBudget : Option Nat
  query : QueryStart R
  /-- standard mode: remaining hits; custom mode: observed hits or the sentinel -/
  collisionState : List Nat
  tableSchedule : TableScanSchedule
  radiusAdvanced : Bool
  finishRequested : Bool
  deriving DecidableEq, Repr

/-- The members of a new object. -/
def DefaultState.blank (R : Type) [RadiusArithmetic R] : DefaultState R where
  activeCollisionThreshold := 0
  activeCandidateBudget := none
  query := QueryStart.blank R
  collisionState := []
  tableSchedule := TableScanSchedule.blank
  radiusAdvanced := false
  finishRequested := false

variable {R ω : Type} [RadiusArithmetic R]

/-- The object of the default strategy beside the rest of the state; its rules and the
accessor run on the rest. -/
abbrev WithDefault (R ω : Type) : Type := DefaultState R × ω

/-- Change the members of the object. -/
def modifyDefault (f : DefaultState R → DefaultState R) :
    EStateM Error (WithDefault R ω) Unit :=
  modify fun s => (f s.1, s.2)

namespace DefaultOptions

variable (options : DefaultOptions R ω)

/-- The standard test: the budget, then the distance of the last neighbor. -/
def standardTermination (self : DefaultState R) (state : QuerySnapshot R) : Bool :=
  (match self.activeCandidateBudget with
    | some budget => decide (state.evaluatedCandidates ≥ budget)
    | none => false) ||
  (decide (state.neighbors.length ≥ state.k) &&
    (match state.neighbors.getLast? with
      | some last =>
          RadiusArithmetic.withinRatio last.distance self.query.approximationRatio state.radius
      | none => false))

def shouldTerminate (state : QuerySnapshot R) : EStateM Error (WithDefault R ω) Bool := do
  match options.terminationRule with
  | some rule => outside (rule state)
  | none => return standardTermination (← get).1 state

/-- The largest `std::uint32_t`, which marks an accepted point in custom mode. -/
def acceptedMark : Nat := 2 ^ 32 - 1

/-- `accept_hit<true>` once the rule is known. -/
def acceptCustom (rule : CandidateRule ω) (hit : ProjectionHit) :
    EStateM Error (WithDefault R ω) HitDecision := do
  let self := (← get).1
  if self.finishRequested then return .ignore
  if hit.pointId ≥ self.collisionState.length then
    throw (.invalidArgument "projection hit point id is out of range")
  let count := self.collisionState.getD hit.pointId 0
  if count = acceptedMark then return .ignore
  if count = acceptedMark - 1 then
    throw (.invalidArgument "projection collision count overflow")
  modifyDefault fun self =>
    { self with collisionState := self.collisionState.set hit.pointId (count + 1) }
  let accepted ← outside (rule { hit := hit, collisionCount := count + 1 })
  if !accepted then return .ignore
  modifyDefault fun self =>
    { self with collisionState := self.collisionState.set hit.pointId acceptedMark }
  return { candidate := hit.pointId }

/-- The count-down of one point. -/
def countDown (pointId : Nat) : EStateM Error (WithDefault R ω) HitDecision := do
  let self := (← get).1
  let count := self.collisionState.getD pointId 0
  if count = 0 then return .ignore
  modifyDefault fun self =>
    { self with collisionState := self.collisionState.set pointId (count - 1) }
  if count - 1 ≠ 0 then return .ignore
  return { candidate := pointId }

/-- `accept_hit<false>` -/
def acceptStandard (hit : ProjectionHit) : EStateM Error (WithDefault R ω) HitDecision := do
  let self := (← get).1
  if self.finishRequested then return .ignore
  if hit.pointId ≥ self.collisionState.length then
    throw (.invalidArgument "projection hit point id is out of range")
  countDown hit.pointId

/-- `accept_builtin_id`; the subscript is not checked. -/
def acceptBuiltinId (pointId : Nat) : EStateM Error (WithDefault R ω) HitDecision := do
  let self := (← get).1
  if pointId ≥ self.collisionState.length then throw (.undefined "collision_state_[point_id]")
  countDown pointId

def onProjectionHit (hit : ProjectionHit) (_ : QuerySnapshot R) :
    EStateM Error (WithDefault R ω) HitDecision :=
  match options.candidateRule with
  | some rule => acceptCustom rule hit
  | none => acceptStandard hit

/-- `active_candidate_budget_` when no override and no rule is set. -/
def standardBudget (query : QueryStart R) : Nat :=
  let additional := query.k - 1
  let uncapped := if query.candidateBudget > uint64Max - additional then uint64Max
    else query.candidateBudget + additional
  min query.numPoints uncapped

/-- The budget `start` makes active. -/
def activeBudget (query : QueryStart R) : Option Nat :=
  if options.terminationRule.isSome then none
  else options.candidateBudgetOverride.getD (some (standardBudget query))

/-- `active_collision_threshold_` -/
def activeThreshold (query : QueryStart R) : Nat :=
  if options.collisionThreshold = 0 then query.collisionThreshold else options.collisionThreshold

/-- The members after `start`. -/
def started (query : QueryStart R) : DefaultState R where
  activeCollisionThreshold := options.activeThreshold query
  activeCandidateBudget := options.activeBudget query
  query := query
  collisionState := List.replicate query.numPoints
    (if options.candidateRule.isSome then 0 else options.activeThreshold query)
  tableSchedule := TableScanSchedule.start query.numHashTables
  radiusAdvanced := false
  finishRequested := false

def start (query : QueryStart R) : EStateM Error (WithDefault R ω) Unit := do
  modifyDefault fun self =>
    { self with
      query := query
      activeCollisionThreshold := options.activeThreshold query }
  if options.candidateRule.isNone then
    liftResult (require (options.activeThreshold query > 0 ∧
        options.activeThreshold query ≤ query.numHashTables)
      "default QALSH strategy has an invalid collision threshold")
  modifyDefault fun _ => options.started query

/-- `finish_requested_ = true; return StrategyAction::Finish()` -/
def requestFinish : EStateM Error (WithDefault R ω) StrategyAction := do
  modifyDefault fun self => { self with finishRequested := true }
  return .finish

/-- `check_at_round_boundary_ && should_terminate(state)` -/
def boundaryCheck (state : QuerySnapshot R) : EStateM Error (WithDefault R ω) Bool :=
  if options.checkAtRoundBoundary then options.shouldTerminate state else pure false

/-- The part of `next` that follows the check after a radius change. -/
def nextTableOrRound (state : QuerySnapshot R) :
    EStateM Error (WithDefault R ω) StrategyAction := do
  let (table, schedule) := (← get).1.tableSchedule.nextTable
  modifyDefault fun self => { self with tableSchedule := schedule }
  match table with
  | some table => return .scan table .quantum
  | none =>
      if schedule.allTablesExhausted || state.allTablesExhausted then requestFinish
      else if state.currentRoundComplete = false then return .advanceRadius
      else if ← options.boundaryCheck state then requestFinish
      else return .advanceRadius

def next (state : QuerySnapshot R) : EStateM Error (WithDefault R ω) StrategyAction := do
  let self := (← get).1
  if self.finishRequested then return .finish
  if self.radiusAdvanced then
    modifyDefault fun self => { self with radiusAdvanced := false }
    if ← options.boundaryCheck state then requestFinish
    else options.nextTableOrRound state
  else options.nextTableOrRound state

def onEvaluation (_ : EvaluationEvent) (state : QuerySnapshot R) :
    EStateM Error (WithDefault R ω) Unit := do
  if options.checkAfterEvaluation then
    if ← options.shouldTerminate state then
      modifyDefault fun self => { self with finishRequested := true }

def onScanBoundary (event : ScanBoundaryEvent R) (state : QuerySnapshot R) :
    EStateM Error (WithDefault R ω) Unit := do
  let schedule ← liftResult ((← get).1.tableSchedule.onScanBoundary event)
  modifyDefault fun self => { self with tableSchedule := schedule }
  if (← get).1.finishRequested = false ∧ options.checkAtRoundBoundary = true ∧
      event.report.roundComplete = true then
    if ← options.shouldTerminate state then
      modifyDefault fun self => { self with finishRequested := true }

def onRadiusAdvanced (_ : QuerySnapshot R) : EStateM Error (WithDefault R ω) Unit :=
  modifyDefault fun self =>
    { self with
      radiusAdvanced := true
      tableSchedule := self.tableSchedule.onRadiusAdvanced }

/-- The object as a `SearchStrategy`. -/
def strategy : SearchStrategy R (WithDefault R ω) where
  start := options.start
  next := options.next
  onProjectionHit := options.onProjectionHit
  onEvaluation := options.onEvaluation
  onScanBoundary := options.onScanBoundary
  onRadiusAdvanced := DefaultOptions.onRadiusAdvanced

end DefaultOptions

end Qalsh
