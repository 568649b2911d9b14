/-
  AccountRule.lean --- the invariant rule of a search.

  A search goes through phases: it asks the strategy, acts, delivers hits, submits
  candidates.  Whoever wants to know something about every run of some callbacks
  says what holds in each phase, as a relation between the account of the search and
  the state of the callbacks, and shows that each callback keeps it.  The rule hands
  each callback an account that is sound, and does the induction once.
-/
import Qalsh.Account
import Qalsh.LoopRelation

set_option autoImplicit false

namespace Qalsh

open Foundation

variable {R : Type} [RadiusArithmetic R] {σ : Type}

/-! ## Sound accounts -/

namespace Setting

/-- What holds of the account of a search at any moment. -/
structure Sound (setting : Setting) (account : Account R) : Prop where
  radius_finite : RadiusArithmetic.isFinite account.radius = true
  bound_eq : windowBound setting.metadata.qalsh.bucketWidth account.radius = .ok account.bound
  exhausted_length : account.exhausted.length = setting.tableCount
  completed_length : account.completed.length = setting.tableCount
  delivered_mem : ∀ tableId position, (tableId, position) ∈ account.delivered →
    tableId < setting.tableCount ∧ position < setting.metadata.numPoints ∧
      (setting.table tableId).insideAt account.bound position = true
  delivered_nodup : account.delivered.Nodup
  exhausted : ∀ tableId, account.exhausted.getD tableId false = true →
    ∀ position < setting.metadata.numPoints, (tableId, position) ∈ account.delivered
  completed : ∀ tableId, account.completed.getD tableId false = true →
    ∀ position < setting.metadata.numPoints,
      (setting.table tableId).insideAt account.bound position = true →
      (tableId, position) ∈ account.delivered
  exhausted_completed : ∀ tableId, account.exhausted.getD tableId false = true →
    account.completed.getD tableId false = true
  evaluated_nodup : account.evaluatedIds.Nodup
  evaluated_lt : ∀ pointId ∈ account.evaluatedIds, pointId < setting.metadata.numPoints

/-- Between scans a table that has been delivered as a whole has been reported exhausted. -/
def Settled (setting : Setting) (account : Account R) : Prop :=
  ∀ tableId < setting.tableCount,
    (∀ position < setting.metadata.numPoints, (tableId, position) ∈ account.delivered) →
    account.exhausted.getD tableId false = true

end Setting

/-- A scan that has begun. -/
structure OngoingScan where
  tableId : Nat
  scope : ScanScope
  /-- hits delivered before it -/
  start : Nat

namespace Setting

/-- Positions of a table on one side of the query that lie in the window and have not been
delivered before a scan. -/
def waiting (setting : Setting) (account : Account R) (scan : OngoingScan) (below : Bool) : Nat :=
  (List.range setting.metadata.numPoints).countP fun position =>
    decide (position < (setting.table scan.tableId).split) == below &&
      (setting.table scan.tableId).insideAt account.bound position &&
      decide ((scan.tableId, position) ∉ account.delivered.take scan.start)

/-- The logical boundary of a quantum scan: each side has its share of the quantum. -/
def quantumShare (setting : Setting) (account : Account R) (scan : OngoingScan) : Nat :=
  let left := min (leftLimit false setting.scanQuantum) (setting.waiting account scan true)
  left + min (rightLimit false setting.scanQuantum left) (setting.waiting account scan false)

/-- What the boundary of a scan says about it. -/
structure Closes (setting : Setting) (scan : OngoingScan) (account : Account R)
    (report : ScanReport) : Prop where
  tableId_eq : report.tableId = scan.tableId
  table_lt : scan.tableId < setting.tableCount
  visited : scan.start + report.entriesVisited = account.delivered.length
  share : scan.scope = .quantum → report.entriesVisited = setting.quantumShare account scan
  progress : report.entriesVisited = 0 → report.windowExhausted = true
  roundComplete : report.roundComplete = (account.close scan.tableId report).roundComplete
  allExhausted : report.allTablesExhausted = (account.close scan.tableId report).allExhausted

end Setting

/-- An error the engine may find by itself. -/
structure EngineError (e : Error) : Prop where
  ordered : e ≠ .invalidArgument "scan bound cannot decrease for an existing cursor"
  defined : ∀ what, e ≠ .undefined what

/-! ## Phases -/

inductive Phase where
  /-- the loop is about to ask the strategy -/
  | ready
  /-- the strategy has chosen an action -/
  | acting (action : StrategyAction)
  /-- a table is being scanned -/
  | scanning (scan : OngoingScan)
  /-- a candidate has been submitted, by a hit of a scan or by the strategy -/
  | submitted (scan : Option OngoingScan) (pointId : Nat)
  /-- the accessor has returned the point of a new candidate -/
  | accessed (scan : Option OngoingScan) (pointId : Nat) (point : PointView)

/-- The phase after an evaluation. -/
def Phase.after : Option OngoingScan → Phase
  | none => .ready
  | some scan => .scanning scan

/-- What each callback keeps of `J`; `E` holds when the search throws. -/
structure Setting.Keeps [Platform] (setting : Setting) (strategy : SearchStrategy R σ)
    (accessor : Nat → EStateM Error σ PointView) (accept : Accept R σ)
    (J : Phase → Account R → σ → Prop) (E : Error → σ → Prop) : Prop where
  failed : ∀ phase account e s, EngineError e → J phase account s → E e s
  next : ∀ account, setting.Sound account → setting.Settled account →
    Triple (J .ready account) (strategy.next (account.snapshot setting.k))
      (fun action => J (.acting action) account.stepped) E
  scan : ∀ tableId scope account s, setting.Sound account → setting.Settled account →
    tableId < setting.tableCount →
    J (.acting (.scan tableId scope)) account s →
    J (.scanning ⟨tableId, scope, account.delivered.length⟩) account s
  hit : ∀ scan position account, setting.Sound (account.deliver scan.tableId position) →
    Triple (J (.scanning scan) account)
      (accept ((setting.table scan.tableId).hitAt position)
        ((account.deliver scan.tableId position).snapshot setting.k))
      (fun decision s => if decision.hasCandidate = true then
          J (.submitted (some scan) decision.candidate) (account.deliver scan.tableId position) s
        else J (.scanning scan) (account.deliver scan.tableId position) s) E
  boundary : ∀ scan account report, setting.Sound account →
    setting.Sound (account.close scan.tableId report) →
    setting.Settled (account.close scan.tableId report) → setting.Closes scan account report →
    Triple (J (.scanning scan) account)
      (strategy.onScanBoundary { report := report, radius := account.radius }
        ((account.close scan.tableId report).snapshot setting.k))
      (fun _ => J .ready (account.close scan.tableId report)) E
  evaluate : ∀ pointId account s, J (.acting (.evaluate pointId)) account s →
    J (.submitted none pointId) account s
  duplicate : ∀ scan pointId account, setting.Sound account → pointId ∈ account.evaluatedIds →
    Triple (J (.submitted scan pointId) account)
      (strategy.onEvaluation
        { pointId := pointId
          status := .duplicate
          exactDistance := false
          distance := Binary32.zero } (account.snapshot setting.k))
      (fun _ => J (.after scan) account) E
  access : ∀ scan pointId account, setting.Sound account →
    pointId < setting.metadata.numPoints → pointId ∉ account.evaluatedIds →
    Triple (J (.submitted scan pointId) account) (accessor pointId)
      (fun point => J (.accessed scan pointId point) account) E
  evaluation : ∀ scan pointId point account distance,
    setting.Sound (account.record pointId distance) → pointId ∉ account.evaluatedIds →
    validatePoint point setting.metadata.numDimensions pointId = .ok () →
    boundedDistanceValueUnchecked point setting.query setting.metadata.metric
      (if setting.options.boundedDistance = true ∧
          (account.neighbors setting.k).length = setting.k then
        match (account.neighbors setting.k).getLast? with
        | some last => last.distance
        | none => Binary32.infinity
      else Binary32.infinity) = .ok distance →
    Triple (J (.accessed scan pointId point) account)
      (strategy.onEvaluation
        { pointId := pointId
          status := .evaluated
          exactDistance := distance.exact
          distance := distance.distance } ((account.record pointId distance).snapshot setting.k))
      (fun _ => J (.after scan) (account.record pointId distance)) E
  advance : ∀ account radius bound, setting.Sound account → setting.Settled account →
    setting.nextRound account.radius = .ok (radius, bound) →
    setting.Sound (account.openRound radius bound) →
    setting.Settled (account.openRound radius bound) →
    Triple (J (.acting .advanceRadius) account)
      (strategy.onRadiusAdvanced ((account.openRound radius bound).snapshot setting.k))
      (fun _ => J .ready (account.openRound radius bound)) E

/-- How a loop that began with `before` steps ends. -/
def Setting.Ended (J : Phase → Account R → σ → Prop) (limit : Nat) (account : Account R) (s : σ) :
    Option TerminationReason → Prop
  | none => account.steps = limit ∧ J .ready account s
  | some .strategy => account.allExhausted = false ∧ J (.acting .finish) account s
  | some .scanExhausted => account.allExhausted = true ∧ J (.acting .finish) account s
  | some .invalidStrategyAction => ∃ code, J (.acting (.invalid code)) account s
  | some .stepLimit => False

/-! ## Errors the engine finds -/

theorem EngineError.invalidArgument {message : String}
    (h : message ≠ "scan bound cannot decrease for an existing cursor") :
    EngineError (.invalidArgument message) :=
  ⟨fun heq => h (Error.invalidArgument.inj heq), nofun⟩

theorem EngineError.of_require {condition : Prop} [Decidable condition] {message : String} {e : Error}
    (hmessage : message ≠ "scan bound cannot decrease for an existing cursor")
    (h : require condition message = .error e) : EngineError e := by
  unfold require at h
  split at h
  · cases h
  · cases h
    exact .invalidArgument hmessage

theorem EngineError.of_windowBound {width : Binary32} {radius : R} {e : Error}
    (h : windowBound width radius = .error e) : EngineError e := by
  unfold windowBound at h
  split at h
  · cases h
  · cases h
    exact .invalidArgument (by decide)

theorem EngineError.of_bind {α β : Type} {x : Except Error α} {f : α → Except Error β} {e : Error}
    (h : (x >>= f) = .error e) (hx : x = .error e → EngineError e)
    (hf : ∀ a, f a = .error e → EngineError e) : EngineError e := by
  cases hr : x with
  | error e' =>
      rw [hr] at h
      cases h
      exact hx hr
  | ok a =>
      rw [hr] at h
      exact hf a h

theorem EngineError.of_nextRound {parameters : SearchParameters} {radius : R} {e : Error}
    (h : parameters.nextRound radius = .error e) : EngineError e := by
  unfold SearchParameters.nextRound at h
  refine .of_bind h (.of_require (by decide)) fun _ h => ?_
  exact .of_bind h .of_windowBound fun _ h => nomatch h

theorem EngineError.of_validatePoint {point : PointView} {dimensions pointId : Nat} {e : Error}
    (h : validatePoint point dimensions pointId = .error e) : EngineError e := by
  unfold validatePoint at h
  refine .of_bind h (.of_require fun heq => ?_) fun _ h => .of_require (by decide) h
  have hfirst := congrArg (fun message => message.toList.head?) heq
  simp only [String.toList_append] at hfirst
  rw [List.head?_append_of_ne_nil _ (by decide)] at hfirst
  exact absurd hfirst (by decide)

theorem EngineError.of_checkedMultiply {lhs rhs : Nat} {description : String} {e : Error}
    (hdescription : description ≠ "scan bound cannot decrease for an existing cursor")
    (h : checkedMultiplyOrThrow lhs rhs description = .error e) : EngineError e := by
  unfold checkedMultiplyOrThrow at h
  split at h
  · cases h
  · cases h
    exact .invalidArgument hdescription

theorem EngineError.of_stepLimit {metadata : IndexMetadata} {tableCount maxSteps : Nat} {e : Error}
    (h : stepLimit metadata tableCount maxSteps = .error e) : EngineError e := by
  unfold stepLimit at h
  refine .of_bind h (.of_checkedMultiply (by decide)) fun product h => ?_
  refine .of_bind h (.of_checkedMultiply (by decide)) fun estimated h => ?_
  refine .of_bind h (fun h => ?_) fun limit h => ?_
  · split at h
    · exact .of_bind h (.of_require (by decide)) fun _ h => nomatch h
    · cases h
  · exact .of_bind h (.of_require (by decide)) fun _ h => nomatch h

theorem EngineError.of_distance [Platform] {lhs rhs : PointView} {metric : Metric}
    {upperBound : Binary32} {e : Error}
    (h : boundedDistanceValueUnchecked lhs rhs metric upperBound = .error e) : EngineError e := by
  have hkernel : ∀ norm, distanceKernel norm lhs rhs upperBound = .error e → EngineError e := by
    intro norm h
    unfold distanceKernel roundDistance at h
    dsimp only at h
    split at h
    · cases h
    · split at h
      · split at h
        · cases h
        · cases h
          exact ⟨nofun, nofun⟩
      · split at h <;> cases h
  unfold boundedDistanceValueUnchecked at h
  split at h
  · exact hkernel _ h
  · exact hkernel _ h

end Qalsh
