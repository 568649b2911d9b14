/-
  Scratch.lean --- searches and the scratch of their thread.

  A thread keeps a pool of scratch records.  A search leases one that is not in
  use, so a search nested in a callback gets another one, and gives it back when it
  returns or throws.  Cursors are kept from one search to the next as long as the
  index is the same object; the marks of points already seen are told apart by an
  epoch that wraps around.
-/
import Qalsh.Engine
import Qalsh.Index

set_option autoImplicit false

namespace Qalsh

open Foundation

variable {R : Type} [RadiusArithmetic R] {σ β : Type}

/-! ## Index objects -/

/-- A `ProjectionIndex`: a built-in index, or an external object that forwards every
call to one. -/
inductive IndexObject where
  | builtIn (index : BuiltInIndex)
  | forwarding (address : Nat) (inner : BuiltInIndex)

namespace IndexObject

/-- The built-in index that answers. -/
def index : IndexObject → BuiltInIndex
  | .builtIn index => index
  | .forwarding _ inner => inner

/-- What `shared_ptr::get` returns for the object. -/
def address : IndexObject → Nat
  | .builtIn index => index.address
  | .forwarding address _ => address

def metadata (object : IndexObject) : IndexMetadata := object.index.metadata

def projectionVectors (object : IndexObject) : List Binary32 := object.index.projectionVectors

def makeCursor (object : IndexObject) (tableId : Nat) (queryValue : Binary32) :
    Except Error (Cursor R) :=
  object.index.makeCursor tableId queryValue

def resetCursor (object : IndexObject) (tableId : Nat) (queryValue : Binary32) :
    EStateM Error (Cursor R) Unit :=
  object.index.resetCursor tableId queryValue

/-- The callback for an external index: its hits become ranges of one entry. -/
def externalVisit (numPoints : Nat) (visit : β → HitRange → EStateM Error σ β) (acc : β)
    (hit : ProjectionHit) : EStateM Error σ β := do
  liftResult (require (hit.pointId < numPoints) "projection hit point id is out of range")
  visit acc
    { entryAt := fun _ => { value := hit.projectedValue, pointId := hit.pointId }
      first := 0
      count := 1
      reverse := false
      tableId := hit.tableId
      queryValue := hit.queryValue }

/-- The local function `scan` of a search: the scanner of a built-in index, the public
call of another. -/
def scan [Platform] (object : IndexObject) (slot : Lens σ (Cursor R)) (bound : R) (limit : Nat)
    (scope : ScanScope) (visit : β → HitRange → EStateM Error σ β) (acc : β) :
    EStateM Error σ (ScanReport × β) :=
  match object with
  | .builtIn index => do
      let cursor := slot.get (← get)
      index.scanImpl slot bound limit scope cursor visit acc
  | .forwarding _ inner =>
      inner.scan slot bound limit (some (externalVisit inner.metadata.numPoints visit)) scope acc

end IndexObject

/-- The index objects a process has created; a number identifies an object for ever, its
address only while it lives. -/
structure Heap [Platform] where
  /-- by number; destroyed objects leave a gap -/
  objects : List (Option IndexObject)
  accepted : ∀ object, some object ∈ objects → object.index.backend.Accepted
  distinct : ∀ (i j : Nat) (a b : IndexObject), objects[i]? = some (some a) →
    objects[j]? = some (some b) → a.address = b.address → i = j

/-- `weak_ptr::lock` -/
def Heap.lock [Platform] (heap : Heap) (identity : Nat) : Option IndexObject :=
  heap.objects[identity]?.join

/-! ## The pool -/

structure QueryScratch (R : Type) where
  inUse : Bool
  indexIdentity : Option Nat
  cursors : List (Option (Cursor R))
  seenEpochs : List Nat
  queryProjections : List Binary32
  epoch : Nat

/-- `QueryScratch{}` -/
def QueryScratch.blank (R : Type) : QueryScratch R where
  inUse := false
  indexIdentity := none
  cursors := []
  seenEpochs := []
  queryProjections := []
  epoch := 0

/-- What a thread sees besides the state of its callers. -/
structure Thread (R : Type) [Platform] where
  heap : Heap
  pool : List (QueryScratch R)

/-- The first scratch that is not in use, or a new one at the end. -/
def freeSlot (pool : List (QueryScratch R)) : Nat := pool.findIdx fun scratch => !scratch.inUse

/-- The pool with its free slot leased. -/
def leasePool (pool : List (QueryScratch R)) : List (QueryScratch R) :=
  let pool := if freeSlot pool < pool.length then pool else pool ++ [QueryScratch.blank R]
  pool.modify (freeSlot pool) fun scratch => { scratch with inUse := true }

section Searching

variable [Platform]

/-- One scratch of a thread. -/
def scratchLens (slot : Nat) : Lens (Thread R) (QueryScratch R) where
  get thread := thread.pool.getD slot (QueryScratch.blank R)
  set scratch thread := { thread with pool := thread.pool.set slot scratch }

/-- One cursor of a scratch. -/
def cursorLens (tableId : Nat) : Lens (QueryScratch R) (Cursor R) where
  get scratch := (scratch.cursors.getD tableId none).getD (.memory (PositionCursor.blank none))
  set cursor scratch := { scratch with cursors := scratch.cursors.set tableId (some cursor) }

/-- A state whose callbacks run on some thread. -/
class HasThread (R : outParam Type) (σ : Type) where
  thread : Lens σ (Thread R)
  get_set : ∀ t s, thread.get (thread.set t s) = t
  set_get : ∀ s, thread.set (thread.get s) s = s
  set_set : ∀ t t' s, thread.set t (thread.set t' s) = thread.set t s

instance : HasThread R (Thread R) where
  thread := { get := id, set := fun t _ => t }
  get_set _ _ := rfl
  set_get _ := rfl
  set_set _ _ _ := rfl

instance {δ : Type} [HasThread R σ] : HasThread R (δ × σ) where
  thread :=
    { get := fun s => (HasThread.thread : Lens σ (Thread R)).get s.2
      set := fun t s => (s.1, HasThread.thread.set t s.2) }
  get_set _ _ := HasThread.get_set _ _
  set_get s := by
    show (s.1, _) = s
    rw [HasThread.set_get]
  set_set t t' s := by
    show (s.1, _) = (s.1, _)
    rw [HasThread.set_set]

variable [HasThread R σ]

/-- Read the thread. -/
def getThread : EStateM Error σ (Thread R) := do return HasThread.thread.get (← get)

/-- Change one scratch. -/
def modifyScratch (slot : Nat) (f : QueryScratch R → QueryScratch R) : EStateM Error σ Unit :=
  modify fun s =>
    let thread : Thread R := HasThread.thread.get s
    HasThread.thread.set ((scratchLens slot).set (f ((scratchLens slot).get thread)) thread) s

/-- Read one scratch. -/
def getScratch (slot : Nat) : EStateM Error σ (QueryScratch R) := do
  return (scratchLens slot).get (← getThread)

/-- The cursor of a table in a leased scratch. -/
def cursorSlot (slot tableId : Nat) : Lens σ (Cursor R) where
  get s := (cursorLens tableId).get ((scratchLens slot).get (HasThread.thread.get s))
  set cursor s :=
    let thread : Thread R := HasThread.thread.get s
    HasThread.thread.set
      ((scratchLens slot).set ((cursorLens tableId).set cursor ((scratchLens slot).get thread))
        thread) s

/-- Take the free slot. -/
def leaseScratch : EStateM Error σ Nat := do
  let thread : Thread R ← getThread
  modify (HasThread.thread.set { thread with pool := leasePool thread.pool })
  return freeSlot thread.pool

/-- `QueryScratchLease`: the slot is given back on both ways out. -/
def withLease {α : Type} (slot : Nat) (x : EStateM Error σ α) : EStateM Error σ α := fun s =>
  let release := fun s : σ =>
    let thread : Thread R := HasThread.thread.get s
    HasThread.thread.set { thread with pool := thread.pool.modify slot fun scratch =>
      { scratch with inUse := false } } s
  match x s with
  | .ok a s' => .ok a (release s')
  | .error e s' => .error e (release s')

/-! ## The setup of a search -/

/-- `vector::resize` -/
def resize {α : Type} (items : List α) (size : Nat) (fill : α) : List α :=
  items.take size ++ List.replicate (size - items.length) fill

/-- A leased scratch made ready for a search over `object`. -/
def QueryScratch.prepare (scratch : QueryScratch R) (heap : Heap) (identity : Nat)
    (object : IndexObject) (tableCount : Nat) : QueryScratch R :=
  let current := (scratch.indexIdentity.bind heap.lock).map IndexObject.address
  let scratch := if current ≠ some object.address then
      { scratch with cursors := [], indexIdentity := some identity }
    else scratch
  let scratch := { scratch with cursors := resize scratch.cursors tableCount none }
  let scratch := if scratch.seenEpochs.length < object.metadata.numPoints then
      { scratch with seenEpochs := resize scratch.seenEpochs object.metadata.numPoints 0 }
    else scratch
  let scratch := { scratch with epoch := (scratch.epoch + 1) % 2 ^ 32 }
  if scratch.epoch = 0 then
    { scratch with seenEpochs := scratch.seenEpochs.map fun _ => 0, epoch := 1 }
  else scratch

structure SearchEngine (σ : Type) where
  /-- the number of the index object the engine shares -/
  index : Nat
  accessor : Nat → EStateM Error σ PointView
  options : SearchOptions

/-- The table count and the scan quantum of a query. -/
structure QueryPlan where
  tableCount : Nat
  scanQuantum : Nat
  deriving DecidableEq, Repr

/-- The checks before a search leases a scratch. -/
def planQuery (object : IndexObject) (options : SearchOptions) (query : PointView) (k : Nat) :
    Except Error QueryPlan := do
  let metadata := object.metadata
  require (isValidMetric metadata.metric = true) "unsupported index metric"
  require (k > 0) "k must be positive"
  require (k ≤ metadata.numPoints) "k exceeds the number of indexed points"
  require (query.length = metadata.numDimensions) "query has the wrong dimensionality"
  query.forM fun value => requireFinite value "query coordinate"
  let tableCount := options.numHashTables.getD metadata.numHashTables
  require (tableCount > 0 ∧ tableCount ≤ metadata.numHashTables) "invalid query table count"
  let scanQuantum := if options.scanQuantum = 0 then metadata.qalsh.scanQuantum.val
    else options.scanQuantum
  require (scanQuantum > 0) "scan quantum must be positive"
  let projectionValues ← checkedMultiplyOrThrow tableCount metadata.numDimensions
    "query projection layout overflows"
  let projectionSize ← checkedSize projectionValues "query projection layout is too large"
  require (object.projectionVectors.length ≥ projectionSize)
    "projection index has insufficient projection vectors"
  return { tableCount := tableCount, scanQuantum := scanQuantum }

/-- One turn of the loop that places the cursors. -/
def placeCursor (object : IndexObject) (slot : Nat) (projections : List Binary32) (tableId : Nat) :
    EStateM Error σ Unit := do
  let queryProjection := projections.getD tableId Binary32.zero
  liftResult (requireFinite queryProjection "query projection")
  let scratch : QueryScratch R ← getScratch slot
  match scratch.cursors.getD tableId none with
  | none =>
      let cursor ← liftResult (object.makeCursor tableId queryProjection)
      modify ((cursorSlot slot tableId).set cursor)
  | some _ => (cursorSlot slot tableId).zoom (object.resetCursor (R := R) tableId queryProjection)

def queryStart (metadata : IndexMetadata) (tableCount k : Nat) (radius : R) : QueryStart R where
  numPoints := metadata.numPoints
  numDimensions := metadata.numDimensions
  numHashTables := tableCount
  k := k
  metric := metadata.metric
  radius := radius
  radiusGrowth := metadata.qalsh.radiusGrowth
  bucketWidth := metadata.qalsh.bucketWidth
  collisionThreshold := metadata.qalsh.collisionThreshold
  candidateBudget := metadata.qalsh.candidateBudget.val
  approximationRatio := metadata.qalsh.approximationRatio

/-- `step_limit` -/
def stepLimit (metadata : IndexMetadata) (tableCount maxSteps : Nat) : Except Error Nat := do
  let product ← checkedMultiplyOrThrow metadata.numPoints tableCount
    "default search step limit overflows"
  let estimatedSteps ← checkedMultiplyOrThrow product 32 "default search step limit overflows"
  let defaultStepLimit ← (if estimatedSteps > 10000 then
    checkedSize (min estimatedSteps uint64Max) "default search step limit is too large"
    else .ok 10000)
  let limit := if maxSteps = 0 then defaultStepLimit else maxSteps
  require (limit > 0) "max_steps must be positive"
  return limit

/-- The services a leased scratch and an index object provide. -/
def scratchServices (object : IndexObject) (slot seenEpoch : Nat) (driver : RangeDriver R σ) :
    Services R σ where
  scan evaluate tableId bound limit scope progress := do
    let scratch : QueryScratch R ← getScratch slot
    match scratch.cursors.getD tableId none with
    | none => throw (.undefined "*cursors[action.table_id]")
    | some _ => object.scan (cursorSlot slot tableId) bound limit scope (driver evaluate) progress
  seen pointId := do
    let scratch : QueryScratch R ← getScratch slot
    return decide (scratch.seenEpochs.getD pointId 0 = seenEpoch)
  mark pointId := modifyScratch slot fun scratch =>
    { scratch with seenEpochs := scratch.seenEpochs.set pointId seenEpoch }

namespace SearchEngine

/-- `search_impl_typed` once a scratch is leased. -/
def searchLeased (engine : SearchEngine σ) (object : IndexObject) (plan : QueryPlan)
    (query : PointView) (k : Nat) (strategy : SearchStrategy R σ) (driver : RangeDriver R σ)
    (slot : Nat) : EStateM Error σ SearchResult := do
  let thread : Thread R ← getThread
  let metadata := object.metadata
  modifyScratch slot fun scratch =>
    scratch.prepare thread.heap engine.index object plan.tableCount
  let seenEpoch := (← getScratch slot).epoch
  let radius : R := RadiusArithmetic.ofFloat metadata.qalsh.initialRadius
  let bound ← liftResult (windowBound metadata.qalsh.bucketWidth radius)
  let projections := projectPoint query object.projectionVectors metadata.numDimensions
    plan.tableCount
  modifyScratch slot fun scratch => { scratch with queryProjections := projections }
  (List.range plan.tableCount).forM (placeCursor object slot projections)
  strategy.start (queryStart metadata plan.tableCount k radius)
  let ctx : SearchContext R σ :=
    { strategy := strategy
      accessor := engine.accessor
      options := engine.options
      metadata := metadata
      query := query
      k := k
      tableCount := plan.tableCount
      scanQuantum := plan.scanQuantum
      services := scratchServices object slot seenEpoch driver }
  let limit ← liftResult (stepLimit metadata plan.tableCount engine.options.maxSteps)
  let (runtime, reason) ← ctx.searchLoop limit
    (SearchRuntime.initial radius bound plan.tableCount)
  return ctx.result runtime reason

/-- `search_impl_typed` -/
def searchImplTyped (engine : SearchEngine σ) (query : PointView) (k : Nat)
    (strategy : SearchStrategy R σ) (driver : RangeDriver R σ) : EStateM Error σ SearchResult := do
  let thread : Thread R ← getThread
  match thread.heap.lock engine.index with
  | none => throw (.undefined "*index_")
  | some object =>
      let plan ← liftResult (planQuery object engine.options query k)
      let slot ← leaseScratch
      withLease slot (engine.searchLeased object plan query k strategy driver slot)

/-- `search` for any strategy but the default one, typed or through the base class. -/
def search (engine : SearchEngine σ) (query : PointView) (k : Nat)
    (strategy : SearchStrategy R σ) : EStateM Error σ SearchResult :=
  engine.searchImplTyped query k strategy (deliverRange strategy)

/-- The accessor of an engine beside the object of a default strategy. -/
def withDefault (engine : SearchEngine σ) : SearchEngine (WithDefault R σ) where
  index := engine.index
  accessor pointId := outside (engine.accessor pointId)
  options := engine.options

/-- `search_impl_default` -/
def searchDefault (engine : SearchEngine σ) (query : PointView) (k : Nat)
    (options : DefaultOptions R σ) : EStateM Error (WithDefault R σ) SearchResult :=
  engine.withDefault.searchImplTyped query k options.strategy (deliverRangeDefault options)

end SearchEngine

end Searching

end Qalsh
