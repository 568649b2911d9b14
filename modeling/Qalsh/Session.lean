/-
  Session.lean --- one search of a thread.

  A session is a thread, with whatever earlier searches have left on it, and an index
  object alive on its heap.  The callbacks of a search are user code: programs with a
  state of their own, which may run searches themselves.  What the search of a
  session does is what the search over the tables of its index does.
-/
import Qalsh.Program

set_option autoImplicit false

namespace Qalsh

open Foundation

variable {R : Type} [RadiusArithmetic R] [Platform] {σ δ α : Type}

/-! ## Callbacks -/

/-- What a search calls; `accept` is what the driver of the strategy does with a hit. -/
structure Callbacks (R σ : Type) where
  strategy : SearchStrategy R σ
  accessor : Nat → EStateM Error σ PointView
  accept : Accept R σ

namespace Callbacks

/-- The driver that hands over hit by hit. -/
def driver (callbacks : Callbacks R σ) : RangeDriver R σ := fun evaluate progress range =>
  range.hits.foldlM (deliverHit callbacks.accept evaluate) progress

/-- Callbacks that leave the searches of their thread alone. -/
abbrev Confined [HasThread R σ] (callbacks : Callbacks R σ) : Prop :=
  AlikeCallbacks callbacks.strategy callbacks.strategy callbacks.accessor callbacks.accessor
    callbacks.accept callbacks.accept

/-- The callbacks of an arbitrary strategy. -/
def ofStrategy (strategy : SearchStrategy R σ) (accessor : Nat → EStateM Error σ PointView) :
    Callbacks R σ where
  strategy := strategy
  accessor := accessor
  accept := strategy.onProjectionHit

/-- The callbacks of a default strategy in the typed search. -/
def ofDefault (options : DefaultOptions R σ) (accessor : Nat → EStateM Error σ PointView) :
    Callbacks R (WithDefault R σ) where
  strategy := options.strategy
  accessor pointId := outside (accessor pointId)
  accept := options.acceptRanged

end Callbacks

/-! ## User code -/

theorem Program.run_confined (program : Program R δ α) : Alike program.run program.run :=
  program.run_alike.symm.right

/-- A strategy and an accessor written as programs. -/
structure UserStrategy (R δ : Type) [Platform] where
  accessor : Nat → Program R δ PointView
  start : QueryStart R → Program R δ Unit
  next : QuerySnapshot R → Program R δ StrategyAction
  onProjectionHit : ProjectionHit → QuerySnapshot R → Program R δ HitDecision
  onEvaluation : EvaluationEvent → QuerySnapshot R → Program R δ Unit
  onScanBoundary : ScanBoundaryEvent R → QuerySnapshot R → Program R δ Unit
  onRadiusAdvanced : QuerySnapshot R → Program R δ Unit

namespace UserStrategy

variable (user : UserStrategy R δ)

def strategy : SearchStrategy R (δ × Thread R) where
  start query := (user.start query).run
  next state := (user.next state).run
  onProjectionHit hit state := (user.onProjectionHit hit state).run
  onEvaluation event state := (user.onEvaluation event state).run
  onScanBoundary event state := (user.onScanBoundary event state).run
  onRadiusAdvanced state := (user.onRadiusAdvanced state).run

def callbacks : Callbacks R (δ × Thread R) :=
  .ofStrategy user.strategy fun pointId => (user.accessor pointId).run

theorem confined : user.callbacks.Confined where
  strategy :=
    { start := fun query => (user.start query).run_confined
      next := fun state => (user.next state).run_confined
      onProjectionHit := fun hit state => (user.onProjectionHit hit state).run_confined
      onEvaluation := fun event state => (user.onEvaluation event state).run_confined
      onScanBoundary := fun event state => (user.onScanBoundary event state).run_confined
      onRadiusAdvanced := fun state => (user.onRadiusAdvanced state).run_confined }
  accessor pointId := (user.accessor pointId).run_confined
  accept hit state := (user.onProjectionHit hit state).run_confined

end UserStrategy

/-- A default strategy whose rules, where it has any, are programs, and an accessor. -/
structure UserRules (R δ : Type) [RadiusArithmetic R] [Platform] where
  accessor : Nat → Program R δ PointView
  dflt : DefaultOptions R Unit
  candidateRule : CollisionObservation → Program R δ Bool
  terminationRule : QuerySnapshot R → Program R δ Bool

namespace UserRules

variable (user : UserRules R δ)

def options : DefaultOptions R (δ × Thread R) :=
  user.dflt.withRules (fun observation => (user.candidateRule observation).run)
    fun state => (user.terminationRule state).run

def callbacks : Callbacks R (WithDefault R (δ × Thread R)) :=
  .ofDefault user.options fun pointId => (user.accessor pointId).run

theorem options_alike : user.options.Alike user.options :=
  user.dflt.withRules_alike (fun observation => (user.candidateRule observation).run_confined)
    fun state => (user.terminationRule state).run_confined

theorem confined : user.callbacks.Confined where
  strategy := user.options_alike.strategy
  accessor pointId := (user.accessor pointId).run_confined.outside
  accept hit state := (user.options_alike.acceptHit hit state).2

end UserRules

/-! ## Sessions -/

/-- A thread about to search an object. -/
structure Session (R : Type) [Platform] where
  thread : Thread R
  valid : thread.Valid
  /-- the number of the object -/
  index : Nat
  object : IndexObject
  live : thread.heap.lock index = some object

/-- The outcomes agree but for the scratch records. -/
def Twinned [HasThread R σ] : EStateM.Result Error σ α → EStateM.Result Error σ α → Prop
  | .ok a s, .ok a' t => a = a' ∧ Twin s t
  | .error e s, .error e' t => e = e' ∧ Twin s t
  | _, _ => False

namespace Session

variable (session : Session R)

/-- The index of a session serves some tables. -/
theorem backed : ∃ content : Tables session.object.index.metadata.numPoints,
    Nonempty (Backing R session.object.index content) :=
  (session.thread.heap.accepted session.object
    (List.mem_of_getElem? (Heap.lock_eq_some.mp session.live))).backing session.object.index.address

/-- `search`, for a driver that does with a hit what the callbacks say. -/
def searchBy (driver : RangeDriver R σ) (callbacks : Callbacks R σ) [HasThread R σ]
    (options : SearchOptions) (query : PointView) (k : Nat) : EStateM Error σ SearchResult :=
  SearchEngine.searchImplTyped
    { index := session.index
      accessor := callbacks.accessor
      options := options } query k callbacks.strategy driver

/-- `search`, hit by hit. -/
def search [HasThread R σ] (callbacks : Callbacks R σ) (options : SearchOptions) (query : PointView)
    (k : Nat) : EStateM Error σ SearchResult :=
  session.searchBy callbacks.driver callbacks options query k

variable {session} {content : Tables session.object.index.metadata.numPoints}

/-- The search of a session does what the search over the tables does. -/
theorem searchBy_twinned [HasThread R σ] {callbacks : Callbacks R σ} (hconfined : callbacks.Confined)
    {driver : RangeDriver R σ} (hdelivers : driver.Delivers callbacks.accept)
    (b : Backing R session.object.index content) (options : SearchOptions) (query : PointView) (k : Nat)
    {s : σ} (hs : threadOf s = session.thread) :
    Twinned (session.searchBy driver callbacks options query k s)
      (b.search options query k callbacks.strategy callbacks.accessor callbacks.accept s) := by
  have hvalid : (threadOf s).Valid := hs ▸ session.valid
  let engine : SearchEngine σ :=
    { index := session.index
      accessor := callbacks.accessor
      options := options }
  have hlive : (threadOf s).heap.lock engine.index = some session.object := hs ▸ session.live
  have hagrees : Simulates (fun s' t => Apart none (threadOf s) (threadOf s) s' t ∧
      (threadOf s').heap.lock engine.index = some session.object)
      (engine.searchImplTyped query k callbacks.strategy driver) _ _ _ :=
    SearchEngine.searchImplTyped_agrees query k hconfined hdelivers b
  have h := hagrees s s
    ⟨⟨Twin.refl hvalid, Thread.Kept.refl none (threadOf s), Thread.Kept.refl none (threadOf s)⟩, hlive⟩
  change Twinned (engine.searchImplTyped query k callbacks.strategy driver s) _
  rw [show engine.options = options from rfl] at h
  generalize engine.searchImplTyped query k callbacks.strategy driver s = x at h ⊢
  generalize b.search options query k callbacks.strategy callbacks.accessor callbacks.accept s = y
    at h ⊢
  cases x with
  | ok a u =>
      cases y with
      | ok a' t => exact ⟨h.1, h.2.twin⟩
      | error e t => exact h.elim
  | error e u =>
      cases y with
      | ok a' t => exact h.elim
      | error e' t => exact ⟨h.1, h.2.twin⟩

theorem search_twinned [HasThread R σ] {callbacks : Callbacks R σ} (hconfined : callbacks.Confined)
    (b : Backing R session.object.index content) (options : SearchOptions) (query : PointView) (k : Nat)
    {s : σ} (hs : threadOf s = session.thread) :
    Twinned (session.search callbacks options query k s)
      (b.search options query k callbacks.strategy callbacks.accessor callbacks.accept s) :=
  searchBy_twinned hconfined (fun _ _ _ _ => rfl) b options query k hs

end Session

end Qalsh
