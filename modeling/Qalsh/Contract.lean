/-
  Contract.lean --- what the engine owes to an arbitrary strategy.

  Whatever a strategy asks for, and in whatever order: it gets each entry of each
  table at most once and inside the current window, its snapshots count exactly what
  has happened, the flags of a round and of exhaustion mean what they say, and the
  neighbors are the nearest of the points evaluated so far.
-/
import Qalsh.Layouts
import Qalsh.Testimony

set_option autoImplicit false

namespace Qalsh

open Foundation

variable {R σ ω : Type}

theorem Account.snapshot_count (account : Account R) (k : Nat) :
    (account.snapshot k).evaluatedCandidates = account.evaluatedIds.length :=
  (List.length_map ..).symm

namespace Setting

/-! ## Positions and hits -/

section Hits

variable {setting : Setting} {account : Account R}

/-- A hit tells its table and its position. -/
theorem hitAt_inj {tableId tableId' position position' : Nat} (htable : tableId < setting.tableCount)
    (htable' : tableId' < setting.tableCount) (hposition : position < setting.metadata.numPoints)
    (hposition' : position' < setting.metadata.numPoints)
    (htableId : ((setting.table tableId).hitAt position).tableId =
      ((setting.table tableId').hitAt position').tableId)
    (hpointId : ((setting.table tableId).hitAt position).pointId =
      ((setting.table tableId').hitAt position').pointId) :
    tableId = tableId' ∧ position = position' := by
  have hsame : (setting.table tableId).tableId = (setting.table tableId').tableId := htableId
  rw [setting.tableId_eq tableId htable, setting.tableId_eq tableId' htable'] at hsame
  subst hsame
  exact ⟨rfl, (setting.table tableId).pointId_injective hposition hposition' hpointId⟩

theorem mem_hitsOf [RadiusArithmetic R] (h : setting.Sound account) {listed : List (Nat × Nat)}
    (hlisted : listed ⊆ account.delivered) {tableId position : Nat}
    (htable : tableId < setting.tableCount) (hposition : position < setting.metadata.numPoints) :
    (setting.table tableId).hitAt position ∈ setting.hitsOf listed ↔ (tableId, position) ∈ listed := by
  constructor
  · intro hmem
    obtain ⟨⟨tableId', position'⟩, hdelivered, heq⟩ := List.mem_map.mp hmem
    obtain ⟨htable', hposition', -⟩ := h.delivered_mem tableId' position' (hlisted hdelivered)
    obtain ⟨rfl, rfl⟩ := setting.hitAt_inj htable' htable hposition' hposition
      (congrArg ProjectionHit.tableId heq) (congrArg ProjectionHit.pointId heq)
    exact hdelivered
  · exact fun hmem => List.mem_map.mpr ⟨(tableId, position), hmem, rfl⟩

end Hits

/-! ## Delivery -/

variable [RadiusArithmetic R]

/-- What a snapshot says is true of the lines before. -/
structure Tells (setting : Setting) (lines : Transcript R ω) (state : QuerySnapshot R) : Prop where
  k_eq : state.k = setting.k
  hits_eq : state.projectionHits = lines.hits.length
  evaluated_eq : state.evaluatedCandidates = lines.points.length
  inside : ∀ hit ∈ lines.hits, ∃ tableId < setting.tableCount,
    ∃ position < setting.metadata.numPoints, hit = (setting.table tableId).hitAt position ∧
      (setting.table tableId).insideAt state.bound position = true
  complete : state.currentRoundComplete = true → ∀ tableId < setting.tableCount,
    ∀ position < setting.metadata.numPoints,
      (setting.table tableId).insideAt state.bound position = true →
      (setting.table tableId).hitAt position ∈ lines.hits

/-- Between scans all tables are exhausted when all their entries have been delivered. -/
def Settles (setting : Setting) (lines : Transcript R ω) (state : QuerySnapshot R) : Prop :=
  state.allTablesExhausted = true ↔ ∀ tableId < setting.tableCount,
    ∀ position < setting.metadata.numPoints, (setting.table tableId).hitAt position ∈ lines.hits

/-- The delivery contract of one line, after those before it. -/
def Delivers (setting : Setting) (before : Transcript R ω) (line : Line R ω) : Prop :=
  match line.call with
  | .start _ => before = []
  | .next state => setting.Tells before state ∧ setting.Settles before state
  | .hit hit state =>
      (∀ earlier ∈ before.hits, earlier.tableId = hit.tableId → earlier.pointId ≠ hit.pointId) ∧
        setting.Tells (before ++ [line]) state
  | .evaluation _ state => setting.Tells before state
  | .boundary _ state => setting.Tells before state ∧ setting.Settles before state
  | .advanced state => setting.Tells before state ∧ setting.Settles before state
  | .access _ => True

variable {setting : Setting} {account : Account R} {lines : Transcript R ω}

theorem all_getD {flags : List Bool} (h : flags.all id = true) {i : Nat} (hi : i < flags.length) :
    flags.getD i false = true := by
  rw [List.getD_eq_getElem _ _ hi]
  exact List.all_eq_true.mp h _ (List.getElem_mem hi)

variable [Platform]

variable {callbacks : Callbacks R σ} {observe : σ → ω} {origin : σ}

/-- The neighbors of a snapshot are the nearest of the points evaluated, and it counts the
distinct candidates submitted. -/
structure Ranks (setting : Setting) (lines : Transcript R ω) (state : QuerySnapshot R) : Prop where
  nearest : KBest nearness setting.k (competitors setting.query setting.metadata.metric lines.points)
    state.neighbors
  distinct : state.evaluatedCandidates = lines.submissions.dedup.length

/-- The evaluation contract of one line, after those before it. -/
def Evaluates (setting : Setting) (before : Transcript R ω) (line : Line R ω) : Prop :=
  match line.call with
  | .start _ => True
  | .next state | .hit _ state | .boundary _ state | .advanced state =>
      before.submissions = before.reports ∧ setting.Ranks before state
  | .access pointId =>
      before.submissions = before.reports ++ [pointId] ∧ pointId < setting.metadata.numPoints ∧
        pointId ∉ before.points.map Prod.fst
  | .evaluation event state =>
      before.submissions = before.reports ++ [event.pointId] ∧
        event.pointId ∈ before.points.map Prod.fst ∧
        (event.status = .duplicate ↔ event.pointId ∈ before.reports) ∧ setting.Ranks before state

omit [Platform] [RadiusArithmetic R] in
theorem length_dedup {items distinct : List Nat} (hnodup : distinct.Nodup)
    (h : ∀ a, a ∈ items ↔ a ∈ distinct) : items.dedup.length = distinct.length := by
  apply List.Perm.length_eq
  apply (List.perm_ext_iff_of_nodup (List.nodup_dedup items) hnodup).mpr
  exact fun a => List.mem_dedup.trans (h a)

omit [RadiusArithmetic R] in
/-- The points of an account, when none is being evaluated. -/
theorem Records.nearest {phase : Phase} (h : setting.Records phase account lines)
    (hpending : phase.pending = []) :
    lines.points.map Prod.fst = account.evaluatedIds ∧
      KBest nearness setting.k (competitors setting.query setting.metadata.metric lines.points)
        (account.neighbors setting.k) := by
  obtain ⟨seen, hpoints, hids, hnearest⟩ := h.points
  rw [hpending, List.append_nil] at hpoints
  rw [hpoints]
  exact ⟨hids, hnearest⟩

omit [RadiusArithmetic R] in
/-- Between evaluations all candidates have been reported on. -/
theorem Records.ranks {phase : Phase} (h : setting.Records phase account lines)
    (hnodup : account.evaluatedIds.Nodup) (hawaiting : phase.awaiting = [])
    (hpending : phase.pending = []) {state : QuerySnapshot R}
    (hneighbors : state.neighbors = account.neighbors setting.k)
    (hcount : state.evaluatedCandidates = account.evaluatedIds.length) :
    lines.submissions = lines.reports ∧ setting.Ranks lines state := by
  have hsubmissions : lines.submissions = lines.reports := by
    rw [h.submissions, hawaiting, List.append_nil]
  refine ⟨hsubmissions, hneighbors ▸ (h.nearest hpending).2, ?_⟩
  rw [hsubmissions, hcount, length_dedup hnodup h.reported]

/-- Every line honors the evaluation contract. -/
theorem Moment.evaluates {line : Line R ω} (h : setting.Moment callbacks observe origin lines line) :
    setting.Evaluates lines line := by
  obtain ⟨call, seen, answer⟩ := line
  rcases h with ⟨-, rfl, -⟩ | ⟨phase, account, account', s, run, asks, -⟩
  · exact trivial
  have hrecords := run.records
  cases asks with
  | next hsound hsettled =>
      exact hrecords.ranks hsound.evaluated_nodup rfl rfl rfl (account.snapshot_count setting.k)
  | hit scan position hsound =>
      exact hrecords.ranks hsound.evaluated_nodup rfl rfl rfl (account.snapshot_count setting.k)
  | boundary scan report hbefore hsound hsettled hcloses =>
      exact hrecords.ranks hsound.evaluated_nodup rfl rfl rfl (account.snapshot_count setting.k)
  | duplicate scan pointId hsound hold =>
      obtain ⟨hids, hnearest⟩ := hrecords.nearest rfl
      refine ⟨hrecords.submissions, hids ▸ hold,
        iff_of_true rfl ((hrecords.reported pointId).mpr hold), hnearest, ?_⟩
      rw [account.snapshot_count, length_dedup hsound.evaluated_nodup fun id => ?_]
      rw [hrecords.submissions, List.mem_append, hrecords.reported id]
      constructor
      · rintro (hmem | hmem)
        · exact hmem
        · rw [List.mem_singleton.mp hmem]
          exact hold
      · exact Or.inl
  | access scan pointId hsound hinside hnew =>
      obtain ⟨hids, -⟩ := hrecords.nearest rfl
      exact ⟨hrecords.submissions, hinside, hids ▸ hnew⟩
  | evaluation scan pointId point distance hsound hnew hvalid hdistance =>
      obtain ⟨seen, hpoints, hids, hnearest⟩ := hrecords.points
      have hmore := evaluated_nearest setting.k_pos hnearest (hids ▸ hnew) hdistance
      refine ⟨hrecords.submissions, ?_, iff_of_false nofun fun hmem =>
        hnew ((hrecords.reported pointId).mp hmem), ?_, ?_⟩
      · rw [hpoints, List.map_append]
        exact List.mem_append_right _ (List.mem_singleton.mpr rfl)
      · rw [← Account.neighbors_record] at hmore
        rw [hpoints]
        exact hmore
      · rw [Account.snapshot_count, length_dedup hsound.evaluated_nodup fun id => ?_]
        rw [hrecords.submissions, List.mem_append, hrecords.reported id, Account.evaluatedIds_record,
          List.mem_append]
        rfl
  | advanced radius bound hbefore hwaiting hround hsound hsettled =>
      exact hrecords.ranks hsound.evaluated_nodup rfl rfl rfl (account.snapshot_count setting.k)

end Setting

/-! ## Searches -/

namespace Session

variable [RadiusArithmetic R] [Platform] {session : Session R}

variable [HasThread R σ] {callbacks : Callbacks R σ} {driver : RangeDriver R σ}

/-- Whatever the order and the repetitions in which candidates are submitted, and whether
evaluations are bounded or not: the accessor is asked once for each distinct candidate, each
submission is reported on at once, as a duplicate when it is one, and the neighbors are the
nearest of the points evaluated. -/
theorem search_ranks (hconfined : callbacks.Confined) (hdelivers : driver.Delivers callbacks.accept)
    (options : SearchOptions) (query : PointView) (k : Nat) {s : σ}
    (hs : threadOf s = session.thread) :
    let lines := session.transcript (fun _ => ()) callbacks options query k s
    (lines = [] ∨ ∃ setting, session.Poses options query k setting ∧
      Throughout setting.Evaluates lines) ∧
    ∀ result s', session.searchBy driver callbacks options query k s = .ok result s' →
      KBest nearness k (competitors query session.object.metadata.metric lines.points)
        result.neighbors ∧
      result.evaluatedCandidates = lines.submissions.dedup.length ∧
      lines.submissions.dedup.Perm (lines.points.map Prod.fst) := by
  obtain ⟨hok, -⟩ := search_runs hconfined discreet_unit hdelivers options query k hs
  refine ⟨?_, fun result s' h => ?_⟩
  · exact search_throughout hconfined discreet_unit hdelivers options query k hs
      fun _ _ _ _ hmoment => hmoment.evaluates
  · obtain ⟨setting, ⟨content, b, plan, hplan, hfinite, rfl⟩, t, limit, account, reason, hreturns⟩ :=
      hok result s' h
    obtain ⟨phase, hawaiting, hpending, run⟩ := hreturns.kept
    obtain ⟨hids, hnearest⟩ := run.records.nearest hpending
    have hsubmissions := run.records.submissions
    rw [hawaiting, List.append_nil] at hsubmissions
    have hnodup := hreturns.sound.evaluated_nodup
    have hperm : (Transcript.submissions _).dedup.Perm account.evaluatedIds :=
      (List.perm_ext_iff_of_nodup (List.nodup_dedup _) hnodup).mpr fun id => by
        rw [List.mem_dedup, hsubmissions]
        exact run.records.reported id
    rw [hreturns.result_eq, hids]
    exact ⟨hnearest, (List.length_map ..).symm.trans hperm.length_eq.symm, hperm⟩

/-- Two searches of one query that have evaluated the same points end with the same neighbors,
whatever the order of their candidates and whether their evaluations were bounded. -/
theorem neighbors_order_free {τ : Type} [HasThread R τ] {session' : Session R}
    {callbacks' : Callbacks R τ} {driver' : RangeDriver R τ} {options options' : SearchOptions}
    {query : PointView} {k : Nat} {s s₁ : σ} {t t₁ : τ} {result result' : SearchResult}
    (hconfined : callbacks.Confined) (hdelivers : driver.Delivers callbacks.accept)
    (hs : threadOf s = session.thread)
    (hsearch : session.searchBy driver callbacks options query k s = .ok result s₁)
    (hconfined' : callbacks'.Confined) (hdelivers' : driver'.Delivers callbacks'.accept)
    (ht : threadOf t = session'.thread)
    (hsearch' : session'.searchBy driver' callbacks' options' query k t = .ok result' t₁)
    (hmetric : session'.object.metadata.metric = session.object.metadata.metric)
    (hpoints : (session.transcript (fun _ => ()) callbacks options query k s).points.Perm
      (session'.transcript (fun _ => ()) callbacks' options' query k t).points) :
    result'.neighbors = result.neighbors ∧
      result'.evaluatedCandidates = result.evaluatedCandidates := by
  obtain ⟨hnearest, hcount, hids⟩ :=
    (search_ranks hconfined hdelivers options query k hs).2 result s₁ hsearch
  obtain ⟨hnearest', hcount', hids'⟩ :=
    (search_ranks hconfined' hdelivers' options' query k ht).2 result' t₁ hsearch'
  rw [hmetric] at hnearest'
  refine ⟨hnearest'.unique (hnearest.perm (hpoints.filterMap _)), ?_⟩
  rw [hcount, hcount', hids.length_eq, hids'.length_eq]
  exact (hpoints.map Prod.fst).length_eq.symm

end Session

/-! ## One search for the point on the line -/

/-- What `Build` makes of `unitConfig`. -/
def unitIndex : InMemoryIndex where
  metadata :=
    { metric := .l2
      numPoints := 1
      numDimensions := 1
      numHashTables := 1
      pageSize := 0
      seed := unitConfig.seed
      fileSize := 0
      qalsh := unitConfig.qalsh
      layout := .inMemory }
  projectionVectors := [one]
  tables := [[{ value := one, pointId := 0 }]]

theorem unitIndex_built :
    @InMemoryIndex.build (exactPlatform true) unitConfig (some fun _ => .ok [one]) = .ok unitIndex := by
  let same : Except Error InMemoryIndex → Bool := fun built => match built with
    | .ok index => decide (index.metadata = unitIndex.metadata ∧
        index.projectionVectors = unitIndex.projectionVectors ∧ index.tables = unitIndex.tables)
    | .error _ => false
  have hsame : same (@InMemoryIndex.build (exactPlatform true) unitConfig
      (some fun _ => .ok [one])) = true := by decide +kernel
  generalize @InMemoryIndex.build (exactPlatform true) unitConfig (some fun _ => .ok [one]) = built
    at hsame ⊢
  cases built with
  | error e => cases hsame
  | ok index =>
      obtain ⟨metadata, vectors, tables⟩ := index
      obtain ⟨rfl, rfl, rfl⟩ := of_decide_eq_true hsame
      rfl

/-- A heap with one object. -/
def Heap.single [Platform] (object : IndexObject) (h : object.index.backend.Accepted) : Heap where
  objects := [some object]
  accepted other hmem := by
    rw [Option.some.inj (List.mem_singleton.mp hmem)]
    exact h
  distinct i j _ _ hi hj _ := by
    obtain ⟨hi, -⟩ := List.getElem?_eq_some_iff.mp hi
    obtain ⟨hj, -⟩ := List.getElem?_eq_some_iff.mp hj
    exact (Nat.lt_one_iff.mp hi).trans (Nat.lt_one_iff.mp hj).symm

/-- A new thread with the index of the point on the line. -/
def unitSession : @Session Binary32 (exactPlatform true) :=
  let := exactPlatform true
  { thread := Thread.fresh (Heap.single (.builtIn ⟨0, .memory unitIndex⟩) (.memory unitIndex_built))
    valid := fun _ hmem => absurd hmem List.not_mem_nil
    index := 0
    object := .builtIn ⟨0, .memory unitIndex⟩
    live := rfl }

/-- Scan the first table once, submit what it hits and finish. -/
def UserStrategy.once [Platform] (R : Type) : UserStrategy R Nat where
  accessor _ := .act (pure [one])
  start _ := .act (pure ())
  next _ := .act fun calls => .ok (if calls = 0 then .scan 0 .range else .finish) (calls + 1)
  onProjectionHit hit _ := .act (pure { candidate := hit.pointId })
  onEvaluation _ _ := .act (pure ())
  onScanBoundary _ _ := .act (pure ())
  onRadiusAdvanced _ := .act (pure ())

/-- A computation that returns. -/
def returns {α : Type} : EStateM.Result Error σ α → Bool
  | .ok _ _ => true
  | .error _ _ => false

theorem returns_iff {α : Type} {outcome : EStateM.Result Error σ α} :
    returns outcome = true ↔ ∃ a s, outcome = .ok a s := by
  cases outcome with
  | ok a s => exact iff_of_true rfl ⟨a, s, rfl⟩
  | error e s => exact iff_of_false Bool.false_ne_true nofun

/-- It finds the point, and evaluates it whether the distance is bounded or not. -/
theorem unitSession_once (boundedDistance : Bool) :
    letI := exactPlatform true
    (∃ result s', unitSession.searchBy (UserStrategy.once Binary32).callbacks.driver
      (UserStrategy.once Binary32).callbacks
      { SearchOptions.blank with boundedDistance := boundedDistance } [one] 1
      (0, unitSession.thread) = .ok result s') ∧
    (unitSession.transcript (fun _ => ()) (UserStrategy.once Binary32).callbacks
      { SearchOptions.blank with boundedDistance := boundedDistance } [one] 1
      (0, unitSession.thread)).points = [(0, [one])] := by
  let := exactPlatform true
  constructor
  · apply returns_iff.mp
    cases boundedDistance <;> decide +kernel
  · cases boundedDistance <;> decide +kernel

namespace Session

theorem search_ranks_unit :
    letI := exactPlatform true
    let lines := unitSession.transcript (fun _ => ()) (UserStrategy.once Binary32).callbacks
      SearchOptions.blank [one] 1 (0, unitSession.thread)
    (lines = [] ∨ ∃ setting, unitSession.Poses SearchOptions.blank [one] 1 setting ∧
      Throughout setting.Evaluates lines) ∧
    ∀ result s', unitSession.searchBy (UserStrategy.once Binary32).callbacks.driver
        (UserStrategy.once Binary32).callbacks SearchOptions.blank [one] 1 (0, unitSession.thread) =
          .ok result s' →
      KBest nearness 1 (competitors [one] unitSession.object.metadata.metric lines.points)
        result.neighbors ∧
      result.evaluatedCandidates = lines.submissions.dedup.length ∧
      lines.submissions.dedup.Perm (lines.points.map Prod.fst) := by
  let := exactPlatform true
  exact search_ranks (UserStrategy.once Binary32).confined (fun _ _ _ _ => rfl) SearchOptions.blank
    [one] 1 rfl

theorem neighbors_order_free_unit :
    letI := exactPlatform true
    ∃ result result' s₁ t₁,
      unitSession.searchBy (UserStrategy.once Binary32).callbacks.driver
        (UserStrategy.once Binary32).callbacks
        { SearchOptions.blank with boundedDistance := true } [one] 1 (0, unitSession.thread) =
          .ok result s₁ ∧
      unitSession.searchBy (UserStrategy.once Binary32).callbacks.driver
        (UserStrategy.once Binary32).callbacks
        { SearchOptions.blank with boundedDistance := false } [one] 1 (0, unitSession.thread) =
          .ok result' t₁ ∧
      result'.neighbors = result.neighbors ∧
        result'.evaluatedCandidates = result.evaluatedCandidates := by
  let := exactPlatform true
  obtain ⟨⟨result, s₁, h⟩, hpoints⟩ := unitSession_once true
  obtain ⟨⟨result', t₁, h'⟩, hpoints'⟩ := unitSession_once false
  have hconfined := (UserStrategy.once Binary32).confined
  refine ⟨result, result', s₁, t₁, h, h', ?_⟩
  apply neighbors_order_free hconfined (fun _ _ _ _ => rfl) rfl h hconfined (fun _ _ _ _ => rfl) rfl h'
    rfl
  rw [hpoints, hpoints']

end Session

end Qalsh
