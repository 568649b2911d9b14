/-
  Account.lean --- what has happened in a search so far.

  An account lists the hits delivered, the candidates evaluated and, for each table,
  whether it has been reported exhausted and its window complete.  The runtime of the
  engine keeps counters, flags and a cached snapshot instead; `Shows` says that they
  tell the same story, and each operation of the engine keeps it so.
-/
import Qalsh.Ideal

set_option autoImplicit false

namespace Qalsh

open Foundation

variable {R : Type}

/-! ## Accounts -/

structure Account (R : Type) where
  /-- calls of `next` that have returned -/
  steps : Nat
  radius : R
  bound : R
  /-- table and position of each hit, in order of delivery -/
  delivered : List (Nat × Nat)
  /-- the candidates evaluated, in order -/
  evaluated : List (Nat × BoundedDistance)
  /-- tables reported exhausted -/
  exhausted : List Bool
  /-- tables whose window has been reported complete in this round -/
  completed : List Bool

/-- A candidate enters the neighbors unless its distance was pruned. -/
def insertEvaluated (k : Nat) (neighbors : List Neighbor) (candidate : Nat × BoundedDistance) :
    List Neighbor :=
  if candidate.2.exact then
    insertNeighbor neighbors { distance := candidate.2.distance, pointId := candidate.1 } k
  else neighbors

namespace Account

def initial (radius bound : R) (tableCount : Nat) : Account R where
  steps := 0
  radius := radius
  bound := bound
  delivered := []
  evaluated := []
  exhausted := List.replicate tableCount false
  completed := List.replicate tableCount false

variable (account : Account R)

/-- The positions of a table that have been delivered, in order. -/
def positions (tableId : Nat) : List Nat :=
  (account.delivered.filter fun d => decide (d.1 = tableId)).map Prod.snd

def evaluatedIds : List Nat := account.evaluated.map Prod.fst

def neighbors (k : Nat) : List Neighbor := account.evaluated.foldl (insertEvaluated k) []

def roundComplete : Bool := account.completed.all id

def allExhausted : Bool := account.exhausted.all id

/-- What a callback is told. -/
def snapshot (k : Nat) : QuerySnapshot R where
  radius := account.radius
  bound := account.bound
  k := k
  evaluatedCandidates := account.evaluated.length
  projectionHits := account.delivered.length
  currentRoundComplete := account.roundComplete
  allTablesExhausted := account.allExhausted
  neighbors := account.neighbors k

def stepped : Account R := { account with steps := account.steps + 1 }

def deliver (tableId position : Nat) : Account R :=
  { account with delivered := account.delivered ++ [(tableId, position)] }

def record (pointId : Nat) (distance : BoundedDistance) : Account R :=
  { account with evaluated := account.evaluated ++ [(pointId, distance)] }

/-- A scan of a table has ended. -/
def close (tableId : Nat) (report : ScanReport) : Account R :=
  { account with
    exhausted := if report.tableExhausted then account.exhausted.set tableId true
      else account.exhausted
    completed := if report.windowExhausted || report.tableExhausted then
        account.completed.set tableId true
      else account.completed }

/-- A new round has begun. -/
def openRound (radius bound : R) : Account R :=
  { account with
    radius := radius
    bound := bound
    completed := account.exhausted }

@[simp] theorem positions_stepped (tableId : Nat) :
    account.stepped.positions tableId = account.positions tableId := rfl

@[simp] theorem positions_record (pointId : Nat) (distance : BoundedDistance) (tableId : Nat) :
    (account.record pointId distance).positions tableId = account.positions tableId := rfl

@[simp] theorem positions_close (tableId : Nat) (report : ScanReport) (tableId' : Nat) :
    (account.close tableId report).positions tableId' = account.positions tableId' := rfl

@[simp] theorem positions_openRound (radius bound : R) (tableId : Nat) :
    (account.openRound radius bound).positions tableId = account.positions tableId := rfl

theorem positions_deliver (tableId position tableId' : Nat) :
    (account.deliver tableId position).positions tableId' =
      account.positions tableId' ++ if tableId = tableId' then [position] else [] := by
  unfold positions deliver
  rw [List.filter_append, List.map_append]
  congr 1
  by_cases h : tableId = tableId'
  · simp [h]
  · simp [h]

theorem mem_positions {tableId position : Nat} :
    position ∈ account.positions tableId ↔ (tableId, position) ∈ account.delivered := by
  unfold positions
  simp only [List.mem_map, List.mem_filter, decide_eq_true_eq]
  constructor
  · rintro ⟨⟨t, p⟩, ⟨hmem, rfl⟩, rfl⟩
    exact hmem
  · intro h
    exact ⟨(tableId, position), ⟨h, rfl⟩, rfl⟩

theorem evaluatedIds_record (pointId : Nat) (distance : BoundedDistance) :
    (account.record pointId distance).evaluatedIds = account.evaluatedIds ++ [pointId] := by
  simp [evaluatedIds, record]

theorem neighbors_record (k pointId : Nat) (distance : BoundedDistance) :
    (account.record pointId distance).neighbors k =
      insertEvaluated k (account.neighbors k) (pointId, distance) := by
  unfold neighbors record
  rw [List.foldl_append]
  rfl

end Account

/-! ## Counting flags -/

theorem all_iff_count {flags : List Bool} :
    flags.all id = decide (flags.count true = flags.length) := by
  rw [Bool.eq_iff_iff, List.all_eq_true, decide_eq_true_eq, List.count_eq_length]
  exact forall₂_congr fun b _ => eq_comm

theorem getD_set_true {flags : List Bool} {i j : Nat} (hi : i < flags.length) :
    (flags.set i true).getD j false = true ↔ j = i ∨ flags.getD j false = true := by
  rw [List.getD_eq_getElem?_getD, List.getElem?_set, List.getD_eq_getElem?_getD]
  by_cases h : i = j
  · subst h
    simp [hi]
  · simp [h, Ne.symm h]

/-- A flag that is not set yet counts once. -/
theorem count_set {flags : List Bool} {i : Nat} (hi : i < flags.length) (h : flags.getD i false = false) :
    (flags.set i true).count true = flags.count true + 1 := by
  have hget : flags[i] = false := by
    rw [← h, List.getD_eq_getElem _ _ hi]
  rw [List.count_set hi, hget]
  rfl

theorem set_of_getD {flags : List Bool} {i : Nat} (h : flags.getD i false = true) :
    flags.set i true = flags := by
  rcases Nat.lt_or_ge i flags.length with hi | hi
  · rw [List.getD_eq_getElem _ _ hi] at h
    rw [← h]
    exact List.set_getElem_self hi
  · exact List.set_eq_of_length_le hi

/-! ## The runtime tells the same story -/

namespace SearchRuntime

/-- The counters and flags say what the account says. -/
structure Tallies (k : Nat) (runtime : SearchRuntime R) (account : Account R) : Prop where
  radius : runtime.radius = account.radius
  bound : runtime.bound = account.bound
  evaluated : runtime.evaluated = account.evaluated.length
  hits : runtime.hits = account.delivered.length
  neighbors : runtime.neighbors = account.neighbors k
  tableExhausted : runtime.tableExhausted = account.exhausted
  exhaustedTables : runtime.exhaustedTables = account.exhausted.count true
  tableRoundComplete : runtime.tableRoundComplete = account.completed
  completedTables : runtime.completedTables = account.completed.count true
  roundComplete : runtime.roundComplete = account.roundComplete

/-- The runtime shows what the account says, and so does its cache unless it is dirty. -/
structure Shows (k : Nat) (runtime : SearchRuntime R) (account : Account R) : Prop
    extends runtime.Tallies k account where
  cache : runtime.snapshotDirty = false → runtime.snapshotCache = account.snapshot k

variable {k tableCount : Nat} {runtime : SearchRuntime R} {account : Account R}

theorem Shows.initial [RadiusArithmetic R] (k : Nat) (radius bound : R) (htables : 0 < tableCount) :
    (SearchRuntime.initial radius bound tableCount).Shows k
      (Account.initial radius bound tableCount) where
  radius := rfl
  bound := rfl
  evaluated := rfl
  hits := rfl
  neighbors := rfl
  tableExhausted := rfl
  exhaustedTables := by simp [Account.initial, SearchRuntime.initial, List.count_replicate]
  tableRoundComplete := rfl
  completedTables := by simp [Account.initial, SearchRuntime.initial, List.count_replicate]
  roundComplete := by
    obtain ⟨n, rfl⟩ : ∃ n, tableCount = n + 1 := ⟨tableCount - 1, by omega⟩
    rfl
  cache h := nomatch h

theorem Tallies.snapshot (h : runtime.Tallies k account) : runtime.snapshot k = account.snapshot k := by
  have hexhausted : decide (runtime.exhaustedTables = runtime.tableExhausted.length) =
      account.allExhausted := by
    rw [h.exhaustedTables, h.tableExhausted]
    exact all_iff_count.symm
  unfold SearchRuntime.snapshot Account.snapshot
  rw [h.radius, h.bound, h.evaluated, h.hits, h.roundComplete, h.neighbors, hexhausted]

/-- A snapshot taken is the account's. -/
theorem Shows.makeSnapshot (h : runtime.Shows k account) :
    (runtime.makeSnapshot k).Shows k account ∧
      (runtime.makeSnapshot k).snapshotCache = account.snapshot k := by
  unfold SearchRuntime.makeSnapshot
  cases hdirty : runtime.snapshotDirty with
  | true => exact ⟨{ h with cache := fun _ => h.snapshot }, h.snapshot⟩
  | false => exact ⟨h, h.cache hdirty⟩

theorem Shows.stepped (h : runtime.Shows k account) : runtime.Shows k account.stepped :=
  { h with }

theorem setHits_self {hits : Nat} (h : runtime.hits = hits)
    (hcache : runtime.snapshotCache.projectionHits = hits) : runtime.setHits hits = runtime := by
  subst h
  obtain ⟨_, _, _, hits, _, _, _, _, _, _, cache, _⟩ := runtime
  obtain ⟨_, _, _, _, hits', _, _, _⟩ := cache
  obtain rfl : hits' = hits := hcache
  rfl

/-- What the ledgers leave alone. -/
theorem closeScan_rest (runtime : SearchRuntime R) (tableCount tableId : Nat) (report : ScanReport) :
    let closed := runtime.closeScan tableCount tableId report
    closed.radius = runtime.radius ∧ closed.bound = runtime.bound ∧
      closed.evaluated = runtime.evaluated ∧ closed.hits = runtime.hits ∧
      closed.neighbors = runtime.neighbors ∧ closed.snapshotDirty = true := by
  unfold closeScan countCompleted countExhausted
  split <;> split <;> exact ⟨rfl, rfl, rfl, rfl, rfl, rfl⟩

theorem countExhausted_flags {tableId : Nat} {report : ScanReport}
    (hflags : runtime.tableExhausted = account.exhausted)
    (hcount : runtime.exhaustedTables = account.exhausted.count true)
    (htable : tableId < account.exhausted.length) :
    (runtime.countExhausted tableId report).tableExhausted =
        (account.close tableId report).exhausted ∧
      (runtime.countExhausted tableId report).exhaustedTables =
        (account.close tableId report).exhausted.count true ∧
      (runtime.countExhausted tableId report).tableRoundComplete = runtime.tableRoundComplete ∧
      (runtime.countExhausted tableId report).completedTables = runtime.completedTables := by
  unfold countExhausted Account.close
  rw [hflags, hcount]
  cases hreport : report.tableExhausted with
  | false => simp [hflags, hcount]
  | true =>
      cases hflag : account.exhausted.getD tableId false with
      | false => simp [count_set htable hflag]
      | true => simp [set_of_getD hflag, hflags, hcount]

theorem countCompleted_flags {tableId : Nat} {report : ScanReport}
    (hflags : runtime.tableRoundComplete = account.completed)
    (hcount : runtime.completedTables = account.completed.count true)
    (htable : tableId < account.completed.length) :
    (runtime.countCompleted tableId report).tableRoundComplete =
        (account.close tableId report).completed ∧
      (runtime.countCompleted tableId report).completedTables =
        (account.close tableId report).completed.count true ∧
      (runtime.countCompleted tableId report).tableExhausted = runtime.tableExhausted ∧
      (runtime.countCompleted tableId report).exhaustedTables = runtime.exhaustedTables := by
  unfold countCompleted Account.close
  rw [hflags, hcount]
  cases hreport : report.windowExhausted || report.tableExhausted with
  | false => simp [hflags, hcount]
  | true =>
      cases hflag : account.completed.getD tableId false with
      | false => simp [count_set htable hflag]
      | true => simp [set_of_getD hflag, hflags, hcount]

/-- The ledgers after a scan. -/
theorem Tallies.closeScan (h : runtime.Tallies k account) {tableId : Nat} (report : ScanReport)
    (hexhausted : account.exhausted.length = tableCount)
    (hcompleted : account.completed.length = tableCount) (htable : tableId < tableCount) :
    (runtime.closeScan tableCount tableId report).Shows k (account.close tableId report) := by
  obtain ⟨hradius, hbound, hevaluated, hhits, hneighbors, hdirty⟩ :=
    runtime.closeScan_rest tableCount tableId report
  obtain ⟨hflags₁, hcount₁, hkept₁, hkept₂⟩ := countExhausted_flags
    h.tableExhausted h.exhaustedTables (hexhausted ▸ htable)
  obtain ⟨hflags₂, hcount₂, hkept₃, hkept₄⟩ := countCompleted_flags
    (hkept₁.trans h.tableRoundComplete) (hkept₂.trans h.completedTables) (hcompleted ▸ htable)
  have hlength : (account.close tableId report).completed.length = tableCount := by
    unfold Account.close
    dsimp only
    split <;> simp [hcompleted]
  exact
    { radius := hradius.trans h.radius
      bound := hbound.trans h.bound
      evaluated := hevaluated.trans h.evaluated
      hits := hhits.trans h.hits
      neighbors := hneighbors.trans h.neighbors
      tableExhausted := hkept₃.trans hflags₁
      exhaustedTables := hkept₄.trans hcount₁
      tableRoundComplete := hflags₂
      completedTables := hcount₂
      roundComplete := by
        refine Eq.trans (congrArg (fun count => decide (count = tableCount)) hcount₂) ?_
        rw [← hlength]
        exact all_iff_count.symm
      cache := fun hclean => by rw [hdirty] at hclean; cases hclean }

/-- The ledgers after a radius change. -/
theorem Tallies.openRound (h : runtime.Tallies k account)
    (hexhausted : account.exhausted.length = tableCount) (radius bound : R) :
    (runtime.openRound tableCount radius bound).Shows k (account.openRound radius bound) where
  radius := rfl
  bound := rfl
  evaluated := h.evaluated
  hits := h.hits
  neighbors := h.neighbors
  tableExhausted := h.tableExhausted
  exhaustedTables := h.exhaustedTables
  tableRoundComplete := h.tableExhausted
  completedTables := h.exhaustedTables
  roundComplete := by
    show decide (runtime.exhaustedTables = tableCount) = _
    rw [h.exhaustedTables, ← hexhausted]
    exact all_iff_count.symm
  cache h := nomatch h

/-- The runtime after an evaluation. -/
theorem Shows.recordDistance (parameters : SearchParameters) (h : runtime.Shows parameters.k account)
    (pointId : Nat) (distance : BoundedDistance) :
    (parameters.recordDistance runtime pointId distance).Shows parameters.k
        (account.record pointId distance) ∧
      (parameters.recordDistance runtime pointId distance).snapshotCache =
        (account.record pointId distance).snapshot parameters.k := by
  refine Shows.makeSnapshot ?_
  have hneighbors := account.neighbors_record parameters.k pointId distance
  unfold insertEvaluated at hneighbors
  cases hexact : distance.exact with
  | true =>
      rw [if_pos hexact] at hneighbors
      exact
        { h with
          evaluated := by simp [invalidateSnapshot, h.evaluated, Account.record]
          neighbors := by rw [hneighbors, ← h.neighbors]; rfl
          cache := fun h => nomatch h }
  | false =>
      rw [if_neg (by rw [hexact]; exact Bool.false_ne_true)] at hneighbors
      exact
        { h with
          evaluated := by simp [invalidateSnapshot, h.evaluated, Account.record]
          neighbors := by rw [hneighbors, ← h.neighbors]; rfl
          cache := fun h => nomatch h }

end SearchRuntime

/-- A range execution shows an account: its snapshot is current, and so is its runtime once
it has the hits of the snapshot. -/
structure Progress.Shows (k : Nat) (progress : Progress R) (account : Account R) : Prop where
  state : progress.state = account.snapshot k
  runtime : (progress.runtime.setHits account.delivered.length).Shows k account

namespace Progress

variable {k : Nat} {progress : Progress R} {account : Account R}

theorem Shows.hits (h : progress.Shows k account) :
    progress.state.projectionHits = account.delivered.length := by
  rw [h.state]
  rfl

/-- One more hit. -/
theorem Shows.deliver (h : progress.Shows k account) (tableId position : Nat) :
    (progress.withHits (progress.state.projectionHits + 1)).Shows k
      (account.deliver tableId position) where
  state := by
    rw [h.hits]
    unfold withHits
    rw [h.state]
    simp [Account.snapshot, Account.deliver, Account.neighbors, Account.roundComplete,
      Account.allExhausted]
  runtime :=
    { h.runtime with
      hits := rfl
      cache := fun hclean => by
        have hcache := h.runtime.cache hclean
        have hsame : { progress.runtime.snapshotCache with
            projectionHits := account.delivered.length } = account.snapshot k := hcache
        show { progress.runtime.snapshotCache with
            projectionHits := (account.deliver tableId position).delivered.length } = _
        have hlast := congrArg (fun snapshot : QuerySnapshot R => { snapshot with
          projectionHits := (account.deliver tableId position).delivered.length }) hsame
        exact hlast }

end Progress

end Qalsh
