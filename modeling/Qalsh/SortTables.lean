/-
  SortTables.lean --- sorting the tables of an index with several threads.

  `SortTables` sorts the tables one by one or starts threads that claim tables from a
  shared counter.  Whatever the threads do, and in whatever order, the caller gets the
  tables a single thread would have sorted, or the exception of a thread that could not
  be started; and in both cases no thread is running any more.
-/
import Qalsh.InMemory
import Qalsh.Foundation.Workers

set_option autoImplicit false

namespace Qalsh

open Foundation

/-! ## The two paths -/

/-- `const auto workers` -/
def workersOf (requestedThreads : Nat) (tables : List (List Entry)) : Nat :=
  min requestedThreads tables.length

/-- The loop of the path without threads. -/
def sortInOrder (tables : List (List Entry)) : List (List Entry) :=
  (List.range tables.length).foldl (fun tables id => tables.modify id sortOne) tables

/-- A state the threads of `SortTables` can reach. -/
abbrev SortState : Type := Pool (List Entry)

def SortState.Reached (requestedThreads : Nat) (tables : List (List Entry)) (state : SortState) :
    Prop :=
  Pool.Reached sortOne (workersOf requestedThreads tables) tables state

/-- What `SortTables` may do: return tables or throw. -/
inductive SortTables (requestedThreads : Nat) (tables : List (List Entry)) :
    Except Error (List (List Entry)) → Prop
  | serial : workersOf requestedThreads tables ≤ 1 →
      SortTables requestedThreads tables (.ok (sortInOrder tables))
  | returned {state : SortState} : 1 < workersOf requestedThreads tables →
      state.Reached requestedThreads tables → state.stage = .returned →
      SortTables requestedThreads tables (.ok state.items)
  | thrown {state : SortState} (e : Error) : 1 < workersOf requestedThreads tables →
      state.Reached requestedThreads tables → state.stage = .thrown →
      SortTables requestedThreads tables (.error e)

/-- The tables of different points, with values that can be compared. -/
structure Sortable (tables : List (List Entry)) : Prop where
  finite : ∀ table ∈ tables, ∀ entry ∈ table, entry.value.isFinite = true
  distinct : ∀ table ∈ tables, (table.map Entry.pointId).Nodup

/-! ## One result -/

theorem sortInOrder_eq (tables : List (List Entry)) : sortInOrder tables = tables.map sortOne := by
  have hloop : ∀ count i, ((List.range count).foldl (fun tables id => tables.modify id sortOne)
      tables)[i]? = if i < count then (tables[i]?).map sortOne else tables[i]? := by
    intro count
    induction count with
    | zero => exact fun i => rfl
    | succ count ih =>
        intro i
        rw [List.range_succ, List.foldl_append, List.foldl_cons, List.foldl_nil]
        by_cases heq : count = i
        · rw [heq, List.getElem?_modify_eq, ← heq, ih, if_neg (Nat.lt_irrefl _),
            if_pos (Nat.lt_succ_self _)]
          rfl
        · rw [List.getElem?_modify_ne _ _ heq, ih]
          exact if_congr (by omega) rfl rfl
  refine List.ext_getElem? fun i => ?_
  rw [sortInOrder, hloop, List.getElem?_map]
  split
  · rfl
  · rw [List.getElem?_eq_none (by omega)]
    rfl

/-- Every thread count and every order of the steps gives the same tables. -/
theorem SortTables.eq_ok {requestedThreads : Nat} {tables result : List (List Entry)}
    (h : SortTables requestedThreads tables (.ok result)) : result = tables.map sortOne := by
  cases h with
  | serial _ => exact sortInOrder_eq tables
  | returned _ hreached hstage => exact (hreached.returned hstage).2.1

/-- Some run of `SortTables` returns. -/
theorem SortTables.exists_ok (requestedThreads : Nat) (tables : List (List Entry)) :
    SortTables requestedThreads tables (.ok (tables.map sortOne)) := by
  rcases Nat.lt_or_ge 1 (workersOf requestedThreads tables) with hlt | hle
  · obtain ⟨state, hreached, hstage⟩ := Pool.exists_returned sortOne
      (workersOf requestedThreads tables) tables
    exact (hreached.returned hstage).2.1 ▸ SortTables.returned hlt hreached hstage
  · exact sortInOrder_eq tables ▸ SortTables.serial hle

/-- The tables are strictly sorted by value and id. -/
theorem Sortable.sorted {tables : List (List Entry)} (h : Sortable tables) :
    ∀ table ∈ tables.map sortOne, table.Pairwise fun a b => keyLess a b = true := by
  intro table hmem
  obtain ⟨table, htable, rfl⟩ := List.mem_map.mp hmem
  exact strictlySorted_sortOne (h.finite table htable) (h.distinct table htable)

/-! ## What holds of the threads -/

/-- What is promised of the threads of `SortTables`, in every state they can reach. -/
structure ThreadsSafe (requestedThreads : Nat) (tables : List (List Entry)) (state : SortState) :
    Prop where
  /-- tables are claimed in order, so none twice -/
  claims : state.claims.map Prod.snd = List.range state.claims.length
  /-- no two threads sort one table -/
  alone : ∀ w w' id : Nat, state.crew[w]? = some (.busy id) → state.crew[w']? = some (.busy id) →
    w = w'
  /-- the function returns when every table has been claimed and sorted and no thread runs -/
  returned : state.stage = .returned →
    state.claims.map Prod.snd = List.range tables.length ∧ state.items = sortInOrder tables ∧
      ∀ worker ∈ state.crew, worker = .finished
  /-- when the exception of a failed start leaves the function, no thread runs -/
  thrown : state.stage = .thrown → ∀ worker ∈ state.crew, worker = .finished
  /-- the threads never wait for each other for ever -/
  progress : state.stage ≠ .returned → state.stage ≠ .thrown →
    ∃ state', state.Step sortOne (workersOf requestedThreads tables) state'

theorem SortState.Reached.safe {requestedThreads : Nat} {tables : List (List Entry)}
    {state : SortState} (h : state.Reached requestedThreads tables) :
    ThreadsSafe requestedThreads tables state where
  claims := (Pool.Reached.sound h).ledger.inOrder
  alone := (Pool.Reached.sound h).ledger.alone
  returned hstage := by
    obtain ⟨hclaims, hitems, hfinished⟩ := Pool.Reached.returned h hstage
    exact ⟨hclaims, hitems.trans (sortInOrder_eq tables).symm, hfinished⟩
  thrown hstage := Pool.Reached.thrown h hstage
  progress := Pool.Reached.progress h

/-! ## Building with threads -/

/-- What the threads make of each call of `SortTables`. -/
structure Scheduler where
  sortTables : Nat → List (List Entry) → Except Error (List (List Entry))
  possible : ∀ requestedThreads tables,
    SortTables requestedThreads tables (sortTables requestedThreads tables)

/-- The schedule under which every thread starts. -/
def Scheduler.smooth : Scheduler where
  sortTables _ tables := .ok (tables.map sortOne)
  possible := SortTables.exists_ok

/-- A build with any number of threads does what it does with one thread, unless a thread
cannot be started. -/
def ThreadsAgree {α : Type} (build : Scheduler → Nat → Except Error α) : Prop :=
  ∀ (scheduler scheduler' : Scheduler) (threads : Nat), 0 < threads → threads ≤ 1024 →
    build scheduler threads = build scheduler' 1 ∨
      ∃ tables e, SortTables threads tables (.error e) ∧ build scheduler threads = .error e

/-- One thread sorts in order. -/
theorem Scheduler.sortTables_one (scheduler : Scheduler) (tables : List (List Entry)) :
    scheduler.sortTables 1 tables = .ok (tables.map sortOne) := by
  have hle : workersOf 1 tables ≤ 1 := Nat.min_le_left _ _
  generalize hresult : scheduler.sortTables 1 tables = result
  have hpossible := scheduler.possible 1 tables
  rw [hresult] at hpossible
  cases hpossible with
  | serial _ => rw [sortInOrder_eq]
  | returned hlt _ _ => exact absurd hle (Nat.not_le.mpr hlt)
  | thrown _ hlt _ _ => exact absurd hle (Nat.not_le.mpr hlt)

/-- A build that pushes the same tables for any number of threads and goes on with the
sorted ones. -/
theorem ThreadsAgree.of_pushed {α γ : Type} {build : Scheduler → Nat → Except Error α}
    (push : Nat → Except Error (γ × List (List Entry)))
    (rest : γ → List (List Entry) → Except Error α)
    (hpush : ∀ threads, 0 < threads → threads ≤ 1024 → push threads = push 1)
    (hbuild : ∀ scheduler threads, build scheduler threads =
      (push threads >>= fun pushed => scheduler.sortTables threads pushed.2 >>= rest pushed.1)) :
    ThreadsAgree build := by
  intro scheduler scheduler' threads hpos hle
  rw [hbuild, hbuild, hpush threads hpos hle]
  cases push 1 with
  | error e => exact Or.inl rfl
  | ok pushed =>
      rw [except_ok_bind, except_ok_bind, scheduler'.sortTables_one, except_ok_bind]
      have hpossible := scheduler.possible threads pushed.2
      cases hresult : scheduler.sortTables threads pushed.2 with
      | ok result =>
          rw [hresult] at hpossible
          rw [hpossible.eq_ok]
          exact Or.inl rfl
      | error e =>
          rw [hresult] at hpossible
          exact Or.inr ⟨pushed.2, e, hpossible, rfl⟩

variable [Platform]

/-- The tables as the point loop leaves them. -/
def pushTables (config : IndexConfig) (vectors : List Binary32) (accessor : PointAccessor) :
    Except Error (List (List Entry)) := do
  let rows ← (List.range config.numPoints).mapM (projectOne config vectors accessor)
  return (List.range config.qalsh.numHashTables).map (tableEntries rows)

/-- The point loop and a single thread are `projectTables`. -/
theorem projectTables_eq (config : IndexConfig) (vectors : List Binary32) (accessor : PointAccessor) :
    projectTables config vectors accessor =
      (pushTables config vectors accessor >>= fun tables => .ok (tables.map sortOne)) := by
  unfold projectTables pushTables
  cases (List.range config.numPoints).mapM (projectOne config vectors accessor) with
  | error e => rfl
  | ok rows =>
      simp only [except_ok_bind, except_pure, List.map_map]
      rfl

/-- What every `Build` does before `SortTables`; `checks` are those of its other arguments. -/
def pushPoints (config : IndexConfig) (accessor : Option PointAccessor)
    (checks : Except Error Unit) : Except Error (List Binary32 × List (List Entry)) := do
  validateConfig config
  match accessor with
  | none => throw (.invalidArgument "point accessor is required")
  | some accessor =>
      checks
      let vectors ← makeProjectionVectors config
      let tables ← pushTables config vectors accessor
      return (vectors, tables)

/-- The number of threads is only checked. -/
theorem pushPoints_threads (config : IndexConfig) (accessor : Option PointAccessor)
    (checks : Except Error Unit) {threads : Nat} (hpos : 0 < threads) (hle : threads ≤ 1024) :
    pushPoints { config with buildThreads := threads } accessor checks =
      pushPoints { config with buildThreads := 1 } accessor checks := by
  have hvalidate : validateConfig { config with buildThreads := threads } =
      validateConfig { config with buildThreads := 1 } := by
    unfold validateConfig
    rw [require_of (show threads > 0 ∧ threads ≤ 1024 from ⟨hpos, hle⟩),
      require_of (show 1 > 0 ∧ 1 ≤ 1024 from by decide)]
  unfold pushPoints
  rw [hvalidate]
  rfl

/-- `InMemoryIndex::Build` under a schedule of its threads. -/
def InMemoryIndex.buildWith (scheduler : Scheduler) (config : IndexConfig)
    (accessor : Option PointAccessor) : Except Error InMemoryIndex := do
  let (vectors, pushed) ← pushPoints config accessor (.ok ())
  let tables ← scheduler.sortTables config.buildThreads pushed
  return { metadata := metadataFromConfig config 0 .inMemory
           projectionVectors := vectors
           tables := tables }

/-- With one thread it is the `Build` of the other modules. -/
theorem InMemoryIndex.buildWith_one (scheduler : Scheduler) (config : IndexConfig)
    (accessor : Option PointAccessor) (hthreads : config.buildThreads = 1) :
    InMemoryIndex.buildWith scheduler config accessor = InMemoryIndex.build config accessor := by
  unfold InMemoryIndex.buildWith InMemoryIndex.build pushPoints
  cases validateConfig config with
  | error e => rfl
  | ok _ =>
      cases accessor with
      | none => rfl
      | some accessor =>
          simp only [except_ok_bind, except_pure]
          cases makeProjectionVectors config with
          | error e => rfl
          | ok vectors =>
              simp only [except_ok_bind, projectTables_eq]
              cases pushTables config vectors accessor with
              | error e => rfl
              | ok pushed =>
                  simp only [except_ok_bind, hthreads, scheduler.sortTables_one]

theorem InMemoryIndex.threadsAgree (config : IndexConfig) (accessor : Option PointAccessor) :
    ThreadsAgree fun scheduler threads =>
      InMemoryIndex.buildWith scheduler { config with buildThreads := threads } accessor :=
  ThreadsAgree.of_pushed
    (fun threads => pushPoints { config with buildThreads := threads } accessor (.ok ()))
    (fun vectors tables => .ok
      { metadata := metadataFromConfig config 0 .inMemory
        projectionVectors := vectors
        tables := tables })
    (fun _ hpos hle => pushPoints_threads config accessor (.ok ()) hpos hle) fun _ _ => rfl

end Qalsh
