/-
  Restrict.lean --- searches with some of the tables.

  A query may ask for fewer tables than its index has.  The projections of a table are
  computed in groups, and the group a table falls into depends on how many tables there
  are; where the order of accumulation comes out the same, the search is that of an
  index built with the first tables alone.
-/
import Qalsh.Layouts

set_option autoImplicit false

namespace Qalsh

open Foundation

variable {R : Type} [RadiusArithmetic R] {σ : Type} [Platform]

/-! ## Groups of tables -/

/-- The size of the group that projects a table, out of `size` tables. -/
def laneGroup (size table : Nat) : Nat := if table / 4 * 4 + 4 ≤ size then 4 else 1

/-- The first tables are accumulated alike, whether or not there are others. -/
def SameOrder (tables count : Nat) : Prop :=
  ∀ table < count, Platform.dot (laneGroup tables table) = Platform.dot (laneGroup count table)

section Projections

variable {point : PointView} {vectors : List Binary32} {dimensions size count table : Nat}

theorem getElem?_dotGroup {lane : Nat} (h : lane < count) :
    (dotGroup count point vectors dimensions table)[lane]? =
      some (Platform.dot count point (projectionRow vectors dimensions (table + lane))) := by
  unfold dotGroup
  rw [List.getElem?_map, List.getElem?_range h]
  rfl

/-- Each projection is that of its own row, in the order of its group; the loop stands at
the start of a group, or past the last group of four. -/
theorem getElem?_projectFrom (point : PointView) (vectors : List Binary32) (dimensions start : Nat)
    (hstart : start % 4 = 0 ∨ size < start / 4 * 4 + 4) {i : Nat} (hi : start + i < size) :
    (projectFrom point vectors dimensions size start)[i]? = some (Platform.dot
      (laneGroup size (start + i)) point (projectionRow vectors dimensions (start + i))) := by
  fun_induction projectFrom point vectors dimensions size start generalizing i with
  | case1 start hfour ih =>
      have hlength : (dotGroup 4 point vectors dimensions start).length = 4 := by simp [dotGroup]
      rcases Nat.lt_or_ge i 4 with hlt | hge
      · have hgroup : laneGroup size (start + i) = 4 := if_pos (by omega)
        rw [List.getElem?_append_left (hlength.symm ▸ hlt), getElem?_dotGroup hlt, hgroup]
      · rw [List.getElem?_append_right (hlength.symm ▸ hge), hlength, ih (by omega) (by omega),
          show start + 4 + (i - 4) = start + i by omega]
  | case2 start hfour hone ih =>
      have hlength : (dotGroup 1 point vectors dimensions start).length = 1 := by simp [dotGroup]
      rcases Nat.eq_zero_or_pos i with rfl | hpos
      · have hgroup : laneGroup size (start + 0) = 1 := if_neg (by omega)
        rw [List.getElem?_append_left (hlength.symm ▸ Nat.one_pos), getElem?_dotGroup Nat.one_pos, hgroup]
      · rw [List.getElem?_append_right (hlength.symm ▸ hpos), hlength, ih (by omega) (by omega),
          show start + 1 + (i - 1) = start + i by omega]
  | case3 start hfour hone => omega

theorem getElem?_projectPoint (point : PointView) (vectors : List Binary32) (dimensions : Nat)
    (htable : table < size) :
    (projectPoint point vectors dimensions size)[table]? = some (Platform.dot
      (laneGroup size table) point (projectionRow vectors dimensions table)) := by
  have h := getElem?_projectFrom point vectors dimensions 0 (Or.inl rfl)
    (show 0 + table < size by omega)
  rwa [Nat.zero_add] at h

omit [Platform] in
/-- The rows of the first tables. -/
theorem projectionRow_take (htable : table < count) :
    projectionRow (vectors.take (count * dimensions)) dimensions table =
      projectionRow vectors dimensions table := by
  have hroom := Nat.mul_le_mul_right dimensions (Nat.succ_le_of_lt htable)
  have hsucc := Nat.succ_mul table dimensions
  unfold projectionRow
  rw [List.drop_take, List.take_take, min_eq_left (by omega)]

/-- Projecting on the first rows alone. -/
theorem getElem?_projectPoint_take (point : PointView) (vectors : List Binary32) (dimensions : Nat)
    (hsame : SameOrder size count) (hle : count ≤ size)
    (htable : table < count) :
    (projectPoint point (vectors.take (count * dimensions)) dimensions count)[table]? =
      (projectPoint point vectors dimensions size)[table]? := by
  rw [getElem?_projectPoint _ _ _ htable, getElem?_projectPoint _ _ _ (htable.trans_le hle),
    projectionRow_take htable, hsame table htable]

theorem projectPoint_take :
    projectPoint point (vectors.take (count * dimensions)) dimensions count =
      projectPoint point vectors dimensions count := by
  refine List.ext_getElem? fun table => ?_
  rcases Nat.lt_or_ge table count with hlt | hge
  · exact getElem?_projectPoint_take _ _ _ (fun _ _ => rfl) le_rfl hlt
  · rw [List.getElem?_eq_none (by simpa using hge), List.getElem?_eq_none (by simpa using hge)]

end Projections

/-! ## Tables of a restricted build -/

/-- The configuration with the first tables and their projection vectors. -/
def IndexConfig.restrict (config : IndexConfig) (count : Nat) : IndexConfig :=
  { config with
    qalsh := { config.qalsh with numHashTables := count }
    projectionVectors := config.projectionVectors.take (count * config.numDimensions) }

section Builds

variable {config : IndexConfig} {accessor : PointAccessor} {vectors : List Binary32}
  {tables : List (SortedTable config.numPoints)} {count : Nat}

/-- The rows behind the tables of a build. -/
theorem BuildTables.rows (h : BuildTables config accessor vectors tables) :
    ∃ rows : List (List Binary32), rows.length = config.numPoints ∧
      (∀ (i : Nat) (hi : i < rows.length), ∃ point, accessor i = .ok point ∧
        rows.get ⟨i, hi⟩ =
          projectPoint point vectors config.numDimensions config.qalsh.numHashTables) ∧
      tables.map SortedTable.entries = (List.range config.qalsh.numHashTables).map fun tableId =>
        sortOne (tableEntries rows tableId) := by
  have hprojected := h.projected
  unfold projectTables at hprojected
  obtain ⟨rows, hrows, htables⟩ := except_bind_eq_ok.mp hprojected
  have hall := mapM_eq_ok hrows
  have hlength : rows.length = config.numPoints := by
    rw [← hall.length_eq, List.length_range]
  refine ⟨rows, hlength, fun i hi => ?_, (Except.ok.inj htables).symm⟩
  have hrow := (List.forall₂_iff_get.mp hall).2 i (by simpa [hlength] using hi) hi
  simp only [List.get_eq_getElem, List.getElem_range, projectOne, except_bind_eq_ok] at hrow
  obtain ⟨point, hpoint, _, -, _, -, heq⟩ := hrow
  exact ⟨point, hpoint, (Except.ok.inj heq).symm⟩

/-- The first tables of a build are the tables of the restricted build. -/
theorem BuildTables.restrict_agree (h : BuildTables config accessor vectors tables)
    {vectors' : List Binary32} {tables' : List (SortedTable (config.restrict count).numPoints)}
    (h' : BuildTables (config.restrict count) accessor vectors' tables')
    (hvectors : vectors' = vectors.take (count * config.numDimensions))
    (hle : count ≤ config.qalsh.numHashTables)
    (hsame : SameOrder config.qalsh.numHashTables count) {tableId : Nat} (htable : tableId < count) :
    (tables'.map SortedTable.entries)[tableId]? = (tables.map SortedTable.entries)[tableId]? := by
  subst hvectors
  obtain ⟨rows, hlength, hrows, htables⟩ := h.rows
  obtain ⟨rows', hlength', hrows', htables'⟩ := h'.rows
  have hentries : tableEntries rows' tableId = tableEntries rows tableId := by
    unfold tableEntries
    refine List.ext_getElem (by simp [hlength, hlength', IndexConfig.restrict]) fun i hi hi' => ?_
    have hi : i < rows'.length := by simpa using hi
    have hi' : i < rows.length := by simpa using hi'
    obtain ⟨point, hpoint, hrow⟩ := hrows i hi'
    obtain ⟨point', hpoint', hrow'⟩ := hrows' i hi
    cases Except.ok.inj (hpoint.symm.trans hpoint')
    have hvalue := getElem?_projectPoint_take point vectors config.numDimensions hsame hle htable
    change rows'.get ⟨i, hi⟩ = projectPoint point (vectors.take (count * config.numDimensions))
      config.numDimensions count at hrow'
    rw [← hrow, ← hrow'] at hvalue
    simp only [List.getElem_map, List.getElem_zipIdx, List.getD_eq_getElem?_getD]
    rw [List.get_eq_getElem, List.get_eq_getElem] at hvalue
    rw [hvalue]
  rw [htables, htables', List.getElem?_map, List.getElem?_map,
    List.getElem?_range (htable.trans_le hle),
    show (List.range (config.restrict count).qalsh.numHashTables)[tableId]? = some tableId from
      List.getElem?_range htable, Option.map_some, Option.map_some, hentries]

end Builds

/-! ## Queries -/

section Queries

variable {config : IndexConfig} {pageSize count : Nat} {vectors : List Binary32}
  {tables : List (SortedTable config.numPoints)}
  {tables' : List (SortedTable (config.restrict count).numPoints)} {object object' : IndexObject}
  {content : Tables object.index.metadata.numPoints}
  {content' : Tables object'.index.metadata.numPoints} {options : SearchOptions} {asked : Option Nat}

omit [Platform] in
theorem planQuery_tableCount {query : PointView} {k : Nat} {plan : QueryPlan}
    (h : planQuery object options query k = .ok plan) :
    plan.tableCount = options.numHashTables.getD object.metadata.numHashTables := by
  simp only [planQuery, except_bind_eq_ok] at h
  obtain ⟨_, -, _, -, _, -, _, -, _, -, _, -, _, -, _, -, _, -, _, -, hplan⟩ := h
  rw [← Except.ok.inj hplan]

/-- A query for the first tables asks the same of the index with these tables alone. -/
theorem Presents.restrictMatches (h : Presents config pageSize vectors tables object.index content)
    (h' : Presents (config.restrict count) pageSize (vectors.take (count * config.numDimensions)) tables'
      object'.index content')
    (hpos : 0 < count) (hle : count ≤ config.qalsh.numHashTables)
    (hlength : vectors.length = config.qalsh.numHashTables * config.numDimensions)
    (hsmall : config.qalsh.numHashTables * config.numDimensions ≤ uint64Max)
    (hoptions : options.numHashTables = some count) (hasked : asked.getD count = count)
    (query : PointView) (k : Nat) :
    QueryMatches object object' options { options with numHashTables := asked } query k := by
  obtain ⟨_, _, _, hmetadata⟩ := h.metadata
  obtain ⟨_, _, _, hmetadata'⟩ := h'.metadata
  have hvectors := h.vectors
  have hvectors' := h'.vectors
  have hrows : count * config.numDimensions ≤ config.qalsh.numHashTables * config.numDimensions :=
    Nat.mul_le_mul_right _ hle
  have htaken : (vectors.take (count * config.numDimensions)).length = count * config.numDimensions := by
    rw [List.length_take, min_eq_left (hlength.symm ▸ hrows)]
  have hplan : planQuery object' { options with numHashTables := asked } query k =
      planQuery object options query k := by
    unfold planQuery IndexObject.metadata IndexObject.projectionVectors
    rw [hmetadata, hmetadata', hvectors, hvectors']
    dsimp only [metadataFromConfig, IndexConfig.restrict]
    rw [hoptions, hasked, Option.getD_some]
    rw [require_of (show count > 0 ∧ count ≤ count from ⟨hpos, le_rfl⟩),
      require_of (show count > 0 ∧ count ≤ config.qalsh.numHashTables from ⟨hpos, hle⟩)]
    rw [checkedMultiplyOrThrow_of_le (hrows.trans hsmall)]
    simp only [except_ok_bind, checkedSize_eq_ok.mpr ⟨rfl, hrows.trans hsmall⟩]
    rw [require_of (show vectors.length ≥ count * config.numDimensions from hlength ▸ hrows),
      require_of (show (vectors.take (count * config.numDimensions)).length ≥
        count * config.numDimensions from htaken.ge)]
  refine ⟨?_, rfl, hplan, fun plan hok => ?_⟩
  · show object'.index.metadata.core = object.index.metadata.core
    rw [hmetadata, hmetadata']
    rfl
  · have hcount : plan.tableCount = count := by
      rw [planQuery_tableCount hok, hoptions, Option.getD_some]
    unfold QueryPlan.projections IndexObject.metadata IndexObject.projectionVectors
    rw [hmetadata, hmetadata', hvectors, hvectors', hcount]
    exact projectPoint_take

end Queries

/-! ## Searches -/

section Searches

variable [HasThread R σ] {session session' : Session R} {config : IndexConfig}
  {accessor : PointAccessor} {pageSize count : Nat}

/-- A search with the first tables of an index is a search of the index built with these
tables alone. -/
theorem Session.search_restricted
    (hbuilt : session.object.index.backend.Built config accessor pageSize)
    (hbuilt' : session'.object.index.backend.Built (config.restrict count) accessor pageSize)
    (hexplicit : config.projectionVectors ≠ []) (hle : count ≤ config.qalsh.numHashTables)
    (hsame : SameOrder config.qalsh.numHashTables count) (hthread : session'.thread = session.thread)
    {callbacks : Callbacks R σ} (hconfined : callbacks.Confined)
    (hwithin : callbacks.strategy.Within
      (decide (session'.object.index.backend.paged = session.object.index.backend.paged)))
    (options : SearchOptions) (hoptions : options.numHashTables = some count) (asked : Option Nat)
    (hasked : asked.getD count = count) (query : PointView) (k : Nat) {s : σ} (hs : threadOf s = session.thread) :
    Twinned (session'.search callbacks { options with numHashTables := asked } query k s)
      (session.search callbacks options query k s) := by
  obtain ⟨vectors, tables, hbuild, hsize, content, ⟨b⟩, hpresents⟩ :=
    hbuilt.presents (R := R) session.object.index.address
  obtain ⟨vectors', tables', hbuild', -, content', ⟨b'⟩, hpresents'⟩ :=
    hbuilt'.presents (R := R) session'.object.index.address
  have hpos : 0 < count := hbuild'.valid.tables.1
  have hdimensions := hbuild.valid.dimensions.1
  have hlength := (makeProjectionVectors_spec hbuild.valid hbuild.made).1
  have hmade : config.projectionVectors = vectors := by
    have hmade := hbuild.made
    unfold makeProjectionVectors at hmade
    rw [if_pos hexplicit] at hmade
    exact Except.ok.inj hmade
  have hmade' : vectors' = vectors.take (count * config.numDimensions) := by
    have hsome : (config.restrict count).projectionVectors ≠ [] := by
      refine List.ne_nil_of_length_pos ?_
      show 0 < (config.projectionVectors.take (count * config.numDimensions)).length
      rw [List.length_take, hmade, hlength, lt_min_iff]
      exact ⟨Nat.mul_pos hpos hdimensions, Nat.mul_pos (hpos.trans_le hle) hdimensions⟩
    have hmade' := hbuild'.made
    unfold makeProjectionVectors at hmade'
    rw [if_pos hsome] at hmade'
    rw [← Except.ok.inj hmade', ← hmade]
    rfl
  subst hmade'
  have hsearch : b'.search { options with numHashTables := asked } query k callbacks.strategy
      callbacks.accessor callbacks.accept =
      b.search options query k callbacks.strategy callbacks.accessor callbacks.accept := by
    refine Backing.search_matches (hpresents.restrictMatches hpresents' hpos hle hlength
      ((tables_mul_dimensions_le hbuild.valid.tables.2 hbuild.valid.dimensions.2).trans (by decide))
      hoptions hasked query k) (fun plan hplan => ?_) hwithin
      callbacks.accessor callbacks.accept
    have hcount : plan.tableCount = count := by
      rw [planQuery_tableCount hplan, hoptions, Option.getD_some]
    rw [hcount]
    exact hpresents.matches hpresents' rfl of_decide_eq_true hsize (hbuild.count.symm ▸ hle)
      hbuild'.count.ge fun tableId htable => hbuild.restrict_agree hbuild' rfl hle hsame htable
  have hleft := session'.search_twinned hconfined b' { options with numHashTables := asked } query k
    (hs.trans hthread.symm)
  have hright := session.search_twinned hconfined b options query k hs
  rw [hsearch] at hleft
  exact hleft.both hright

end Searches

/-! ## Two tables of which one is used -/

/-- The point on the line with two tables. -/
def pairConfig : IndexConfig :=
  { unitConfig with
    qalsh := { unitConfig.qalsh with numHashTables := 2 }
    projectionVectors := [one, one] }

omit [Platform] in
theorem pairConfig_projectable :
    @Projectable (exactPlatform true) pairConfig [one, one] (fun _ => .ok [one]) := by
  let := exactPlatform true
  refine ⟨validateConfig_eq_ok.mp (by decide), rfl, fun pointId _ => ⟨[one], rfl, rfl, by decide, ?_⟩⟩
  have hprojected : projectPoint [one] [one, one] 1 2 = [exactDot [one] [one], exactDot [one] [one]] := by
    unfold projectPoint projectFrom projectFrom projectFrom
    simp [dotGroup, projectionRow]
    rfl
  have hdot : (exactDot [one] [one]).isFinite = true := by decide +kernel
  intro value hvalue
  rw [show pairConfig.numDimensions = 1 from rfl, show pairConfig.qalsh.numHashTables = 2 from rfl,
    hprojected] at hvalue
  simp only [List.mem_cons, List.not_mem_nil, or_false, or_self] at hvalue
  rw [hvalue, hdot]

omit [Platform] in
/-- Two indexes in memory over the point on the line, one of them with one table. -/
theorem Session.search_restricted_pair :
    letI := exactPlatform true
    ∃ session session' : Session Binary32,
      Twinned (session'.search (UserStrategy.rescan Binary32).callbacks SearchOptions.blank [one] 1
        ((), session.thread))
        (session.search (UserStrategy.rescan Binary32).callbacks
          { SearchOptions.blank with numHashTables := some 1 } [one] 1 ((), session.thread)) := by
  let := exactPlatform true
  obtain ⟨index, hindex⟩ := pairConfig_projectable.build
  obtain ⟨index', hindex'⟩ := unitConfig_projectable.build
  obtain ⟨session, session', hthread, hbackend, hbackend'⟩ := exists_sessions (R := Binary32)
    (Backend.Accepted.memory hindex) (Backend.Accepted.memory hindex')
  have hsmall : pairConfig.restrict 1 = unitConfig := by decide
  have hbuilt : session.object.index.backend.Built pairConfig (fun _ => .ok [one]) 512 := by
    rw [hbackend]
    exact .memory ((InMemoryIndex.buildWith_one Scheduler.smooth pairConfig _ rfl).trans hindex)
  have hbuilt' : session'.object.index.backend.Built (pairConfig.restrict 1) (fun _ => .ok [one]) 512 := by
    rw [hbackend', hsmall]
    exact .memory ((InMemoryIndex.buildWith_one Scheduler.smooth unitConfig _ rfl).trans hindex')
  refine ⟨session, session', Session.search_restricted hbuilt hbuilt' (by decide) (by decide)
    (fun _ _ => rfl) hthread (UserStrategy.rescan Binary32).confined ?_
    { SearchOptions.blank with numHashTables := some 1 } rfl none rfl [one] 1 rfl⟩
  rw [hbackend, hbackend']
  exact fun _ _ _ _ _ _ _ => rfl

end Qalsh
