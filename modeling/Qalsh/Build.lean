/-
  Build.lean --- the projection tables every `Build` starts from.

  Points are projected one after the other, in the order of their ids, and each
  table is then sorted by value and id.  The result is one sorted table per
  projection, or the first error met.
-/
import Qalsh.Config
import Qalsh.Table

set_option autoImplicit false

namespace Qalsh

open Foundation

/-! ## Sorting -/

/-- The comparison `SortTables` passes to the sort. -/
def sortBefore (lhs rhs : Entry) : Bool :=
  if lhs.value.eq rhs.value then decide (lhs.pointId < rhs.pointId) else lhs.value.lt rhs.value

/-- `sort_one` -/
def sortOne (entries : List Entry) : List Entry :=
  entries.mergeSort fun lhs rhs => !sortBefore rhs lhs

/-- The order of keys, as a total order on all entries. -/
def keyLe (lhs rhs : Entry) : Bool :=
  decide (lhs.value.orderKey < rhs.value.orderKey) ||
    (decide (lhs.value.orderKey = rhs.value.orderKey) && decide (lhs.pointId ≤ rhs.pointId))

theorem keyLe_eq_not_sortBefore {a b : Entry} (ha : a.value.isFinite = true)
    (hb : b.value.isFinite = true) : keyLe a b = !sortBefore b a := by
  have heq := Binary32.eq_iff_of_isFinite hb ha
  have hlt := Binary32.lt_iff_of_isFinite hb ha
  rw [Bool.eq_iff_iff]
  unfold keyLe sortBefore
  split
  · rename_i h
    have hkey := heq.mp h
    simp only [Bool.or_eq_true, Bool.and_eq_true, decide_eq_true_eq, Bool.not_eq_true',
      decide_eq_false_iff_not]
    omega
  · rename_i h
    have hkey : b.value.orderKey ≠ a.value.orderKey := fun hc => h (heq.mpr hc)
    simp only [Bool.or_eq_true, Bool.and_eq_true, decide_eq_true_eq, Bool.not_eq_true',
      ← Bool.not_eq_true, hlt]
    omega

theorem sortOne_eq {entries : List Entry} (hfinite : ∀ e ∈ entries, e.value.isFinite = true) :
    sortOne entries = entries.mergeSort keyLe := by
  have h := List.map_mergeSort (r := keyLe) (s := fun lhs rhs => !sortBefore rhs lhs) (f := id)
    (l := entries) fun a ha b hb => keyLe_eq_not_sortBefore (hfinite a ha) (hfinite b hb)
  rw [List.map_id, List.map_id] at h
  exact h.symm

theorem sortOne_perm (entries : List Entry) : (sortOne entries).Perm entries :=
  List.mergeSort_perm _ _

theorem pairwise_sortOne {entries : List Entry}
    (hfinite : ∀ e ∈ entries, e.value.isFinite = true) :
    (sortOne entries).Pairwise fun a b => keyLe a b = true := by
  rw [sortOne_eq hfinite]
  refine List.pairwise_mergeSort ?_ ?_ _
  · intro a b c hab hbc
    simp only [keyLe, Bool.or_eq_true, Bool.and_eq_true, decide_eq_true_eq] at *
    omega
  · intro a b
    simp only [keyLe, Bool.or_eq_true, Bool.and_eq_true, decide_eq_true_eq]
    omega

/-! ## Projected points -/

variable [Platform]

/-- One turn of the point loop: the projections of one point, one for each table. -/
def projectOne (config : IndexConfig) (vectors : List Binary32) (accessor : PointAccessor)
    (pointId : Nat) : Except Error (List Binary32) := do
  let point ← accessor pointId
  validatePoint point config.numDimensions pointId
  let projected := projectPoint point vectors config.numDimensions config.qalsh.numHashTables
  projected.forM fun value => requireFinite value "projection value"
  return projected

/-- The entries pushed for one table, in point order. -/
def tableEntries (rows : List (List Binary32)) (tableId : Nat) : List Entry :=
  rows.zipIdx.map fun row => { value := row.1.getD tableId Binary32.zero, pointId := row.2 }

/-- The sorted tables of a configuration. -/
def projectTables (config : IndexConfig) (vectors : List Binary32) (accessor : PointAccessor) :
    Except Error (List (List Entry)) := do
  let rows ← (List.range config.numPoints).mapM (projectOne config vectors accessor)
  return (List.range config.qalsh.numHashTables).map fun tableId =>
    sortOne (tableEntries rows tableId)

omit [Platform] in
theorem mapM_eq_ok {α β : Type} {f : α → Except Error β} {items : List α} {results : List β}
    (h : items.mapM f = .ok results) : List.Forall₂ (fun a b => f a = .ok b) items results := by
  induction items generalizing results with
  | nil =>
      rw [List.mapM_nil] at h
      cases h
      exact .nil
  | cons a rest ih =>
      rw [List.mapM_cons, except_bind_eq_ok] at h
      obtain ⟨b, hb, h⟩ := h
      rw [except_bind_eq_ok] at h
      obtain ⟨bs, hbs, h⟩ := h
      cases h
      exact .cons hb (ih hbs)

/-- Every projected row has one finite value for each table. -/
theorem projectOne_spec {config : IndexConfig} {vectors : List Binary32}
    {accessor : PointAccessor} {pointId : Nat} {row : List Binary32}
    (h : projectOne config vectors accessor pointId = .ok row) :
    row.length = config.qalsh.numHashTables ∧ ∀ value ∈ row, value.isFinite = true := by
  simp only [projectOne, except_bind_eq_ok] at h
  obtain ⟨point, -, _, -, u, hfin, hrow⟩ := h
  cases hrow
  exact ⟨length_projectPoint _ _ _ _,
    fun v hv => require_eq_ok.mp (forM_eq_ok.mp hfin v hv)⟩

omit [Platform] in
theorem tableEntries_ids (rows : List (List Binary32)) (tableId : Nat) :
    (tableEntries rows tableId).map Entry.pointId = List.range rows.length := by
  unfold tableEntries
  rw [List.map_map]
  show rows.zipIdx.map Prod.snd = _
  rw [List.zipIdx_map_snd, List.range_eq_range']

omit [Platform] in
/-- Entries of distinct points, once sorted, are in strict order. -/
theorem strictlySorted_sortOne {entries : List Entry}
    (hfinite : ∀ e ∈ entries, e.value.isFinite = true) (hnodup : (entries.map Entry.pointId).Nodup) :
    (sortOne entries).Pairwise fun a b => keyLess a b = true := by
  have hnodup' : ((sortOne entries).map Entry.pointId).Nodup :=
    ((sortOne_perm _).map Entry.pointId).nodup_iff.mpr hnodup
  have hfinite' : ∀ e ∈ sortOne entries, e.value.isFinite = true :=
    fun e he => hfinite e ((sortOne_perm _).mem_iff.mp he)
  have hboth := List.pairwise_and_iff.mpr
    ⟨pairwise_sortOne hfinite, List.pairwise_map.mp hnodup'⟩
  refine hboth.imp_of_mem fun {a b} ha hb hab => ?_
  obtain ⟨hle, hne⟩ := hab
  have heq := Binary32.eq_iff_of_isFinite (hfinite' a ha) (hfinite' b hb)
  have hlt := Binary32.lt_iff_of_isFinite (hfinite' a ha) (hfinite' b hb)
  simp only [keyLe, keyLess, Bool.or_eq_true, Bool.and_eq_true, decide_eq_true_eq, heq,
    hlt] at hle ⊢
  omega

omit [Platform] in
theorem ordered_tableEntries (rows : List (List Binary32)) (tableId : Nat)
    (hfinite : ∀ e ∈ tableEntries rows tableId, e.value.isFinite = true) :
    (sortOne (tableEntries rows tableId)).Pairwise fun a b => keyLess a b = true :=
  strictlySorted_sortOne hfinite (by rw [tableEntries_ids]; exact List.nodup_range)

omit [Platform] in
theorem finite_tableEntries (rows : List (List Binary32)) (tableId : Nat)
    (hfinite : ∀ e ∈ tableEntries rows tableId, e.value.isFinite = true) :
    ∀ e ∈ sortOne (tableEntries rows tableId), e.value.isFinite = true :=
  fun e he => hfinite e ((sortOne_perm _).mem_iff.mp he)

omit [Platform] in
theorem ids_tableEntries (rows : List (List Binary32)) (tableId : Nat) :
    ((sortOne (tableEntries rows tableId)).map Entry.pointId).Perm (List.range rows.length) := by
  have h := (sortOne_perm (tableEntries rows tableId)).map Entry.pointId
  rwa [tableEntries_ids] at h

omit [Platform] in
/-- Sorting the entries of one projection gives a sorted table. -/
def sortedTable (rows : List (List Binary32)) (tableId : Nat)
    (hfinite : ∀ e ∈ tableEntries rows tableId, e.value.isFinite = true) :
    SortedTable rows.length where
  entries := sortOne (tableEntries rows tableId)
  ordered := ordered_tableEntries rows tableId hfinite
  finite := finite_tableEntries rows tableId hfinite
  ids := ids_tableEntries rows tableId

/-- `projectTables` returns sorted tables, one for each projection. -/
theorem projectTables_spec {config : IndexConfig} {vectors : List Binary32}
    {accessor : PointAccessor} {tables : List (List Entry)}
    (h : projectTables config vectors accessor = .ok tables) :
    ∃ sorted : List (SortedTable config.numPoints), tables = sorted.map SortedTable.entries ∧
      sorted.length = config.qalsh.numHashTables := by
  simp only [projectTables, except_bind_eq_ok] at h
  obtain ⟨rows, hrows, htables⟩ := h
  cases htables
  have hall := mapM_eq_ok hrows
  have hlen : rows.length = config.numPoints := by
    simpa using hall.length_eq.symm
  have hrow : ∀ row ∈ rows, row.length = config.qalsh.numHashTables ∧
      ∀ value ∈ row, value.isFinite = true := by
    intro row hmem
    obtain ⟨i, hi, rfl⟩ := List.getElem_of_mem hmem
    exact projectOne_spec ((List.forall₂_iff_get.mp hall).2 i (by simpa [hlen] using hi) hi)
  have hfinite : ∀ t < config.qalsh.numHashTables, ∀ e ∈ tableEntries rows t,
      e.value.isFinite = true := by
    intro t ht e he
    obtain ⟨⟨row, i⟩, hmem, rfl⟩ := List.mem_map.mp he
    obtain ⟨hlen', hfin⟩ := hrow row (List.fst_mem_of_mem_zipIdx hmem)
    show (row.getD t Binary32.zero).isFinite = true
    rw [List.getD_eq_getElem _ _ (by omega)]
    exact hfin _ (List.getElem_mem _)
  rw [← hlen]
  refine ⟨(List.finRange config.qalsh.numHashTables).map fun t : Fin config.qalsh.numHashTables =>
    sortedTable rows t.1 (hfinite t.1 t.isLt), ?_, by simp⟩
  rw [List.map_map, ← List.map_coe_finRange_eq_range, List.map_map]
  rfl

omit [Platform] in
theorem mapM_ok_of_forall {α β : Type} {f : α → Except Error β} {items : List α}
    (h : ∀ a ∈ items, ∃ b, f a = .ok b) : ∃ results, items.mapM f = .ok results := by
  induction items with
  | nil => exact ⟨[], rfl⟩
  | cons a rest ih =>
      obtain ⟨b, hb⟩ := h a List.mem_cons_self
      obtain ⟨bs, hbs⟩ := ih fun a' ha' => h a' (List.mem_cons_of_mem _ ha')
      exact ⟨b :: bs, by rw [List.mapM_cons, hb, hbs]; rfl⟩

/-- What `Build` needs of its caller: an accepted configuration, and an accessor that
returns points of the right dimension whose projections are finite. -/
structure Projectable (config : IndexConfig) (vectors : List Binary32) (accessor : PointAccessor) :
    Prop where
  valid : ValidConfig config
  made : makeProjectionVectors config = .ok vectors
  points : ∀ pointId < config.numPoints, ∃ point, accessor pointId = .ok point ∧
    point.length = config.numDimensions ∧ point.all Binary32.isFinite = true ∧
    ∀ value ∈ projectPoint point vectors config.numDimensions config.qalsh.numHashTables,
      value.isFinite = true

theorem Projectable.projectOne {config : IndexConfig} {vectors : List Binary32}
    {accessor : PointAccessor} (h : Projectable config vectors accessor) {pointId : Nat}
    (hid : pointId < config.numPoints) : ∃ point, accessor pointId = .ok point ∧
      projectOne config vectors accessor pointId =
        .ok (projectPoint point vectors config.numDimensions config.qalsh.numHashTables) := by
  obtain ⟨point, hpoint, hlength, hfinite, hprojected⟩ := h.points pointId hid
  refine ⟨point, hpoint, ?_⟩
  simp only [Qalsh.projectOne, hpoint, except_ok_bind, validatePoint, require_of hlength,
    require_of hfinite]
  have hchecked : (projectPoint point vectors config.numDimensions config.qalsh.numHashTables).forM
      (fun value => requireFinite value "projection value") = .ok () :=
    forM_eq_ok.mpr fun value hvalue => require_of (hprojected value hvalue)
  rw [hchecked]
  rfl

theorem Projectable.projectTables {config : IndexConfig} {vectors : List Binary32}
    {accessor : PointAccessor} (h : Projectable config vectors accessor) :
    ∃ tables, projectTables config vectors accessor = .ok tables := by
  obtain ⟨rows, hrows⟩ := mapM_ok_of_forall fun pointId (hid : pointId ∈ List.range
    config.numPoints) => (h.projectOne (List.mem_range.mp hid)).elim fun _ hrow => ⟨_, hrow.2⟩
  exact ⟨_, by rw [Qalsh.projectTables, hrows]; rfl⟩

/-! ## One point on the line -/

/-- The parameters of an index over a single point of one dimension. -/
def unitConfig : IndexConfig where
  metric := .l2
  numPoints := 1
  numDimensions := 1
  qalsh :=
    { approximationRatio := Binary32.ofMagnitude false 0x40000000
      bucketWidth := one
      errorProbability := Binary32.ofMagnitude false 0x3F000000
      numHashTables := 1
      collisionThreshold := 1
      candidateBudget := 1
      initialRadius := one
      radiusGrowth := Binary32.ofMagnitude false 0x40000000
      scanQuantum := 1 }
  seed := 0
  projectionVectors := [one]
  buildThreads := 1

omit [Platform] in
theorem unitConfig_projectable :
    @Projectable (exactPlatform true) unitConfig [one] (fun _ => .ok [one]) := by
  refine @Projectable.mk (exactPlatform true) _ _ _ (validateConfig_eq_ok.mp (by decide)) rfl
    fun pointId _ => ⟨[one], rfl, rfl, by decide, ?_⟩
  have hprojected : @projectPoint (exactPlatform true) [one] [one] 1 1 = [exactDot [one] [one]] := by
    unfold projectPoint projectFrom projectFrom
    simp [dotGroup, projectionRow]
    rfl
  have hdot : (exactDot [one] [one]).isFinite = true := by decide +kernel
  intro value hvalue
  rw [show unitConfig.numDimensions = 1 from rfl, show unitConfig.qalsh.numHashTables = 1 from rfl,
    hprojected, List.mem_singleton] at hvalue
  rw [hvalue, hdot]

end Qalsh
