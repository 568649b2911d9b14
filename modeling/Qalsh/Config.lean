/-
  Config.lean --- parameters, metadata and the projection of points.
-/
import Qalsh.Platform

set_option autoImplicit false

namespace Qalsh

open Foundation

/-! ## Limits -/

def maxReasonablePageSize : Nat := 64 * 1024 * 1024
def maxReasonableHashTables : Nat := 2 ^ 20
def maxReasonableDimensions : Nat := 2 ^ 20
def maxReasonablePoints : Nat := 2 ^ 30

def one : Binary32 := Binary32.ofMagnitude false 0x3F800000

/-! ## Parameters -/

structure QalshParameters where
  approximationRatio : Binary32
  bucketWidth : Binary32
  errorProbability : Binary32
  numHashTables : Nat
  collisionThreshold : Nat
  candidateBudget : Word32
  initialRadius : Binary32
  radiusGrowth : Binary32
  scanQuantum : Word32
  deriving DecidableEq, Repr

structure IndexConfig where
  metric : Metric
  numPoints : Nat
  numDimensions : Nat
  qalsh : QalshParameters
  seed : Word32
  projectionVectors : List Binary32
  buildThreads : Nat
  deriving DecidableEq, Repr

inductive IndexLayout where
  | inMemory
  | bPlusTree
  | sortedArray
  deriving DecidableEq, Repr

structure IndexMetadata where
  metric : Metric
  numPoints : Nat
  numDimensions : Nat
  numHashTables : Nat
  pageSize : Nat
  seed : Word32
  fileSize : Nat
  qalsh : QalshParameters
  layout : IndexLayout
  deriving DecidableEq, Repr

/-- A borrowed view of the coordinates of a point. -/
abbrev PointView : Type := List Binary32

/-- `std::function<PointView(PointId)>` as `Build` calls it. -/
abbrev PointAccessor : Type := Nat → Except Error PointView

def requireFinite (value : Binary32) (name : String) : Except Error Unit :=
  require (value.isFinite = true) (name ++ " must be finite")

def validateQalsh (qalsh : QalshParameters) (requireCollisionThreshold : Bool) :
    Except Error Unit := do
  requireFinite qalsh.approximationRatio "approximation ratio"
  require (one.lt qalsh.approximationRatio = true) "approximation ratio must be greater than one"
  requireFinite qalsh.bucketWidth "bucket width"
  require (Binary32.zero.lt qalsh.bucketWidth = true) "bucket width must be positive"
  require (qalsh.errorProbability.isFinite = true ∧
      Binary32.zero.lt qalsh.errorProbability = true ∧ qalsh.errorProbability.lt one = true)
    "error probability must be in (0, 1)"
  require (qalsh.numHashTables > 0) "the index must contain at least one projection table"
  require (qalsh.candidateBudget.val > 0) "candidate budget must be positive"
  if requireCollisionThreshold then
    require (qalsh.collisionThreshold > 0 ∧ qalsh.collisionThreshold ≤ qalsh.numHashTables)
      "collision threshold must be in the table-count range"
  else
    require (qalsh.collisionThreshold ≤ qalsh.numHashTables)
      "collision threshold exceeds the table count"
  require (qalsh.initialRadius.isFinite = true ∧ Binary32.zero.lt qalsh.initialRadius = true)
    "initial radius must be positive"
  require (qalsh.radiusGrowth.isFinite = true ∧ one.lt qalsh.radiusGrowth = true)
    "radius growth must be greater than one"
  require (qalsh.scanQuantum.val > 0) "scan quantum must be positive"

def validateConfig (config : IndexConfig) : Except Error Unit := do
  require (isValidMetric config.metric = true) "unsupported metric"
  require (config.buildThreads > 0 ∧ config.buildThreads ≤ 1024)
    "build_threads is outside the supported resource bounds"
  require (config.numPoints > 0 ∧ config.numPoints ≤ maxReasonablePoints)
    "num_points is outside the supported resource bounds"
  require (config.numDimensions > 0 ∧ config.numDimensions ≤ maxReasonableDimensions)
    "num_dimensions is outside the supported resource bounds"
  require (config.qalsh.numHashTables > 0 ∧
      config.qalsh.numHashTables ≤ maxReasonableHashTables)
    "num_hash_tables is outside the supported resource bounds"
  validateQalsh config.qalsh false
  let expectedProjectionValues ← checkedMultiplyOrThrow config.qalsh.numHashTables
    config.numDimensions "projection-vector count overflows"
  let expectedSize ← checkedSize expectedProjectionValues "projection-vector count is too large"
  if config.projectionVectors ≠ [] then
    require (config.projectionVectors.length = expectedSize)
      "projection_vectors has the wrong size"
    config.projectionVectors.forM fun value =>
      requireFinite value "projection vector coordinate"

/-- What a successful `validateQalsh` establishes. -/
structure ValidQalsh (qalsh : QalshParameters) : Prop where
  ratio_finite : qalsh.approximationRatio.isFinite = true
  ratio : one.lt qalsh.approximationRatio = true
  width_finite : qalsh.bucketWidth.isFinite = true
  width : Binary32.zero.lt qalsh.bucketWidth = true
  error : qalsh.errorProbability.isFinite = true ∧
    Binary32.zero.lt qalsh.errorProbability = true ∧ qalsh.errorProbability.lt one = true
  tables : 0 < qalsh.numHashTables
  budget : 0 < qalsh.candidateBudget.val
  threshold : qalsh.collisionThreshold ≤ qalsh.numHashTables
  radius_finite : qalsh.initialRadius.isFinite = true
  radius : Binary32.zero.lt qalsh.initialRadius = true
  growth_finite : qalsh.radiusGrowth.isFinite = true
  growth : one.lt qalsh.radiusGrowth = true
  quantum : 0 < qalsh.scanQuantum.val

theorem validateQalsh_eq_ok {qalsh : QalshParameters} :
    validateQalsh qalsh false = .ok () ↔ ValidQalsh qalsh := by
  simp only [validateQalsh, requireFinite, except_unit_bind_eq_ok, require_eq_ok,
    Bool.false_eq_true, if_false]
  constructor
  · rintro ⟨h1, h2, h3, h4, h5, h6, h7, h8, h9, h10, h11⟩
    exact ⟨h1, h2, h3, h4, h5, h6, h7, h8, h9.1, h9.2, h10.1, h10.2, h11⟩
  · rintro ⟨h1, h2, h3, h4, h5, h6, h7, h8, h9, h9', h10, h10', h11⟩
    exact ⟨h1, h2, h3, h4, h5, h6, h7, h8, ⟨h9, h9'⟩, ⟨h10, h10'⟩, h11⟩

/-- What a successful `validateConfig` establishes. -/
structure ValidConfig (config : IndexConfig) : Prop where
  metric : isValidMetric config.metric = true
  threads : 0 < config.buildThreads ∧ config.buildThreads ≤ 1024
  points : 0 < config.numPoints ∧ config.numPoints ≤ maxReasonablePoints
  dimensions : 0 < config.numDimensions ∧ config.numDimensions ≤ maxReasonableDimensions
  tables : 0 < config.qalsh.numHashTables ∧ config.qalsh.numHashTables ≤ maxReasonableHashTables
  qalsh : ValidQalsh config.qalsh
  vectors : config.projectionVectors ≠ [] →
    config.projectionVectors.length = config.qalsh.numHashTables * config.numDimensions ∧
      ∀ value ∈ config.projectionVectors, value.isFinite = true

theorem tables_mul_dimensions_le {tables dimensions : Nat}
    (ht : tables ≤ maxReasonableHashTables) (hd : dimensions ≤ maxReasonableDimensions) :
    tables * dimensions ≤ 2 ^ 40 :=
  (Nat.mul_le_mul ht hd).trans (by decide)

theorem validateConfig_eq_ok {config : IndexConfig} :
    validateConfig config = .ok () ↔ ValidConfig config := by
  constructor
  · intro h
    simp only [validateConfig, except_unit_bind_eq_ok, require_eq_ok, validateQalsh_eq_ok] at h
    obtain ⟨h1, h2, h3, h4, h5, h6, h⟩ := h
    simp only [except_bind_eq_ok] at h
    obtain ⟨values, hvalues, size, hsize, hv⟩ := h
    obtain ⟨rfl, -⟩ := checkedMultiplyOrThrow_eq_ok hvalues
    obtain ⟨rfl, -⟩ := checkedSize_eq_ok.mp hsize
    refine ⟨h1, h2, h3, h4, h5, h6, fun hne => ?_⟩
    rw [if_pos hne, except_unit_bind_eq_ok] at hv
    obtain ⟨hlen, hfin⟩ := hv
    exact ⟨require_eq_ok.mp hlen, fun v hmem => require_eq_ok.mp (forM_eq_ok.mp hfin v hmem)⟩
  · rintro ⟨h1, h2, h3, h4, h5, h6, hv⟩
    have hmul := tables_mul_dimensions_le h5.2 h4.2
    have hmax : config.qalsh.numHashTables * config.numDimensions ≤ uint64Max :=
      hmul.trans (by decide)
    simp only [validateConfig, except_unit_bind_eq_ok, require_eq_ok, validateQalsh_eq_ok]
    refine ⟨h1, h2, h3, h4, h5, h6, ?_⟩
    rw [checkedMultiplyOrThrow_of_le hmax, except_ok_bind, checkedSize_eq_ok.mpr ⟨rfl, hmax⟩,
      except_ok_bind]
    split
    · rename_i hne
      obtain ⟨hlen, hfin⟩ := hv hne
      rw [except_unit_bind_eq_ok]
      exact ⟨require_of hlen, forM_eq_ok.mpr fun v hmem => require_of (hfin v hmem)⟩
    · rfl

/-! ## Projection vectors and projected points -/

def makeProjectionVectors [Platform] (config : IndexConfig) : Except Error (List Binary32) := do
  if config.projectionVectors ≠ [] then return config.projectionVectors
  let expectedValues ← checkedMultiplyOrThrow config.qalsh.numHashTables config.numDimensions
    "projection-vector count overflows"
  let expectedSize ← checkedSize expectedValues "projection-vector count is too large"
  match config.metric with
  | .invalid _ => throw (.invalidArgument "unsupported metric")
  | metric =>
      let vectors := (List.range expectedSize).map (Platform.sample metric config.seed.val)
      vectors.forM fun value => requireFinite value "generated projection vector coordinate"
      return vectors

def metadataFromConfig (config : IndexConfig) (pageSize : Nat) (layout : IndexLayout) :
    IndexMetadata where
  metric := config.metric
  numPoints := config.numPoints
  numDimensions := config.numDimensions
  numHashTables := config.qalsh.numHashTables
  pageSize := pageSize
  seed := config.seed
  fileSize := 0
  qalsh := config.qalsh
  layout := layout

/-- The metadata of an index that some `Build` or `Open` produced. -/
structure ValidMetadata (metadata : IndexMetadata) : Prop where
  metric : isValidMetric metadata.metric = true
  points : 0 < metadata.numPoints ∧ metadata.numPoints ≤ maxReasonablePoints
  dimensions : 0 < metadata.numDimensions ∧ metadata.numDimensions ≤ maxReasonableDimensions
  tables : 0 < metadata.numHashTables ∧ metadata.numHashTables ≤ maxReasonableHashTables
  tables_eq : metadata.qalsh.numHashTables = metadata.numHashTables
  qalsh : ValidQalsh metadata.qalsh

/-- The projection vectors of an index: one finite row for each table. -/
def ValidVectors (metadata : IndexMetadata) (vectors : List Binary32) : Prop :=
  vectors.length = metadata.numHashTables * metadata.numDimensions ∧
    ∀ value ∈ vectors, value.isFinite = true

theorem metadataFromConfig_valid {config : IndexConfig} (h : ValidConfig config) (pageSize : Nat)
    (layout : IndexLayout) : ValidMetadata (metadataFromConfig config pageSize layout) :=
  ⟨h.metric, h.points, h.dimensions, h.tables, rfl, h.qalsh⟩

def validatePoint (point : PointView) (dimensions : Nat) (pointId : Nat) :
    Except Error Unit := do
  require (point.length = dimensions)
    ("point accessor returned the wrong dimensionality for point " ++ toString pointId)
  require (point.all Binary32.isFinite = true) "point accessor returned a non-finite coordinate"

/-- The projection vector of one table. -/
def projectionRow (vectors : List Binary32) (dimensions table : Nat) : List Binary32 :=
  (vectors.drop (table * dimensions)).take dimensions

/-- `DotGroup<Count>` on the tables from `table` on. -/
def dotGroup [Platform] (count : Nat) (point : PointView) (vectors : List Binary32)
    (dimensions table : Nat) : List Binary32 :=
  (List.range count).map fun lane =>
    Platform.dot count point (projectionRow vectors dimensions (table + lane))

/-- The groups of four tables, then the remaining tables one by one. -/
def projectFrom [Platform] (point : PointView) (vectors : List Binary32) (dimensions size : Nat)
    (table : Nat) : List Binary32 :=
  if table + 4 ≤ size then
    dotGroup 4 point vectors dimensions table ++
      projectFrom point vectors dimensions size (table + 4)
  else if table < size then
    dotGroup 1 point vectors dimensions table ++
      projectFrom point vectors dimensions size (table + 1)
  else []
termination_by size - table

/-- `ProjectPoint` with an output of `tables` values. -/
def projectPoint [Platform] (point : PointView) (vectors : List Binary32)
    (dimensions tables : Nat) : List Binary32 :=
  projectFrom point vectors dimensions tables 0

theorem length_projectFrom [Platform] (point : PointView) (vectors : List Binary32)
    (dimensions size table : Nat) :
    (projectFrom point vectors dimensions size table).length = size - table := by
  fun_induction projectFrom point vectors dimensions size table with
  | case1 table h ih =>
      simp only [List.length_append, dotGroup, List.length_map, List.length_range, ih]
      omega
  | case2 table h h' ih =>
      simp only [List.length_append, dotGroup, List.length_map, List.length_range, ih]
      omega
  | case3 table h h' =>
      simp only [List.length_nil]
      omega

@[simp] theorem length_projectPoint [Platform] (point : PointView) (vectors : List Binary32)
    (dimensions tables : Nat) :
    (projectPoint point vectors dimensions tables).length = tables := by
  simp [projectPoint, length_projectFrom]

theorem makeProjectionVectors_spec [Platform] {config : IndexConfig} {vectors : List Binary32}
    (hconfig : ValidConfig config) (h : makeProjectionVectors config = .ok vectors) :
    vectors.length = config.qalsh.numHashTables * config.numDimensions ∧
      ∀ value ∈ vectors, value.isFinite = true := by
  unfold makeProjectionVectors at h
  by_cases hne : config.projectionVectors ≠ []
  · simp only [if_pos hne, except_pure, Except.ok.injEq] at h
    subst h
    exact hconfig.vectors hne
  · simp only [if_neg hne, except_bind_eq_ok] at h
    obtain ⟨values, hvalues, size, hsize, h⟩ := h
    obtain ⟨rfl, -⟩ := checkedMultiplyOrThrow_eq_ok hvalues
    obtain ⟨rfl, -⟩ := checkedSize_eq_ok.mp hsize
    split at h
    · cases h
    · rw [except_unit_bind_eq_ok] at h
      obtain ⟨hfin, hv⟩ := h
      cases hv
      exact ⟨by simp, fun v hmem => require_eq_ok.mp (forM_eq_ok.mp hfin v hmem)⟩

end Qalsh
