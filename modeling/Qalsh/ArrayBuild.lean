/-
  ArrayBuild.lean --- what `SortedArrayIndex::Build` writes.

  Both file formats start with the same header, a table of 64-bit offsets and the
  projection vectors; the data follows at the next multiple of the page size.  A
  sorted-array file then has the entries of its tables one after the other.
-/
import Qalsh.Publish
import Qalsh.SortedArray
import Qalsh.SortTables

set_option autoImplicit false

namespace Qalsh

open Foundation

/-! ## Both formats -/

/-- The checks of the path and the page size. -/
def checkTarget (badPageSize path : String) (pageSize : Nat) : Except Error Unit := do
  require (path ≠ "") "index path must not be empty"
  require (pageSize ≥ 512 ∧ pageSize ≤ maxReasonablePageSize ∧ pageSize % 8 = 0) badPageSize

/-- `roots_offset`, `projections_offset` and `data_offset`. -/
structure MetadataOffsets where
  roots : Nat
  projections : Nat
  data : Nat
  deriving DecidableEq, Repr

def metadataOffsets (tableCount valueCount pageSize : Nat) : Except Error MetadataOffsets := do
  let rootsBytes ← checkedMultiplyOrThrow tableCount 8 "index metadata size overflows"
  let projectionsBytes ← checkedMultiplyOrThrow valueCount 4 "projection metadata size overflows"
  let projectionsOffset ← checkedAddOrThrow fileHeaderSize rootsBytes
    "index metadata offsets overflow"
  let dataUnaligned ← checkedAddOrThrow projectionsOffset projectionsBytes
    "index metadata offsets overflow"
  let dataOffset ← alignUp dataUnaligned pageSize
  return { roots := fileHeaderSize, projections := projectionsOffset, data := dataOffset }

/-- The header of a new file. -/
def headerFor (magic : List UInt8) (config : IndexConfig) (pageSize : Nat)
    (offsets : MetadataOffsets) (pageCount fileSize : Nat) : DiskFileHeader where
  magic := magic
  version := version
  endian := endianMarker
  headerSize := fileHeaderSize
  metric := config.metric.code
  numPoints := config.numPoints
  numDimensions := config.numDimensions
  numHashTables := config.qalsh.numHashTables
  pageSize := pageSize
  seed := config.seed
  collisionThreshold := config.qalsh.collisionThreshold
  scanQuantum := config.qalsh.scanQuantum
  candidateBudget := config.qalsh.candidateBudget
  approximationRatio := config.qalsh.approximationRatio
  bucketWidth := config.qalsh.bucketWidth
  errorProbability := config.qalsh.errorProbability
  initialRadius := config.qalsh.initialRadius
  radiusGrowth := config.qalsh.radiusGrowth
  rootsOffset := offsets.roots
  projectionsOffset := offsets.projections
  dataOffset := offsets.data
  pageCount := pageCount
  fileSize := fileSize

/-- A 64-bit offset or page id. -/
def encodeOffset (offset : Nat) : List UInt8 := encodeLE 8 offset

/-- The pieces both formats write first. -/
def metadataPieces (rootsTooLarge : String) (header : DiskFileHeader) (roots : List Nat)
    (vectors : List Binary32) : List (Except Error (Nat × List UInt8)) :=
  [.ok (0, encodeFileHeader header),
    (do
      let _ ← checkedSize (roots.length * 8) rootsTooLarge
      return (header.rootsOffset, roots.flatMap encodeOffset)),
    (do
      let _ ← checkedSize (vectors.length * 4) "projection metadata is too large"
      return (header.projectionsOffset, vectors.flatMap encodeFloat))]

/-! ## Sorted arrays -/

namespace SortedArrayIndex

/-- One turn of the loop over the table offsets. -/
def placeTable (state : List Nat × Nat) (table : List Entry) : Except Error (List Nat × Nat) := do
  let bytes ← checkedMultiplyOrThrow table.length entrySize "sorted-array table size overflows"
  let next ← checkedAddOrThrow state.2 bytes "sorted-array table offset overflows"
  return (state.1 ++ [state.2], next)

/-- The write of one table. -/
def tablePiece (table : List Entry) (offset : Nat) : Except Error (Nat × List UInt8) := do
  let bytes ← checkedMultiplyOrThrow table.length entrySize "sorted-array table size overflows"
  let _ ← checkedSize bytes "sorted-array table is too large"
  return (offset, table.flatMap encodeEntry)

/-- `Build` from `SortTables` to `mkstemp`. -/
def layoutOf (config : IndexConfig) (pageSize : Nat) (vectors : List Binary32)
    (entries : List (List Entry)) : Except Error FileLayout := do
  let totalEntries ← checkedMultiplyOrThrow config.numPoints config.qalsh.numHashTables
    "sorted-array entry count overflows"
  let entryBytes ← checkedMultiplyOrThrow totalEntries entrySize "sorted-array data size overflows"
  let regionCapacity := leafCapacity pageSize
  require (regionCapacity > 0) "sorted-array region cannot hold an entry"
  let regionsPerTable := (config.numPoints - 1) / regionCapacity + 1
  let regionCount ← checkedMultiplyOrThrow regionsPerTable config.qalsh.numHashTables
    "sorted-array region count overflows"
  let offsets ← metadataOffsets entries.length vectors.length pageSize
  let fileSize ← checkedAddOrThrow offsets.data entryBytes "sorted-array file size overflows"
  let _ ← checkedSize fileSize "sorted-array file is too large for this host"
  require (fileSize ≤ offTMax) "sorted-array file is too large for the host file API"
  let (tableOffsets, tableOffset) ← entries.foldlM placeTable ([], offsets.data)
  require (tableOffset = fileSize) "sorted-array table layout is inconsistent"
  let header := headerFor sortedArrayMagic config pageSize offsets (regionCount + 1) fileSize
  return { fileSize := fileSize
           pieces := metadataPieces "sorted-array table metadata is too large" header tableOffsets
             vectors ++ List.zipWith tablePiece entries tableOffsets }

variable [Platform]

/-- `Build` up to `mkstemp`, under a schedule of its threads. -/
def prepare (scheduler : Scheduler) (path : String) (config : IndexConfig)
    (accessor : Option PointAccessor) (pageSize : Nat) : Except Error FileLayout := do
  let (vectors, pushed) ← pushPoints config accessor (checkTarget
    "sorted-array region size must be a multiple of 8 between 512 bytes and 64 MiB" path pageSize)
  let entries ← scheduler.sortTables config.buildThreads pushed
  layoutOf config pageSize vectors entries

/-- `SortedArrayIndex::Build` -/
def build (scheduler : Scheduler) (path temporaryPath : String) (config : IndexConfig)
    (accessor : Option PointAccessor) (pageSize : Nat) (overwrite : Bool) : Process Error Unit := do
  let layout ← check (prepare scheduler path config accessor pageSize)
  writeFile layout path temporaryPath overwrite

theorem threadsAgree (path : String) (config : IndexConfig) (accessor : Option PointAccessor)
    (pageSize : Nat) :
    ThreadsAgree fun scheduler threads =>
      prepare scheduler path { config with buildThreads := threads } accessor pageSize :=
  ThreadsAgree.of_pushed
    (fun threads => pushPoints { config with buildThreads := threads } accessor (checkTarget
      "sorted-array region size must be a multiple of 8 between 512 bytes and 64 MiB" path pageSize))
    (fun vectors entries => layoutOf config pageSize vectors entries)
    (fun _ hpos hle => pushPoints_threads config accessor _ hpos hle) fun _ _ => rfl

end SortedArrayIndex

end Qalsh
