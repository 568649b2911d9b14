/-
  TreeBuild.lean --- what `BPlusTreeIndex::Build` writes.

  The leaves of a table are cut off its sorted entries and linked while they are pushed.
  Above them, each level is divided as evenly as the capacity of a node allows, until a
  single page is left: the root.  Page ids are positions in one list of pages, and page
  zero stands for no page.
-/
import Qalsh.ArrayBuild
import Qalsh.PageCodec

set_option autoImplicit false

namespace Qalsh.BPlusTreeIndex

open Foundation

/-! ## Leaves -/

/-- `pages`, `level_pages` and `level_keys`. -/
structure Level where
  pages : List Page
  levelPages : List Nat
  levelKeys : List Binary32

/-- A leaf page. -/
def leafOf (previous : Nat) (entries : List Entry) : Page where
  header := { kind := leafPage, count := entries.length, previous := previous, next := 0 }
  entries := entries
  children := []
  separators := []
  firstKey := (entries.headD default).value

def Page.setNext (next : Nat) (page : Page) : Page :=
  { page with header := { page.header with next := next } }

/-- One turn of the loop over the leaves of a table. -/
def addLeaf (level : Level) (entries : List Entry) : Except Error Level := do
  require (entries ≠ []) "cannot build an empty projection table"
  let id := level.pages.length
  let pages := match level.levelPages.getLast? with
    | some previous => level.pages.modify previous (Page.setNext id)
    | none => level.pages
  let page := leafOf (level.levelPages.getLast?.getD 0) entries
  return { pages := pages ++ [page]
           levelPages := level.levelPages ++ [id]
           levelKeys := level.levelKeys ++ [page.firstKey] }

/-- The runs of entries the leaves get. -/
def leafRuns (leafCapacity : Nat) (entries : List Entry) : List (List Entry) :=
  (List.range ((entries.length + leafCapacity - 1) / leafCapacity)).map fun i =>
    (entries.drop (i * leafCapacity)).take leafCapacity

/-! ## Internal nodes -/

/-- How many children each node of the next level gets. -/
def groupSizes (count internalCapacity : Nat) : List Nat :=
  let groupCount := (count + internalCapacity - 1) / internalCapacity
  (List.range groupCount).map fun group =>
    count / groupCount + if group < count % groupCount then 1 else 0

/-- An internal page over some pages of the level below. -/
def nodeOf (children : List Nat) (keys : List Binary32) : Page where
  header := { kind := internalPage, count := children.length, previous := 0, next := 0 }
  entries := []
  children := children
  separators := keys.drop 1
  firstKey := keys.headD Binary32.zero

/-- `pages`, `next_pages`, `next_keys` and `begin`, while a level is grouped. -/
structure Grouping where
  pages : List Page
  nextPages : List Nat
  nextKeys : List Binary32
  start : Nat

/-- One turn of the loop over the groups of a level. -/
def addGroup (level : Level) (grouping : Grouping) (groupSize : Nat) : Grouping :=
  let page := nodeOf ((level.levelPages.drop grouping.start).take groupSize)
    ((level.levelKeys.drop grouping.start).take groupSize)
  { pages := grouping.pages ++ [page]
    nextPages := grouping.nextPages ++ [grouping.pages.length]
    nextKeys := grouping.nextKeys ++ [page.firstKey]
    start := grouping.start + groupSize }

/-- The body of the loop over the levels. -/
def nextLevel (internalCapacity : Nat) (level : Level) : Except Error Level := do
  let count := level.levelPages.length
  let groupCount := (count + internalCapacity - 1) / internalCapacity
  require (count / groupCount ≥ 2) "B+ tree level cannot be grouped without a unary node"
  let grouping := (groupSizes count internalCapacity).foldl (addGroup level)
    { pages := level.pages, nextPages := [], nextKeys := [], start := 0 }
  return { pages := grouping.pages
           levelPages := grouping.nextPages
           levelKeys := grouping.nextKeys }

/-- The loop over the levels; each has at most half the pages of the one below, so the
number of leaves bounds the passes. -/
def buildLevels (internalCapacity : Nat) : (passes : Nat) → Level → Except Error Level
  | 0, level => .ok level
  | passes + 1, level =>
      if level.levelPages.length > 1 then do
        let level ← nextLevel internalCapacity level
        buildLevels internalCapacity passes level
      else .ok level

/-! ## Tables -/

/-- One turn of the loop over the tables; the state is `pages` and `roots`. -/
def addTable (leafCapacity internalCapacity : Nat) (state : List Page × List Nat)
    (entries : List Entry) : Except Error (List Page × List Nat) := do
  let leaves ← (leafRuns leafCapacity entries).foldlM addLeaf
    { pages := state.1, levelPages := [], levelKeys := [] }
  require (leaves.levelPages ≠ []) "cannot build an empty projection table"
  let top ← buildLevels internalCapacity leaves.levelPages.length leaves
  return (top.pages, state.2 ++ [top.levelPages.headD 0])

/-- The loop that computes `pages_per_table`; it ends at a level of one page. -/
def pagesPerTable (internalCapacity : Nat) : (passes count pages : Nat) → Except Error Nat
  | 0, _, _ => .error (.undefined "the loop over the levels of a table does not end")
  | passes + 1, count, pages => do
      let pages ← checkedAddOrThrow pages count "page count overflows"
      if count = 1 then return pages
      pagesPerTable internalCapacity passes
        ((count + internalCapacity - 1) / internalCapacity) pages

/-! ## The file -/

/-- The write of one page. -/
def pagePiece (pageSize dataOffset : Nat) (page : Page) (pageId : Nat) :
    Except Error (Nat × List UInt8) := do
  let bytes ← serializePage page pageSize
  let product ← checkedMultiplyOrThrow pageId pageSize "index page offset overflows"
  let offset ← checkedAddOrThrow dataOffset product "index page offset overflows"
  return (offset, bytes)

/-- `Build` from `SortTables` to `mkstemp`. -/
def layoutOf (config : IndexConfig) (pageSize : Nat) (vectors : List Binary32)
    (entries : List (List Entry)) : Except Error FileLayout := do
  let leafCapacity := leafCapacity pageSize
  let internalCapacity := internalCapacity pageSize
  require (leafCapacity > 0 ∧ internalCapacity ≥ 2) "page size cannot hold a B+ tree node"
  let leafCount := (config.numPoints + leafCapacity - 1) / leafCapacity
  let pagesPerTable ← pagesPerTable internalCapacity (leafCount + 1) leafCount 0
  let product ← checkedMultiplyOrThrow pagesPerTable config.qalsh.numHashTables
    "page count overflows"
  let totalPages ← checkedAddOrThrow product 1 "page count overflows"
  let _ ← checkedSize totalPages "page count is too large"
  let (pages, roots) ← entries.foldlM (addTable leafCapacity internalCapacity) ([default], [])
  let offsets ← metadataOffsets roots.length vectors.length pageSize
  let pageBytes ← checkedMultiplyOrThrow pages.length pageSize "index page layout overflows"
  let fileSize ← checkedAddOrThrow offsets.data pageBytes "index file size overflows"
  let _ ← checkedSize fileSize "index file is too large for this host"
  require (fileSize ≤ offTMax) "index file is too large for the host file API"
  let header := headerFor bPlusMagic config pageSize offsets pages.length fileSize
  return { fileSize := fileSize
           pieces := metadataPieces "root metadata is too large" header roots vectors ++
             (pages.zipIdx.drop 1).map fun page => pagePiece pageSize offsets.data page.1 page.2 }

variable [Platform]

/-- `Build` up to `mkstemp`, under a schedule of its threads. -/
def prepare (scheduler : Scheduler) (path : String) (config : IndexConfig)
    (accessor : Option PointAccessor) (pageSize : Nat) : Except Error FileLayout := do
  let (vectors, pushed) ← pushPoints config accessor (checkTarget
    "page size must be a multiple of 8 between 512 bytes and 64 MiB" path pageSize)
  let entries ← scheduler.sortTables config.buildThreads pushed
  layoutOf config pageSize vectors entries

/-- `BPlusTreeIndex::Build` -/
def build (scheduler : Scheduler) (path temporaryPath : String) (config : IndexConfig)
    (accessor : Option PointAccessor) (pageSize : Nat) (overwrite : Bool) : Process Error Unit := do
  let layout ← check (prepare scheduler path config accessor pageSize)
  writeFile layout path temporaryPath overwrite

theorem threadsAgree (path : String) (config : IndexConfig) (accessor : Option PointAccessor)
    (pageSize : Nat) :
    ThreadsAgree fun scheduler threads =>
      prepare scheduler path { config with buildThreads := threads } accessor pageSize :=
  ThreadsAgree.of_pushed
    (fun threads => pushPoints { config with buildThreads := threads } accessor (checkTarget
      "page size must be a multiple of 8 between 512 bytes and 64 MiB" path pageSize))
    (fun vectors entries => layoutOf config pageSize vectors entries)
    (fun _ hpos hle => pushPoints_threads config accessor _ hpos hle) fun _ _ => rfl

end Qalsh.BPlusTreeIndex
