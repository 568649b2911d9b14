/-
  TreeCheck.lean --- what `Open` checks of a B+ tree file.

  After the header come four passes over the pages: the page headers, a depth-first
  walk of every table's tree, the links between leaves, and the chain of leaves of
  every table.  The walk is an instance of the explorer library; its state is the
  arrays the source keeps per page and per table.
-/
import Mathlib
import Qalsh.Foundation.Explore
import Qalsh.BPlusTree

set_option autoImplicit false

namespace Qalsh

open Foundation

/-! ## Page headers -/

def readPageHeader (page : List UInt8) : Except Error PageHeader := do
  require (page.length ≥ pageHeaderSize) "index page is too small"
  return decodePageHeader page

/-- The size checks of a leaf page. -/
def checkLeafPage (pageSize : Nat) (header : PageHeader) : Except Error Unit := do
  let product ← checkedMultiplyOrThrow header.count entrySize "QALSH leaf page size overflows"
  let bytes ← checkedAddOrThrow pageHeaderSize product "QALSH leaf page size overflows"
  require (header.count > 0 ∧ header.count ≤ leafCapacity pageSize ∧ bytes ≤ pageSize)
    "QALSH leaf page is invalid"

/-- The size checks of an internal page. -/
def checkInternalPage (pageSize : Nat) (header : PageHeader) : Except Error Unit := do
  let childrenBytes ← checkedMultiplyOrThrow header.count 8 "QALSH internal page size overflows"
  let separatorBytes ← (if header.count = 0 then .ok 0 else
    checkedMultiplyOrThrow (header.count - 1) 4 "QALSH internal page size overflows")
  let base ← checkedAddOrThrow pageHeaderSize childrenBytes "QALSH internal page size overflows"
  let bytes ← checkedAddOrThrow base separatorBytes "QALSH internal page size overflows"
  require (header.count ≥ 2 ∧ header.count ≤ internalCapacity pageSize ∧ bytes ≤ pageSize ∧
    header.previous = 0 ∧ header.next = 0) "QALSH internal page is invalid"

/-- The size checks of a page of either kind. -/
def checkPageSize (pageSize : Nat) (header : PageHeader) : Except Error Unit :=
  if header.kind = leafPage then checkLeafPage pageSize header
  else checkInternalPage pageSize header

def checkPageHeader (pageCount pageSize : Nat) (header : PageHeader) : Except Error Unit := do
  require (header.kind = leafPage ∨ header.kind = internalPage)
    "QALSH index contains an invalid page type"
  checkPageSize pageSize header
  require (header.previous = 0 ∨ header.previous < pageCount)
    "QALSH page previous link is out of range"
  require (header.next = 0 ∨ header.next < pageCount) "QALSH page next link is out of range"

/-! ## Leaves -/

/-- What the leaves of the tables have been found to hold. -/
structure LeafMarks where
  leafEntryCounts : Nat → Nat
  pointMarks : Nat → Nat
  tableFirstLeaf : Nat → Nat
  tableLeafCount : Nat → Nat

/-- A point id of a table is marked and counted. -/
def LeafMarks.mark (marks : LeafMarks) (tableId pointId : Nat) : LeafMarks :=
  { marks with
    pointMarks := setAt marks.pointMarks pointId (tableId + 1)
    leafEntryCounts :=
      setAt marks.leafEntryCounts tableId (marks.leafEntryCounts tableId + 1) }

/-- A leaf of a table is counted; one without a left neighbour is the first. -/
def LeafMarks.countLeaf (marks : LeafMarks) (tableId pageId previous : Nat) :
    Except Error LeafMarks := do
  let counted := { marks with
    tableLeafCount := setAt marks.tableLeafCount tableId (marks.tableLeafCount tableId + 1) }
  if previous = 0 then
    require (counted.tableFirstLeaf tableId = 0) "QALSH table has multiple first leaves"
    return { counted with tableFirstLeaf := setAt counted.tableFirstLeaf tableId pageId }
  else return counted

/-- One turn of the loop over the entries of a leaf after the first; `i` is the
position of the entry before. -/
def checkLeafEntry (numPoints tableId : Nat) (page : List UInt8) (header : PageHeader)
    (first : Entry) (state : LeafMarks × Entry) (i : Nat) : Except Error (LeafMarks × Entry) := do
  let entry ← readDiskEntry page header (i + 1)
  require (entry.value.isFinite = true ∧ entry.pointId < numPoints)
    "QALSH leaf contains an invalid entry"
  require (state.2.pointId ≠ entry.pointId ∨ first.value.le entry.value = true)
    "QALSH leaf entries are not ordered"
  let previousEntry ← readDiskEntry page header i
  require (keyLess previousEntry entry = true) "QALSH leaf entries are not strictly ordered"
  require (state.1.pointMarks entry.pointId ≠ tableId + 1)
    "QALSH table contains a duplicate point id"
  return (state.1.mark tableId entry.pointId, entry)

/-- The checks of a leaf; the result adds its first and last entries. -/
def visitLeaf (numPoints tableId pageId : Nat) (page : List UInt8) (header : PageHeader)
    (marks : LeafMarks) : Except Error (LeafMarks × Entry × Entry) := do
  let first ← readDiskEntry page header 0
  require (first.value.isFinite = true) "QALSH leaf contains a non-finite key"
  let marks ← marks.countLeaf tableId pageId header.previous
  require (first.pointId < numPoints) "QALSH leaf contains an invalid point id"
  require (marks.pointMarks first.pointId ≠ tableId + 1)
    "QALSH table contains a duplicate point id"
  let (marks, last) ← (List.range (header.count - 1)).foldlM
    (checkLeafEntry numPoints tableId page header first) (marks.mark tableId first.pointId, first)
  return (marks, first, last)

/-! ## Internal pages -/

/-- `color`, `owner`, `heights`, the first and last keys with their ids, and the
marks of the leaves. -/
structure TreeState where
  /-- 0 unseen, 1 open, 2 closed -/
  color : Nat → Nat
  owner : Nat → Option Nat
  heights : Nat → Nat
  first : Nat → Entry
  last : Nat → Entry
  firstKeyKnown : Nat → Bool
  marks : LeafMarks

def readChildren (pageCount : Nat) (page : List UInt8) (header : PageHeader) :
    Except Error (List Nat) :=
  (List.range header.count).mapM fun i => do
    let child ← readChild page header i
    require (child > 0 ∧ child < pageCount) "QALSH child page id is out of range"
    return child

def readSeparators (page : List UInt8) (header : PageHeader) : Except Error (List Binary32) :=
  (List.range (header.count - 1)).foldlM (fun separators i => do
    let separator ← readSeparator page header i
    require (separator.isFinite = true) "QALSH internal node has a non-finite separator"
    require (∀ last ∈ separators.getLast?, last.le separator = true)
      "QALSH internal separators are not ordered"
    return separators ++ [separator]) []

/-- What the loop over the children of a node has collected. -/
structure ChildRange where
  /-- `child_height`, once it is set -/
  height : Option Nat
  first : Entry
  last : Entry

/-- A child beside its left neighbour; the first child sets the height. -/
def checkSibling (state : TreeState) (previous child : Nat) (range : ChildRange) :
    Except Error ChildRange :=
  match range.height with
  | none => .ok { range with height := some (state.heights child), first := state.first child }
  | some height => do
      require (state.heights child = height)
        "QALSH internal node has children at different heights"
      require (keyLess (state.last previous) (state.first child) = true)
        "QALSH internal child ranges are out of order"
      return range

def checkChild (state : TreeState) (tableId : Nat) (children : List Nat)
    (separators : List Binary32) (range : ChildRange) (i : Nat) : Except Error ChildRange := do
  let child := children.getD i 0
  require (state.color child = 2 ∧ state.owner child = some tableId)
    "QALSH internal child is not reachable exactly once"
  let range ← checkSibling state (children.getD (i - 1) 0) child range
  require (i = 0 ∨ (separators.getD (i - 1) default).eq (state.first child).value = true)
    "QALSH internal separator does not match its child"
  return { range with last := state.last child }

namespace TreeState

/-- A page closed with its keys and height. -/
def close (state : TreeState) (pageId height : Nat) (first last : Entry) : TreeState :=
  { state with
    color := setAt state.color pageId 2
    heights := setAt state.heights pageId height
    first := setAt state.first pageId first
    last := setAt state.last pageId last
    firstKeyKnown := setAt state.firstKeyKnown pageId true }

/-- A page opened by a table. -/
def openPage (state : TreeState) (tableId pageId : Nat) : TreeState :=
  { state with
    color := setAt state.color pageId 1
    owner := setAt state.owner pageId (some tableId) }

end TreeState

/-- The end of a node: its children are compared and the page is closed. -/
def finishPage (tableId : Nat) (state : TreeState) (pageId : Nat) (children : List Nat)
    (separators : List Binary32) : Except Error TreeState := do
  let range ← (List.range children.length).foldlM (checkChild state tableId children separators)
    { height := none, first := default, last := default }
  return state.close pageId (range.height.getD 0 + 1) range.first range.last

def enterLeaf (numPoints tableId pageId : Nat) (page : List UInt8) (header : PageHeader)
    (state : TreeState) : Except Error (TreeState × Option (List Nat × List Binary32)) := do
  let (marks, first, last) ← visitLeaf numPoints tableId pageId page header state.marks
  return ({ state with marks := marks }.close pageId 0 first last, none)

def enterInternal (pageCount : Nat) (page : List UInt8) (header : PageHeader)
    (state : TreeState) : Except Error (TreeState × Option (List Nat × List Binary32)) := do
  let children ← readChildren pageCount page header
  let separators ← readSeparators page header
  return (state, some (children, separators))

namespace BPlusTreeIndex

variable (index : BPlusTreeIndex)

/-- A page seen for the first time. -/
def enterPage (headers : Nat → PageHeader) (tableId : Nat) (state : TreeState) (pageId : Nat) :
    Except Error (TreeState × Option (List Nat × List Binary32)) := do
  let page ← index.readPage pageId
  let header := headers pageId
  if header.kind = leafPage then
    enterLeaf index.metadata.numPoints tableId pageId page header (state.openPage tableId pageId)
  else enterInternal index.pageCount page header (state.openPage tableId pageId)

end BPlusTreeIndex

/-- A child handed out by its parent. -/
def admitChild (state : TreeState) (child : Nat) : Except Error Unit :=
  require (state.color child = 0) "QALSH tree contains a cycle or a shared child page"

/-! ## The walk of one tree -/

/-- The pages that have not been seen. -/
def TreeState.unseen (pageCount : Nat) (state : TreeState) : Nat :=
  ((Finset.range pageCount).filter fun pageId => state.color pageId = 0).card

/-- Only the color of `pageId` differs, and it is not 0. -/
def TreeState.Colors (pageId : Nat) (state state' : TreeState) : Prop :=
  state'.color pageId ≠ 0 ∧ ∀ other, other ≠ pageId → state'.color other = state.color other

theorem TreeState.Colors.keeps {pageId : Nat} {state state' : TreeState}
    (h : state.Colors pageId state') {other : Nat} (ho : state.color other ≠ 0) :
    state'.color other ≠ 0 := by
  by_cases heq : other = pageId
  · rw [heq]
    exact h.1
  · rw [h.2 other heq]
    exact ho

theorem TreeState.Colors.unseen_le {pageId : Nat} {state state' : TreeState}
    (h : state.Colors pageId state') (pageCount : Nat) :
    state'.unseen pageCount ≤ state.unseen pageCount := by
  refine Finset.card_le_card fun other ho => ?_
  simp only [Finset.mem_filter] at ho ⊢
  refine ⟨ho.1, ?_⟩
  by_contra hne
  exact h.keeps hne ho.2

theorem TreeState.Colors.unseen_lt {pageId pageCount : Nat} {state state' : TreeState}
    (h : state.Colors pageId state') (hlt : pageId < pageCount) (h0 : state.color pageId = 0) :
    state'.unseen pageCount < state.unseen pageCount := by
  refine Finset.card_lt_card ((Finset.ssubset_iff_of_subset fun other ho => ?_).mpr
    ⟨pageId, ?_, ?_⟩)
  · simp only [Finset.mem_filter] at ho ⊢
    refine ⟨ho.1, ?_⟩
    by_contra hne
    exact h.keeps hne ho.2
  · simp [hlt, h0]
  · simp [h.1]

theorem TreeState.openPage_colors (state : TreeState) (tableId pageId : Nat) :
    state.Colors pageId (state.openPage tableId pageId) :=
  ⟨by simp [openPage], fun _ h => setAt_other _ _ h⟩

theorem TreeState.close_colors {state state' : TreeState} {pageId : Nat}
    (h : ∀ other, other ≠ pageId → state'.color other = state.color other)
    (height : Nat) (first last : Entry) : state.Colors pageId (state'.close pageId height first last) :=
  ⟨by simp [close], fun other ho => (setAt_other _ _ ho).trans (h other ho)⟩

theorem BPlusTreeIndex.readPage_range {index : BPlusTreeIndex} {pageId : Nat} {page : List UInt8}
    (h : index.readPage pageId = .ok page) : 0 < pageId ∧ pageId < index.pageCount := by
  unfold BPlusTreeIndex.readPage BPlusTreeIndex.pageOffset at h
  simp only [except_bind_eq_ok, require_eq_ok] at h
  obtain ⟨-, ⟨-, hrange, -⟩, -⟩ := h
  exact hrange

theorem BPlusTreeIndex.enterPage_colors {index : BPlusTreeIndex} {headers : Nat → PageHeader}
    {tableId pageId : Nat} {state state' : TreeState} {r : Option (List Nat × List Binary32)}
    (h : index.enterPage headers tableId state pageId = .ok (state', r)) :
    (0 < pageId ∧ pageId < index.pageCount) ∧ state.Colors pageId state' := by
  unfold BPlusTreeIndex.enterPage at h
  rw [except_bind_eq_ok] at h
  obtain ⟨page, hpage, h⟩ := h
  refine ⟨readPage_range hpage, ?_⟩
  simp only at h
  split at h
  · simp only [enterLeaf, except_bind_eq_ok] at h
    obtain ⟨⟨marks, first, last⟩, -, h⟩ := h
    cases h
    exact TreeState.close_colors (fun other ho => setAt_other _ _ ho) 0 first last
  · simp only [enterInternal, except_bind_eq_ok] at h
    obtain ⟨children, -, separators, -, h⟩ := h
    cases h
    exact state.openPage_colors tableId pageId

theorem finishPage_colors {tableId pageId : Nat} {state state' : TreeState} {children : List Nat}
    {separators : List Binary32} (h : finishPage tableId state pageId children separators = .ok state') :
    state.Colors pageId state' := by
  simp only [finishPage, except_bind_eq_ok] at h
  obtain ⟨range, -, h⟩ := h
  cases h
  exact TreeState.close_colors (fun _ _ => rfl) _ _ _

namespace BPlusTreeIndex

variable (index : BPlusTreeIndex)

/-- The walk of the tree of one table. -/
def treeWalk (headers : Nat → PageHeader) (tableId : Nat) :
    Explorer Error TreeState Nat (List Binary32) where
  seen state pageId := decide (state.color pageId ≠ 0)
  enter := index.enterPage headers tableId
  permit := admitChild
  leave := finishPage tableId
  weight := TreeState.unseen index.pageCount
  enter_weight hseen h := by
    obtain ⟨hrange, hcolors⟩ := enterPage_colors h
    exact hcolors.unseen_lt hrange.2 (by simpa using hseen)
  enter_seen h := by
    obtain ⟨-, hcolors⟩ := enterPage_colors h
    exact ⟨by simpa using hcolors.1, fun m hm => by simpa using hcolors.keeps (by simpa using hm)⟩
  permit_seen h := by simpa [admitChild] using h
  leave_weight h := (finishPage_colors h).unseen_le _
  leave_seen h m hm := by simpa using (finishPage_colors h).keeps (by simpa using hm)

/-! ## The passes -/

def loadPageHeader (headers : Nat → PageHeader) (i : Nat) : Except Error (Nat → PageHeader) := do
  let page ← index.readPage (i + 1)
  let header ← readPageHeader page
  checkPageHeader index.pageCount index.metadata.pageSize header
  return setAt headers (i + 1) header

/-- The pass over the headers of the pages 1, 2, .. -/
def loadPageHeaders : Except Error (Nat → PageHeader) :=
  (List.range (index.pageCount - 1)).foldlM index.loadPageHeader fun _ => default

/-- One turn of the loop over the tables: walk its tree and count its entries. -/
def checkTree (headers : Nat → PageHeader) (state : TreeState) (tableId : Nat) :
    Except Error TreeState := do
  let state ← (index.treeWalk headers tableId).run state
    [Frame.fresh (index.roots.getD tableId 0)]
  require (state.marks.leafEntryCounts tableId = index.metadata.numPoints)
    "QALSH table does not contain exactly num_points entries"
  return state

/-- The state before the first tree. -/
def blankState : TreeState where
  color _ := 0
  owner _ := none
  heights _ := 0
  first _ := default
  last _ := default
  firstKeyKnown _ := false
  marks :=
    { leafEntryCounts := fun _ => 0
      pointMarks := fun _ => 0
      tableFirstLeaf := fun _ => 0
      tableLeafCount := fun _ => 0 }

def checkTrees (headers : Nat → PageHeader) : Except Error TreeState :=
  (List.range index.roots.length).foldlM (index.checkTree headers) blankState

/-- A link from a leaf to a neighbour, whose link `back` must return; 0 is no link. -/
def checkLink (headers : Nat → PageHeader) (state : TreeState) (back : PageHeader → Nat)
    (notReciprocal : String) (pageId neighbour : Nat) : Except Error Unit :=
  if neighbour = 0 then .ok ()
  else do
    require ((headers neighbour).kind = leafPage ∧ back (headers neighbour) = pageId) notReciprocal
    require (state.owner neighbour = state.owner pageId)
      "QALSH leaf link crosses projection tables"

/-- The two links of a leaf. -/
def checkLeafLinks (headers : Nat → PageHeader) (state : TreeState) (pageId : Nat) :
    Except Error Unit := do
  checkLink headers state PageHeader.next "QALSH leaf previous link is not reciprocal" pageId
    (headers pageId).previous
  checkLink headers state PageHeader.previous "QALSH leaf next link is not reciprocal" pageId
    (headers pageId).next

/-- The checks of one page after the walks. -/
def checkLinks (headers : Nat → PageHeader) (state : TreeState) (pageId : Nat) :
    Except Error Unit := do
  require (state.color pageId = 2 ∧ state.firstKeyKnown pageId = true)
    "QALSH index contains an unreachable page"
  if (headers pageId).kind = leafPage then checkLeafLinks headers state pageId else return

/-- The loop along the chain of a table.  `steps` is what is left of
`table_leaf_count`; the result is `visited` and the ranks. -/
def walkChain (pageCount : Nat) (headers : Nat → PageHeader) (state : TreeState) (tableId : Nat) :
    (steps current visited : Nat) → (previous : Option Entry) → (ranks : Nat → Nat) →
      Except Error (Nat × (Nat → Nat))
  | steps, current, visited, previous, ranks =>
      if current = 0 then .ok (visited, ranks)
      else do
        require (current < pageCount) "QALSH leaf link is out of range"
        require ((headers current).kind = leafPage ∧ state.owner current = some tableId)
          "QALSH leaf chain is invalid"
        require (∀ last ∈ previous, keyLess last (state.first current) = true)
          "QALSH leaf chain is not sorted"
        match steps with
        | 0 => throw (.invalidArgument "QALSH leaf chain contains a cycle")
        | steps + 1 =>
            require (ranks current = uint64Max) "QALSH leaf belongs to multiple projection chains"
            walkChain pageCount headers state tableId steps (headers current).next (visited + 1)
              (some (state.last current)) (setAt ranks current visited)

def checkChain (headers : Nat → PageHeader) (state : TreeState) (ranks : Nat → Nat)
    (tableId : Nat) : Except Error (Nat → Nat) := do
  require (state.marks.tableFirstLeaf tableId ≠ 0) "QALSH table has no first leaf"
  let (visited, ranks) ← walkChain index.pageCount headers state tableId
    (state.marks.tableLeafCount tableId) (state.marks.tableFirstLeaf tableId) 0 none ranks
  require (visited = state.marks.tableLeafCount tableId)
    "QALSH leaf chain does not cover the table"
  return ranks

/-- All passes over the pages of an index whose header has been accepted. -/
def checkPages : Except Error BPlusTreeIndex := do
  let headers ← index.loadPageHeaders
  let state ← index.checkTrees headers
  (List.range (index.pageCount - 1)).forM fun i => checkLinks headers state (i + 1)
  let ranks ← (List.range index.roots.length).foldlM (index.checkChain headers state)
    fun _ => uint64Max
  return { index with pageHeaders := headers, leafRanks := ranks }

/-! ## `Open` -/

def loadHeader (file : File) (path : String) : Except Error BPlusTreeIndex := do
  let headerBytes ← readAt file fileHeaderSize 0 path
  let header := decodeFileHeader headerBytes
  validateBPlusHeader (.runtimeError ("index has an invalid QALSH magic header: " ++ path))
    "QALSH index file layout is invalid" "QALSH index file is incomplete" header file.length
  let metadata := metadataFromHeader header .bPlusTree
  validateQalsh metadata.qalsh false
  let rootsBytes ← checkedMultiplyOrThrow header.numHashTables 8
    "QALSH index root metadata overflows"
  let projectionValues ← checkedMultiplyOrThrow header.numHashTables header.numDimensions
    "QALSH index projection metadata overflows"
  let projectionBytes ← checkedMultiplyOrThrow projectionValues 4
    "QALSH index projection metadata overflows"
  let rootCount ← checkedSize header.numHashTables "QALSH root count is too large"
  let rootsSize ← checkedSize rootsBytes "QALSH root metadata is too large"
  let rootData ← readAt file rootsSize header.rootsOffset path
  let roots := decodeOffsets rootData rootCount
  roots.forM fun root => require (root > 0 ∧ root < header.pageCount)
    "QALSH index root page is out of range"
  let valueCount ← checkedSize projectionValues "QALSH projection count is too large"
  let projectionSize ← checkedSize projectionBytes "QALSH projection metadata is too large"
  let projectionData ← readAt file projectionSize header.projectionsOffset path
  let projectionVectors := decodeFloats projectionData valueCount
  projectionVectors.forM fun value => requireFinite value "QALSH index projection vector"
  let _ ← checkedSize header.fileSize "QALSH index file is too large for this host"
  require (leafCapacity header.pageSize > 0 ∧ internalCapacity header.pageSize ≥ 2)
    "QALSH index page layout is invalid"
  let _ ← checkedSize header.pageCount "QALSH page count is too large"
  checkPages
    { metadata := metadata
      projectionVectors := projectionVectors
      roots := roots
      pageHeaders := fun _ => default
      leafRanks := fun _ => uint64Max
      dataOffset := header.dataOffset
      pageCount := header.pageCount
      mapping := file }

/-- `Open` on the content of a file. -/
def openFile (file : File) (path : String) : Except Error BPlusTreeIndex := do
  require (file.length ≤ uint64Max) "index file is too large for this host"
  if file.length < fileHeaderSize then
    throw (.runtimeError ("index is missing or truncated: " ++ path))
  let envelope ← readAt file fileHeaderSize 0 path
  validateFileHeaderEnvelope (decodeFileHeader envelope) file.length
  loadHeader file path

end BPlusTreeIndex

end Qalsh
