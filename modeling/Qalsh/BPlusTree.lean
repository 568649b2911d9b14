/-
  BPlusTree.lean --- cursors and scans of a B+ tree file.

  `reset_cursor` descends from the root of a table to the leaf around the query;
  a scan then walks the chain of leaves in both directions, one page at a time.
  The file is mapped before anything else is read, so pages are slices of it.
-/
import Qalsh.Foundation.Blocks
import Qalsh.SortedArray

set_option autoImplicit false

namespace Qalsh

open Foundation

structure BPlusTreeIndex where
  metadata : IndexMetadata
  projectionVectors : List Binary32
  roots : List Nat
  /-- `page_headers_`, by page id -/
  pageHeaders : Nat → PageHeader
  /-- `leaf_ranks_`, by page id -/
  leafRanks : Nat → Nat
  dataOffset : Nat
  pageCount : Nat
  mapping : File

def DiskCursor.sides {R : Type} (cursor : DiskCursor R) : BoundedSides R where
  lastBound := cursor.lastBound
  leftBlocked := cursor.leftBlocked
  rightBlocked := cursor.rightBlocked

def DiskCursor.withSides {R : Type} (cursor : DiskCursor R) (sides : BoundedSides R) :
    DiskCursor R :=
  { cursor with
    lastBound := sides.lastBound
    leftBlocked := sides.leftBlocked
    rightBlocked := sides.rightBlocked }

namespace BPlusTreeIndex

/-! ## Pages -/

/-- The offset of a page, with the checks every access makes. -/
def pageOffset (index : BPlusTreeIndex) (outOfRange overflows exceeds : String) (pageId : Nat) :
    Except Error Nat := do
  require (pageId > 0 ∧ pageId < index.pageCount) outOfRange
  let product ← checkedMultiplyOrThrow pageId index.metadata.pageSize overflows
  let offset ← checkedAddOrThrow index.dataOffset product overflows
  require (offset ≤ index.mapping.length ∧
    index.metadata.pageSize ≤ index.mapping.length - offset) exceeds
  return offset

/-- The bytes of the page at an offset. -/
def pageAt (index : BPlusTreeIndex) (offset : Nat) : List UInt8 :=
  slice index.mapping offset index.metadata.pageSize

def readPage (index : BPlusTreeIndex) (pageId : Nat) : Except Error (List UInt8) := do
  let offset ← index.pageOffset "QALSH page id is out of range" "QALSH page offset overflows"
    "QALSH page exceeds the index file" pageId
  return index.pageAt offset

/-! ## `reset_cursor` -/

variable {R : Type} [RadiusArithmetic R] {σ β : Type}

def owns (self : Nat) : Cursor R → Bool
  | .disk cursor => cursor.owner == some self
  | _ => false

/-- `load_page` of `reset_cursor`. -/
def loadPage (index : BPlusTreeIndex) (pageId : Nat) : Except Error (List UInt8) := do
  let offset ← index.pageOffset "QALSH cursor page is out of range"
    "QALSH cursor page offset overflows" "QALSH cursor page exceeds the index file" pageId
  return index.pageAt offset

/-- The loop over the separators of an internal page, from `childIndex` on. -/
def selectChild (page : List UInt8) (header : PageHeader) (queryValue : Binary32) :
    (steps childIndex : Nat) → Except Error Nat
  | 0, childIndex => .ok childIndex
  | steps + 1, childIndex =>
      if childIndex + 1 < header.count then do
        let separator ← readSeparator page header childIndex
        if separator.lt queryValue then selectChild page header queryValue steps (childIndex + 1)
        else .ok childIndex
      else .ok childIndex

/-- The left side of a cursor placed at entry `lo` of a leaf. -/
def placeLeft (index : BPlusTreeIndex) (currentPage lo : Nat) (header : PageHeader)
    (cursor : DiskCursor R) : Except Error (DiskCursor R) :=
  if lo > 0 then
    .ok { cursor with
      leftPage := currentPage
      leftLeafRank := index.leafRanks currentPage
      leftIndex := lo - 1
      leftActive := true }
  else if header.previous ≠ 0 then do
    let _ ← index.loadPage header.previous
    let previousHeader := index.pageHeaders header.previous
    require (previousHeader.kind = leafPage ∧ previousHeader.count > 0)
      "QALSH leaf previous link is invalid"
    return { cursor with
      leftPage := header.previous
      leftLeafRank := index.leafRanks header.previous
      leftIndex := previousHeader.count - 1
      leftActive := true }
  else .ok cursor

/-- The right side of a cursor placed at entry `lo` of a leaf. -/
def placeRight (index : BPlusTreeIndex) (currentPage lo : Nat) (header : PageHeader)
    (cursor : DiskCursor R) : DiskCursor R :=
  if lo < header.count then
    { cursor with
      rightPage := currentPage
      rightLeafRank := index.leafRanks currentPage
      rightIndex := lo
      rightActive := true }
  else if header.next ≠ 0 then
    { cursor with
      rightPage := header.next
      rightLeafRank := index.leafRanks header.next
      rightIndex := 0
      rightActive := true }
  else cursor

/-- The descent from `currentPage`; `steps` is what is left of `page_count_` steps. -/
def descend (index : BPlusTreeIndex) (queryValue : Binary32) (cursor : DiskCursor R) :
    (steps currentPage : Nat) → Except Error (DiskCursor R)
  | 0, _ => .error (.invalidArgument "QALSH tree descent encountered a cycle")
  | steps + 1, currentPage => do
      let page ← index.loadPage currentPage
      let header := index.pageHeaders currentPage
      if header.kind = leafPage then
        require (header.count > 0) "QALSH cursor reached an empty leaf"
        let lo ← bisectM (fun middle => do
          let entry ← readDiskEntry page header middle
          return entry.value.lt queryValue) 0 header.count
        let cursor ← index.placeLeft currentPage lo header cursor
        return index.placeRight currentPage lo header cursor
      else
        require (header.kind = internalPage ∧ header.count ≥ 2)
          "QALSH tree contains an invalid internal node"
        let childIndex ← selectChild page header queryValue header.count 0
        let child ← readChild page header childIndex
        require (child > 0 ∧ child < index.pageCount) "QALSH child page id is out of range"
        descend index queryValue cursor steps child

def resetCursor (index : BPlusTreeIndex) (self tableId : Nat) (queryValue : Binary32) :
    EStateM Error (Cursor R) Unit := do
  liftResult (require (tableId < index.roots.length) "projection table id is out of range")
  liftResult (requireFinite queryValue "projection query value")
  if owns self (← get) then
    let blank : DiskCursor R :=
      { DiskCursor.blank (some self) with tableId := tableId, queryValue := queryValue }
    set (Cursor.disk blank : Cursor R)
    let cursor ← liftResult
      (index.descend queryValue blank index.pageCount (index.roots.getD tableId 0))
    set (Cursor.disk cursor : Cursor R)
  else throw (.invalidArgument "cursor does not belong to this B+ tree index")

/-! ## `scan_impl` -/

/-- The local state of a scan: the cursor it will leave and the page it has loaded. -/
structure Position (R : Type) where
  cursor : DiskCursor R
  /-- the mapping offset of `page_view` -/
  pageView : Nat
  loadedPage : Nat
  loaded : Bool

/-- `load_page` of `scan_impl`; the cursor keeps the page it loaded last. -/
def scanLoadPage (index : BPlusTreeIndex) (pageId : Nat) (position : Position R) :
    Except Error (Position R) := do
  require (pageId > 0 ∧ pageId < index.pageCount) "QALSH cursor page is out of range"
  if position.loaded = true ∧ position.loadedPage = pageId then return position
  if position.cursor.cachedPage = pageId then
    return { position with
      pageView := position.cursor.cachedPageData.getD 0
      loadedPage := pageId
      loaded := true }
  let offset ← index.pageOffset "QALSH cursor page is out of range"
    "QALSH scan page offset overflows" "QALSH scan page exceeds the index file" pageId
  return { cursor :=
             { position.cursor with cachedPage := pageId, cachedPageData := some offset }
           pageView := offset
           loadedPage := pageId
           loaded := true }

/-- The entry area of the loaded page, in strides. -/
def pageEntry (index : BPlusTreeIndex) (pageView : Nat) (i : Nat) : Entry :=
  decodeEntry (index.pageAt pageView) (pageHeaderSize + i * entrySize)

/-- The loop of `scan_left`. -/
def leftLoop (index : BPlusTreeIndex) (scope : ScanScope) : SideLoop (Position R) where
  active position := position.cursor.leftActive
  blocked position := position.cursor.leftBlocked
  available remaining position := min remaining (position.cursor.leftIndex + 1)
  range available position :=
    { entryAt := index.pageEntry position.pageView
      first := position.cursor.leftIndex
      count := available
      reverse := true
      tableId := position.cursor.tableId
      queryValue := position.cursor.queryValue }
  setBlocked blocked position :=
    { position with cursor := { position.cursor with leftBlocked := blocked } }
  advance count _ position :=
    let header := index.pageHeaders position.loadedPage
    if count ≤ position.cursor.leftIndex then
      .ok ({ position with
        cursor := { position.cursor with leftIndex := position.cursor.leftIndex - count } }, false)
    else if header.previous ≠ 0 then do
      let position ← index.scanLoadPage header.previous
        { position with cursor := { position.cursor with
          leftPage := header.previous
          leftLeafRank := index.leafRanks header.previous } }
      let previousHeader := index.pageHeaders position.loadedPage
      require (previousHeader.kind = leafPage ∧ previousHeader.count > 0)
        "QALSH left leaf link is invalid"
      return ({ position with
        cursor := { position.cursor with leftIndex := previousHeader.count - 1 } },
        decide (scope = .range))
    else
      .ok ({ position with cursor := { position.cursor with leftActive := false } }, false)

/-- The loop of `scan_right`. -/
def rightLoop (index : BPlusTreeIndex) (scope : ScanScope) : SideLoop (Position R) where
  active position := position.cursor.rightActive
  blocked position := position.cursor.rightBlocked
  available remaining position :=
    min remaining ((index.pageHeaders position.loadedPage).count - position.cursor.rightIndex)
  range available position :=
    { entryAt := index.pageEntry position.pageView
      first := position.cursor.rightIndex
      count := available
      reverse := false
      tableId := position.cursor.tableId
      queryValue := position.cursor.queryValue }
  setBlocked blocked position :=
    { position with cursor := { position.cursor with rightBlocked := blocked } }
  advance count _ position :=
    let header := index.pageHeaders position.loadedPage
    if count < header.count - position.cursor.rightIndex then
      .ok ({ position with
        cursor := { position.cursor with rightIndex := position.cursor.rightIndex + count } }, false)
    else if header.next ≠ 0 then do
      let position ← index.scanLoadPage header.next
        { position with cursor := { position.cursor with
          rightPage := header.next
          rightLeafRank := index.leafRanks header.next
          rightIndex := 0 } }
      require ((index.pageHeaders position.loadedPage).kind = leafPage ∧
        (index.pageHeaders position.loadedPage).count > 0) "QALSH right leaf link is invalid"
      return (position, decide (scope = .range))
    else
      .ok ({ position with cursor := { position.cursor with rightActive := false } }, false)

def enterLeft (index : BPlusTreeIndex) (position : Position R) : Except Error (Position R) := do
  let position ← index.scanLoadPage position.cursor.leftPage position
  let header := index.pageHeaders position.loadedPage
  require (header.kind = leafPage ∧ position.cursor.leftIndex < header.count)
    "QALSH left cursor is invalid"
  return position

def enterRight (index : BPlusTreeIndex) (position : Position R) : Except Error (Position R) := do
  let position ← index.scanLoadPage position.cursor.rightPage position
  let header := index.pageHeaders position.loadedPage
  require (header.kind = leafPage ∧ position.cursor.rightIndex < header.count)
    "QALSH right cursor is invalid"
  return position

def scanner (index : BPlusTreeIndex) (scope : ScanScope) : Scanner (Position R) where
  left := index.leftLoop scope
  right := index.rightLoop scope
  enterLeft := index.enterLeft
  enterRight := index.enterRight

/-- What a scan stores in the cursor while it runs: the raised bound, the reopened
sides and the page it keeps; the position is stored at the end. -/
def parkedCursor (cursor : DiskCursor R) (position : Position R) : Cursor R :=
  .disk { cursor with
    cachedPage := position.cursor.cachedPage
    cachedPageData := position.cursor.cachedPageData }

def scanImpl [Platform] (index : BPlusTreeIndex) (slot : Lens σ (Cursor R)) (bound : R)
    (maxEntries : Nat) (scope : ScanScope) (cursor : Cursor R)
    (visitor : β → HitRange → EStateM Error σ β) (acc : β) :
    EStateM Error σ (ScanReport × β) := do
  liftResult (require (scope.isValid = true) "invalid projection scan scope")
  match cursor with
  | .disk cursor =>
      let sides ← liftResult (resetBoundedSides bound cursor.sides)
      let raised := cursor.withSides sides
      (index.scanner scope).call (parkedCursor raised) (fun position => .disk position.cursor) slot
        bound maxEntries visitor scope raised.tableId
        { cursor := raised, pageView := 0, loadedPage := 0, loaded := false } acc
  | _ => throw (.undefined "static_cast<DiskCursor*>")

def scan [Platform] (index : BPlusTreeIndex) (self : Nat) (slot : Lens σ (Cursor R)) (bound : R)
    (maxEntries : Nat) (callback : Option (β → ProjectionHit → EStateM Error σ β))
    (scope : ScanScope) (acc : β) : EStateM Error σ (ScanReport × β) :=
  scanChecked (owns self) "cursor does not belong to this B+ tree index"
    (index.scanImpl slot bound maxEntries scope) slot bound maxEntries callback acc

end BPlusTreeIndex

end Qalsh
