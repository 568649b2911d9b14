/-
  SortedArray.lean --- the sorted-array file: validation, cursors and scans.

  A file that passes `load_header` stores, for every table, `num_points` entries in
  strict order that mention every point once.  The scanner is the one over an array,
  offering the rest of a region at a time in range scope.
-/
import Qalsh.Format
import Qalsh.InMemory

set_option autoImplicit false

namespace Qalsh

open Foundation

structure SortedArrayIndex where
  metadata : IndexMetadata
  projectionVectors : List Binary32
  tableOffsets : List Nat
  dataOffset : Nat
  mapping : File

/-! ## Opening a file -/

/-- `static_cast<Metric>` -/
def metricOf (code : Nat) : Metric :=
  if code = Metric.l1.code then .l1 else if code = Metric.l2.code then .l2 else .invalid code

/-- The metadata both loaders take from a header. -/
def metadataFromHeader (header : DiskFileHeader) (layout : IndexLayout) : IndexMetadata where
  metric := metricOf header.metric
  numPoints := header.numPoints
  numDimensions := header.numDimensions
  numHashTables := header.numHashTables
  pageSize := header.pageSize
  seed := header.seed
  fileSize := header.fileSize
  qalsh :=
    { approximationRatio := header.approximationRatio
      bucketWidth := header.bucketWidth
      errorProbability := header.errorProbability
      numHashTables := header.numHashTables
      collisionThreshold := header.collisionThreshold
      candidateBudget := header.candidateBudget
      initialRadius := header.initialRadius
      radiusGrowth := header.radiusGrowth
      scanQuantum := header.scanQuantum }
  layout := layout

theorem metadataFromHeader_valid {header : DiskFileHeader} (h : ValidHeader header)
    (layout : IndexLayout) (hqalsh : ValidQalsh (metadataFromHeader header layout).qalsh) :
    ValidMetadata (metadataFromHeader header layout) := by
  refine ⟨?_, h.points, h.dimensions, h.tables, rfl, hqalsh⟩
  show isValidMetric (metricOf header.metric) = true
  rcases h.metric with hm | hm <;> rw [hm] <;> decide

/-- A vector of 64-bit values. -/
def decodeOffsets (bytes : List UInt8) (count : Nat) : List Nat :=
  (List.range count).map fun i => readLE bytes (8 * i) 8

/-- A vector of floats. -/
def decodeFloats (bytes : List UInt8) (count : Nat) : List Binary32 :=
  (List.range count).map fun i => readFloat bytes (4 * i)

/-- `marks` with one entry replaced. -/
def setAt {α : Type} (marks : Nat → α) (i : Nat) (value : α) : Nat → α :=
  fun j => if j = i then value else marks j

@[simp] theorem setAt_same {α : Type} (marks : Nat → α) (i : Nat) (value : α) :
    setAt marks i value i = value := if_pos rfl

theorem setAt_other {α : Type} (marks : Nat → α) {i j : Nat} (value : α) (h : j ≠ i) :
    setAt marks i value j = marks j := if_neg h

namespace SortedArrayIndex

/-- One turn of the entry loop of a table; the state is `point_marks` and `previous`. -/
def checkEntry (numPoints tableBytes tableId : Nat) (data : List UInt8)
    (state : (Nat → Nat) × Entry) (entryIndex : Nat) : Except Error ((Nat → Nat) × Entry) := do
  let entry ← readArrayEntry data tableBytes entryIndex
  require (entry.value.isFinite = true ∧ entry.pointId < numPoints)
    "QALSH sorted-array table contains an invalid entry"
  if entryIndex ≠ 0 then
    require (keyLess state.2 entry = true)
      "QALSH sorted-array table entries are not strictly ordered"
  require (state.1 entry.pointId ≠ tableId + 1)
    "QALSH sorted-array table contains a duplicate point id"
  return (setAt state.1 entry.pointId (tableId + 1), entry)

/-- One turn of the table loop; the state is `expected_offset` and `point_marks`. -/
def checkTable (mapping : File) (header : DiskFileHeader) (tableOffsets : List Nat)
    (tableBytes : Nat) (state : Nat × (Nat → Nat)) (tableId : Nat) :
    Except Error (Nat × (Nat → Nat)) := do
  let tableOffset := tableOffsets.getD tableId 0
  require (tableOffset = state.1) "QALSH sorted-array table offsets are not contiguous"
  let tableEnd ← checkedAddOrThrow tableOffset tableBytes
    "QALSH sorted-array table extent overflows"
  require (tableEnd ≤ header.fileSize) "QALSH sorted-array table exceeds the index file"
  let offset ← checkedSize tableOffset "QALSH sorted-array table offset is too large"
  let bytes ← checkedSize tableBytes "QALSH sorted-array table is too large"
  let (marks, _) ← (List.range header.numPoints).foldlM
    (checkEntry header.numPoints bytes tableId (mapping.drop offset)) (state.2, default)
  (List.range header.numPoints).forM fun pointId =>
    require (marks pointId = tableId + 1)
      "QALSH sorted-array table does not contain every point exactly once"
  return (tableEnd, marks)

def loadHeader (file : File) (path : String) : Except Error SortedArrayIndex := do
  let headerBytes ← readAt file fileHeaderSize 0 path
  let header := decodeFileHeader headerBytes
  validateSortedArrayFileHeaderEnvelope header file.length
  let metadata := metadataFromHeader header .sortedArray
  validateQalsh metadata.qalsh false
  let rootsBytes ← checkedMultiplyOrThrow header.numHashTables 8
    "QALSH sorted-array table metadata overflows"
  let projectionValues ← checkedMultiplyOrThrow header.numHashTables header.numDimensions
    "QALSH sorted-array projection metadata overflows"
  let projectionBytes ← checkedMultiplyOrThrow projectionValues 4
    "QALSH sorted-array projection metadata overflows"
  let tableCount ← checkedSize header.numHashTables "QALSH sorted-array table count is too large"
  let rootsSize ← checkedSize rootsBytes "QALSH sorted-array table metadata is too large"
  let offsetBytes ← readAt file rootsSize header.rootsOffset path
  let tableOffsets := decodeOffsets offsetBytes tableCount
  let valueCount ← checkedSize projectionValues "QALSH sorted-array projection count is too large"
  let projectionSize ← checkedSize projectionBytes
    "QALSH sorted-array projection metadata is too large"
  let projectionData ← readAt file projectionSize header.projectionsOffset path
  let projectionVectors := decodeFloats projectionData valueCount
  projectionVectors.forM fun value =>
    requireFinite value "QALSH sorted-array projection vector"
  let tableBytes ← checkedMultiplyOrThrow header.numPoints entrySize
    "QALSH sorted-array table size overflows"
  let _ ← checkedSize header.numPoints "QALSH point count is too large"
  let (expectedOffset, _) ← (List.range header.numHashTables).foldlM
    (checkTable file header tableOffsets tableBytes) (header.dataOffset, fun _ => 0)
  require (expectedOffset = header.fileSize)
    "QALSH sorted-array file contains an unexpected data tail"
  return { metadata := metadata
           projectionVectors := projectionVectors
           tableOffsets := tableOffsets
           dataOffset := header.dataOffset
           mapping := file }

/-- `Open` on the content of a file. -/
def openFile (file : File) (path : String) : Except Error SortedArrayIndex := do
  require (file.length ≤ uint64Max) "sorted-array index is too large for this host"
  if file.length < fileHeaderSize then
    throw (.runtimeError ("sorted-array index is missing or truncated: " ++ path))
  let envelope ← readAt file fileHeaderSize 0 path
  validateSortedArrayFileHeaderEnvelope (decodeFileHeader envelope) file.length
  loadHeader file path

/-! ## Cursors and scans -/

variable {R : Type} [RadiusArithmetic R] {σ β : Type}

def owns (self : Nat) : Cursor R → Bool
  | .array cursor => cursor.owner == some self
  | _ => false

def resetCursor (index : SortedArrayIndex) (self tableId : Nat) (queryValue : Binary32) :
    EStateM Error (Cursor R) Unit := do
  liftResult (require (tableId < index.tableOffsets.length)
    "projection table id is out of range")
  liftResult (requireFinite queryValue "projection query value")
  if owns self (← get) then
    let count := index.metadata.numPoints
    let tableBytes ← liftResult (checkedMultiplyOrThrow count entrySize
      "QALSH sorted-array table size overflows")
    let offset ← liftResult (checkedSize (index.tableOffsets.getD tableId 0)
      "QALSH sorted-array table offset is too large")
    let position ← liftResult (bisectM (fun middle => do
      let bytes ← checkedSize tableBytes "QALSH sorted-array table is too large"
      let entry ← readArrayEntry (index.mapping.drop offset) bytes middle
      return entry.value.lt queryValue) 0 count)
    set (Cursor.array (PositionCursor.place (some self) tableId queryValue position count) : Cursor R)
  else throw (.invalidArgument "cursor does not belong to this sorted-array index")

/-- The scanner over a table of `count` entries stored in `data`. -/
def scanner (data : List UInt8) (count regionCapacity : Nat) (scope : ScanScope) :
    Scanner (PositionCursor R) :=
  positionScanner (fun i => decodeEntry data (i * entrySize)) count
    (fun index =>
      if scope = .range then index - index / regionCapacity * regionCapacity + 1 else index + 1)
    (fun index =>
      if scope = .range then min count (index / regionCapacity * regionCapacity + regionCapacity) - index
      else count - index)
    (decide (scope = .range))

def scanImpl [Platform] (index : SortedArrayIndex) (slot : Lens σ (Cursor R)) (bound : R)
    (maxEntries : Nat) (scope : ScanScope) (cursor : Cursor R)
    (visitor : β → HitRange → EStateM Error σ β) (acc : β) :
    EStateM Error σ (ScanReport × β) := do
  liftResult (require (scope.isValid = true) "invalid projection scan scope")
  match cursor with
  | .array cursor =>
      match index.tableOffsets[cursor.tableId]? with
      | some tableOffset =>
          let offset ← liftResult (checkedSize tableOffset
            "QALSH sorted-array table offset is too large")
          let regionCapacity := leafCapacity index.metadata.pageSize
          liftResult (require (regionCapacity > 0)
            "QALSH sorted-array region cannot hold an entry")
          let sides ← liftResult (resetBoundedSides bound cursor.sides)
          (scanner (index.mapping.drop offset) index.metadata.numPoints regionCapacity scope).call
            Cursor.array Cursor.array slot bound maxEntries visitor scope cursor.tableId
            (cursor.withSides sides) acc
      | none => throw (.undefined "table_offsets_[cursor->table_id]")
  | _ => throw (.undefined "static_cast<ArrayCursor*>")

def scan [Platform] (index : SortedArrayIndex) (self : Nat) (slot : Lens σ (Cursor R)) (bound : R)
    (maxEntries : Nat) (callback : Option (β → ProjectionHit → EStateM Error σ β))
    (scope : ScanScope) (acc : β) : EStateM Error σ (ScanReport × β) :=
  scanChecked (owns self) "cursor does not belong to this sorted-array index"
    (index.scanImpl slot bound maxEntries scope) slot bound maxEntries callback acc

/-! ## What an open index holds -/

/-- The index stores the table of `t`. -/
structure Stores {points : Nat} (index : SortedArrayIndex) (t : QueryTable points) : Prop where
  points_eq : index.metadata.numPoints = points
  bytes_le : points * entrySize ≤ uint64Max
  capacity : 0 < leafCapacity index.metadata.pageSize
  offset : ∃ offset, index.tableOffsets[t.tableId]? = some offset ∧ offset ≤ uint64Max ∧
    ∀ i < points, decodeEntry (index.mapping.drop offset) (i * entrySize) = t.table.entryAt i

/-- What the entry loop has established after `count` entries. -/
structure EntriesChecked (numPoints tag : Nat) (f : Nat → Entry) (count : Nat)
    (state : (Nat → Nat) × Entry) : Prop where
  finite : ∀ i < count, (f i).value.isFinite = true
  ids : ∀ i < count, (f i).pointId < numPoints
  adjacent : ∀ i, i + 1 < count → keyLess (f i) (f (i + 1)) = true
  distinct : ∀ i j, i < j → j < count → (f i).pointId ≠ (f j).pointId
  marked : ∀ i < count, state.1 (f i).pointId = tag
  previous : 0 < count → state.2 = f (count - 1)
  bounded : ∀ id, state.1 id ≤ tag

theorem checkEntry_step {numPoints tableBytes tableId i : Nat} {data : List UInt8}
    {s s' : (Nat → Nat) × Entry} (hbytes : i * entrySize + entrySize ≤ tableBytes)
    (hmax : tableBytes ≤ uint64Max)
    (h : EntriesChecked numPoints (tableId + 1) (fun i => decodeEntry data (i * entrySize)) i s)
    (hs : checkEntry numPoints tableBytes tableId data s i = .ok s') :
    EntriesChecked numPoints (tableId + 1) (fun i => decodeEntry data (i * entrySize)) (i + 1) s' := by
  obtain ⟨marks, previous⟩ := s
  simp only [checkEntry, readArrayEntry_of hbytes hmax, except_ok_bind, except_unit_bind_eq_ok,
    require_eq_ok] at hs
  obtain ⟨⟨hfin, hid⟩, hs⟩ := hs
  have hsplit : (i ≠ 0 → keyLess previous (decodeEntry data (i * entrySize)) = true) ∧
      marks (decodeEntry data (i * entrySize)).pointId ≠ tableId + 1 ∧
      s' = (setAt marks (decodeEntry data (i * entrySize)).pointId (tableId + 1),
        decodeEntry data (i * entrySize)) := by
    by_cases h0 : i = 0
    · simp only [h0, ne_eq, not_true_eq_false, if_false, except_unit_bind_eq_ok,
        require_eq_ok] at hs ⊢
      obtain ⟨hmark, hend⟩ := hs
      cases hend
      exact ⟨fun h => h.elim, hmark, rfl⟩
    · simp only [h0, ne_eq, not_false_eq_true, if_true, except_unit_bind_eq_ok,
        require_eq_ok] at hs ⊢
      obtain ⟨hless, hmark, hend⟩ := hs
      cases hend
      exact ⟨fun _ => hless, hmark, rfl⟩
  obtain ⟨hless, hmark, rfl⟩ := hsplit
  have hle : ∀ j < i + 1, j < i ∨ j = i := fun j hj => by omega
  refine ⟨fun j hj => ?_, fun j hj => ?_, fun j hj => ?_, fun j k hjk hk => ?_, fun j hj => ?_,
    fun _ => rfl, fun id => ?_⟩
  · rcases hle j hj with hlt | rfl
    · exact h.finite j hlt
    · exact hfin
  · rcases hle j hj with hlt | rfl
    · exact h.ids j hlt
    · exact hid
  · rcases hle (j + 1) hj with hlt | heq
    · exact h.adjacent j hlt
    · have hprev := h.previous (by omega)
      have hless := hless (by omega)
      subst heq
      have hprev : previous = decodeEntry data (j * entrySize) := hprev
      rwa [hprev] at hless
  · rcases hle k hk with hlt | rfl
    · exact h.distinct j k hjk hlt
    · intro heq
      exact hmark (heq ▸ h.marked j hjk)
  · show setAt marks _ _ _ = _
    by_cases heq : (decodeEntry data (j * entrySize)).pointId =
        (decodeEntry data (i * entrySize)).pointId
    · rw [heq, setAt_same]
    · rw [setAt_other _ _ heq]
      rcases hle j hj with hlt | rfl
      · exact h.marked j hlt
      · exact absurd rfl heq
  · show setAt marks _ _ _ ≤ _
    unfold setAt
    split
    · exact le_rfl
    · exact h.bounded id

/-- A table that passes `checkTable` is a sorted table. -/
theorem checkTable_spec {mapping : File} {header : DiskFileHeader} {tableOffsets : List Nat}
    {tableBytes tableId : Nat} {s s' : Nat × (Nat → Nat)}
    (hbytes : tableBytes = header.numPoints * entrySize) (hmax : tableBytes ≤ uint64Max)
    (hmarks : ∀ id, s.2 id ≤ tableId)
    (h : checkTable mapping header tableOffsets tableBytes s tableId = .ok s') :
    (∀ id, s'.2 id ≤ tableId + 1) ∧ tableOffsets.getD tableId 0 ≤ uint64Max ∧
      ∃ table : SortedTable header.numPoints, ∀ i < header.numPoints,
        decodeEntry (mapping.drop (tableOffsets.getD tableId 0)) (i * entrySize) =
          table.entryAt i := by
  unfold checkTable at h
  simp only [except_bind_eq_ok] at h
  obtain ⟨_, -, tableEnd, -, _, -, offset, hoffset, bytes, hbytes', ⟨marks, previous⟩, hentries, _,
    -, hend⟩ := h
  obtain ⟨rfl, hoffsetMax⟩ := checkedSize_eq_ok.mp hoffset
  obtain ⟨rfl, -⟩ := checkedSize_eq_ok.mp hbytes'
  cases hend
  have hchecked := foldlM_range_invariant
    (P := EntriesChecked header.numPoints (tableId + 1)
      (fun i => decodeEntry (mapping.drop (tableOffsets.getD tableId 0)) (i * entrySize)))
    ⟨fun i hi => by omega, fun i hi => by omega, fun i hi => by omega, fun i j _ hj => by omega,
      fun i hi => by omega, fun h => by omega, fun id => (hmarks id).trans (Nat.le_succ _)⟩
    (fun i s s' hi hs hstep => checkEntry_step (by
      rw [hbytes, ← Nat.succ_mul]
      exact Nat.mul_le_mul_right _ hi) hmax hs hstep) hentries
  refine ⟨hchecked.bounded, hoffsetMax, SortedTable.ofSequence _ _ hchecked.finite hchecked.ids
    hchecked.adjacent hchecked.distinct, fun i hi => ?_⟩
  rw [SortedTable.entryAt_ofSequence hi]

/-- What a file that `load_header` accepts holds. -/
theorem loadHeader_spec {file : File} {path : String} {index : SortedArrayIndex}
    (h : loadHeader file path = .ok index) :
    ValidMetadata index.metadata ∧ ValidVectors index.metadata index.projectionVectors ∧
      ∃ tables : List (SortedTable index.metadata.numPoints),
        tables.length = index.metadata.numHashTables ∧ 0 < leafCapacity index.metadata.pageSize ∧
        ∀ t : QueryTable index.metadata.numPoints, tables[t.tableId]? = some t.table →
          index.Stores t := by
  simp only [loadHeader, except_bind_eq_ok] at h
  obtain ⟨headerBytes, -, _, henvelope, _, hqalsh, rootsBytes, hroots, values, hvalues, valueBytes,
    hvalueBytes, tableCount, htableCount, rootsSize, hrootsSize, offsetBytes, -, valueCount,
    hvalueCount, projectionSize, -, projectionData, -, u, hvectors, tableBytes, htableBytes, _, -,
    ⟨expected, marks⟩, hloop, _, -, hindex⟩ := h
  generalize decodeFileHeader headerBytes = header at *
  obtain ⟨rfl, -⟩ := checkedMultiplyOrThrow_eq_ok hvalues
  obtain ⟨rfl, -⟩ := checkedSize_eq_ok.mp htableCount
  obtain ⟨rfl, -⟩ := checkedSize_eq_ok.mp hvalueCount
  obtain ⟨rfl, hmax⟩ := checkedMultiplyOrThrow_eq_ok htableBytes
  cases hindex
  have hcapacity : 0 < leafCapacity header.pageSize ∧ ValidHeader header := by
    simp only [validateSortedArrayFileHeaderEnvelope, except_bind_eq_ok, require_eq_ok] at henvelope
    obtain ⟨_, hfields, _, -, _, -, _, hcap, _, -, _, -, _, -, _, -, hoffsets⟩ := henvelope
    exact ⟨hcap, validateHeader_valid hfields hoffsets⟩
  refine ⟨metadataFromHeader_valid hcapacity.2 _ (validateQalsh_eq_ok.mp hqalsh),
    ⟨by simp [decodeFloats, metadataFromHeader], fun v hv =>
      require_eq_ok.mp (forM_eq_ok.mp hvectors v hv)⟩, ?_⟩
  -- the tables, one for each turn of the table loop
  have htables := foldlM_range_invariant
    (P := fun count (state : Nat × (Nat → Nat)) => (∀ id, state.2 id ≤ count) ∧
      ∃ tables : List (SortedTable header.numPoints), tables.length = count ∧
        ∀ i (hi : i < tables.length), (decodeOffsets offsetBytes header.numHashTables).getD i 0 ≤
          uint64Max ∧ ∀ k < header.numPoints,
          decodeEntry (file.drop ((decodeOffsets offsetBytes header.numHashTables).getD i 0))
            (k * entrySize) = tables[i].entryAt k)
    ⟨fun _ => le_rfl, [], rfl, fun i hi => by simp at hi⟩
    (fun i s s' hi hs hstep => by
      obtain ⟨hmarks, tables, hlen, hall⟩ := hs
      obtain ⟨hmarks', hoff, table, htable⟩ := checkTable_spec rfl hmax hmarks hstep
      refine ⟨hmarks', tables ++ [table], by simp [hlen], fun j hj => ?_⟩
      rcases Nat.lt_or_ge j tables.length with hlt | hge
      · rw [List.getElem_append_left hlt]
        exact hall j hlt
      · have hji : j = i := by
          simp only [List.length_append, List.length_singleton] at hj
          omega
        subst hji
        rw [List.getElem_append_right hge]
        simp only [hlen, Nat.sub_self, List.getElem_singleton]
        exact ⟨hoff, htable⟩) hloop
  obtain ⟨-, tables, hlen, hall⟩ := htables
  have hcount : (decodeOffsets offsetBytes header.numHashTables).length = tables.length := by
    simp [decodeOffsets, hlen]
  refine ⟨tables, hlen, hcapacity.1, fun t ht => ⟨rfl, hmax, hcapacity.1, ?_⟩⟩
  obtain ⟨hlt, hget⟩ := List.getElem?_eq_some_iff.mp ht
  obtain ⟨hoff, hentries⟩ := hall t.tableId hlt
  refine ⟨_, ?_, hoff, fun k hk => (hentries k hk).trans
    (congrArg (fun table : SortedTable header.numPoints => table.entryAt k) hget)⟩
  rw [List.getD_eq_getElem?_getD, List.getElem?_eq_getElem (hcount ▸ hlt)]
  rfl

theorem openFile_spec {file : File} {path : String} {index : SortedArrayIndex}
    (h : openFile file path = .ok index) : loadHeader file path = .ok index := by
  unfold openFile at h
  rw [except_bind_eq_ok] at h
  obtain ⟨_, -, h⟩ := h
  split at h
  · cases h
  · simp only [except_bind_eq_ok] at h
    obtain ⟨_, -, _, -, h⟩ := h
    exact h

/-! ## What its operations do -/

theorem resetCursor_spec {points : Nat} {index : SortedArrayIndex} {self : Nat}
    {t : QueryTable points} (h : index.Stores t) {cursor : Cursor R}
    (hown : owns self cursor = true) :
    ∃ p : PositionCursor R, p.Holds (some self) t (Outward.start t.split) ∧
      index.resetCursor self t.tableId t.queryValue cursor = .ok () (.array p) := by
  obtain ⟨offset, hoffset, hoffsetMax, hentries⟩ := h.offset
  obtain ⟨hlt, hget⟩ := List.getElem?_eq_some_iff.mp hoffset
  have hgetD : index.tableOffsets.getD t.tableId 0 = offset := by
    rw [List.getD_eq_getElem?_getD, hoffset]
    rfl
  have hbisect : bisectM (fun middle => do
      let bytes ← checkedSize (points * entrySize) "QALSH sorted-array table is too large"
      let entry ← readArrayEntry (index.mapping.drop offset) bytes middle
      return entry.value.lt t.queryValue) 0 points = .ok t.split := by
    rw [bisectM_eq (q := fun i => (t.table.entryAt i).value.lt t.queryValue), bisect_eq_leading
      (t.table.below_closed t.query_finite) 0 points (Nat.zero_le _) t.split_le le_rfl]
    · rfl
    · intro i _ hi
      have hfit : i * entrySize + entrySize ≤ points * entrySize := by
        rw [← Nat.succ_mul]
        exact Nat.mul_le_mul_right _ hi
      rw [checkedSize_eq_ok.mpr ⟨rfl, h.bytes_le⟩, except_ok_bind,
        readArrayEntry_of hfit h.bytes_le, except_ok_bind, hentries i hi]
      rfl
  refine ⟨_, PositionCursor.place_holds (some self) t, ?_⟩
  have hpoints := h.points_eq
  simp only [resetCursor, requireFinite, bind_apply, require_of hlt, require_of t.query_finite,
    liftResult_ok, get_apply, hown, if_true, hpoints, checkedMultiplyOrThrow_of_le h.bytes_le, hgetD,
    checkedSize_eq_ok.mpr ⟨rfl, hoffsetMax⟩, hbisect, set_apply]

/-- The extent of one call: the rest of a region in range scope. -/
def extent (index : SortedArrayIndex) (points : Nat) (h : 0 < leafCapacity index.metadata.pageSize)
    (scope : ScanScope) : Extent points :=
  if scope = .range then Extent.blocks points (leafCapacity index.metadata.pageSize) h
  else Extent.whole points

omit [RadiusArithmetic R] in
theorem scanner_traverses {points : Nat} {index : SortedArrayIndex} {t : QueryTable points}
    {data : List UInt8} (hcapacity : 0 < leafCapacity index.metadata.pageSize)
    (hentries : ∀ i < points, decodeEntry data (i * entrySize) = t.table.entryAt i)
    (owner : Option Nat) (scope : ScanScope) :
    (scanner data points (leafCapacity index.metadata.pageSize) scope).Traverses t
      (index.extent points hcapacity scope) (decide (scope = .range))
      (PositionCursor.On owner t) (PositionCursor.On owner t) (PositionCursor.On owner t)
      (PositionCursor.view (R := R) points) := by
  refine positionScanner_traverses hentries (fun i hi => ?_) (fun i hi => ?_) (fun h => h)
    (fun h => Or.inl h)
  · unfold extent
    by_cases hs : scope = .range
    · simp only [hs, if_true, Extent.blocks, Nat.add_sub_cancel, Nat.add_eq_zero_iff, one_ne_zero,
        and_false, if_false]
    · simp only [hs, if_false, Extent.whole]
  · unfold extent
    by_cases hs : scope = .range
    · simp only [hs, if_true, Extent.blocks, hi]
    · simp only [hs, if_false, Extent.whole]

theorem scanImpl_spec [Platform] {points : Nat} {index : SortedArrayIndex} {t : QueryTable points}
    (h : index.Stores t) {owner : Option Nat} {scope : ScanScope} (hvalid : scope.isValid = true)
    (slot : Lens σ (Cursor R)) {bound : ScanBound R} (maxEntries : Nat)
    (visitor : β → HitRange → EStateM Error σ β) {p : PositionCursor R}
    {o : Outward (ScanBound R)} (hp : p.Holds owner t o) (hbound : o.Admits t.windows bound)
    {step : OutwardStep (ScanBound R)}
    (hstep : step = (o.raise t.windows.le bound).consume (t.windows.inside bound)
      (index.extent points h.capacity scope) (decide (scope = .range)) maxEntries) :
    CallSpec t step (o.raise t.windows.le bound) visitor
      (index.scanImpl slot bound.1 maxEntries scope (.array p) visitor) slot
      (fun c => ∃ q, c = .array q ∧ q.Holds owner t step.cursor)
      (fun c => ∃ q, c = .array q ∧ q.On owner t) := by
  obtain ⟨offset, hoffset, hoffsetMax, hentries⟩ := h.offset
  have hsides := hp.sides_eq
  have hraised : (p.withSides (sidesOf (o.raise t.windows.le bound))).Holds owner t
      (o.raise t.windows.le bound) := hp.withSides (by simp) (by simp)
  have hcall : index.scanImpl slot bound.1 maxEntries scope (.array p) visitor =
      (scanner (index.mapping.drop offset) points (leafCapacity index.metadata.pageSize) scope).call
        Cursor.array Cursor.array slot bound.1 maxEntries visitor
        scope t.tableId (p.withSides (sidesOf (o.raise t.windows.le bound))) := by
    funext acc s
    have htable : index.tableOffsets[p.tableId]? = some offset := by
      rw [hp.good.table]
      exact hoffset
    simp only [scanImpl, bind_apply, require_of hvalid, liftResult_ok, htable,
      checkedSize_eq_ok.mpr ⟨rfl, hoffsetMax⟩, require_of h.capacity, hsides,
      resetBoundedSides_eq t hbound, h.points_eq]
    rw [hp.good.table]
  rw [hcall]
  have hext : callExtent (index.extent points h.capacity scope) (decide (scope = .range)) =
      index.extent points h.capacity scope := by
    unfold callExtent extent
    by_cases hs : scope = .range <;> simp [hs]
  have hspec := (scanner_traverses h.capacity hentries owner scope).call_spec hvalid rfl
    Cursor.array Cursor.array slot bound maxEntries visitor hraised
  rw [hext, ← hstep] at hspec
  exact hspec

end SortedArrayIndex

end Qalsh
