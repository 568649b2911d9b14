/-
  Index.lean --- the built-in indexes behind one interface.

  `BuiltInIndex` dispatches to the in-memory index, the B+ tree file and the sorted
  array file.  What a caller may rely on is `Backing`: some sorted tables, the
  extents of ranged calls, and cursors that stand for outward cursors on these
  tables.  Every index that `Build` or `Open` accepted has one.
-/
import Qalsh.InMemory
import Qalsh.PageScan
import Qalsh.TreeSound

set_option autoImplicit false

namespace Qalsh

open Foundation

variable {R : Type} [RadiusArithmetic R] {σ β : Type}

/-! ## Dispatch -/

inductive Backend where
  | memory (index : InMemoryIndex)
  | bPlusTree (index : BPlusTreeIndex)
  | sortedArray (index : SortedArrayIndex)

/-- A built-in index object; its address is what cursors remember as their owner. -/
structure BuiltInIndex where
  address : Nat
  backend : Backend

namespace BuiltInIndex

def metadata (index : BuiltInIndex) : IndexMetadata :=
  match index.backend with
  | .memory index => index.metadata
  | .bPlusTree index => index.metadata
  | .sortedArray index => index.metadata

def projectionVectors (index : BuiltInIndex) : List Binary32 :=
  match index.backend with
  | .memory index => index.projectionVectors
  | .bPlusTree index => index.projectionVectors
  | .sortedArray index => index.projectionVectors

def owns (index : BuiltInIndex) (cursor : Cursor R) : Bool :=
  match index.backend with
  | .memory _ => InMemoryIndex.owns index.address cursor
  | .bPlusTree _ => BPlusTreeIndex.owns index.address cursor
  | .sortedArray _ => SortedArrayIndex.owns index.address cursor

/-- The cursor `make_cursor` allocates before it resets it. -/
def blankCursor (index : BuiltInIndex) : Cursor R :=
  match index.backend with
  | .memory _ => .memory (PositionCursor.blank (some index.address))
  | .bPlusTree _ => .disk (DiskCursor.blank (some index.address))
  | .sortedArray _ => .array (PositionCursor.blank (some index.address))

def resetCursor (index : BuiltInIndex) (tableId : Nat) (queryValue : Binary32) :
    EStateM Error (Cursor R) Unit :=
  match index.backend with
  | .memory backend => backend.resetCursor index.address tableId queryValue
  | .bPlusTree backend => backend.resetCursor index.address tableId queryValue
  | .sortedArray backend => backend.resetCursor index.address tableId queryValue

def makeCursor (index : BuiltInIndex) (tableId : Nat) (queryValue : Binary32) :
    Except Error (Cursor R) :=
  match index.resetCursor tableId queryValue index.blankCursor with
  | .ok _ cursor => .ok cursor
  | .error e _ => .error e

def scanImpl [Platform] (index : BuiltInIndex) (slot : Lens σ (Cursor R)) (bound : R)
    (maxEntries : Nat) (scope : ScanScope) (cursor : Cursor R)
    (visitor : β → HitRange → EStateM Error σ β) (acc : β) :
    EStateM Error σ (ScanReport × β) :=
  match index.backend with
  | .memory backend => backend.scanImpl slot bound maxEntries scope cursor visitor acc
  | .bPlusTree backend => backend.scanImpl slot bound maxEntries scope cursor visitor acc
  | .sortedArray backend => backend.scanImpl slot bound maxEntries scope cursor visitor acc

/-- The public `scan`. -/
def scan [Platform] (index : BuiltInIndex) (slot : Lens σ (Cursor R)) (bound : R)
    (maxEntries : Nat) (callback : Option (β → ProjectionHit → EStateM Error σ β))
    (scope : ScanScope) (acc : β) : EStateM Error σ (ScanReport × β) :=
  match index.backend with
  | .memory backend => backend.scan index.address slot bound maxEntries callback scope acc
  | .bPlusTree backend => backend.scan index.address slot bound maxEntries callback scope acc
  | .sortedArray backend => backend.scan index.address slot bound maxEntries callback scope acc

end BuiltInIndex

/-- The indexes some `Build` or `Open` returned. -/
inductive Backend.Accepted [Platform] : Backend → Prop
  | memory {config : IndexConfig} {accessor : Option PointAccessor} {index : InMemoryIndex} :
      InMemoryIndex.build config accessor = .ok index → Accepted (.memory index)
  | bPlusTree {file : File} {path : String} {index : BPlusTreeIndex} :
      BPlusTreeIndex.openFile file path = .ok index → Accepted (.bPlusTree index)
  | sortedArray {file : File} {path : String} {index : SortedArrayIndex} :
      SortedArrayIndex.openFile file path = .ok index → Accepted (.sortedArray index)

/-! ## What a caller may rely on -/

/-- The tables of an index and where its ranged calls end. -/
structure Tables (points : Nat) where
  tables : List (SortedTable points)
  extent : Nat → Extent points

/-- A table of the list, asked with a query value. -/
def Tables.Has {points : Nat} (content : Tables points) (t : QueryTable points) : Prop :=
  content.tables[t.tableId]? = some t.table

/-- An index that serves some tables: which of its cursors stand for which outward
cursors, and that its operations keep this correspondence. -/
structure Backing (R : Type) [RadiusArithmetic R] [Platform] (index : BuiltInIndex)
    (content : Tables index.metadata.numPoints) : Type 1 where
  metadata_valid : ValidMetadata index.metadata
  vectors_valid : ValidVectors index.metadata index.projectionVectors
  tables_length : content.tables.length = index.metadata.numHashTables
  Holds : QueryTable index.metadata.numPoints → Outward (ScanBound R) → Cursor R → Prop
  owns_of_holds : ∀ {t o cursor}, Holds t o cursor → index.owns cursor = true
  reset : ∀ {t : QueryTable index.metadata.numPoints}, content.Has t → ∀ {cursor : Cursor R},
    index.owns cursor = true → ∃ placed, Holds t (Outward.start t.split) placed ∧
      index.resetCursor t.tableId t.queryValue cursor = .ok () placed
  scan : ∀ {t : QueryTable index.metadata.numPoints}, content.Has t → ∀ {σ β : Type}
    {scope : ScanScope} (_ : scope.isValid = true) (slot : Lens σ (Cursor R))
    (request : OutwardCall (ScanBound R)) (_ : request.ranged = decide (scope = .range))
    (visitor : β → HitRange → EStateM Error σ β) {o : Outward (ScanBound R)} {cursor : Cursor R},
    Holds t o cursor → o.Admits t.windows request.bound →
      CallSpec t (o.call t.windows (content.extent t.tableId) request) o visitor
        (index.scanImpl slot request.bound.1 request.budget scope cursor visitor) slot
        (Holds t (o.call t.windows (content.extent t.tableId) request).cursor)
        (fun parked => index.owns parked = true)

omit [RadiusArithmetic R] in
theorem BuiltInIndex.owns_blankCursor (index : BuiltInIndex) :
    index.owns (index.blankCursor : Cursor R) = true := by
  unfold owns blankCursor
  cases index.backend <;>
    simp [InMemoryIndex.owns, BPlusTreeIndex.owns, SortedArrayIndex.owns, PositionCursor.blank,
      DiskCursor.blank]

theorem CallSpec.positions_raise {points : Nat} {t : QueryTable points}
    {step : OutwardStep (ScanBound R)} {o : Outward (ScanBound R)} {bound : ScanBound R}
    {visitor : β → HitRange → EStateM Error σ β}
    {call : β → EStateM Error σ (ScanReport × β)} {slot : Lens σ (Cursor R)}
    {After Parked : Cursor R → Prop}
    (h : CallSpec t step (o.raise t.windows.le bound) visitor call slot After Parked) :
    CallSpec t step o visitor call slot After Parked := by
  unfold CallSpec at h ⊢
  rwa [Outward.positions_raise] at h

section Backings

variable [Platform]

def InMemoryIndex.content (index : InMemoryIndex)
    (tables : List (SortedTable index.metadata.numPoints)) : Tables index.metadata.numPoints where
  tables := tables
  extent _ := Extent.whole _

theorem InMemoryIndex.backing (address : Nat) {index : InMemoryIndex}
    {tables : List (SortedTable index.metadata.numPoints)} (hmetadata : ValidMetadata index.metadata)
    (hvectors : ValidVectors index.metadata index.projectionVectors)
    (hlength : tables.length = index.metadata.numHashTables)
    (htables : index.tables = tables.map SortedTable.entries) :
    Nonempty (Backing R ⟨address, .memory index⟩ (index.content tables)) := by
  have hstores : ∀ t : QueryTable index.metadata.numPoints, (index.content tables).Has t →
      index.Stores t := by
    intro t ht
    have ht : tables[t.tableId]? = some t.table := ht
    simp [Stores, htables, List.getElem?_map, ht]
  refine ⟨⟨hmetadata, hvectors, hlength,
    fun t o cursor => ∃ p, cursor = .memory p ∧ PositionCursor.Holds (some address) t o p,
    ?_, ?_, ?_⟩⟩
  · rintro t o _ ⟨p, rfl, hp⟩
    simp [BuiltInIndex.owns, owns, hp.good.owner_eq]
  · intro t ht cursor hown
    obtain ⟨p, hp, hreset⟩ := resetCursor_spec (hstores t ht) hown
    exact ⟨_, ⟨p, rfl, hp⟩, hreset⟩
  · rintro t ht σ β scope hvalid slot request hranged visitor o _ ⟨p, rfl, hp⟩ hadmits
    refine (CallSpec.positions_raise (scanImpl_spec (hstores t ht) hvalid slot request.budget visitor hp
      hadmits ?_)).mono (fun _ hc => hc) ?_
    · unfold Outward.call
      rw [hranged]
      exact congrArg (fun ext => Outward.consume _ ext _ _ _) (callExtent_whole _)
    · rintro _ ⟨q, rfl, hq⟩
      simp [BuiltInIndex.owns, owns, hq.owner_eq]

/-- The ranged extents of a sorted array file are its regions. -/
def SortedArrayIndex.content (index : SortedArrayIndex)
    (tables : List (SortedTable index.metadata.numPoints))
    (hcapacity : 0 < leafCapacity index.metadata.pageSize) : Tables index.metadata.numPoints where
  tables := tables
  extent _ := Extent.blocks _ _ hcapacity

theorem SortedArrayIndex.backing (address : Nat) {index : SortedArrayIndex}
    {tables : List (SortedTable index.metadata.numPoints)} (hmetadata : ValidMetadata index.metadata)
    (hvectors : ValidVectors index.metadata index.projectionVectors)
    (hlength : tables.length = index.metadata.numHashTables)
    (hcapacity : 0 < leafCapacity index.metadata.pageSize)
    (hstores : ∀ t : QueryTable index.metadata.numPoints,
      (index.content tables hcapacity).Has t → index.Stores t) :
    Nonempty (Backing R ⟨address, .sortedArray index⟩ (index.content tables hcapacity)) := by
  refine ⟨⟨hmetadata, hvectors, hlength,
    fun t o cursor => ∃ p, cursor = .array p ∧ PositionCursor.Holds (some address) t o p,
    ?_, ?_, ?_⟩⟩
  · rintro t o _ ⟨p, rfl, hp⟩
    simp [BuiltInIndex.owns, owns, hp.good.owner_eq]
  · intro t ht cursor hown
    obtain ⟨p, hp, hreset⟩ := resetCursor_spec (hstores t ht) hown
    exact ⟨_, ⟨p, rfl, hp⟩, hreset⟩
  · rintro t ht σ β scope hvalid slot request hranged visitor o _ ⟨p, rfl, hp⟩ hadmits
    refine (CallSpec.positions_raise (scanImpl_spec (hstores t ht) hvalid slot request.budget visitor hp
      hadmits ?_)).mono (fun _ hc => hc) ?_
    · unfold Outward.call
      rw [hranged]
      refine congrArg (fun ext => Outward.consume _ ext _ _ _) ?_
      unfold callExtent extent
      by_cases hs : scope = .range
      · simp only [hs, decide_true, if_true]
        rfl
      · simp only [hs, decide_false, Bool.false_eq_true, if_false]
        rfl
    · rintro _ ⟨q, rfl, hq⟩
      simp [BuiltInIndex.owns, owns, hq.owner_eq]

/-- The ranged extents of a B+ tree file are its leaves. -/
def BPlusTreeIndex.content (index : BPlusTreeIndex)
    (tables : List (SortedTable index.metadata.numPoints)) (leaves : Nat → List Nat)
    (htotal : ∀ tableId, (index.leafSizes (leaves tableId)).sum = index.metadata.numPoints) :
    Tables index.metadata.numPoints where
  tables := tables
  extent tableId := index.extent (leaves tableId) (htotal tableId)

theorem BPlusTreeIndex.backing (address : Nat) {index : BPlusTreeIndex}
    (tables : List (SortedTable index.metadata.numPoints)) (leaves : Nat → List Nat)
    (hmetadata : ValidMetadata index.metadata)
    (hvectors : ValidVectors index.metadata index.projectionVectors)
    (hlength : tables.length = index.metadata.numHashTables)
    (htotal : ∀ tableId, (index.leafSizes (leaves tableId)).sum = index.metadata.numPoints)
    (hstores : ∀ t : QueryTable index.metadata.numPoints,
      (index.content tables leaves htotal).Has t →
        index.StoresIn t.tableId t.table (leaves t.tableId)) :
    Nonempty (Backing R ⟨address, .bPlusTree index⟩ (index.content tables leaves htotal)) := by
  refine ⟨⟨hmetadata, hvectors, hlength,
    fun t o cursor => ∃ q, cursor = .disk q ∧
      Holds index (some address) t (leaves t.tableId) o q, ?_, ?_, ?_⟩⟩
  · rintro t o _ ⟨p, rfl, hp⟩
    simp [BuiltInIndex.owns, owns, hp.good.owner_eq]
  · intro t ht cursor hown
    obtain ⟨q, hq, hreset⟩ := (hstores t ht).resetCursor_spec hown
    exact ⟨_, ⟨q, rfl, hq⟩, hreset⟩
  · rintro t ht σ β scope hvalid slot request hranged visitor o _ ⟨p, rfl, hp⟩ hadmits
    refine (CallSpec.positions_raise ((hstores t ht).scanImpl_spec hvalid slot request.budget visitor hp
      hadmits ?_)).mono (fun _ hc => hc) ?_
    · unfold Outward.call
      rw [hranged]
      rfl
    · rintro _ ⟨q, rfl, hq⟩
      simp [BuiltInIndex.owns, owns, hq.owner_eq]

/-- Every index that `Build` or `Open` returned has some tables and is backed by them. -/
theorem Backend.Accepted.backing {backend : Backend} (h : backend.Accepted) (address : Nat) :
    ∃ content : Tables (BuiltInIndex.mk address backend).metadata.numPoints,
      Nonempty (Backing R ⟨address, backend⟩ content) := by
  cases h with
  | @memory config accessor index h =>
      simp only [InMemoryIndex.build, except_unit_bind_eq_ok] at h
      obtain ⟨hconfig, h⟩ := h
      have hconfig := validateConfig_eq_ok.mp hconfig
      cases accessor with
      | none => cases h
      | some accessor =>
          simp only [except_bind_eq_ok] at h
          obtain ⟨vectors, hvectors, tables, htables, h⟩ := h
          cases h
          obtain ⟨sorted, rfl, hlength⟩ := projectTables_spec htables
          exact ⟨_, InMemoryIndex.backing address (metadataFromConfig_valid hconfig _ _)
            (makeProjectionVectors_spec hconfig hvectors) hlength rfl⟩
  | bPlusTree h =>
      obtain ⟨hmetadata, hvectors, -, hstores⟩ :=
        BPlusTreeIndex.loadHeader_spec (BPlusTreeIndex.openFile_spec h)
      rename_i index
      choose table leaves hstores using hstores
      have hpos := hmetadata.tables.1
      let leavesOf : Nat → List Nat := fun tableId =>
        if ht : tableId < index.metadata.numHashTables then leaves tableId ht else leaves 0 hpos
      have htotal : ∀ tableId,
          (index.leafSizes (leavesOf tableId)).sum = index.metadata.numPoints := by
        intro tableId
        unfold leavesOf
        split
        · exact (hstores _ _).total
        · exact (hstores _ _).total
      refine ⟨_, BPlusTreeIndex.backing address
        ((List.finRange index.metadata.numHashTables).map fun tableId =>
          table tableId.1 tableId.2) leavesOf hmetadata hvectors (by simp) htotal fun t ht => ?_⟩
      obtain ⟨hlt, hget⟩ := List.getElem?_eq_some_iff.mp ht
      simp only [BPlusTreeIndex.content, List.length_map, List.length_finRange, List.getElem_map,
        List.getElem_finRange] at hlt hget
      have hleaves : leavesOf t.tableId = leaves t.tableId hlt := dif_pos hlt
      rw [hleaves, ← hget]
      exact hstores _ _
  | sortedArray h =>
      obtain ⟨hmetadata, hvectors, tables, hlength, hcapacity, hstores⟩ :=
        SortedArrayIndex.loadHeader_spec (SortedArrayIndex.openFile_spec h)
      exact ⟨_, SortedArrayIndex.backing address hmetadata hvectors hlength hcapacity hstores⟩

end Backings

end Qalsh
