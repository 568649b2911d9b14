/-
  Layouts.lean --- one index in three layouts.

  A build makes the same tables of its points whatever it does with them afterwards:
  keep them in memory, cut them into linked leaves under a tree, or write them one
  after the other.  What is opened again serves these tables, and both files end their
  ranged calls at the same entries.  So no caller can tell the layouts apart.
-/
import Qalsh.Compare
import Qalsh.ScanRun
import Qalsh.Fits

set_option autoImplicit false

namespace Qalsh

open Foundation

variable {R : Type} [RadiusArithmetic R] {σ : Type}

/-! ## Blocks of one size -/

namespace Foundation

variable {n capacity : Nat} {sizes : List Nat}

/-- Blocks of `capacity` positions; the last one may be shorter. -/
def EvenBlocks (n capacity : Nat) (sizes : List Nat) : Prop :=
  ∀ i (h : i < sizes.length), sizes[i] = min capacity (n - i * capacity)

theorem EvenBlocks.start (h : EvenBlocks n capacity sizes) {i : Nat} (hi : i ≤ sizes.length) :
    blockStart sizes i = min n (i * capacity) := by
  induction i with
  | zero => simp
  | succ i ih =>
      have hsize := h i hi
      have hsucc := Nat.add_one_mul i capacity
      rw [blockStart_succ hi, ih (Nat.le_of_succ_le hi)]
      omega

/-- The position of an element in a block that is not empty. -/
theorem EvenBlocks.div_eq (h : EvenBlocks n capacity sizes) {i j : Nat} (hi : i < sizes.length)
    (hj : j < sizes[i]) :
    blockStart sizes i = i * capacity ∧ (blockStart sizes i + j) / capacity = i := by
  have hsize := h i hi
  have hstart := h.start hi.le
  have hfull : blockStart sizes i = i * capacity := by omega
  refine ⟨hfull, ?_⟩
  rw [hfull, Nat.add_comm, Nat.add_mul_div_right _ _ (by omega), Nat.div_eq_of_lt (by omega), Nat.zero_add]

/-- Ranged calls end at the same places in these blocks as in regions of `capacity`. -/
theorem EvenBlocks.extent_same (h : EvenBlocks n capacity sizes) (hsum : sizes.sum = n)
    (hcapacity : 0 < capacity) :
    (Extent.blocks n capacity hcapacity).Same (Extent.ofBlocks sizes hsum) := by
  intro p hp
  constructor
  · rcases Nat.eq_zero_or_pos p with rfl | hpos
    · exact blockLeft_zero sizes
    · obtain ⟨i, j, hi, hj, heq⟩ := exists_block (show p - 1 < sizes.sum by omega)
      obtain ⟨hfull, hdiv⟩ := h.div_eq hi hj
      rw [show p = blockStart sizes i + j + 1 by omega, Extent.ofBlocks_left hsum hi hj]
      have hblocks : (Extent.blocks n capacity hcapacity).left (blockStart sizes i + j + 1) =
          blockStart sizes i + j - (blockStart sizes i + j) / capacity * capacity + 1 := by
        unfold Extent.blocks
        dsimp only
        rw [if_neg (by omega), Nat.add_sub_cancel]
      rw [hblocks, hdiv]
      omega
  · rcases Nat.lt_or_ge p n with hlt | hge
    · obtain ⟨i, j, hi, hj, rfl⟩ := exists_block (hsum.symm ▸ hlt)
      obtain ⟨hfull, hdiv⟩ := h.div_eq hi hj
      have hsize := h i hi
      rw [Extent.ofBlocks_right hsum hi hj]
      have hblocks : (Extent.blocks n capacity hcapacity).right (blockStart sizes i + j) =
          min n ((blockStart sizes i + j) / capacity * capacity + capacity) - (blockStart sizes i + j) :=
        if_pos hlt
      rw [hblocks, hdiv, hsize]
      omega
    · exact (if_neg (Nat.not_lt.mpr hge)).trans (if_neg (Nat.not_lt.mpr hge)).symm

end Foundation

/-! ## What a built index presents -/

section Presented

variable [Platform]

/-- The entries are on file, in regions or leaves. -/
def Backend.paged : Backend → Bool
  | .memory _ => false
  | .bPlusTree _ => true
  | .sortedArray _ => true

/-- An index over these tables, whatever its layout. -/
structure Presents (config : IndexConfig) (pageSize : Nat) (vectors : List Binary32)
    (tables : List (SortedTable config.numPoints)) (index : BuiltInIndex)
    (content : Tables index.metadata.numPoints) : Prop where
  metadata : ∃ pageSize layout fileSize, index.metadata =
    { metadataFromConfig config pageSize layout with fileSize := fileSize }
  vectors : index.projectionVectors = vectors
  entries : content.tables.map SortedTable.entries = tables.map SortedTable.entries
  regions : index.backend.paged = true → ∀ hcapacity : 0 < leafCapacity pageSize,
    ∀ tableId < tables.length,
      (Extent.blocks config.numPoints (leafCapacity pageSize) hcapacity).Same (content.extent tableId)
  whole : index.backend.paged = false → ∀ tableId < tables.length,
    (Extent.whole config.numPoints).Same (content.extent tableId)

section Served

variable {config : IndexConfig} {accessor : PointAccessor} {pageSize fileSize : Nat}
  {vectors : List Binary32} {tables : List (SortedTable config.numPoints)}

/-- What every build knows of its metadata and vectors. -/
theorem BuildTables.valid_metadata (h : BuildTables config accessor vectors tables) (pageSize fileSize : Nat)
    (layout : IndexLayout) :
    ValidMetadata { metadataFromConfig config pageSize layout with fileSize := fileSize } ∧
      ValidVectors { metadataFromConfig config pageSize layout with fileSize := fileSize } vectors := by
  have hmetadata := metadataFromConfig_valid h.valid pageSize layout
  exact ⟨⟨hmetadata.metric, hmetadata.points, hmetadata.dimensions, hmetadata.tables, hmetadata.tables_eq,
      hmetadata.qalsh⟩,
    makeProjectionVectors_spec h.valid h.made⟩

theorem SortedArrayIndex.Serves.presents {index : SortedArrayIndex}
    (h : index.Serves config pageSize vectors tables fileSize)
    (hbuild : BuildTables config accessor vectors tables) (hsize : AcceptedPageSize pageSize)
    (address : Nat) : ∃ content, Nonempty (Backing R ⟨address, .sortedArray index⟩ content) ∧
      Presents config pageSize vectors tables ⟨address, .sortedArray index⟩ content := by
  obtain ⟨metadata, projectionVectors, tableOffsets, dataOffset, mapping⟩ := index
  obtain ⟨rfl, rfl, hstores⟩ := h
  obtain ⟨hmetadata, hvectors⟩ := hbuild.valid_metadata pageSize fileSize .sortedArray
  have hcapacity := leafCapacity_pos hsize
  refine ⟨SortedArrayIndex.content _ tables hcapacity,
    SortedArrayIndex.backing address hmetadata hvectors hbuild.count hcapacity hstores,
    ⟨pageSize, .sortedArray, fileSize, rfl⟩, rfl, rfl, fun _ _ _ _ _ _ => ⟨rfl, rfl⟩, nofun⟩

/-- The leaves of every table, each as full as the page size allows. -/
theorem BPlusTreeIndex.Serves.leaves {index : BPlusTreeIndex}
    (h : index.Serves config pageSize vectors tables fileSize)
    (hbuild : BuildTables config accessor vectors tables) :
    ∃ leaves : Nat → List Nat,
      (∀ tableId, (index.leafSizes (leaves tableId)).sum = config.numPoints) ∧
      (∀ t : QueryTable config.numPoints, tables[t.tableId]? = some t.table →
        index.StoresIn t.tableId t.table (leaves t.tableId)) ∧
      ∀ tableId < tables.length,
        EvenBlocks config.numPoints (leafCapacity pageSize) (index.leafSizes (leaves tableId)) := by
  obtain ⟨first, hstores⟩ := h.stores
  let groups := groupCount config.numPoints (leafCapacity pageSize)
  have hstored : ∀ (tableId : Nat) (ht : tableId < tables.length),
      index.StoresIn tableId (tables.get ⟨tableId, ht⟩) (List.range' (first tableId) groups) ∧
      ∀ i < groups, index.leafEntries (first tableId + i) =
        ((tables.get ⟨tableId, ht⟩).entries.drop (i * leafCapacity pageSize)).take (leafCapacity pageSize) :=
    fun tableId ht => hstores ⟨tables.get ⟨tableId, ht⟩, tableId, Binary32.zero, by decide⟩
      (List.getElem?_eq_getElem ht)
  have hpos : 0 < tables.length := by
    rw [hbuild.count]
    exact hbuild.valid.tables.1
  refine ⟨fun tableId => List.range' (first (if tableId < tables.length then tableId else 0)) groups,
    fun tableId => ?_, fun t ht => ?_, fun tableId ht i hi => ?_⟩
  · dsimp only
    split
    · rename_i ht
      exact (hstored tableId ht).1.total
    · exact (hstored 0 hpos).1.total
  · obtain ⟨hlt, -⟩ := List.getElem?_eq_some_iff.mp ht
    dsimp only
    rw [if_pos hlt]
    exact (hstores t ht).1
  · dsimp only at hi ⊢
    rw [if_pos ht] at hi
    simp only [if_pos ht]
    have hi' : i < groups := by simpa [leafSizes] using hi
    have hentries := congrArg List.length ((hstored tableId ht).2 i hi')
    rw [length_leafEntries, List.length_take, List.length_drop, SortedTable.length_entries] at hentries
    simp only [leafSizes, List.getElem_map, List.getElem_range', Nat.one_mul, hentries]

theorem BPlusTreeIndex.Serves.presents {index : BPlusTreeIndex}
    (h : index.Serves config pageSize vectors tables fileSize)
    (hbuild : BuildTables config accessor vectors tables) (address : Nat) :
    ∃ content, Nonempty (Backing R ⟨address, .bPlusTree index⟩ content) ∧
      Presents config pageSize vectors tables ⟨address, .bPlusTree index⟩ content := by
  obtain ⟨leaves, htotal, hstores, heven⟩ := h.leaves hbuild
  obtain ⟨hmetadata, hvectors, -⟩ := h
  obtain ⟨metadata, projectionVectors, roots, pageHeaders, leafRanks, dataOffset, pageCount, mapping⟩ :=
    index
  cases hmetadata
  cases hvectors
  obtain ⟨hmetadata, hvectors⟩ := hbuild.valid_metadata pageSize fileSize .bPlusTree
  refine ⟨BPlusTreeIndex.content _ tables leaves htotal, ?_, ⟨pageSize, .bPlusTree, fileSize, rfl⟩, rfl,
    rfl, fun _ hcapacity tableId ht => (heven tableId ht).extent_same (htotal tableId) hcapacity,
    nofun⟩
  exact BPlusTreeIndex.backing address _ leaves hmetadata hvectors hbuild.count htotal hstores

theorem InMemoryIndex.buildWith_presents {scheduler : Scheduler} {index : InMemoryIndex}
    (h : InMemoryIndex.buildWith scheduler config (some accessor) = .ok index) (address : Nat) :
    ∃ vectors tables, BuildTables config accessor vectors tables ∧
      ∃ content, Nonempty (Backing R ⟨address, .memory index⟩ content) ∧
        Presents config pageSize vectors tables ⟨address, .memory index⟩ content := by
  unfold InMemoryIndex.buildWith at h
  obtain ⟨⟨vectors, pushed⟩, hpushed, h⟩ := except_bind_eq_ok.mp h
  obtain ⟨entries, hsorted, h⟩ := except_bind_eq_ok.mp h
  cases h
  obtain ⟨-, points, tables, hpoints, hbuild, rfl⟩ := buildTables_of_sorted hpushed hsorted
  cases hpoints
  obtain ⟨hmetadata, hvectors⟩ := hbuild.valid_metadata 0 0 .inMemory
  exact ⟨vectors, tables, hbuild, InMemoryIndex.content _ tables,
    InMemoryIndex.backing address hmetadata hvectors hbuild.count rfl,
    ⟨0, .inMemory, 0, rfl⟩, rfl, rfl, nofun, fun _ _ _ _ _ => ⟨rfl, rfl⟩⟩

/-! ## Built indexes -/

/-- What the builds make of a configuration, its points and a page size; files are opened
again. -/
inductive Backend.Built (config : IndexConfig) (accessor : PointAccessor) (pageSize : Nat) :
    Backend → Prop
  | memory {scheduler : Scheduler} {index : InMemoryIndex} :
      InMemoryIndex.buildWith scheduler config (some accessor) = .ok index →
      Built config accessor pageSize (.memory index)
  | bPlusTree {scheduler : Scheduler} {target path : String} {layout : FileLayout} {file : File}
      {index : BPlusTreeIndex} :
      BPlusTreeIndex.prepare scheduler target config (some accessor) pageSize = .ok layout →
      layout.image = .ok file → BPlusTreeIndex.openFile file path = .ok index →
      Built config accessor pageSize (.bPlusTree index)
  | sortedArray {scheduler : Scheduler} {target path : String} {layout : FileLayout} {file : File}
      {index : SortedArrayIndex} :
      SortedArrayIndex.prepare scheduler target config (some accessor) pageSize = .ok layout →
      layout.image = .ok file → SortedArrayIndex.openFile file path = .ok index →
      Built config accessor pageSize (.sortedArray index)

/-- Every built index presents the tables of its build; files need an accepted page size. -/
theorem Backend.Built.presents {backend : Backend} (h : backend.Built config accessor pageSize)
    (address : Nat) : ∃ vectors tables, BuildTables config accessor vectors tables ∧
      (backend.paged = true → AcceptedPageSize pageSize) ∧
      ∃ content, Nonempty (Backing R ⟨address, backend⟩ content) ∧
        Presents config pageSize vectors tables ⟨address, backend⟩ content := by
  cases h with
  | memory hbuilt =>
      obtain ⟨vectors, tables, hbuild, hrest⟩ :=
        InMemoryIndex.buildWith_presents (R := R) hbuilt address
      exact ⟨vectors, tables, hbuild, nofun, hrest⟩
  | @bPlusTree scheduler target path layout file index hprepare himage hopen =>
      obtain ⟨points, vectors, tables, file', hpoints, hbuild, hsize, himage', hlaid⟩ :=
        BPlusTreeIndex.prepare_laid hprepare
      cases hpoints
      cases Except.ok.inj (himage.symm.trans himage')
      obtain ⟨index', hopen', hserves⟩ := BPlusTreeIndex.openFile_laid hlaid hbuild.count path
      cases Except.ok.inj (hopen.symm.trans hopen')
      exact ⟨vectors, tables, hbuild, fun _ => hsize, hserves.presents hbuild address⟩
  | @sortedArray scheduler target path layout file index hprepare himage hopen =>
      obtain ⟨points, vectors, tables, file', hpoints, hbuild, hsize, himage', hlaid⟩ :=
        SortedArrayIndex.prepare_laid hprepare
      cases hpoints
      cases Except.ok.inj (himage.symm.trans himage')
      obtain ⟨index', hopen', hserves⟩ := SortedArrayIndex.openFile_laid hlaid hbuild.count path
      cases Except.ok.inj (hopen.symm.trans hopen')
      exact ⟨vectors, tables, hbuild, fun _ => hsize, hserves.presents hbuild hsize address⟩

end Served

/-! ## Indexes that match -/

section Matching

variable {config config' : IndexConfig} {pageSize : Nat} {vectors vectors' : List Binary32}
  {tables : List (SortedTable config.numPoints)} {tables' : List (SortedTable config'.numPoints)}
  {index index' : BuiltInIndex} {content : Tables index.metadata.numPoints}
  {content' : Tables index'.metadata.numPoints}

omit [Platform] in
theorem Presents.points (h : Presents config pageSize vectors tables index content) :
    index.metadata.numPoints = config.numPoints := by
  obtain ⟨_, _, _, hmetadata⟩ := h.metadata
  rw [hmetadata]
  rfl

omit [Platform] in
theorem Foundation.Extent.Same.join {n n' p p' : Nat} {ext : Extent n} {ext' : Extent n'}
    {common : Extent p} {common' : Extent p'} (hcommon : common.Same common') (hn : n = p)
    (h : common.Same ext) (h' : common'.Same ext') (hp : p' = p) : ext.Same ext' := by
  subst hn hp
  intro i hi
  rw [(h' i hi).1, (h' i hi).2, (hcommon i hi).1, (hcommon i hi).2, (h i hi).1, (h i hi).2]
  exact ⟨rfl, rfl⟩

omit [Platform] in
/-- Indexes that present tables of which the first agree. -/
theorem Presents.matches (h : Presents config pageSize vectors tables index content)
    (h' : Presents config' pageSize vectors' tables' index' content')
    (hpoints : config'.numPoints = config.numPoints) {ranged : Bool}
    (hranged : ranged = true → index'.backend.paged = index.backend.paged)
    (hsize : index.backend.paged = true → AcceptedPageSize pageSize) {count : Nat}
    (hcount : count ≤ tables.length) (hcount' : count ≤ tables'.length)
    (hagree : ∀ tableId < count, (tables'.map SortedTable.entries)[tableId]? =
      (tables.map SortedTable.entries)[tableId]?) :
    content.Matches ranged count content' where
  table tableId htable := by
    rw [← List.getElem?_map, ← List.getElem?_map, h.entries, h'.entries, hagree tableId htable]
  extent hr tableId htable := by
    have hpaged' := hranged hr
    have hn := h.points
    have hleft : tableId < tables.length := htable.trans_le hcount
    have hright : tableId < tables'.length := htable.trans_le hcount'
    cases hpaged : index.backend.paged with
    | true =>
        have hcapacity := leafCapacity_pos (hsize hpaged)
        refine (show (Extent.blocks config.numPoints _ hcapacity).Same
          (Extent.blocks config'.numPoints _ hcapacity) from ?_).join hn ?_ ?_ hpoints
        · rw [hpoints]
          exact fun _ _ => ⟨rfl, rfl⟩
        · exact h.regions hpaged hcapacity tableId hleft
        · exact h'.regions (hpaged'.trans hpaged) hcapacity tableId hright
    | false =>
        refine (show (Extent.whole config.numPoints).Same (Extent.whole config'.numPoints) from ?_).join
          hn ?_ ?_ hpoints
        · rw [hpoints]
          exact fun _ _ => ⟨rfl, rfl⟩
        · exact h.whole hpaged tableId hleft
        · exact h'.whole (hpaged'.trans hpaged) tableId hright

/-- Queries ask the same of two layouts of one configuration. -/
theorem Presents.queryMatches {object object' : IndexObject}
    {content : Tables object.index.metadata.numPoints}
    {content' : Tables object'.index.metadata.numPoints}
    {tables' : List (SortedTable config.numPoints)}
    (h : Presents config pageSize vectors tables object.index content)
    (h' : Presents config pageSize vectors tables' object'.index content') (options : SearchOptions)
    (query : PointView) (k : Nat) : QueryMatches object object' options options query k := by
  obtain ⟨_, _, _, hmetadata⟩ := h.metadata
  obtain ⟨_, _, _, hmetadata'⟩ := h'.metadata
  have hvectors := h.vectors
  have hvectors' := h'.vectors
  refine ⟨?_, rfl, ?_, fun plan _ => ?_⟩
  · show object'.index.metadata.core = object.index.metadata.core
    rw [hmetadata, hmetadata']
    rfl
  · unfold planQuery IndexObject.metadata IndexObject.projectionVectors
    rw [hmetadata, hmetadata', hvectors, hvectors']
    rfl
  · unfold QueryPlan.projections IndexObject.metadata IndexObject.projectionVectors
    rw [hmetadata, hmetadata', hvectors, hvectors']
    rfl

end Matching

/-! ## Scans -/

section Scans

/-- Whoever resets a cursor of this index and then scans it sees this trace. -/
def BuiltInIndex.Shows (index : BuiltInIndex) (tableId : Nat) (queryValue : Binary32)
    (requests : List (OutwardCall (ScanBound R))) (trace : List Observation) : Prop :=
  ∀ cursor : Cursor R, index.owns cursor = true →
    ∃ placed, index.resetCursor tableId queryValue cursor = .ok () placed ∧
      ∀ {β : Type} (callback : β → ProjectionHit → β) (acc : β), ∃ cursor',
        index.runScans callback requests acc placed =
          .ok (trace.map Prod.snd, (traceHits trace).foldl callback acc) cursor'

/-- Calls a caller may make on a cursor that has just been reset. -/
structure ScanRequests (requests : List (OutwardCall (ScanBound R))) : Prop where
  bounds : NonDecreasing requests
  budgets : ∀ request ∈ requests, 0 < request.budget

variable {requests : List (OutwardCall (ScanBound R))} {index : BuiltInIndex}
  {content : Tables index.metadata.numPoints}

theorem Backing.shows (b : Backing R index content) {t : QueryTable index.metadata.numPoints}
    (ht : content.Has t) (h : ScanRequests requests) :
    index.Shows t.tableId t.queryValue requests
      (t.trace (content.extent t.tableId) requests (Outward.start t.split)) := by
  intro cursor hown
  obtain ⟨placed, hholds, hreset⟩ := b.reset ht hown
  exact ⟨placed, hreset, fun callback acc => b.runScans_spec ht callback hholds
    (Outward.start_valid t.windows) ⟨nofun, h.bounds⟩ h.budgets acc⟩

omit [Platform] in
/-- Tables that agree show the same; extents count for ranged calls only. -/
theorem QueryTable.Same.trace {n n' : Nat} {t : QueryTable n} {t' : QueryTable n'} (h : t.Same t')
    {ext : Extent n} {ext' : Extent n'} : ∀ {requests : List (OutwardCall (ScanBound R))},
    (∀ request ∈ requests, request.ranged = true → ext.Same ext') → ∀ {o : Outward (ScanBound R)},
    o.left ≤ n → o.right ≤ n → t'.trace ext' requests o = t.trace ext requests o := by
  intro requests
  induction requests with
  | nil => exact fun _ _ _ _ => rfl
  | cons request requests ih =>
      intro hranged o hleft hright
      have hcall := h.call (hranged request List.mem_cons_self) hleft hright
      obtain ⟨hleft', hright'⟩ := t.call_within ext request hleft hright
      simp only [QueryTable.trace, hcall, h.hitAt, h.tableId, h.points]
      rw [ih (fun other hother => hranged other (List.mem_cons_of_mem _ hother)) hleft' hright']

/-- Matching contents show the same. -/
theorem Backing.shows_matches {index' : BuiltInIndex} {content' : Tables index'.metadata.numPoints}
    (b : Backing R index content) (b' : Backing R index' content') {ranged : Bool} {count : Nat}
    (hmatches : content.Matches ranged count content') (hcount : count ≤ content.tables.length)
    {tableId : Nat} (htable : tableId < count) {queryValue : Binary32}
    (hfinite : queryValue.isFinite = true) (h : ScanRequests requests)
    (hranged : ∀ request ∈ requests, request.ranged = true → ranged = true) :
    ∃ trace, index.Shows tableId queryValue requests trace ∧
      index'.Shows tableId queryValue requests trace := by
  have hentries := hmatches.table tableId htable
  have hget : content.tables[tableId]? = some (content.tables.get ⟨tableId, htable.trans_le hcount⟩) :=
    List.getElem?_eq_getElem _
  rw [hget] at hentries
  obtain ⟨table', hget', heq⟩ := Option.map_eq_some_iff.mp hentries
  let t : QueryTable index.metadata.numPoints :=
    ⟨content.tables.get ⟨tableId, htable.trans_le hcount⟩, tableId, queryValue, hfinite⟩
  let t' : QueryTable index'.metadata.numPoints := ⟨table', tableId, queryValue, hfinite⟩
  have hsame : t.Same t' := ⟨heq, rfl, rfl⟩
  have htrace := hsame.trace (fun request hmem hr =>
    hmatches.extent (hranged request hmem hr) tableId htable)
    (show (Outward.start t.split).left ≤ _ from t.split_le) t.split_le
  refine ⟨_, b.shows (t := t) hget h, ?_⟩
  have hshows := b'.shows (t := t') hget' h
  rw [hsame.split] at hshows
  exact htrace ▸ hshows

/-- Any two layouts of an index show the same, call by call. -/
theorem Backend.Built.shows_same {config : IndexConfig} {accessor : PointAccessor} {pageSize : Nat}
    {backend backend' : Backend} (hbuilt : backend.Built config accessor pageSize)
    (hbuilt' : backend'.Built config accessor pageSize) (address address' : Nat) {tableId : Nat}
    (htable : tableId < config.qalsh.numHashTables) {queryValue : Binary32}
    (hfinite : queryValue.isFinite = true) (h : ScanRequests requests)
    (hranged : ∀ request ∈ requests, request.ranged = true → backend'.paged = backend.paged) :
    ∃ trace, BuiltInIndex.Shows ⟨address, backend⟩ tableId queryValue requests trace ∧
      BuiltInIndex.Shows ⟨address', backend'⟩ tableId queryValue requests trace := by
  obtain ⟨vectors, tables, hbuild, hsize, content, ⟨b⟩, hpresents⟩ := hbuilt.presents (R := R) address
  obtain ⟨vectors', tables', hbuild', -, content', ⟨b'⟩, hpresents'⟩ :=
    hbuilt'.presents (R := R) address'
  obtain ⟨rfl, rfl⟩ := hbuild.unique hbuild'
  have hentries := congrArg List.length hpresents.entries
  rw [List.length_map, List.length_map] at hentries
  have hmatches : content.Matches (decide (backend'.paged = backend.paged)) tables'.length content' :=
    hpresents.matches hpresents' rfl of_decide_eq_true hsize le_rfl le_rfl fun _ _ => rfl
  exact b.shows_matches b' hmatches hentries.ge (hbuild.count.symm ▸ htable) hfinite h
    fun request hmem hr => decide_eq_true (hranged request hmem hr)

omit [Platform] in
/-- The two files of the point on the line, asked for a range. -/
theorem Backend.Built.shows_same_unit :
    letI := exactPlatform true
    ∃ backend backend' : Backend, ∃ trace : List Observation,
      BuiltInIndex.Shows (R := Binary32) ⟨0, backend⟩ 0 one [⟨⟨one, by decide⟩, 1, true⟩] trace ∧
        BuiltInIndex.Shows (R := Binary32) ⟨1, backend'⟩ 0 one [⟨⟨one, by decide⟩, 1, true⟩] trace := by
  let := exactPlatform true
  obtain ⟨layout, file, index, hprepare, himage, hopen⟩ := SortedArrayIndex.array_round_trip_unit
  obtain ⟨layout', file', index', hprepare', himage', hopen'⟩ := BPlusTreeIndex.tree_round_trip_unit
  exact ⟨.sortedArray index, .bPlusTree index', Backend.Built.shows_same
    (.sortedArray hprepare himage hopen) (.bPlusTree hprepare' himage' hopen') 0 1 Nat.one_pos (by decide)
    ⟨List.isChain_singleton _, by simp⟩ fun _ _ _ => rfl⟩

/-- What an accepted index shows is what an index in memory would: its tables are sorted
sequences, and calls with budgets are those on plain arrays. -/
theorem Backend.Accepted.shows_memory {backend : Backend} (haccepted : backend.Accepted)
    (address : Nat) : ∃ plain : InMemoryIndex,
    plain.metadata = (BuiltInIndex.mk address backend).metadata ∧
    plain.tables.length = (BuiltInIndex.mk address backend).metadata.numHashTables ∧
    (∀ table ∈ plain.tables, table.Pairwise (fun a b => keyLess a b = true) ∧
      (table.map Entry.pointId).Perm (List.range plain.metadata.numPoints)) ∧
    ∀ {tableId : Nat}, tableId < plain.tables.length → ∀ {queryValue : Binary32},
      queryValue.isFinite = true → ∀ {requests : List (OutwardCall (ScanBound R))},
      ScanRequests requests → (∀ request ∈ requests, request.ranged = false) →
      ∃ trace, BuiltInIndex.Shows ⟨address, backend⟩ tableId queryValue requests trace ∧
        BuiltInIndex.Shows ⟨address, .memory plain⟩ tableId queryValue requests trace := by
  obtain ⟨content, ⟨b⟩⟩ := haccepted.backing (R := R) address
  let plain : InMemoryIndex :=
    { metadata := (BuiltInIndex.mk address backend).metadata
      projectionVectors := (BuiltInIndex.mk address backend).projectionVectors
      tables := content.tables.map SortedTable.entries }
  have hlength : plain.tables.length = _ := List.length_map _
  obtain ⟨b'⟩ : Nonempty (Backing R ⟨address, .memory plain⟩ (plain.content content.tables)) :=
    InMemoryIndex.backing address b.metadata_valid b.vectors_valid b.tables_length rfl
  refine ⟨plain, rfl, hlength.trans b.tables_length, fun table hmem => ?_,
    fun htable queryValue hfinite requests h hquantum => ?_⟩
  · obtain ⟨sorted, -, rfl⟩ := List.mem_map.mp hmem
    exact ⟨sorted.ordered, sorted.ids⟩
  · have hmatches : content.Matches false plain.tables.length (plain.content content.tables) :=
      ⟨fun _ _ => rfl, nofun⟩
    refine b.shows_matches b' hmatches hlength.le htable hfinite h fun request hmem hr => ?_
    rw [hquantum request hmem] at hr
    exact nomatch hr

omit [Platform] [RadiusArithmetic R] in
/-- The B+ tree file of the point on the line. -/
theorem Backend.Accepted.shows_memory_unit :
    letI := exactPlatform true
    ∃ (index : BPlusTreeIndex) (plain : InMemoryIndex), plain.metadata = index.metadata ∧
      ∃ trace : List Observation,
        BuiltInIndex.Shows (R := Binary32) ⟨0, .bPlusTree index⟩ 0 one [⟨⟨one, by decide⟩, 1, false⟩] trace ∧
        BuiltInIndex.Shows (R := Binary32) ⟨0, .memory plain⟩ 0 one [⟨⟨one, by decide⟩, 1, false⟩] trace := by
  let := exactPlatform true
  obtain ⟨layout, file, index, -, -, hopen⟩ := BPlusTreeIndex.tree_round_trip_unit
  obtain ⟨plain, hmetadata, hlength, -, hshows⟩ :=
    Backend.Accepted.shows_memory (R := Binary32) (Backend.Accepted.bPlusTree hopen) 0
  obtain ⟨hvalid, -⟩ := BPlusTreeIndex.loadHeader_spec (BPlusTreeIndex.openFile_spec hopen)
  exact ⟨index, plain, hmetadata, hshows (hlength.symm ▸ hvalid.tables.1) (by decide)
    ⟨List.isChain_singleton _, by simp⟩ (by simp)⟩

end Scans

/-! ## Searches -/

section Searches

omit [RadiusArithmetic R] in
theorem Twinned.both {α : Type} [HasThread R σ] {x y z : EStateM.Result Error σ α} (h : Twinned x z)
    (h' : Twinned y z) : Twinned x y := by
  cases x with
  | ok a s =>
      cases y with
      | ok b t =>
          cases z with
          | ok c u => exact ⟨h.1.trans h'.1.symm, h.2.trans h'.2.symm⟩
          | error e u => exact h.elim
      | error e t =>
          cases z with
          | ok c u => exact h'.elim
          | error e' u => exact h.elim
  | error e s =>
      cases y with
      | ok b t =>
          cases z with
          | ok c u => exact h.elim
          | error e' u => exact h'.elim
      | error e' t =>
          cases z with
          | ok c u => exact h.elim
          | error e'' u => exact ⟨h.1.trans h'.1.symm, h.2.trans h'.2.symm⟩

variable [HasThread R σ] {session session' : Session R} {config : IndexConfig}
  {accessor : PointAccessor} {pageSize : Nat}

/-- Searches of one thread in two layouts of an index make the same calls with the same
arguments and give the same result or exception; only memory and files end ranged calls
differently. -/
theorem Session.search_layouts
    (hbuilt : session.object.index.backend.Built config accessor pageSize)
    (hbuilt' : session'.object.index.backend.Built config accessor pageSize)
    (hthread : session'.thread = session.thread) {callbacks : Callbacks R σ}
    (hconfined : callbacks.Confined)
    (hwithin : callbacks.strategy.Within
      (decide (session'.object.index.backend.paged = session.object.index.backend.paged)))
    (options : SearchOptions) (query : PointView) (k : Nat) {s : σ} (hs : threadOf s = session.thread) :
    Twinned (session'.search callbacks options query k s)
      (session.search callbacks options query k s) := by
  obtain ⟨vectors, tables, hbuild, hsize, content, ⟨b⟩, hpresents⟩ :=
    hbuilt.presents (R := R) session.object.index.address
  obtain ⟨vectors', tables', hbuild', -, content', ⟨b'⟩, hpresents'⟩ :=
    hbuilt'.presents (R := R) session'.object.index.address
  obtain ⟨rfl, rfl⟩ := hbuild.unique hbuild'
  have hsearch : b'.search options query k callbacks.strategy callbacks.accessor callbacks.accept =
      b.search options query k callbacks.strategy callbacks.accessor callbacks.accept := by
    refine Backing.search_matches (hpresents.queryMatches hpresents' options query k)
      (fun plan hplan => ?_) hwithin callbacks.accessor callbacks.accept
    have hcount := (planQuery_spec hplan).2.2.2.1
    have htables : content.tables.length = _ := b.tables_length
    have hentries := congrArg List.length hpresents.entries
    rw [List.length_map, List.length_map, htables] at hentries
    exact hpresents.matches hpresents' rfl of_decide_eq_true hsize (hcount.trans hentries.le)
      (hcount.trans hentries.le) fun _ _ => rfl
  have hleft := session'.search_twinned hconfined b' options query k (hs.trans hthread.symm)
  have hright := session.search_twinned hconfined b options query k hs
  rw [hsearch] at hleft
  exact hleft.both hright

omit [RadiusArithmetic R] [HasThread R σ] in
/-- Two accepted indexes on the heap of one thread. -/
theorem exists_sessions {backend backend' : Backend} (h : backend.Accepted) (h' : backend'.Accepted) :
    ∃ session session' : Session R, session'.thread = session.thread ∧
      session.object.index.backend = backend ∧ session'.object.index.backend = backend' := by
  let heap : Heap :=
    { objects := [some (.builtIn ⟨0, backend⟩), some (.builtIn ⟨1, backend'⟩)]
      accepted := fun object hmem => by
        simp only [List.mem_cons, Option.some.injEq, List.not_mem_nil, or_false] at hmem
        obtain rfl | rfl := hmem
        · exact h
        · exact h'
      distinct := fun i j a b hi hj hab => by
        match i, j with
        | 0, 0 => rfl
        | 1, 1 => rfl
        | 0, 1 => cases hi; cases hj; cases hab
        | 1, 0 => cases hi; cases hj; cases hab
        | i + 2, _ => cases hi
        | _, j + 2 => cases hj }
  let thread : Thread R := { heap := heap, pool := [] }
  have hvalid : thread.Valid := fun scratch hmem => absurd hmem List.not_mem_nil
  exact ⟨⟨thread, hvalid, 0, .builtIn ⟨0, backend⟩, rfl⟩, ⟨thread, hvalid, 1, .builtIn ⟨1, backend'⟩, rfl⟩,
    rfl, rfl, rfl⟩

/-- Scan the first table in range scope, again and again. -/
def UserStrategy.rescan (R : Type) : UserStrategy R Unit where
  accessor _ := .act (pure [one])
  start _ := .act (pure ())
  next _ := .act (pure (.scan 0 .range))
  onProjectionHit hit _ := .act (pure { candidate := hit.pointId })
  onEvaluation _ _ := .act (pure ())
  onScanBoundary _ _ := .act (pure ())
  onRadiusAdvanced _ := .act (pure ())

end Searches

end Presented

/-- The two files of the point on the line. -/
theorem Session.search_layouts_unit :
    letI := exactPlatform true
    ∃ session session' : Session Binary32,
      Twinned (session'.search (UserStrategy.rescan Binary32).callbacks SearchOptions.blank [one] 1
        ((), session.thread))
        (session.search (UserStrategy.rescan Binary32).callbacks SearchOptions.blank [one] 1
          ((), session.thread)) := by
  let := exactPlatform true
  obtain ⟨layout, file, index, hprepare, himage, hopen⟩ := SortedArrayIndex.array_round_trip_unit
  obtain ⟨layout', file', index', hprepare', himage', hopen'⟩ := BPlusTreeIndex.tree_round_trip_unit
  obtain ⟨session, session', hthread, hbackend, hbackend'⟩ := exists_sessions (R := Binary32)
    (Backend.Accepted.sortedArray hopen) (Backend.Accepted.bPlusTree hopen')
  refine ⟨session, session', Session.search_layouts
    (hbackend ▸ Backend.Built.sortedArray hprepare himage hopen)
    (hbackend' ▸ Backend.Built.bPlusTree hprepare' himage' hopen') hthread
    (UserStrategy.rescan Binary32).confined ?_ SearchOptions.blank [one] 1 rfl⟩
  rw [hbackend, hbackend']
  exact fun _ _ _ _ _ _ _ => rfl

end Qalsh
