/-
  Fits.lean --- what fits in a file is built and can be opened.

  Before it writes, a build computes how long its file will be, and refuses a file that
  the host cannot address.  Nothing else stops it once its points are projected: the
  loop over the levels ends, no level leaves a node with one child, and the number of
  pages is the one computed in advance.
-/
import Qalsh.ArrayFile
import Qalsh.TreeFile

set_option autoImplicit false

namespace Qalsh

open Foundation

/-! ## Offsets -/

/-- The metadata of an accepted configuration is small. -/
theorem metadataOffsets_ok {tableCount valueCount pageSize : Nat} (htables : tableCount ≤ 2 ^ 20)
    (hvalues : valueCount ≤ 2 ^ 40) (hsize : AcceptedPageSize pageSize) :
    ∃ offsets, metadataOffsets tableCount valueCount pageSize = .ok offsets := by
  have hlower := hsize.lower
  have hupper : pageSize ≤ 2 ^ 26 := hsize.upper
  have hmax : uint64Max = 2 ^ 64 - 1 := rfl
  have hheader : fileHeaderSize ≤ 2 ^ 10 := by decide
  have haligned : ∃ data, alignUp (fileHeaderSize + tableCount * 8 + valueCount * 4) pageSize =
      .ok data := by
    unfold alignUp
    rw [require_of (show pageSize > 0 by omega), except_ok_bind]
    dsimp only
    split
    · exact ⟨_, rfl⟩
    · exact ⟨_, checkedAddOrThrow_of_le (by omega)⟩
  obtain ⟨data, hdata⟩ := haligned
  refine ⟨⟨fileHeaderSize, fileHeaderSize + tableCount * 8, data⟩, ?_⟩
  unfold metadataOffsets
  rw [checkedMultiplyOrThrow_of_le (by omega), except_ok_bind, checkedMultiplyOrThrow_of_le (by omega),
    except_ok_bind, checkedAddOrThrow_of_le (by omega), except_ok_bind,
    checkedAddOrThrow_of_le (by omega), except_ok_bind, hdata]
  rfl

/-! ## Pages of a tree -/

theorem leafCapacity_pos {pageSize : Nat} (h : AcceptedPageSize pageSize) : 0 < leafCapacity pageSize := by
  have hlower := h.lower
  unfold leafCapacity pageHeaderSize entrySize
  omega

namespace BPlusTreeIndex

section Count

variable {capacity : Nat}

/-- The loop that counts the pages of a table ends. -/
theorem pagesPerTable_ok (hcapacity : 3 ≤ capacity) : ∀ (passes count pages : Nat), 0 < count →
    count ≤ passes → pages + 2 * count ≤ uint64Max →
    ∃ total, pagesPerTable capacity passes count pages = .ok total ∧ total ≤ pages + 2 * count := by
  intro passes
  induction passes with
  | zero => omega
  | succ passes ih =>
      intro count pages hpos hle hmax
      rw [pagesPerTable, checkedAddOrThrow_of_le (by omega), except_ok_bind]
      by_cases hone : count = 1
      · rw [if_pos hone]
        exact ⟨_, rfl, by omega⟩
      · have hhalf := groupCount_le_half (show 2 ≤ count by omega) hcapacity
        have hsome : 0 < groupCount count capacity := groupCount_pos hpos (by omega)
        rw [if_neg hone]
        obtain ⟨total, htotal, hbound⟩ := ih (groupCount count capacity) (pages + count) hsome (by omega)
          (by omega)
        exact ⟨total, htotal, by omega⟩

/-- Grouping a level adds one page for each group. -/
theorem addGroups_length (level : Level) (sizes : List Nat) : ∀ grouping : Grouping,
    (sizes.foldl (addGroup level) grouping).pages.length = grouping.pages.length + sizes.length ∧
      (sizes.foldl (addGroup level) grouping).nextPages.length =
        grouping.nextPages.length + sizes.length := by
  induction sizes with
  | nil => exact fun grouping => ⟨rfl, rfl⟩
  | cons size sizes ih =>
      intro grouping
      obtain ⟨hpages, hnext⟩ := ih (addGroup level grouping size)
      rw [List.foldl_cons, hpages, hnext, List.length_cons]
      simp only [addGroup, List.length_append, List.length_singleton]
      omega

theorem nextLevel_length {level level' : Level} (h : nextLevel capacity level = .ok level') :
    level'.pages.length = level.pages.length + groupCount level.levelPages.length capacity ∧
      level'.levelPages.length = groupCount level.levelPages.length capacity := by
  unfold nextLevel at h
  obtain ⟨_, -, h⟩ := except_bind_eq_ok.mp h
  cases h
  obtain ⟨hpages, hnext⟩ := addGroups_length level (groupSizes level.levelPages.length capacity)
    { pages := level.pages, nextPages := [], nextKeys := [], start := 0 }
  rw [length_groupSizes] at hpages hnext
  exact ⟨hpages, hnext.trans (Nat.zero_add _)⟩

/-- The levels above a level have the pages that have been counted. -/
theorem buildLevels_length (hcapacity : 3 ≤ capacity) : ∀ (passes : Nat) {level top : Level},
    buildLevels capacity passes level = .ok top → 0 < level.levelPages.length →
    level.levelPages.length ≤ passes + 1 → ∀ {fuel acc total : Nat},
    acc + 2 * level.levelPages.length ≤ uint64Max →
    pagesPerTable capacity fuel level.levelPages.length acc = .ok total →
    top.pages.length + acc + level.levelPages.length = level.pages.length + total := by
  intro passes
  induction passes with
  | zero =>
      intro level top h hpos hle fuel acc total hmax htotal
      have hone : level.levelPages.length = 1 := by omega
      cases h
      cases fuel with
      | zero => cases htotal
      | succ fuel =>
          rw [pagesPerTable, checkedAddOrThrow_of_le (by omega), except_ok_bind, if_pos hone] at htotal
          cases htotal
          omega
  | succ passes ih =>
      intro level top h hpos hle fuel acc total hmax htotal
      cases fuel with
      | zero => cases htotal
      | succ fuel =>
          rw [pagesPerTable, checkedAddOrThrow_of_le (by omega), except_ok_bind] at htotal
          rw [buildLevels] at h
          by_cases hone : level.levelPages.length = 1
          · rw [if_neg (by omega)] at h
            rw [if_pos hone] at htotal
            cases h
            cases htotal
            omega
          · rw [if_pos (by omega)] at h
            rw [if_neg hone] at htotal
            obtain ⟨level', hnext, htop⟩ := except_bind_eq_ok.mp h
            obtain ⟨hpages, hcount⟩ := nextLevel_length hnext
            have hhalf := groupCount_le_half (show 2 ≤ level.levelPages.length by omega) hcapacity
            have hsome : 0 < groupCount level.levelPages.length capacity :=
              groupCount_pos hpos (by omega)
            have hrest : pagesPerTable capacity fuel level'.levelPages.length
                (acc + level.levelPages.length) = .ok total := hcount ▸ htotal
            have hsum := ih htop (by omega) (by omega) (by omega) hrest
            omega

variable {leafCapacity : Nat} {entries : List Entry}

/-- The turn of the loop for one table adds the pages that have been counted. -/
theorem addTable_length (hleaf : 0 < leafCapacity) (hinternal : 3 ≤ capacity) (hentries : entries ≠ [])
    {state state' : List Page × List Nat} (h : addTable leafCapacity capacity state entries = .ok state')
    {fuel total : Nat} (hmax : 2 * groupCount entries.length leafCapacity ≤ uint64Max)
    (htotal : pagesPerTable capacity fuel (groupCount entries.length leafCapacity) 0 = .ok total) :
    state'.1.length = state.1.length + total := by
  have hruns : (leafRuns leafCapacity entries).length = groupCount entries.length leafCapacity :=
    length_leafRuns
  have hpos : 0 < groupCount entries.length leafCapacity :=
    groupCount_pos (List.length_pos_of_ne_nil hentries) hleaf
  have hleaves := addLeaves_eq state.1 fun run (hrun : run ∈ leafRuns leafCapacity entries) =>
    (mem_leafRuns hleaf hrun).1
  unfold addTable at h
  rw [hleaves, except_ok_bind] at h
  obtain ⟨_, -, h⟩ := except_bind_eq_ok.mp h
  obtain ⟨top, htop, h⟩ := except_bind_eq_ok.mp h
  cases h
  have hcount : (List.range' state.1.length (leafRuns leafCapacity entries).length).length =
      groupCount entries.length leafCapacity := by rw [List.length_range', hruns]
  have hsum := buildLevels_length hinternal _ htop (by dsimp only; omega) (by dsimp only; omega)
    (by dsimp only; rw [hcount, Nat.zero_add]; exact hmax) (by dsimp only; rw [hcount]; exact htotal)
  dsimp only at hsum ⊢
  rw [hcount, List.length_append, length_leafPages, hruns] at hsum
  omega

/-- All tables together. -/
theorem addTables_length (hleaf : 0 < leafCapacity) (hinternal : 3 ≤ capacity) {points : Nat}
    (hpoints : 0 < points) {fuel total : Nat} (hmax : 2 * groupCount points leafCapacity ≤ uint64Max)
    (htotal : pagesPerTable capacity fuel (groupCount points leafCapacity) 0 = .ok total)
    {tables : List (List Entry)} (hlength : ∀ entries ∈ tables, entries.length = points) :
    ∀ {state state' : List Page × List Nat},
      tables.foldlM (addTable leafCapacity capacity) state = .ok state' →
      state'.1.length = state.1.length + tables.length * total := by
  induction tables with
  | nil =>
      intro state state' h
      cases h
      simp
  | cons entries tables ih =>
      intro state state' h
      rw [List.foldlM_cons] at h
      obtain ⟨between, hadd, hrest⟩ := except_bind_eq_ok.mp h
      have hone := hlength entries List.mem_cons_self
      have hfirst := addTable_length hleaf hinternal (List.ne_nil_of_length_pos (by omega)) hadd
        (hone.symm ▸ hmax) (hone.symm ▸ htotal)
      rw [ih (fun other hother => hlength other (List.mem_cons_of_mem _ hother)) hrest, hfirst,
        List.length_cons, Nat.add_one_mul]
      omega

end Count

/-- The length of the file `Build` would write. -/
def fileLength (config : IndexConfig) (pageSize : Nat) : Except Error Nat := do
  let leafCount := groupCount config.numPoints (leafCapacity pageSize)
  let perTable ← pagesPerTable (internalCapacity pageSize) (leafCount + 1) leafCount 0
  let offsets ← metadataOffsets config.qalsh.numHashTables
    (config.qalsh.numHashTables * config.numDimensions) pageSize
  return offsets.data + (perTable * config.qalsh.numHashTables + 1) * pageSize

theorem layoutOf_ok {config : IndexConfig} {pageSize : Nat} {vectors : List Binary32}
    {tables : List (SortedTable config.numPoints)} (hvalid : ValidConfig config)
    (hsize : AcceptedPageSize pageSize)
    (hvectors : vectors.length = config.qalsh.numHashTables * config.numDimensions)
    (htables : tables.length = config.qalsh.numHashTables) :
    ∃ length, fileLength config pageSize = .ok length ∧ (length ≤ offTMax → ∃ layout,
      layoutOf config pageSize vectors (tables.map SortedTable.entries) = .ok layout ∧
        layout.fileSize = length) := by
  have hlower := hsize.lower
  have hmax : uint64Max = 2 ^ 64 - 1 := rfl
  have hoff : offTMax ≤ uint64Max := by decide
  have hpoints : config.numPoints ≤ 2 ^ 30 := hvalid.points.2
  have hsome := hvalid.points.1
  have htable : config.qalsh.numHashTables ≤ 2 ^ 20 := hvalid.tables.2
  have hleaf : 0 < leafCapacity pageSize := leafCapacity_pos hsize
  have hinternal : 3 ≤ internalCapacity pageSize := by
    unfold internalCapacity pageHeaderSize
    omega
  have hleaves : 0 < groupCount config.numPoints (leafCapacity pageSize) := groupCount_pos hsome hleaf
  have hfew : groupCount config.numPoints (leafCapacity pageSize) ≤ config.numPoints := by
    unfold groupCount
    rw [Nat.div_le_iff_le_mul_add_pred hleaf]
    have := Nat.le_mul_of_pos_left config.numPoints hleaf
    omega
  obtain ⟨perTable, hperTable, hbound⟩ := pagesPerTable_ok hinternal
    (groupCount config.numPoints (leafCapacity pageSize) + 1)
    (groupCount config.numPoints (leafCapacity pageSize)) 0 hleaves (by omega) (by omega)
  obtain ⟨offsets, hoffsets⟩ := metadataOffsets_ok htable
    (tables_mul_dimensions_le hvalid.tables.2 hvalid.dimensions.2) hsize
  have hlengths : ∀ entries ∈ tables.map SortedTable.entries, entries.length = config.numPoints := by
    intro entries hentries
    obtain ⟨table, -, rfl⟩ := List.mem_map.mp hentries
    exact table.length_entries
  obtain ⟨pages, roots, hfold, -, hroots, -⟩ := addTables_eq hleaf hinternal
    (fun entries hentries => List.ne_nil_of_length_pos ((hlengths entries hentries).symm ▸ hsome)) default
  have hpages := addTables_length hleaf hinternal hsome (by omega) hperTable hlengths hfold
  rw [List.length_map] at hroots hpages
  dsimp only [List.length_singleton] at hpages
  have hcount : pages.length = perTable * config.qalsh.numHashTables + 1 := by
    rw [hpages, htables, Nat.mul_comm, Nat.add_comm]
  have hproduct : perTable * config.qalsh.numHashTables ≤ 2 ^ 31 * 2 ^ 20 :=
    Nat.mul_le_mul (by omega) htable
  refine ⟨offsets.data + (perTable * config.qalsh.numHashTables + 1) * pageSize, ?_, fun hfits => ?_⟩
  · unfold fileLength
    dsimp only
    rw [hperTable, except_ok_bind, hoffsets]
    rfl
  · rw [← hcount] at hfits ⊢
    rw [← hvectors, ← htables, ← hroots] at hoffsets
    unfold groupCount at hperTable
    unfold layoutOf
    dsimp only
    rw [require_of (show leafCapacity pageSize > 0 ∧ internalCapacity pageSize ≥ 2 from
        ⟨hleaf, (by omega)⟩), except_ok_bind, hperTable, except_ok_bind,
      checkedMultiplyOrThrow_of_le (by omega), except_ok_bind, checkedAddOrThrow_of_le (by omega),
      except_ok_bind, checkedSize_eq_ok.mpr ⟨rfl, (by omega)⟩, except_ok_bind, hfold, except_ok_bind]
    dsimp only
    rw [hoffsets, except_ok_bind, checkedMultiplyOrThrow_of_le (by omega), except_ok_bind,
      checkedAddOrThrow_of_le (by omega), except_ok_bind, checkedSize_eq_ok.mpr ⟨rfl, (by omega)⟩,
      except_ok_bind, require_of hfits]
    exact ⟨_, rfl, rfl⟩

end BPlusTreeIndex

/-! ## Sorted arrays -/

/-- The length of the file `Build` would write. -/
def SortedArrayIndex.fileLength (config : IndexConfig) (pageSize : Nat) : Except Error Nat := do
  let offsets ← metadataOffsets config.qalsh.numHashTables
    (config.qalsh.numHashTables * config.numDimensions) pageSize
  return offsets.data + config.numPoints * config.qalsh.numHashTables * entrySize

theorem SortedArrayIndex.layoutOf_ok {config : IndexConfig} {pageSize : Nat} {vectors : List Binary32}
    {tables : List (SortedTable config.numPoints)} (hvalid : ValidConfig config)
    (hsize : AcceptedPageSize pageSize)
    (hvectors : vectors.length = config.qalsh.numHashTables * config.numDimensions)
    (htables : tables.length = config.qalsh.numHashTables) :
    ∃ length, SortedArrayIndex.fileLength config pageSize = .ok length ∧ (length ≤ offTMax →
      ∃ layout, SortedArrayIndex.layoutOf config pageSize vectors (tables.map SortedTable.entries) =
        .ok layout ∧ layout.fileSize = length) := by
  have hmax : uint64Max = 2 ^ 64 - 1 := rfl
  have hoff : offTMax ≤ uint64Max := by decide
  have hpoints : config.numPoints ≤ 2 ^ 30 := hvalid.points.2
  have hsome := hvalid.points.1
  have htable : config.qalsh.numHashTables ≤ 2 ^ 20 := hvalid.tables.2
  have hcapacity := leafCapacity_pos hsize
  obtain ⟨offsets, hoffsets⟩ := metadataOffsets_ok htable
    (tables_mul_dimensions_le hvalid.tables.2 hvalid.dimensions.2) hsize
  have hlengths : ∀ entries ∈ tables.map SortedTable.entries, entries.length = config.numPoints := by
    intro entries hentries
    obtain ⟨table, -, rfl⟩ := List.mem_map.mp hentries
    exact table.length_entries
  have hregions : ((config.numPoints - 1) / leafCapacity pageSize + 1) *
      config.qalsh.numHashTables ≤ 2 ^ 30 * 2 ^ 20 := by
    have hdiv := Nat.div_le_self (config.numPoints - 1) (leafCapacity pageSize)
    exact Nat.mul_le_mul (by omega) htable
  have hentries : config.numPoints * config.qalsh.numHashTables ≤ 2 ^ 30 * 2 ^ 20 :=
    Nat.mul_le_mul hpoints htable
  have hentrySize : entrySize = 8 := rfl
  refine ⟨offsets.data + config.numPoints * config.qalsh.numHashTables * entrySize, ?_, fun hfits => ?_⟩
  · unfold SortedArrayIndex.fileLength
    rw [hoffsets]
    rfl
  · have hend := SortedArrayIndex.tableAt_eq offsets.data config.numPoints config.qalsh.numHashTables
    have hplaced := SortedArrayIndex.placeTables_eq offsets.data hlengths
      (by rw [List.length_map, htables, ← hend]; omega)
    rw [List.length_map, htables, ← hend] at hplaced
    have hcount : (tables.map SortedTable.entries).length = config.qalsh.numHashTables := by
      rw [List.length_map, htables]
    unfold SortedArrayIndex.layoutOf
    dsimp only
    rw [checkedMultiplyOrThrow_of_le (by omega), except_ok_bind, checkedMultiplyOrThrow_of_le (by omega),
      except_ok_bind, require_of hcapacity, except_ok_bind, checkedMultiplyOrThrow_of_le (by omega),
      except_ok_bind, hcount, hvectors, hoffsets, except_ok_bind, checkedAddOrThrow_of_le (by omega),
      except_ok_bind, checkedSize_eq_ok.mpr ⟨rfl, (by omega)⟩, except_ok_bind, require_of hfits,
      except_ok_bind, hplaced, except_ok_bind]
    dsimp only
    rw [require_of rfl]
    exact ⟨_, rfl, rfl⟩

/-! ## Round trips -/

section RoundTrips

variable [Platform] {config : IndexConfig} {vectors : List Binary32} {accessor : PointAccessor}
  {pageSize : Nat} {path : String}

/-- A build leaves no choice of its vectors and tables. -/
theorem BuildTables.unique {tables : List (SortedTable config.numPoints)}
    (h : BuildTables config accessor vectors tables) {vectors' : List Binary32}
    {tables' : List (SortedTable config.numPoints)}
    (h' : BuildTables config accessor vectors' tables') : vectors' = vectors ∧ tables' = tables := by
  have hvectors : vectors' = vectors := Except.ok.inj (h'.made.symm.trans h.made)
  subst hvectors
  have hentries : tables'.map SortedTable.entries = tables.map SortedTable.entries :=
    Except.ok.inj (h'.projected.symm.trans h.projected)
  have hinjective :
      Function.Injective (SortedTable.entries : SortedTable config.numPoints → List Entry) :=
    fun _ _ heq => BPlusTreeIndex.SortedTable.eq_of_entries heq
  exact ⟨rfl, List.map_injective_iff.mpr hinjective hentries⟩

/-- The points of a projectable configuration are pushed. -/
theorem Projectable.pushPoints (h : Projectable config vectors accessor)
    {checks : Except Error Unit} (hchecks : checks = .ok ()) :
    ∃ pushed, Qalsh.pushPoints config (some accessor) checks = .ok (vectors, pushed) := by
  obtain ⟨tables, htables⟩ := h.projectTables
  rw [projectTables_eq] at htables
  cases hpushed : pushTables config vectors accessor with
  | error e => rw [hpushed] at htables; cases htables
  | ok pushed =>
      refine ⟨pushed, ?_⟩
      unfold Qalsh.pushPoints
      rw [validateConfig_eq_ok.mpr h.valid, except_ok_bind]
      dsimp only
      rw [hchecks, except_ok_bind, h.made, except_ok_bind, hpushed]
      rfl

/-- What a build needs of its caller, besides a configuration whose points can be
projected. -/
structure Target (path : String) (pageSize : Nat) : Prop where
  named : path ≠ ""
  accepted : AcceptedPageSize pageSize

/-- Both builds reach their layout with the tables of the build, unless a thread cannot be
started. -/
theorem Projectable.prepared {α : Type} (h : Projectable config vectors accessor)
    (htarget : Target path pageSize) (scheduler : Scheduler) (badPageSize : String)
    (layoutOf : List Binary32 → List (List Entry) → Except Error α) {prepare : Except Error α}
    (hprepare : prepare = (do
      let (vectors, pushed) ← Qalsh.pushPoints config (some accessor)
        (checkTarget badPageSize path pageSize)
      let entries ← scheduler.sortTables config.buildThreads pushed
      layoutOf vectors entries)) :
    (∃ pushed e, SortTables config.buildThreads pushed (.error e) ∧ prepare = .error e) ∨
      ∃ tables, BuildTables config accessor vectors tables ∧
        prepare = layoutOf vectors (tables.map SortedTable.entries) := by
  have hchecks : checkTarget badPageSize path pageSize = .ok () :=
    checkTarget_eq_ok.mpr ⟨htarget.named, htarget.accepted⟩
  obtain ⟨pushed, hpushed⟩ := h.pushPoints hchecks
  rw [hpushed, except_ok_bind] at hprepare
  dsimp only at hprepare
  cases hsorted : scheduler.sortTables config.buildThreads pushed with
  | error e =>
      rw [hsorted] at hprepare
      exact Or.inl ⟨pushed, e, hsorted ▸ scheduler.possible config.buildThreads pushed, hprepare⟩
  | ok entries =>
      obtain ⟨-, points, tables, hpoints, hbuild, rfl⟩ := buildTables_of_sorted hpushed hsorted
      cases hpoints
      rw [hsorted] at hprepare
      exact Or.inr ⟨tables, hbuild, hprepare⟩

/-- A sorted-array file that fits is written in full, unless a thread cannot be started;
it can be opened, and what is opened serves the tables of the build. -/
theorem SortedArrayIndex.array_round_trip (h : Projectable config vectors accessor)
    (htarget : Target path pageSize) (scheduler : Scheduler) :
    ∃ length, SortedArrayIndex.fileLength config pageSize = .ok length ∧ (length ≤ offTMax →
      (∃ pushed e, SortTables config.buildThreads pushed (.error e) ∧
        SortedArrayIndex.prepare scheduler path config (some accessor) pageSize = .error e) ∨
      ∃ layout file tables,
        SortedArrayIndex.prepare scheduler path config (some accessor) pageSize = .ok layout ∧
        layout.image = .ok file ∧ file.length = length ∧
        BuildTables config accessor vectors tables ∧
        ∀ path', ∃ index, SortedArrayIndex.openFile file path' = .ok index ∧
          index.Serves config pageSize vectors tables length) := by
  obtain hfailed | ⟨tables, hbuild, hprepare⟩ := h.prepared htarget scheduler
    "sorted-array region size must be a multiple of 8 between 512 bytes and 64 MiB"
    (SortedArrayIndex.layoutOf config pageSize) rfl
  · have ⟨offsets, hoffsets⟩ := metadataOffsets_ok h.valid.tables.2
      (tables_mul_dimensions_le h.valid.tables.2 h.valid.dimensions.2) htarget.accepted
    exact ⟨_, by rw [SortedArrayIndex.fileLength, hoffsets]; rfl, fun _ => Or.inl hfailed⟩
  · obtain ⟨hlength, hfinite⟩ := makeProjectionVectors_spec h.valid h.made
    obtain ⟨length, hlong, hfits⟩ := SortedArrayIndex.layoutOf_ok h.valid htarget.accepted hlength
      hbuild.count
    refine ⟨length, hlong, fun hsmall => Or.inr ?_⟩
    obtain ⟨layout, hlayout, rfl⟩ := hfits hsmall
    obtain ⟨file, himage, hlaid⟩ := SortedArrayIndex.layoutOf_laid h.valid htarget.accepted hlength hfinite
      (by rw [List.length_map, hbuild.count]) (fun table htable => by
        obtain ⟨sorted, -, rfl⟩ := List.mem_map.mp htable
        exact sorted.length_entries) hlayout
    obtain ⟨_, _, -, -, -, -, -, hwritten⟩ := hlaid.written
    exact ⟨layout, file, tables, hprepare.trans hlayout, himage, hwritten.length, hbuild,
      SortedArrayIndex.openFile_laid hlaid hbuild.count⟩

omit [Platform] in
/-- A build with one thread starts none. -/
theorem not_sortTables_one {pushed : List (List Entry)} {e : Error} :
    ¬ SortTables 1 pushed (.error e) := by
  intro h
  cases h with
  | thrown _ hlt _ _ => exact absurd hlt (Nat.not_lt.mpr (Nat.min_le_left _ _))

omit [Platform] in
theorem unitTarget : Target "index" 512 := ⟨by decide, by decide, by decide, by decide⟩

omit [Platform] in
/-- The point on the line in a sorted-array file. -/
theorem SortedArrayIndex.array_round_trip_unit : ∃ layout file index,
    @SortedArrayIndex.prepare (exactPlatform true) Scheduler.smooth "index" unitConfig
      (some fun _ => .ok [one]) 512 = .ok layout ∧ layout.image = .ok file ∧
      SortedArrayIndex.openFile file "index" = .ok index := by
  obtain ⟨length, hlength, hfits⟩ := @SortedArrayIndex.array_round_trip (exactPlatform true) _ _ _ _ _
    unitConfig_projectable unitTarget Scheduler.smooth
  cases hlength
  obtain ⟨pushed, e, herror, -⟩ | ⟨layout, file, tables, hprepare, himage, -, -, hopen⟩ :=
    hfits (by decide)
  · exact absurd herror not_sortTables_one
  · obtain ⟨index, hindex, -⟩ := hopen "index"
    exact ⟨layout, file, index, hprepare, himage, hindex⟩

omit [Platform] in
/-- The tables of an accepted file follow one another from the data offset to the end of
the file, and each has every point once, in strict order. -/
theorem SortedArrayIndex.openFile_tiled {file : File} {path : String} {index : SortedArrayIndex}
    (h : SortedArrayIndex.openFile file path = .ok index) :
    (index.mapping = file ∧ index.metadata.fileSize = file.length) ∧
    index.tableOffsets = (List.range index.metadata.numHashTables).map
      (SortedArrayIndex.tableAt index.dataOffset index.metadata.numPoints) ∧
    SortedArrayIndex.tableAt index.dataOffset index.metadata.numPoints index.metadata.numHashTables = file.length ∧
    ∀ tableId < index.metadata.numHashTables, ∃ table : SortedTable index.metadata.numPoints,
      ∀ k < index.metadata.numPoints,
        decodeEntry (file.drop (SortedArrayIndex.tableAt index.dataOffset index.metadata.numPoints tableId))
          (k * entrySize) = table.entryAt k := by
  have hload := SortedArrayIndex.openFile_spec h
  obtain ⟨-, -, tables, hlength, -, hstores⟩ := SortedArrayIndex.loadHeader_spec hload
  obtain ⟨⟨hmapping, hsize⟩, hoffsets, hend⟩ := SortedArrayIndex.loadHeader_placed hload
  refine ⟨⟨hmapping, hsize⟩, hoffsets, hend, fun tableId ht => ?_⟩
  have hlt : tableId < tables.length := hlength.symm ▸ ht
  let t : QueryTable index.metadata.numPoints :=
    ⟨tables.get ⟨tableId, hlt⟩, tableId, Binary32.zero, by decide⟩
  obtain ⟨offset, hoffset, -, hentries⟩ := (hstores t (List.getElem?_eq_getElem hlt)).offset
  rw [hoffsets, List.getElem?_map, List.getElem?_range ht, Option.map_some, Option.some.injEq] at hoffset
  rw [← hoffset, hmapping] at hentries
  exact ⟨t.table, hentries⟩

omit [Platform] in
/-- The tables of the point on the line. -/
theorem SortedArrayIndex.openFile_tiled_unit : ∃ (file : File) (index : SortedArrayIndex),
    SortedArrayIndex.openFile file "index" = .ok index ∧
      SortedArrayIndex.tableAt index.dataOffset index.metadata.numPoints index.metadata.numHashTables =
        file.length := by
  obtain ⟨layout, file, index, -, -, hopen⟩ := SortedArrayIndex.array_round_trip_unit
  exact ⟨file, index, hopen, (SortedArrayIndex.openFile_tiled hopen).2.2.1⟩

/-- A B+ tree file that fits is written in full, unless a thread cannot be started; it can
be opened, and what is opened serves the tables of the build. -/
theorem BPlusTreeIndex.tree_round_trip (h : Projectable config vectors accessor)
    (htarget : Target path pageSize) (scheduler : Scheduler) :
    ∃ length, BPlusTreeIndex.fileLength config pageSize = .ok length ∧ (length ≤ offTMax →
      (∃ pushed e, SortTables config.buildThreads pushed (.error e) ∧
        BPlusTreeIndex.prepare scheduler path config (some accessor) pageSize = .error e) ∨
      ∃ layout file tables,
        BPlusTreeIndex.prepare scheduler path config (some accessor) pageSize = .ok layout ∧
        layout.image = .ok file ∧ file.length = length ∧
        BuildTables config accessor vectors tables ∧
        ∀ path', ∃ index, BPlusTreeIndex.openFile file path' = .ok index ∧
          index.Serves config pageSize vectors tables length) := by
  obtain ⟨hlength, hfinite⟩ := makeProjectionVectors_spec h.valid h.made
  obtain ⟨tables, htables⟩ := h.projectTables
  obtain ⟨sorted, rfl, hcount⟩ := projectTables_spec htables
  obtain ⟨length, hlong, hfits⟩ := BPlusTreeIndex.layoutOf_ok h.valid htarget.accepted hlength hcount
  refine ⟨length, hlong, fun hsmall => ?_⟩
  obtain hfailed | ⟨tables, hbuild, hprepare⟩ := h.prepared htarget scheduler
    "page size must be a multiple of 8 between 512 bytes and 64 MiB"
    (BPlusTreeIndex.layoutOf config pageSize) rfl
  · exact Or.inl hfailed
  · obtain ⟨-, rfl⟩ := hbuild.unique ⟨h.valid, h.made, htables, hcount⟩
    obtain ⟨layout, hlayout, rfl⟩ := hfits hsmall
    obtain ⟨file, himage, hlaid⟩ := BPlusTreeIndex.layoutOf_laid h.valid htarget.accepted hlength hfinite
      hbuild.count hlayout
    obtain ⟨_, _, _, _, -, -, -, -, -, hwritten⟩ := hlaid.written
    exact Or.inr ⟨layout, file, sorted, hprepare.trans hlayout, himage, hwritten.length, hbuild,
      BPlusTreeIndex.openFile_laid hlaid hbuild.count⟩

omit [Platform] in
/-- The point on the line in a B+ tree file. -/
theorem BPlusTreeIndex.tree_round_trip_unit : ∃ layout file index,
    @BPlusTreeIndex.prepare (exactPlatform true) Scheduler.smooth "index" unitConfig
      (some fun _ => .ok [one]) 512 = .ok layout ∧ layout.image = .ok file ∧
      BPlusTreeIndex.openFile file "index" = .ok index := by
  obtain ⟨length, hlength, hfits⟩ := @BPlusTreeIndex.tree_round_trip (exactPlatform true) _ _ _ _ _
    unitConfig_projectable unitTarget Scheduler.smooth
  cases hlength
  obtain ⟨pushed, e, herror, -⟩ | ⟨layout, file, tables, hprepare, himage, -, -, hopen⟩ :=
    hfits (by decide)
  · exact absurd herror not_sortTables_one
  · obtain ⟨index, hindex, -⟩ := hopen "index"
    exact ⟨layout, file, index, hprepare, himage, hindex⟩

end RoundTrips

end Qalsh
