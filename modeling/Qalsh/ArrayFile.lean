/-
  ArrayFile.lean --- a sorted-array file that was built can be opened.

  The tables lie side by side after the metadata, so each is read back entry by entry;
  they are sorted and mention every point once, which is what the loader checks.
-/
import Qalsh.Written

set_option autoImplicit false

namespace Qalsh.SortedArrayIndex

open Foundation

/-! ## The layout -/

/-- Where a table starts. -/
def tableAt (data points tableId : Nat) : Nat := data + tableId * (points * entrySize)

theorem tableAt_succ (data points tableId : Nat) :
    tableAt data points (tableId + 1) = tableAt data points tableId + points * entrySize := by
  rw [tableAt, tableAt, Nat.succ_mul, Nat.add_assoc]

theorem tableAt_eq (data points count : Nat) :
    data + points * count * entrySize = tableAt data points count := by
  rw [tableAt, Nat.mul_comm points count, Nat.mul_assoc]

theorem tableAt_mono (data points : Nat) {i j : Nat} (h : i ≤ j) :
    tableAt data points i ≤ tableAt data points j :=
  Nat.add_le_add_left (Nat.mul_le_mul_right _ h) _

section Layout

variable {points data : Nat} {entries : List (List Entry)}

variable (data) in
/-- The loop over the table offsets. -/
theorem placeTables_eq (hlength : ∀ table ∈ entries, table.length = points)
    (hmax : tableAt data points entries.length ≤ uint64Max) :
    entries.foldlM placeTable ([], data) = .ok
      ((List.range entries.length).map (tableAt data points), tableAt data points entries.length) := by
  induction entries using List.reverseRecOn with
  | nil => simp [tableAt]
  | append_singleton entries table ih =>
      rw [List.length_append, List.length_singleton] at hmax
      have hsucc := tableAt_succ data points entries.length
      have hbelow : points * entrySize ≤ uint64Max := by omega
      rw [List.foldlM_append, ih (fun other hother => hlength other (List.mem_append_left _ hother))
        (by omega), except_ok_bind, List.foldlM_cons]
      unfold placeTable
      rw [hlength table (by simp), checkedMultiplyOrThrow_of_le hbelow, except_ok_bind,
        checkedAddOrThrow_of_le (by dsimp only; omega), except_ok_bind]
      simp only [except_pure, except_ok_bind, List.foldlM_nil, List.length_append,
        List.length_singleton, List.range_succ, List.map_append, List.map_singleton, hsucc]

/-- The tables with their offsets. -/
def tableData (data points : Nat) (entries : List (List Entry)) : List (Nat × List UInt8) :=
  entries.zipIdx.map fun table => (tableAt data points table.2, table.1.flatMap encodeEntry)

variable (data) in
theorem tablePieces_eq (hlength : ∀ table ∈ entries, table.length = points)
    (hmax : tableAt data points entries.length ≤ uint64Max) :
    List.zipWith tablePiece entries ((List.range entries.length).map (tableAt data points)) =
      (tableData data points entries).map Except.ok := by
  refine List.ext_getElem (by simp [tableData]) fun i hi hi' => ?_
  have hi : i < entries.length := by simpa using hi
  have hsucc := tableAt_succ data points i
  have hmono := tableAt_mono data points (show i + 1 ≤ entries.length from hi)
  have hbelow : points * entrySize ≤ uint64Max := by omega
  simp only [List.getElem_zipWith, List.getElem_map, List.getElem_range, tableData,
    List.getElem_zipIdx, Nat.zero_add]
  unfold tablePiece
  rw [hlength _ (List.getElem_mem hi), checkedMultiplyOrThrow_of_le hbelow, except_ok_bind,
    checkedSize_eq_ok.mpr ⟨rfl, hbelow⟩]
  rfl

theorem length_encodeTable {table : List Entry} (h : table.length = points) :
    (table.flatMap encodeEntry).length = points * entrySize := by
  rw [length_flatMap_const length_encodeEntry, h, Nat.mul_comm]

variable (data) in
theorem tableData_sideBySide (hlength : ∀ table ∈ entries, table.length = points) :
    SideBySide (tableAt data points entries.length) (tableData data points entries) := by
  have hdata : ∀ i (hi : i < entries.length),
      (entries[i].flatMap encodeEntry).length = points * entrySize :=
    fun i hi => length_encodeTable (hlength _ (List.getElem_mem hi))
  refine ⟨fun piece hpiece => ?_, ?_⟩
  · obtain ⟨⟨table, i⟩, hmem, rfl⟩ := List.mem_map.mp hpiece
    obtain ⟨hi, htable⟩ := List.mem_zipIdx' hmem
    have hlength := hdata i hi
    rw [← htable] at hlength
    dsimp only
    rw [hlength, ← tableAt_succ]
    exact tableAt_mono data points hi
  · rw [List.pairwise_iff_getElem]
    intro i j hi hj hij
    have hi : i < entries.length := by simpa [tableData] using hi
    have hmono := tableAt_mono data points (show i + 1 ≤ j from hij)
    simp only [tableData, List.getElem_map, List.getElem_zipIdx, Nat.zero_add]
    refine Or.inl ?_
    rw [hdata i hi, ← tableAt_succ]
    exact hmono

theorem pieces_eq {tooLarge : String} {header : DiskFileHeader} {vectors : List Binary32}
    {count : Nat} (hcount : entries.length = count) (hroots : count * 8 ≤ uint64Max)
    (hvectors : vectors.length * 4 ≤ uint64Max) (hlength : ∀ table ∈ entries, table.length = points)
    (hmax : tableAt data points count ≤ uint64Max) :
    metadataPieces tooLarge header ((List.range count).map (tableAt data points)) vectors ++
        List.zipWith tablePiece entries ((List.range count).map (tableAt data points)) =
      (metadataData header ((List.range count).map (tableAt data points)) vectors ++
        tableData data points entries).map Except.ok := by
  subst hcount
  rw [metadataPieces_eq (by simpa using hroots) hvectors, tablePieces_eq data hlength hmax,
    List.map_append]

/-- What `Build` writes. -/
structure Laid (config : IndexConfig) (pageSize : Nat) (vectors : List Binary32)
    (entries : List (List Entry)) (fileSize : Nat) (file : File) : Prop where
  written : ∃ offsets regionCount, Framed config pageSize vectors offsets (regionCount + 1) fileSize ∧
    0 < leafCapacity pageSize ∧
    regionCount = ((config.numPoints - 1) / leafCapacity pageSize + 1) * config.qalsh.numHashTables ∧
    regionCount ≤ uint64Max ∧ fileSize = tableAt offsets.data config.numPoints config.qalsh.numHashTables ∧
    Written (headerFor sortedArrayMagic config pageSize offsets (regionCount + 1) fileSize)
      ((List.range config.qalsh.numHashTables).map (tableAt offsets.data config.numPoints)) vectors
      (tableData offsets.data config.numPoints entries) file

theorem layoutOf_laid {config : IndexConfig} {pageSize : Nat} {vectors : List Binary32}
    {layout : FileLayout} (hvalid : ValidConfig config) (haccepted : AcceptedPageSize pageSize)
    (hvectors : vectors.length = config.qalsh.numHashTables * config.numDimensions)
    (hfinite : ∀ value ∈ vectors, value.isFinite = true)
    (htables : entries.length = config.qalsh.numHashTables)
    (hlength : ∀ table ∈ entries, table.length = config.numPoints)
    (h : layoutOf config pageSize vectors entries = .ok layout) :
    ∃ file, layout.image = .ok file ∧ Laid config pageSize vectors entries layout.fileSize file := by
  have hmax : offTMax ≤ uint64Max := by decide
  simp only [layoutOf, except_bind_eq_ok, require_eq_ok] at h
  obtain ⟨total, htotal, entryBytes, hbytes, _, hcapacity, regionCount, hregions, offsets, hoffsets,
    fileSize, hsize, _, -, _, hsmall, placed, hplaced, _, hend, h⟩ := h
  obtain ⟨rfl, -⟩ := checkedMultiplyOrThrow_eq_ok htotal
  obtain ⟨rfl, hentryBytes⟩ := checkedMultiplyOrThrow_eq_ok hbytes
  obtain ⟨rfl, hregionCount⟩ := checkedMultiplyOrThrow_eq_ok hregions
  rw [htables] at hoffsets
  have hsound := metadataOffsets_sound hoffsets
  obtain ⟨rfl, hfile⟩ := checkedAddOrThrow_eq_ok hsound.small hsize
  have htotal := tableAt_eq offsets.data config.numPoints config.qalsh.numHashTables
  rw [htotal] at hfile hsmall hend
  have hplaced' := placeTables_eq offsets.data hlength (by rw [htables]; exact hfile)
  rw [hplaced', htables] at hplaced
  cases hplaced
  have hregionsSmall : ((config.numPoints - 1) / leafCapacity pageSize + 1) *
      config.qalsh.numHashTables ≤ 2 ^ 30 * 2 ^ 20 := by
    have hpoints : config.numPoints ≤ 2 ^ 30 := hvalid.points.2
    have hdiv := Nat.div_le_self (config.numPoints - 1) (leafCapacity pageSize)
    have hpos := hvalid.points.1
    exact Nat.mul_le_mul (by omega) hvalid.tables.2
  have hframed : Framed config pageSize vectors offsets _ _ :=
    { valid := hvalid
      accepted := haccepted
      vectorsLength := hvectors
      vectorsFinite := hfinite
      sound := hsound
      dataEnd := Nat.le_add_right _ _
      small := hsmall
      pages := lt_of_le_of_lt (Nat.succ_le_succ hregionsSmall) (by decide) }
  have hroots : ((List.range config.qalsh.numHashTables).map
      (tableAt offsets.data config.numPoints)).length = config.qalsh.numHashTables := by simp
  have hlaid := hframed.laidOut sortedArrayMagic rfl hroots fun root hroot => by
    obtain ⟨i, hi, rfl⟩ := List.mem_map.mp hroot
    have hmono := tableAt_mono offsets.data config.numPoints (List.mem_range.mp hi).le
    exact lt_of_le_of_lt (hmono.trans hsmall) (by decide)
  have hpieces := tableData_sideBySide offsets.data hlength
  rw [htables] at hpieces
  rw [htotal] at h
  cases h
  have hdata := hsound.data
  have hsmall' := hsound.small
  have hprojections := hsound.projections
  have hrootBytes : config.qalsh.numHashTables * 8 ≤ uint64Max := by omega
  have hvectorBytes : vectors.length * 4 ≤ uint64Max := by omega
  refine ⟨_, FileLayout.image_of_pieces (pieces_eq htables hrootBytes hvectorBytes hlength hfile),
    offsets, _, hframed, hcapacity, rfl, hregionCount, rfl, ?_⟩
  exact hlaid.written hpieces fun piece hpiece => by
    obtain ⟨table, -, rfl⟩ := List.mem_map.mp hpiece
    exact Nat.le_add_right _ _

end Layout

/-! ## Opening it -/

theorem slice_drop (bytes : List UInt8) (offset o n : Nat) :
    slice (bytes.drop offset) o n = slice bytes (offset + o) n := by
  rw [slice, slice, List.drop_drop]

section Open

variable {points data : Nat} {tables : List (SortedTable points)}

/-- The entries of a table are read back. -/
theorem decodeEntry_written {header : DiskFileHeader} {roots : List Nat} {vectors : List Binary32}
    {file : File} (h : Written header roots vectors
      (tableData data points (tables.map SortedTable.entries)) file) (hpoints : points ≤ 2 ^ 32)
    {tableId k : Nat} (htable : tableId < tables.length) (hk : k < points) :
    decodeEntry (file.drop (tableAt data points tableId)) (k * entrySize) =
      tables[tableId].entryAt k := by
  have hlength := tables[tableId].length_entries
  have hencoded := length_encodeTable hlength
  have hpiece := h.data (tableAt data points tableId, tables[tableId].entries.flatMap encodeEntry)
    (List.mem_map.mpr ⟨(tables[tableId].entries, tableId), by
      rw [List.mk_mem_zipIdx_iff_getElem?, List.getElem?_map, List.getElem?_eq_getElem htable]
      rfl, rfl⟩)
  dsimp only at hpiece
  have hk' : k < tables[tableId].entries.length := hlength.symm ▸ hk
  have hfit : k * entrySize + entrySize ≤ points * entrySize := by
    rw [← Nat.succ_mul]
    exact Nat.mul_le_mul_right _ hk
  have hentry := slice_flatMap length_encodeEntry tables[tableId].entries [] hk'
  rw [List.append_nil, Nat.mul_comm] at hentry
  have hat : tables[tableId].entries[k] = tables[tableId].entryAt k :=
    (List.getD_eq_getElem _ _ hk').symm
  refine decodeEntry_encode (lt_of_lt_of_le (tables[tableId].pointId_lt hk) hpoints) ?_
  rw [slice_drop, ← hat, ← hentry, ← hpiece, slice_slice (by rw [hencoded]; exact hfit)]

/-- What the entry loop has marked after some entries of a sorted table. -/
structure Marked (table : SortedTable points) (marks : Nat → Nat) (tag count : Nat)
    (state : (Nat → Nat) × Entry) : Prop where
  marks : ∀ id, state.1 id = if id ∈ (table.entries.take count).map Entry.pointId then tag else marks id
  previous : 0 < count → state.2 = table.entryAt (count - 1)

theorem take_succ_ids (table : SortedTable points) {i : Nat} (hi : i < points) :
    (table.entries.take (i + 1)).map Entry.pointId =
      (table.entries.take i).map Entry.pointId ++ [(table.entryAt i).pointId] := by
  have hi' : i < table.entries.length := table.length_entries.symm ▸ hi
  rw [List.take_succ_eq_append_getElem hi', List.map_append, List.map_singleton]
  unfold SortedTable.entryAt
  rw [List.getD_eq_getElem _ _ hi']

theorem not_mem_take (table : SortedTable points) {i : Nat} (hi : i < points) :
    (table.entryAt i).pointId ∉ (table.entries.take i).map Entry.pointId := by
  have hnodup : ((table.entries.take (i + 1)).map Entry.pointId).Nodup := by
    rw [List.map_take]
    exact (table.ids.nodup_iff.mpr List.nodup_range).sublist (List.take_sublist _ _)
  rw [take_succ_ids table hi] at hnodup
  intro hmem
  exact (List.nodup_append.mp hnodup).2.2 _ hmem _ List.mem_cons_self rfl

/-- The next entry of a sorted table passes. -/
theorem checkEntry_ok {table : SortedTable points} {marks : Nat → Nat} {tableId i tableBytes : Nat}
    {bytes : List UInt8} {state : (Nat → Nat) × Entry} (hi : i < points)
    (hbytes : tableBytes = points * entrySize) (hmax : tableBytes ≤ uint64Max)
    (hentry : decodeEntry bytes (i * entrySize) = table.entryAt i) (hmarks : ∀ id, marks id ≤ tableId)
    (h : Marked table marks (tableId + 1) i state) :
    ∃ state', checkEntry points tableBytes tableId bytes state i = .ok state' ∧
      Marked table marks (tableId + 1) (i + 1) state' := by
  have hfit : i * entrySize + entrySize ≤ tableBytes := by
    rw [hbytes, ← Nat.succ_mul]
    exact Nat.mul_le_mul_right _ hi
  have hordered : i ≠ 0 → keyLess state.2 (table.entryAt i) = true := by
    intro hne
    rw [h.previous (Nat.pos_of_ne_zero hne)]
    exact table.keyLess_entryAt (by omega) hi
  have hunmarked : state.1 (table.entryAt i).pointId ≠ tableId + 1 := by
    rw [h.marks, if_neg (not_mem_take table hi)]
    exact (Nat.lt_succ_of_le (hmarks _)).ne
  refine ⟨(setAt state.1 (table.entryAt i).pointId (tableId + 1), table.entryAt i), ?_, fun id => ?_,
    fun _ => rfl⟩
  · simp only [checkEntry, readArrayEntry_of hfit hmax, hentry, except_ok_bind,
      require_of (And.intro (table.entryAt_finite hi) (table.pointId_lt hi))]
    rw [require_of hunmarked]
    split
    · rename_i hne
      rw [require_of (hordered hne)]
      rfl
    · rfl
  · show setAt state.1 _ _ id = _
    rw [take_succ_ids table hi]
    by_cases heq : id = (table.entryAt i).pointId
    · subst heq
      simp
    · rw [setAt_other _ _ heq, h.marks]
      simp [heq]

/-- A table that lies where the last one ended passes. -/
theorem checkTable_ok {file : File} {header : DiskFileHeader} {tableOffsets : List Nat}
    {table : SortedTable header.numPoints} {state : Nat × (Nat → Nat)} {tableId : Nat}
    (hoffset : tableOffsets.getD tableId 0 = state.1)
    (hend : state.1 + header.numPoints * entrySize ≤ header.fileSize)
    (hmax : header.fileSize ≤ uint64Max)
    (hentries : ∀ i < header.numPoints,
      decodeEntry (file.drop state.1) (i * entrySize) = table.entryAt i)
    (hmarks : ∀ id, state.2 id ≤ tableId) :
    ∃ marks, checkTable file header tableOffsets (header.numPoints * entrySize) state tableId =
        .ok (state.1 + header.numPoints * entrySize, marks) ∧ ∀ id, marks id ≤ tableId + 1 := by
  have hbytes : header.numPoints * entrySize ≤ uint64Max := by omega
  have hbefore : state.1 ≤ uint64Max := by omega
  have hextent : state.1 + header.numPoints * entrySize ≤ uint64Max := hend.trans hmax
  have hentryLoop : ∃ result, (List.range header.numPoints).foldlM (checkEntry header.numPoints
        (header.numPoints * entrySize) tableId (file.drop state.1)) (state.2, default) = .ok result ∧
      Marked table state.2 (tableId + 1) header.numPoints result :=
    foldlM_range_ok (P := Marked table state.2 (tableId + 1))
      ⟨fun id => by simp, fun h => absurd h (Nat.lt_irrefl 0)⟩
      fun i s hi hs => checkEntry_ok hi rfl hbytes (hentries i hi) hmarks hs
  obtain ⟨⟨marks, previous⟩, hloop, hmarked⟩ := hentryLoop
  have hall : ∀ id, marks id = if id < header.numPoints then tableId + 1 else state.2 id := by
    intro id
    have hmark := hmarked.marks id
    rw [List.take_of_length_le table.length_entries.le] at hmark
    refine hmark.trans (if_congr ?_ rfl rfl)
    rw [table.ids.mem_iff, List.mem_range]
  have hcomplete : (List.range header.numPoints).forM (fun pointId =>
      require (marks pointId = tableId + 1)
        "QALSH sorted-array table does not contain every point exactly once") = .ok () :=
    forM_eq_ok.mpr fun id hid => require_of (by rw [hall, if_pos (List.mem_range.mp hid)])
  refine ⟨marks, ?_, fun id => ?_⟩
  · unfold checkTable
    rw [hoffset]
    dsimp only
    rw [require_of rfl, except_ok_bind, checkedAddOrThrow_of_le hextent, except_ok_bind,
      require_of hend, except_ok_bind, checkedSize_eq_ok.mpr ⟨rfl, hbefore⟩, except_ok_bind,
      checkedSize_eq_ok.mpr ⟨rfl, hbytes⟩, except_ok_bind, hloop, except_ok_bind]
    dsimp only
    rw [hcomplete]
    rfl
  · rw [hall]
    split
    · exact le_rfl
    · exact (hmarks id).trans (Nat.le_succ _)

/-- What an opened file serves. -/
structure Serves (index : SortedArrayIndex) (config : IndexConfig) (pageSize : Nat)
    (vectors : List Binary32) (tables : List (SortedTable config.numPoints)) (fileSize : Nat) :
    Prop where
  metadata : index.metadata =
    { metadataFromConfig config pageSize .sortedArray with fileSize := fileSize }
  vectors : index.projectionVectors = vectors
  stores : ∀ t : QueryTable config.numPoints, tables[t.tableId]? = some t.table → index.Stores t

variable {config : IndexConfig} {pageSize fileSize : Nat} {vectors : List Binary32} {file : File}

/-- The envelope of a built file. -/
theorem envelope_ok {offsets : MetadataOffsets} {regionCount : Nat}
    (h : Framed config pageSize vectors offsets (regionCount + 1) fileSize)
    (hcapacity : 0 < leafCapacity pageSize)
    (hregions : regionCount =
      ((config.numPoints - 1) / leafCapacity pageSize + 1) * config.qalsh.numHashTables)
    (hcount : regionCount ≤ uint64Max)
    (hsize : fileSize = tableAt offsets.data config.numPoints config.qalsh.numHashTables) :
    validateSortedArrayFileHeaderEnvelope
      (headerFor sortedArrayMagic config pageSize offsets (regionCount + 1) fileSize) fileSize =
        .ok () := by
  have hmax : offTMax ≤ uint64Max := by decide
  have hsmall := h.small
  rw [← tableAt_eq] at hsize
  have hentries : config.numPoints * config.qalsh.numHashTables ≤
      config.numPoints * config.qalsh.numHashTables * entrySize :=
    Nat.le_mul_of_pos_right _ (by decide)
  unfold validateSortedArrayFileHeaderEnvelope
  rw [h.validateHeaderFields, except_ok_bind]
  show (checkedMultiplyOrThrow config.numPoints config.qalsh.numHashTables _ >>= fun total =>
    checkedMultiplyOrThrow total entrySize _ >>= fun entryBytes =>
    require (leafCapacity pageSize > 0) _ >>= fun _ =>
    checkedMultiplyOrThrow ((config.numPoints - 1) / leafCapacity pageSize + 1)
      config.qalsh.numHashTables _ >>= fun count =>
    require (regionCount + 1 = count + 1) _ >>= fun _ =>
    checkedAddOrThrow offsets.data entryBytes _ >>= fun expected =>
    require (fileSize = expected ∧ fileSize = fileSize) _ >>= fun _ => _) = _
  rw [checkedMultiplyOrThrow_of_le (by omega), except_ok_bind, checkedMultiplyOrThrow_of_le (by omega),
    except_ok_bind, require_of hcapacity, except_ok_bind, checkedMultiplyOrThrow_of_le (by omega),
    except_ok_bind, require_of (by rw [hregions]), except_ok_bind, checkedAddOrThrow_of_le (by omega),
    except_ok_bind, require_of ⟨hsize, rfl⟩, except_ok_bind]
  exact h.validateHeaderOffsets _

/-- A built file passes the loader. -/
theorem loadHeader_laid {tables : List (SortedTable config.numPoints)}
    (h : Laid config pageSize vectors (tables.map SortedTable.entries) fileSize file)
    (htables : tables.length = config.qalsh.numHashTables) (path : String) :
    ∃ index, loadHeader file path = .ok index ∧
      index.Serves config pageSize vectors tables fileSize := by
  obtain ⟨offsets, regionCount, hframed, hcapacity, hregions, hcount, hsize, hwritten⟩ := h.written
  have hmax : offTMax ≤ uint64Max := by decide
  have hoff : offTMax ≤ offMax := by decide
  have hsmall := hframed.small
  have hlength : file.length = fileSize := hwritten.length
  have hfile : file.length ≤ offMax := by omega
  have hroots := hframed.sound.roots
  have hprojections := hframed.sound.projections
  have hdata := hframed.sound.data
  have hdataEnd := hframed.dataEnd
  have hvectors := hframed.vectorsLength
  have hpoints : config.numPoints ≤ 2 ^ 32 := hframed.valid.points.2.trans (by decide)
  let header := headerFor sortedArrayMagic config pageSize offsets (regionCount + 1) fileSize
  let tableOffsets := (List.range config.qalsh.numHashTables).map
    (tableAt offsets.data config.numPoints)
  have hcountOffsets : tableOffsets.length = config.qalsh.numHashTables := by simp [tableOffsets]
  have htableLoop : ∃ result, (List.range config.qalsh.numHashTables).foldlM
      (checkTable file header tableOffsets (config.numPoints * entrySize))
        (offsets.data, fun _ => 0) = .ok result ∧
      result.1 = tableAt offsets.data config.numPoints config.qalsh.numHashTables ∧
        ∀ id, result.2 id ≤ config.qalsh.numHashTables := by
    refine foldlM_range_ok (P := fun count (state : Nat × (Nat → Nat)) =>
      state.1 = tableAt offsets.data config.numPoints count ∧ ∀ id, state.2 id ≤ count)
      ⟨by simp [tableAt], fun _ => le_rfl⟩ fun i state hi hstate => ?_
    obtain ⟨hat, hmarks⟩ := hstate
    have hsucc := tableAt_succ offsets.data config.numPoints i
    have hend := tableAt_mono offsets.data config.numPoints (show i + 1 ≤ _ from hi)
    have hoffset : tableOffsets.getD i 0 = state.1 := by
      rw [hat, List.getD_eq_getElem _ _ (hcountOffsets.symm ▸ hi)]
      simp [tableOffsets]
    have hentries : ∀ k < config.numPoints, decodeEntry (file.drop state.1) (k * entrySize) =
        tables[i].entryAt k := fun k hk => by
      rw [hat]
      exact decodeEntry_written hwritten hpoints (htables.symm ▸ hi) hk
    have hturn : ∃ marks, checkTable file header tableOffsets (config.numPoints * entrySize) state i =
        .ok (state.1 + config.numPoints * entrySize, marks) ∧ ∀ id, marks id ≤ i + 1 :=
      checkTable_ok hoffset (by show state.1 + config.numPoints * entrySize ≤ fileSize; omega)
        (by show fileSize ≤ uint64Max; omega) hentries hmarks
    obtain ⟨marks, hcheck, hmarks'⟩ := hturn
    exact ⟨_, hcheck, by rw [hsucc, hat], hmarks'⟩
  obtain ⟨⟨expected, marks⟩, hloop, hexpected, -⟩ := htableLoop
  have hdecoded : decodeFileHeader (slice file 0 fileHeaderSize) = header := hwritten.decoded
  have hoffsets := hwritten.offsets
  have hfloats := hwritten.floats
  rw [List.length_map, List.length_range] at hoffsets
  change decodeOffsets (slice file offsets.roots _) _ = tableOffsets at hoffsets
  change decodeFloats (slice file offsets.projections _) _ = vectors at hfloats
  rw [hvectors] at hfloats hdata
  have henvelope := envelope_ok hframed hcapacity hregions hcount hsize
  have hmetadata := hframed.metadata sortedArrayMagic .sortedArray
  have hqalsh : validateQalsh (metadataFromHeader header .sortedArray).qalsh false = .ok () := by
    rw [hmetadata]
    exact validateQalsh_eq_ok.mpr hframed.valid.qalsh
  have hchecked : vectors.forM (fun value =>
      requireFinite value "QALSH sorted-array projection vector") = .ok () :=
    forM_eq_ok.mpr fun value hvalue => require_of (hframed.vectorsFinite value hvalue)
  have hone : config.numPoints * entrySize ≤ fileSize := by
    have hmono := tableAt_mono offsets.data config.numPoints
      (show 0 + 1 ≤ config.qalsh.numHashTables from hframed.valid.tables.1)
    have hsucc := tableAt_succ offsets.data config.numPoints 0
    omega
  have hpoints64 : config.numPoints ≤ uint64Max := hpoints.trans (by decide)
  have hload : loadHeader file path = .ok
      { metadata := metadataFromHeader header .sortedArray
        projectionVectors := vectors
        tableOffsets := tableOffsets
        dataOffset := offsets.data
        mapping := file } := by
    unfold loadHeader
    rw [readAt_of_le (by omega) hfile, except_ok_bind]
    dsimp only
    rw [hdecoded, hlength, henvelope, except_ok_bind, hqalsh, except_ok_bind]
    simp only [show header.numHashTables = config.qalsh.numHashTables from rfl,
      show header.numDimensions = config.numDimensions from rfl,
      show header.numPoints = config.numPoints from rfl,
      show header.projectionsOffset = offsets.projections from rfl,
      show header.rootsOffset = offsets.roots from rfl,
      show header.dataOffset = offsets.data from rfl, show header.fileSize = fileSize from rfl]
    rw [checkedMultiplyOrThrow_of_le (by omega), except_ok_bind,
      checkedMultiplyOrThrow_of_le (by omega), except_ok_bind,
      checkedMultiplyOrThrow_of_le (by omega), except_ok_bind,
      checkedSize_eq_ok.mpr ⟨rfl, (by omega)⟩, except_ok_bind,
      checkedSize_eq_ok.mpr ⟨rfl, (by omega)⟩, except_ok_bind, readAt_of_le (by omega) hfile,
      except_ok_bind, checkedSize_eq_ok.mpr ⟨rfl, (by omega)⟩, except_ok_bind,
      checkedSize_eq_ok.mpr ⟨rfl, (by omega)⟩, except_ok_bind, readAt_of_le (by omega) hfile,
      except_ok_bind, hfloats, hoffsets, hchecked, except_ok_bind,
      checkedMultiplyOrThrow_of_le (by omega), except_ok_bind,
      checkedSize_eq_ok.mpr ⟨rfl, hpoints64⟩, except_ok_bind, hloop, except_ok_bind]
    dsimp only
    rw [require_of (hexpected.trans hsize.symm)]
    rfl
  refine ⟨_, hload, hmetadata, rfl, fun t ht => ⟨?_, by omega, ?_, ?_⟩⟩
  · rw [hmetadata]
    rfl
  · rw [hmetadata]
    exact hcapacity
  · obtain ⟨hlt, hget⟩ := List.getElem?_eq_some_iff.mp ht
    have hlt' : t.tableId < config.qalsh.numHashTables := htables ▸ hlt
    have hmono := tableAt_mono offsets.data config.numPoints hlt'.le
    refine ⟨tableAt offsets.data config.numPoints t.tableId, ?_, by omega, fun k hk => ?_⟩
    · show tableOffsets[t.tableId]? = _
      rw [List.getElem?_map, List.getElem?_range hlt']
      rfl
    · rw [← hget]
      exact decodeEntry_written hwritten hpoints hlt hk

/-- A built file can be opened, and what is opened serves the tables. -/
theorem openFile_laid {tables : List (SortedTable config.numPoints)}
    (h : Laid config pageSize vectors (tables.map SortedTable.entries) fileSize file)
    (htables : tables.length = config.qalsh.numHashTables) (path : String) :
    ∃ index, openFile file path = .ok index ∧
      index.Serves config pageSize vectors tables fileSize := by
  obtain ⟨index, hload, hserves⟩ := loadHeader_laid h htables path
  refine ⟨index, ?_, hserves⟩
  obtain ⟨offsets, regionCount, hframed, hcapacity, hregions, hcount, hsize, hwritten⟩ := h.written
  have hmax : offTMax ≤ uint64Max := by decide
  have hoff : offTMax ≤ offMax := by decide
  have hsmall := hframed.small
  have hlength : file.length = fileSize := hwritten.length
  have hprojections := hframed.sound.projections
  have hdata := hframed.sound.data
  have hdataEnd := hframed.dataEnd
  have hdecoded := hwritten.decoded
  unfold openFile
  rw [require_of (by omega), except_ok_bind, if_neg (by omega)]
  show (readAt file fileHeaderSize 0 path >>= fun envelope =>
    validateSortedArrayFileHeaderEnvelope (decodeFileHeader envelope) file.length >>= fun _ =>
    loadHeader file path) = _
  rw [readAt_of_le (by omega) (by omega), except_ok_bind, hdecoded, hlength,
    envelope_ok hframed hcapacity hregions hcount hsize, except_ok_bind, hload]

end Open

/-- What a build that has been prepared writes. -/
theorem prepare_laid [Platform] {scheduler : Scheduler} {path : String} {config : IndexConfig}
    {accessor : Option PointAccessor} {pageSize : Nat} {layout : FileLayout}
    (h : prepare scheduler path config accessor pageSize = .ok layout) :
    ∃ points vectors tables file, accessor = some points ∧
      BuildTables config points vectors tables ∧ AcceptedPageSize pageSize ∧
      layout.image = .ok file ∧
      Laid config pageSize vectors (tables.map SortedTable.entries) layout.fileSize file := by
  unfold prepare at h
  obtain ⟨⟨vectors, pushed⟩, hpushed, h⟩ := except_bind_eq_ok.mp h
  obtain ⟨entries, hsorted, h⟩ := except_bind_eq_ok.mp h
  obtain ⟨hchecks, points, tables, rfl, hbuild, rfl⟩ := buildTables_of_sorted hpushed hsorted
  have haccepted := (checkTarget_eq_ok.mp hchecks).2
  obtain ⟨hlength, hfinite⟩ := makeProjectionVectors_spec hbuild.valid hbuild.made
  obtain ⟨file, himage, hlaid⟩ := layoutOf_laid hbuild.valid haccepted hlength hfinite
    (by rw [List.length_map, hbuild.count]) (fun table htable => by
      obtain ⟨sorted, -, rfl⟩ := List.mem_map.mp htable
      exact sorted.length_entries) h
  exact ⟨points, vectors, tables, file, rfl, hbuild, haccepted, himage, hlaid⟩

/-! ## Accepted files -/

/-- A turn of the table loop goes on where the last table ended. -/
theorem checkTable_next {file : File} {header : DiskFileHeader} {tableOffsets : List Nat}
    {tableBytes tableId : Nat} {state state' : Nat × (Nat → Nat)} (hstate : state.1 ≤ uint64Max)
    (h : checkTable file header tableOffsets tableBytes state tableId = .ok state') :
    tableOffsets.getD tableId 0 = state.1 ∧ state'.1 = state.1 + tableBytes ∧ state'.1 ≤ uint64Max := by
  unfold checkTable at h
  simp only [except_bind_eq_ok, require_eq_ok] at h
  obtain ⟨_, hoffset, tableEnd, hend, _, -, _, -, _, -, _, -, _, -, h⟩ := h
  cases h
  rw [hoffset] at hend
  obtain ⟨rfl, hle⟩ := checkedAddOrThrow_eq_ok hstate hend
  exact ⟨hoffset, rfl, hle⟩

/-- Where the tables of an accepted file lie. -/
theorem loadHeader_placed {file : File} {path : String} {index : SortedArrayIndex}
    (h : loadHeader file path = .ok index) :
    (index.mapping = file ∧ index.metadata.fileSize = file.length) ∧
    index.tableOffsets = (List.range index.metadata.numHashTables).map
      (tableAt index.dataOffset index.metadata.numPoints) ∧
    tableAt index.dataOffset index.metadata.numPoints index.metadata.numHashTables = file.length := by
  simp only [loadHeader, except_bind_eq_ok, require_eq_ok] at h
  obtain ⟨headerBytes, -, _, henvelope, _, -, rootsBytes, -, values, -, valueBytes, -, tableCount,
    htableCount, rootsSize, -, offsetBytes, -, valueCount, -, projectionSize, -, projectionData, -, u, -,
    tableBytes, htableBytes, _, -, ⟨expected, marks⟩, hloop, _, hexpected, hindex⟩ := h
  generalize decodeFileHeader headerBytes = header at *
  obtain ⟨rfl, -⟩ := checkedSize_eq_ok.mp htableCount
  obtain ⟨rfl, -⟩ := checkedMultiplyOrThrow_eq_ok htableBytes
  cases hindex
  have hfile : header.fileSize = file.length ∧ ValidHeader header := by
    simp only [validateSortedArrayFileHeaderEnvelope, except_bind_eq_ok, require_eq_ok] at henvelope
    obtain ⟨_, hfields, _, -, _, -, _, -, _, -, _, -, _, -, _, hsize, hoffsets⟩ := henvelope
    exact ⟨hsize.2, validateHeader_valid hfields hoffsets⟩
  have hstart : header.dataOffset ≤ uint64Max := hfile.2.data.2.trans hfile.2.fileSize
  have hlength : (decodeOffsets offsetBytes header.numHashTables).length = header.numHashTables := by
    simp [decodeOffsets]
  -- the table loop stands where the next table is expected
  have hplaced := foldlM_range_invariant
    (P := fun count (state : Nat × (Nat → Nat)) => state.1 ≤ uint64Max ∧
      state.1 = tableAt header.dataOffset header.numPoints count ∧
      ∀ i < count, (decodeOffsets offsetBytes header.numHashTables).getD i 0 =
        tableAt header.dataOffset header.numPoints i)
    ⟨hstart, by simp [tableAt], fun i hi => absurd hi (Nat.not_lt_zero i)⟩
    (fun i state state' hi hstate hturn => by
      obtain ⟨hle, hat, hall⟩ := hstate
      obtain ⟨hoffset, hnext, hle'⟩ := checkTable_next hle hturn
      refine ⟨hle', by rw [hnext, hat, tableAt_succ], fun j hj => ?_⟩
      rcases Nat.lt_succ_iff_lt_or_eq.mp hj with hlt | rfl
      · exact hall j hlt
      · rw [hoffset, hat]) hloop
  obtain ⟨-, hend, hoffsets⟩ := hplaced
  refine ⟨⟨rfl, hfile.1⟩, List.ext_getElem ?_ fun i hi hi' => ?_, ?_⟩
  · simp [decodeOffsets, metadataFromHeader]
  · have hlt : i < header.numHashTables := hlength ▸ hi
    have hget := hoffsets i hlt
    rw [List.getD_eq_getElem _ _ hi] at hget
    rw [List.getElem_map, List.getElem_range]
    exact hget
  · exact hend.symm.trans (hexpected.trans hfile.1)

end Qalsh.SortedArrayIndex
