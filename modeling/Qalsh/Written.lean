/-
  Written.lean --- the start of a written file, as a loader finds it.

  `Build` sizes the file and writes pieces that do not overlap, so every piece is read
  back.  Of both formats this gives the header, the offsets and the projection vectors,
  and the header passes the checks the formats share.
-/
import Qalsh.ArrayBuild
import Qalsh.PageCodec
import Qalsh.Foundation.Pieces

set_option autoImplicit false

namespace Qalsh

open Foundation

/-! ## Complete files -/

/-- Pieces that have all been prepared make a complete file. -/
theorem FileLayout.image_of_pieces {layout : FileLayout} {pieces : List (Nat × List UInt8)}
    (h : layout.pieces = pieces.map Except.ok) :
    layout.image = .ok (writePieces pieces (Foundation.resize layout.fileSize [])) := by
  unfold image
  rw [h]
  generalize Foundation.resize layout.fileSize [] = bytes
  induction pieces generalizing bytes with
  | nil => rfl
  | cons piece rest ih =>
      have hrest : ∀ bytes, (rest.map Except.ok).foldlM place bytes =
          (.ok (writePieces rest bytes) : Except Error (List UInt8)) := by
        intro bytes
        clear h ih
        induction rest generalizing bytes with
        | nil => rfl
        | cons piece rest ih => exact ih _
      exact hrest _

/-- The pieces of the metadata. -/
def metadataData (header : DiskFileHeader) (roots : List Nat) (vectors : List Binary32) :
    List (Nat × List UInt8) :=
  [(0, encodeFileHeader header), (header.rootsOffset, roots.flatMap encodeOffset),
    (header.projectionsOffset, vectors.flatMap encodeFloat)]

theorem metadataPieces_eq {rootsTooLarge : String} {header : DiskFileHeader} {roots : List Nat}
    {vectors : List Binary32} (hroots : roots.length * 8 ≤ uint64Max)
    (hvectors : vectors.length * 4 ≤ uint64Max) :
    metadataPieces rootsTooLarge header roots vectors =
      (metadataData header roots vectors).map Except.ok := by
  unfold metadataPieces metadataData
  rw [checkedSize_eq_ok.mpr ⟨rfl, hroots⟩, checkedSize_eq_ok.mpr ⟨rfl, hvectors⟩]
  rfl

theorem length_encodeOffset (offset : Nat) : (encodeOffset offset).length = 8 := length_encodeLE 8 offset

section Data

variable {header : DiskFileHeader} {roots : List Nat} {vectors : List Binary32}
  {pieces : List (Nat × List UInt8)}

/-- Where the metadata of a header lies. -/
structure LaidOut (header : DiskFileHeader) (roots : List Nat) (vectors : List Binary32) : Prop where
  fits : header.Fits
  rootsAt : header.rootsOffset = fileHeaderSize
  vectorsAt : header.projectionsOffset = fileHeaderSize + roots.length * 8
  dataAt : header.projectionsOffset + vectors.length * 4 ≤ header.dataOffset
  dataEnd : header.dataOffset ≤ header.fileSize
  small : ∀ root ∈ roots, root < 2 ^ 64

theorem LaidOut.sideBySide (h : LaidOut header roots vectors)
    (hpieces : SideBySide header.fileSize pieces) (hafter : ∀ piece ∈ pieces, header.dataOffset ≤ piece.1) :
    SideBySide header.fileSize (metadataData header roots vectors ++ pieces) := by
  have hheader : (encodeFileHeader header).length = fileHeaderSize :=
    length_encodeFileHeader header h.fits.magic
  have hroots : (roots.flatMap encodeOffset).length = 8 * roots.length :=
    length_flatMap_const length_encodeOffset roots
  have hvectors : (vectors.flatMap encodeFloat).length = 4 * vectors.length :=
    length_flatMap_const length_encodeFloat vectors
  have hstart := h.rootsAt
  have hprojections := h.vectorsAt
  have hdata := h.dataAt
  have hend := h.dataEnd
  refine ⟨fun piece hpiece => ?_, List.pairwise_append.mpr ⟨?_, hpieces.beside, fun piece hpiece other hother => ?_⟩⟩
  · obtain hpiece | hpiece := List.mem_append.mp hpiece
    · simp only [metadataData, List.mem_cons, List.not_mem_nil, or_false] at hpiece
      obtain rfl | rfl | rfl := hpiece
      · dsimp only
        omega
      · dsimp only
        omega
      · dsimp only
        omega
    · exact hpieces.room piece hpiece
  · refine List.pairwise_cons.mpr ⟨fun other hother => Or.inl ?_, List.pairwise_pair.mpr (Or.inl ?_)⟩
    · simp only [List.mem_cons, List.not_mem_nil, or_false] at hother
      obtain rfl | rfl := hother
      · dsimp only
        omega
      · dsimp only
        omega
    · dsimp only
      omega
  · have hafter := hafter other hother
    refine Or.inl ?_
    simp only [metadataData, List.mem_cons, List.not_mem_nil, or_false] at hpiece
    obtain rfl | rfl | rfl := hpiece
    · dsimp only
      omega
    · dsimp only
      omega
    · dsimp only
      omega

/-- A vector of 64-bit values is read back. -/
theorem decodeOffsets_encode {offsets : List Nat} (h : ∀ offset ∈ offsets, offset < 2 ^ 64) :
    decodeOffsets (offsets.flatMap encodeOffset) offsets.length = offsets := by
  refine List.ext_getElem (by simp [decodeOffsets]) fun i hi hi' => ?_
  have hslice := slice_flatMap length_encodeOffset offsets [] hi'
  rw [List.append_nil] at hslice
  have hlt : offsets[i] < 256 ^ 8 := h _ (List.getElem_mem hi')
  simp only [decodeOffsets, List.getElem_map, List.getElem_range, readLE, hslice]
  rw [encodeOffset, decodeLE_encodeLE, Nat.mod_eq_of_lt hlt]

/-- A vector of floats is read back. -/
theorem decodeFloats_encode (vectors : List Binary32) :
    decodeFloats (vectors.flatMap encodeFloat) vectors.length = vectors := by
  refine List.ext_getElem (by simp [decodeFloats]) fun i hi hi' => ?_
  have hslice := slice_flatMap length_encodeFloat vectors [] hi'
  rw [List.append_nil] at hslice
  simp only [decodeFloats, List.getElem_map, List.getElem_range]
  exact readFloat_encode hslice

/-- A file with these metadata and pieces of data. -/
structure Written (header : DiskFileHeader) (roots : List Nat) (vectors : List Binary32)
    (pieces : List (Nat × List UInt8)) (file : File) : Prop where
  length : file.length = header.fileSize
  decoded : decodeFileHeader (slice file 0 fileHeaderSize) = header
  offsets : decodeOffsets (slice file header.rootsOffset (roots.length * 8)) roots.length = roots
  floats : decodeFloats (slice file header.projectionsOffset (vectors.length * 4)) vectors.length = vectors
  data : ∀ piece ∈ pieces, slice file piece.1 piece.2.length = piece.2

/-- The complete file of a layout. -/
theorem LaidOut.written (h : LaidOut header roots vectors)
    (hpieces : SideBySide header.fileSize pieces) (hafter : ∀ piece ∈ pieces, header.dataOffset ≤ piece.1) :
    Written header roots vectors pieces
      (writePieces (metadataData header roots vectors ++ pieces)
        (Foundation.resize header.fileSize [])) := by
  have hlength := length_resize_nil header.fileSize
  have hall : SideBySide (Foundation.resize header.fileSize []).length
      (metadataData header roots vectors ++ pieces) := hlength.symm ▸ h.sideBySide hpieces hafter
  have hheader : (encodeFileHeader header).length = fileHeaderSize :=
    length_encodeFileHeader header h.fits.magic
  have hroots : (roots.flatMap encodeOffset).length = roots.length * 8 := by
    rw [length_flatMap_const length_encodeOffset, Nat.mul_comm]
  have hvectors : (vectors.flatMap encodeFloat).length = vectors.length * 4 := by
    rw [length_flatMap_const length_encodeFloat, Nat.mul_comm]
  have hslice : ∀ piece ∈ metadataData header roots vectors ++ pieces, slice (writePieces
      (metadataData header roots vectors ++ pieces) (Foundation.resize header.fileSize []))
        piece.1 piece.2.length = piece.2 := fun piece hpiece => slice_writePieces hall hpiece
  refine ⟨(length_writePieces hall.room).trans hlength, ?_, ?_, ?_,
    fun piece hpiece => hslice piece (List.mem_append_right _ hpiece)⟩
  · rw [← hheader, hslice (0, encodeFileHeader header) (by simp [metadataData]),
      ← List.append_nil (encodeFileHeader header), decodeFileHeader_encode h.fits]
  · rw [← hroots, hslice (header.rootsOffset, roots.flatMap encodeOffset) (by simp [metadataData]),
      decodeOffsets_encode h.small]
  · rw [← hvectors, hslice (header.projectionsOffset, vectors.flatMap encodeFloat)
      (by simp [metadataData]), decodeFloats_encode]

end Data

/-! ## The header of a build -/

theorem alignUp_le {value alignment result : Nat} (hvalue : value ≤ uint64Max)
    (h : alignUp value alignment = .ok result) : result ≤ uint64Max := by
  unfold alignUp at h
  obtain ⟨_, -, h⟩ := except_bind_eq_ok.mp h
  by_cases hr : value % alignment = 0
  · simp only [hr, if_true, except_pure, Except.ok.injEq] at h
    exact h ▸ hvalue
  · simp only [hr, if_false] at h
    obtain ⟨rfl, hle⟩ := checkedAddOrThrow_eq_ok hvalue h
    exact hle

/-- What `metadataOffsets` computes. -/
structure MetadataOffsets.Sound (offsets : MetadataOffsets) (tableCount valueCount pageSize : Nat) :
    Prop where
  roots : offsets.roots = fileHeaderSize
  projections : offsets.projections = fileHeaderSize + tableCount * 8
  data : offsets.projections + valueCount * 4 ≤ offsets.data
  aligned : offsets.data % pageSize = 0
  small : offsets.data ≤ uint64Max

theorem metadataOffsets_sound {tableCount valueCount pageSize : Nat} {offsets : MetadataOffsets}
    (h : metadataOffsets tableCount valueCount pageSize = .ok offsets) :
    offsets.Sound tableCount valueCount pageSize := by
  simp only [metadataOffsets, except_bind_eq_ok] at h
  obtain ⟨rootsBytes, hroots, valueBytes, hvalues, projections, hprojections, unaligned, hunaligned,
    data, hdata, h⟩ := h
  cases h
  obtain ⟨rfl, -⟩ := checkedMultiplyOrThrow_eq_ok hroots
  obtain ⟨rfl, -⟩ := checkedMultiplyOrThrow_eq_ok hvalues
  obtain ⟨rfl, hle⟩ := checkedAddOrThrow_eq_ok (by decide) hprojections
  obtain ⟨rfl, hle'⟩ := checkedAddOrThrow_eq_ok hle hunaligned
  obtain ⟨haligned, hbelow, -⟩ := alignUp_eq_ok hle' hdata
  exact ⟨rfl, rfl, hbelow, haligned, alignUp_le hle' hdata⟩

/-- What both builds know when they write their header. -/
structure Framed (config : IndexConfig) (pageSize : Nat) (vectors : List Binary32)
    (offsets : MetadataOffsets) (pageCount fileSize : Nat) : Prop where
  valid : ValidConfig config
  accepted : AcceptedPageSize pageSize
  vectorsLength : vectors.length = config.qalsh.numHashTables * config.numDimensions
  vectorsFinite : ∀ value ∈ vectors, value.isFinite = true
  sound : offsets.Sound config.qalsh.numHashTables vectors.length pageSize
  dataEnd : offsets.data ≤ fileSize
  small : fileSize ≤ offTMax
  pages : pageCount < 2 ^ 64

section Header

variable {config : IndexConfig} {pageSize : Nat} {vectors : List Binary32}
  {offsets : MetadataOffsets} {pageCount fileSize : Nat} {magic : List UInt8}

variable (magic) in
theorem Framed.laidOut (h : Framed config pageSize vectors offsets pageCount fileSize)
    (hmagic : magic.length = 8) {roots : List Nat} (hroots : roots.length = config.qalsh.numHashTables)
    (hsmall : ∀ root ∈ roots, root < 2 ^ 64) :
    LaidOut (headerFor magic config pageSize offsets pageCount fileSize) roots vectors := by
  have hpoints : config.numPoints ≤ 2 ^ 30 := h.valid.points.2
  have hdimensions : config.numDimensions ≤ 2 ^ 20 := h.valid.dimensions.2
  have htables : config.qalsh.numHashTables ≤ 2 ^ 20 := h.valid.tables.2
  have hthreshold := h.valid.qalsh.threshold
  have hupper : pageSize ≤ 64 * 1024 * 1024 := h.accepted.upper
  have hroot := h.sound.roots
  have hprojections := h.sound.projections
  have hdata := h.sound.data
  have hend := h.dataEnd
  have hfile : fileSize ≤ 2 ^ 63 - 1 := h.small
  have hcode : config.metric.code < 2 ^ 32 := by
    have hmetric := h.valid.metric
    generalize config.metric = metric at hmetric
    cases metric with
    | l1 => decide
    | l2 => decide
    | invalid code => cases hmetric
  have hoffset : fileHeaderSize < 2 ^ 64 := by decide
  exact
    { fits :=
        { magic := hmagic
          version := by show (2 : Nat) < _; decide
          endian := by show 0x01020304 < _; decide
          headerSize := by show fileHeaderSize < _; decide
          metric := hcode
          numPoints := by show config.numPoints < _; omega
          numDimensions := by show config.numDimensions < _; omega
          numHashTables := by show config.qalsh.numHashTables < _; omega
          pageSize := by show pageSize < _; omega
          collisionThreshold := by show config.qalsh.collisionThreshold < _; omega
          rootsOffset := by show offsets.roots < _; omega
          projectionsOffset := by show offsets.projections < _; omega
          dataOffset := by show offsets.data < _; omega
          pageCount := h.pages
          fileSize := by show fileSize < _; omega }
      rootsAt := hroot
      vectorsAt := by rw [hroots]; exact hprojections
      dataAt := hdata
      dataEnd := hend
      small := hsmall }

variable (magic) in
/-- The loaders take the metadata of the configuration from the header. -/
theorem Framed.metadata (h : Framed config pageSize vectors offsets pageCount fileSize)
    (layout : IndexLayout) :
    metadataFromHeader (headerFor magic config pageSize offsets pageCount fileSize) layout =
      { metadataFromConfig config pageSize layout with fileSize := fileSize } := by
  have hmetric : metricOf config.metric.code = config.metric := by
    have hmetric := h.valid.metric
    generalize config.metric = metric at hmetric
    cases metric with
    | l1 => rfl
    | l2 => rfl
    | invalid code => cases hmetric
  show IndexMetadata.mk (metricOf config.metric.code) _ _ _ _ _ _ _ _ = _
  rw [hmetric]
  rfl

theorem Framed.validateHeaderFields (h : Framed config pageSize vectors offsets pageCount fileSize)
    (badMagic : Error) (badPageSize : String) :
    validateHeaderFields magic badMagic badPageSize
      (headerFor magic config pageSize offsets pageCount fileSize) = .ok () := by
  have hmetric : config.metric.code = Metric.l1.code ∨ config.metric.code = Metric.l2.code := by
    have hmetric := h.valid.metric
    generalize config.metric = metric at hmetric
    cases metric with
    | l1 => exact Or.inl rfl
    | l2 => exact Or.inr rfl
    | invalid code => cases hmetric
  have hpage := h.accepted
  unfold Qalsh.validateHeaderFields
  rw [if_neg (fun hne => hne rfl)]
  simp only [except_unit_bind_eq_ok, require_eq_ok]
  exact ⟨rfl, rfl, rfl, hmetric, ⟨h.valid.points.1, h.valid.points.2, h.valid.dimensions.1,
    h.valid.dimensions.2, h.valid.tables.1, h.valid.tables.2⟩, hpage.lower, hpage.upper,
    hpage.aligned⟩

theorem Framed.validateHeaderOffsets (h : Framed config pageSize vectors offsets pageCount fileSize)
    (badOffsets : String) :
    validateHeaderOffsets badOffsets
      (headerFor magic config pageSize offsets pageCount fileSize) = .ok () := by
  have hmax : offTMax ≤ uint64Max := by decide
  have hroots := h.sound.roots
  have hprojections := h.sound.projections
  have hdata := h.sound.data
  have hend := h.dataEnd
  have hfile := h.small
  rw [h.vectorsLength] at hdata
  unfold Qalsh.validateHeaderOffsets
  show (require (fileSize ≤ uint64Max) _ >>= fun _ =>
    checkedMultiplyOrThrow config.qalsh.numHashTables 8 _ >>= fun rootsBytes =>
    checkedMultiplyOrThrow config.qalsh.numHashTables config.numDimensions _ >>= fun values =>
    checkedMultiplyOrThrow values 4 _ >>= fun valueBytes =>
    checkedAddOrThrow fileHeaderSize rootsBytes _ >>= fun rootsEnd =>
    checkedAddOrThrow offsets.projections valueBytes _ >>= fun projectionsEnd =>
    require (offsets.roots = fileHeaderSize ∧ offsets.projections = rootsEnd ∧
      offsets.data ≥ projectionsEnd ∧ offsets.data % pageSize = 0 ∧
      projectionsEnd ≤ offsets.data ∧ offsets.data ≤ fileSize) badOffsets) = _
  rw [require_of (by omega), except_ok_bind, checkedMultiplyOrThrow_of_le (by omega), except_ok_bind,
    checkedMultiplyOrThrow_of_le (by omega), except_ok_bind, checkedMultiplyOrThrow_of_le (by omega),
    except_ok_bind, checkedAddOrThrow_of_le (by omega), except_ok_bind,
    checkedAddOrThrow_of_le (by omega), except_ok_bind]
  exact require_of ⟨hroots, hprojections, hdata, h.sound.aligned, hdata, hend⟩

end Header

/-! ## What is written -/

theorem checkTarget_eq_ok {badPageSize path : String} {pageSize : Nat} :
    checkTarget badPageSize path pageSize = .ok () ↔ path ≠ "" ∧ AcceptedPageSize pageSize := by
  unfold checkTarget
  rw [except_unit_bind_eq_ok, require_eq_ok, require_eq_ok]
  constructor
  · rintro ⟨hpath, hlower, hupper, haligned⟩
    exact ⟨hpath, hlower, hupper, haligned⟩
  · rintro ⟨hpath, haccepted⟩
    exact ⟨hpath, haccepted.lower, haccepted.upper, haccepted.aligned⟩

/-- The vectors and tables of a build, whatever it makes of them. -/
structure BuildTables [Platform] (config : IndexConfig) (accessor : PointAccessor)
    (vectors : List Binary32) (tables : List (SortedTable config.numPoints)) : Prop where
  valid : ValidConfig config
  made : makeProjectionVectors config = .ok vectors
  projected : projectTables config vectors accessor = .ok (tables.map SortedTable.entries)
  count : tables.length = config.qalsh.numHashTables

/-- What every build hands to its layout. -/
theorem buildTables_of_sorted [Platform] {config : IndexConfig} {accessor : Option PointAccessor}
    {checks : Except Error Unit} {pushed : List Binary32 × List (List Entry)} {threads : Nat}
    {scheduler : Scheduler} {entries : List (List Entry)}
    (hpushed : pushPoints config accessor checks = .ok pushed)
    (hsorted : scheduler.sortTables threads pushed.2 = .ok entries) :
    checks = .ok () ∧ ∃ points tables, accessor = some points ∧
      BuildTables config points pushed.1 tables ∧ entries = tables.map SortedTable.entries := by
  have hpossible := scheduler.possible threads pushed.2
  rw [hsorted] at hpossible
  unfold pushPoints at hpushed
  obtain ⟨_, hvalid, hpushed⟩ := except_bind_eq_ok.mp hpushed
  cases accessor with
  | none => cases hpushed
  | some points =>
      obtain ⟨_, hchecks, hpushed⟩ := except_bind_eq_ok.mp hpushed
      obtain ⟨vectors, hvectors, hpushed⟩ := except_bind_eq_ok.mp hpushed
      obtain ⟨tables, htables, hpushed⟩ := except_bind_eq_ok.mp hpushed
      cases hpushed
      have hentries := hpossible.eq_ok
      have hprojected : projectTables config vectors points = .ok entries := by
        rw [projectTables_eq, htables, hentries]
        rfl
      obtain ⟨sorted, heq, hlength⟩ := projectTables_spec hprojected
      exact ⟨hchecks, points, sorted, rfl,
        ⟨validateConfig_eq_ok.mp hvalid, hvectors, heq ▸ hprojected, hlength⟩, heq⟩

end Qalsh
