/-
  Format.lean --- the on-disk records and the checks of a file header.

  Structures are read at the offsets the C++ records have; both file formats share
  the header.  Multi-byte fields are little endian, the byte order of the hosts the
  endian marker admits.
-/
import Qalsh.Foundation.Bytes
import Qalsh.Config
import Qalsh.Window

set_option autoImplicit false

namespace Qalsh

open Foundation

/-! ## Constants -/

def bPlusMagic : List UInt8 := [81, 65, 76, 83, 72, 66, 80, 49]
def sortedArrayMagic : List UInt8 := [81, 65, 76, 83, 72, 65, 82, 49]
def version : Nat := 2
def endianMarker : Nat := 0x01020304
def pageHeaderSize : Nat := 32
def leafPage : Nat := 1
def internalPage : Nat := 2
/-- `sizeof(DiskFileHeader)` -/
def fileHeaderSize : Nat := 120
/-- `sizeof(DiskEntry)` -/
def entrySize : Nat := 8

/-! ## Reading a file -/

/-- The content of a file. -/
abbrev File : Type := List UInt8

def readAt (file : File) (bytes offset : Nat) (path : String) : Except Error (List UInt8) := do
  if bytes = 0 then return []
  require (offset ≤ offMax) "index offset is not representable by the host file API"
  require (bytes ≤ offMax - offset)
    "index read range is not representable by the host file API"
  if offset + bytes ≤ file.length then return slice file offset bytes
  throw (.runtimeError ("failed to read index " ++ path ++ " at offset " ++
    toString (max offset file.length)))

def readFloat (bytes : List UInt8) (offset : Nat) : Binary32 := ⟨BitVec.ofNat 32 (readLE bytes offset 4)⟩

theorem readAt_of_le {file : File} {bytes offset : Nat} {path : String}
    (h : offset + bytes ≤ file.length) (hmax : file.length ≤ offMax) :
    readAt file bytes offset path = .ok (slice file offset bytes) := by
  unfold readAt
  by_cases h0 : bytes = 0
  · simp [h0, slice]
  · simp [h0, require_of (show offset ≤ offMax by omega),
      require_of (show bytes ≤ offMax - offset by omega), h]

theorem readAt_eq_ok {file : File} {bytes offset : Nat} {path : String} {data : List UInt8}
    (h : readAt file bytes offset path = .ok data) : data = slice file offset bytes := by
  unfold readAt at h
  by_cases h0 : bytes = 0
  · simp only [h0, if_true, except_pure, Except.ok.injEq] at h
    simp [← h, h0, slice]
  · simp only [h0, if_false, except_bind_eq_ok] at h
    obtain ⟨_, -, _, -, h⟩ := h
    split at h
    · cases h
      rfl
    · cases h

/-! ## Records -/

structure PageHeader where
  kind : Nat
  count : Nat
  previous : Nat
  next : Nat
  deriving DecidableEq, Repr, Inhabited

@[ext]
structure DiskFileHeader where
  magic : List UInt8
  version : Nat
  endian : Nat
  headerSize : Nat
  metric : Nat
  numPoints : Nat
  numDimensions : Nat
  numHashTables : Nat
  pageSize : Nat
  seed : Word32
  collisionThreshold : Nat
  scanQuantum : Word32
  candidateBudget : Word32
  approximationRatio : Binary32
  bucketWidth : Binary32
  errorProbability : Binary32
  initialRadius : Binary32
  radiusGrowth : Binary32
  rootsOffset : Nat
  projectionsOffset : Nat
  dataOffset : Nat
  pageCount : Nat
  fileSize : Nat
  deriving DecidableEq, Repr

/-- A 32-bit field. -/
def readWord (bytes : List UInt8) (offset : Nat) : Word32 :=
  ⟨readLE bytes offset 4, by simpa using readLE_lt bytes offset 4⟩

/-- `memcpy` into a `DiskFileHeader`. -/
def decodeFileHeader (bytes : List UInt8) : DiskFileHeader where
  magic := slice bytes 0 8
  version := readLE bytes 8 4
  endian := readLE bytes 12 4
  headerSize := readLE bytes 16 4
  metric := readLE bytes 20 4
  numPoints := readLE bytes 24 4
  numDimensions := readLE bytes 28 4
  numHashTables := readLE bytes 32 4
  pageSize := readLE bytes 36 4
  seed := readWord bytes 40
  collisionThreshold := readLE bytes 44 4
  scanQuantum := readWord bytes 48
  candidateBudget := readWord bytes 52
  approximationRatio := readFloat bytes 56
  bucketWidth := readFloat bytes 60
  errorProbability := readFloat bytes 64
  initialRadius := readFloat bytes 68
  radiusGrowth := readFloat bytes 72
  rootsOffset := readLE bytes 80 8
  projectionsOffset := readLE bytes 88 8
  dataOffset := readLE bytes 96 8
  pageCount := readLE bytes 104 8
  fileSize := readLE bytes 112 8

/-- The fields after the magic; four bytes of padding align the 64-bit fields. -/
def DiskFileHeader.fields (header : DiskFileHeader) : List (Nat × Nat) :=
  [(4, header.version), (4, header.endian), (4, header.headerSize), (4, header.metric),
    (4, header.numPoints), (4, header.numDimensions), (4, header.numHashTables),
    (4, header.pageSize), (4, header.seed.val), (4, header.collisionThreshold),
    (4, header.scanQuantum.val), (4, header.candidateBudget.val),
    (4, header.approximationRatio.bits.toNat), (4, header.bucketWidth.bits.toNat),
    (4, header.errorProbability.bits.toNat), (4, header.initialRadius.bits.toNat),
    (4, header.radiusGrowth.bits.toNat), (4, 0), (8, header.rootsOffset),
    (8, header.projectionsOffset), (8, header.dataOffset), (8, header.pageCount),
    (8, header.fileSize)]

def encodeFileHeader (header : DiskFileHeader) : List UInt8 :=
  header.magic ++ encodeFields header.fields

def decodePageHeader (page : List UInt8) : PageHeader where
  kind := readLE page 0 4
  count := readLE page 4 4
  previous := readLE page 8 8
  next := readLE page 16 8

def encodePageHeader (header : PageHeader) : List UInt8 :=
  encodeFields [(4, header.kind), (4, header.count), (8, header.previous), (8, header.next)]

def decodeEntry (bytes : List UInt8) (offset : Nat) : Entry where
  value := readFloat bytes offset
  pointId := readLE bytes (offset + 4) 4

def encodeEntry (entry : Entry) : List UInt8 :=
  encodeFields [(4, entry.value.bits.toNat), (4, entry.pointId)]

def encodeFloat (value : Binary32) : List UInt8 := encodeLE 4 value.bits.toNat

/-- The header fields are within their widths. -/
structure DiskFileHeader.Fits (header : DiskFileHeader) : Prop where
  magic : header.magic.length = 8
  version : header.version < 2 ^ 32
  endian : header.endian < 2 ^ 32
  headerSize : header.headerSize < 2 ^ 32
  metric : header.metric < 2 ^ 32
  numPoints : header.numPoints < 2 ^ 32
  numDimensions : header.numDimensions < 2 ^ 32
  numHashTables : header.numHashTables < 2 ^ 32
  pageSize : header.pageSize < 2 ^ 32
  collisionThreshold : header.collisionThreshold < 2 ^ 32
  rootsOffset : header.rootsOffset < 2 ^ 64
  projectionsOffset : header.projectionsOffset < 2 ^ 64
  dataOffset : header.dataOffset < 2 ^ 64
  pageCount : header.pageCount < 2 ^ 64
  fileSize : header.fileSize < 2 ^ 64

@[simp] theorem length_encodeFileHeader (header : DiskFileHeader) (h : header.magic.length = 8) :
    (encodeFileHeader header).length = fileHeaderSize := by
  simp [encodeFileHeader, DiskFileHeader.fields, h, fileHeaderSize]

@[simp] theorem length_encodePageHeader (header : PageHeader) :
    (encodePageHeader header).length = 24 := by
  simp [encodePageHeader]

@[simp] theorem length_encodeEntry (entry : Entry) : (encodeEntry entry).length = entrySize := by
  simp [encodeEntry, entrySize]

@[simp] theorem length_encodeFloat (value : Binary32) : (encodeFloat value).length = 4 := by
  simp [encodeFloat]

/-- The widths of `DiskFileHeader.fields`. -/
def headerWidths : List Nat :=
  [4, 4, 4, 4, 4, 4, 4, 4, 4, 4, 4, 4, 4, 4, 4, 4, 4, 4, 8, 8, 8, 8, 8]

/-- Reading one field of a header record. -/
theorem readLE_encodeFileHeader {header : DiskFileHeader} (h : header.magic.length = 8)
    (rest : List UInt8) {i offset width value : Nat} (hfield : header.fields[i]? = some (width, value))
    (hoffset : offset = 8 + (headerWidths.take i).sum) (hvalue : value < 256 ^ width) :
    readLE (encodeFileHeader header ++ rest) offset width = value := by
  have hfields : fieldOffset header.fields i = (headerWidths.take i).sum := by
    rw [fieldOffset, List.map_take]
    rfl
  rw [← hfields] at hoffset
  have hread := readLE_encodeFields rest hfield
  rw [Nat.mod_eq_of_lt hvalue] at hread
  rw [encodeFileHeader, List.append_assoc, readLE_skip (by omega), h, hoffset,
    Nat.add_sub_cancel_left]
  exact hread

/-- A header record is read back as it was written. -/
theorem decodeFileHeader_encode {header : DiskFileHeader} (h : header.Fits) (rest : List UInt8) :
    decodeFileHeader (encodeFileHeader header ++ rest) = header := by
  have h4 : ∀ (i : Nat) {offset value : Nat}, value < 2 ^ 32 →
      header.fields[i]? = some (4, value) → offset = 8 + (headerWidths.take i).sum →
      readLE (encodeFileHeader header ++ rest) offset 4 = value :=
    fun i offset value hlt hfield hoff => readLE_encodeFileHeader h.magic rest hfield hoff hlt
  have h8 : ∀ (i : Nat) {offset value : Nat}, value < 2 ^ 64 →
      header.fields[i]? = some (8, value) → offset = 8 + (headerWidths.take i).sum →
      readLE (encodeFileHeader header ++ rest) offset 8 = value :=
    fun i offset value hlt hfield hoff => readLE_encodeFileHeader h.magic rest hfield hoff hlt
  have hfloat : ∀ (i : Nat) {value : Binary32} {offset : Nat},
      header.fields[i]? = some (4, value.bits.toNat) →
      offset = 8 + (headerWidths.take i).sum →
      readFloat (encodeFileHeader header ++ rest) offset = value := by
    intro i value offset hfield hoff
    unfold readFloat
    rw [h4 i value.bits.isLt hfield hoff]
    simp
  have hword : ∀ (i : Nat) {value : Word32} {offset : Nat},
      header.fields[i]? = some (4, value.val) → offset = 8 + (headerWidths.take i).sum →
      readWord (encodeFileHeader header ++ rest) offset = value :=
    fun i value offset hfield hoff => Fin.ext (h4 i value.isLt hfield hoff)
  have hmagic : slice (encodeFileHeader header ++ rest) 0 8 = header.magic := by
    have hm := h.magic
    rw [encodeFileHeader, List.append_assoc, slice_append_left (by omega), ← hm, slice_self]
  exact DiskFileHeader.ext hmagic
    (h4 0 h.version rfl rfl) (h4 1 h.endian rfl rfl) (h4 2 h.headerSize rfl rfl)
    (h4 3 h.metric rfl rfl) (h4 4 h.numPoints rfl rfl) (h4 5 h.numDimensions rfl rfl)
    (h4 6 h.numHashTables rfl rfl) (h4 7 h.pageSize rfl rfl) (hword 8 rfl rfl)
    (h4 9 h.collisionThreshold rfl rfl) (hword 10 rfl rfl) (hword 11 rfl rfl) (hfloat 12 rfl rfl)
    (hfloat 13 rfl rfl) (hfloat 14 rfl rfl) (hfloat 15 rfl rfl) (hfloat 16 rfl rfl)
    (h8 18 h.rootsOffset rfl rfl) (h8 19 h.projectionsOffset rfl rfl)
    (h8 20 h.dataOffset rfl rfl) (h8 21 h.pageCount rfl rfl) (h8 22 h.fileSize rfl rfl)

theorem decodePageHeader_encode {header : PageHeader} (hkind : header.kind < 2 ^ 32)
    (hcount : header.count < 2 ^ 32) (hprevious : header.previous < 2 ^ 64)
    (hnext : header.next < 2 ^ 64) (rest : List UInt8) :
    decodePageHeader (encodePageHeader header ++ rest) = header := by
  have hread : ∀ (i offset width value : Nat), value < 256 ^ width →
      [(4, header.kind), (4, header.count), (8, header.previous), (8, header.next)][i]? =
        some (width, value) → offset = fieldOffset [(4, header.kind), (4, header.count),
        (8, header.previous), (8, header.next)] i →
      readLE (encodePageHeader header ++ rest) offset width = value := by
    intro i offset width value hlt hfield hoff
    have h := readLE_encodeFields rest hfield
    rw [Nat.mod_eq_of_lt hlt] at h
    rw [hoff]
    exact h
  unfold decodePageHeader
  rw [hread 0 0 4 header.kind hkind rfl rfl, hread 1 4 4 header.count hcount rfl rfl,
    hread 2 8 8 header.previous hprevious rfl rfl, hread 3 16 8 header.next hnext rfl rfl]

/-- An entry is read back as it was written. -/
theorem decodeEntry_encode {entry : Entry} (h : entry.pointId < 2 ^ 32) {bytes : List UInt8}
    {offset : Nat} (hslice : slice bytes offset entrySize = encodeEntry entry) :
    decodeEntry bytes offset = entry := by
  have hvalue : readLE bytes offset 4 = entry.value.bits.toNat := by
    have h0 : readLE (slice bytes offset entrySize) 0 4 = readLE bytes (offset + 0) 4 :=
      readLE_slice (by decide)
    rw [hslice, Nat.add_zero] at h0
    have hread : readLE (encodeEntry entry ++ []) 0 4 = entry.value.bits.toNat % 256 ^ 4 :=
      readLE_encodeFields (i := 0) [] rfl
    rw [List.append_nil, Nat.mod_eq_of_lt (show entry.value.bits.toNat < 256 ^ 4 from
      entry.value.bits.isLt)] at hread
    exact h0.symm.trans hread
  have hid : readLE bytes (offset + 4) 4 = entry.pointId := by
    have h4 : readLE (slice bytes offset entrySize) 4 4 = readLE bytes (offset + 4) 4 :=
      readLE_slice (by decide)
    rw [hslice] at h4
    have hread : readLE (encodeEntry entry ++ []) 4 4 = entry.pointId % 256 ^ 4 :=
      readLE_encodeFields (i := 1) [] rfl
    rw [List.append_nil, Nat.mod_eq_of_lt (show entry.pointId < 256 ^ 4 from h)] at hread
    exact h4.symm.trans hread
  unfold decodeEntry readFloat
  rw [hvalue, hid]
  simp

theorem readFloat_encode {value : Binary32} {bytes : List UInt8} {offset : Nat}
    (hslice : slice bytes offset 4 = encodeFloat value) : readFloat bytes offset = value := by
  have hlt : value.bits.toNat < 256 ^ 4 := value.bits.isLt
  unfold readFloat readLE
  rw [hslice, encodeFloat, decodeLE_encodeLE, Nat.mod_eq_of_lt hlt]
  simp

/-! ## Reading pages and tables -/

def readDiskEntry (page : List UInt8) (header : PageHeader) (index : Nat) :
    Except Error Entry := do
  require (header.kind = leafPage ∧ index < header.count) "QALSH leaf entry is out of range"
  let product ← checkedMultiplyOrThrow index entrySize "QALSH leaf entry offset overflows"
  let offset ← checkedAddOrThrow pageHeaderSize product "QALSH leaf entry offset overflows"
  let last ← checkedAddOrThrow offset entrySize "QALSH leaf entry offset overflows"
  require (last ≤ page.length) "QALSH leaf entry exceeds its page boundary"
  return decodeEntry page offset

def readArrayEntry (data : List UInt8) (bytes index : Nat) : Except Error Entry := do
  let offset ← checkedMultiplyOrThrow index entrySize "QALSH sorted-array entry offset overflows"
  let last ← checkedAddOrThrow offset entrySize "QALSH sorted-array entry offset overflows"
  require (last ≤ bytes) "QALSH sorted-array entry exceeds its table boundary"
  return decodeEntry data offset

def readChild (page : List UInt8) (header : PageHeader) (index : Nat) : Except Error Nat := do
  require (header.kind = internalPage ∧ index < header.count) "QALSH child is out of range"
  let product ← checkedMultiplyOrThrow index 8 "QALSH child offset overflows"
  let offset ← checkedAddOrThrow pageHeaderSize product "QALSH child offset overflows"
  let last ← checkedAddOrThrow offset 8 "QALSH child offset overflows"
  require (last ≤ page.length) "QALSH child exceeds its page boundary"
  return readLE page offset 8

def readSeparator (page : List UInt8) (header : PageHeader) (index : Nat) :
    Except Error Binary32 := do
  require (header.kind = internalPage ∧ index + 1 < header.count)
    "QALSH separator is out of range"
  let childrenBytes ← checkedMultiplyOrThrow header.count 8 "QALSH separator offset overflows"
  let base ← checkedAddOrThrow pageHeaderSize childrenBytes "QALSH separator offset overflows"
  let product ← checkedMultiplyOrThrow index 4 "QALSH separator offset overflows"
  let offset ← checkedAddOrThrow base product "QALSH separator offset overflows"
  let last ← checkedAddOrThrow offset 4 "QALSH separator offset overflows"
  require (last ≤ page.length) "QALSH separator exceeds its page boundary"
  return readFloat page offset

/-- Where the separators of an internal page start. -/
def separatorsOffset (header : PageHeader) : Nat := pageHeaderSize + header.count * 8

theorem readDiskEntry_of {page : List UInt8} {header : PageHeader} {index : Nat}
    (hkind : header.kind = leafPage) (hindex : index < header.count)
    (hsize : pageHeaderSize + header.count * entrySize ≤ page.length)
    (hpage : page.length ≤ maxReasonablePageSize) :
    readDiskEntry page header index =
      .ok (decodeEntry page (pageHeaderSize + index * entrySize)) := by
  have hmax : maxReasonablePageSize ≤ uint64Max := by decide
  have hmul : index * entrySize + entrySize ≤ header.count * entrySize := by
    rw [← Nat.succ_mul]
    exact Nat.mul_le_mul_right _ hindex
  simp only [readDiskEntry, require_of (And.intro hkind hindex), except_ok_bind,
    checkedMultiplyOrThrow_of_le (show index * entrySize ≤ uint64Max by omega),
    checkedAddOrThrow_of_le (show pageHeaderSize + index * entrySize ≤ uint64Max by omega),
    checkedAddOrThrow_of_le
      (show pageHeaderSize + index * entrySize + entrySize ≤ uint64Max by omega),
    require_of (show pageHeaderSize + index * entrySize + entrySize ≤ page.length by omega),
    except_pure]

theorem readArrayEntry_of {data : List UInt8} {bytes index : Nat}
    (hindex : index * entrySize + entrySize ≤ bytes) (hbytes : bytes ≤ uint64Max) :
    readArrayEntry data bytes index = .ok (decodeEntry data (index * entrySize)) := by
  simp only [readArrayEntry, except_ok_bind,
    checkedMultiplyOrThrow_of_le (show index * entrySize ≤ uint64Max by omega),
    checkedAddOrThrow_of_le (show index * entrySize + entrySize ≤ uint64Max by omega),
    require_of hindex, except_pure]

theorem readChild_of {page : List UInt8} {header : PageHeader} {index : Nat}
    (hkind : header.kind = internalPage) (hindex : index < header.count)
    (hsize : pageHeaderSize + header.count * 8 ≤ page.length)
    (hpage : page.length ≤ maxReasonablePageSize) :
    readChild page header index = .ok (readLE page (pageHeaderSize + index * 8) 8) := by
  have hmax : maxReasonablePageSize ≤ uint64Max := by decide
  simp only [readChild, require_of (And.intro hkind hindex), except_ok_bind,
    checkedMultiplyOrThrow_of_le (show index * 8 ≤ uint64Max by omega),
    checkedAddOrThrow_of_le (show pageHeaderSize + index * 8 ≤ uint64Max by omega),
    checkedAddOrThrow_of_le (show pageHeaderSize + index * 8 + 8 ≤ uint64Max by omega),
    require_of (show pageHeaderSize + index * 8 + 8 ≤ page.length by omega), except_pure]

theorem readSeparator_of {page : List UInt8} {header : PageHeader} {index : Nat}
    (hkind : header.kind = internalPage) (hindex : index + 1 < header.count)
    (hsize : pageHeaderSize + header.count * 8 + (header.count - 1) * 4 ≤ page.length)
    (hpage : page.length ≤ maxReasonablePageSize) :
    readSeparator page header index = .ok (readFloat page (separatorsOffset header + index * 4)) := by
  have hmax : maxReasonablePageSize ≤ uint64Max := by decide
  simp only [readSeparator, separatorsOffset, require_of (And.intro hkind hindex), except_ok_bind,
    checkedMultiplyOrThrow_of_le (show header.count * 8 ≤ uint64Max by omega),
    checkedAddOrThrow_of_le (show pageHeaderSize + header.count * 8 ≤ uint64Max by omega),
    checkedMultiplyOrThrow_of_le (show index * 4 ≤ uint64Max by omega),
    checkedAddOrThrow_of_le (show pageHeaderSize + header.count * 8 + index * 4 ≤ uint64Max by omega),
    checkedAddOrThrow_of_le
      (show pageHeaderSize + header.count * 8 + index * 4 + 4 ≤ uint64Max by omega),
    require_of (show pageHeaderSize + header.count * 8 + index * 4 + 4 ≤ page.length by omega),
    except_pure]

/-! ## The header of an index file -/

/-- The part of the header checks both formats share, up to the layout of the data. -/
def validateHeaderFields (magic : List UInt8) (badMagic : Error) (badPageSize : String)
    (header : DiskFileHeader) : Except Error Unit := do
  if header.magic ≠ magic then throw badMagic
  require (header.version = version) "unsupported QALSH index format version"
  require (header.endian = endianMarker) "QALSH index byte order is not supported on this host"
  require (header.headerSize = fileHeaderSize) "QALSH index header size is invalid"
  require (header.metric = Metric.l1.code ∨ header.metric = Metric.l2.code)
    "QALSH index metric is invalid"
  require (header.numPoints > 0 ∧ header.numPoints ≤ maxReasonablePoints ∧
      header.numDimensions > 0 ∧ header.numDimensions ≤ maxReasonableDimensions ∧
      header.numHashTables > 0 ∧ header.numHashTables ≤ maxReasonableHashTables)
    "QALSH index dimensions are invalid"
  require (header.pageSize ≥ 512 ∧ header.pageSize ≤ maxReasonablePageSize ∧
      header.pageSize % 8 = 0) badPageSize

/-- The checks of the metadata offsets. -/
def validateHeaderOffsets (badOffsets : String) (header : DiskFileHeader) : Except Error Unit := do
  require (header.fileSize ≤ uint64Max) "QALSH index file is too large for this host"
  let rootsBytes ← checkedMultiplyOrThrow header.numHashTables 8
    "QALSH index root metadata overflows"
  let projectionValues ← checkedMultiplyOrThrow header.numHashTables header.numDimensions
    "QALSH index projection metadata overflows"
  let projectionBytes ← checkedMultiplyOrThrow projectionValues 4
    "QALSH index projection metadata overflows"
  let rootsEnd ← checkedAddOrThrow fileHeaderSize rootsBytes
    "QALSH index metadata offsets overflow"
  let projectionsEnd ← checkedAddOrThrow header.projectionsOffset projectionBytes
    "QALSH index metadata offsets overflow"
  require (header.rootsOffset = fileHeaderSize ∧ header.projectionsOffset = rootsEnd ∧
      header.dataOffset ≥ projectionsEnd ∧ header.dataOffset % header.pageSize = 0 ∧
      projectionsEnd ≤ header.dataOffset ∧ header.dataOffset ≤ header.fileSize) badOffsets

/-- `ValidateFileHeaderEnvelope`, which `load_header` makes again with other texts. -/
def validateBPlusHeader (badMagic : Error) (badLayout incomplete : String)
    (header : DiskFileHeader) (actualSize : Nat) : Except Error Unit := do
  validateHeaderFields bPlusMagic badMagic "QALSH index page size is invalid" header
  require (header.pageCount > 1) "QALSH index has no data pages"
  let pageBytes ← checkedMultiplyOrThrow header.pageCount header.pageSize
    "QALSH index page layout overflows"
  let expectedFileSize ← checkedAddOrThrow header.dataOffset pageBytes
    "QALSH index file layout overflows"
  require (header.fileSize = expectedFileSize) badLayout
  require (header.fileSize = actualSize) incomplete
  validateHeaderOffsets "QALSH index metadata offsets are invalid" header

def validateFileHeaderEnvelope : DiskFileHeader → Nat → Except Error Unit :=
  validateBPlusHeader (.invalidArgument "index has an invalid QALSH magic header")
    "QALSH index file layout is invalid or incomplete"
    "QALSH index file layout is invalid or incomplete"

/-- The entries a region or a leaf page holds. -/
def leafCapacity (pageSize : Nat) : Nat := (pageSize - pageHeaderSize) / entrySize

/-- The children an internal page holds. -/
def internalCapacity (pageSize : Nat) : Nat := (pageSize - pageHeaderSize) / (8 + 4)

def validateSortedArrayFileHeaderEnvelope (header : DiskFileHeader) (actualSize : Nat) :
    Except Error Unit := do
  validateHeaderFields sortedArrayMagic
    (.invalidArgument "index has an invalid QALSH sorted-array magic header")
    "QALSH sorted-array region size is invalid" header
  let totalEntries ← checkedMultiplyOrThrow header.numPoints header.numHashTables
    "QALSH sorted-array entry count overflows"
  let entryBytes ← checkedMultiplyOrThrow totalEntries entrySize
    "QALSH sorted-array data size overflows"
  let regionCapacity := leafCapacity header.pageSize
  require (regionCapacity > 0) "QALSH sorted-array region cannot hold an entry"
  let regionsPerTable := (header.numPoints - 1) / regionCapacity + 1
  let regionCount ← checkedMultiplyOrThrow regionsPerTable header.numHashTables
    "QALSH sorted-array region count overflows"
  require (header.pageCount = regionCount + 1) "QALSH sorted-array region count is invalid"
  let expectedFileSize ← checkedAddOrThrow header.dataOffset entryBytes
    "QALSH sorted-array file layout overflows"
  require (header.fileSize = expectedFileSize ∧ header.fileSize = actualSize)
    "QALSH sorted-array file layout is invalid or incomplete"
  validateHeaderOffsets "QALSH sorted-array metadata offsets are invalid" header

/-- What both header checks establish. -/
structure ValidHeader (header : DiskFileHeader) : Prop where
  metric : header.metric = Metric.l1.code ∨ header.metric = Metric.l2.code
  points : 0 < header.numPoints ∧ header.numPoints ≤ maxReasonablePoints
  dimensions : 0 < header.numDimensions ∧ header.numDimensions ≤ maxReasonableDimensions
  tables : 0 < header.numHashTables ∧ header.numHashTables ≤ maxReasonableHashTables
  pageSize : 512 ≤ header.pageSize ∧ header.pageSize ≤ maxReasonablePageSize
  fileSize : header.fileSize ≤ uint64Max
  roots : header.rootsOffset = fileHeaderSize
  projections : header.projectionsOffset = fileHeaderSize + header.numHashTables * 8
  data : header.projectionsOffset + header.numHashTables * header.numDimensions * 4 ≤
    header.dataOffset ∧ header.dataOffset ≤ header.fileSize

theorem validateHeader_valid {magic : List UInt8} {badMagic : Error}
    {badPageSize badOffsets : String} {header : DiskFileHeader}
    (hfields : validateHeaderFields magic badMagic badPageSize header = .ok ())
    (hoffsets : validateHeaderOffsets badOffsets header = .ok ()) : ValidHeader header := by
  unfold validateHeaderFields at hfields
  split at hfields
  · cases hfields
  · simp only [except_unit_bind_eq_ok, require_eq_ok] at hfields
    obtain ⟨-, -, -, hmetric, hdims, hpage⟩ := hfields
    simp only [validateHeaderOffsets, except_unit_bind_eq_ok, require_eq_ok] at hoffsets
    obtain ⟨hsize, hoffsets⟩ := hoffsets
    simp only [except_bind_eq_ok] at hoffsets
    obtain ⟨rootsBytes, hroots, values, hvalues, bytes, hbytes, rootsEnd, hrootsEnd, projectionsEnd,
      hprojectionsEnd, hlayout⟩ := hoffsets
    have hlayout := require_eq_ok.mp hlayout
    obtain ⟨rfl, -⟩ := checkedMultiplyOrThrow_eq_ok hroots
    obtain ⟨rfl, -⟩ := checkedMultiplyOrThrow_eq_ok hvalues
    obtain ⟨rfl, -⟩ := checkedMultiplyOrThrow_eq_ok hbytes
    obtain ⟨rfl, hle⟩ := checkedAddOrThrow_eq_ok (by decide) hrootsEnd
    obtain ⟨rfl, -⟩ := checkedAddOrThrow_eq_ok (by omega) hprojectionsEnd
    exact ⟨hmetric, ⟨hdims.1, hdims.2.1⟩, ⟨hdims.2.2.1, hdims.2.2.2.1⟩, hdims.2.2.2.2, ⟨hpage.1,
      hpage.2.1⟩, hsize, hlayout.1, hlayout.2.1, hlayout.2.2.1, hlayout.2.2.2.2.2⟩

end Qalsh
