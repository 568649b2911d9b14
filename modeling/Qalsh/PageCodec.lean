/-
  PageCodec.lean --- writing a page and reading it back.

  `SerializePage` lays a header, and the entries of a leaf or the children and
  separators of an internal node, over a zeroed page.  The readers find them at
  offsets they compute again from the stored count.  The three computations of sizes,
  the builder's capacities, the writer's and the readers', agree on every page.
-/
import Qalsh.TreeCheck

set_option autoImplicit false

namespace Qalsh

open Foundation

/-! ## Pages in memory -/

/-- `Page`; a leaf has entries, an internal node has children and separators. -/
structure Page where
  header : PageHeader
  entries : List Entry
  children : List Nat
  separators : List Binary32
  firstKey : Binary32
  deriving DecidableEq, Repr, Inhabited

/-- The fields of a page are within the widths of their types. -/
structure Page.Fits (page : Page) : Prop where
  count : page.header.count < 2 ^ 32
  previous : page.header.previous < 2 ^ 64
  next : page.header.next < 2 ^ 64
  ids : ∀ entry ∈ page.entries, entry.pointId < 2 ^ 32
  children : ∀ child ∈ page.children, child < 2 ^ 64

/-- The page sizes `Build` accepts. -/
structure AcceptedPageSize (pageSize : Nat) : Prop where
  lower : 512 ≤ pageSize
  upper : pageSize ≤ maxReasonablePageSize
  aligned : pageSize % 8 = 0

def encodeChild (child : Nat) : List UInt8 := encodeLE 8 child

@[simp] theorem length_encodeChild (child : Nat) : (encodeChild child).length = 8 := by
  simp [encodeChild]

/-! ## `SerializePage` -/

/-- The branch of a leaf, over a page that already has its header. -/
def serializeLeaf (page : Page) (pageSize : Nat) (output : List UInt8) :
    Except Error (List UInt8) := do
  require (page.header.count = page.entries.length ∧ page.header.count > 0)
    "cannot serialize an empty or inconsistent leaf page"
  let product ← checkedMultiplyOrThrow page.header.count entrySize "leaf page size overflows"
  let bytes ← checkedAddOrThrow pageHeaderSize product "leaf page size overflows"
  require (bytes ≤ pageSize) "leaf page exceeds its page boundary"
  return overlayItems encodeEntry entrySize pageHeaderSize page.entries output

/-- The branch of an internal node, over a page that already has its header. -/
def serializeInternal (page : Page) (pageSize : Nat) (output : List UInt8) :
    Except Error (List UInt8) := do
  require (page.header.count = page.children.length ∧ page.header.count ≥ 2 ∧
      page.separators.length + 1 = page.children.length)
    "cannot serialize an inconsistent internal page"
  let childrenBytes ← checkedMultiplyOrThrow page.header.count 8 "internal page size overflows"
  let separatorBytes ← checkedMultiplyOrThrow (page.header.count - 1) 4
    "internal page size overflows"
  let base ← checkedAddOrThrow pageHeaderSize childrenBytes "internal page size overflows"
  let bytes ← checkedAddOrThrow base separatorBytes "internal page size overflows"
  require (bytes ≤ pageSize) "internal page exceeds its page boundary"
  let output := overlayItems encodeChild 8 pageHeaderSize page.children output
  let separatorsOffset := pageHeaderSize + page.children.length * 8
  return overlayItems encodeFloat 4 separatorsOffset page.separators output

/-- A zeroed page with its header over it. -/
def withHeader (pageSize : Nat) (header : PageHeader) : List UInt8 :=
  overlay (List.replicate pageSize 0) 0 (encodePageHeader header)

def serializePage (page : Page) (pageSize : Nat) : Except Error (List UInt8) := do
  require (pageSize ≥ pageHeaderSize) "page size is too small"
  require (page.header.kind = leafPage ∨ page.header.kind = internalPage)
    "cannot serialize an invalid page type"
  let output := withHeader pageSize page.header
  if page.header.kind = leafPage then serializeLeaf page pageSize output
  else serializeInternal page pageSize output

/-! ## What the writer accepts -/

/-- The sizes of a leaf agree and its entries fit. -/
structure Page.LeafFits (page : Page) (pageSize : Nat) : Prop where
  kind : page.header.kind = leafPage
  count : page.header.count = page.entries.length
  nonempty : 0 < page.header.count
  room : pageHeaderSize + page.header.count * entrySize ≤ pageSize

/-- The sizes of an internal node agree and its children and separators fit. -/
structure Page.InternalFits (page : Page) (pageSize : Nat) : Prop where
  kind : page.header.kind = internalPage
  count : page.header.count = page.children.length
  binary : 2 ≤ page.header.count
  separators : page.separators.length + 1 = page.children.length
  room : pageHeaderSize + page.header.count * 8 + (page.header.count - 1) * 4 ≤ pageSize

section Accepted

variable {page : Page} {pageSize : Nat} {output bytes : List UInt8}

theorem serializeLeaf_eq_ok (hupper : pageSize ≤ maxReasonablePageSize)
    (hkind : page.header.kind = leafPage) :
    serializeLeaf page pageSize output = .ok bytes ↔ page.LeafFits pageSize ∧
      bytes = overlayItems encodeEntry entrySize pageHeaderSize page.entries output := by
  have hmax : maxReasonablePageSize ≤ uint64Max := by decide
  unfold serializeLeaf
  rw [except_unit_bind_eq_ok, require_eq_ok]
  constructor
  · rintro ⟨⟨hcount, hpos⟩, h⟩
    simp only [except_bind_eq_ok, require_eq_ok] at h
    obtain ⟨product, hproduct, size, hsize, u, hroom, hbytes⟩ := h
    obtain ⟨rfl, -⟩ := checkedMultiplyOrThrow_eq_ok hproduct
    obtain ⟨rfl, -⟩ := checkedAddOrThrow_eq_ok (by decide) hsize
    cases hbytes
    exact ⟨⟨hkind, hcount, hpos, hroom⟩, rfl⟩
  · rintro ⟨h, rfl⟩
    have hroom := h.room
    refine ⟨⟨h.count, h.nonempty⟩, ?_⟩
    rw [checkedMultiplyOrThrow_of_le (by omega), except_ok_bind, checkedAddOrThrow_of_le (by omega),
      except_ok_bind, require_of hroom]
    rfl

theorem serializeInternal_eq_ok (hupper : pageSize ≤ maxReasonablePageSize)
    (hkind : page.header.kind = internalPage) :
    serializeInternal page pageSize output = .ok bytes ↔ page.InternalFits pageSize ∧
      bytes = overlayItems encodeFloat 4 (separatorsOffset page.header) page.separators
        (overlayItems encodeChild 8 pageHeaderSize page.children output) := by
  have hmax : maxReasonablePageSize ≤ uint64Max := by decide
  unfold serializeInternal
  rw [except_unit_bind_eq_ok, require_eq_ok]
  constructor
  · rintro ⟨⟨hcount, hbinary, hseparators⟩, h⟩
    simp only [except_bind_eq_ok, require_eq_ok] at h
    obtain ⟨childrenBytes, hchildren, separatorBytes, hseparator, base, hbase, size, hsize, u, hroom,
      hbytes⟩ := h
    obtain ⟨rfl, -⟩ := checkedMultiplyOrThrow_eq_ok hchildren
    obtain ⟨rfl, -⟩ := checkedMultiplyOrThrow_eq_ok hseparator
    obtain ⟨rfl, hle⟩ := checkedAddOrThrow_eq_ok (by decide) hbase
    obtain ⟨rfl, -⟩ := checkedAddOrThrow_eq_ok hle hsize
    cases hbytes
    refine ⟨⟨hkind, hcount, hbinary, hseparators, hroom⟩, ?_⟩
    rw [separatorsOffset, hcount]
  · rintro ⟨h, rfl⟩
    have hroom := h.room
    refine ⟨⟨h.count, h.binary, h.separators⟩, ?_⟩
    rw [checkedMultiplyOrThrow_of_le (by omega), except_ok_bind,
      checkedMultiplyOrThrow_of_le (by omega), except_ok_bind, checkedAddOrThrow_of_le (by omega),
      except_ok_bind, checkedAddOrThrow_of_le (by omega), except_ok_bind, require_of hroom,
      separatorsOffset, h.count]
    rfl

/-- What `SerializePage` accepts, and what it writes. -/
theorem serializePage_eq_ok (hsize : AcceptedPageSize pageSize) :
    serializePage page pageSize = .ok bytes ↔
      (page.LeafFits pageSize ∧ bytes = overlayItems encodeEntry entrySize pageHeaderSize
        page.entries (withHeader pageSize page.header)) ∨
      (page.InternalFits pageSize ∧ bytes = overlayItems encodeFloat 4
        (separatorsOffset page.header) page.separators (overlayItems encodeChild 8 pageHeaderSize
          page.children (withHeader pageSize page.header))) := by
  have hlower : pageSize ≥ pageHeaderSize := le_trans (by decide) hsize.lower
  have hkinds : leafPage ≠ internalPage := by decide
  unfold serializePage
  rw [require_of hlower, except_ok_bind, except_unit_bind_eq_ok, require_eq_ok]
  constructor
  · rintro ⟨hkind | hkind, h⟩
    · rw [if_pos hkind] at h
      exact Or.inl ((serializeLeaf_eq_ok hsize.upper hkind).mp h)
    · rw [if_neg (by rw [hkind]; exact hkinds.symm)] at h
      exact Or.inr ((serializeInternal_eq_ok hsize.upper hkind).mp h)
  · rintro (⟨h, hbytes⟩ | ⟨h, hbytes⟩)
    · rw [if_pos h.kind]
      exact ⟨Or.inl h.kind, (serializeLeaf_eq_ok hsize.upper h.kind).mpr ⟨h, hbytes⟩⟩
    · rw [if_neg (by rw [h.kind]; exact hkinds.symm)]
      exact ⟨Or.inr h.kind, (serializeInternal_eq_ok hsize.upper h.kind).mpr ⟨h, hbytes⟩⟩

/-- The builder's leaves fit: its capacity is what the writer has room for. -/
theorem leafCapacity_room {count : Nat} (hsize : AcceptedPageSize pageSize)
    (h : count ≤ leafCapacity pageSize) : pageHeaderSize + count * entrySize ≤ pageSize := by
  have hlower := hsize.lower
  unfold leafCapacity pageHeaderSize entrySize at *
  omega

/-- The builder's internal nodes fit, with one separator fewer than children. -/
theorem internalCapacity_room {count : Nat} (hsize : AcceptedPageSize pageSize)
    (h : count ≤ internalCapacity pageSize) :
    pageHeaderSize + count * 8 + (count - 1) * 4 ≤ pageSize := by
  have hlower := hsize.lower
  unfold internalCapacity pageHeaderSize at *
  omega

end Accepted

/-! ## Reading a page back -/

/-- The readers find what the page holds. -/
structure Page.ReadsBack (page : Page) (bytes : List UInt8) : Prop where
  header : readPageHeader bytes = .ok page.header
  entry : page.header.kind = leafPage → ∀ index < page.header.count,
    ∃ entry, page.entries[index]? = some entry ∧ readDiskEntry bytes page.header index = .ok entry
  child : page.header.kind = internalPage → ∀ index < page.header.count,
    ∃ child, page.children[index]? = some child ∧ readChild bytes page.header index = .ok child
  separator : page.header.kind = internalPage → ∀ index, index + 1 < page.header.count →
    ∃ separator, page.separators[index]? = some separator ∧
      readSeparator bytes page.header index = .ok separator

section Reading

variable {page : Page} {pageSize : Nat} {bytes : List UInt8}

theorem length_withHeader (hsize : AcceptedPageSize pageSize) (header : PageHeader) :
    (withHeader pageSize header).length = pageSize := by
  have hlower := hsize.lower
  unfold withHeader
  rw [length_overlay (by simp only [length_encodePageHeader, List.length_replicate]; omega),
    List.length_replicate]

theorem slice_withHeader (hsize : AcceptedPageSize pageSize) (header : PageHeader) :
    slice (withHeader pageSize header) 0 24 = encodePageHeader header := by
  have hlower := hsize.lower
  unfold withHeader
  rw [slice_overlay_inside (by simp only [length_encodePageHeader, List.length_replicate]; omega)
    le_rfl (by simp), Nat.sub_self, ← length_encodePageHeader header, slice_self]

/-- Only the first 24 bytes of a page matter to its header. -/
theorem decodePageHeader_slice (page : List UInt8) :
    decodePageHeader (slice page 0 24) = decodePageHeader page := by
  unfold decodePageHeader
  rw [readLE_slice (by decide), readLE_slice (by decide), readLE_slice (by decide),
    readLE_slice (by decide)]

theorem readPageHeader_of (hfits : page.Fits)
    (hkind : page.header.kind = leafPage ∨ page.header.kind = internalPage)
    (hlength : pageHeaderSize ≤ bytes.length)
    (hslice : slice bytes 0 24 = encodePageHeader page.header) :
    readPageHeader bytes = .ok page.header := by
  have hkind : page.header.kind < 2 ^ 32 := by
    rcases hkind with h | h <;> rw [h] <;> decide
  unfold readPageHeader
  rw [require_of hlength, except_ok_bind, ← decodePageHeader_slice, hslice,
    ← List.append_nil (encodePageHeader page.header),
    decodePageHeader_encode hkind hfits.count hfits.previous hfits.next]
  rfl

/-- A leaf is read back. -/
theorem Page.LeafFits.readsBack (h : page.LeafFits pageSize) (hsize : AcceptedPageSize pageSize)
    (hfits : page.Fits) (hbytes : bytes = overlayItems encodeEntry entrySize pageHeaderSize
      page.entries (withHeader pageSize page.header)) : page.ReadsBack bytes := by
  have hkinds : leafPage ≠ internalPage := by decide
  have hwidth := fun entry => length_encodeEntry entry
  have hroom : pageHeaderSize + page.entries.length * entrySize ≤
      (withHeader pageSize page.header).length := by
    rw [length_withHeader hsize, ← h.count]
    exact h.room
  have hlength : bytes.length = pageSize := by
    rw [hbytes, length_overlayItems hwidth hroom, length_withHeader hsize]
  have hheader : slice bytes 0 24 = encodePageHeader page.header := by
    rw [hbytes, slice_overlayItems_outside hwidth hroom (Or.inl (by decide)),
      slice_withHeader hsize]
  refine ⟨readPageHeader_of hfits (Or.inl h.kind) ?_ hheader, fun _ index hindex => ?_,
    fun hkind => absurd (h.kind.symm.trans hkind) hkinds,
    fun hkind => absurd (h.kind.symm.trans hkind) hkinds⟩
  · rw [hlength]
    exact le_trans (by decide) hsize.lower
  · have hlt : index < page.entries.length := h.count ▸ hindex
    refine ⟨page.entries[index], List.getElem?_eq_getElem hlt, ?_⟩
    rw [readDiskEntry_of h.kind hindex (hlength ▸ h.room) (hlength ▸ hsize.upper)]
    refine congrArg Except.ok (decodeEntry_encode (hfits.ids _ (List.getElem_mem hlt)) ?_)
    rw [hbytes, slice_overlayItems_inside hwidth hroom hlt]

/-- An internal node is read back. -/
theorem Page.InternalFits.readsBack (h : page.InternalFits pageSize)
    (hsize : AcceptedPageSize pageSize) (hfits : page.Fits)
    (hbytes : bytes = overlayItems encodeFloat 4 (separatorsOffset page.header) page.separators
      (overlayItems encodeChild 8 pageHeaderSize page.children (withHeader pageSize page.header))) :
    page.ReadsBack bytes := by
  have hkinds : internalPage ≠ leafPage := by decide
  have hseparators := h.separators
  have hcount := h.count
  have hbound := h.room
  have hoffset : separatorsOffset page.header = pageHeaderSize + page.children.length * 8 := by
    rw [separatorsOffset, hcount]
  have hroom : pageHeaderSize + page.children.length * 8 ≤
      (withHeader pageSize page.header).length := by
    rw [length_withHeader hsize]
    omega
  have hinner := length_overlayItems length_encodeChild hroom
  have hroom' : separatorsOffset page.header + page.separators.length * 4 ≤
      (overlayItems encodeChild 8 pageHeaderSize page.children
        (withHeader pageSize page.header)).length := by
    rw [hinner, length_withHeader hsize, hoffset]
    omega
  have hlength : bytes.length = pageSize := by
    rw [hbytes, length_overlayItems length_encodeFloat hroom', hinner, length_withHeader hsize]
  have hheader : slice bytes 0 24 = encodePageHeader page.header := by
    rw [hbytes, slice_overlayItems_outside length_encodeFloat hroom' (Or.inl (by
        rw [hoffset]
        exact le_trans (show 0 + 24 ≤ pageHeaderSize by decide) (Nat.le_add_right _ _))),
      slice_overlayItems_outside length_encodeChild hroom (Or.inl (by decide)),
      slice_withHeader hsize]
  refine ⟨readPageHeader_of hfits (Or.inr h.kind) ?_ hheader,
    fun hkind => absurd (h.kind.symm.trans hkind) hkinds, fun _ index hindex => ?_,
    fun _ index hindex => ?_⟩
  · rw [hlength]
    exact le_trans (by decide) hsize.lower
  · have hlt : index < page.children.length := hcount ▸ hindex
    have hchild : slice bytes (pageHeaderSize + index * 8) 8 = encodeChild page.children[index] := by
      -- the children end where the separators start
      rw [hbytes, slice_overlayItems_outside length_encodeFloat hroom' (Or.inl (by
          rw [hoffset]
          omega)),
        slice_overlayItems_inside length_encodeChild hroom hlt]
    have hbelow : page.children[index] < 256 ^ 8 := hfits.children _ (List.getElem_mem hlt)
    refine ⟨page.children[index], List.getElem?_eq_getElem hlt, ?_⟩
    rw [readChild_of h.kind hindex (by omega) (hlength ▸ hsize.upper), readLE, hchild, encodeChild,
      decodeLE_encodeLE, Nat.mod_eq_of_lt hbelow]
  · have hlt : index < page.separators.length := by omega
    refine ⟨page.separators[index], List.getElem?_eq_getElem hlt, ?_⟩
    rw [readSeparator_of h.kind hindex (by omega) (hlength ▸ hsize.upper)]
    refine congrArg Except.ok (readFloat_encode ?_)
    rw [hbytes, slice_overlayItems_inside length_encodeFloat hroom' hlt]

/-- There is no separator after the last child. -/
theorem readSeparator_last {bytes : List UInt8} {header : PageHeader} {index : Nat}
    (h : header.count ≤ index + 1) :
    readSeparator bytes header index = .error (.invalidArgument "QALSH separator is out of range") := by
  have hcondition : ¬ (header.kind = internalPage ∧ index + 1 < header.count) := by omega
  simp [readSeparator, require, hcondition]

end Reading

/-- The codec of pages: what `SerializePage` writes for any page size of `Build` reads back
as the page, and it accepts every page up to the capacities of `Build`. -/
theorem serializePage_codec {pageSize : Nat} (hsize : AcceptedPageSize pageSize) {page : Page}
    (hfits : page.Fits) :
    (∀ bytes, serializePage page pageSize = .ok bytes → page.ReadsBack bytes) ∧
    (page.header.kind = leafPage → page.header.count = page.entries.length →
      1 ≤ page.entries.length → page.entries.length ≤ (pageSize - 32) / 8 →
      ∃ bytes, serializePage page pageSize = .ok bytes) ∧
    (page.header.kind = internalPage → page.header.count = page.children.length →
      2 ≤ page.children.length → page.children.length ≤ (pageSize - 32) / 12 →
      page.separators.length + 1 = page.children.length →
      ∃ bytes, serializePage page pageSize = .ok bytes) := by
  refine ⟨fun bytes h => ?_, fun hkind hcount hpos hcapacity => ?_,
    fun hkind hcount hbinary hcapacity hseparators => ?_⟩
  · rcases (serializePage_eq_ok hsize).mp h with ⟨h, hbytes⟩ | ⟨h, hbytes⟩
    · exact h.readsBack hsize hfits hbytes
    · exact h.readsBack hsize hfits hbytes
  · have hroom := leafCapacity_room hsize (show page.entries.length ≤ leafCapacity pageSize from
      hcapacity)
    rw [← hcount] at hroom hpos
    exact ⟨_, (serializePage_eq_ok hsize).mpr (Or.inl ⟨⟨hkind, hcount, hpos, hroom⟩, rfl⟩)⟩
  · have hroom := internalCapacity_room hsize (show page.children.length ≤ internalCapacity pageSize
      from hcapacity)
    rw [← hcount] at hroom hbinary
    exact ⟨_, (serializePage_eq_ok hsize).mpr
      (Or.inr ⟨⟨hkind, hcount, hbinary, hseparators, hroom⟩, rfl⟩)⟩

/-- A node with two children and the separator between them. -/
def twoChildren : Page where
  header := { kind := internalPage, count := 2, previous := 0, next := 0 }
  entries := []
  children := [1, 2]
  separators := [one]
  firstKey := one

theorem twoChildren_fits : twoChildren.Fits where
  count := by decide
  previous := by decide
  next := by decide
  ids := by decide
  children := by decide

theorem pageSize_512 : AcceptedPageSize 512 := ⟨by decide, by decide, by decide⟩

theorem serializePage_codec_twoChildren :
    (∃ bytes, serializePage twoChildren 512 = .ok bytes) ∧
      ∀ bytes, serializePage twoChildren 512 = .ok bytes → twoChildren.ReadsBack bytes := by
  have h := serializePage_codec pageSize_512 twoChildren_fits
  exact ⟨h.2.2 rfl rfl (by decide) (by decide) rfl, h.1⟩

/-- The index of the last child is below the stored count and has no separator. -/
theorem readSeparator_rejected : ∃ bytes, serializePage twoChildren 512 = .ok bytes ∧
    1 < twoChildren.header.count ∧ readSeparator bytes twoChildren.header 1 =
      .error (.invalidArgument "QALSH separator is out of range") := by
  have hfits : twoChildren.InternalFits 512 := ⟨rfl, rfl, by decide, rfl, by decide⟩
  exact ⟨_, (serializePage_eq_ok pageSize_512).mpr (Or.inr ⟨hfits, rfl⟩), by decide,
    readSeparator_last (by decide)⟩

end Qalsh
