/-
  LeafChain.lean --- what the chain of leaves of one table holds.

  `StoresIn` is what a validated file guarantees of one table: a chain of leaves
  that lists a sorted table, and a search tree over it.  From it follows the
  position `reset_cursor` finds.
-/
import Qalsh.BPlusTree

set_option autoImplicit false

namespace Qalsh

open Foundation

namespace BPlusTreeIndex

variable {R : Type} {points : Nat}

/-! ## The invariant -/

/-- The mapping offset of a page. -/
def offsetOf (index : BPlusTreeIndex) (pageId : Nat) : Nat :=
  index.dataOffset + pageId * index.metadata.pageSize

/-- The bytes of a page. -/
def page (index : BPlusTreeIndex) (pageId : Nat) : List UInt8 := index.pageAt (index.offsetOf pageId)

/-- The pages lie in the file. -/
structure Laid (index : BPlusTreeIndex) : Prop where
  pages : index.dataOffset + index.pageCount * index.metadata.pageSize ≤ index.mapping.length
  mapping : index.mapping.length ≤ uint64Max
  pageSize : index.metadata.pageSize ≤ maxReasonablePageSize

def leafSizes (index : BPlusTreeIndex) (leaves : List Nat) : List Nat :=
  leaves.map fun leaf => (index.pageHeaders leaf).count

/-- A tree of uniform height over the entries from `first` up to `last`: a leaf, or an
internal page whose children divide them, with separators equal to the first keys. -/
def SearchTree (index : BPlusTreeIndex) (table : SortedTable points) (leaves : List Nat) :
    (height pageId first last : Nat) → Prop
  | 0, pageId, first, last => ∃ i, ∃ h : i < leaves.length, leaves[i] = pageId ∧
      first = blockStart (index.leafSizes leaves) i ∧
      last = blockStart (index.leafSizes leaves) (i + 1)
  | height + 1, pageId, first, last =>
      0 < pageId ∧ pageId < index.pageCount ∧
      (index.pageHeaders pageId).kind = internalPage ∧ 2 ≤ (index.pageHeaders pageId).count ∧
      pageHeaderSize + (index.pageHeaders pageId).count * 8 +
        ((index.pageHeaders pageId).count - 1) * 4 ≤ index.metadata.pageSize ∧
      ∃ bounds : Nat → Nat, bounds 0 = first ∧ bounds (index.pageHeaders pageId).count = last ∧
        (∀ c < (index.pageHeaders pageId).count,
          0 < readLE (index.page pageId) (pageHeaderSize + c * 8) 8 ∧
          readLE (index.page pageId) (pageHeaderSize + c * 8) 8 < index.pageCount ∧
          bounds c ≤ bounds (c + 1) ∧ SearchTree index table leaves height
            (readLE (index.page pageId) (pageHeaderSize + c * 8) 8) (bounds c) (bounds (c + 1))) ∧
        ∀ c, c + 1 < (index.pageHeaders pageId).count → bounds (c + 1) < points ∧
          (readFloat (index.page pageId)
            (separatorsOffset (index.pageHeaders pageId) + c * 4)).isFinite = true ∧
          (readFloat (index.page pageId)
            (separatorsOffset (index.pageHeaders pageId) + c * 4)).orderKey =
            (table.entryAt (bounds (c + 1))).value.orderKey

/-- One table of a validated file, with its leaves from left to right. -/
structure StoresIn (index : BPlusTreeIndex) (tableId : Nat) (table : SortedTable points)
    (leaves : List Nat) : Prop where
  laid : index.Laid
  inRange : ∀ leaf ∈ leaves, 0 < leaf ∧ leaf < index.pageCount
  kind : ∀ leaf ∈ leaves, (index.pageHeaders leaf).kind = leafPage
  count_pos : ∀ leaf ∈ leaves, 0 < (index.pageHeaders leaf).count
  count_le : ∀ leaf ∈ leaves,
    pageHeaderSize + (index.pageHeaders leaf).count * entrySize ≤ index.metadata.pageSize
  previous : ∀ i (h : i < leaves.length),
    (index.pageHeaders leaves[i]).previous = if i = 0 then 0 else leaves.getD (i - 1) 0
  next : ∀ i (h : i < leaves.length), (index.pageHeaders leaves[i]).next = leaves.getD (i + 1) 0
  nodup : leaves.Nodup
  total : (index.leafSizes leaves).sum = points
  entries : ∀ i (h : i < leaves.length), ∀ j < (index.pageHeaders leaves[i]).count,
    decodeEntry (index.page leaves[i]) (pageHeaderSize + j * entrySize) =
      table.entryAt (blockStart (index.leafSizes leaves) i + j)
  root : ∃ root height, index.roots[tableId]? = some root ∧ height < index.pageCount ∧
    SearchTree index table leaves height root 0 points

variable {index : BPlusTreeIndex} {tableId : Nat} {table : SortedTable points} {leaves : List Nat}

theorem length_leafSizes : (index.leafSizes leaves).length = leaves.length := by
  simp [leafSizes]

theorem getElem_leafSizes {i : Nat} (h : i < leaves.length)
    (h' : i < (index.leafSizes leaves).length) :
    (index.leafSizes leaves)[i] = (index.pageHeaders leaves[i]).count := by
  simp [leafSizes]

variable (index) in
theorem leafStart_succ {i : Nat} (h : i < leaves.length) :
    blockStart (index.leafSizes leaves) (i + 1) =
      blockStart (index.leafSizes leaves) i + (index.pageHeaders leaves[i]).count := by
  have h' : i < (index.leafSizes leaves).length := by rwa [length_leafSizes]
  rw [blockStart_succ h', getElem_leafSizes h h']

/-! ## Page access -/

theorem Laid.pageOffset_eq (h : index.Laid) {pageId : Nat} (hpos : 0 < pageId)
    (hlt : pageId < index.pageCount) (outOfRange overflows exceeds : String) :
    index.pageOffset outOfRange overflows exceeds pageId = .ok (index.offsetOf pageId) := by
  have hpages := h.pages
  have hmapping := h.mapping
  have hmul : pageId * index.metadata.pageSize + index.metadata.pageSize ≤
      index.pageCount * index.metadata.pageSize := by
    rw [← Nat.succ_mul]
    exact Nat.mul_le_mul_right _ hlt
  have hoffset : index.offsetOf pageId = index.dataOffset + pageId * index.metadata.pageSize := rfl
  simp only [pageOffset, require_of (And.intro hpos hlt), except_ok_bind,
    checkedMultiplyOrThrow_of_le (show pageId * index.metadata.pageSize ≤ uint64Max by omega),
    checkedAddOrThrow_of_le
      (show index.dataOffset + pageId * index.metadata.pageSize ≤ uint64Max by omega), ← hoffset]
  rw [require_of (by omega)]
  rfl

theorem Laid.length_page (h : index.Laid) {pageId : Nat} (hlt : pageId < index.pageCount) :
    (index.page pageId).length = index.metadata.pageSize := by
  refine length_slice ?_
  have hpages := h.pages
  have hmul : pageId * index.metadata.pageSize + index.metadata.pageSize ≤
      index.pageCount * index.metadata.pageSize := by
    rw [← Nat.succ_mul]
    exact Nat.mul_le_mul_right _ hlt
  have hoffset : index.offsetOf pageId = index.dataOffset + pageId * index.metadata.pageSize := rfl
  omega

theorem Laid.readPage_eq (h : index.Laid) {pageId : Nat} (hpos : 0 < pageId)
    (hlt : pageId < index.pageCount) : index.readPage pageId = .ok (index.page pageId) := by
  rw [readPage, h.pageOffset_eq hpos hlt, except_ok_bind]
  rfl

theorem Laid.loadPage_eq (h : index.Laid) {pageId : Nat} (hpos : 0 < pageId)
    (hlt : pageId < index.pageCount) : index.loadPage pageId = .ok (index.page pageId) := by
  rw [loadPage, h.pageOffset_eq hpos hlt, except_ok_bind]
  rfl

/-! ## The descent -/

/-- The separator loop stops at the first separator that is not below the query. -/
theorem selectChild_eq {page : List UInt8} {header : PageHeader} (query : Binary32)
    {separator : Nat → Binary32}
    (hread : ∀ c, c + 1 < header.count → readSeparator page header c = .ok (separator c)) :
    ∀ (steps child : Nat), header.count ≤ child + steps → child < header.count →
      ∃ c, selectChild page header query steps child = .ok c ∧ child ≤ c ∧ c < header.count ∧
        (∀ i, child ≤ i → i < c → (separator i).lt query = true) ∧
        (c + 1 < header.count → (separator c).lt query = false) := by
  intro steps
  induction steps with
  | zero =>
      intro child hsteps hchild
      omega
  | succ steps ih =>
      intro child hsteps hchild
      rw [selectChild]
      by_cases hmore : child + 1 < header.count
      · rw [if_pos hmore, hread child hmore, except_ok_bind]
        by_cases hlt : (separator child).lt query = true
        · rw [if_pos hlt]
          obtain ⟨c, hc, hle, hcount, hall, hstop⟩ := ih (child + 1) (by omega) hmore
          refine ⟨c, hc, by omega, hcount, fun i h₁ h₂ => ?_, hstop⟩
          rcases Nat.eq_or_lt_of_le h₁ with rfl | hlt'
          · exact hlt
          · exact hall i hlt' h₂
        · rw [if_neg hlt]
          exact ⟨child, rfl, le_rfl, hchild, fun i h₁ h₂ => by omega, fun _ => by simpa using hlt⟩
      · rw [if_neg hmore]
        exact ⟨child, rfl, le_rfl, hchild, fun i h₁ h₂ => by omega, fun h => absurd h hmore⟩

/-- The bytes of a leaf are read without a failing check. -/
theorem StoresIn.readDiskEntry_eq (h : index.StoresIn tableId table leaves) {i : Nat}
    (hi : i < leaves.length) {j : Nat} (hj : j < (index.pageHeaders leaves[i]).count) :
    readDiskEntry (index.page leaves[i]) (index.pageHeaders leaves[i]) j =
      .ok (table.entryAt (blockStart (index.leafSizes leaves) i + j)) := by
  have hmem := List.getElem_mem hi
  have hlen := h.laid.length_page (h.inRange _ hmem).2
  rw [readDiskEntry_of (h.kind _ hmem) hj (by rw [hlen]; exact h.count_le _ hmem)
    (by rw [hlen]; exact h.laid.pageSize), h.entries i hi j hj]

/-- Between two neighbouring keys the lower bound is found inside the leaf. -/
theorem StoresIn.split_eq (h : index.StoresIn tableId table leaves) {query : Binary32}
    (hq : query.isFinite = true) {i : Nat} (hi : i < leaves.length)
    (hfirst : blockStart (index.leafSizes leaves) i = 0 ∨
      (table.entryAt (blockStart (index.leafSizes leaves) i)).value.orderKey < query.orderKey)
    (hlast : blockStart (index.leafSizes leaves) (i + 1) = points ∨
      query.orderKey ≤ (table.entryAt (blockStart (index.leafSizes leaves) (i + 1))).value.orderKey) :
    table.lowerBound query = blockStart (index.leafSizes leaves) i +
      leading (fun j => (table.entryAt (blockStart (index.leafSizes leaves) i + j)).value.lt query)
        (index.pageHeaders leaves[i]).count := by
  have hnext := leafStart_succ index hi
  have hsum := blockStart_le_sum (index.leafSizes leaves) (i + 1)
  rw [h.total] at hsum
  have hpos := h.count_pos _ (List.getElem_mem hi)
  generalize hlo : leading (fun j =>
    (table.entryAt (blockStart (index.leafSizes leaves) i + j)).value.lt query)
    (index.pageHeaders leaves[i]).count = lo
  have hle : lo ≤ (index.pageHeaders leaves[i]).count := hlo ▸ leading_le _ _
  generalize blockStart (index.leafSizes leaves) (i + 1) = last at *
  generalize blockStart (index.leafSizes leaves) i = first at *
  have hlt : ∀ k < points, (table.entryAt k).value.lt query = true ↔
      (table.entryAt k).value.orderKey < query.orderKey := fun k hk =>
    Binary32.lt_iff_of_isFinite (table.entryAt_finite hk) hq
  refine leading_unique (by omega) (fun k hk => ?_) (fun hstop => ?_)
  · rcases Nat.lt_or_ge k first with hbefore | hafter
    · have hfirst' := hfirst.resolve_left (by omega)
      refine (hlt k (by omega)).mpr (lt_of_le_of_lt (table.orderKey_mono hbefore.le (by omega)) hfirst')
    · have hin := leading_holds (p := fun j => (table.entryAt (first + j)).value.lt query)
        (n := (index.pageHeaders leaves[i]).count) (i := k - first) (by omega)
      rwa [Nat.add_sub_cancel' hafter] at hin
  · rcases Nat.eq_or_lt_of_le hle with heq | hlt'
    · have hend := hlast.resolve_left (by omega)
      rw [← Bool.not_eq_true, hlt _ hstop, heq, ← hnext]
      omega
    · have := leading_stop (p := fun j => (table.entryAt (first + j)).value.lt query)
        (n := (index.pageHeaders leaves[i]).count) (hlo ▸ hlt')
      rwa [hlo] at this

/-! ## Cursors on a leaf chain -/

variable {owner : Option Nat} {t : QueryTable points}

/-- A cursor whose two sides stand on entries of the chain. -/
structure On (index : BPlusTreeIndex) (owner : Option Nat) (t : QueryTable points)
    (leaves : List Nat) (cursor : DiskCursor R) : Prop where
  owner_eq : cursor.owner = owner
  table : cursor.tableId = t.tableId
  query : cursor.queryValue = t.queryValue
  left : cursor.leftActive = true → ∃ i, ∃ h : i < leaves.length, cursor.leftPage = leaves[i] ∧
    cursor.leftIndex < (index.pageHeaders leaves[i]).count ∧
    blockStart (index.leafSizes leaves) i + cursor.leftIndex < t.split
  right : cursor.rightActive = true → ∃ i, ∃ h : i < leaves.length, cursor.rightPage = leaves[i] ∧
    cursor.rightIndex < (index.pageHeaders leaves[i]).count ∧
    t.split ≤ blockStart (index.leafSizes leaves) i + cursor.rightIndex
  cached : cursor.cachedPage ≠ 0 → cursor.cachedPage < index.pageCount ∧
    cursor.cachedPageData = some (index.offsetOf cursor.cachedPage)

/-- The abstract cursor of a disk cursor. -/
def view (index : BPlusTreeIndex) (points : Nat) (leaves : List Nat) (cursor : DiskCursor R) :
    Outward R where
  left := if cursor.leftActive then
    blockStart (index.leafSizes leaves) (leaves.idxOf cursor.leftPage) + cursor.leftIndex + 1 else 0
  right := if cursor.rightActive then
    blockStart (index.leafSizes leaves) (leaves.idxOf cursor.rightPage) + cursor.rightIndex
    else points
  leftBlocked := cursor.leftBlocked
  rightBlocked := cursor.rightBlocked
  lastBound := cursor.lastBound

theorem StoresIn.view_left (h : index.StoresIn tableId table leaves) {cursor : DiskCursor R}
    (hactive : cursor.leftActive = true) {i : Nat} (hi : i < leaves.length)
    (hpage : cursor.leftPage = leaves[i]) : (index.view points leaves cursor).left =
      blockStart (index.leafSizes leaves) i + cursor.leftIndex + 1 := by
  simp only [view, hactive, if_true, hpage, h.nodup.idxOf_getElem i hi]

theorem StoresIn.view_right (h : index.StoresIn tableId table leaves) {cursor : DiskCursor R}
    (hactive : cursor.rightActive = true) {i : Nat} (hi : i < leaves.length)
    (hpage : cursor.rightPage = leaves[i]) : (index.view points leaves cursor).right =
      blockStart (index.leafSizes leaves) i + cursor.rightIndex := by
  simp only [view, hactive, if_true, hpage, h.nodup.idxOf_getElem i hi]

theorem StoresIn.next_start_le (h : index.StoresIn tableId table leaves) {i : Nat}
    (hi : i < leaves.length) : blockStart (index.leafSizes leaves) i +
      (index.pageHeaders leaves[i]).count ≤ points := by
  rw [← leafStart_succ index hi, ← h.total]
  exact blockStart_le_sum _ _

theorem StoresIn.previous_ne_zero (h : index.StoresIn tableId table leaves) {i : Nat}
    (hi : i < leaves.length) : (index.pageHeaders leaves[i]).previous ≠ 0 ↔
      ∃ h' : i - 1 < leaves.length, 0 < i ∧ (index.pageHeaders leaves[i]).previous = leaves[i - 1] := by
  rw [h.previous i hi]
  by_cases h0 : i = 0
  · simp [h0]
  · have hlt : i - 1 < leaves.length := by omega
    have hpos := (h.inRange _ (List.getElem_mem hlt)).1
    rw [if_neg h0, List.getD_eq_getElem _ _ hlt]
    exact ⟨fun _ => ⟨hlt, by omega, rfl⟩, fun _ => by omega⟩

theorem StoresIn.next_ne_zero (h : index.StoresIn tableId table leaves) {i : Nat}
    (hi : i < leaves.length) : (index.pageHeaders leaves[i]).next ≠ 0 ↔
      ∃ h' : i + 1 < leaves.length, (index.pageHeaders leaves[i]).next = leaves[i + 1] := by
  rw [h.next i hi]
  by_cases hlt : i + 1 < leaves.length
  · have hpos := (h.inRange _ (List.getElem_mem hlt)).1
    rw [List.getD_eq_getElem _ _ hlt]
    exact ⟨fun _ => ⟨hlt, rfl⟩, fun _ => by omega⟩
  · rw [List.getD_eq_default _ _ (by omega)]
    exact ⟨fun h => absurd rfl h, fun ⟨h, _⟩ => absurd h hlt⟩

/-- A position of the chain: `blockStart i + lo`, with `lo` at most the size of leaf `i`. -/
theorem StoresIn.placeLeft_spec (h : index.StoresIn tableId table leaves) {i lo : Nat}
    (hi : i < leaves.length) (hlo : lo ≤ (index.pageHeaders leaves[i]).count)
    (cursor : DiskCursor R) (hinactive : cursor.leftActive = false) :
    ∃ cursor', index.placeLeft leaves[i] lo (index.pageHeaders leaves[i]) cursor = .ok cursor' ∧
      cursor' = { cursor with
        leftPage := cursor'.leftPage, leftLeafRank := cursor'.leftLeafRank,
        leftIndex := cursor'.leftIndex, leftActive := cursor'.leftActive } ∧
      (cursor'.leftActive = true → ∃ k, ∃ hk : k < leaves.length, cursor'.leftPage = leaves[k] ∧
        cursor'.leftIndex < (index.pageHeaders leaves[k]).count ∧
        blockStart (index.leafSizes leaves) k + cursor'.leftIndex + 1 =
          blockStart (index.leafSizes leaves) i + lo) ∧
      (cursor'.leftActive = false → blockStart (index.leafSizes leaves) i + lo = 0) := by
  unfold placeLeft
  by_cases hpos : lo > 0
  · rw [if_pos hpos]
    refine ⟨_, rfl, rfl, fun _ => ⟨i, hi, rfl, ?_, ?_⟩, fun hno => by cases hno⟩
    · show lo - 1 < _
      omega
    · show blockStart _ i + (lo - 1) + 1 = _
      omega
  · rw [if_neg hpos]
    by_cases hprev : (index.pageHeaders leaves[i]).previous ≠ 0
    · obtain ⟨hlt, hi0, hpage⟩ := (h.previous_ne_zero hi).mp hprev
      have hmem := List.getElem_mem hlt
      have hcount := h.count_pos _ hmem
      have hstart : blockStart (index.leafSizes leaves) i =
          blockStart (index.leafSizes leaves) (i - 1) + (index.pageHeaders leaves[i - 1]).count := by
        have := leafStart_succ index hlt
        rwa [Nat.sub_add_cancel hi0] at this
      rw [if_pos hprev, hpage]
      simp only [h.laid.loadPage_eq (h.inRange _ hmem).1 (h.inRange _ hmem).2, except_ok_bind,
        require_of (And.intro (h.kind _ hmem) hcount)]
      refine ⟨_, rfl, rfl, fun _ => ⟨i - 1, hlt, rfl, ?_, ?_⟩, fun hno => by cases hno⟩
      · show (index.pageHeaders leaves[i - 1]).count - 1 < _
        omega
      · show blockStart _ (i - 1) + ((index.pageHeaders leaves[i - 1]).count - 1) + 1 = _
        omega
    · rw [if_neg hprev]
      refine ⟨cursor, rfl, rfl, fun hyes : cursor.leftActive = true => ?_, fun _ => ?_⟩
      · rw [hinactive] at hyes
        cases hyes
      have h0 : i = 0 := by
        by_contra hne
        exact hprev ((h.previous_ne_zero hi).mpr ⟨by omega, by omega, by
          rw [h.previous i hi, if_neg hne, List.getD_eq_getElem _ _ (by omega)]⟩)
      subst h0
      rw [blockStart_zero]
      omega

theorem StoresIn.placeRight_spec (h : index.StoresIn tableId table leaves) {i lo : Nat}
    (hi : i < leaves.length) (hlo : lo ≤ (index.pageHeaders leaves[i]).count)
    (cursor : DiskCursor R) (hinactive : cursor.rightActive = false) :
    ∃ cursor', index.placeRight leaves[i] lo (index.pageHeaders leaves[i]) cursor = cursor' ∧
      cursor' = { cursor with
        rightPage := cursor'.rightPage, rightLeafRank := cursor'.rightLeafRank,
        rightIndex := cursor'.rightIndex, rightActive := cursor'.rightActive } ∧
      (cursor'.rightActive = true → ∃ k, ∃ hk : k < leaves.length, cursor'.rightPage = leaves[k] ∧
        cursor'.rightIndex < (index.pageHeaders leaves[k]).count ∧
        blockStart (index.leafSizes leaves) k + cursor'.rightIndex =
          blockStart (index.leafSizes leaves) i + lo) ∧
      (cursor'.rightActive = false → blockStart (index.leafSizes leaves) i + lo = points) := by
  have hnextStart := leafStart_succ index hi
  unfold placeRight
  by_cases hlt : lo < (index.pageHeaders leaves[i]).count
  · rw [if_pos hlt]
    exact ⟨_, rfl, rfl, fun _ => ⟨i, hi, rfl, hlt, rfl⟩, fun hno => by cases hno⟩
  · rw [if_neg hlt]
    by_cases hnext : (index.pageHeaders leaves[i]).next ≠ 0
    · obtain ⟨hk, hpage⟩ := (h.next_ne_zero hi).mp hnext
      rw [if_pos hnext, hpage]
      refine ⟨_, rfl, rfl, fun _ => ⟨i + 1, hk, rfl, h.count_pos _ (List.getElem_mem hk), ?_⟩,
        fun hno => by cases hno⟩
      show blockStart _ (i + 1) + 0 = _
      omega
    · rw [if_neg hnext]
      refine ⟨cursor, rfl, rfl, fun hyes : cursor.rightActive = true => ?_, fun _ => ?_⟩
      · rw [hinactive] at hyes
        cases hyes
      have hend : i + 1 = leaves.length := by
        by_contra hne
        have hlt' : i + 1 < leaves.length := by omega
        exact hnext ((h.next_ne_zero hi).mpr ⟨hlt', by
          rw [h.next i hi, List.getD_eq_getElem _ _ hlt']⟩)
      have htotal := h.total
      rw [← blockStart_length, length_leafSizes, ← hend] at htotal
      omega

/-- The descent reaches the lower bound. -/
theorem StoresIn.descend_spec (h : index.StoresIn t.tableId t.table leaves) (owner : Option Nat)
    (cursor : DiskCursor R) (hleft : cursor.leftActive = false) (hright : cursor.rightActive = false)
    (hcached : cursor.cachedPage = 0) (howner : cursor.owner = owner)
    (htable : cursor.tableId = t.tableId) (hquery : cursor.queryValue = t.queryValue) :
    ∀ (height steps pageId first last : Nat), height < steps →
      index.SearchTree t.table leaves height pageId first last →
      (first = 0 ∨ (t.table.entryAt first).value.orderKey < t.queryValue.orderKey) →
      (last = points ∨ t.queryValue.orderKey ≤ (t.table.entryAt last).value.orderKey) →
      ∃ cursor', index.descend t.queryValue cursor steps pageId = .ok cursor' ∧
        index.On owner t leaves cursor' ∧ (index.view points leaves cursor').left = t.split ∧
        (index.view points leaves cursor').right = t.split ∧
        cursor'.leftBlocked = cursor.leftBlocked ∧ cursor'.rightBlocked = cursor.rightBlocked ∧
        cursor'.lastBound = cursor.lastBound := by
  intro height
  induction height with
  | zero =>
      intro steps pageId first last hsteps htree hfirst hlast
      obtain ⟨steps, rfl⟩ : ∃ n, steps = n + 1 := ⟨steps - 1, by omega⟩
      obtain ⟨i, hi, rfl, rfl, rfl⟩ := htree
      have hmem := List.getElem_mem hi
      have hsplit := h.split_eq t.query_finite hi hfirst hlast
      generalize hlo : leading (fun j => (t.table.entryAt
        (blockStart (index.leafSizes leaves) i + j)).value.lt t.queryValue)
        (index.pageHeaders leaves[i]).count = lo at hsplit
      have hle : lo ≤ (index.pageHeaders leaves[i]).count := hlo ▸ leading_le _ _
      have hbisect : bisectM (fun middle => do
          let entry ← readDiskEntry (index.page leaves[i]) (index.pageHeaders leaves[i]) middle
          .ok (entry.value.lt t.queryValue)) 0 (index.pageHeaders leaves[i]).count = .ok lo := by
        have hclosed : PrefixClosed (fun j => (t.table.entryAt
            (blockStart (index.leafSizes leaves) i + j)).value.lt t.queryValue)
            (index.pageHeaders leaves[i]).count := by
          intro a b hab hb hin
          have hend := h.next_start_le hi
          exact t.table.below_closed t.query_finite _ _ (Nat.add_le_add_left hab _) (by omega) hin
        rw [bisectM_eq (q := fun j => (t.table.entryAt
          (blockStart (index.leafSizes leaves) i + j)).value.lt t.queryValue),
          bisect_eq_leading hclosed 0 _ (Nat.zero_le _) (leading_le _ _) le_rfl, hlo]
        intro j _ hj
        rw [h.readDiskEntry_eq hi hj]
        rfl
      obtain ⟨c₁, hc₁, hframe₁, hleft₁, hleft₁'⟩ := h.placeLeft_spec hi hle cursor hleft
      have hright₁ : c₁.rightActive = false := by rw [hframe₁]; exact hright
      obtain ⟨c₂, hc₂, hframe₂, hright₂, hright₂'⟩ := h.placeRight_spec hi hle c₁ hright₁
      refine ⟨c₂, ?_, ⟨?_, ?_, ?_, ?_, ?_, ?_⟩, ?_, ?_, ?_, ?_, ?_⟩
      · simp only [descend, h.laid.loadPage_eq (h.inRange _ hmem).1 (h.inRange _ hmem).2,
          except_ok_bind, h.kind _ hmem, if_true, require_of (show (index.pageHeaders leaves[i]).count > 0
          from h.count_pos _ hmem), hbisect, hc₁, hc₂, except_pure]
      · rw [hframe₂, hframe₁]
        exact howner
      · rw [hframe₂, hframe₁]
        exact htable
      · rw [hframe₂, hframe₁]
        exact hquery
      · intro hactive
        have hactive₁ : c₁.leftActive = true := by rw [hframe₂] at hactive; exact hactive
        obtain ⟨k, hk, hpage, hindex, hpos⟩ := hleft₁ hactive₁
        refine ⟨k, hk, by rw [hframe₂]; exact hpage, by rw [hframe₂]; exact hindex, ?_⟩
        rw [hframe₂]
        show _ + c₁.leftIndex < t.split
        rw [QueryTable.split, hsplit]
        omega
      · intro hactive
        obtain ⟨k, hk, hpage, hindex, hpos⟩ := hright₂ hactive
        exact ⟨k, hk, hpage, hindex, by rw [QueryTable.split, hsplit, hpos]⟩
      · intro hne
        rw [hframe₂, hframe₁] at hne
        exact absurd hcached hne
      · rw [QueryTable.split, hsplit]
        have hpages : c₂.leftPage = c₁.leftPage ∧ c₂.leftIndex = c₁.leftIndex ∧
            c₂.leftActive = c₁.leftActive := by
          rw [hframe₂]
          exact ⟨rfl, rfl, rfl⟩
        cases hactive : c₁.leftActive with
        | true =>
            obtain ⟨k, hk, hpage, hindex, hpos⟩ := hleft₁ hactive
            rw [h.view_left (hpages.2.2.trans hactive) hk (hpages.1.trans hpage), hpages.2.1, hpos]
        | false =>
            rw [hleft₁' hactive]
            simp [view, hpages.2.2, hactive]
      · rw [QueryTable.split, hsplit]
        cases hactive : c₂.rightActive with
        | true =>
            obtain ⟨k, hk, hpage, hindex, hpos⟩ := hright₂ hactive
            rw [h.view_right hactive hk hpage, hpos]
        | false =>
            rw [hright₂' hactive]
            simp [view, hactive]
      · rw [hframe₂, hframe₁]
      · rw [hframe₂, hframe₁]
      · rw [hframe₂, hframe₁]
  | succ height ih =>
      intro steps pageId first last hsteps htree hfirst hlast
      obtain ⟨steps, rfl⟩ : ∃ n, steps = n + 1 := ⟨steps - 1, by omega⟩
      obtain ⟨hpos, hlt, hkind, hcount, hsize, bounds, hb0, hbn, hchildren, hseparators⟩ := htree
      have hlen := h.laid.length_page hlt
      have hpageSize := h.laid.pageSize
      obtain ⟨c, hselect, -, hc, hbelow, hstop⟩ := selectChild_eq t.queryValue
        (fun c hc => readSeparator_of hkind hc (by rw [hlen]; exact hsize)
          (by rw [hlen]; exact hpageSize)) (index.pageHeaders pageId).count 0 (by omega) (by omega)
      obtain ⟨hchildPos, hchildLt, -, hchild⟩ := hchildren c hc
      have hread : readChild (index.page pageId) (index.pageHeaders pageId) c = _ :=
        readChild_of hkind hc (by rw [hlen]; omega) (by rw [hlen]; exact hpageSize)
      have hnotLeaf : ¬ (index.pageHeaders pageId).kind = leafPage := by
        rw [hkind]
        decide
      have hkey : ∀ i, i + 1 < (index.pageHeaders pageId).count →
          ((readFloat (index.page pageId) (separatorsOffset (index.pageHeaders pageId) + i * 4)).lt
            t.queryValue = true ↔
            (t.table.entryAt (bounds (i + 1))).value.orderKey < t.queryValue.orderKey) := by
        intro i hi
        obtain ⟨-, hfin, hkey⟩ := hseparators i hi
        rw [Binary32.lt_iff_of_isFinite hfin t.query_finite, hkey]
      obtain ⟨cursor', hdescend, hrest⟩ := ih steps _ _ _ (by omega) hchild
        (by
          rcases Nat.eq_zero_or_pos c with rfl | hc0
          · rw [hb0]
            exact hfirst
          · right
            have := (hkey (c - 1) (by omega)).mp (hbelow (c - 1) (Nat.zero_le _) (by omega))
            rwa [Nat.sub_add_cancel hc0] at this)
        (by
          rcases Nat.eq_or_lt_of_le hc with heq | hmore
          · rw [← Nat.succ_eq_add_one, heq, hbn]
            exact hlast
          · right
            have hno := hstop hmore
            rw [← Bool.not_eq_true, hkey c hmore] at hno
            omega)
      refine ⟨cursor', ?_, hrest⟩
      simp only [descend, h.laid.loadPage_eq hpos hlt, except_ok_bind, if_neg hnotLeaf,
        require_of (And.intro hkind hcount), hselect, hread,
        require_of (And.intro hchildPos hchildLt), hdescend]

end BPlusTreeIndex

end Qalsh
