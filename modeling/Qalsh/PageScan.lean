/-
  PageScan.lean --- the page scanner moves outward over a chain of leaves.

  A scan keeps the page it loaded last; the page cached in the cursor is only ever
  a page of the file, so loading it again gives the same bytes.  The two loops then
  traverse the table of the chain, leaf by leaf in range scope.
-/
import Qalsh.LeafChain

set_option autoImplicit false

namespace Qalsh

open Foundation

namespace BPlusTreeIndex

variable {R : Type} {points : Nat} {index : BPlusTreeIndex} {tableId : Nat}
  {table : SortedTable points} {leaves : List Nat} {owner : Option Nat} {t : QueryTable points}

/-! ## Loading pages in a scan -/

/-- A local position of a scan. -/
structure PositionOn (index : BPlusTreeIndex) (owner : Option Nat) (t : QueryTable points)
    (leaves : List Nat) (position : Position R) : Prop where
  cursor : index.On owner t leaves position.cursor
  loaded : position.loaded = true → position.pageView = index.offsetOf position.loadedPage

/-- The page the left side stands on is the loaded one. -/
structure LeftOn (index : BPlusTreeIndex) (owner : Option Nat) (t : QueryTable points)
    (leaves : List Nat) (position : Position R) : Prop where
  on : index.PositionOn owner t leaves position
  page : position.cursor.leftActive = true →
    position.loaded = true ∧ position.loadedPage = position.cursor.leftPage

/-- The page the right side stands on is the loaded one. -/
structure RightOn (index : BPlusTreeIndex) (owner : Option Nat) (t : QueryTable points)
    (leaves : List Nat) (position : Position R) : Prop where
  on : index.PositionOn owner t leaves position
  page : position.cursor.rightActive = true →
    position.loaded = true ∧ position.loadedPage = position.cursor.rightPage

theorem On.withCache {cursor : DiskCursor R} (h : index.On owner t leaves cursor)
    {pageId : Nat} {data : Option Nat} (hdata : pageId ≠ 0 → pageId < index.pageCount ∧
      data = some (index.offsetOf pageId)) :
    index.On owner t leaves { cursor with cachedPage := pageId, cachedPageData := data } :=
  ⟨h.owner_eq, h.table, h.query, h.left, h.right, hdata⟩

/-- Loading a page changes what is loaded and cached, nothing else. -/
theorem scanLoadPage_spec (hlaid : index.Laid) (position : Position R)
    (hloaded : position.loaded = true → position.pageView = index.offsetOf position.loadedPage)
    (hcached : position.cursor.cachedPage ≠ 0 → position.cursor.cachedPage < index.pageCount ∧
      position.cursor.cachedPageData = some (index.offsetOf position.cursor.cachedPage))
    {pageId : Nat} (hpos : 0 < pageId) (hlt : pageId < index.pageCount) :
    ∃ cached data, index.scanLoadPage pageId position = .ok
        { cursor := { position.cursor with cachedPage := cached, cachedPageData := data }
          pageView := index.offsetOf pageId, loadedPage := pageId, loaded := true } ∧
      (cached ≠ 0 → cached < index.pageCount ∧ data = some (index.offsetOf cached)) := by
  unfold scanLoadPage
  rw [require_of (And.intro hpos hlt), except_ok_bind]
  by_cases hsame : position.loaded = true ∧ position.loadedPage = pageId
  · rw [if_pos hsame]
    refine ⟨position.cursor.cachedPage, position.cursor.cachedPageData, ?_, hcached⟩
    have hview := hloaded hsame.1
    obtain ⟨cursor, pageView, loadedPage, loaded⟩ := position
    obtain ⟨rfl, rfl⟩ := hsame
    simp only at hview
    subst hview
    rfl
  · rw [if_neg hsame]
    by_cases hcache : position.cursor.cachedPage = pageId
    · obtain ⟨-, hdata⟩ := hcached (by omega)
      refine ⟨position.cursor.cachedPage, position.cursor.cachedPageData, ?_, hcached⟩
      have hview : position.cursor.cachedPageData.getD 0 = index.offsetOf pageId := by
        rw [hdata, hcache]
        rfl
      rw [if_pos hcache, hview]
      rfl
    · simp only [if_neg hcache, hlaid.pageOffset_eq hpos hlt, except_ok_bind]
      exact ⟨pageId, some (index.offsetOf pageId), rfl, fun _ => ⟨hlt, rfl⟩⟩

/-- The view of a cursor whose left side stands on an entry. -/
theorem StoresIn.left_pos (h : index.StoresIn t.tableId t.table leaves) {cursor : DiskCursor R}
    (hon : index.On owner t leaves cursor) (hactive : cursor.leftActive = true) :
    ∃ i, ∃ hi : i < leaves.length, cursor.leftPage = leaves[i] ∧
      cursor.leftIndex < (index.pageHeaders leaves[i]).count ∧
      blockStart (index.leafSizes leaves) i + cursor.leftIndex < t.split ∧
      (index.view points leaves cursor).left =
        blockStart (index.leafSizes leaves) i + cursor.leftIndex + 1 := by
  obtain ⟨i, hi, hpage, hindex, hlt⟩ := hon.left hactive
  exact ⟨i, hi, hpage, hindex, hlt, h.view_left hactive hi hpage⟩

theorem StoresIn.right_pos (h : index.StoresIn t.tableId t.table leaves) {cursor : DiskCursor R}
    (hon : index.On owner t leaves cursor) (hactive : cursor.rightActive = true) :
    ∃ i, ∃ hi : i < leaves.length, cursor.rightPage = leaves[i] ∧
      cursor.rightIndex < (index.pageHeaders leaves[i]).count ∧
      t.split ≤ blockStart (index.leafSizes leaves) i + cursor.rightIndex ∧
      blockStart (index.leafSizes leaves) i + cursor.rightIndex < points ∧
      (index.view points leaves cursor).right =
        blockStart (index.leafSizes leaves) i + cursor.rightIndex := by
  obtain ⟨i, hi, hpage, hindex, hle⟩ := hon.right hactive
  have hend := h.next_start_le hi
  exact ⟨i, hi, hpage, hindex, hle, by omega, h.view_right hactive hi hpage⟩

theorem StoresIn.view_bounds (h : index.StoresIn t.tableId t.table leaves) {cursor : DiskCursor R}
    (hon : index.On owner t leaves cursor) :
    (index.view points leaves cursor).left ≤ t.split ∧
      t.split ≤ (index.view points leaves cursor).right ∧
      (index.view points leaves cursor).right ≤ points ∧
      cursor.leftActive = decide (0 < (index.view points leaves cursor).left) ∧
      cursor.rightActive = decide ((index.view points leaves cursor).right < points) := by
  have hsplit := t.split_le
  have hl : (index.view points leaves cursor).left ≤ t.split ∧
      cursor.leftActive = decide (0 < (index.view points leaves cursor).left) := by
    cases hactive : cursor.leftActive with
    | true =>
        obtain ⟨i, hi, hpage, hindex, hlt, hview⟩ := h.left_pos hon hactive
        rw [hview]
        exact ⟨hlt, by simp⟩
    | false => simp [view, hactive]
  have hr : t.split ≤ (index.view points leaves cursor).right ∧
      (index.view points leaves cursor).right ≤ points ∧
      cursor.rightActive = decide ((index.view points leaves cursor).right < points) := by
    cases hactive : cursor.rightActive with
    | true =>
        obtain ⟨i, hi, hpage, hindex, hle, hlt, hview⟩ := h.right_pos hon hactive
        rw [hview]
        exact ⟨hle, hlt.le, by simpa using hlt⟩
    | false => simp [view, hactive, hsplit]
  exact ⟨hl.1, hr.1, hr.2.1, hl.2, hr.2.2⟩

/-! ## The loops of a scan -/

/-- The extent of a range scan: the rest of a leaf. -/
def extent (index : BPlusTreeIndex) (leaves : List Nat)
    (h : (index.leafSizes leaves).sum = points) : Extent points :=
  Extent.ofBlocks (index.leafSizes leaves) h

theorem StoresIn.extent_left (h : index.StoresIn tableId table leaves) {i j : Nat}
    (hi : i < leaves.length) (hj : j < (index.pageHeaders leaves[i]).count) :
    (index.extent leaves h.total).left (blockStart (index.leafSizes leaves) i + j + 1) = j + 1 := by
  have hi' : i < (index.leafSizes leaves).length := by rwa [length_leafSizes]
  exact Extent.ofBlocks_left h.total hi' (by rwa [getElem_leafSizes hi hi'])

theorem StoresIn.extent_right (h : index.StoresIn tableId table leaves) {i j : Nat}
    (hi : i < leaves.length) (hj : j < (index.pageHeaders leaves[i]).count) :
    (index.extent leaves h.total).right (blockStart (index.leafSizes leaves) i + j) =
      (index.pageHeaders leaves[i]).count - j := by
  have hi' : i < (index.leafSizes leaves).length := by rwa [length_leafSizes]
  rw [extent, Extent.ofBlocks_right h.total hi' (by rwa [getElem_leafSizes hi hi']),
    getElem_leafSizes hi hi']

section Loops

variable {scope : ScanScope} {breaks : Bool}

theorem StoresIn.leftLoop_runsOn (h : index.StoresIn t.tableId t.table leaves)
    (hscope : breaks = decide (scope = .range)) (f : Outward R) :
    (index.leftLoop (R := R) scope).RunsOn (t.leftSide (index.extent leaves h.total) breaks)
      (fun p => index.LeftOn owner t leaves p ∧
        leftFrame (index.view points leaves p.cursor) = f)
      (fun p => t.split - (index.view points leaves p.cursor).left) := by
  have hsplit := t.split_le
  -- where an active left side stands, and what is loaded there
  have hactive : ∀ p : Position R, index.LeftOn owner t leaves p →
      t.split - (index.view points leaves p.cursor).left < t.split →
      ∃ i, ∃ hi : i < leaves.length, p.cursor.leftActive = true ∧
        p.cursor.leftPage = leaves[i] ∧ p.loadedPage = leaves[i] ∧
        p.pageView = index.offsetOf leaves[i] ∧
        p.cursor.leftIndex < (index.pageHeaders leaves[i]).count ∧
        blockStart (index.leafSizes leaves) i + p.cursor.leftIndex < t.split ∧
        (index.view points leaves p.cursor).left =
          blockStart (index.leafSizes leaves) i + p.cursor.leftIndex + 1 ∧
        (index.extent leaves h.total).left (t.split -
          (t.split - (index.view points leaves p.cursor).left)) = p.cursor.leftIndex + 1 := by
    intro p hp hlt
    have hbounds := h.view_bounds hp.on.cursor
    have hon : p.cursor.leftActive = true := by
      rw [hbounds.2.2.2.1, decide_eq_true_eq]
      omega
    obtain ⟨i, hi, hpage, hindex, hbelow, hview⟩ := h.left_pos hp.on.cursor hon
    obtain ⟨hloaded, hsame⟩ := hp.page hon
    refine ⟨i, hi, hon, hpage, hsame.trans hpage, ?_, hindex, hbelow, hview, ?_⟩
    · rw [hp.on.loaded hloaded, hsame, hpage]
    · rw [hview, show t.split - (t.split - (blockStart (index.leafSizes leaves) i +
        p.cursor.leftIndex + 1)) = blockStart (index.leafSizes leaves) i + p.cursor.leftIndex + 1
        by omega]
      exact h.extent_left hi hindex
  refine ⟨fun p _ => Nat.sub_le _ _, ?_, ?_, ?_, ?_, ?_⟩
  · rintro p ⟨hp, -⟩
    have hbounds := h.view_bounds hp.on.cursor
    show p.cursor.leftActive = true ↔ t.split - (index.view points leaves p.cursor).left < t.split
    rw [hbounds.2.2.2.1, decide_eq_true_eq]
    omega
  · rintro p remaining ⟨hp, -⟩ hlt
    obtain ⟨i, hi, -, -, -, -, -, -, -, hext⟩ := hactive p hp hlt
    show min remaining (p.cursor.leftIndex + 1) = min remaining ((index.extent leaves h.total).left _)
    rw [hext]
  · rintro p available ⟨hp, -⟩ hlt hav
    obtain ⟨i, hi, -, -, -, hpageView, hindex, hbelow, hview, hext⟩ := hactive p hp hlt
    change available ≤ (index.extent leaves h.total).left _ at hav
    rw [hext] at hav
    refine ⟨rfl, hp.on.cursor.table, hp.on.cursor.query, fun _ => hav, fun j hj => ?_⟩
    show index.pageEntry p.pageView (p.cursor.leftIndex - j) = t.table.entryAt
      (t.split - 1 - (t.split - (index.view points leaves p.cursor).left + j))
    rw [hpageView, hview]
    refine (h.entries i hi (p.cursor.leftIndex - j) (by omega)).trans (congrArg t.table.entryAt ?_)
    omega
  · rintro p b ⟨hp, hf⟩
    have hc := hp.on.cursor
    exact ⟨⟨⟨⟨⟨hc.owner_eq, hc.table, hc.query, hc.left, hc.right, hc.cached⟩, hp.on.loaded⟩,
      hp.page⟩, hf⟩, rfl, rfl⟩
  · rintro p count available remaining ⟨hp, hf⟩ hlt hav hcount
    obtain ⟨i, hi, hon, hpage, hsame, hpageView, hindex, hbelow, hview, hext⟩ := hactive p hp hlt
    have hc := hp.on.cursor
    change available = min remaining ((index.extent leaves h.total).left _) at hav
    show ∃ p' stop, _ ∧ _ ∧ _ ∧ _ ∧ (stop = true → _ ∧ count = (index.extent leaves h.total).left _) ∧
      (_ → count = (index.extent leaves h.total).left _ → _ → _)
    rw [hext] at hav ⊢
    simp only [leftLoop]
    by_cases hstay : count ≤ p.cursor.leftIndex
    · rw [if_pos hstay]
      refine ⟨_, _, rfl, ⟨⟨⟨⟨hc.owner_eq, hc.table, hc.query, fun _ => ⟨i, hi, hpage, ?_, ?_⟩,
        hc.right, hc.cached⟩, hp.on.loaded⟩, hp.page⟩, hf⟩, ?_, rfl,
          fun hfalse => absurd hfalse Bool.false_ne_true, ?_⟩
      · show p.cursor.leftIndex - count < _
        omega
      · show _ + (p.cursor.leftIndex - count) < _
        omega
      · show t.split - (if p.cursor.leftActive = true then
          blockStart (index.leafSizes leaves) (leaves.idxOf p.cursor.leftPage) +
            (p.cursor.leftIndex - count) + 1 else 0) = _
        rw [if_pos hon, hpage, h.nodup.idxOf_getElem _ hi, hview]
        omega
      · intro _ hfull
        omega
    · rw [if_neg hstay]
      by_cases hprev : (index.pageHeaders p.loadedPage).previous ≠ 0
      · rw [if_pos hprev]
        rw [hsame] at hprev
        obtain ⟨hlt', hi0, hpage'⟩ := (h.previous_ne_zero hi).mp hprev
        have hmem := List.getElem_mem hlt'
        have hcountPos := h.count_pos _ hmem
        have hstart : blockStart (index.leafSizes leaves) i = blockStart (index.leafSizes leaves)
            (i - 1) + (index.pageHeaders leaves[i - 1]).count := by
          have := leafStart_succ index hlt'
          rwa [Nat.sub_add_cancel hi0] at this
        rw [← hsame] at hpage'
        rw [hpage']
        obtain ⟨cached, data, hload, hcached⟩ := scanLoadPage_spec h.laid { p with
          cursor := { p.cursor with leftPage := leaves[i - 1],
                                    leftLeafRank := index.leafRanks leaves[i - 1] } }
          hp.on.loaded hc.cached (h.inRange _ hmem).1 (h.inRange _ hmem).2
        simp only [hload, except_ok_bind, require_of (And.intro (h.kind _ hmem) hcountPos)]
        refine ⟨_, _, rfl, ⟨⟨⟨⟨hc.owner_eq, hc.table, hc.query,
          fun _ => ⟨i - 1, hlt', rfl, ?_, ?_⟩, hc.right, hcached⟩, fun _ => rfl⟩,
          fun _ => ⟨rfl, rfl⟩⟩, hf⟩, ?_, rfl, ?_, fun hb _ _ => ?_⟩
        · show (index.pageHeaders leaves[i - 1]).count - 1 < _
          omega
        · show _ + ((index.pageHeaders leaves[i - 1]).count - 1) < _
          omega
        · show t.split - (if p.cursor.leftActive = true then
            blockStart (index.leafSizes leaves) (leaves.idxOf leaves[i - 1]) +
              ((index.pageHeaders leaves[i - 1]).count - 1) + 1 else 0) = _
          rw [if_pos hon, h.nodup.idxOf_getElem _ hlt', hview]
          omega
        · intro hstop
          exact ⟨hscope.trans hstop, by omega⟩
        · exact hscope.symm.trans hb
      · rw [if_neg hprev]
        rw [hsame] at hprev
        have h0 : i = 0 := by
          by_contra hne
          exact hprev ((h.previous_ne_zero hi).mpr ⟨by omega, by omega, by
            rw [h.previous i hi, if_neg hne, List.getD_eq_getElem _ _ (by omega)]⟩)
        subst h0
        rw [blockStart_zero] at hview
        refine ⟨_, _, rfl, ⟨⟨⟨⟨hc.owner_eq, hc.table, hc.query,
          fun hfalse => absurd hfalse Bool.false_ne_true, hc.right, hc.cached⟩, hp.on.loaded⟩,
          fun hfalse => absurd hfalse Bool.false_ne_true⟩, hf⟩, ?_, rfl,
          fun hfalse => absurd hfalse Bool.false_ne_true, fun _ _ hrest => ?_⟩
        · rw [hview]
          show t.split - 0 = _
          omega
        · rw [hview] at hrest
          change _ < t.split at hrest
          omega

theorem StoresIn.rightLoop_runsOn (h : index.StoresIn t.tableId t.table leaves)
    (hscope : breaks = decide (scope = .range)) (f : Outward R) :
    (index.rightLoop (R := R) scope).RunsOn (t.rightSide (index.extent leaves h.total) breaks)
      (fun p => index.RightOn owner t leaves p ∧
        rightFrame (index.view points leaves p.cursor) = f)
      (fun p => (index.view points leaves p.cursor).right - t.split) := by
  have hsplit := t.split_le
  have hactive : ∀ p : Position R, index.RightOn owner t leaves p →
      (index.view points leaves p.cursor).right - t.split < points - t.split →
      ∃ i, ∃ hi : i < leaves.length, p.cursor.rightActive = true ∧
        p.cursor.rightPage = leaves[i] ∧ p.loadedPage = leaves[i] ∧
        p.pageView = index.offsetOf leaves[i] ∧
        p.cursor.rightIndex < (index.pageHeaders leaves[i]).count ∧
        t.split ≤ blockStart (index.leafSizes leaves) i + p.cursor.rightIndex ∧
        (index.view points leaves p.cursor).right =
          blockStart (index.leafSizes leaves) i + p.cursor.rightIndex ∧
        (index.extent leaves h.total).right (t.split +
          ((index.view points leaves p.cursor).right - t.split)) =
            (index.pageHeaders leaves[i]).count - p.cursor.rightIndex := by
    intro p hp hlt
    have hbounds := h.view_bounds hp.on.cursor
    have hon : p.cursor.rightActive = true := by
      rw [hbounds.2.2.2.2, decide_eq_true_eq]
      omega
    obtain ⟨i, hi, hpage, hindex, habove, hend, hview⟩ := h.right_pos hp.on.cursor hon
    obtain ⟨hloaded, hsame⟩ := hp.page hon
    refine ⟨i, hi, hon, hpage, hsame.trans hpage, ?_, hindex, habove, hview, ?_⟩
    · rw [hp.on.loaded hloaded, hsame, hpage]
    · rw [hview, Nat.add_sub_cancel' habove]
      exact h.extent_right hi hindex
  refine ⟨?_, ?_, ?_, ?_, ?_, ?_⟩
  · rintro p ⟨hp, -⟩
    have hbounds := h.view_bounds hp.on.cursor
    show (index.view points leaves p.cursor).right - t.split ≤ points - t.split
    omega
  · rintro p ⟨hp, -⟩
    have hbounds := h.view_bounds hp.on.cursor
    show p.cursor.rightActive = true ↔
      (index.view points leaves p.cursor).right - t.split < points - t.split
    rw [hbounds.2.2.2.2, decide_eq_true_eq]
    omega
  · rintro p remaining ⟨hp, -⟩ hlt
    obtain ⟨i, hi, -, -, hsame, -, -, -, -, hext⟩ := hactive p hp hlt
    show min remaining ((index.pageHeaders p.loadedPage).count - p.cursor.rightIndex) =
      min remaining ((index.extent leaves h.total).right _)
    rw [hext, hsame]
  · rintro p available ⟨hp, -⟩ hlt hav
    obtain ⟨i, hi, -, -, -, hpageView, hindex, habove, hview, hext⟩ := hactive p hp hlt
    change available ≤ (index.extent leaves h.total).right _ at hav
    rw [hext] at hav
    refine ⟨rfl, hp.on.cursor.table, hp.on.cursor.query,
      fun hfalse => absurd hfalse Bool.false_ne_true, fun j hj => ?_⟩
    show index.pageEntry p.pageView (p.cursor.rightIndex + j) = t.table.entryAt
      (t.split + ((index.view points leaves p.cursor).right - t.split + j))
    rw [hpageView, hview]
    refine (h.entries i hi (p.cursor.rightIndex + j) (by omega)).trans (congrArg t.table.entryAt ?_)
    omega
  · rintro p b ⟨hp, hf⟩
    have hc := hp.on.cursor
    exact ⟨⟨⟨⟨⟨hc.owner_eq, hc.table, hc.query, hc.left, hc.right, hc.cached⟩, hp.on.loaded⟩,
      hp.page⟩, hf⟩, rfl, rfl⟩
  · rintro p count available remaining ⟨hp, hf⟩ hlt hav hcount
    obtain ⟨i, hi, hon, hpage, hsame, hpageView, hindex, habove, hview, hext⟩ := hactive p hp hlt
    have hc := hp.on.cursor
    have hnextStart := leafStart_succ index hi
    change available = min remaining ((index.extent leaves h.total).right _) at hav
    show ∃ p' stop, _ ∧ _ ∧ _ ∧ _ ∧ (stop = true → _ ∧ count = (index.extent leaves h.total).right _) ∧
      (_ → count = (index.extent leaves h.total).right _ → _ → _)
    rw [hext] at hav ⊢
    simp only [rightLoop]
    by_cases hstay : count < (index.pageHeaders p.loadedPage).count - p.cursor.rightIndex
    · rw [if_pos hstay]
      rw [hsame] at hstay
      refine ⟨_, _, rfl, ⟨⟨⟨⟨hc.owner_eq, hc.table, hc.query, hc.left,
        fun _ => ⟨i, hi, hpage, ?_, ?_⟩, hc.cached⟩, hp.on.loaded⟩, hp.page⟩, hf⟩, ?_, rfl,
          fun hfalse => absurd hfalse Bool.false_ne_true, ?_⟩
      · show p.cursor.rightIndex + count < _
        omega
      · show _ ≤ _ + (p.cursor.rightIndex + count)
        omega
      · show (if p.cursor.rightActive = true then
          blockStart (index.leafSizes leaves) (leaves.idxOf p.cursor.rightPage) +
            (p.cursor.rightIndex + count) else points) - t.split = _
        rw [if_pos hon, hpage, h.nodup.idxOf_getElem _ hi, hview]
        omega
      · intro _ hfull
        omega
    · rw [if_neg hstay]
      rw [hsame] at hstay
      by_cases hnext : (index.pageHeaders p.loadedPage).next ≠ 0
      · rw [if_pos hnext]
        rw [hsame] at hnext
        obtain ⟨hlt', hpage'⟩ := (h.next_ne_zero hi).mp hnext
        have hmem := List.getElem_mem hlt'
        have hcountPos := h.count_pos _ hmem
        rw [← hsame] at hpage'
        rw [hpage']
        obtain ⟨cached, data, hload, hcached⟩ := scanLoadPage_spec h.laid { p with
          cursor := { p.cursor with rightPage := leaves[i + 1],
                                    rightLeafRank := index.leafRanks leaves[i + 1],
                                    rightIndex := 0 } }
          hp.on.loaded hc.cached (h.inRange _ hmem).1 (h.inRange _ hmem).2
        simp only [hload, except_ok_bind, require_of (And.intro (h.kind _ hmem) hcountPos)]
        refine ⟨_, _, rfl, ⟨⟨⟨⟨hc.owner_eq, hc.table, hc.query, hc.left,
          fun _ => ⟨i + 1, hlt', rfl, hcountPos, ?_⟩, hcached⟩, fun _ => rfl⟩,
          fun _ => ⟨rfl, rfl⟩⟩, hf⟩, ?_, rfl, ?_, fun hb _ _ => ?_⟩
        · show _ ≤ _ + 0
          omega
        · show (if p.cursor.rightActive = true then
            blockStart (index.leafSizes leaves) (leaves.idxOf leaves[i + 1]) + 0 else points) -
              t.split = _
          rw [if_pos hon, h.nodup.idxOf_getElem _ hlt', hview]
          omega
        · intro hstop
          exact ⟨hscope.trans hstop, by omega⟩
        · exact hscope.symm.trans hb
      · rw [if_neg hnext]
        rw [hsame] at hnext
        have hend : i + 1 = leaves.length := by
          by_contra hne
          have hlt' : i + 1 < leaves.length := by omega
          exact hnext ((h.next_ne_zero hi).mpr ⟨hlt', by
            rw [h.next i hi, List.getD_eq_getElem _ _ hlt']⟩)
        have htotal := h.total
        rw [← blockStart_length, length_leafSizes, ← hend] at htotal
        refine ⟨_, _, rfl, ⟨⟨⟨⟨hc.owner_eq, hc.table, hc.query, hc.left,
          fun hfalse => absurd hfalse Bool.false_ne_true, hc.cached⟩, hp.on.loaded⟩,
          fun hfalse => absurd hfalse Bool.false_ne_true⟩, hf⟩, ?_, rfl,
          fun hfalse => absurd hfalse Bool.false_ne_true, fun _ _ hrest => ?_⟩
        · rw [hview]
          show points - t.split = _
          omega
        · rw [hview] at hrest
          change _ < points - t.split at hrest
          omega

theorem StoresIn.scanner_traverses (h : index.StoresIn t.tableId t.table leaves)
    (owner : Option Nat)
    (hscope : breaks = decide (scope = .range)) :
    (index.scanner (R := R) scope).Traverses t (index.extent leaves h.total) breaks
      (index.PositionOn owner t leaves) (index.LeftOn owner t leaves) (index.RightOn owner t leaves)
      (fun p => index.view points leaves p.cursor) where
  bounds p hp := by
    obtain ⟨h₁, h₂, h₃, -, -⟩ := h.view_bounds hp.cursor
    exact ⟨h₁, h₂, h₃⟩
  good_left _ hp := hp.on
  good_right _ hp := hp.on
  leftActive p hp := (h.view_bounds hp.cursor).2.2.2.1
  rightActive p hp := (h.view_bounds hp.cursor).2.2.2.2
  leftBlocked _ _ := rfl
  rightBlocked _ _ := rfl
  enterLeft p hp hlt := by
    have hon : p.cursor.leftActive = true := by
      rw [(h.view_bounds hp.cursor).2.2.2.1, decide_eq_true_eq]
      exact hlt
    obtain ⟨i, hi, hpage, hindex, -, -⟩ := h.left_pos hp.cursor hon
    have hmem := List.getElem_mem hi
    rw [← hpage] at hmem hindex
    obtain ⟨cached, data, hload, hcached⟩ := scanLoadPage_spec h.laid p hp.loaded hp.cursor.cached
      (h.inRange _ hmem).1 (h.inRange _ hmem).2
    have henter : index.enterLeft p = .ok
        { cursor := { p.cursor with cachedPage := cached, cachedPageData := data }
          pageView := index.offsetOf p.cursor.leftPage
          loadedPage := p.cursor.leftPage
          loaded := true } := by
      simp only [enterLeft, hload, except_ok_bind, require_of (And.intro (h.kind _ hmem) hindex)]
      rfl
    exact ⟨_, henter, ⟨⟨hp.cursor.withCache hcached, fun _ => rfl⟩, fun _ => ⟨rfl, rfl⟩⟩, rfl⟩
  enterRight p hp hlt := by
    have hon : p.cursor.rightActive = true := by
      rw [(h.view_bounds hp.cursor).2.2.2.2, decide_eq_true_eq]
      exact hlt
    obtain ⟨i, hi, hpage, hindex, -, -⟩ := h.right_pos hp.cursor hon
    have hmem := List.getElem_mem hi
    rw [← hpage] at hmem hindex
    obtain ⟨cached, data, hload, hcached⟩ := scanLoadPage_spec h.laid p hp.loaded hp.cursor.cached
      (h.inRange _ hmem).1 (h.inRange _ hmem).2
    have henter : index.enterRight p = .ok
        { cursor := { p.cursor with cachedPage := cached, cachedPageData := data }
          pageView := index.offsetOf p.cursor.rightPage
          loadedPage := p.cursor.rightPage
          loaded := true } := by
      simp only [enterRight, hload, except_ok_bind, require_of (And.intro (h.kind _ hmem) hindex)]
      rfl
    exact ⟨_, henter, ⟨⟨hp.cursor.withCache hcached, fun _ => rfl⟩, fun _ => ⟨rfl, rfl⟩⟩, rfl⟩
  left := h.leftLoop_runsOn hscope
  right := h.rightLoop_runsOn hscope

end Loops

/-! ## Cursors -/

section Cursors

variable [RadiusArithmetic R] {σ β : Type}

/-- A cursor of `owner` on `t` whose abstract cursor is `o`. -/
abbrev Holds (index : BPlusTreeIndex) (owner : Option Nat) (t : QueryTable points)
    (leaves : List Nat) (o : Outward (ScanBound R)) (cursor : DiskCursor R) : Prop :=
  Qalsh.Holds (index.On owner t leaves) (index.view points leaves) o cursor

theorem Holds.sides_eq {o : Outward (ScanBound R)} {cursor : DiskCursor R}
    (h : index.Holds owner t leaves o cursor) : cursor.sides = sidesOf o := by
  have hv := h.view_eq
  unfold DiskCursor.sides sidesOf
  congr 1
  · exact congrArg Outward.lastBound hv
  · exact congrArg Outward.leftBlocked hv
  · exact congrArg Outward.rightBlocked hv

theorem Holds.withSides {o o' : Outward (ScanBound R)} {cursor : DiskCursor R}
    (h : index.Holds owner t leaves o cursor) (hleft : o'.left = o.left)
    (hright : o'.right = o.right) :
    index.Holds owner t leaves o' (cursor.withSides (sidesOf o')) := by
  have hv := h.view_eq
  have hc := h.good
  refine ⟨⟨hc.owner_eq, hc.table, hc.query, hc.left, hc.right, hc.cached⟩,
    Outward.ext ?_ ?_ rfl rfl rfl⟩
  · show (index.view points leaves cursor).left = o'.left
    rw [hv, hleft]
    rfl
  · show (index.view points leaves cursor).right = o'.right
    rw [hv, hright]
    rfl

theorem StoresIn.resetCursor_spec {self : Nat} (h : index.StoresIn t.tableId t.table leaves)
    {cursor : Cursor R} (hown : owns self cursor = true) :
    ∃ q : DiskCursor R, index.Holds (some self) t leaves (Outward.start t.split) q ∧
      index.resetCursor self t.tableId t.queryValue cursor = .ok () (.disk q) := by
  obtain ⟨root, height, hroot, hheight, htree⟩ := h.root
  obtain ⟨hlt, -⟩ := List.getElem?_eq_some_iff.mp hroot
  obtain ⟨q, hq, hon, hleft, hright, hlb, hrb, hlast⟩ := h.descend_spec (some self)
    { DiskCursor.blank (R := R) (some self) with
      tableId := t.tableId, queryValue := t.queryValue } rfl rfl rfl rfl rfl rfl
    height index.pageCount root 0 points hheight htree (Or.inl rfl) (Or.inl rfl)
  refine ⟨q, ⟨hon, Outward.ext hleft hright hlb hrb hlast⟩, ?_⟩
  simp only [resetCursor, requireFinite, bind_apply, require_of hlt, require_of t.query_finite,
    liftResult_ok, get_apply, hown, if_true, set_apply, List.getD_eq_getElem?_getD, hroot,
    Option.getD_some, hq]

theorem StoresIn.scanImpl_spec [Platform] (h : index.StoresIn t.tableId t.table leaves)
    {scope : ScanScope} (hvalid : scope.isValid = true) (slot : Lens σ (Cursor R))
    {bound : ScanBound R} (maxEntries : Nat) (visitor : β → HitRange → EStateM Error σ β)
    {cursor : DiskCursor R} {o : Outward (ScanBound R)} (hp : index.Holds owner t leaves o cursor)
    (hbound : o.Admits t.windows bound) {step : OutwardStep (ScanBound R)}
    (hstep : step = (o.raise t.windows.le bound).consume (t.windows.inside bound)
      (callExtent (index.extent leaves h.total) (decide (scope = .range)))
      (decide (scope = .range)) maxEntries) :
    CallSpec t step (o.raise t.windows.le bound) visitor
      (index.scanImpl slot bound.1 maxEntries scope (.disk cursor) visitor) slot
      (fun c => ∃ q, c = .disk q ∧ index.Holds owner t leaves step.cursor q)
      (fun c => ∃ q, c = .disk q ∧ index.On owner t leaves q) := by
  have hsides := hp.sides_eq
  have hraised : index.Holds owner t leaves (o.raise t.windows.le bound)
      (cursor.withSides (sidesOf (o.raise t.windows.le bound))) :=
    Holds.withSides hp (by simp) (by simp)
  generalize hr : cursor.withSides (sidesOf (o.raise t.windows.le bound)) = raised at hraised
  have htable : raised.tableId = t.tableId := hraised.good.table
  have hcall : index.scanImpl slot bound.1 maxEntries scope (.disk cursor) visitor =
      (index.scanner scope).call (parkedCursor raised) (fun position => .disk position.cursor) slot
        bound.1 maxEntries visitor scope t.tableId
        { cursor := raised, pageView := 0, loadedPage := 0, loaded := false } := by
    funext acc s
    simp only [scanImpl, bind_apply, require_of hvalid, liftResult_ok, hsides,
      resetBoundedSides_eq t hbound, hr, htable]
  rw [hcall]
  have hspec := (h.scanner_traverses owner rfl).call_spec hvalid rfl
    (parkedCursor raised) (fun position => .disk position.cursor) slot bound maxEntries visitor
    (p := { cursor := raised, pageView := 0, loadedPage := 0, loaded := false })
    (o := o.raise t.windows.le bound) ⟨⟨hraised.good,
      fun hfalse => absurd hfalse Bool.false_ne_true⟩, hraised.view_eq⟩
  rw [← hstep] at hspec
  refine hspec.mono ?_ ?_
  · rintro c ⟨q, rfl, hgood, hview⟩
    exact ⟨q.cursor, rfl, hgood.cursor, hview⟩
  · rintro c ⟨q, rfl, hgood⟩
    exact ⟨_, rfl, hraised.good.withCache hgood.cursor.cached⟩

end Cursors

end BPlusTreeIndex

end Qalsh
