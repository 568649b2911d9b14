/-
  TreeSpec.lean --- what the checks of single pages establish.

  Each check of the walk is characterised from both sides, so that the same lemma
  says what an accepted page satisfies and that a page written by `Build` is
  accepted.
-/
import Mathlib
import Qalsh.LeafChain
import Qalsh.TreeCheck

set_option autoImplicit false

namespace Qalsh

open Foundation

/-! ## Marks -/

/-- The ids of a leaf are marked one after the other. -/
def LeafMarks.markAll (marks : LeafMarks) (tableId : Nat) (ids : List Nat) : LeafMarks :=
  ids.foldl (fun marks pointId => marks.mark tableId pointId) marks

@[simp] theorem LeafMarks.markAll_nil (marks : LeafMarks) (tableId : Nat) :
    marks.markAll tableId [] = marks := rfl

theorem LeafMarks.markAll_append (marks : LeafMarks) (tableId : Nat) (ids : List Nat) (id : Nat) :
    marks.markAll tableId (ids ++ [id]) = (marks.markAll tableId ids).mark tableId id := by
  simp [markAll]

theorem LeafMarks.markAll_spec (tableId : Nat) (ids : List Nat) : ∀ marks : LeafMarks,
    (∀ id, (marks.markAll tableId ids).pointMarks id =
      if id ∈ ids then tableId + 1 else marks.pointMarks id) ∧
    (marks.markAll tableId ids).leafEntryCounts =
      setAt marks.leafEntryCounts tableId (marks.leafEntryCounts tableId + ids.length) ∧
    (marks.markAll tableId ids).tableFirstLeaf = marks.tableFirstLeaf ∧
    (marks.markAll tableId ids).tableLeafCount = marks.tableLeafCount := by
  induction ids with
  | nil =>
      intro marks
      refine ⟨fun id => by simp, ?_, rfl, rfl⟩
      funext other
      by_cases h : other = tableId
      · simp [h]
      · simp [setAt_other _ _ h]
  | cons id ids ih =>
      intro marks
      obtain ⟨hmarks, hcounts, hfirst, hleaves⟩ := ih (marks.mark tableId id)
      refine ⟨fun other => ?_, ?_, hfirst, hleaves⟩
      · refine (hmarks other).trans ?_
        by_cases hmem : other ∈ ids
        · simp [hmem]
        · by_cases heq : other = id
          · simp [heq, mark]
          · simp [hmem, heq, mark, setAt_other _ _ heq]
      · refine hcounts.trans ?_
        funext other
        by_cases h : other = tableId
        · simp [h, mark]
          omega
        · simp [setAt_other _ _ h, mark]

/-- What `countLeaf` changes. -/
theorem LeafMarks.countLeaf_eq_ok {marks marks' : LeafMarks} {tableId pageId previous : Nat} :
    marks.countLeaf tableId pageId previous = .ok marks' ↔
      (previous = 0 → marks.tableFirstLeaf tableId = 0) ∧ marks' = { marks with
        tableLeafCount := setAt marks.tableLeafCount tableId (marks.tableLeafCount tableId + 1)
        tableFirstLeaf := if previous = 0 then setAt marks.tableFirstLeaf tableId pageId
          else marks.tableFirstLeaf } := by
  unfold countLeaf
  by_cases h : previous = 0
  · simp only [h, if_true, except_unit_bind_eq_ok, require_eq_ok, except_pure, Except.ok.injEq,
      forall_const, eq_comm (b := marks')]
  · simp only [h, if_false, except_pure, Except.ok.injEq, false_imp_iff, true_and,
      eq_comm (b := marks')]

namespace BPlusTreeIndex

/-! ## Pages and their entries -/

/-- What the pass over the page headers establishes of a page. -/
structure PageChecked (index : BPlusTreeIndex) (pageId : Nat) : Prop where
  kind : (index.pageHeaders pageId).kind = leafPage ∨
    (index.pageHeaders pageId).kind = internalPage
  leaf : (index.pageHeaders pageId).kind = leafPage → 0 < (index.pageHeaders pageId).count ∧
    pageHeaderSize + (index.pageHeaders pageId).count * entrySize ≤ index.metadata.pageSize
  internal : (index.pageHeaders pageId).kind = internalPage →
    2 ≤ (index.pageHeaders pageId).count ∧
    pageHeaderSize + (index.pageHeaders pageId).count * 8 +
      ((index.pageHeaders pageId).count - 1) * 4 ≤ index.metadata.pageSize
  previous : (index.pageHeaders pageId).previous = 0 ∨
    (index.pageHeaders pageId).previous < index.pageCount
  next : (index.pageHeaders pageId).next = 0 ∨ (index.pageHeaders pageId).next < index.pageCount

/-- Pages lie in the file and their headers have been checked. -/
structure Paged (index : BPlusTreeIndex) : Prop where
  laid : index.Laid
  pages : ∀ pageId, 0 < pageId → pageId < index.pageCount → index.PageChecked pageId

/-- The entry at position `j` of a leaf. -/
def leafEntry (index : BPlusTreeIndex) (pageId j : Nat) : Entry :=
  decodeEntry (index.page pageId) (pageHeaderSize + j * entrySize)

def leafEntries (index : BPlusTreeIndex) (pageId : Nat) : List Entry :=
  (List.range (index.pageHeaders pageId).count).map (index.leafEntry pageId)

/-- The child at position `c` of an internal page. -/
def childAt (index : BPlusTreeIndex) (pageId c : Nat) : Nat :=
  readLE (index.page pageId) (pageHeaderSize + c * 8) 8

def children (index : BPlusTreeIndex) (pageId : Nat) : List Nat :=
  (List.range (index.pageHeaders pageId).count).map (index.childAt pageId)

def separatorAt (index : BPlusTreeIndex) (pageId c : Nat) : Binary32 :=
  readFloat (index.page pageId) (separatorsOffset (index.pageHeaders pageId) + c * 4)

def separators (index : BPlusTreeIndex) (pageId : Nat) : List Binary32 :=
  (List.range ((index.pageHeaders pageId).count - 1)).map (index.separatorAt pageId)

variable {index : BPlusTreeIndex} {pageId : Nat}

theorem length_leafEntries :
    (index.leafEntries pageId).length = (index.pageHeaders pageId).count := by
  simp [leafEntries]

theorem length_children : (index.children pageId).length = (index.pageHeaders pageId).count := by
  simp [children]

theorem Paged.readDiskEntry_eq (h : index.Paged) (hpos : 0 < pageId)
    (hlt : pageId < index.pageCount) (hkind : (index.pageHeaders pageId).kind = leafPage) {j : Nat}
    (hj : j < (index.pageHeaders pageId).count) :
    readDiskEntry (index.page pageId) (index.pageHeaders pageId) j =
      .ok (index.leafEntry pageId j) := by
  have hlen := h.laid.length_page hlt
  exact readDiskEntry_of hkind hj (by rw [hlen]; exact ((h.pages _ hpos hlt).leaf hkind).2)
    (by rw [hlen]; exact h.laid.pageSize)

/-! ## Leaves -/

/-- The entries of a leaf that a table may take over. -/
structure LeafAccepted (numPoints tableId : Nat) (marks : LeafMarks) (entries : List Entry) :
    Prop where
  valid : ∀ e ∈ entries, e.value.isFinite = true ∧ e.pointId < numPoints
  ordered : entries.IsChain fun a b => keyLess a b = true
  unmarked : ∀ e ∈ entries, marks.pointMarks e.pointId ≠ tableId + 1
  distinct : (entries.map Entry.pointId).Nodup

theorem checkLeafEntry_eq_ok {numPoints tableId i : Nat} {page : List UInt8} {header : PageHeader}
    {first entry previousEntry : Entry} (hread : readDiskEntry page header (i + 1) = .ok entry)
    (hprevious : readDiskEntry page header i = .ok previousEntry) {state result : LeafMarks × Entry} :
    checkLeafEntry numPoints tableId page header first state i = .ok result ↔
      (entry.value.isFinite = true ∧ entry.pointId < numPoints) ∧
      (state.2.pointId ≠ entry.pointId ∨ first.value.le entry.value = true) ∧
      keyLess previousEntry entry = true ∧ state.1.pointMarks entry.pointId ≠ tableId + 1 ∧
      result = (state.1.mark tableId entry.pointId, entry) := by
  simp only [checkLeafEntry, hread, hprevious, except_ok_bind, except_unit_bind_eq_ok,
    require_eq_ok, except_pure, Except.ok.injEq, eq_comm (b := result)]

/-- The entry loop after `k` turns. -/
theorem checkLeafEntries_eq_ok (numPoints tableId : Nat) (marks : LeafMarks) (h : index.Paged)
    (hpos : 0 < pageId)
    (hlt : pageId < index.pageCount) (hkind : (index.pageHeaders pageId).kind = leafPage) : ∀ (k : Nat) (result : LeafMarks × Entry),
    k < (index.pageHeaders pageId).count →
    ((List.range k).foldlM (checkLeafEntry numPoints tableId (index.page pageId)
        (index.pageHeaders pageId) (index.leafEntry pageId 0))
        (marks.mark tableId (index.leafEntry pageId 0).pointId, index.leafEntry pageId 0) =
        .ok result ↔
      (∀ i < k, (index.leafEntry pageId (i + 1)).value.isFinite = true ∧
        (index.leafEntry pageId (i + 1)).pointId < numPoints ∧
        keyLess (index.leafEntry pageId i) (index.leafEntry pageId (i + 1)) = true ∧
        marks.pointMarks (index.leafEntry pageId (i + 1)).pointId ≠ tableId + 1 ∧
        ∀ j ≤ i, (index.leafEntry pageId j).pointId ≠ (index.leafEntry pageId (i + 1)).pointId) ∧
      result = (marks.markAll tableId ((List.range (k + 1)).map fun j =>
        (index.leafEntry pageId j).pointId), index.leafEntry pageId k)) := by
  intro k
  induction k with
  | zero =>
      intro result _
      constructor
      · intro hstart
        cases hstart
        exact ⟨fun i hi => absurd hi (Nat.not_lt_zero i), rfl⟩
      · rintro ⟨-, rfl⟩
        rfl
  | succ k ih =>
      intro result hk
      have hread := h.readDiskEntry_eq hpos hlt hkind (j := k + 1) (by omega)
      have hprevious := h.readDiskEntry_eq hpos hlt hkind (j := k) (by omega)
      have hids : (List.range (k + 1 + 1)).map (fun j => (index.leafEntry pageId j).pointId) =
          (List.range (k + 1)).map (fun j => (index.leafEntry pageId j).pointId) ++
            [(index.leafEntry pageId (k + 1)).pointId] := by
        rw [List.range_succ, List.map_append]
        rfl
      have hmarks := (LeafMarks.markAll_spec tableId ((List.range (k + 1)).map fun j =>
        (index.leafEntry pageId j).pointId) marks).1 (index.leafEntry pageId (k + 1)).pointId
      rw [List.range_succ, List.foldlM_append, except_bind_eq_ok]
      constructor
      · rintro ⟨middle, hmiddle, hlast⟩
        obtain ⟨hall, rfl⟩ := (ih middle (by omega)).mp hmiddle
        rw [List.foldlM_cons, except_bind_eq_ok] at hlast
        obtain ⟨last, hlast, hend⟩ := hlast
        cases hend
        obtain ⟨⟨hfin, hid⟩, -, hless, hmark, rfl⟩ :=
          (checkLeafEntry_eq_ok hread hprevious).mp hlast
        rw [hmarks] at hmark
        have hnot : (index.leafEntry pageId (k + 1)).pointId ∉ (List.range (k + 1)).map fun j =>
            (index.leafEntry pageId j).pointId := by
          intro hmem
          rw [if_pos hmem] at hmark
          exact hmark rfl
        rw [if_neg hnot] at hmark
        refine ⟨fun i hi => ?_, by rw [hids, LeafMarks.markAll_append]⟩
        rcases Nat.lt_succ_iff_lt_or_eq.mp hi with hlt' | rfl
        · exact hall i hlt'
        · refine ⟨hfin, hid, hless, hmark, fun j hj heq => hnot ?_⟩
          exact List.mem_map.mpr ⟨j, List.mem_range.mpr (by omega), heq⟩
      · rintro ⟨hall, rfl⟩
        refine ⟨_, (ih _ (by omega)).mpr ⟨fun i hi => hall i (by omega), rfl⟩, ?_⟩
        obtain ⟨hfin, hid, hless, hmark, hnew⟩ := hall k (by omega)
        have hnot : (index.leafEntry pageId (k + 1)).pointId ∉ (List.range (k + 1)).map fun j =>
            (index.leafEntry pageId j).pointId := by
          intro hmem
          obtain ⟨j, hj, heq⟩ := List.mem_map.mp hmem
          exact hnew j (by rw [List.mem_range] at hj; omega) heq
        rw [if_neg hnot] at hmarks
        rw [List.foldlM_cons, (checkLeafEntry_eq_ok hread hprevious).mpr
          ⟨⟨hfin, hid⟩, Or.inl (hnew k le_rfl), hless, by rw [hmarks]; exact hmark, rfl⟩, hids,
          LeafMarks.markAll_append]
        rfl

/-- A leaf is accepted when its entries are, and then marks them. -/
theorem visitLeaf_eq_ok (h : index.Paged) (hpos : 0 < pageId) (hlt : pageId < index.pageCount)
    (hkind : (index.pageHeaders pageId).kind = leafPage) {numPoints tableId : Nat}
    {marks marks' : LeafMarks} {first last : Entry} :
    visitLeaf numPoints tableId pageId (index.page pageId) (index.pageHeaders pageId) marks =
        .ok (marks', first, last) ↔
      LeafAccepted numPoints tableId marks (index.leafEntries pageId) ∧
      (∃ counted, marks.countLeaf tableId pageId (index.pageHeaders pageId).previous = .ok counted ∧
        marks' = counted.markAll tableId ((index.leafEntries pageId).map Entry.pointId)) ∧
      (index.leafEntries pageId).head? = some first ∧
      (index.leafEntries pageId).getLast? = some last := by
  have hcount := ((h.pages _ hpos hlt).leaf hkind).1
  obtain ⟨n, hn⟩ : ∃ n, (index.pageHeaders pageId).count = n + 1 :=
    ⟨(index.pageHeaders pageId).count - 1, by omega⟩
  have hread := h.readDiskEntry_eq hpos hlt hkind hcount
  have hloop := fun m r => checkLeafEntries_eq_ok numPoints tableId m h hpos hlt hkind n r (by omega)
  have hentries : index.leafEntries pageId = (List.range (n + 1)).map (index.leafEntry pageId) := by
    rw [leafEntries, hn]
  have hhead : (index.leafEntries pageId).head? = some (index.leafEntry pageId 0) := by
    rw [hentries, List.range_succ_eq_map]
    rfl
  have hlast : (index.leafEntries pageId).getLast? = some (index.leafEntry pageId n) := by
    rw [hentries, List.range_succ, List.map_append, List.map_singleton,
      List.getLast?_append_of_ne_nil _ (by simp)]
    rfl
  have hids : (index.leafEntries pageId).map Entry.pointId =
      (List.range (n + 1)).map fun j => (index.leafEntry pageId j).pointId := by
    rw [hentries, List.map_map]
    rfl
  have hmem : ∀ e, e ∈ index.leafEntries pageId ↔ ∃ j < n + 1, index.leafEntry pageId j = e := by
    intro e
    simp [hentries]
  have hpointMarks : ∀ {counted}, marks.countLeaf tableId pageId
      (index.pageHeaders pageId).previous = .ok counted → counted.pointMarks = marks.pointMarks := by
    intro counted hc
    rw [(LeafMarks.countLeaf_eq_ok.mp hc).2]
  -- the loop conditions are the ones of `LeafAccepted`
  have haccepted : LeafAccepted numPoints tableId marks (index.leafEntries pageId) ↔
      ((index.leafEntry pageId 0).value.isFinite = true ∧
        (index.leafEntry pageId 0).pointId < numPoints ∧
        marks.pointMarks (index.leafEntry pageId 0).pointId ≠ tableId + 1) ∧
      ∀ i < n, (index.leafEntry pageId (i + 1)).value.isFinite = true ∧
        (index.leafEntry pageId (i + 1)).pointId < numPoints ∧
        keyLess (index.leafEntry pageId i) (index.leafEntry pageId (i + 1)) = true ∧
        marks.pointMarks (index.leafEntry pageId (i + 1)).pointId ≠ tableId + 1 ∧
        ∀ j ≤ i, (index.leafEntry pageId j).pointId ≠
          (index.leafEntry pageId (i + 1)).pointId := by
    constructor
    · rintro ⟨hvalid, hordered, hunmarked, hdistinct⟩
      have h0 := (hmem _).mpr ⟨0, by omega, rfl⟩
      refine ⟨⟨(hvalid _ h0).1, (hvalid _ h0).2, hunmarked _ h0⟩, fun i hi => ?_⟩
      have hi' := (hmem _).mpr ⟨i + 1, by omega, rfl⟩
      refine ⟨(hvalid _ hi').1, (hvalid _ hi').2, ?_, hunmarked _ hi', fun j hj heq => ?_⟩
      · rw [List.isChain_iff_getElem] at hordered
        have := hordered i (by rw [length_leafEntries]; omega)
        simpa [leafEntries] using this
      · rw [hids, List.nodup_map_iff_inj_on List.nodup_range] at hdistinct
        have := hdistinct j (List.mem_range.mpr (by omega)) (i + 1) (List.mem_range.mpr (by omega))
          heq
        omega
    · rintro ⟨⟨hfin, hid, hmark⟩, hall⟩
      refine ⟨fun e he => ?_, ?_, fun e he => ?_, ?_⟩
      · obtain ⟨j, hj, rfl⟩ := (hmem e).mp he
        cases j with
        | zero => exact ⟨hfin, hid⟩
        | succ j => exact ⟨(hall j (by omega)).1, (hall j (by omega)).2.1⟩
      · rw [List.isChain_iff_getElem]
        intro i hi
        rw [length_leafEntries] at hi
        simpa [leafEntries] using (hall i (by omega)).2.2.1
      · obtain ⟨j, hj, rfl⟩ := (hmem e).mp he
        cases j with
        | zero => exact hmark
        | succ j => exact (hall j (by omega)).2.2.2.1
      · rw [hids, List.nodup_map_iff_inj_on List.nodup_range]
        have hne : ∀ i j, i < j → j < n + 1 →
            (index.leafEntry pageId i).pointId ≠ (index.leafEntry pageId j).pointId := by
          intro i j hij hj
          obtain ⟨j, rfl⟩ : ∃ k, j = k + 1 := ⟨j - 1, by omega⟩
          exact (hall j (by omega)).2.2.2.2 i (by omega)
        intro i hi j hj heq
        rw [List.mem_range] at hi hj
        rcases Nat.lt_trichotomy i j with hlt' | heq' | hgt
        · exact absurd heq (hne i j hlt' hj)
        · exact heq'
        · exact absurd heq.symm (hne j i hgt hi)
  rw [haccepted, hhead, hlast, hids]
  simp only [visitLeaf, hread, except_ok_bind, except_unit_bind_eq_ok, require_eq_ok, hn,
    Nat.add_sub_cancel]
  constructor
  · rintro ⟨hfin, hrest⟩
    rw [except_bind_eq_ok] at hrest
    obtain ⟨counted, hcounted, hrest⟩ := hrest
    simp only [except_unit_bind_eq_ok, require_eq_ok] at hrest
    obtain ⟨hid, hmark, hrest⟩ := hrest
    rw [except_bind_eq_ok] at hrest
    obtain ⟨⟨marks₁, last₁⟩, hfold, hend⟩ := hrest
    obtain ⟨hall, heq⟩ := (hloop counted _).mp hfold
    cases heq
    cases hend
    rw [hpointMarks hcounted] at hmark hall
    exact ⟨⟨⟨hfin, hid, hmark⟩, hall⟩, ⟨counted, hcounted, rfl⟩, rfl, rfl⟩
  · rintro ⟨⟨⟨hfin, hid, hmark⟩, hall⟩, ⟨counted, hcounted, rfl⟩, hf, hl⟩
    cases hf
    cases hl
    refine ⟨hfin, ?_⟩
    rw [except_bind_eq_ok]
    refine ⟨counted, hcounted, ?_⟩
    rw [← hpointMarks hcounted] at hmark hall
    simp only [except_unit_bind_eq_ok, require_eq_ok]
    refine ⟨hid, hmark, ?_⟩
    rw [(hloop counted _).mpr ⟨hall, rfl⟩]
    rfl

/-! ## Internal pages -/

theorem Paged.readChildren_eq_ok (h : index.Paged) (hpos : 0 < pageId)
    (hlt : pageId < index.pageCount) (hkind : (index.pageHeaders pageId).kind = internalPage)
    {children : List Nat} :
    readChildren index.pageCount (index.page pageId) (index.pageHeaders pageId) = .ok children ↔
      (∀ c < (index.pageHeaders pageId).count, 0 < index.childAt pageId c ∧
        index.childAt pageId c < index.pageCount) ∧ children = index.children pageId := by
  have hlen := h.laid.length_page hlt
  have hsize := ((h.pages _ hpos hlt).internal hkind).2
  unfold readChildren
  rw [mapM_eq_ok_iff (c := fun c => 0 < index.childAt pageId c ∧
    index.childAt pageId c < index.pageCount) (v := index.childAt pageId)]
  · simp only [List.mem_range, BPlusTreeIndex.children]
  · intro c hc child
    rw [List.mem_range] at hc
    rw [readChild_of hkind hc (by rw [hlen]; omega) (by rw [hlen]; exact h.laid.pageSize)]
    simp only [except_ok_bind, except_unit_bind_eq_ok, require_eq_ok, except_pure,
      Except.ok.injEq, eq_comm (b := child)]
    rfl

theorem Paged.readSeparators_eq_ok (h : index.Paged) (hpos : 0 < pageId)
    (hlt : pageId < index.pageCount) (hkind : (index.pageHeaders pageId).kind = internalPage)
    {separators : List Binary32} :
    readSeparators (index.page pageId) (index.pageHeaders pageId) = .ok separators ↔
      (∀ c < (index.pageHeaders pageId).count - 1, (index.separatorAt pageId c).isFinite = true ∧
        (0 < c → (index.separatorAt pageId (c - 1)).le (index.separatorAt pageId c) = true)) ∧
      separators = index.separators pageId := by
  have hlen := h.laid.length_page hlt
  have hsize := ((h.pages _ hpos hlt).internal hkind).2
  have hread : ∀ c < (index.pageHeaders pageId).count - 1,
      readSeparator (index.page pageId) (index.pageHeaders pageId) c =
        .ok (index.separatorAt pageId c) := fun c hc =>
    readSeparator_of hkind (by omega) (by rw [hlen]; exact hsize)
      (by rw [hlen]; exact h.laid.pageSize)
  unfold readSeparators BPlusTreeIndex.separators
  generalize (index.pageHeaders pageId).count - 1 = n at hread ⊢
  induction n generalizing separators with
  | zero =>
      constructor
      · intro hstart
        cases hstart
        exact ⟨fun c hc => absurd hc (Nat.not_lt_zero c), rfl⟩
      · rintro ⟨-, rfl⟩
        rfl
  | succ n ih =>
      have hlast : ∀ last ∈ ((List.range n).map (index.separatorAt pageId)).getLast?,
          0 < n ∧ last = index.separatorAt pageId (n - 1) := by
        intro last hmem
        cases n with
        | zero => simp at hmem
        | succ n =>
            rw [List.range_succ, List.map_append, List.map_singleton, List.getLast?_concat] at hmem
            cases hmem
            exact ⟨Nat.succ_pos n, rfl⟩
      rw [List.range_succ, List.foldlM_append, except_bind_eq_ok]
      constructor
      · rintro ⟨middle, hmiddle, hstep⟩
        obtain ⟨hall, rfl⟩ := (ih fun c hc => hread c (by omega)).mp hmiddle
        simp only [List.foldlM_cons, List.foldlM_nil, hread n (by omega), except_ok_bind,
          except_pure] at hstep
        rw [except_bind_eq_ok] at hstep
        obtain ⟨last, hstep, hend⟩ := hstep
        cases hend
        simp only [except_unit_bind_eq_ok, require_eq_ok, Except.ok.injEq] at hstep
        obtain ⟨hfin, hle, rfl⟩ := hstep
        refine ⟨fun c hc => ?_, by simp⟩
        rcases Nat.lt_succ_iff_lt_or_eq.mp hc with hlt' | rfl
        · exact hall c hlt'
        · refine ⟨hfin, fun hpos' => hle _ ?_⟩
          obtain ⟨c, rfl⟩ : ∃ m, c = m + 1 := ⟨c - 1, by omega⟩
          rw [List.range_succ, List.map_append, List.map_singleton, List.getLast?_concat]
          rfl
      · rintro ⟨hall, rfl⟩
        refine ⟨_, (ih fun c hc => hread c (by omega)).mpr ⟨fun c hc => hall c (by omega), rfl⟩, ?_⟩
        obtain ⟨hfin, hle⟩ := hall n (by omega)
        simp only [List.foldlM_cons, List.foldlM_nil, hread n (by omega), except_ok_bind,
          require_of hfin]
        rw [require_of fun last hmem => ?_]
        · simp
        · obtain ⟨hn, rfl⟩ := hlast last hmem
          exact hle hn

/-! ## Opening a page -/

theorem Paged.enterLeaf_eq_ok (h : index.Paged) (hpos : 0 < pageId) (hlt : pageId < index.pageCount)
    (hkind : (index.pageHeaders pageId).kind = leafPage) {tableId : Nat} {state : TreeState}
    {result : TreeState × Option (List Nat × List Binary32)} :
    index.enterPage index.pageHeaders tableId state pageId = .ok result ↔
      ∃ marks first last, visitLeaf index.metadata.numPoints tableId pageId (index.page pageId)
        (index.pageHeaders pageId) state.marks = .ok (marks, first, last) ∧
        result = ({ state.openPage tableId pageId with marks := marks }.close pageId 0 first last,
          none) := by
  simp only [enterPage, h.laid.readPage_eq hpos hlt, except_ok_bind, hkind, if_true, enterLeaf]
  rw [except_bind_eq_ok]
  constructor
  · rintro ⟨⟨marks, first, last⟩, hvisit, hend⟩
    cases hend
    exact ⟨marks, first, last, hvisit, rfl⟩
  · rintro ⟨marks, first, last, hvisit, rfl⟩
    exact ⟨(marks, first, last), hvisit, rfl⟩

theorem Paged.enterInternal_eq_ok (h : index.Paged) (hpos : 0 < pageId)
    (hlt : pageId < index.pageCount) (hkind : (index.pageHeaders pageId).kind = internalPage)
    {tableId : Nat} {state : TreeState} {result : TreeState × Option (List Nat × List Binary32)} :
    index.enterPage index.pageHeaders tableId state pageId = .ok result ↔
      (∀ c < (index.pageHeaders pageId).count, 0 < index.childAt pageId c ∧
        index.childAt pageId c < index.pageCount) ∧
      (∀ c < (index.pageHeaders pageId).count - 1, (index.separatorAt pageId c).isFinite = true ∧
        (0 < c → (index.separatorAt pageId (c - 1)).le (index.separatorAt pageId c) = true)) ∧
      result = (state.openPage tableId pageId,
        some (index.children pageId, index.separators pageId)) := by
  have hnot : ¬ (index.pageHeaders pageId).kind = leafPage := by
    rw [hkind]
    decide
  simp only [enterPage, h.laid.readPage_eq hpos hlt, except_ok_bind, if_neg hnot, enterInternal]
  rw [except_bind_eq_ok]
  constructor
  · rintro ⟨children, hchildren, hrest⟩
    rw [except_bind_eq_ok] at hrest
    obtain ⟨separators, hseparators, hend⟩ := hrest
    cases hend
    obtain ⟨hrange, rfl⟩ := (h.readChildren_eq_ok hpos hlt hkind).mp hchildren
    obtain ⟨hfinite, rfl⟩ := (h.readSeparators_eq_ok hpos hlt hkind).mp hseparators
    exact ⟨hrange, hfinite, rfl⟩
  · rintro ⟨hrange, hfinite, rfl⟩
    refine ⟨_, (h.readChildren_eq_ok hpos hlt hkind).mpr ⟨hrange, rfl⟩, ?_⟩
    rw [(h.readSeparators_eq_ok hpos hlt hkind).mpr ⟨hfinite, rfl⟩]
    rfl

end BPlusTreeIndex

/-! ## Closing a page -/

/-- The child at position `i` fits beside its left neighbour. -/
def ChildAccepted (state : TreeState) (tableId : Nat) (children : List Nat)
    (separators : List Binary32) (i : Nat) : Prop :=
  (state.color (children.getD i 0) = 2 ∧ state.owner (children.getD i 0) = some tableId) ∧
  (0 < i → state.heights (children.getD i 0) = state.heights (children.getD 0 0) ∧
    keyLess (state.last (children.getD (i - 1) 0)) (state.first (children.getD i 0)) = true ∧
    (separators.getD (i - 1) default).eq (state.first (children.getD i 0)).value = true)

theorem checkChildren_eq_ok {state : TreeState} {tableId : Nat} {children : List Nat}
    {separators : List Binary32} : ∀ (k : Nat) (result : ChildRange),
    (List.range k).foldlM (checkChild state tableId children separators)
        { height := none, first := default, last := default } = .ok result ↔
      (∀ i < k, ChildAccepted state tableId children separators i) ∧
      result = if k = 0 then { height := none, first := default, last := default } else
        { height := some (state.heights (children.getD 0 0))
          first := state.first (children.getD 0 0)
          last := state.last (children.getD (k - 1) 0) } := by
  intro k
  induction k with
  | zero =>
      intro result
      constructor
      · intro hstart
        cases hstart
        exact ⟨fun i hi => absurd hi (Nat.not_lt_zero i), rfl⟩
      · rintro ⟨-, rfl⟩
        rfl
  | succ k ih =>
      intro result
      rw [List.range_succ, List.foldlM_append, except_bind_eq_ok]
      -- one more child, after the range of the first `k`
      have hstep : ∀ range, range = (if k = 0 then
            { height := none, first := default, last := default } else
            { height := some (state.heights (children.getD 0 0))
              first := state.first (children.getD 0 0)
              last := state.last (children.getD (k - 1) 0) } : ChildRange) →
          (checkChild state tableId children separators range k = .ok result ↔
            ChildAccepted state tableId children separators k ∧ result =
              { height := some (state.heights (children.getD 0 0))
                first := state.first (children.getD 0 0)
                last := state.last (children.getD k 0) }) := by
        rintro range rfl
        unfold checkChild checkSibling ChildAccepted
        cases k with
        | zero =>
            simp [except_unit_bind_eq_ok, eq_comm (b := result)]
        | succ k =>
            simp only [Nat.succ_ne_zero, if_false, Nat.add_sub_cancel, false_or, Nat.succ_pos,
              forall_const, except_unit_bind_eq_ok, require_eq_ok]
            rw [except_bind_eq_ok]
            simp only [except_unit_bind_eq_ok, require_eq_ok, except_pure, Except.ok.injEq]
            constructor
            · rintro ⟨hcolor, range, ⟨hheight, hless, rfl⟩, hsep, rfl⟩
              exact ⟨⟨hcolor, hheight, hless, hsep⟩, rfl⟩
            · rintro ⟨⟨hcolor, hheight, hless, hsep⟩, rfl⟩
              exact ⟨hcolor, _, ⟨hheight, hless, rfl⟩, hsep, rfl⟩
      constructor
      · rintro ⟨range, hrange, hlast⟩
        obtain ⟨hall, heq⟩ := (ih range).mp hrange
        rw [List.foldlM_cons, except_bind_eq_ok] at hlast
        obtain ⟨last, hlast, hend⟩ := hlast
        cases hend
        obtain ⟨hnew, rfl⟩ := (hstep range heq).mp hlast
        refine ⟨fun i hi => ?_, by simp⟩
        rcases Nat.lt_succ_iff_lt_or_eq.mp hi with hlt | rfl
        · exact hall i hlt
        · exact hnew
      · rintro ⟨hall, rfl⟩
        refine ⟨_, (ih _).mpr ⟨fun i hi => hall i (by omega), rfl⟩, ?_⟩
        rw [List.foldlM_cons, (hstep _ rfl).mpr ⟨hall k (by omega), by simp⟩]
        rfl

/-- A node with children closes when they fit side by side. -/
theorem finishPage_eq_ok {state state' : TreeState} {tableId pageId : Nat} {children : List Nat}
    {separators : List Binary32} (hne : children ≠ []) :
    finishPage tableId state pageId children separators = .ok state' ↔
      (∀ i < children.length, ChildAccepted state tableId children separators i) ∧
      state' = state.close pageId (state.heights (children.getD 0 0) + 1)
        (state.first (children.getD 0 0))
        (state.last (children.getD (children.length - 1) 0)) := by
  have hlen : children.length ≠ 0 := by simpa using hne
  unfold finishPage
  rw [except_bind_eq_ok]
  constructor
  · rintro ⟨range, hrange, hend⟩
    cases hend
    obtain ⟨hall, rfl⟩ := (checkChildren_eq_ok _ _).mp hrange
    refine ⟨hall, ?_⟩
    simp only [if_neg hlen, Option.getD_some]
  · rintro ⟨hall, rfl⟩
    refine ⟨_, (checkChildren_eq_ok _ _).mpr ⟨hall, rfl⟩, ?_⟩
    simp only [if_neg hlen, Option.getD_some]
    rfl

end Qalsh
