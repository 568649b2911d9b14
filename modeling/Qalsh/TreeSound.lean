/-
  TreeSound.lean --- an accepted B+ tree file stores a sorted table for every root.

  Walking all trees gives every page one owner.  The chain of a table then has the
  leaves of its tree, as many of them and in ascending order, so it is the list of
  these leaves from left to right; with the links checked in both directions this
  is `StoresIn`.
-/
import Qalsh.TreeWalk

set_option autoImplicit false

namespace Qalsh

open Foundation

namespace BPlusTreeIndex

variable {index : BPlusTreeIndex}

/-! ## The walks of all tables -/

/-- What the walk of one table has established. -/
structure TableWalked (index : BPlusTreeIndex) (tableId : Nat) (state : TreeState)
    (leaves : List Nat) : Prop where
  node : index.NodeAt tableId state (index.roots.getD tableId 0) leaves
  leaf : ∀ leaf ∈ leaves, index.NodeAt tableId state leaf [leaf] ∧
    (index.pageHeaders leaf).kind = leafPage
  valid : ∀ e ∈ index.entriesOf leaves,
    e.value.isFinite = true ∧ e.pointId < index.metadata.numPoints
  distinct : ((index.entriesOf leaves).map Entry.pointId).Nodup
  total : (index.entriesOf leaves).length = index.metadata.numPoints
  leafCount : state.marks.tableLeafCount tableId = leaves.length
  firstLeaf : state.marks.tableFirstLeaf tableId ≠ 0 → ∃ leaf ∈ leaves,
    (index.pageHeaders leaf).previous = 0 ∧ state.marks.tableFirstLeaf tableId = leaf
  owned : ∀ pageId, state.color pageId ≠ 0 → state.owner pageId = some tableId →
    (index.pageHeaders pageId).kind = leafPage → pageId ∈ leaves

/-- What holds after the walks of the first `count` tables. -/
structure TreesWalked (index : BPlusTreeIndex) (count : Nat) (state : TreeState) : Prop where
  tables : ∀ tableId < count, ∃ leaves, index.TableWalked tableId state leaves
  owner : ∀ pageId, state.color pageId ≠ 0 → ∃ tableId < count, state.owner pageId = some tableId
  untouched : ∀ tableId, count ≤ tableId → state.marks.leafEntryCounts tableId = 0 ∧
    state.marks.tableLeafCount tableId = 0 ∧ state.marks.tableFirstLeaf tableId = 0
  marked : ∀ id, state.marks.pointMarks id ≤ count

theorem blankState_walked : index.TreesWalked 0 blankState where
  tables _ h := absurd h (Nat.not_lt_zero _)
  owner _ h := absurd rfl h
  untouched _ _ := ⟨rfl, rfl, rfl⟩
  marked _ := le_rfl

/-- The walk of the next table keeps what is known of the others. -/
theorem TableWalked.grown {tableId other : Nat} (hne : tableId ≠ other) {state state' : TreeState}
    {leaves leaves' : List Nat} (h : index.TableWalked tableId state leaves)
    (hgrown : index.Grown other leaves' state state') : index.TableWalked tableId state' leaves where
  node := h.node.same (hgrown.frame _ (by rw [h.node.color]; decide))
  leaf leaf hl := by
    obtain ⟨hnode, hkind⟩ := h.leaf leaf hl
    exact ⟨hnode.same (hgrown.frame _ (by rw [hnode.color]; decide)), hkind⟩
  valid := h.valid
  distinct := h.distinct
  total := h.total
  leafCount := by rw [hgrown.marks.leafCounts, setAt_other _ _ hne, h.leafCount]
  firstLeaf := by
    rw [hgrown.marks.otherFirst _ hne]
    exact h.firstLeaf
  owned pageId hseen howner hkind := by
    by_cases h0 : state.color pageId = 0
    · obtain ⟨-, ho, -⟩ := hgrown.new pageId h0 hseen
      rw [howner] at ho
      exact absurd (Option.some.inj ho) hne
    · have hsame := hgrown.frame pageId h0
      exact h.owned pageId h0 (hsame.owner.symm.trans howner) hkind

/-- What a walk from an unseen root establishes of its table. -/
theorem TreesWalked.walked {count : Nat} {state state' : TreeState} {leaves : List Nat}
    (h : index.TreesWalked count state) (hgrown : index.Grown count leaves state state')
    (hnode : index.NodeAt count state' (index.roots.getD count 0) leaves)
    (htotal : state'.marks.leafEntryCounts count = index.metadata.numPoints) :
    index.TableWalked count state' leaves := by
  obtain ⟨hentries, hleaves, hfirst⟩ := h.untouched count le_rfl
  refine ⟨hnode, fun leaf hl => (hgrown.leaf leaf hl).2, hgrown.marks.valid,
    hgrown.marks.distinct, ?_, ?_, fun hne => ?_, fun pageId hseen howner hkind => ?_⟩
  · rw [hgrown.marks.entryCounts, setAt_same, hentries, Nat.zero_add] at htotal
    exact htotal
  · rw [hgrown.marks.leafCounts, setAt_same, hleaves, Nat.zero_add]
  · refine hgrown.marks.someFirst ?_
    by_contra hnone
    refine hne ((hgrown.marks.noFirst fun leaf hl hprev => hnone ⟨leaf, hl, hprev⟩).trans hfirst)
  · by_cases h0 : state.color pageId = 0
    · exact (hgrown.new pageId h0 hseen).2.2.2.2.2 hkind
    · obtain ⟨other, hlt, ho⟩ := h.owner pageId h0
      rw [(hgrown.frame pageId h0).owner, ho] at howner
      have := Option.some.inj howner
      omega

/-- A walk from an unseen root adds its table. -/
theorem TreesWalked.step {count : Nat} {state state' : TreeState} {leaves : List Nat}
    (h : index.TreesWalked count state) (hgrown : index.Grown count leaves state state')
    (hnode : index.NodeAt count state' (index.roots.getD count 0) leaves)
    (htotal : state'.marks.leafEntryCounts count = index.metadata.numPoints) :
    index.TreesWalked (count + 1) state' where
  tables tableId htable := by
    rcases Nat.lt_succ_iff_lt_or_eq.mp htable with hlt | rfl
    · obtain ⟨leaves', hwalked⟩ := h.tables tableId hlt
      exact ⟨leaves', hwalked.grown (by omega) hgrown⟩
    · exact ⟨leaves, h.walked hgrown hnode htotal⟩
  owner pageId hseen := by
    by_cases h0 : state.color pageId = 0
    · exact ⟨count, Nat.lt_succ_self _, (hgrown.new pageId h0 hseen).2.1⟩
    · obtain ⟨tableId, hlt, ho⟩ := h.owner pageId h0
      exact ⟨tableId, by omega, (hgrown.frame pageId h0).owner.trans ho⟩
  untouched tableId hle := by
    have hne : tableId ≠ count := by omega
    rw [hgrown.marks.entryCounts, hgrown.marks.leafCounts, setAt_other _ _ hne,
      setAt_other _ _ hne, hgrown.marks.otherFirst _ hne]
    exact h.untouched tableId (by omega)
  marked id := by
    rw [hgrown.marks.pointMarks]
    have := h.marked id
    split <;> omega

/-- A root that another table has walked leaves the new table without entries. -/
theorem checkTree_seen {headers : Nat → PageHeader} {tableId : Nat} {state state' : TreeState}
    (hseen : state.color (index.roots.getD tableId 0) ≠ 0)
    (h : (index.treeWalk headers tableId).run state [Frame.fresh (index.roots.getD tableId 0)] =
      .ok state') : state'.marks = state.marks := by
  rw [Explorer.run_cons, Explorer.step, if_pos (by simpa [treeWalk, Frame.fresh] using hseen),
    Explorer.advance] at h
  simp only [Frame.fresh, List.getElem?_nil, treeWalk, finishPage, List.length_nil,
    List.range_zero, List.foldlM_nil, except_pure, except_ok_bind, Explorer.run_nil] at h
  cases h
  rfl

theorem Paged.checkTree_step (hpaged : index.Paged) (hpoints : 0 < index.metadata.numPoints)
    {tableId : Nat} {state state' : TreeState} (hwalked : index.TreesWalked tableId state)
    (h : index.checkTree index.pageHeaders state tableId = .ok state') :
    index.TreesWalked (tableId + 1) state' := by
  unfold checkTree at h
  rw [except_bind_eq_ok] at h
  obtain ⟨result, hrun, hrest⟩ := h
  simp only [except_unit_bind_eq_ok, require_eq_ok, except_pure, Except.ok.injEq] at hrest
  obtain ⟨htotal, rfl⟩ := hrest
  by_cases hseen : state.color (index.roots.getD tableId 0) = 0
  · obtain ⟨depth, leaves, s', hexplored, hdone⟩ := Explorer.explored_of_run _ le_rfl
      (by simpa [treeWalk] using hseen) hrun
    rw [Explorer.run_nil] at hdone
    cases hdone
    obtain ⟨hgrown, hnode⟩ := hpaged.walked_of_explored depth hexplored
    exact hwalked.step hgrown hnode htotal
  · have hmarks := checkTree_seen hseen hrun
    rw [hmarks, (hwalked.untouched tableId le_rfl).1] at htotal
    omega

theorem Paged.checkTrees_spec (hpaged : index.Paged) (hpoints : 0 < index.metadata.numPoints)
    {state : TreeState} (h : index.checkTrees index.pageHeaders = .ok state) :
    index.TreesWalked index.roots.length state :=
  foldlM_range_invariant (P := index.TreesWalked) blankState_walked
    (fun _ _ _ _ hwalked hstep => hpaged.checkTree_step hpoints hwalked hstep) h

/-! ## The chain of a table -/

/-- Following `next` from `current` gives these pages. -/
def Linked (headers : Nat → PageHeader) : (current : Nat) → List Nat → Prop
  | current, [] => current = 0
  | current, page :: chain => page = current ∧ current ≠ 0 ∧ Linked headers (headers page).next chain

theorem Linked.start {headers : Nat → PageHeader} {current : Nat} {chain : List Nat}
    (h : Linked headers current chain) : current = chain.getD 0 0 := by
  cases chain with
  | nil => exact h
  | cons page chain => exact h.1.symm

theorem Linked.next_eq {headers : Nat → PageHeader} : ∀ {current : Nat} {chain : List Nat},
    Linked headers current chain → ∀ i (hi : i < chain.length),
      (headers chain[i]).next = chain.getD (i + 1) 0 := by
  intro current chain
  induction chain generalizing current with
  | nil => exact fun _ i hi => absurd hi (Nat.not_lt_zero i)
  | cons page chain ih =>
      rintro ⟨rfl, -, hrest⟩ i hi
      cases i with
      | zero => exact hrest.start
      | succ i => exact ih hrest i (by simpa using hi)

/-- The pages a chain walk has passed. -/
theorem walkChain_spec {headers : Nat → PageHeader} {state : TreeState} {tableId : Nat} :
    ∀ (steps : Nat) {current visited : Nat} {previous : Option Entry} {ranks : Nat → Nat}
      {result : Nat × (Nat → Nat)},
    walkChain index.pageCount headers state tableId steps current visited previous ranks = .ok result →
    ∃ chain, Linked headers current chain ∧ result.1 = visited + chain.length ∧
      (∀ page ∈ chain, page < index.pageCount ∧ (headers page).kind = leafPage ∧
        state.owner page = some tableId) ∧
      (chain.IsChain fun a b => keyLess (state.last a) (state.first b) = true) ∧
      ∀ last ∈ previous, ∀ page ∈ chain.head?, keyLess last (state.first page) = true := by
  intro steps
  induction steps with
  | zero =>
      intro current visited previous ranks result h
      rw [walkChain] at h
      by_cases h0 : current = 0
      · rw [if_pos h0] at h
        cases h
        exact ⟨[], h0, rfl, by simp, .nil, by simp⟩
      · rw [if_neg h0] at h
        simp only [except_bind_eq_ok] at h
        obtain ⟨_, -, _, -, _, -, h⟩ := h
        cases h
  | succ steps ih =>
      intro current visited previous ranks result h
      rw [walkChain] at h
      by_cases h0 : current = 0
      · rw [if_pos h0] at h
        cases h
        exact ⟨[], h0, rfl, by simp, .nil, by simp⟩
      · rw [if_neg h0] at h
        simp only [except_unit_bind_eq_ok, require_eq_ok] at h
        obtain ⟨hlt, ⟨hkind, howner⟩, hsorted, -, hrest⟩ := h
        obtain ⟨chain, hlinked, hvisited, hpages, hchain, hnext⟩ := ih hrest
        refine ⟨current :: chain, ⟨rfl, h0, hlinked⟩, ?_, ?_, ?_, ?_⟩
        · rw [hvisited, List.length_cons]
          omega
        · exact List.forall_mem_cons.mpr ⟨⟨hlt, hkind, howner⟩, hpages⟩
        · exact List.isChain_cons.mpr ⟨fun page hp => hnext _ rfl page hp, hchain⟩
        · intro last hlast page hpage
          cases hpage
          exact hsorted last hlast

theorem keyLess_irrefl (e : Entry) : keyLess e e = false := by
  simp [keyLess, Binary32.lt, Binary32.eq]

/-- Leaves in ascending order are in ascending order entry by entry. -/
theorem pairwise_of_chain {state : TreeState} {tableId : Nat} {chain : List Nat}
    (hnode : ∀ leaf ∈ chain, index.NodeAt tableId state leaf [leaf])
    (hchain : chain.IsChain fun a b => keyLess (state.last a) (state.first b) = true) :
    (index.entriesOf chain).Pairwise fun a b => keyLess a b = true := by
  refine List.isChain_iff_pairwise.mp ?_
  have hflat : index.entriesOf chain = (chain.map index.leafEntries).flatten := rfl
  rw [hflat, List.isChain_flatten]
  · refine ⟨fun entries hmem => ?_, ?_⟩
    · obtain ⟨leaf, hleaf, rfl⟩ := List.mem_map.mp hmem
      have := (hnode leaf hleaf).ordered
      rwa [entriesOf_singleton] at this
    · rw [List.isChain_map]
      refine hchain.imp_of_mem_imp fun a b ha hb hless x hx y hy => ?_
      have hlast := (hnode a ha).last
      have hfirst := (hnode b hb).first
      rw [entriesOf_singleton] at hlast hfirst
      rw [hlast] at hx
      rw [hfirst] at hy
      cases hx
      cases hy
      exact hless
  · intro hnil
    obtain ⟨leaf, hleaf, heq⟩ := List.mem_map.mp hnil
    have hfirst := (hnode leaf hleaf).first
    rw [entriesOf_singleton, heq] at hfirst
    cases hfirst

/-- The chain of a table lists the leaves of its tree from left to right. -/
theorem TableWalked.chain_eq {state : TreeState} {tableId : Nat} {leaves chain : List Nat}
    (h : index.TableWalked tableId state leaves) (hseen : ∀ page ∈ chain, state.color page ≠ 0)
    (hpages : ∀ page ∈ chain, (index.pageHeaders page).kind = leafPage ∧
      state.owner page = some tableId)
    (hchain : chain.IsChain fun a b => keyLess (state.last a) (state.first b) = true)
    (hlen : chain.length = leaves.length) : chain = leaves := by
  have hsub : ∀ page ∈ chain, page ∈ leaves := fun page hp =>
    h.owned page (hseen page hp) (hpages page hp).2 (hpages page hp).1
  have hnode : ∀ leaf ∈ chain, index.NodeAt tableId state leaf [leaf] :=
    fun leaf hl => (h.leaf leaf (hsub leaf hl)).1
  have hne : ∀ leaf ∈ leaves, ∃ e, e ∈ index.leafEntries leaf := by
    intro leaf hl
    have hfirst := (h.leaf leaf hl).1.first
    rw [entriesOf_singleton] at hfirst
    exact ⟨_, List.mem_of_mem_head? hfirst⟩
  -- both lists are ascending, so neither repeats a leaf and they are the same list
  have hsorted := (List.pairwise_flatMap.mp (pairwise_of_chain hnode hchain)).2
  have hsorted' := (List.pairwise_flatMap.mp (List.isChain_iff_pairwise.mp h.node.ordered)).2
  have hnodup : chain.Nodup := by
    refine hsorted.imp_of_mem fun {a b} ha hb hless heq => ?_
    subst heq
    obtain ⟨e, he⟩ := hne a (hsub a ha)
    have := hless e he e he
    rw [keyLess_irrefl] at this
    cases this
  have hperm : chain.Perm leaves :=
    (hnodup.subperm hsub).perm_of_length_le hlen.ge
  refine hperm.eq_of_pairwise (fun a b ha hb hab hba => ?_) hsorted hsorted'
  obtain ⟨x, hx⟩ := hne a (hsub a ha)
  obtain ⟨y, hy⟩ := hne b hb
  have := keyLess_trans (hab x hx y hy) (hba y hy x hx)
  rw [keyLess_irrefl] at this
  cases this

/-! ## Links -/

/-- What the pass over the links establishes. -/
structure LinksChecked (index : BPlusTreeIndex) (state : TreeState) : Prop where
  color : ∀ pageId, 0 < pageId → pageId < index.pageCount → state.color pageId = 2
  back : ∀ pageId, 0 < pageId → pageId < index.pageCount →
    (index.pageHeaders pageId).kind = leafPage → (index.pageHeaders pageId).next ≠ 0 →
    (index.pageHeaders (index.pageHeaders pageId).next).previous = pageId

theorem linksChecked_of_forM {state : TreeState}
    (h : (List.range (index.pageCount - 1)).forM
      (fun i => checkLinks index.pageHeaders state (i + 1)) = .ok ()) :
    index.LinksChecked state := by
  rw [forM_eq_ok] at h
  have hpage : ∀ pageId, 0 < pageId → pageId < index.pageCount →
      checkLinks index.pageHeaders state pageId = .ok () := by
    intro pageId hpos hlt
    have := h (pageId - 1) (List.mem_range.mpr (by omega))
    rwa [Nat.sub_add_cancel hpos] at this
  refine ⟨fun pageId hpos hlt => ?_, fun pageId hpos hlt hkind hnext => ?_⟩
  · have := hpage pageId hpos hlt
    simp only [checkLinks, except_unit_bind_eq_ok, require_eq_ok] at this
    exact this.1.1
  · have := hpage pageId hpos hlt
    simp only [checkLinks, except_unit_bind_eq_ok, require_eq_ok, if_pos hkind, checkLeafLinks,
      checkLink, if_neg hnext] at this
    exact this.2.2.1.2

/-! ## From the tree to `StoresIn` -/

variable (index) in
/-- The entry at an offset of a leaf, in the whole table. -/
theorem entriesOf_blockStart {leaves : List Nat} {i j : Nat} (hi : i < leaves.length)
    (hj : j < (index.pageHeaders leaves[i]).count) :
    (index.entriesOf leaves)[blockStart (index.leafSizes leaves) i + j]? =
      some (index.leafEntry leaves[i] j) := by
  have hsizes : index.leafSizes leaves =
      leaves.map fun leaf => (index.leafEntries leaf).length := by
    simp [leafSizes, length_leafEntries]
  rw [hsizes, entriesOf, getElem?_flatMap_blockStart hi (by rwa [length_leafEntries])]
  simp [leafEntries]

theorem length_entriesOf (leaves : List Nat) :
    (index.entriesOf leaves).length = (index.leafSizes leaves).sum := by
  simp [entriesOf, leafSizes, List.length_flatMap, length_leafEntries]

/-- The tree over some leaves of a table is a search tree over their entries. -/
theorem Subtree.searchTree (hpaged : index.Paged) {points : Nat} {table : SortedTable points}
    {leaves : List Nat} (htable : table.entries = index.entriesOf leaves)
    (hcount : ∀ leaf ∈ leaves, 0 < (index.pageHeaders leaf).count) :
    ∀ {height pageId : Nat} {part before after : List Nat}, index.Subtree height pageId part →
      leaves = before ++ part ++ after →
      index.SearchTree table leaves height pageId (blockStart (index.leafSizes leaves) before.length)
        (blockStart (index.leafSizes leaves) (before.length + part.length)) := by
  intro height
  induction height with
  | zero =>
      rintro pageId part before after ⟨rfl, -⟩ hsplit
      refine ⟨before.length, ?_, ?_, rfl, rfl⟩
      · simp [hsplit]
      · simp [hsplit]
  | succ height ih =>
      rintro pageId part before after ⟨⟨hpos, hlt, hkind⟩, parts, rfl, hparts, hfinite, hseps⟩ hsplit
      obtain ⟨hcount2, hsize⟩ := (hpaged.pages _ hpos hlt).internal hkind
      have hlen := hparts.length_eq
      rw [length_children] at hlen
      have hchild : ∀ c < (index.pageHeaders pageId).count,
          (index.children pageId).getD c 0 = index.childAt pageId c := by
        intro c hc
        simp [children, List.getD_eq_getElem?_getD, hc]
      -- the leaves before the child at position `c`
      have hnode : ∀ c < (index.pageHeaders pageId).count,
          index.Subtree height (index.childAt pageId c) (parts.getD c []) := by
        intro c hc
        have := forall₂_getD hparts (i := c) (by rw [length_children]; exact hc) 0 []
        rwa [hchild c hc] at this
      have hcut : ∀ c < (index.pageHeaders pageId).count, leaves =
          (before ++ (parts.take c).flatten) ++ parts.getD c [] ++
            ((parts.drop (c + 1)).flatten ++ after) := by
        intro c hc
        have hc' : c < parts.length := by omega
        have hflat : parts.flatten =
            (parts.take c).flatten ++ (parts[c] ++ (parts.drop (c + 1)).flatten) := by
          rw [← List.flatten_cons, ← List.flatten_append, ← List.drop_eq_getElem_cons hc',
            List.take_append_drop]
        rw [hsplit, List.getD_eq_getElem _ _ hc', hflat]
        simp only [List.append_assoc]
      have htake : ∀ c < (index.pageHeaders pageId).count, (parts.take (c + 1)).flatten.length =
          (parts.take c).flatten.length + (parts.getD c []).length := by
        intro c hc
        have hc' : c < parts.length := by omega
        rw [List.take_succ_eq_append_getElem hc', List.flatten_append, List.length_append,
          List.flatten_singleton, List.getD_eq_getElem _ _ hc']
      refine ⟨hpos, hlt, hkind, hcount2, hsize, fun c => blockStart (index.leafSizes leaves)
        (before.length + (parts.take c).flatten.length), ?_, ?_, fun c hc => ?_, fun c hc => ?_⟩
      · simp
      · show blockStart _ (before.length + (parts.take _).flatten.length) = _
        rw [hlen, List.take_length]
      · have hsub := ih (hnode c hc) (hcut c hc)
        rw [List.length_append, Nat.add_assoc, ← htake c hc] at hsub
        exact ⟨(hnode c hc).range.1, (hnode c hc).range.2, blockStart_mono (by rw [htake c hc]; omega),
          hsub⟩
      · obtain ⟨e, he, heq⟩ := hseps c hc
        have hcut' := hcut (c + 1) hc
        generalize hprefix : before ++ (parts.take (c + 1)).flatten = front at hcut'
        have hfront : before.length + (parts.take (c + 1)).flatten.length = front.length := by
          rw [← hprefix, List.length_append]
        -- the first leaf of the next child
        obtain ⟨leaf, rest, hpart⟩ : ∃ leaf rest, parts.getD (c + 1) [] = leaf :: rest := by
          cases hp : parts.getD (c + 1) [] with
          | nil =>
              rw [hp] at he
              cases he
          | cons leaf rest => exact ⟨leaf, rest, rfl⟩
        rw [hpart] at hcut' he
        have hi : front.length < leaves.length := by
          rw [hcut']
          simp
        have hleaf : leaves[front.length] = leaf := by
          simp [hcut']
        have hpos' : 0 < (index.pageHeaders leaves[front.length]).count :=
          hcount _ (List.getElem_mem hi)
        have hget := entriesOf_blockStart index hi hpos'
        rw [Nat.add_zero] at hget
        have hfirst : index.leafEntry leaf 0 = e := by
          have hhead : (index.entriesOf (leaf :: rest)).head? =
              some (index.leafEntry leaf 0) := by
            rw [hleaf] at hpos'
            obtain ⟨n, hn⟩ : ∃ n, (index.pageHeaders leaf).count = n + 1 :=
              ⟨(index.pageHeaders leaf).count - 1, by omega⟩
            simp [entriesOf, leafEntries, hn, List.range_succ_eq_map]
          rw [hhead] at he
          exact Option.some.inj he
        have hentry : table.entryAt (blockStart (index.leafSizes leaves) front.length) = e := by
          rw [SortedTable.entryAt, htable, List.getD_eq_getElem?_getD, hget, hleaf, hfirst]
          rfl
        have hbound : blockStart (index.leafSizes leaves) front.length < points := by
          rw [← table.length_entries, htable]
          exact (List.getElem?_eq_some_iff.mp hget).1
        have hfin := (hfinite c (by omega)).1
        have hkey : (index.separatorAt pageId c).orderKey = e.value.orderKey := by
          simp only [Binary32.eq, Bool.and_eq_true, decide_eq_true_eq] at heq
          exact heq.2
        refine ⟨?_, hfin, ?_⟩
        · show blockStart _ (before.length + (parts.take (c + 1)).flatten.length) < points
          rw [hfront]
          exact hbound
        · show _ = (table.entryAt (blockStart _
            (before.length + (parts.take (c + 1)).flatten.length))).value.orderKey
          rw [hfront, hentry]
          exact hkey

/-- The table a walked tree stores. -/
def TableWalked.table {tableId : Nat} {state : TreeState} {leaves : List Nat}
    (h : index.TableWalked tableId state leaves) : SortedTable index.metadata.numPoints where
  entries := index.entriesOf leaves
  ordered := List.isChain_iff_pairwise.mp h.node.ordered
  finite e he := (h.valid e he).1
  ids := by
    refine perm_range_of_nodup h.distinct (fun id hid => ?_) (by rw [List.length_map, h.total])
    obtain ⟨e, he, rfl⟩ := List.mem_map.mp hid
    exact (h.valid e he).2

/-- A table that passes the walk, the links and the chain is stored. -/
theorem TableWalked.storesIn (hpaged : index.Paged) {tableId : Nat} {state : TreeState}
    {leaves : List Nat} (h : index.TableWalked tableId state leaves)
    (hroot : tableId < index.roots.length) (hlinks : index.LinksChecked state)
    (ranks : Nat → Nat) {ranks' : Nat → Nat}
    (hchain : index.checkChain index.pageHeaders state ranks tableId = .ok ranks') :
    index.StoresIn tableId h.table leaves := by
  unfold checkChain at hchain
  simp only [except_unit_bind_eq_ok, require_eq_ok] at hchain
  obtain ⟨hfirst, hchain⟩ := hchain
  rw [except_bind_eq_ok] at hchain
  obtain ⟨⟨visited, ranks''⟩, hwalk, hend⟩ := hchain
  simp only [except_unit_bind_eq_ok, require_eq_ok] at hend
  obtain ⟨hvisited, -⟩ := hend
  obtain ⟨chain, hlinked, hlen, hpages, hsorted, -⟩ := walkChain_spec _ hwalk
  have hposOf : ∀ leaf ∈ leaves, 0 < leaf ∧ leaf < index.pageCount ∧
      (index.pageHeaders leaf).kind = leafPage := h.node.tree.leaves
  have hchainPos : ∀ page ∈ chain, state.color page ≠ 0 := by
    intro page hp hcolor
    have hlt := (hpages page hp).1
    have hpos : 0 < page := by
      have : ∀ {current : Nat} {chain : List Nat}, Linked index.pageHeaders current chain →
          ∀ page ∈ chain, 0 < page := by
        intro current chain
        induction chain generalizing current with
        | nil => intro _ page hp; cases hp
        | cons first rest ih =>
            rintro ⟨rfl, hne, hrest⟩ page hp
            rcases List.mem_cons.mp hp with rfl | hp
            · exact Nat.pos_of_ne_zero hne
            · exact ih hrest page hp
      exact this hlinked page hp
    rw [hlinks.color page hpos hlt] at hcolor
    cases hcolor
  have heq : chain = leaves := h.chain_eq hchainPos (fun page hp => (hpages page hp).2) hsorted (by
    rw [← h.leafCount, ← hvisited]
    simpa using hlen.symm)
  subst heq
  have hnext := hlinked.next_eq
  have hcountPos : ∀ leaf ∈ chain, 0 < (index.pageHeaders leaf).count := fun leaf hl =>
    ((hpaged.pages leaf (hposOf leaf hl).1 (hposOf leaf hl).2.1).leaf (hposOf leaf hl).2.2).1
  have hnodup : chain.Nodup := by
    have hpairs := (List.pairwise_flatMap.mp (List.isChain_iff_pairwise.mp h.node.ordered)).2
    refine hpairs.imp_of_mem fun {a b} ha hb hless hab => ?_
    subst hab
    have hmem : index.leafEntry a 0 ∈ index.leafEntries a :=
      List.mem_map.mpr ⟨0, List.mem_range.mpr (hcountPos a ha), rfl⟩
    have := hless _ hmem _ hmem
    rw [keyLess_irrefl] at this
    cases this
  have hroots : index.roots[tableId]? = some (index.roots.getD tableId 0) := by
    rw [List.getD_eq_getElem _ _ hroot, List.getElem?_eq_getElem hroot]
  refine ⟨hpaged.laid, fun leaf hl => ⟨(hposOf leaf hl).1, (hposOf leaf hl).2.1⟩,
    fun leaf hl => (hposOf leaf hl).2.2, hcountPos, fun leaf hl =>
      ((hpaged.pages leaf (hposOf leaf hl).1 (hposOf leaf hl).2.1).leaf (hposOf leaf hl).2.2).2,
    fun i hi => ?_, hnext, hnodup, ?_, fun i hi j hj => ?_, ?_⟩
  · by_cases h0 : i = 0
    · subst h0
      rw [if_pos rfl]
      obtain ⟨leaf, -, hprev, hleaf⟩ := h.firstLeaf hfirst
      have hstart := hlinked.start
      rw [List.getD_eq_getElem _ _ hi] at hstart
      rw [← hstart, hleaf]
      exact hprev
    · rw [if_neg h0]
      have hi' : i - 1 < chain.length := by omega
      have hmem := List.getElem_mem hi'
      have hn := hnext (i - 1) hi'
      rw [Nat.sub_add_cancel (by omega), List.getD_eq_getElem _ _ hi] at hn
      have hpos := (hposOf _ (List.getElem_mem hi)).1
      have hback := hlinks.back _ (hposOf _ hmem).1 (hposOf _ hmem).2.1 (hposOf _ hmem).2.2
        (by rw [hn]; omega)
      rw [hn] at hback
      rw [hback, List.getD_eq_getElem _ _ hi']
  · rw [← length_entriesOf, h.total]
  · have hget := entriesOf_blockStart index hi hj
    show index.leafEntry chain[i] j = _
    rw [SortedTable.entryAt]
    show _ = (index.entriesOf chain).getD _ default
    rw [List.getD_eq_getElem?_getD, hget]
    rfl
  · have hsearch := Subtree.searchTree hpaged (show h.table.entries = index.entriesOf chain from rfl)
      hcountPos h.node.tree (show chain = [] ++ chain ++ [] by simp)
    have htotal : blockStart (index.leafSizes chain) chain.length = index.metadata.numPoints := by
      rw [← length_leafSizes, blockStart_length, ← length_entriesOf, h.total]
    rw [List.length_nil, Nat.zero_add, blockStart_zero, htotal] at hsearch
    refine ⟨_, _, hroots, ?_, hsearch⟩
    -- the leaves are different pages from 1 on
    have hheight := h.node.tree.height_lt hpaged
    have hsub : chain.Subperm (List.range' 1 (index.pageCount - 1)) :=
      hnodup.subperm fun leaf hl => by
        have := hposOf leaf hl
        exact List.mem_range'_1.mpr ⟨this.1, by omega⟩
    have hle := hsub.length_le
    rw [List.length_range'] at hle
    omega

/-! ## The passes together -/

/-- A header that passes its checks. -/
theorem pageChecked_of_checkPageHeader {headers : Nat → PageHeader} {pageId : Nat}
    (h : checkPageHeader index.pageCount index.metadata.pageSize (headers pageId) = .ok ()) :
    ({ index with pageHeaders := headers } : BPlusTreeIndex).PageChecked pageId := by
  simp only [checkPageHeader, except_unit_bind_eq_ok, require_eq_ok] at h
  obtain ⟨hkind, hsize, hprevious, hnext⟩ := h
  refine ⟨hkind, fun hleaf => ?_, fun hinternal => ?_, hprevious, hnext⟩
  · have hleaf : (headers pageId).kind = leafPage := hleaf
    rw [checkPageSize, if_pos hleaf] at hsize
    simp only [checkLeafPage, except_bind_eq_ok] at hsize
    obtain ⟨product, hproduct, bytes, hbytes, hsize⟩ := hsize
    obtain ⟨rfl, -⟩ := checkedMultiplyOrThrow_eq_ok hproduct
    obtain ⟨rfl, -⟩ := checkedAddOrThrow_eq_ok (by decide) hbytes
    have hsize := require_eq_ok.mp hsize
    exact ⟨hsize.1, hsize.2.2⟩
  · have hinternal : (headers pageId).kind = internalPage := hinternal
    have hnot : ¬ (headers pageId).kind = leafPage := by
      rw [hinternal]
      decide
    rw [checkPageSize, if_neg hnot] at hsize
    simp only [checkInternalPage, except_bind_eq_ok] at hsize
    obtain ⟨childrenBytes, hchildren, separatorBytes, hseparators, base, hbase, bytes, hbytes,
      hsize⟩ := hsize
    have hsize := require_eq_ok.mp hsize
    obtain ⟨rfl, -⟩ := checkedMultiplyOrThrow_eq_ok hchildren
    rw [if_neg (by omega)] at hseparators
    obtain ⟨rfl, -⟩ := checkedMultiplyOrThrow_eq_ok hseparators
    obtain ⟨rfl, hle⟩ := checkedAddOrThrow_eq_ok (by decide) hbase
    obtain ⟨rfl, -⟩ := checkedAddOrThrow_eq_ok hle hbytes
    exact ⟨hsize.1, hsize.2.2.1⟩

theorem loadPageHeaders_spec {headers : Nat → PageHeader}
    (h : index.loadPageHeaders = .ok headers) : ∀ pageId, 0 < pageId → pageId < index.pageCount →
      ({ index with pageHeaders := headers } : BPlusTreeIndex).PageChecked pageId := by
  have hall := foldlM_range_invariant (P := fun count (headers : Nat → PageHeader) => ∀ pageId,
      0 < pageId → pageId ≤ count →
        checkPageHeader index.pageCount index.metadata.pageSize (headers pageId) = .ok ())
    (fun pageId hpos hle => by omega)
    (fun i headers headers' _ hP hstep => by
      simp only [loadPageHeader, except_bind_eq_ok] at hstep
      obtain ⟨page, -, header, -, _, hcheck, hend⟩ := hstep
      cases hend
      intro pageId hpos hle
      by_cases heq : pageId = i + 1
      · subst heq
        rw [setAt_same]
        exact hcheck
      · rw [setAt_other _ _ heq]
        exact hP pageId hpos (by omega)) h
  exact fun pageId hpos hlt => pageChecked_of_checkPageHeader (hall pageId hpos (by omega))

/-- What the passes over the pages of a file establish. -/
theorem checkPages_spec (hlaid : index.Laid) (hpoints : 0 < index.metadata.numPoints)
    {result : BPlusTreeIndex} (h : index.checkPages = .ok result) :
    (∃ headers ranks, result = { index with pageHeaders := headers, leafRanks := ranks }) ∧
      result.Paged ∧ ∀ tableId < result.roots.length,
        ∃ (table : SortedTable result.metadata.numPoints) (leaves : List Nat),
          result.StoresIn tableId table leaves := by
  simp only [checkPages, except_bind_eq_ok] at h
  obtain ⟨headers, hheaders, state, htrees, _, hlinks, ranks, hchains, hend⟩ := h
  cases hend
  have hpages := loadPageHeaders_spec hheaders
  have hpaged : ({ index with pageHeaders := headers, leafRanks := ranks } : BPlusTreeIndex).Paged :=
    ⟨⟨hlaid.pages, hlaid.mapping, hlaid.pageSize⟩, fun pageId hpos hlt =>
      ⟨(hpages pageId hpos hlt).kind, (hpages pageId hpos hlt).leaf,
        (hpages pageId hpos hlt).internal, (hpages pageId hpos hlt).previous,
        (hpages pageId hpos hlt).next⟩⟩
  refine ⟨⟨headers, ranks, rfl⟩, hpaged, fun tableId htable => ?_⟩
  have hwalked := hpaged.checkTrees_spec hpoints htrees
  have hlinks : ({ index with pageHeaders := headers, leafRanks := ranks } :
      BPlusTreeIndex).LinksChecked state := linksChecked_of_forM hlinks
  -- every turn of the loop over the chains has succeeded
  have hchain := foldlM_range_invariant (P := fun count (_ : Nat → Nat) => ∀ t < count,
      ∃ ranks ranks', index.checkChain headers state ranks t = .ok ranks')
    (fun t ht => absurd ht (Nat.not_lt_zero t))
    (fun i s s' _ hP hstep t ht => by
      rcases Nat.lt_succ_iff_lt_or_eq.mp ht with hlt | rfl
      · exact hP t hlt
      · exact ⟨s, s', hstep⟩) hchains tableId htable
  obtain ⟨before, after, hchain⟩ := hchain
  obtain ⟨leaves, htree⟩ := hwalked.tables tableId htable
  exact ⟨htree.table, leaves, htree.storesIn hpaged htable hlinks before hchain⟩

/-- What a file that `load_header` accepts holds. -/
theorem loadHeader_spec {file : File} {path : String} {index : BPlusTreeIndex}
    (h : loadHeader file path = .ok index) :
    ValidMetadata index.metadata ∧ ValidVectors index.metadata index.projectionVectors ∧
      index.roots.length = index.metadata.numHashTables ∧
      ∀ tableId < index.metadata.numHashTables,
        ∃ (table : SortedTable index.metadata.numPoints) (leaves : List Nat),
          index.StoresIn tableId table leaves := by
  simp only [loadHeader, except_bind_eq_ok] at h
  obtain ⟨headerBytes, -, _, hheader, _, hqalsh, rootsBytes, hroots, values, hvalues, valueBytes,
    hvalueBytes, rootCount, hrootCount, rootsSize, -, rootData, -, _, -, valueCount, hvalueCount,
    projectionSize, -, projectionData, -, _, hvectors, _, -, _, -, _, -, hpages⟩ := h
  generalize decodeFileHeader headerBytes = header at *
  obtain ⟨rfl, -⟩ := checkedMultiplyOrThrow_eq_ok hvalues
  obtain ⟨rfl, -⟩ := checkedSize_eq_ok.mp hrootCount
  obtain ⟨rfl, -⟩ := checkedSize_eq_ok.mp hvalueCount
  simp only [validateBPlusHeader, except_bind_eq_ok, require_eq_ok] at hheader
  obtain ⟨_, hfields, _, -, pageBytes, hpageBytes, expected, hexpected, _, hlayout, _, hsize,
    hoffsets⟩ := hheader
  have hvalid := validateHeader_valid hfields hoffsets
  obtain ⟨rfl, -⟩ := checkedMultiplyOrThrow_eq_ok hpageBytes
  have hdata : header.dataOffset ≤ uint64Max := hvalid.data.2.trans hvalid.fileSize
  obtain ⟨rfl, -⟩ := checkedAddOrThrow_eq_ok hdata hexpected
  obtain ⟨⟨headers, ranks, rfl⟩, -, hstores⟩ := checkPages_spec
    ⟨by
      show header.dataOffset + header.pageCount * header.pageSize ≤ file.length
      omega, by
      show file.length ≤ uint64Max
      rw [← hsize]
      exact hvalid.fileSize, hvalid.pageSize.2⟩ hvalid.points.1 hpages
  have hlen : (decodeOffsets rootData header.numHashTables).length = header.numHashTables := by
    simp [decodeOffsets]
  refine ⟨metadataFromHeader_valid hvalid _ (validateQalsh_eq_ok.mp hqalsh),
    ⟨by simp [decodeFloats, metadataFromHeader], fun v hv =>
      require_eq_ok.mp (forM_eq_ok.mp hvectors v hv)⟩, hlen, fun tableId htable => ?_⟩
  exact hstores tableId (lt_of_lt_of_eq htable hlen.symm)

theorem openFile_spec {file : File} {path : String} {index : BPlusTreeIndex}
    (h : openFile file path = .ok index) : loadHeader file path = .ok index := by
  unfold openFile at h
  rw [except_bind_eq_ok] at h
  obtain ⟨_, -, h⟩ := h
  split at h
  · cases h
  · simp only [except_bind_eq_ok] at h
    obtain ⟨_, -, _, -, h⟩ := h
    exact h

end BPlusTreeIndex

end Qalsh
