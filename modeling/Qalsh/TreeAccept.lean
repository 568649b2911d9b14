/-
  TreeAccept.lean --- the checks of `Open` accept the trees of `Build`.

  An index that holds the pages of a build can walk each of its trees: no page of a
  table has been seen before, its entries are in order, and nodes at one level have
  the same height.  The links of the leaves then agree in both directions, and the
  chain of a table runs from its first page id on.
-/
import Qalsh.TreeShape
import Qalsh.TreeSound

set_option autoImplicit false

namespace Qalsh.BPlusTreeIndex

open Foundation

variable {index : BPlusTreeIndex} {pages : List Page} {capacity tableId : Nat}

/-- The pages an index reads. -/
structure Contains (index : BPlusTreeIndex) (pages : List Page) : Prop where
  count : index.pageCount = pages.length
  header : ∀ (i : Nat) (page : Page), 0 < i → pages[i]? = some page → index.pageHeaders i = page.header
  entries : ∀ (i : Nat) (page : Page), 0 < i → pages[i]? = some page → page.header.kind = leafPage →
    index.leafEntries i = page.entries
  children : ∀ (i : Nat) (page : Page), 0 < i → pages[i]? = some page →
    page.header.kind = internalPage → index.children i = page.children
  separators : ∀ (i : Nat) (page : Page), 0 < i → pages[i]? = some page →
    page.header.kind = internalPage → index.separators i = page.separators

theorem Contains.range (h : index.Contains pages) {i : Nat} {page : Page} (hpage : pages[i]? = some page) :
    i < index.pageCount := by
  rw [h.count]
  exact (List.getElem?_eq_some_iff.mp hpage).1

/-! ## Trees over pages -/

theorem PageTree.id_mem {height : Nat} {twig : Twig} (h : PageTree pages capacity height twig) :
    twig.id ∈ twig.nodes := by
  cases height with
  | zero =>
      rw [h.2.1]
      exact List.mem_singleton_self _
  | succ height =>
      obtain ⟨twigs, -, -, -, hnodes, -⟩ := h
      rw [hnodes]
      exact List.mem_cons_self

theorem PageTree.range (hholds : index.Contains pages) {height : Nat} {twig : Twig}
    (h : PageTree pages capacity height twig) : twig.id < index.pageCount := by
  cases height with
  | zero =>
      obtain ⟨-, -, page, hpage, -⟩ := h
      exact hholds.range hpage
  | succ height =>
      obtain ⟨twigs, hpage, -⟩ := h
      exact hholds.range hpage

theorem PageTree.leaves_ne {height : Nat} : ∀ {twig : Twig}, PageTree pages capacity height twig →
    twig.leaves ≠ [] := by
  induction height with
  | zero =>
      intro twig h
      rw [h.1]
      exact List.cons_ne_nil _ _
  | succ height ih =>
      rintro twig ⟨twigs, -, hsize, hleaves, -, -, htwigs⟩ hempty
      rw [hleaves, List.flatMap_eq_nil_iff] at hempty
      obtain ⟨child, hchild⟩ := List.exists_mem_of_length_pos (show 0 < twigs.length by omega)
      exact ih (htwigs child hchild) (hempty child hchild)

theorem PageTree.leaves_subset {height : Nat} : ∀ {twig : Twig}, PageTree pages capacity height twig →
    twig.leaves ⊆ twig.nodes := by
  induction height with
  | zero =>
      intro twig h
      rw [h.1, h.2.1]
      exact List.Subset.refl _
  | succ height ih =>
      rintro twig ⟨twigs, -, -, hleaves, hnodes, -, htwigs⟩ leaf hleaf
      rw [hleaves, List.mem_flatMap] at hleaf
      obtain ⟨child, hchild, hleaf⟩ := hleaf
      rw [hnodes]
      exact List.mem_cons_of_mem _ (List.mem_flatMap.mpr ⟨child, hchild, ih (htwigs child hchild) hleaf⟩)

/-- A page of a tree is one of its leaves or stands over some of its pages. -/
theorem PageTree.node {height : Nat} : ∀ {twig : Twig}, PageTree pages capacity height twig →
    ∀ node ∈ twig.nodes, node ∈ twig.leaves ∨ ∃ group : List Twig,
      pages[node]? = some (groupPage group) ∧ (2 ≤ group.length ∧ group.length ≤ capacity) ∧
      ∀ child ∈ group, child.id ∈ twig.nodes := by
  induction height with
  | zero =>
      intro twig h node hnode
      rw [h.2.1, ← h.1] at hnode
      exact Or.inl hnode
  | succ height ih =>
      rintro twig ⟨twigs, hpage, hsize, hleaves, hnodes, -, htwigs⟩ node hnode
      have hbelow : ∀ child ∈ twigs, child.nodes ⊆ twig.nodes := fun child hchild id hid => by
        rw [hnodes]
        exact List.mem_cons_of_mem _ (List.mem_flatMap.mpr ⟨child, hchild, hid⟩)
      rw [hnodes] at hnode
      rcases List.mem_cons.mp hnode with rfl | hnode
      · exact Or.inr ⟨twigs, hpage, hsize, fun child hchild =>
          hbelow child hchild (htwigs child hchild).id_mem⟩
      · obtain ⟨child, hchild, hmem⟩ := List.mem_flatMap.mp hnode
        rcases ih (htwigs child hchild) node hmem with hleaf | ⟨group, hgroup, hlength, hids⟩
        · refine Or.inl ?_
          rw [hleaves]
          exact List.mem_flatMap.mpr ⟨child, hchild, hleaf⟩
        · exact Or.inr ⟨group, hgroup, hlength, fun other hother =>
            hbelow child hchild (hids other hother)⟩

/-- The key of a tree is that of its first entry. -/
theorem PageTree.key_eq (hholds : index.Contains pages) {height : Nat} : ∀ {twig : Twig},
    PageTree pages capacity height twig → (∀ node ∈ twig.nodes, 0 < node) →
    (index.entriesOf twig.leaves).head?.map Entry.value = some twig.key := by
  induction height with
  | zero =>
      rintro twig ⟨hleaves, hnodes, page, hpage, hkind, hkey⟩ hpos
      have hid : 0 < twig.id := hpos _ (by rw [hnodes]; exact List.mem_singleton_self _)
      rw [hleaves, entriesOf_singleton, hholds.entries _ _ hid hpage hkind, hkey]
  | succ height ih =>
      rintro twig ⟨twigs, -, hsize, hleaves, hnodes, hkey, htwigs⟩ hpos
      obtain ⟨child, rest, rfl⟩ := List.exists_cons_of_length_pos (show 0 < twigs.length by omega)
      have hchild := ih (htwigs child List.mem_cons_self) fun node hnode => hpos node (by
        rw [hnodes, List.flatMap_cons]
        exact List.mem_cons_of_mem _ (List.mem_append_left _ hnode))
      rw [hleaves, hkey, List.flatMap_cons, entriesOf_append]
      cases hentries : index.entriesOf child.leaves with
      | nil =>
          rw [hentries] at hchild
          cases hchild
      | cons first others =>
          rw [hentries] at hchild
          exact hchild

/-! ## Walking a tree -/

/-- The leaves a table may still be walked over. -/
structure Walkable (index : BPlusTreeIndex) (tableId : Nat) (marks : LeafMarks) (leaves : List Nat) :
    Prop where
  valid : ∀ e ∈ index.entriesOf leaves,
    e.value.isFinite = true ∧ e.pointId < index.metadata.numPoints
  ordered : (index.entriesOf leaves).Pairwise fun a b => keyLess a b = true
  distinct : ((index.entriesOf leaves).map Entry.pointId).Nodup
  unmarked : ∀ e ∈ index.entriesOf leaves, marks.pointMarks e.pointId ≠ tableId + 1
  linked : leaves.Pairwise fun _ leaf => (index.pageHeaders leaf).previous ≠ 0
  first : (∃ leaf ∈ leaves, (index.pageHeaders leaf).previous = 0) → marks.tableFirstLeaf tableId = 0

section Walk

variable {marks marks' : LeafMarks} {leaves leaves' : List Nat}

theorem Walkable.left (h : index.Walkable tableId marks (leaves ++ leaves')) :
    index.Walkable tableId marks leaves := by
  have hmem : ∀ e ∈ index.entriesOf leaves, e ∈ index.entriesOf (leaves ++ leaves') := fun e he => by
    rw [entriesOf_append]
    exact List.mem_append_left _ he
  have hordered := h.ordered
  have hdistinct := h.distinct
  rw [entriesOf_append] at hordered hdistinct
  rw [List.map_append] at hdistinct
  refine ⟨fun e he => h.valid e (hmem e he), (List.pairwise_append.mp hordered).1,
    hdistinct.of_append_left, fun e he => h.unmarked e (hmem e he),
    (List.pairwise_append.mp h.linked).1, ?_⟩
  rintro ⟨leaf, hleaf, hprevious⟩
  exact h.first ⟨leaf, List.mem_append_left _ hleaf, hprevious⟩

/-- The leaves after a part that has been walked. -/
theorem Walkable.right (h : index.Walkable tableId marks (leaves ++ leaves'))
    (hmarked : index.MarkedBy tableId leaves marks marks') (hne : leaves ≠ []) :
    index.Walkable tableId marks' leaves' := by
  have hmem : ∀ e ∈ index.entriesOf leaves', e ∈ index.entriesOf (leaves ++ leaves') := fun e he => by
    rw [entriesOf_append]
    exact List.mem_append_right _ he
  have hordered := h.ordered
  have hdistinct := h.distinct
  rw [entriesOf_append] at hordered hdistinct
  rw [List.map_append] at hdistinct
  refine ⟨fun e he => h.valid e (hmem e he), (List.pairwise_append.mp hordered).2.1,
    hdistinct.of_append_right, fun e he => ?_, (List.pairwise_append.mp h.linked).2.1, ?_⟩
  · rw [hmarked.pointMarks, if_neg fun hin => ?_]
    · exact h.unmarked e (hmem e he)
    · exact (List.nodup_append.mp hdistinct).2.2 _ hin _ (List.mem_map_of_mem he) rfl
  · -- only the first of all leaves has no left neighbour
    rintro ⟨leaf, hleaf, hprevious⟩
    obtain ⟨before, hbefore⟩ := List.exists_mem_of_ne_nil _ hne
    exact absurd hprevious ((List.pairwise_append.mp h.linked).2.2 before hbefore leaf hleaf)

/-- Only these pages have been colored. -/
structure Colored (nodes : List Nat) (state state' : TreeState) : Prop where
  closed : ∀ node ∈ nodes, state'.color node = 2
  other : ∀ node, node ∉ nodes → state'.color node = state.color node

theorem Colored.append {nodes nodes' : List Nat} {s s' s'' : TreeState} (h : Colored nodes s s')
    (h' : Colored nodes' s' s'') :
    Colored (nodes ++ nodes') s s'' where
  closed node hnode := by
    by_cases hright : node ∈ nodes'
    · exact h'.closed node hright
    · have hleft := (List.mem_append.mp hnode).resolve_right hright
      rw [h'.other node hright, h.closed node hleft]
  other node hnode := by
    rw [List.mem_append, not_or] at hnode
    rw [h'.other node hnode.2, h.other node hnode.1]

variable (hpaged : index.Paged)

include hpaged in
/-- A leaf that can be walked is opened and closed. -/
theorem Paged.explored_leaf {pageId : Nat} {state : TreeState} (hpos : 0 < pageId)
    (hlt : pageId < index.pageCount) (hkind : (index.pageHeaders pageId).kind = leafPage)
    (hnew : state.color pageId = 0) (hwalkable : index.Walkable tableId state.marks [pageId]) :
    ∃ state', (index.treeWalk index.pageHeaders tableId).Explored 1 pageId [pageId] state state' ∧
      state'.heights pageId = 0 ∧ Colored [pageId] state state' := by
  have hentries : index.entriesOf [pageId] = index.leafEntries pageId := entriesOf_singleton pageId
  have haccepted : LeafAccepted index.metadata.numPoints tableId state.marks
      (index.leafEntries pageId) := by
    rw [← hentries]
    exact ⟨hwalkable.valid, hwalkable.ordered.isChain, hwalkable.unmarked, hwalkable.distinct⟩
  have hcount := ((hpaged.pages _ hpos hlt).leaf hkind).1
  rw [← length_leafEntries] at hcount
  have hne := List.length_pos_iff_ne_nil.mp hcount
  obtain ⟨counted, hcounted⟩ : ∃ counted, state.marks.countLeaf tableId pageId
      (index.pageHeaders pageId).previous = .ok counted :=
    ⟨_, LeafMarks.countLeaf_eq_ok.mpr
      ⟨fun hprevious => hwalkable.first ⟨pageId, List.mem_singleton_self _, hprevious⟩, rfl⟩⟩
  have hvisit := (visitLeaf_eq_ok hpaged hpos hlt hkind).mpr ⟨haccepted, ⟨counted, hcounted, rfl⟩,
    List.head?_eq_some_head hne, List.getLast?_eq_some_getLast hne⟩
  obtain ⟨result, henter, hresult⟩ : ∃ result,
      index.enterPage index.pageHeaders tableId state pageId = .ok (result, none) ∧
        ∃ marks first last, result =
          { state.openPage tableId pageId with marks := marks }.close pageId 0 first last :=
    ⟨_, (hpaged.enterLeaf_eq_ok hpos hlt hkind).mpr ⟨_, _, _, hvisit, rfl⟩, _, _, _, rfl⟩
  obtain ⟨marks, first, last, rfl⟩ := hresult
  refine ⟨_, ⟨by simpa [treeWalk] using hnew, Or.inl ⟨rfl, henter⟩⟩, setAt_same _ _ _, ?_, ?_⟩
  · intro node hnode
    rw [List.mem_singleton] at hnode
    rw [hnode]
    exact setAt_same _ _ _
  · intro node hnode
    rw [List.mem_singleton] at hnode
    exact (setAt_other _ _ hnode).trans (setAt_other _ _ hnode)

/-- A tree can be walked from these states. -/
def Explorable (index : BPlusTreeIndex) (tableId height : Nat) (twig : Twig) (state state' : TreeState) :
    Prop :=
  (index.treeWalk index.pageHeaders tableId).Explored (height + 1) twig.id twig.leaves state state' ∧
    state'.heights twig.id = height ∧ Colored twig.nodes state state'

include hpaged in
/-- The children of a node can be walked one after the other when each can. -/
theorem Paged.explored_children {height : Nat} : ∀ {twigs : List Twig} {state : TreeState},
    (∀ child ∈ twigs, child.leaves ≠ [] ∧ child.id ∈ child.nodes ∧ ∀ s : TreeState,
      (∀ node ∈ child.nodes, s.color node = 0) → index.Walkable tableId s.marks child.leaves →
        ∃ s', index.Explorable tableId height child s s') →
    (∀ node ∈ twigs.flatMap Twig.nodes, state.color node = 0) → (twigs.flatMap Twig.nodes).Nodup →
    index.Walkable tableId state.marks (twigs.flatMap Twig.leaves) →
    ∃ state', (index.treeWalk index.pageHeaders tableId).ExploredAll
        ((index.treeWalk index.pageHeaders tableId).Explored (height + 1)) (twigs.map Twig.id)
        (twigs.flatMap Twig.leaves) state state' ∧
      Colored (twigs.flatMap Twig.nodes) state state' ∧
      ∀ child ∈ twigs, index.NodeAt tableId state' child.id child.leaves ∧
        state'.heights child.id = height := by
  intro twigs
  induction twigs with
  | nil =>
      intro state _ _ _ _
      exact ⟨state, .nil state, ⟨by simp, fun _ _ => rfl⟩, by simp⟩
  | cons child twigs ih =>
      intro state hchildren hnew hnodup hwalkable
      rw [List.flatMap_cons] at hnew hnodup hwalkable
      obtain ⟨hne, hid, hwalk⟩ := hchildren child List.mem_cons_self
      obtain ⟨s₁, hexplored, hheight, hcolored⟩ := hwalk state
        (fun node hnode => hnew node (List.mem_append_left _ hnode)) hwalkable.left
      obtain ⟨hgrown, hnode⟩ := hpaged.walked_of_explored _ hexplored
      have hdisjoint : ∀ node ∈ child.nodes, node ∉ twigs.flatMap Twig.nodes :=
        fun node hleft hright => (List.nodup_append.mp hnodup).2.2 _ hleft _ hright rfl
      obtain ⟨s₂, hrest, hcolored', hnodes⟩ := ih
        (fun other hother => hchildren other (List.mem_cons_of_mem _ hother))
        (fun node hright => by
          rw [hcolored.other node fun hleft => hdisjoint node hleft hright]
          exact hnew node (List.mem_append_right _ hright))
        hnodup.of_append_right (hwalkable.right hgrown.marks hne)
      have hpermit : admitChild state child.id = .ok () :=
        require_of (hnew _ (List.mem_append_left _ hid))
      have hgrown' := (grown_of_exploredAll (hpaged.walked_of_explored _) hrest).1
      have hsame := hgrown'.frame child.id (by rw [hnode.color]; decide)
      refine ⟨s₂, .cons hpermit hexplored hrest, hcolored.append hcolored', ?_⟩
      intro other hother
      rcases List.mem_cons.mp hother with rfl | hother
      · exact ⟨hnode.same hsame, hsame.heights.trans hheight⟩
      · exact hnodes other hother

omit hpaged in
/-- The keys of neighbouring trees. -/
theorem keys_ordered (hholds : index.Contains pages) {twigs : List Twig} {height : Nat}
    (htrees : ∀ child ∈ twigs, PageTree pages capacity height child)
    (hpos : ∀ child ∈ twigs, ∀ node ∈ child.nodes, 0 < node)
    (hvalid : ∀ e ∈ index.entriesOf (twigs.flatMap Twig.leaves), e.value.isFinite = true)
    (hordered : (index.entriesOf (twigs.flatMap Twig.leaves)).Pairwise fun a b => keyLess a b = true) :
    (∀ key ∈ twigs.map Twig.key, key.isFinite = true) ∧
      (twigs.map Twig.key).Pairwise fun a b => a.le b = true := by
  have hfirst : ∀ child ∈ twigs, ∃ e ∈ index.entriesOf child.leaves, e.value = child.key := by
    intro child hchild
    have hkey := (htrees child hchild).key_eq hholds (hpos child hchild)
    obtain ⟨e, he, hvalue⟩ := Option.map_eq_some_iff.mp hkey
    exact ⟨e, List.mem_of_mem_head? he, hvalue⟩
  have hentries : index.entriesOf (twigs.flatMap Twig.leaves) =
      twigs.flatMap fun child => index.entriesOf child.leaves := List.flatMap_assoc
  rw [hentries] at hvalid hordered
  have hfinite : ∀ child ∈ twigs, child.key.isFinite = true := by
    intro child hchild
    obtain ⟨e, he, hvalue⟩ := hfirst child hchild
    rw [← hvalue]
    exact hvalid e (List.mem_flatMap.mpr ⟨child, hchild, he⟩)
  refine ⟨fun key hkey => ?_, List.pairwise_map.mpr ?_⟩
  · obtain ⟨child, hchild, rfl⟩ := List.mem_map.mp hkey
    exact hfinite child hchild
  · refine (List.pairwise_flatMap.mp hordered).2.imp_of_mem fun {a b} ha hb hless => ?_
    obtain ⟨e, he, hvalue⟩ := hfirst a ha
    obtain ⟨e', he', hvalue'⟩ := hfirst b hb
    rw [Binary32.le_iff_of_isFinite (hfinite a ha) (hfinite b hb), ← hvalue, ← hvalue']
    exact SortedTable.orderKey_le_of_keyLess (hless e he e' he')

omit hpaged in
/-- The children of a node that has been walked close it. -/
theorem children_accepted (hholds : index.Contains pages) {height : Nat} {state : TreeState}
    {twigs : List Twig} (htrees : ∀ child ∈ twigs, PageTree pages capacity height child)
    (hpos : ∀ child ∈ twigs, ∀ node ∈ child.nodes, 0 < node)
    (hwalked : ∀ child ∈ twigs, index.NodeAt tableId state child.id child.leaves ∧
      state.heights child.id = height)
    (hordered : (index.entriesOf (twigs.flatMap Twig.leaves)).Pairwise fun a b => keyLess a b = true)
    (hfinite : ∀ key ∈ twigs.map Twig.key, key.isFinite = true) :
    ∀ i < (twigs.map Twig.id).length,
      ChildAccepted state tableId (twigs.map Twig.id) ((twigs.map Twig.key).drop 1) i := by
  intro i hi
  rw [List.length_map] at hi
  have hget : ∀ j (hj : j < twigs.length), (twigs.map Twig.id).getD j 0 = twigs[j].id := by
    intro j hj
    rw [List.getD_eq_getElem _ _ (by simpa using hj), List.getElem_map]
  obtain ⟨hnode, hheight⟩ := hwalked _ (List.getElem_mem hi)
  unfold ChildAccepted
  rw [hget i hi]
  refine ⟨⟨hnode.color, hnode.owner⟩, fun h0 => ⟨?_, ?_, ?_⟩⟩
  · rw [hget 0 (by omega), hheight, (hwalked _ (List.getElem_mem (by omega))).2]
  · -- the last entry of the child before comes before the first of this one
    have hbefore : i - 1 < twigs.length := by omega
    rw [hget (i - 1) hbefore]
    have hentries : index.entriesOf (twigs.flatMap Twig.leaves) =
        twigs.flatMap fun child => index.entriesOf child.leaves := List.flatMap_assoc
    rw [hentries] at hordered
    have hpair := List.pairwise_iff_getElem.mp (List.pairwise_flatMap.mp hordered).2 (i - 1) i hbefore
      hi (by omega)
    exact hpair _ (List.mem_of_getLast? (hwalked _ (List.getElem_mem hbefore)).1.last) _
      (List.mem_of_mem_head? hnode.first)
  · have hkey := (htrees _ (List.getElem_mem hi)).key_eq hholds (hpos _ (List.getElem_mem hi))
    rw [hnode.first, Option.map_some, Option.some.injEq] at hkey
    have hsep : ((twigs.map Twig.key).drop 1).getD (i - 1) default = twigs[i].key := by
      rw [List.getD_eq_getElem?_getD, List.getElem?_drop, Nat.add_sub_cancel' h0, List.getElem?_map,
        List.getElem?_eq_getElem hi]
      rfl
    rw [hsep, hkey, Binary32.eq_iff_of_isFinite]
    · exact hfinite _ (List.mem_map_of_mem (List.getElem_mem hi))
    · exact hfinite _ (List.mem_map_of_mem (List.getElem_mem hi))

variable (tableId) in
include hpaged in
/-- A node whose children and keys are in order is opened. -/
theorem Paged.enter_group (hholds : index.Contains pages) {pageId : Nat} {group : List Twig}
    (hpage : pages[pageId]? = some (groupPage group)) (hpos : 0 < pageId)
    (hchildren : ∀ child ∈ group, 0 < child.id ∧ child.id < index.pageCount)
    (hfinite : ∀ key ∈ group.map Twig.key, key.isFinite = true)
    (hkeys : (group.map Twig.key).Pairwise fun a b => a.le b = true) (state : TreeState) :
    index.enterPage index.pageHeaders tableId state pageId = .ok (state.openPage tableId pageId,
      some (group.map Twig.id, (group.map Twig.key).drop 1)) := by
  have hheader := hholds.header _ _ hpos hpage
  have hkind : (index.pageHeaders pageId).kind = internalPage := by
    rw [hheader]
    rfl
  have hcount : (index.pageHeaders pageId).count = group.length := by
    rw [hheader]
    exact List.length_map _
  have hids : index.children pageId = group.map Twig.id := hholds.children _ _ hpos hpage rfl
  have hseparators : index.separators pageId = (group.map Twig.key).drop 1 :=
    hholds.separators _ _ hpos hpage rfl
  have hseparator : ∀ c < (index.pageHeaders pageId).count - 1,
      (group.map Twig.key)[c + 1]? = some (index.separatorAt pageId c) := by
    intro c hc
    have hget := congrArg (fun keys : List Binary32 => keys[c]?) hseparators
    simp only [separators, List.getElem?_map, List.getElem?_range hc, Option.map_some,
      List.getElem?_drop] at hget
    rw [List.getElem?_map, hget, Nat.add_comm 1 c]
  rw [← hids, ← hseparators]
  refine (hpaged.enterInternal_eq_ok hpos (hholds.range hpage) hkind).mpr
    ⟨fun c hc => ?_, fun c hc => ⟨?_, fun h0 => ?_⟩, rfl⟩
  · have hget := congrArg (fun ids : List Nat => ids[c]?) hids
    simp only [children, List.getElem?_map, List.getElem?_range hc, Option.map_some] at hget
    obtain ⟨child, hchild, heq⟩ := Option.map_eq_some_iff.mp hget.symm
    rw [← heq]
    exact hchildren child (List.mem_of_getElem? hchild)
  · exact hfinite _ (List.mem_of_getElem? (hseparator c hc))
  · have hbefore := hseparator (c - 1) (by omega)
    rw [Nat.sub_add_cancel h0] at hbefore
    obtain ⟨hlt, heq⟩ := List.getElem?_eq_some_iff.mp hbefore
    obtain ⟨hlt', heq'⟩ := List.getElem?_eq_some_iff.mp (hseparator c hc)
    rw [← heq, ← heq']
    exact List.pairwise_iff_getElem.mp hkeys _ _ hlt hlt' (Nat.lt_succ_self c)

/-- A page that is closed over walked children is colored with them. -/
theorem Colored.close {nodes : List Nat} {pageId height : Nat} {first last : Entry} {s s' : TreeState}
    (h : Colored nodes (s.openPage tableId pageId) s') :
    Colored (pageId :: nodes) s (s'.close pageId height first last) where
  closed node hnode := by
    by_cases heq : node = pageId
    · rw [heq]
      exact setAt_same _ _ _
    · refine (setAt_other _ _ heq).trans (h.closed node ?_)
      exact (List.mem_cons.mp hnode).resolve_left heq
  other node hnode := by
    rw [List.mem_cons, not_or] at hnode
    refine (setAt_other _ _ hnode.1).trans ((h.other node hnode.2).trans ?_)
    exact setAt_other _ _ hnode.1

include hpaged in
/-- A tree of pages is walked from its root. -/
theorem Paged.explored_tree (hholds : index.Contains pages) {height : Nat} :
    ∀ {twig : Twig} {state : TreeState}, PageTree pages capacity height twig →
    (∀ node ∈ twig.nodes, 0 < node) → (∀ node ∈ twig.nodes, state.color node = 0) →
    twig.nodes.Nodup → index.Walkable tableId state.marks twig.leaves →
    ∃ state', index.Explorable tableId height twig state state' := by
  induction height with
  | zero =>
      rintro twig state ⟨hleaves, hnodes, page, hpage, hkind, -⟩ hpos hnew _ hwalkable
      have hid : twig.id ∈ twig.nodes := by
        rw [hnodes]
        exact List.mem_singleton_self _
      rw [hleaves] at hwalkable
      obtain ⟨state', hexplored⟩ := hpaged.explored_leaf (hpos _ hid) (hholds.range hpage)
        (by rw [hholds.header _ _ (hpos _ hid) hpage, hkind]) (hnew _ hid) hwalkable
      exact ⟨state', by rw [Explorable, hleaves, hnodes]; exact hexplored⟩
  | succ height ih =>
      rintro twig state ⟨twigs, hpage, hsize, hleaves, hnodes, -, htwigs⟩ hpos hnew hnodup hwalkable
      rw [hnodes] at hpos hnew hnodup
      rw [hleaves] at hwalkable
      obtain ⟨hroot, hnodup⟩ := List.nodup_cons.mp hnodup
      obtain ⟨hid, hpos⟩ := List.forall_mem_cons.mp hpos
      obtain ⟨hfresh, hnew⟩ := List.forall_mem_cons.mp hnew
      have hchildPos : ∀ child ∈ twigs, ∀ node ∈ child.nodes, 0 < node := fun child hchild node hnode =>
        hpos node (List.mem_flatMap.mpr ⟨child, hchild, hnode⟩)
      obtain ⟨hfinite, hkeys⟩ := keys_ordered hholds htwigs hchildPos
        (fun e he => (hwalkable.valid e he).1) hwalkable.ordered
      have henter := hpaged.enter_group tableId hholds hpage hid (fun child hchild =>
        ⟨hchildPos child hchild _ (htwigs child hchild).id_mem, (htwigs child hchild).range hholds⟩)
        hfinite hkeys state
      have hopened : ∀ node ∈ twigs.flatMap Twig.nodes,
          (state.openPage tableId twig.id).color node = 0 := by
        intro node hnode
        have hne : node ≠ twig.id := fun heq => hroot (heq ▸ hnode)
        exact (setAt_other _ _ hne).trans (hnew node hnode)
      obtain ⟨s₁, hall, hcolored, hwalked⟩ := hpaged.explored_children
        (fun child hchild => ⟨(htwigs child hchild).leaves_ne, (htwigs child hchild).id_mem,
          fun s hs hw => ih (htwigs child hchild) (hchildPos child hchild) hs
            ((List.nodup_flatMap.mp hnodup).1 child hchild) hw⟩) hopened hnodup hwalkable
      have haccepted := children_accepted hholds htwigs hchildPos hwalked hwalkable.ordered hfinite
      have hne : twigs.map Twig.id ≠ [] := by
        rw [Ne, List.map_eq_nil_iff, ← List.length_eq_zero_iff]
        omega
      have hleave : finishPage tableId s₁ twig.id (twigs.map Twig.id) ((twigs.map Twig.key).drop 1) =
          .ok _ := (finishPage_eq_ok hne).mpr ⟨haccepted, rfl⟩
      refine ⟨_, ⟨by simpa [treeWalk] using hfresh, Or.inr ⟨_, _, _, s₁, henter, ?_, hleave⟩⟩, ?_, ?_⟩
      · rw [hleaves]
        exact hall
      · obtain ⟨child, rest, rfl⟩ := List.exists_cons_of_length_pos (show 0 < twigs.length by omega)
        refine (setAt_same _ _ _).trans ?_
        exact congrArg (· + 1) (hwalked child List.mem_cons_self).2
      · rw [hnodes]
        exact hcolored.close

end Walk

/-! ## The tables of a build -/

/-- The index holds the pages of these tables; the pages of a table start at its cut. -/
structure TreesIn (index : BPlusTreeIndex) (pages : List Page) (leafCapacity internalCapacity : Nat)
    (tables : List (SortedTable index.metadata.numPoints)) (cut : Nat → Nat) : Prop where
  paged : index.Paged
  holds : index.Contains pages
  roots : index.roots.length = tables.length
  start : cut 0 = 1
  stop : cut tables.length = pages.length
  room : 0 < leafCapacity
  points : 0 < index.metadata.numPoints
  trees : ∀ (t : Nat) (ht : t < tables.length), TableIn leafCapacity internalCapacity pages
    (tables.get ⟨t, ht⟩).entries (index.roots.getD t 0) (cut t) (cut (t + 1))

section Trees

variable {leafCapacity internalCapacity : Nat} {tables : List (SortedTable index.metadata.numPoints)}
  {cut : Nat → Nat}

/-- The leaves of the table whose pages start at a cut. -/
def leavesAt (index : BPlusTreeIndex) (leafCapacity start : Nat) : List Nat :=
  List.range' start (groupCount index.metadata.numPoints leafCapacity)

/-- What the index reads of a leaf. -/
structure LeafAt (index : BPlusTreeIndex) (leafCapacity start i : Nat) (entries : List Entry) : Prop where
  kind : (index.pageHeaders (start + i)).kind = leafPage
  entries : index.leafEntries (start + i) = (entries.drop (i * leafCapacity)).take leafCapacity
  previous : (index.pageHeaders (start + i)).previous = if i = 0 then 0 else start + i - 1
  next : (index.pageHeaders (start + i)).next =
    if i + 1 < groupCount index.metadata.numPoints leafCapacity then start + i + 1 else 0

variable (h : index.TreesIn pages leafCapacity internalCapacity tables cut)

include h in
theorem TreesIn.cut_mono {s t : Nat} (hst : s ≤ t) (ht : t ≤ tables.length) : cut s ≤ cut t := by
  induction hst with
  | refl => exact le_rfl
  | step hst ih => exact (ih (by omega)).trans (h.trees _ (by omega)).ordered

include h in
theorem TreesIn.cut_pos {t : Nat} (ht : t ≤ tables.length) : 0 < cut t := by
  have hmono := h.cut_mono (Nat.zero_le t) ht
  rw [h.start] at hmono
  exact hmono

include h in
theorem TreesIn.leafAt {t : Nat} (ht : t < tables.length) {i : Nat}
    (hi : i < groupCount index.metadata.numPoints leafCapacity) :
    index.LeafAt leafCapacity (cut t) i (tables.get ⟨t, ht⟩).entries := by
  have htable := h.trees t ht
  have hcount : (leafRuns leafCapacity (tables.get ⟨t, ht⟩).entries).length =
      groupCount index.metadata.numPoints leafCapacity := by
    rw [length_leafRuns, SortedTable.length_entries]
  have hpage := htable.leaves i (hcount.symm ▸ hi)
  rw [getElem?_leafRuns (hcount.symm ▸ hi), hcount, Option.map_some] at hpage
  have hpos : 0 < cut t + i := Nat.add_pos_left (h.cut_pos ht.le) i
  have hheader := h.holds.header _ _ hpos hpage
  exact ⟨by rw [hheader]; rfl, h.holds.entries _ _ hpos hpage rfl, by rw [hheader]; rfl,
    by rw [hheader]; rfl⟩

include h in
/-- The leaves of a table hold its entries. -/
theorem TreesIn.entriesOf_leavesAt {t : Nat} (ht : t < tables.length) :
    index.entriesOf (index.leavesAt leafCapacity (cut t)) = (tables.get ⟨t, ht⟩).entries := by
  have hleaves : index.entriesOf (index.leavesAt leafCapacity (cut t)) =
      (leafRuns leafCapacity (tables.get ⟨t, ht⟩).entries).flatten := by
    rw [entriesOf, leavesAt, List.flatMap_def]
    refine congrArg List.flatten (List.ext_getElem ?_ fun i hi hi' => ?_)
    · rw [length_leafRuns, SortedTable.length_entries]
      simp
    · have hi : i < groupCount index.metadata.numPoints leafCapacity := by simpa using hi
      have hrun := getElem?_leafRuns hi'
      rw [List.getElem?_eq_getElem hi', Option.some.injEq] at hrun
      rw [List.getElem_map, List.getElem_range', Nat.one_mul, (h.leafAt ht hi).entries, hrun]
  rw [hleaves, flatten_leafRuns h.room]

include h in
theorem TreesIn.walkable {t : Nat} (ht : t < tables.length) {marks : LeafMarks}
    (hmarks : ∀ id, marks.pointMarks id ≤ t) (hfirst : marks.tableFirstLeaf t = 0) :
    index.Walkable t marks (index.leavesAt leafCapacity (cut t)) := by
  have hentries := h.entriesOf_leavesAt ht
  have hids := (tables.get ⟨t, ht⟩).ids
  refine ⟨fun e he => ?_, ?_, ?_, fun e _ => (Nat.lt_succ_of_le (hmarks _)).ne, ?_, fun _ => hfirst⟩
  · rw [hentries] at he
    refine ⟨(tables.get ⟨t, ht⟩).finite e he, ?_⟩
    exact List.mem_range.mp (hids.mem_iff.mp (List.mem_map_of_mem he))
  · rw [hentries]
    exact (tables.get ⟨t, ht⟩).ordered
  · rw [hentries]
    exact hids.nodup_iff.mpr List.nodup_range
  · rw [leavesAt, List.pairwise_iff_getElem]
    intro i j hi hj hij
    have hj : j < groupCount index.metadata.numPoints leafCapacity := by simpa using hj
    have hpos := h.cut_pos ht.le
    rw [List.getElem_range', Nat.one_mul, (h.leafAt ht hj).previous, if_neg (by omega)]
    omega

/-- What holds after the walks of the first `count` tables of a build. -/
structure BuiltWalked (index : BPlusTreeIndex) (leafCapacity : Nat) (cut : Nat → Nat) (count : Nat)
    (state : TreeState) : Prop where
  walked : index.TreesWalked count state
  tables : ∀ t < count, index.TableWalked t state (index.leavesAt leafCapacity (cut t))
  first : ∀ t < count, state.marks.tableFirstLeaf t = cut t
  closed : ∀ pageId, 0 < pageId → pageId < cut count →
    state.color pageId = 2 ∧ state.firstKeyKnown pageId = true
  fresh : ∀ pageId, cut count ≤ pageId → state.color pageId = 0

include h in
/-- The next tree is walked. -/
theorem TreesIn.checkTree_ok {t : Nat} (ht : t < tables.length) {state : TreeState}
    (hstate : index.BuiltWalked leafCapacity cut t state) :
    ∃ state', index.checkTree index.pageHeaders state t = .ok state' ∧
      index.BuiltWalked leafCapacity cut (t + 1) state' := by
  have htable := h.trees t ht
  obtain ⟨height, twig, htree, hroot, hleaves, hnodes⟩ := htable.tree
  have hcount : (leafRuns leafCapacity (tables.get ⟨t, ht⟩).entries).length =
      groupCount index.metadata.numPoints leafCapacity := by
    rw [length_leafRuns, SortedTable.length_entries]
  have hleaves : twig.leaves = index.leavesAt leafCapacity (cut t) := by rw [hleaves, hcount]; rfl
  have hpos := h.cut_pos ht.le
  have hordered := htable.ordered
  have hmem : ∀ node, node ∈ twig.nodes ↔ cut t ≤ node ∧ node < cut (t + 1) := by
    intro node
    rw [hnodes.mem_iff, List.mem_range'_1]
    omega
  obtain ⟨hentries, -, hfirst⟩ := hstate.walked.untouched t le_rfl
  obtain ⟨state', hexplored, -, hcolored⟩ := h.paged.explored_tree h.holds htree
    (fun node hnode => hpos.trans_le ((hmem node).mp hnode).1)
    (fun node hnode => hstate.fresh node ((hmem node).mp hnode).1)
    (hnodes.nodup_iff.mpr (List.nodup_range' 1)) (hleaves ▸ h.walkable ht hstate.walked.marked hfirst)
  rw [hroot, hleaves] at hexplored
  obtain ⟨hgrown, hnode⟩ := h.paged.walked_of_explored _ hexplored
  have htotal : state'.marks.leafEntryCounts t = index.metadata.numPoints := by
    rw [hgrown.marks.entryCounts, setAt_same, hentries, Nat.zero_add, h.entriesOf_leavesAt ht,
      SortedTable.length_entries]
  have hsome : 0 < groupCount index.metadata.numPoints leafCapacity :=
    groupCount_pos h.points h.room
  have hwalked := hstate.walked.walked hgrown hnode htotal
  refine ⟨state', ?_, hstate.walked.step hgrown hnode htotal, fun s hs => ?_, fun s hs => ?_,
    fun pageId hpage hlt => ?_, fun pageId hle => ?_⟩
  · unfold checkTree
    rw [Explorer.run_of_explored [] hexplored, Explorer.run_nil, except_ok_bind, require_of htotal]
    rfl
  · rcases Nat.lt_succ_iff_lt_or_eq.mp hs with hlt | rfl
    · exact (hstate.tables s hlt).grown (by omega) hgrown
    · exact hwalked
  · rcases Nat.lt_succ_iff_lt_or_eq.mp hs with hlt | rfl
    · rw [hgrown.marks.otherFirst s (by omega), hstate.first s hlt]
    · -- only the leaf at the cut has no left neighbour
      have h0 := (h.leafAt ht hsome).previous
      obtain ⟨leaf, hleaf, hprevious, heq⟩ := hgrown.marks.someFirst
        ⟨cut s + 0, List.mem_range'_1.mpr (by omega), by rw [h0, if_pos rfl]⟩
      obtain ⟨i, hi, rfl⟩ := List.mem_range'.mp hleaf
      rw [Nat.one_mul] at hprevious heq
      rw [(h.leafAt ht hi).previous] at hprevious
      rw [heq]
      split at hprevious <;> omega
  · rcases Nat.lt_or_ge pageId (cut t) with hold | hnew
    · obtain ⟨hcolor, hknown⟩ := hstate.closed pageId hpage hold
      have hsame := hgrown.frame pageId (by rw [hcolor]; decide)
      exact ⟨hsame.color.trans hcolor, hsame.known.trans hknown⟩
    · have hclosed := hcolored.closed pageId ((hmem pageId).mpr ⟨hnew, hlt⟩)
      obtain ⟨-, -, hknown, -⟩ := hgrown.new pageId (hstate.fresh pageId hnew) (by rw [hclosed]; decide)
      exact ⟨hclosed, hknown⟩
  · rw [hcolored.other pageId fun hnode => by have := (hmem pageId).mp hnode; omega]
    exact hstate.fresh pageId (by omega)

include h in
theorem TreesIn.checkTrees_ok : ∃ state, index.checkTrees index.pageHeaders = .ok state ∧
    index.BuiltWalked leafCapacity cut tables.length state := by
  unfold checkTrees
  rw [h.roots]
  refine foldlM_range_ok (P := index.BuiltWalked leafCapacity cut)
    ⟨blankState_walked, fun t ht => absurd ht (Nat.not_lt_zero t),
      fun t ht => absurd ht (Nat.not_lt_zero t), fun pageId hpos hlt => ?_, fun _ _ => rfl⟩
    fun t state ht hstate => h.checkTree_ok ht hstate
  rw [h.start] at hlt
  omega

/-! ## Links and chains -/

variable {state : TreeState} (hstate : index.BuiltWalked leafCapacity cut tables.length state)

include h hstate in
theorem TreesIn.checkLinks_ok {pageId : Nat} (hpos : 0 < pageId) (hlt : pageId < index.pageCount) :
    checkLinks index.pageHeaders state pageId = .ok () := by
  rw [h.holds.count, ← h.stop] at hlt
  obtain ⟨hcolor, hknown⟩ := hstate.closed pageId hpos hlt
  unfold checkLinks
  rw [require_of ⟨hcolor, hknown⟩, except_ok_bind]
  by_cases hkind : (index.pageHeaders pageId).kind = leafPage
  · rw [if_pos hkind]
    obtain ⟨t, ht, howner⟩ := hstate.walked.owner pageId (by rw [hcolor]; decide)
    have hwalked := hstate.tables t ht
    obtain ⟨i, hi, heq⟩ := List.mem_range'.mp
      (hwalked.owned pageId (by rw [hcolor]; decide) howner hkind)
    rw [Nat.one_mul] at heq
    have hstart := h.cut_pos ht.le
    -- a neighbour is a leaf of the same table
    have hneighbour : ∀ j < groupCount index.metadata.numPoints leafCapacity,
        state.owner (cut t + j) = state.owner pageId := by
      intro j hj
      have hmem : cut t + j ∈ index.leavesAt leafCapacity (cut t) :=
        List.mem_range'.mpr ⟨j, hj, by rw [Nat.one_mul]⟩
      rw [(hwalked.leaf _ hmem).1.owner, howner]
    have hprevious : checkLink index.pageHeaders state PageHeader.next
        "QALSH leaf previous link is not reciprocal" pageId (index.pageHeaders pageId).previous =
          .ok () := by
      have hlink := (h.leafAt ht hi).previous
      rw [← heq] at hlink
      unfold checkLink
      by_cases h0 : i = 0
      · rw [hlink, if_pos h0, if_pos rfl]
      · have hj : i - 1 < groupCount index.metadata.numPoints leafCapacity := by omega
        have hback := h.leafAt ht hj
        have hprev : (index.pageHeaders pageId).previous = cut t + (i - 1) := by
          rw [hlink, if_neg h0]
          omega
        have hnext := hback.next
        rw [if_pos (by omega)] at hnext
        rw [hprev, if_neg (by omega), require_of ⟨hback.kind, by rw [hnext]; omega⟩, except_ok_bind,
          require_of (hneighbour _ hj)]
    have hnext : checkLink index.pageHeaders state PageHeader.previous
        "QALSH leaf next link is not reciprocal" pageId (index.pageHeaders pageId).next = .ok () := by
      have hlink := (h.leafAt ht hi).next
      rw [← heq] at hlink
      unfold checkLink
      by_cases hlast : i + 1 < groupCount index.metadata.numPoints leafCapacity
      · have hback := h.leafAt ht hlast
        have hnext : (index.pageHeaders pageId).next = cut t + (i + 1) := by
          rw [hlink, if_pos hlast]
          omega
        have hprevious := hback.previous
        rw [if_neg (by omega)] at hprevious
        rw [hnext, if_neg (by omega), require_of ⟨hback.kind, by rw [hprevious]; omega⟩,
          except_ok_bind, require_of (hneighbour _ hlast)]
      · rw [hlink, if_neg hlast, if_pos rfl]
    unfold checkLeafLinks
    rw [hprevious, except_ok_bind, hnext]
  · rw [if_neg hkind]
    rfl

/-- The ranks before the chain of a table: its leaves have none yet. -/
def Unranked (start : Nat) (ranks : Nat → Nat) : Prop := ∀ pageId, start ≤ pageId → ranks pageId = uint64Max

include h hstate in
/-- The chain from the leaf at position `i` on. -/
theorem TreesIn.walkChain_ok {t : Nat} (ht : t < tables.length) : ∀ (steps i : Nat)
    (previous : Option Entry) (ranks : Nat → Nat),
    i + steps = groupCount index.metadata.numPoints leafCapacity →
    (∀ last ∈ previous, 0 < i ∧ last = state.last (cut t + (i - 1))) →
    Unranked (cut t + i) ranks →
    ∃ ranks', walkChain index.pageCount index.pageHeaders state t steps
        (if 0 < steps then cut t + i else 0) i previous ranks =
          .ok (groupCount index.metadata.numPoints leafCapacity, ranks') ∧
      Unranked (cut t + groupCount index.metadata.numPoints leafCapacity) ranks' := by
  have hwalked := hstate.tables t ht
  have hstart := h.cut_pos ht.le
  have hleafNode : ∀ j < groupCount index.metadata.numPoints leafCapacity,
      index.NodeAt t state (cut t + j) [cut t + j] ∧
        (index.pageHeaders (cut t + j)).kind = leafPage := fun j hj =>
    hwalked.leaf _ (List.mem_range'.mpr ⟨j, hj, by rw [Nat.one_mul]⟩)
  intro steps
  induction steps with
  | zero =>
      intro i previous ranks hi _ hranks
      rw [if_neg (Nat.lt_irrefl 0), walkChain, if_pos rfl]
      exact ⟨ranks, by rw [← hi]; rfl, hi ▸ hranks⟩
  | succ steps ih =>
      intro i previous ranks hi hprevious hranks
      have hlt : i < groupCount index.metadata.numPoints leafCapacity := by omega
      obtain ⟨hnode, hkind⟩ := hleafNode i hlt
      have hrange := hnode.tree.range
      have hsorted : ∀ last ∈ previous, keyLess last (state.first (cut t + i)) = true := by
        intro last hlast
        obtain ⟨hpos, rfl⟩ := hprevious last hlast
        obtain ⟨hbefore, -⟩ := hleafNode (i - 1) (by omega)
        -- the entries of the two leaves are in order in the table
        have hordered := List.isChain_iff_pairwise.mp hwalked.node.ordered
        have hsplit := List.pairwise_iff_getElem.mp (List.pairwise_flatMap.mp hordered).2 (i - 1) i
          (by simp [leavesAt]; omega) (by simpa [leavesAt] using hlt) (by omega)
        simp only [leavesAt, List.getElem_range', Nat.one_mul] at hsplit
        have hl := hbefore.last
        have hf := hnode.first
        rw [entriesOf_singleton] at hl hf
        exact hsplit _ (List.mem_of_getLast? hl) _ (List.mem_of_mem_head? hf)
      have hnext : (index.pageHeaders (cut t + i)).next = if 0 < steps then cut t + (i + 1) else 0 := by
        rw [(h.leafAt ht hlt).next]
        split <;> split <;> omega
      obtain ⟨ranks', hchain, hranks'⟩ := ih (i + 1) (some (state.last (cut t + i)))
        (setAt ranks (cut t + i) i) (by omega)
        (fun last hlast => ⟨Nat.succ_pos i, by cases hlast; rw [Nat.add_sub_cancel]⟩)
        (fun pageId hle => (setAt_other _ _ (by omega)).trans (hranks pageId (by omega)))
      refine ⟨ranks', ?_, hranks'⟩
      rw [if_pos (Nat.succ_pos steps), walkChain, if_neg (by omega), require_of hrange.2, except_ok_bind,
        require_of ⟨hkind, hnode.owner⟩, except_ok_bind, require_of hsorted, except_ok_bind,
        require_of (hranks _ le_rfl), except_ok_bind, hnext, hchain]

include h hstate in
theorem TreesIn.checkChain_ok {t : Nat} (ht : t < tables.length) {ranks : Nat → Nat}
    (hranks : Unranked (cut t) ranks) :
    ∃ ranks', index.checkChain index.pageHeaders state ranks t = .ok ranks' ∧
      Unranked (cut (t + 1)) ranks' := by
  have hwalked := hstate.tables t ht
  have hstart := h.cut_pos ht.le
  have hfirst := hstate.first t ht
  have hsome : 0 < groupCount index.metadata.numPoints leafCapacity :=
    groupCount_pos h.points h.room
  have hcount : state.marks.tableLeafCount t = groupCount index.metadata.numPoints leafCapacity := by
    rw [hwalked.leafCount]
    simp [leavesAt]
  obtain ⟨ranks', hchain, hranks'⟩ := h.walkChain_ok hstate ht
    (groupCount index.metadata.numPoints leafCapacity) 0 none ranks (Nat.zero_add _)
    (fun last hlast => by cases hlast) hranks
  rw [if_pos hsome, Nat.add_zero] at hchain
  refine ⟨ranks', ?_, fun pageId hle => hranks' pageId ?_⟩
  · unfold checkChain
    rw [hfirst, require_of (by omega), except_ok_bind, hcount, hchain, except_ok_bind]
    dsimp only
    rw [require_of rfl]
    rfl
  · -- the leaves of a table are some of its pages
    obtain ⟨height, twig, htree, -, hleaves, hnodes⟩ := (h.trees t ht).tree
    have hlast : cut t + (groupCount index.metadata.numPoints leafCapacity - 1) ∈ twig.leaves := by
      rw [hleaves, length_leafRuns, SortedTable.length_entries]
      exact List.mem_range'_1.mpr (by omega)
    have hin := hnodes.mem_iff.mp (htree.leaves_subset hlast)
    rw [List.mem_range'_1] at hin
    have hordered := (h.trees t ht).ordered
    omega

end Trees

end Qalsh.BPlusTreeIndex
