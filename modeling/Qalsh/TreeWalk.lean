/-
  TreeWalk.lean --- what the walk of a tree has found when it succeeds.

  `Subtree` is the shape of a tree of uniform height with its leaves from left to
  right, `NodeAt` what the walk records of a node, and `Grown` how the state has
  changed.  One induction on the exploration establishes all three.
-/
import Mathlib
import Qalsh.TreeSpec

set_option autoImplicit false

namespace Qalsh

open Foundation

theorem forall₂_getD {α β : Type} {r : α → β → Prop} {xs : List α} {ys : List β}
    (h : List.Forall₂ r xs ys) {i : Nat} (hi : i < xs.length) (a : α) (b : β) :
    r (xs.getD i a) (ys.getD i b) := by
  have hlen := h.length_eq
  rw [List.getD_eq_getElem _ _ hi, List.getD_eq_getElem _ _ (by omega)]
  exact h.get hi (by omega)

/-- The order of entries is transitive, so neighbours in order suffice. -/
instance : Trans (fun a b : Entry => keyLess a b = true) (fun a b => keyLess a b = true)
    (fun a b => keyLess a b = true) := ⟨keyLess_trans⟩

namespace BPlusTreeIndex

/-! ## Shape -/

/-- The entries of some leaves, from left to right. -/
def entriesOf (index : BPlusTreeIndex) (leaves : List Nat) : List Entry :=
  leaves.flatMap index.leafEntries

/-- A tree of uniform height: a leaf, or an internal page over trees one lower whose
separators are the first keys of the trees after the first. -/
def Subtree (index : BPlusTreeIndex) : (height pageId : Nat) → List Nat → Prop
  | 0, pageId, leaves => leaves = [pageId] ∧ 0 < pageId ∧ pageId < index.pageCount ∧
      (index.pageHeaders pageId).kind = leafPage
  | height + 1, pageId, leaves => (0 < pageId ∧ pageId < index.pageCount ∧
      (index.pageHeaders pageId).kind = internalPage) ∧
      ∃ parts : List (List Nat), leaves = parts.flatten ∧
        List.Forall₂ (Subtree index height) (index.children pageId) parts ∧
        (∀ c < (index.pageHeaders pageId).count - 1,
          (index.separatorAt pageId c).isFinite = true ∧
          (0 < c → (index.separatorAt pageId (c - 1)).le (index.separatorAt pageId c) = true)) ∧
        ∀ c, c + 1 < (index.pageHeaders pageId).count → ∃ e,
          (index.entriesOf (parts.getD (c + 1) [])).head? = some e ∧
          (index.separatorAt pageId c).eq e.value = true

variable {index : BPlusTreeIndex} {tableId : Nat}

theorem entriesOf_singleton (leaf : Nat) : index.entriesOf [leaf] = index.leafEntries leaf := by
  simp [entriesOf]

theorem entriesOf_append (leaves leaves' : List Nat) :
    index.entriesOf (leaves ++ leaves') = index.entriesOf leaves ++ index.entriesOf leaves' := by
  simp [entriesOf]

theorem entriesOf_flatten (parts : List (List Nat)) :
    index.entriesOf parts.flatten = (parts.map index.entriesOf).flatten := by
  induction parts with
  | nil => rfl
  | cons part parts ih =>
      rw [List.flatten_cons, entriesOf_append, ih, List.map_cons, List.flatten_cons]

theorem Subtree.range {height pageId : Nat} {leaves : List Nat}
    (h : index.Subtree height pageId leaves) : 0 < pageId ∧ pageId < index.pageCount := by
  cases height with
  | zero => exact ⟨h.2.1, h.2.2.1⟩
  | succ height => exact ⟨h.1.1, h.1.2.1⟩

/-- The leaves of a tree are leaf pages. -/
theorem Subtree.leaves {height : Nat} : ∀ {pageId : Nat} {leaves : List Nat},
    index.Subtree height pageId leaves → ∀ leaf ∈ leaves, 0 < leaf ∧ leaf < index.pageCount ∧
      (index.pageHeaders leaf).kind = leafPage := by
  induction height with
  | zero =>
      rintro pageId leaves ⟨rfl, hpos, hlt, hkind⟩ leaf hmem
      rw [List.mem_singleton] at hmem
      rw [hmem]
      exact ⟨hpos, hlt, hkind⟩
  | succ height ih =>
      rintro pageId leaves ⟨-, parts, rfl, hparts, -⟩ leaf hmem
      obtain ⟨part, hpart, hmem⟩ := List.mem_flatten.mp hmem
      obtain ⟨i, hi, rfl⟩ := List.getElem_of_mem hpart
      have hi' : i < (index.children pageId).length := by rw [hparts.length_eq]; exact hi
      exact ih (hparts.get hi' hi) leaf hmem

/-- A tree has more leaves than its height. -/
theorem Subtree.height_lt (hpaged : index.Paged) {height : Nat} :
    ∀ {pageId : Nat} {leaves : List Nat},
      index.Subtree height pageId leaves → height < leaves.length := by
  induction height with
  | zero =>
      rintro pageId leaves ⟨rfl, -⟩
      exact Nat.one_pos
  | succ height ih =>
      rintro pageId leaves ⟨⟨hpos, hlt, hkind⟩, parts, rfl, hparts, -⟩
      have hcount := ((hpaged.pages _ hpos hlt).internal hkind).1
      have hlen := hparts.length_eq
      rw [length_children] at hlen
      obtain ⟨a, b, rest, rfl⟩ : ∃ a b rest, parts = a :: b :: rest := by
        cases parts with
        | nil => simp at hlen; omega
        | cons a rest =>
            cases rest with
            | nil => simp at hlen; omega
            | cons b rest => exact ⟨a, b, rest, rfl⟩
      have h0 := ih (hparts.get (i := 0) (by rw [length_children]; omega) (by simp))
      have h1 := ih (hparts.get (i := 1) (by rw [length_children]; omega) (by simp))
      simp only [List.get_eq_getElem, List.getElem_cons_zero, List.getElem_cons_succ] at h0 h1
      simp only [List.flatten_cons, List.length_append]
      omega

/-! ## What the walk records -/

/-- What the state says of a closed page and the leaves below it. -/
structure NodeAt (index : BPlusTreeIndex) (tableId : Nat) (state : TreeState) (pageId : Nat)
    (leaves : List Nat) : Prop where
  color : state.color pageId = 2
  owner : state.owner pageId = some tableId
  first : (index.entriesOf leaves).head? = some (state.first pageId)
  last : (index.entriesOf leaves).getLast? = some (state.last pageId)
  ordered : (index.entriesOf leaves).IsChain fun a b => keyLess a b = true
  tree : index.Subtree (state.heights pageId) pageId leaves

/-- Two states agree on a page. -/
structure SameAt (state state' : TreeState) (pageId : Nat) : Prop where
  color : state'.color pageId = state.color pageId
  owner : state'.owner pageId = state.owner pageId
  heights : state'.heights pageId = state.heights pageId
  first : state'.first pageId = state.first pageId
  last : state'.last pageId = state.last pageId
  known : state'.firstKeyKnown pageId = state.firstKeyKnown pageId

theorem SameAt.trans {s s' s'' : TreeState} {pageId : Nat} (h : SameAt s s' pageId)
    (h' : SameAt s' s'' pageId) : SameAt s s'' pageId :=
  ⟨h'.color.trans h.color, h'.owner.trans h.owner, h'.heights.trans h.heights,
    h'.first.trans h.first, h'.last.trans h.last, h'.known.trans h.known⟩

theorem NodeAt.same {state state' : TreeState} {pageId : Nat} {leaves : List Nat}
    (h : index.NodeAt tableId state pageId leaves) (hsame : SameAt state state' pageId) :
    index.NodeAt tableId state' pageId leaves :=
  ⟨hsame.color.trans h.color, hsame.owner.trans h.owner, by rw [hsame.first]; exact h.first,
    by rw [hsame.last]; exact h.last, h.ordered, by rw [hsame.heights]; exact h.tree⟩

/-- How visiting some leaves changes the marks. -/
structure MarkedBy (index : BPlusTreeIndex) (tableId : Nat) (leaves : List Nat)
    (marks marks' : LeafMarks) : Prop where
  valid : ∀ e ∈ index.entriesOf leaves,
    e.value.isFinite = true ∧ e.pointId < index.metadata.numPoints
  distinct : ((index.entriesOf leaves).map Entry.pointId).Nodup
  unmarked : ∀ e ∈ index.entriesOf leaves, marks.pointMarks e.pointId ≠ tableId + 1
  pointMarks : ∀ id, marks'.pointMarks id =
    if id ∈ (index.entriesOf leaves).map Entry.pointId then tableId + 1 else marks.pointMarks id
  entryCounts : marks'.leafEntryCounts = setAt marks.leafEntryCounts tableId
    (marks.leafEntryCounts tableId + (index.entriesOf leaves).length)
  leafCounts : marks'.tableLeafCount = setAt marks.tableLeafCount tableId
    (marks.tableLeafCount tableId + leaves.length)
  otherFirst : ∀ other, other ≠ tableId →
    marks'.tableFirstLeaf other = marks.tableFirstLeaf other
  noFirst : (∀ leaf ∈ leaves, (index.pageHeaders leaf).previous ≠ 0) →
    marks'.tableFirstLeaf tableId = marks.tableFirstLeaf tableId
  someFirst : (∃ leaf ∈ leaves, (index.pageHeaders leaf).previous = 0) →
    ∃ leaf ∈ leaves, (index.pageHeaders leaf).previous = 0 ∧
      marks'.tableFirstLeaf tableId = leaf

theorem MarkedBy.refl (marks : LeafMarks) : index.MarkedBy tableId [] marks marks where
  valid e he := by simp [entriesOf] at he
  distinct := by simp [entriesOf]
  unmarked e he := by simp [entriesOf] at he
  pointMarks id := by simp [entriesOf]
  entryCounts := by
    funext other
    by_cases h : other = tableId
    · simp [h, entriesOf]
    · simp [setAt_other _ _ h]
  leafCounts := by
    funext other
    by_cases h : other = tableId
    · simp [h]
    · simp [setAt_other _ _ h]
  otherFirst _ _ := rfl
  noFirst _ := rfl
  someFirst h := by simp at h

theorem setAt_setAt {α : Type} (marks : Nat → α) (i : Nat) (a b : α) :
    setAt (setAt marks i a) i b = setAt marks i b := by
  funext j
  unfold setAt
  split <;> rfl

theorem MarkedBy.trans {leaves leaves' : List Nat} {m m' m'' : LeafMarks}
    (h : index.MarkedBy tableId leaves m m') (h' : index.MarkedBy tableId leaves' m' m'') :
    index.MarkedBy tableId (leaves ++ leaves') m m'' where
  valid e he := by
    rw [entriesOf_append, List.mem_append] at he
    exact he.elim (h.valid e) (h'.valid e)
  distinct := by
    rw [entriesOf_append, List.map_append, List.nodup_append]
    refine ⟨h.distinct, h'.distinct, fun a ha b hb heq => ?_⟩
    subst heq
    obtain ⟨e, he, rfl⟩ := List.mem_map.mp hb
    have := h'.unmarked e he
    rw [h.pointMarks, if_pos ha] at this
    exact this rfl
  unmarked e he := by
    rw [entriesOf_append, List.mem_append] at he
    rcases he with he | he
    · exact h.unmarked e he
    · have := h'.unmarked e he
      rw [h.pointMarks] at this
      by_cases hmem : e.pointId ∈ (index.entriesOf leaves).map Entry.pointId
      · rw [if_pos hmem] at this
        exact absurd rfl this
      · rwa [if_neg hmem] at this
  pointMarks id := by
    rw [h'.pointMarks, h.pointMarks, entriesOf_append, List.map_append]
    by_cases h₁ : id ∈ (index.entriesOf leaves').map Entry.pointId
    · simp only [h₁, if_true, List.mem_append, or_true]
    · by_cases h₂ : id ∈ (index.entriesOf leaves).map Entry.pointId
      · simp only [h₁, h₂, if_true, if_false, List.mem_append, true_or]
      · simp only [h₁, h₂, if_false, List.mem_append, or_self]
  entryCounts := by
    rw [h'.entryCounts, h.entryCounts, setAt_same, setAt_setAt, entriesOf_append,
      List.length_append, Nat.add_assoc]
  leafCounts := by
    rw [h'.leafCounts, h.leafCounts, setAt_same, setAt_setAt, List.length_append, Nat.add_assoc]
  otherFirst other ho := (h'.otherFirst other ho).trans (h.otherFirst other ho)
  noFirst hall := by
    rw [h'.noFirst fun leaf hl => hall leaf (List.mem_append_right _ hl),
      h.noFirst fun leaf hl => hall leaf (List.mem_append_left _ hl)]
  someFirst hsome := by
    by_cases hlater : ∃ leaf ∈ leaves', (index.pageHeaders leaf).previous = 0
    · obtain ⟨leaf, hl, hprev, heq⟩ := h'.someFirst hlater
      exact ⟨leaf, List.mem_append_right _ hl, hprev, heq⟩
    · have hnone : ∀ leaf ∈ leaves', (index.pageHeaders leaf).previous ≠ 0 :=
        fun leaf hl hprev => hlater ⟨leaf, hl, hprev⟩
      obtain ⟨leaf, hl, hprev⟩ := hsome
      rcases List.mem_append.mp hl with hl | hl
      · obtain ⟨leaf', hl', hprev', heq⟩ := h.someFirst ⟨leaf, hl, hprev⟩
        exact ⟨leaf', List.mem_append_left _ hl', hprev', (h'.noFirst hnone).trans heq⟩
      · exact absurd hprev (hnone leaf hl)

/-- How walking over some leaves of a table has changed the state. -/
structure Grown (index : BPlusTreeIndex) (tableId : Nat) (leaves : List Nat)
    (state state' : TreeState) : Prop where
  frame : ∀ pageId, state.color pageId ≠ 0 → SameAt state state' pageId
  new : ∀ pageId, state.color pageId = 0 → state'.color pageId ≠ 0 →
    state'.color pageId = 2 ∧ state'.owner pageId = some tableId ∧
    state'.firstKeyKnown pageId = true ∧ 0 < pageId ∧ pageId < index.pageCount ∧
    ((index.pageHeaders pageId).kind = leafPage → pageId ∈ leaves)
  leaf : ∀ leaf ∈ leaves, state.color leaf = 0 ∧ index.NodeAt tableId state' leaf [leaf] ∧
    (index.pageHeaders leaf).kind = leafPage
  marks : index.MarkedBy tableId leaves state.marks state'.marks

theorem Grown.refl (state : TreeState) : index.Grown tableId [] state state where
  frame _ _ := ⟨rfl, rfl, rfl, rfl, rfl, rfl⟩
  new pageId h h' := absurd h h'
  leaf leaf hl := by simp at hl
  marks := MarkedBy.refl _

theorem Grown.trans {leaves leaves' : List Nat} {s s' s'' : TreeState}
    (h : index.Grown tableId leaves s s') (h' : index.Grown tableId leaves' s' s'') :
    index.Grown tableId (leaves ++ leaves') s s'' where
  frame pageId hseen := by
    have hsame := h.frame pageId hseen
    exact hsame.trans (h'.frame pageId (by rw [hsame.color]; exact hseen))
  new pageId h0 hseen := by
    by_cases hmiddle : s'.color pageId = 0
    · obtain ⟨hc, ho, hk, hpos, hlt, hleaf⟩ := h'.new pageId hmiddle hseen
      exact ⟨hc, ho, hk, hpos, hlt, fun hkind => List.mem_append_right _ (hleaf hkind)⟩
    · obtain ⟨hc, ho, hk, hpos, hlt, hleaf⟩ := h.new pageId h0 hmiddle
      have hsame := h'.frame pageId hmiddle
      exact ⟨hsame.color.trans hc, hsame.owner.trans ho, hsame.known.trans hk, hpos, hlt,
        fun hkind => List.mem_append_left _ (hleaf hkind)⟩
  leaf leaf hl := by
    rcases List.mem_append.mp hl with hl | hl
    · obtain ⟨h0, hnode, hkind⟩ := h.leaf leaf hl
      exact ⟨h0, hnode.same (h'.frame leaf (by rw [hnode.color]; decide)), hkind⟩
    · obtain ⟨h0, hnode, hkind⟩ := h'.leaf leaf hl
      refine ⟨?_, hnode, hkind⟩
      by_contra hne
      exact hne ((h.frame leaf hne).color.symm.trans h0)
  marks := h.marks.trans h'.marks

/-! ## The induction -/

variable (hpaged : index.Paged)

include hpaged in
/-- A leaf that is opened is closed at once. -/
theorem Paged.enterLeaf_spec {pageId : Nat} {state state' : TreeState} (hnew : state.color pageId = 0)
    (h : index.enterPage index.pageHeaders tableId state pageId = .ok (state', none)) :
    index.Grown tableId [pageId] state state' ∧ index.NodeAt tableId state' pageId [pageId] := by
  obtain ⟨⟨hpos, hlt⟩, -⟩ := enterPage_colors h
  rcases (hpaged.pages _ hpos hlt).kind with hkind | hkind
  · obtain ⟨marks, first, last, hvisit, heq⟩ := (hpaged.enterLeaf_eq_ok hpos hlt hkind).mp h
    cases heq
    obtain ⟨haccepted, ⟨counted, hcounted, rfl⟩, hfirst, hlast⟩ :=
      (visitLeaf_eq_ok hpaged hpos hlt hkind).mp hvisit
    obtain ⟨hnone, rfl⟩ := LeafMarks.countLeaf_eq_ok.mp hcounted
    obtain ⟨hmarks, hcounts, hfirstLeaf, hleafCount⟩ := LeafMarks.markAll_spec tableId
      ((index.leafEntries pageId).map Entry.pointId) { state.marks with
        tableLeafCount := setAt state.marks.tableLeafCount tableId
          (state.marks.tableLeafCount tableId + 1)
        tableFirstLeaf := if (index.pageHeaders pageId).previous = 0 then
          setAt state.marks.tableFirstLeaf tableId pageId else state.marks.tableFirstLeaf }
    have hsame : ∀ other, other ≠ pageId → ∀ marks', SameAt state
        ({ state.openPage tableId pageId with marks := marks' }.close pageId 0 first last) other :=
      fun other ho marks' => ⟨by simp [TreeState.close, TreeState.openPage, setAt_other _ _ ho],
        by simp [TreeState.close, TreeState.openPage, setAt_other _ _ ho],
        setAt_other _ _ ho, setAt_other _ _ ho, setAt_other _ _ ho, setAt_other _ _ ho⟩
    have hnode : ∀ marks', index.NodeAt tableId
        ({ state.openPage tableId pageId with marks := marks' }.close pageId 0 first last)
        pageId [pageId] := fun marks' =>
      ⟨setAt_same _ _ _, setAt_same _ _ _,
        by simpa [entriesOf_singleton, TreeState.close] using hfirst,
        by simpa [entriesOf_singleton, TreeState.close] using hlast,
        by rw [entriesOf_singleton]; exact haccepted.ordered,
        by simpa [TreeState.close, Subtree] using And.intro hpos ⟨hlt, hkind⟩⟩
    refine ⟨⟨fun other hseen => hsame other (fun heq => hseen (heq ▸ hnew)) _, ?_, ?_, ?_⟩, hnode _⟩
    · intro other h0 hseen
      by_cases heq : other = pageId
      · subst heq
        exact ⟨setAt_same _ _ _, setAt_same _ _ _, setAt_same _ _ _, hpos, hlt, fun _ => by simp⟩
      · exact absurd ((hsame other heq _).color.trans h0) hseen
    · intro leaf hl
      rw [List.mem_singleton] at hl
      subst hl
      exact ⟨hnew, hnode _, hkind⟩
    · refine ⟨?_, ?_, ?_, ?_, ?_, ?_, ?_, ?_, ?_⟩
      · rw [entriesOf_singleton]
        exact haccepted.valid
      · rw [entriesOf_singleton]
        exact haccepted.distinct
      · rw [entriesOf_singleton]
        exact haccepted.unmarked
      · rw [entriesOf_singleton]
        exact hmarks
      · rw [entriesOf_singleton]
        refine hcounts.trans ?_
        rw [List.length_map]
      · exact hleafCount
      · intro other ho
        refine (congrFun hfirstLeaf other).trans ?_
        show (if _ then _ else _ : Nat → Nat) other = _
        split
        · exact setAt_other _ _ ho
        · rfl
      · intro hall
        refine (congrFun hfirstLeaf tableId).trans ?_
        show (if _ then _ else _ : Nat → Nat) tableId = _
        rw [if_neg (hall pageId (by simp))]
      · rintro ⟨leaf, hl, hprev⟩
        rw [List.mem_singleton] at hl
        subst hl
        refine ⟨leaf, by simp, hprev, (congrFun hfirstLeaf tableId).trans ?_⟩
        show (if _ then _ else _ : Nat → Nat) tableId = _
        rw [if_pos hprev, setAt_same]
  · obtain ⟨-, -, heq⟩ := (hpaged.enterInternal_eq_ok hpos hlt hkind).mp h
    cases heq

omit hpaged in
/-- The children of a node, walked one after the other. -/
theorem grown_of_exploredAll {P : Nat → List Nat → TreeState → TreeState → Prop}
    (hP : ∀ {n leaves s s'}, P n leaves s s' →
      index.Grown tableId leaves s s' ∧ index.NodeAt tableId s' n leaves)
    {children leaves : List Nat} {s s' : TreeState}
    (h : (index.treeWalk index.pageHeaders tableId).ExploredAll P children leaves s s') :
    index.Grown tableId leaves s s' ∧ ∃ parts : List (List Nat), leaves = parts.flatten ∧
      List.Forall₂ (index.NodeAt tableId s') children parts := by
  induction h with
  | nil s => exact ⟨Grown.refl s, [], rfl, .nil⟩
  | @cons child children leaves leaves' s s' s'' _ hchild _ ih =>
      obtain ⟨hgrown, hnode⟩ := hP hchild
      obtain ⟨hgrown', parts, rfl, hparts⟩ := ih
      refine ⟨hgrown.trans hgrown', leaves :: parts, rfl, .cons ?_ hparts⟩
      exact hnode.same (hgrown'.frame child (by rw [hnode.color]; decide))

include hpaged in
/-- A page that closes over accepted children is the root of a tree over them. -/
theorem Paged.finish_nodeAt {pageId : Nat} {state : TreeState} {parts : List (List Nat)}
    (hpos : 0 < pageId) (hlt : pageId < index.pageCount)
    (hkind : (index.pageHeaders pageId).kind = internalPage)
    (howner : state.owner pageId = some tableId)
    (hseparators : ∀ c < (index.pageHeaders pageId).count - 1,
      (index.separatorAt pageId c).isFinite = true ∧
      (0 < c → (index.separatorAt pageId (c - 1)).le (index.separatorAt pageId c) = true))
    (hparts : List.Forall₂ (index.NodeAt tableId state) (index.children pageId) parts)
    (haccepted : ∀ i < (index.children pageId).length,
      ChildAccepted state tableId (index.children pageId) (index.separators pageId) i) :
    index.NodeAt tableId (state.close pageId (state.heights ((index.children pageId).getD 0 0) + 1)
      (state.first ((index.children pageId).getD 0 0))
      (state.last ((index.children pageId).getD ((index.children pageId).length - 1) 0)))
      pageId parts.flatten := by
  have hcount := ((hpaged.pages _ hpos hlt).internal hkind).1
  have hlen := hparts.length_eq
  have hn : (index.children pageId).length = (index.pageHeaders pageId).count := length_children
  have hnode : ∀ i < (index.children pageId).length, index.NodeAt tableId state
      ((index.children pageId).getD i 0) (parts.getD i []) :=
    fun i hi => forall₂_getD hparts hi 0 []
  have hmap : ∀ i < (index.children pageId).length,
      (parts.map index.entriesOf)[i]? = some (index.entriesOf (parts.getD i [])) := by
    intro i hi
    rw [List.getElem?_map, List.getD_eq_getElem?_getD, List.getElem?_eq_getElem (by omega)]
    rfl
  have hne : ∀ entries ∈ parts.map index.entriesOf, entries ≠ [] := by
    intro entries hmem hnil
    obtain ⟨i, hi, heq⟩ := List.getElem_of_mem hmem
    rw [List.length_map] at hi
    have hfirst := (hnode i (by omega)).first
    have hget := hmap i (by omega)
    rw [List.getElem?_eq_getElem (by rwa [List.length_map]), Option.some.injEq, heq, hnil] at hget
    rw [← hget] at hfirst
    cases hfirst
  refine ⟨setAt_same _ _ _, howner, ?_, ?_, ?_, ?_⟩
  · rw [entriesOf_flatten]
    refine Eq.trans ?_ ((hnode 0 (by omega)).first.trans (congrArg some (setAt_same _ _ _).symm))
    have h0 := hmap 0 (by omega)
    cases hp : parts.map index.entriesOf with
    | nil => simp [hp] at h0
    | cons entries rest =>
        rw [hp] at h0
        cases h0
        rw [List.flatten_cons, List.head?_append_of_ne_nil _ (hne _ (by rw [hp]; simp))]
  · rw [entriesOf_flatten]
    refine Eq.trans ?_ ((hnode ((index.children pageId).length - 1) (by omega)).last.trans
      (congrArg some (setAt_same _ _ _).symm))
    have hlast := hmap ((index.children pageId).length - 1) (by omega)
    have hlen' : (index.children pageId).length - 1 = (parts.map index.entriesOf).length - 1 := by
      rw [List.length_map, hlen]
    rw [hlen', ← List.getLast?_eq_getElem?] at hlast
    rw [hlen']
    generalize index.entriesOf (parts.getD ((parts.map index.entriesOf).length - 1) []) = entries
      at hlast ⊢
    obtain ⟨front, hfront⟩ := List.getLast?_eq_some_iff.mp hlast
    have hne' := hne entries (by rw [hfront]; simp)
    rw [hfront, List.flatten_append, List.flatten_singleton,
      List.getLast?_append_of_ne_nil _ hne']
  · rw [entriesOf_flatten]
    refine (List.isChain_flatten fun hmem => hne _ hmem rfl).mpr ⟨fun entries hmem => ?_, ?_⟩
    · obtain ⟨part, hpart, rfl⟩ := List.mem_map.mp hmem
      obtain ⟨i, hi, rfl⟩ := List.getElem_of_mem hpart
      have := (hnode i (by omega)).ordered
      rwa [List.getD_eq_getElem _ _ hi] at this
    · rw [List.isChain_iff_getElem]
      intro i hi x hx y hy
      rw [List.length_map] at hi
      obtain ⟨-, hless⟩ := haccepted (i + 1) (by omega)
      obtain ⟨-, hless, -⟩ := hless (Nat.succ_pos i)
      have h1 := hmap i (by omega)
      have h2 := hmap (i + 1) (by omega)
      rw [List.getElem?_eq_getElem (by rw [List.length_map]; omega), Option.some.injEq] at h1 h2
      rw [h1, (hnode i (by omega)).last] at hx
      rw [h2, (hnode (i + 1) (by omega)).first] at hy
      cases hx
      cases hy
      exact hless
  · have hheight : (state.close pageId (state.heights ((index.children pageId).getD 0 0) + 1)
        (state.first ((index.children pageId).getD 0 0))
        (state.last ((index.children pageId).getD ((index.children pageId).length - 1) 0))).heights
        pageId = state.heights ((index.children pageId).getD 0 0) + 1 := setAt_same _ _ _
    rw [hheight]
    refine ⟨⟨hpos, hlt, hkind⟩, parts, rfl, ?_, hseparators, fun c hc => ?_⟩
    · refine List.forall₂_iff_get.mpr ⟨hlen, fun i h₁ h₂ => ?_⟩
      have htree := (hnode i h₁).tree
      rw [List.getD_eq_getElem _ _ h₁, List.getD_eq_getElem _ _ h₂] at htree
      rcases Nat.eq_zero_or_pos i with rfl | hi
      · rwa [List.getD_eq_getElem _ _ h₁]
      · obtain ⟨-, hrest⟩ := haccepted i h₁
        have hsame := (hrest hi).1
        rw [List.getD_eq_getElem _ _ h₁] at hsame
        rw [hsame] at htree
        exact htree
    · obtain ⟨-, hrest⟩ := haccepted (c + 1) (by omega)
      obtain ⟨-, -, hsep⟩ := hrest (Nat.succ_pos c)
      refine ⟨_, (hnode (c + 1) (by omega)).first, ?_⟩
      rw [Nat.add_sub_cancel, separators, List.getD_eq_getElem?_getD, List.getElem?_map,
        List.getElem?_range (by omega)] at hsep
      exact hsep

include hpaged in
/-- What an exploration has found of the tree of a page. -/
theorem Paged.walked_of_explored : ∀ (depth : Nat) {pageId : Nat} {leaves : List Nat}
    {s s' : TreeState},
    (index.treeWalk index.pageHeaders tableId).Explored depth pageId leaves s s' →
    index.Grown tableId leaves s s' ∧ index.NodeAt tableId s' pageId leaves := by
  intro depth
  induction depth with
  | zero => exact fun h => h.elim
  | succ depth ih =>
      rintro pageId leaves s s' ⟨hseen, ⟨rfl, henter⟩ |
        ⟨children, data, s₁, s₂, henter, hall, hleave⟩⟩
      · exact hpaged.enterLeaf_spec (by simpa [treeWalk] using hseen) henter
      · have hnew : s.color pageId = 0 := by simpa [treeWalk] using hseen
        obtain ⟨⟨hpos, hlt⟩, -⟩ := enterPage_colors henter
        rcases (hpaged.pages _ hpos hlt).kind with hkind | hkind
        · obtain ⟨_, _, _, -, heq⟩ := (hpaged.enterLeaf_eq_ok hpos hlt hkind).mp henter
          cases heq
        · obtain ⟨-, hseparators, heq⟩ := (hpaged.enterInternal_eq_ok hpos hlt hkind).mp henter
          cases heq
          obtain ⟨hgrown, parts, rfl, hparts⟩ := grown_of_exploredAll ih hall
          have hcount := ((hpaged.pages _ hpos hlt).internal hkind).1
          have hne : index.children pageId ≠ [] := by
            rw [← List.length_pos_iff_ne_nil, length_children]
            omega
          obtain ⟨haccepted, rfl⟩ := (finishPage_eq_ok hne).mp hleave
          have hopen : (s.openPage tableId pageId).color pageId ≠ 0 := by
            simp [TreeState.openPage]
          have hown := (hgrown.frame pageId hopen).owner
          rw [show (s.openPage tableId pageId).owner pageId = some tableId from setAt_same _ _ _]
            at hown
          have hother : ∀ other, other ≠ pageId → ∀ height first last,
              SameAt s₂ (s₂.close pageId height first last) other ∧
              SameAt s (s.openPage tableId pageId) other := fun other ho height first last =>
            ⟨⟨setAt_other _ _ ho, rfl, setAt_other _ _ ho, setAt_other _ _ ho, setAt_other _ _ ho,
              setAt_other _ _ ho⟩, ⟨setAt_other _ _ ho, setAt_other _ _ ho, rfl, rfl, rfl, rfl⟩⟩
          refine ⟨⟨fun other hs => ?_, fun other h0 hs => ?_, fun leaf hl => ?_, hgrown.marks⟩,
            hpaged.finish_nodeAt hpos hlt hkind hown hseparators hparts haccepted⟩
          · have ho : other ≠ pageId := fun heq => hs (heq ▸ hnew)
            obtain ⟨hclosed, hopened⟩ := hother other ho _ _ _
            exact (hopened.trans (hgrown.frame other (by rw [hopened.color]; exact hs))).trans hclosed
          · by_cases heq : other = pageId
            · subst heq
              refine ⟨setAt_same _ _ _, hown, setAt_same _ _ _, hpos, hlt, fun hleaf => ?_⟩
              rw [hkind] at hleaf
              cases hleaf
            · obtain ⟨hclosed, hopened⟩ := hother other heq _ _ _
              rw [hclosed.color] at hs
              obtain ⟨hc, ho, hk, hrange⟩ := hgrown.new other (hopened.color.trans h0) hs
              exact ⟨hclosed.color.trans hc, hclosed.owner.trans ho, hclosed.known.trans hk, hrange⟩
          · obtain ⟨h0, hnode, hleaf⟩ := hgrown.leaf leaf hl
            have heq : leaf ≠ pageId := by
              rintro rfl
              exact hopen h0
            obtain ⟨hclosed, hopened⟩ := hother leaf heq _ _ _
            exact ⟨hopened.color.symm.trans h0, hnode.same hclosed, hleaf⟩

end BPlusTreeIndex

end Qalsh
