/-
  TreeShape.lean --- the pages `Build` makes of a table.

  The leaves of a table get consecutive page ids and link to their neighbours.  Every
  level above divides the one below into groups of at least two; so the pages of a
  table are one tree of uniform height, whose inner nodes carry the first keys of their
  children after the first as separators.
-/
import Qalsh.TreeBuild

set_option autoImplicit false

namespace Qalsh.BPlusTreeIndex

open Foundation

/-! ## Leaves -/

section Leaves

variable {start : Nat} {runs : List (List Entry)} {pages : List Page}

/-- The leaf at position `i` of a table with `count` leaves. -/
def linkedLeaf (start count i : Nat) (run : List Entry) : Page :=
  Page.setNext (if i + 1 < count then start + i + 1 else 0)
    (leafOf (if i = 0 then 0 else start + i - 1) run)

/-- The leaves of a table whose first page id is `start`. -/
def leafPages (start : Nat) (runs : List (List Entry)) : List Page :=
  runs.zipIdx.map fun run => linkedLeaf start runs.length run.2 run.1

theorem length_leafPages : (leafPages start runs).length = runs.length := by
  simp [leafPages]

theorem getElem?_leafPages (i : Nat) :
    (leafPages start runs)[i]? = (runs[i]?).map (linkedLeaf start runs.length i) := by
  rw [leafPages, List.getElem?_map, List.getElem?_zipIdx, Option.map_map]
  simp [Function.comp_def]

/-- The last leaf is linked to the next one when that is pushed. -/
theorem leafPages_concat (run : List Entry) (hruns : runs ≠ []) :
    leafPages start (runs ++ [run]) =
      (leafPages start runs).modify (runs.length - 1) (Page.setNext (start + runs.length)) ++
        [leafOf (start + runs.length - 1) run] := by
  have hpos : 0 < runs.length := List.length_pos_of_ne_nil hruns
  refine List.ext_getElem? fun i => ?_
  have hlength : (runs ++ [run]).length = runs.length + 1 := by simp
  rw [getElem?_leafPages, hlength]
  rcases Nat.lt_trichotomy i runs.length with hlt | rfl | hgt
  · rw [List.getElem?_append_left hlt, List.getElem?_append_left (by simpa [length_leafPages] using hlt)]
    by_cases hlast : runs.length - 1 = i
    · subst hlast
      rw [List.getElem?_modify_eq, getElem?_leafPages, List.getElem?_eq_getElem hlt]
      have hnext : runs.length - 1 + 1 = runs.length := by omega
      have hafter : start + (runs.length - 1) + 1 = start + runs.length := by omega
      simp only [Option.map_some, linkedLeaf, Page.setNext, leafOf, hnext, hafter,
        Nat.lt_succ_self, if_true]
      rfl
    · rw [List.getElem?_modify_ne _ _ hlast, getElem?_leafPages, List.getElem?_eq_getElem hlt]
      have hnext : i + 1 < runs.length ∧ i + 1 < runs.length + 1 := by omega
      simp only [Option.map_some, linkedLeaf, hnext.1, hnext.2, if_true]
  · rw [List.getElem?_append_right le_rfl, List.getElem?_append_right (by simp [length_leafPages]),
      List.length_modify, length_leafPages]
    simp [linkedLeaf, Page.setNext, leafOf, Nat.pos_iff_ne_zero.mp hpos]
  · rw [List.getElem?_eq_none (by simp; omega), List.getElem?_eq_none (by simp [length_leafPages]; omega)]
    rfl

theorem modify_append (items : List Page) (f : Page → Page) (i : Nat) (front : List Page) :
    (front ++ items).modify (front.length + i) f = front ++ items.modify i f := by
  induction front with
  | nil => simp
  | cons page front ih =>
      rw [List.length_cons, Nat.succ_add, List.cons_append, List.modify_succ_cons, ih, List.cons_append]

variable (pages) in
/-- The loop over the leaves of a table. -/
theorem addLeaves_eq (hne : ∀ run ∈ runs, run ≠ []) :
    runs.foldlM addLeaf { pages := pages, levelPages := [], levelKeys := [] } = .ok
      { pages := pages ++ leafPages pages.length runs
        levelPages := List.range' pages.length runs.length
        levelKeys := runs.map fun run => (run.headD default).value } := by
  induction runs using List.reverseRecOn with
  | nil => simp [leafPages]
  | append_singleton runs run ih =>
      rw [List.foldlM_append, ih fun other hother => hne other (List.mem_append_left _ hother),
        except_ok_bind, List.foldlM_cons]
      unfold addLeaf
      rw [require_of (hne run (by simp)), except_ok_bind]
      have hlength : (pages ++ leafPages pages.length runs).length = pages.length + runs.length := by
        rw [List.length_append, length_leafPages]
      dsimp only
      rw [hlength]
      cases hruns : runs with
      | nil => simp [leafPages, linkedLeaf, Page.setNext, leafOf]
      | cons first rest =>
          rw [← hruns]
          have hpos : 0 < runs.length := by rw [hruns]; simp
          have hlast : (List.range' pages.length runs.length).getLast? =
              some (pages.length + (runs.length - 1)) := by
            rw [List.getLast?_range', if_neg (by omega)]
            simp
            omega
          rw [hlast]
          dsimp only
          rw [leafPages_concat run (by rw [hruns]; simp), modify_append]
          simp only [except_pure, except_ok_bind, List.foldlM_nil, List.append_assoc,
            Option.getD_some, List.length_append, List.length_singleton, List.map_append,
            List.map_singleton, Except.ok.injEq, Level.mk.injEq]
          refine ⟨?_, ?_, rfl⟩
          · rw [← Nat.add_sub_assoc hpos]
          · rw [← List.range'_append_1]
            rfl

end Leaves

/-! ## Trees -/

/-- A tree over pages: its root, its leaves from left to right, all its pages and its
first key. -/
structure Twig where
  id : Nat
  leaves : List Nat
  nodes : List Nat
  key : Binary32

/-- The pages hold a tree of this height whose nodes have at most `capacity` children. -/
def PageTree (pages : List Page) (capacity : Nat) : (height : Nat) → Twig → Prop
  | 0, twig => twig.leaves = [twig.id] ∧ twig.nodes = [twig.id] ∧
      ∃ page, pages[twig.id]? = some page ∧ page.header.kind = leafPage ∧
        (page.entries.head?).map Entry.value = some twig.key
  | height + 1, twig => ∃ twigs : List Twig,
      pages[twig.id]? = some (nodeOf (twigs.map Twig.id) (twigs.map Twig.key)) ∧
      (2 ≤ twigs.length ∧ twigs.length ≤ capacity) ∧ twig.leaves = twigs.flatMap Twig.leaves ∧
      twig.nodes = twig.id :: twigs.flatMap Twig.nodes ∧
      twig.key = (twigs.map Twig.key).headD Binary32.zero ∧
      ∀ child ∈ twigs, PageTree pages capacity height child

/-- More pages hold the same trees. -/
theorem PageTree.mono {pages pages' : List Page} {capacity : Nat} (hpages : pages <+: pages') :
    ∀ {height : Nat} {twig : Twig},
    PageTree pages capacity height twig → PageTree pages' capacity height twig := by
  have hget : ∀ (i : Nat) (page : Page), pages[i]? = some page → pages'[i]? = some page := by
    intro i page hpage
    obtain ⟨more, rfl⟩ := hpages
    rw [List.getElem?_append_left (List.getElem?_eq_some_iff.mp hpage).1, hpage]
  intro height
  induction height with
  | zero =>
      rintro twig ⟨hleaves, hnodes, page, hpage, hkind, hkey⟩
      exact ⟨hleaves, hnodes, page, hget _ _ hpage, hkind, hkey⟩
  | succ height ih =>
      rintro twig ⟨twigs, hpage, hsize, hleaves, hnodes, hkey, htwigs⟩
      exact ⟨twigs, hget _ _ hpage, hsize, hleaves, hnodes, hkey, fun child hchild =>
        ih (htwigs child hchild)⟩

/-! ## Levels -/

/-- The page of a group. -/
def groupPage (group : List Twig) : Page := nodeOf (group.map Twig.id) (group.map Twig.key)

/-- A page over a group of trees. -/
def twigOver (id : Nat) (group : List Twig) : Twig where
  id := id
  leaves := group.flatMap Twig.leaves
  nodes := id :: group.flatMap Twig.nodes
  key := (group.map Twig.key).headD Binary32.zero

/-- Pages with consecutive ids over groups of trees. -/
def twigsOver : (first : Nat) → List (List Twig) → List Twig
  | _, [] => []
  | first, group :: groups => twigOver first group :: twigsOver (first + 1) groups

section Groups

variable {first : Nat} {groups : List (List Twig)}

theorem length_twigsOver : (twigsOver first groups).length = groups.length := by
  induction groups generalizing first with
  | nil => rfl
  | cons group groups ih => rw [twigsOver, List.length_cons, ih, List.length_cons]

theorem twigsOver_ids : (twigsOver first groups).map Twig.id = List.range' first groups.length := by
  induction groups generalizing first with
  | nil => rfl
  | cons group groups ih =>
      rw [twigsOver, List.map_cons, ih, List.length_cons, List.range'_succ]
      rfl

theorem twigsOver_keys : (twigsOver first groups).map Twig.key =
    groups.map fun group => (groupPage group).firstKey := by
  induction groups generalizing first with
  | nil => rfl
  | cons group groups ih =>
      rw [twigsOver, List.map_cons, ih, List.map_cons]
      rfl

theorem twigsOver_leaves :
    (twigsOver first groups).flatMap Twig.leaves = groups.flatten.flatMap Twig.leaves := by
  induction groups generalizing first with
  | nil => rfl
  | cons group groups ih =>
      rw [twigsOver, List.flatMap_cons, ih, List.flatten_cons, List.flatMap_append]
      rfl

theorem twigsOver_nodes : ((twigsOver first groups).flatMap Twig.nodes).Perm
    (List.range' first groups.length ++ groups.flatten.flatMap Twig.nodes) := by
  induction groups generalizing first with
  | nil => exact .nil
  | cons group groups ih =>
      rw [twigsOver, List.flatMap_cons, List.length_cons, List.range'_succ, List.flatten_cons,
        List.flatMap_append]
      have hrest : (group.flatMap Twig.nodes ++ (twigsOver (first + 1) groups).flatMap Twig.nodes).Perm
          (List.range' (first + 1) groups.length ++
            (group.flatMap Twig.nodes ++ groups.flatten.flatMap Twig.nodes)) := by
        refine (List.Perm.append_left _ ih).trans ?_
        rw [← List.append_assoc, ← List.append_assoc]
        exact List.Perm.append_right _ List.perm_append_comm
      exact hrest.cons first

theorem mem_twigsOver {twig : Twig} (h : twig ∈ twigsOver first groups) :
    ∃ i group, groups[i]? = some group ∧ twig = twigOver (first + i) group := by
  induction groups generalizing first with
  | nil => cases h
  | cons group groups ih =>
      cases h with
      | head => exact ⟨0, group, rfl, rfl⟩
      | tail _ hmem =>
          obtain ⟨i, group', hgroup, rfl⟩ := ih hmem
          exact ⟨i + 1, group', hgroup, by rw [Nat.add_assoc, Nat.add_comm 1]⟩

/-- The loop over the groups of a level of trees. -/
theorem addGroups_eq {level : Level} {twigs : List Twig} (hids : level.levelPages = twigs.map Twig.id)
    (hkeys : level.levelKeys = twigs.map Twig.key) : ∀ (sizes : List Nat) (grouping : Grouping),
    sizes.foldl (addGroup level) grouping =
      { pages := grouping.pages ++ (sizes.splitLengths (twigs.drop grouping.start)).map groupPage
        nextPages := grouping.nextPages ++ List.range' grouping.pages.length sizes.length
        nextKeys := grouping.nextKeys ++ (sizes.splitLengths (twigs.drop grouping.start)).map
          fun group => (groupPage group).firstKey
        start := grouping.start + sizes.sum } := by
  intro sizes
  induction sizes with
  | nil => intro grouping; simp
  | cons size sizes ih =>
      intro grouping
      have hpage : nodeOf ((level.levelPages.drop grouping.start).take size)
          ((level.levelKeys.drop grouping.start).take size) =
            groupPage ((twigs.drop grouping.start).take size) := by
        rw [hids, hkeys, ← List.map_drop, ← List.map_take, ← List.map_drop, ← List.map_take]
        rfl
      rw [List.foldl_cons, ih, addGroup]
      dsimp only
      rw [hpage, List.splitLengths_cons, List.drop_drop, List.map_cons, List.map_cons, List.length_cons,
        List.range'_succ, List.length_append, List.length_singleton, List.append_assoc,
        List.append_assoc, List.append_assoc, List.sum_cons, Nat.add_assoc]
      rfl

end Groups

/-! ## Group sizes -/

section Sizes

variable {count capacity : Nat}

theorem sum_even_shares (groups share extra : Nat) :
    ((List.range groups).map fun group => share + if group < extra then 1 else 0).sum =
      groups * share + min groups extra := by
  induction groups with
  | zero => simp
  | succ groups ih =>
      rw [List.range_succ, List.map_append, List.sum_append, ih, List.map_singleton,
        List.sum_singleton, Nat.succ_mul]
      split <;> omega

/-- The number of groups of a level. -/
def groupCount (count capacity : Nat) : Nat := (count + capacity - 1) / capacity

theorem groupCount_pos (hcount : 0 < count) (hcapacity : 0 < capacity) : 0 < groupCount count capacity :=
  Nat.div_pos (by omega) hcapacity

theorem le_groupCount_mul (hcapacity : 0 < capacity) : count ≤ groupCount count capacity * capacity := by
  have hdiv := Nat.lt_div_mul_add (a := count + capacity - 1) hcapacity
  unfold groupCount
  omega

theorem length_groupSizes : (groupSizes count capacity).length = groupCount count capacity := by
  simp [groupSizes, groupCount]

theorem sum_groupSizes (hcount : 0 < count) (hcapacity : 0 < capacity) :
    (groupSizes count capacity).sum = count := by
  have hpos := groupCount_pos hcount hcapacity
  have hsum := sum_even_shares (groupCount count capacity) (count / groupCount count capacity)
    (count % groupCount count capacity)
  have hmod := Nat.mod_lt count hpos
  have hsplit := Nat.div_add_mod count (groupCount count capacity)
  rw [Nat.min_eq_right hmod.le, hsplit] at hsum
  exact hsum

/-- No node gets more children than it can hold. -/
theorem groupSizes_le (hcount : 0 < count) (hcapacity : 0 < capacity) :
    ∀ size ∈ groupSizes count capacity, size ≤ capacity := by
  intro size hsize
  obtain ⟨group, hgroup, rfl⟩ := List.mem_map.mp hsize
  have hpos := groupCount_pos hcount hcapacity
  have hle : count ≤ groupCount count capacity * capacity := le_groupCount_mul hcapacity
  have hsplit := Nat.div_add_mod count (groupCount count capacity)
  change count / groupCount count capacity + (if group < count % groupCount count capacity then 1 else 0)
    ≤ capacity
  generalize groupCount count capacity = groups at *
  have hshare : count / groups ≤ capacity := Nat.div_le_of_le_mul hle
  split
  · -- some group has one more, so the even share is below the capacity
    rename_i hextra
    refine Nat.lt_of_le_of_ne hshare fun heq => ?_
    rw [heq] at hsplit
    omega
  · exact hshare

/-- With room for three children no node gets a single child. -/
theorem two_le_share (hcount : 2 ≤ count) (hcapacity : 3 ≤ capacity) :
    2 ≤ count / groupCount count capacity := by
  have hpos : 0 < groupCount count capacity := groupCount_pos (by omega) (by omega)
  rw [Nat.le_div_iff_mul_le hpos]
  rcases Nat.lt_or_ge capacity count with hmany | hfew
  · have hdiv : groupCount count capacity * capacity ≤ count + capacity - 1 := Nat.div_mul_le_self _ _
    obtain ⟨more, rfl⟩ : ∃ more, capacity = more + 2 := ⟨capacity - 2, by omega⟩
    generalize groupCount count (more + 2) = groups at *
    by_contra hless
    -- a single group would have held them all
    have hmul : groups * more ≤ 1 * more := by
      rw [Nat.mul_add] at hdiv
      omega
    have hone := Nat.le_of_mul_le_mul_right hmul (by omega)
    omega
  · have hone : groupCount count capacity = 1 := by
      unfold groupCount
      rw [Nat.div_eq_iff (by omega)]
      omega
    omega

theorem groupSizes_ge (hcount : 2 ≤ count) (hcapacity : 3 ≤ capacity) :
    ∀ size ∈ groupSizes count capacity, 2 ≤ size := by
  intro size hsize
  obtain ⟨group, -, rfl⟩ := List.mem_map.mp hsize
  exact (two_le_share hcount hcapacity).trans (Nat.le_add_right _ _)

/-- A level has at most half the pages of the one below. -/
theorem groupCount_le_half (hcount : 2 ≤ count) (hcapacity : 3 ≤ capacity) :
    2 * groupCount count capacity ≤ count := by
  have hshare := two_le_share hcount hcapacity
  have hpos : 0 < groupCount count capacity := groupCount_pos (by omega) (by omega)
  rwa [Nat.le_div_iff_mul_le hpos] at hshare

end Sizes

/-! ## From leaves to a root -/

section Levels

variable {capacity height start : Nat} {leaves : List Nat} {level : Level}

/-- The pages of a level are the roots of trees of one height over these leaves; the
trees have all pages from `start` on. -/
structure LevelOf (capacity height start : Nat) (leaves : List Nat) (level : Level)
    (twigs : List Twig) : Prop where
  ids : level.levelPages = twigs.map Twig.id
  keys : level.levelKeys = twigs.map Twig.key
  trees : ∀ twig ∈ twigs, PageTree level.pages capacity height twig
  leafIds : twigs.flatMap Twig.leaves = leaves
  bound : start ≤ level.pages.length
  nodes : (twigs.flatMap Twig.nodes).Perm (List.range' start (level.pages.length - start))

theorem LevelOf.length {twigs : List Twig} (h : LevelOf capacity height start leaves level twigs) :
    level.levelPages.length = twigs.length := by
  rw [h.ids, List.length_map]

/-- The level above is a level of trees again, one higher. -/
theorem LevelOf.next {twigs : List Twig} (h : LevelOf capacity height start leaves level twigs)
    (hcapacity : 3 ≤ capacity) (hmany : 2 ≤ twigs.length) :
    ∃ level' twigs', nextLevel capacity level = .ok level' ∧ level.pages <+: level'.pages ∧
      twigs'.length = groupCount twigs.length capacity ∧
      LevelOf capacity (height + 1) start leaves level' twigs' := by
  have hsizes : (groupSizes twigs.length capacity).sum = twigs.length :=
    sum_groupSizes (by omega) (by omega)
  have hgroups := addGroups_eq h.ids h.keys (groupSizes twigs.length capacity)
    { pages := level.pages, nextPages := [], nextKeys := [], start := 0 }
  have hlength := List.length_splitLengths twigs (groupSizes twigs.length capacity)
  have hlengths := List.map_splitLengths_length twigs (groupSizes twigs.length capacity) hsizes.le
  have hflatten := List.flatten_splitLengths twigs (groupSizes twigs.length capacity) hsizes.ge
  rw [List.drop_zero] at hgroups
  generalize (groupSizes twigs.length capacity).splitLengths twigs = groups at *
  have hmem : ∀ group ∈ groups, 2 ≤ group.length ∧ group.length ≤ capacity := by
    intro group hgroup
    have hsize : group.length ∈ groupSizes twigs.length capacity :=
      hlengths ▸ List.mem_map_of_mem hgroup
    exact ⟨groupSizes_ge hmany hcapacity _ hsize,
      groupSizes_le (by omega) (by omega) _ hsize⟩
  have hshare : twigs.length / ((twigs.length + capacity - 1) / capacity) ≥ 2 :=
    two_le_share hmany hcapacity
  have hnext : nextLevel capacity level = .ok
      { pages := level.pages ++ groups.map groupPage
        levelPages := List.range' level.pages.length groups.length
        levelKeys := groups.map fun group => (groupPage group).firstKey } := by
    unfold nextLevel
    rw [h.length]
    dsimp only
    rw [require_of hshare, except_ok_bind, hgroups, hlength]
    rfl
  refine ⟨_, twigsOver level.pages.length groups, hnext, List.prefix_append _ _, ?_, ?_, ?_,
    fun twig htwig => ?_, ?_, ?_, ?_⟩
  · rw [length_twigsOver, hlength, length_groupSizes]
  · exact twigsOver_ids.symm
  · exact twigsOver_keys.symm
  · obtain ⟨i, group, hgroup, rfl⟩ := mem_twigsOver htwig
    have hin := List.mem_of_getElem? hgroup
    refine ⟨group, ?_, hmem group hin, rfl, rfl, rfl, fun child hchild => ?_⟩
    · show (level.pages ++ groups.map groupPage)[level.pages.length + i]? = _
      rw [List.getElem?_append_right (Nat.le_add_right _ _), Nat.add_sub_cancel_left,
        List.getElem?_map, hgroup]
      rfl
    · refine (h.trees child ?_).mono (List.prefix_append _ _)
      rw [← hflatten]
      exact List.mem_flatten_of_mem hin hchild
  · rw [twigsOver_leaves, hflatten, h.leafIds]
  · simp only [List.length_append]
    exact h.bound.trans (Nat.le_add_right _ _)
  · refine twigsOver_nodes.trans ?_
    rw [hflatten]
    have hstart := h.bound
    have hjoin : List.range' start ((level.pages ++ groups.map groupPage).length - start) =
        List.range' start (level.pages.length - start) ++
          List.range' level.pages.length groups.length := by
      rw [List.length_append, List.length_map, Nat.sub_add_comm hstart, ← List.range'_append_1,
        Nat.add_sub_cancel' hstart]
    rw [hjoin]
    exact (List.Perm.append_left _ h.nodes).trans List.perm_append_comm

/-- The loop over the levels ends at one page. -/
theorem LevelOf.build (hcapacity : 3 ≤ capacity) : ∀ (passes : Nat) {height : Nat} {level : Level}
    {twigs : List Twig}, LevelOf capacity height start leaves level twigs → 0 < twigs.length →
    twigs.length ≤ passes + 1 →
    ∃ top height' twig, buildLevels capacity passes level = .ok top ∧ level.pages <+: top.pages ∧
      LevelOf capacity height' start leaves top [twig] := by
  intro passes
  induction passes with
  | zero =>
      intro height level twigs h hpos hle
      obtain ⟨twig, rfl⟩ := List.length_eq_one_iff.mp (show twigs.length = 1 by omega)
      exact ⟨level, height, twig, rfl, List.prefix_rfl, h⟩
  | succ passes ih =>
      intro height level twigs h hpos hle
      rw [buildLevels, h.length]
      by_cases hone : twigs.length = 1
      · obtain ⟨twig, rfl⟩ := List.length_eq_one_iff.mp hone
        rw [if_neg (by rw [hone]; decide)]
        exact ⟨level, height, twig, rfl, List.prefix_rfl, h⟩
      · have hmany : 2 ≤ twigs.length := by omega
        obtain ⟨level', twigs', hnext, hpages, hlength, hlevel⟩ := h.next hcapacity hmany
        have hhalf := groupCount_le_half hmany hcapacity
        have hsome : 0 < groupCount twigs.length capacity := groupCount_pos hpos (by omega)
        obtain ⟨top, height', twig, htop, hpages', hroot⟩ := ih hlevel (by omega) (by omega)
        rw [if_pos (show twigs.length > 1 from hmany), hnext, except_ok_bind, htop]
        exact ⟨top, height', twig, rfl, hpages.trans hpages', hroot⟩

end Levels

/-! ## Tables -/

section Tables

variable {leafCapacity internalCapacity : Nat} {entries : List Entry}

theorem flatten_take_drop (capacity count : Nat) (entries : List Entry) :
    ((List.range count).map fun i => (entries.drop (i * capacity)).take capacity).flatten =
      entries.take (count * capacity) := by
  induction count with
  | zero => simp
  | succ count ih =>
      rw [List.range_succ, List.map_append, List.flatten_append, ih, List.map_singleton,
        List.flatten_singleton, Nat.succ_mul, List.take_add]

/-- The leaves get the entries in their order. -/
theorem flatten_leafRuns (hcapacity : 0 < leafCapacity) :
    (leafRuns leafCapacity entries).flatten = entries := by
  rw [leafRuns, flatten_take_drop]
  exact List.take_of_length_le (le_groupCount_mul hcapacity)

theorem length_leafRuns :
    (leafRuns leafCapacity entries).length = groupCount entries.length leafCapacity := by
  simp [leafRuns, groupCount]

theorem getElem?_leafRuns {i : Nat} (hi : i < (leafRuns leafCapacity entries).length) :
    (leafRuns leafCapacity entries)[i]? =
      some ((entries.drop (i * leafCapacity)).take leafCapacity) := by
  have hrange : i < (entries.length + leafCapacity - 1) / leafCapacity := by
    rwa [length_leafRuns] at hi
  rw [leafRuns, List.getElem?_map, List.getElem?_range hrange]
  rfl

/-- Every leaf but the last is full, and the last is not empty. -/
theorem mem_leafRuns (hcapacity : 0 < leafCapacity) {run : List Entry}
    (hrun : run ∈ leafRuns leafCapacity entries) : run ≠ [] ∧ run.length ≤ leafCapacity := by
  obtain ⟨i, hi, rfl⟩ := List.mem_map.mp hrun
  refine ⟨fun hempty => ?_, List.length_take_le _ _⟩
  have hlength := congrArg List.length hempty
  have hdiv : (entries.length + leafCapacity - 1) / leafCapacity * leafCapacity ≤
      entries.length + leafCapacity - 1 := Nat.div_mul_le_self _ _
  have hnext := Nat.mul_le_mul_right leafCapacity (show i + 1 ≤ _ from List.mem_range.mp hi)
  rw [Nat.succ_mul] at hnext
  simp only [List.length_take, List.length_drop, List.length_nil] at hlength
  omega

/-- What the pages of a table are: the leaves, and one tree over them. -/
structure TableIn (leafCapacity internalCapacity : Nat) (pages : List Page) (entries : List Entry)
    (root start stop : Nat) : Prop where
  leaves : ∀ i < (leafRuns leafCapacity entries).length, pages[start + i]? =
    ((leafRuns leafCapacity entries)[i]?).map
      (linkedLeaf start (leafRuns leafCapacity entries).length i)
  tree : ∃ height twig, PageTree pages internalCapacity height twig ∧ twig.id = root ∧
    twig.leaves = List.range' start (leafRuns leafCapacity entries).length ∧
    twig.nodes.Perm (List.range' start (stop - start))
  ordered : start ≤ stop
  bound : stop ≤ pages.length

theorem TableIn.mono {pages pages' : List Page} {root start stop : Nat} (hpages : pages <+: pages')
    (h : TableIn leafCapacity internalCapacity pages entries root start stop) :
    TableIn leafCapacity internalCapacity pages' entries root start stop := by
  obtain ⟨height, twig, htree, hrest⟩ := h.tree
  refine ⟨fun i hi => ?_, ⟨height, twig, htree.mono hpages, hrest⟩, h.ordered,
    h.bound.trans hpages.length_le⟩
  obtain ⟨more, rfl⟩ := hpages
  have hget := h.leaves i hi
  rw [List.getElem?_eq_getElem hi, Option.map_some] at hget ⊢
  rw [List.getElem?_append_left (List.getElem?_eq_some_iff.mp hget).1, hget]

/-- The turn of the loop for one table. -/
theorem addTable_eq (hleaf : 0 < leafCapacity) (hinternal : 3 ≤ internalCapacity)
    (hentries : entries ≠ []) (pages : List Page) (roots : List Nat) :
    ∃ pages' root, addTable leafCapacity internalCapacity (pages, roots) entries =
        .ok (pages', roots ++ [root]) ∧ pages <+: pages' ∧
      TableIn leafCapacity internalCapacity pages' entries root pages.length pages'.length := by
  have hruns : (leafRuns leafCapacity entries).length = groupCount entries.length leafCapacity :=
    length_leafRuns
  have hpos : 0 < (leafRuns leafCapacity entries).length :=
    hruns ▸ groupCount_pos (List.length_pos_of_ne_nil hentries) hleaf
  have hmem : ∀ run ∈ leafRuns leafCapacity entries, run ≠ [] ∧ run.length ≤ leafCapacity :=
    fun run => mem_leafRuns hleaf
  have hleaves := addLeaves_eq pages fun run hrun => (hmem run hrun).1
  generalize hgiven : leafRuns leafCapacity entries = runs at *
  let twigs : List Twig := runs.zipIdx.map fun run =>
    { id := pages.length + run.2, leaves := [pages.length + run.2], nodes := [pages.length + run.2]
      key := (run.1.headD default).value }
  have hsingle : ∀ (f : Twig → List Nat), (∀ twig ∈ twigs, f twig = [twig.id]) →
      twigs.flatMap f = twigs.map Twig.id := by
    intro f hf
    rw [List.flatMap_congr hf, ← List.map_eq_flatMap]
  have hids : twigs.map Twig.id = List.range' pages.length runs.length := by
    refine List.ext_getElem (by simp [twigs]) fun i hi hi' => ?_
    simp [twigs]
  have hbottom : LevelOf internalCapacity 0 pages.length (List.range' pages.length runs.length)
      { pages := pages ++ leafPages pages.length runs
        levelPages := List.range' pages.length runs.length
        levelKeys := runs.map fun run => (run.headD default).value } twigs := by
    refine ⟨hids.symm, ?_, fun twig htwig => ?_, ?_, ?_, ?_⟩
    · refine List.ext_getElem (by simp [twigs]) fun i hi hi' => ?_
      simp [twigs]
    · obtain ⟨⟨run, i⟩, hrun, rfl⟩ := List.mem_map.mp htwig
      have hget : runs[i]? = some run := List.mem_zipIdx_iff_getElem?.mp hrun
      refine ⟨rfl, rfl, linkedLeaf pages.length runs.length i run, ?_, rfl, ?_⟩
      · show (pages ++ leafPages pages.length runs)[pages.length + i]? = _
        rw [List.getElem?_append_right (Nat.le_add_right _ _), Nat.add_sub_cancel_left,
          getElem?_leafPages, hget]
        rfl
      · have hne := (hmem _ (List.mem_of_getElem? hget)).1
        show (run.head?).map Entry.value = some (run.headD default).value
        rw [List.head?_eq_some_head hne, List.headD_eq_head?_getD, List.head?_eq_some_head hne]
        rfl
    · rw [hsingle _ fun twig htwig => ?_, hids]
      obtain ⟨run, -, rfl⟩ := List.mem_map.mp htwig
      rfl
    · simp
    · rw [hsingle _ fun twig htwig => ?_, hids, List.length_append, Nat.add_sub_cancel_left,
        length_leafPages]
      obtain ⟨run, -, rfl⟩ := List.mem_map.mp htwig
      rfl
  have hlength : twigs.length = runs.length := by simp [twigs]
  obtain ⟨top, height, twig, htop, hprefix, hroot⟩ := hbottom.build hinternal runs.length
    (by omega) (by omega)
  have hpages : pages <+: top.pages := (List.prefix_append _ _).trans hprefix
  refine ⟨top.pages, twig.id, ?_, hpages, fun i hi => ?_, ⟨height, twig, ?_, rfl, ?_, ?_⟩,
    hpages.length_le, le_rfl⟩
  · unfold addTable
    dsimp only
    rw [hgiven, hleaves, except_ok_bind, require_of (by rw [Ne, List.range'_eq_nil_iff]; omega),
      except_ok_bind, List.length_range', htop, except_ok_bind, hroot.ids]
    rfl
  · rw [hgiven] at hi ⊢
    obtain ⟨more, hmore⟩ := hprefix
    rw [← hmore, List.getElem?_append_left (by simp [length_leafPages]; omega),
      List.getElem?_append_right (Nat.le_add_right _ _), Nat.add_sub_cancel_left, getElem?_leafPages]
  · exact hroot.trees twig (by simp)
  · rw [hgiven, ← hroot.leafIds]
    simp
  · have hnodes := hroot.nodes
    rwa [List.flatMap_singleton] at hnodes

/-- The loop over the tables: they follow one another from page one on. -/
theorem addTables_eq (hleaf : 0 < leafCapacity) (hinternal : 3 ≤ internalCapacity)
    {tables : List (List Entry)} (hne : ∀ entries ∈ tables, entries ≠ []) (first : Page) :
    ∃ pages roots, tables.foldlM (addTable leafCapacity internalCapacity) ([first], []) =
        .ok (pages, roots) ∧ [first] <+: pages ∧ roots.length = tables.length ∧
      ∃ cut : Nat → Nat, cut 0 = 1 ∧ cut tables.length = pages.length ∧
        ∀ t (ht : t < tables.length), TableIn leafCapacity internalCapacity pages tables[t]
          (roots.getD t 0) (cut t) (cut (t + 1)) := by
  induction tables using List.reverseRecOn with
  | nil => exact ⟨[first], [], rfl, List.prefix_rfl, rfl, fun _ => 1, rfl, rfl,
      fun t ht => absurd ht (Nat.not_lt_zero t)⟩
  | append_singleton tables entries ih =>
      obtain ⟨pages, roots, hfold, hfirst, hlength, cut, hzero, hlast, htables⟩ :=
        ih fun other hother => hne other (List.mem_append_left _ hother)
      obtain ⟨pages', root, hadd, hpages, htable⟩ := addTable_eq hleaf hinternal
        (hne entries (by simp)) pages roots
      refine ⟨pages', roots ++ [root], ?_, hfirst.trans hpages, by simp [hlength],
        fun t => if t ≤ tables.length then cut t else pages'.length, ?_, ?_, fun t ht => ?_⟩
      · rw [List.foldlM_append, hfold, except_ok_bind, List.foldlM_cons, hadd]
        rfl
      · simp only [Nat.zero_le, if_true, hzero]
      · simp
      · rw [List.length_append, List.length_singleton] at ht
        rcases Nat.lt_succ_iff_lt_or_eq.mp ht with hlt | rfl
        · simp only [hlt.le, Nat.succ_le_of_lt hlt, if_true]
          rw [List.getElem_append_left hlt,
            List.getD_append _ _ _ _ (hlength.symm ▸ hlt)]
          exact (htables t hlt).mono hpages
        · simp only [le_rfl, Nat.not_succ_le_self, if_true, if_false, hlast]
          rw [List.getElem_concat_length rfl,
            List.getD_append_right _ _ _ _ hlength.le, hlength, Nat.sub_self]
          exact htable

end Tables

end Qalsh.BPlusTreeIndex
