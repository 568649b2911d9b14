/-
  TreeFile.lean --- a B+ tree file that was built can be opened.

  Every page of a build fits its page and is read back, so the pass over the page
  headers accepts them and the index holds the pages; the trees of the tables are then
  walked.  What is opened stores each table in the leaves it was cut into.
-/
import Qalsh.TreeAccept
import Qalsh.Written

set_option autoImplicit false

namespace Qalsh

open Foundation

/-! ## Pages in a file -/

/-- A page of a file with `count` pages, as `Build` makes it. -/
structure Page.Sound (count pageSize : Nat) (page : Page) : Prop where
  fits : page.Fits
  shape : (page.LeafFits pageSize ∧ page.header.count ≤ leafCapacity pageSize) ∨
    (page.InternalFits pageSize ∧ page.header.count ≤ internalCapacity pageSize ∧
      page.header.previous = 0 ∧ page.header.next = 0)
  previous : page.header.previous < count
  next : page.header.next < count

section Pages

variable {count pageSize : Nat} {page : Page} {bytes : List UInt8}

theorem length_serializePage (hsize : AcceptedPageSize pageSize)
    (h : serializePage page pageSize = .ok bytes) : bytes.length = pageSize := by
  have hheader := length_withHeader hsize page.header
  rcases (serializePage_eq_ok hsize).mp h with ⟨hleaf, rfl⟩ | ⟨hinternal, rfl⟩
  · have hroom := hleaf.room
    rw [length_overlayItems length_encodeEntry (by rw [hheader, ← hleaf.count]; exact hroom), hheader]
  · have hroom := hinternal.room
    have hcount := hinternal.count
    have hseparators := hinternal.separators
    have hchildren : (overlayItems encodeChild 8 pageHeaderSize page.children
        (withHeader pageSize page.header)).length = pageSize := by
      rw [length_overlayItems length_encodeChild (by rw [hheader]; omega), hheader]
    rw [length_overlayItems length_encodeFloat (by rw [hchildren, separatorsOffset]; omega), hchildren]

theorem Page.Sound.serialized (h : page.Sound count pageSize) (hsize : AcceptedPageSize pageSize) :
    ∃ bytes, serializePage page pageSize = .ok bytes ∧ bytes.length = pageSize ∧
      page.ReadsBack bytes := by
  obtain ⟨bytes, hbytes⟩ : ∃ bytes, serializePage page pageSize = .ok bytes := by
    rcases h.shape with ⟨hleaf, -⟩ | ⟨hinternal, -⟩
    · exact ⟨_, (serializePage_eq_ok hsize).mpr (Or.inl ⟨hleaf, rfl⟩)⟩
    · exact ⟨_, (serializePage_eq_ok hsize).mpr (Or.inr ⟨hinternal, rfl⟩)⟩
  refine ⟨bytes, hbytes, length_serializePage hsize hbytes, ?_⟩
  rcases (serializePage_eq_ok hsize).mp hbytes with ⟨hleaf, heq⟩ | ⟨hinternal, heq⟩
  · exact hleaf.readsBack hsize h.fits heq
  · exact hinternal.readsBack hsize h.fits heq

theorem Page.Sound.checkPageHeader (h : page.Sound count pageSize) (hsize : AcceptedPageSize pageSize) :
    checkPageHeader count pageSize page.header = .ok () := by
  have hmax : maxReasonablePageSize ≤ uint64Max := by decide
  have hupper := hsize.upper
  have hkinds : internalPage ≠ leafPage := by decide
  have hsizes : (page.header.kind = leafPage ∨ page.header.kind = internalPage) ∧
      checkPageSize pageSize page.header = .ok () := by
    rcases h.shape with ⟨hleaf, hcapacity⟩ | ⟨hinternal, hcapacity, hprevious, hnext⟩
    · have hroom := hleaf.room
      refine ⟨Or.inl hleaf.kind, ?_⟩
      rw [checkPageSize, if_pos hleaf.kind, checkLeafPage, checkedMultiplyOrThrow_of_le (by omega),
        except_ok_bind, checkedAddOrThrow_of_le (by omega), except_ok_bind,
        require_of ⟨hleaf.nonempty, hcapacity, hroom⟩]
    · have hroom := hinternal.room
      have hbinary := hinternal.binary
      refine ⟨Or.inr hinternal.kind, ?_⟩
      rw [checkPageSize, if_neg (by rw [hinternal.kind]; exact hkinds), checkInternalPage,
        checkedMultiplyOrThrow_of_le (by omega), except_ok_bind, if_neg (by omega),
        checkedMultiplyOrThrow_of_le (by omega), except_ok_bind, checkedAddOrThrow_of_le (by omega),
        except_ok_bind, checkedAddOrThrow_of_le (by omega), except_ok_bind,
        require_of ⟨hbinary, hcapacity, hroom, hprevious, hnext⟩]
  unfold Qalsh.checkPageHeader
  rw [require_of hsizes.1, except_ok_bind, hsizes.2, except_ok_bind, require_of (Or.inr h.previous),
    except_ok_bind, require_of (Or.inr h.next)]

end Pages

namespace BPlusTreeIndex

/-! ## The pages of a build -/

section Build

variable {pageSize : Nat} {pages : List Page}

/-- The pages of one table. -/
theorem TableIn.sound (hsize : AcceptedPageSize pageSize) (hcount : pages.length < 2 ^ 64)
    {points root start stop : Nat} (hpoints : points ≤ 2 ^ 30) {table : SortedTable points}
    (h : TableIn (leafCapacity pageSize) (internalCapacity pageSize) pages table.entries root start stop)
    (hstart : 0 < start) {i : Nat} (hle : start ≤ i) (hlt : i < stop) {page : Page}
    (hpage : pages[i]? = some page) : page.Sound pages.length pageSize := by
  obtain ⟨height, twig, htree, -, hleaves, hnodes⟩ := h.tree
  have hordered := h.ordered
  have hbound := h.bound
  have hinside : ∀ node ∈ twig.nodes, start ≤ node ∧ node < stop := by
    intro node hnode
    have hmem := hnodes.mem_iff.mp hnode
    rw [List.mem_range'_1] at hmem
    omega
  have hnode : i ∈ twig.nodes := hnodes.mem_iff.mpr (List.mem_range'_1.mpr (by omega))
  have hcapacity : 0 < leafCapacity pageSize := by
    have hlower := hsize.lower
    unfold leafCapacity pageHeaderSize entrySize
    omega
  rcases htree.node i hnode with hleaf | ⟨group, hgroup, ⟨hbinary, hfits⟩, hids⟩
  · rw [hleaves] at hleaf
    obtain ⟨j, hj, rfl⟩ := List.mem_range'.mp hleaf
    rw [Nat.one_mul] at hpage hlt
    have hentries := h.leaves j hj
    rw [hpage, List.getElem?_eq_getElem hj, Option.map_some, Option.some.injEq] at hentries
    have hrun := List.getElem_mem hj
    generalize (leafRuns (leafCapacity pageSize) table.entries)[j] = run at *
    obtain ⟨hne, hlength⟩ := mem_leafRuns hcapacity hrun
    -- the last leaf is one of the pages
    have hlast : start + (leafRuns (leafCapacity pageSize) table.entries).length ≤ stop := by
      have hmem : start + ((leafRuns (leafCapacity pageSize) table.entries).length - 1) ∈ twig.leaves := by
        rw [hleaves]
        exact List.mem_range'_1.mpr (by omega)
      have := (hinside _ (htree.leaves_subset hmem)).2
      omega
    have hsub : ∀ entry ∈ run, entry ∈ table.entries := fun entry hentry => by
      have hmem := List.mem_flatten_of_mem hrun hentry
      rwa [flatten_leafRuns hcapacity] at hmem
    have hids : ∀ entry ∈ run, entry.pointId < 2 ^ 32 := fun entry hentry => by
      have hid := table.ids.mem_iff.mp (List.mem_map_of_mem (hsub entry hentry))
      rw [List.mem_range] at hid
      omega
    have hcapacity32 : leafCapacity pageSize < 2 ^ 32 := by
      have hupper : pageSize ≤ 64 * 1024 * 1024 := hsize.upper
      unfold leafCapacity pageHeaderSize entrySize
      omega
    have hprevious : page.header.previous < pages.length := by
      rw [hentries]
      show (if j = 0 then 0 else start + j - 1) < pages.length
      split <;> omega
    have hnext : page.header.next < pages.length := by
      rw [hentries]
      show (if j + 1 < (leafRuns (leafCapacity pageSize) table.entries).length then start + j + 1
        else 0) < pages.length
      split <;> omega
    have hcountEq : page.header.count = run.length := by rw [hentries]; rfl
    have hentriesEq : page.entries = run := by rw [hentries]; rfl
    exact
      { fits :=
          { count := by rw [hcountEq]; omega
            previous := by omega
            next := by omega
            ids := by rw [hentriesEq]; exact hids
            children := by rw [hentries]; exact fun child hchild => by cases hchild }
        shape := Or.inl ⟨
          { kind := by rw [hentries]; rfl
            count := by rw [hcountEq, hentriesEq]
            nonempty := by rw [hcountEq]; exact List.length_pos_of_ne_nil hne
            room := by rw [hcountEq]; exact leafCapacity_room hsize hlength }, by rw [hcountEq]; exact hlength⟩
        previous := hprevious
        next := hnext }
  · rw [hpage, Option.some.injEq] at hgroup
    have hcountEq : page.header.count = group.length := by
      rw [hgroup]
      exact List.length_map _
    have hcapacity32 : internalCapacity pageSize < 2 ^ 32 := by
      have hupper : pageSize ≤ 64 * 1024 * 1024 := hsize.upper
      unfold internalCapacity pageHeaderSize
      omega
    have hchildren : page.children = group.map Twig.id := by rw [hgroup]; rfl
    exact
      { fits :=
          { count := by rw [hcountEq]; omega
            previous := by rw [hgroup]; exact Nat.two_pow_pos 64
            next := by rw [hgroup]; exact Nat.two_pow_pos 64
            ids := by rw [hgroup]; exact fun entry hentry => by cases hentry
            children := by
              rw [hchildren]
              intro child hchild
              obtain ⟨other, hother, rfl⟩ := List.mem_map.mp hchild
              have := (hinside _ (hids other hother)).2
              omega }
        shape := Or.inr ⟨
          { kind := by rw [hgroup]; rfl
            count := by rw [hcountEq, hchildren, List.length_map]
            binary := by rw [hcountEq]; exact hbinary
            separators := by
              rw [hchildren, hgroup]
              show ((group.map Twig.key).drop 1).length + 1 = _
              rw [List.length_drop, List.length_map, List.length_map]
              omega
            room := by rw [hcountEq]; exact internalCapacity_room hsize hfits },
          by rw [hcountEq]; exact hfits, by rw [hgroup]; rfl, by rw [hgroup]; rfl⟩
        previous := by rw [hgroup]; show 0 < pages.length; omega
        next := by rw [hgroup]; show 0 < pages.length; omega }

end Build

/-! ## Reading them -/

/-- An index whose file has the pages of a build. -/
structure Reads (index : BPlusTreeIndex) (pages : List Page) : Prop where
  laid : index.Laid
  accepted : AcceptedPageSize index.metadata.pageSize
  count : index.pageCount = pages.length
  sound : ∀ (i : Nat) (page : Page), 0 < i → pages[i]? = some page →
    page.Sound pages.length index.metadata.pageSize
  read : ∀ (i : Nat) (page : Page), 0 < i → pages[i]? = some page → page.ReadsBack (index.page i)

section Reading

variable {index : BPlusTreeIndex} {pages : List Page}

/-- The pass over the page headers. -/
theorem Reads.loadPageHeaders_ok (h : index.Reads pages) :
    ∃ headers, index.loadPageHeaders = .ok headers ∧ ∀ (i : Nat) (page : Page), 0 < i →
      pages[i]? = some page → headers i = page.header := by
  have hloop : ∃ headers, index.loadPageHeaders = .ok headers ∧ ∀ (i : Nat) (page : Page), 0 < i →
      i ≤ index.pageCount - 1 → pages[i]? = some page → headers i = page.header := by
    unfold loadPageHeaders
    refine foldlM_range_ok (P := fun count (headers : Nat → PageHeader) => ∀ (i : Nat) (page : Page),
      0 < i → i ≤ count → pages[i]? = some page → headers i = page.header)
      (fun i _ hpos hle => absurd hle (Nat.not_le.mpr hpos)) fun i headers hi hheaders => ?_
    have hlt : i + 1 < pages.length := by
      rw [← h.count]
      omega
    have hpage := List.getElem?_eq_getElem hlt
    have hsound := h.sound _ _ (Nat.succ_pos i) hpage
    refine ⟨setAt headers (i + 1) pages[i + 1].header, ?_, fun j page hpos hle hj => ?_⟩
    · unfold loadPageHeader
      rw [h.laid.readPage_eq (Nat.succ_pos i) (h.count ▸ hlt), except_ok_bind,
        (h.read _ _ (Nat.succ_pos i) hpage).header, except_ok_bind, h.count,
        hsound.checkPageHeader h.accepted]
      rfl
    · by_cases heq : j = i + 1
      · subst heq
        rw [hpage, Option.some.injEq] at hj
        rw [setAt_same, hj]
      · rw [setAt_other _ _ heq]
        exact hheaders j page hpos (by omega) hj
  obtain ⟨headers, hload, hheaders⟩ := hloop
  refine ⟨headers, hload, fun i page hpos hpage => hheaders i page hpos ?_ hpage⟩
  have hlt := (List.getElem?_eq_some_iff.mp hpage).1
  have hcount := h.count
  omega

/-- With its page headers the index holds the pages. -/
theorem Reads.holds (h : index.Reads pages)
    (hheaders : ∀ (i : Nat) (page : Page), 0 < i → pages[i]? = some page →
      index.pageHeaders i = page.header) : index.Paged ∧ index.Contains pages := by
  have hpageOf : ∀ i < index.pageCount, ∃ page, pages[i]? = some page := fun i hi =>
    ⟨_, List.getElem?_eq_getElem (h.count ▸ hi)⟩
  have hkinds : leafPage ≠ internalPage := by decide
  have hpaged : index.Paged := by
    refine ⟨h.laid, fun pageId hpos hlt => ?_⟩
    obtain ⟨page, hpage⟩ := hpageOf pageId hlt
    have hsound := h.sound _ _ hpos hpage
    have hcheck := hsound.checkPageHeader h.accepted
    rw [← hheaders _ _ hpos hpage, ← h.count] at hcheck
    exact pageChecked_of_checkPageHeader hcheck
  refine ⟨hpaged, h.count, hheaders, fun i page hpos hpage hkind => ?_, fun i page hpos hpage hkind => ?_,
    fun i page hpos hpage hkind => ?_⟩
  · obtain ⟨hleaf, -⟩ : page.LeafFits index.metadata.pageSize ∧ _ :=
      (h.sound _ _ hpos hpage).shape.resolve_right fun hinternal =>
        hkinds (hkind.symm.trans hinternal.1.kind)
    have hheader := hheaders _ _ hpos hpage
    have hlt : i < index.pageCount := h.count ▸ (List.getElem?_eq_some_iff.mp hpage).1
    refine List.ext_getElem (by rw [length_leafEntries, hheader, hleaf.count]) fun j hj hj' => ?_
    have hcount : j < (index.pageHeaders i).count := by rwa [length_leafEntries] at hj
    obtain ⟨entry, hentry, hread⟩ := (h.read _ _ hpos hpage).entry hkind j (by rwa [← hheader])
    have hread' := hpaged.readDiskEntry_eq hpos hlt (by rw [hheader, hkind]) hcount
    rw [hheader, hread, Except.ok.injEq] at hread'
    rw [List.getElem?_eq_getElem hj', Option.some.injEq] at hentry
    rw [hentry, hread']
    simp [leafEntries]
  · obtain ⟨hinternal, -⟩ : page.InternalFits index.metadata.pageSize ∧ _ :=
      (h.sound _ _ hpos hpage).shape.resolve_left fun hleaf => hkinds (hleaf.1.kind.symm.trans hkind)
    have hheader := hheaders _ _ hpos hpage
    have hlt : i < index.pageCount := h.count ▸ (List.getElem?_eq_some_iff.mp hpage).1
    have hlength := h.laid.length_page hlt
    have hroom := hinternal.room
    refine List.ext_getElem (by rw [length_children, hheader, hinternal.count]) fun c hc hc' => ?_
    have hcount : c < page.header.count := by rwa [length_children, hheader] at hc
    obtain ⟨child, hchild, hread⟩ := (h.read _ _ hpos hpage).child hkind c hcount
    rw [readChild_of hkind hcount (by rw [hlength]; omega) (by rw [hlength]; exact h.laid.pageSize),
      Except.ok.injEq] at hread
    rw [List.getElem?_eq_getElem hc', Option.some.injEq] at hchild
    rw [hchild, ← hread]
    simp [children, childAt]
  · obtain ⟨hinternal, -⟩ : page.InternalFits index.metadata.pageSize ∧ _ :=
      (h.sound _ _ hpos hpage).shape.resolve_left fun hleaf => hkinds (hleaf.1.kind.symm.trans hkind)
    have hheader := hheaders _ _ hpos hpage
    have hlt : i < index.pageCount := h.count ▸ (List.getElem?_eq_some_iff.mp hpage).1
    have hlength := h.laid.length_page hlt
    have hroom := hinternal.room
    have hseparators := hinternal.separators
    have hcountEq := hinternal.count
    refine List.ext_getElem (by simp [separators, hheader]; omega) fun c hc hc' => ?_
    have hcount : c + 1 < page.header.count := by omega
    obtain ⟨separator, hseparator, hread⟩ := (h.read _ _ hpos hpage).separator hkind c hcount
    rw [readSeparator_of hkind hcount (by rw [hlength]; exact hroom)
      (by rw [hlength]; exact h.laid.pageSize), Except.ok.injEq] at hread
    rw [List.getElem?_eq_getElem hc', Option.some.injEq] at hseparator
    rw [hseparator, ← hread]
    simp [separators, separatorAt, hheader]

/-- The pages of a file lie under the roots of these tables, table after table. -/
structure Rooted (index : BPlusTreeIndex) (pages : List Page)
    (tables : List (SortedTable index.metadata.numPoints)) (cut : Nat → Nat) : Prop where
  roots : index.roots.length = tables.length
  start : cut 0 = 1
  stop : cut tables.length = pages.length
  points : 0 < index.metadata.numPoints
  trees : ∀ (t : Nat) (ht : t < tables.length), TableIn (leafCapacity index.metadata.pageSize)
    (internalCapacity index.metadata.pageSize) pages (tables.get ⟨t, ht⟩).entries
    (index.roots.getD t 0) (cut t) (cut (t + 1))

theorem SortedTable.eq_of_entries {points : Nat} {table table' : SortedTable points}
    (h : table.entries = table'.entries) : table = table' := by
  cases table
  cases table'
  cases h
  rfl

/-- All passes accept the pages of a build, and every table is stored in its leaves. -/
theorem Reads.checkPages_ok (h : index.Reads pages)
    {tables : List (SortedTable index.metadata.numPoints)} {cut : Nat → Nat}
    (hrooted : index.Rooted pages tables cut) :
    ∃ headers ranks, index.checkPages =
        .ok { index with pageHeaders := headers, leafRanks := ranks } ∧
      ∀ (t : Nat) (ht : t < tables.length),
        ({ index with pageHeaders := headers, leafRanks := ranks } : BPlusTreeIndex).StoresIn t
          (tables.get ⟨t, ht⟩) (index.leavesAt (leafCapacity index.metadata.pageSize) (cut t)) ∧
        ∀ i < groupCount index.metadata.numPoints (leafCapacity index.metadata.pageSize),
          ({ index with pageHeaders := headers, leafRanks := ranks } : BPlusTreeIndex).LeafAt
            (leafCapacity index.metadata.pageSize) (cut t) i (tables.get ⟨t, ht⟩).entries := by
  obtain ⟨headers, hload, hheaders⟩ := h.loadPageHeaders_ok
  let checked : (Nat → Nat) → BPlusTreeIndex := fun ranks =>
    { index with pageHeaders := headers, leafRanks := ranks }
  have hroom : 0 < leafCapacity index.metadata.pageSize := by
    have hlower := h.accepted.lower
    unfold leafCapacity pageHeaderSize entrySize
    omega
  have htrees : ∀ ranks, (checked ranks).TreesIn pages (leafCapacity index.metadata.pageSize)
      (internalCapacity index.metadata.pageSize) tables cut := by
    intro ranks
    have hreads : (checked ranks).Reads pages :=
      ⟨⟨h.laid.pages, h.laid.mapping, h.laid.pageSize⟩, h.accepted, h.count, h.sound, h.read⟩
    obtain ⟨hpaged, hholds⟩ := hreads.holds hheaders
    exact ⟨hpaged, hholds, hrooted.roots, hrooted.start, hrooted.stop, hroom, hrooted.points,
      hrooted.trees⟩
  have hlinks : ∀ (ranks : Nat → Nat) (state : TreeState), (checked ranks).BuiltWalked
      (leafCapacity index.metadata.pageSize) cut tables.length state →
      (List.range (index.pageCount - 1)).forM (fun i => checkLinks headers state (i + 1)) = .ok () :=
    fun ranks state hstate => forM_eq_ok.mpr fun i hi =>
      (htrees ranks).checkLinks_ok hstate (Nat.succ_pos i) (by
        rw [List.mem_range] at hi
        show i + 1 < index.pageCount
        omega)
  obtain ⟨state, hwalk, hstate⟩ := (htrees fun _ => uint64Max).checkTrees_ok
  -- the chains rank the leaves of one table after the other
  have hchains : ∃ ranks, (List.range index.roots.length).foldlM
      ((checked fun _ => uint64Max).checkChain headers state) (fun _ => uint64Max) = .ok ranks ∧
        Unranked (cut index.roots.length) ranks :=
    foldlM_range_ok (P := fun count ranks => Unranked (cut count) ranks) (fun _ _ => rfl)
      fun t ranks ht hranks => (htrees _).checkChain_ok hstate (hrooted.roots ▸ ht) hranks
  obtain ⟨ranks, hchain, -⟩ := hchains
  refine ⟨headers, ranks, ?_, fun t ht => ⟨?_, fun i hi => (htrees ranks).leafAt ht hi⟩⟩
  · unfold checkPages
    rw [hload, except_ok_bind]
    change ((checked fun _ => uint64Max).checkTrees headers >>= fun state => _) = _
    change (checked fun _ => uint64Max).checkTrees headers = _ at hwalk
    rw [hwalk, except_ok_bind, hlinks _ state hstate, except_ok_bind]
    change ((List.range index.roots.length).foldlM ((checked fun _ => uint64Max).checkChain headers state)
      (fun _ => uint64Max) >>= fun _ => _) = _
    rw [hchain]
    rfl
  · obtain ⟨state', -, hstate'⟩ := (htrees ranks).checkTrees_ok
    have hwalked := hstate'.tables t ht
    have hunranked : Unranked (cut t) fun _ => uint64Max := fun _ _ => rfl
    obtain ⟨ranks', hturn, -⟩ := (htrees ranks).checkChain_ok hstate' ht hunranked
    have hstores := hwalked.storesIn (htrees ranks).paged (hrooted.roots.symm ▸ ht)
      (linksChecked_of_forM (hlinks ranks state' hstate')) _ hturn
    have htable : hwalked.table = tables.get ⟨t, ht⟩ :=
      SortedTable.eq_of_entries ((htrees ranks).entriesOf_leavesAt ht)
    rw [htable] at hstores
    exact hstores

end Reading

/-! ## The layout -/

/-- The bytes of a page. -/
def pageBytes (pageSize : Nat) (page : Page) : List UInt8 :=
  (serializePage page pageSize).toOption.getD []

/-- The pages with their offsets; there is no page 0. -/
def pageData (data pageSize : Nat) (pages : List Page) : List (Nat × List UInt8) :=
  (pages.zipIdx.drop 1).map fun page => (data + page.2 * pageSize, pageBytes pageSize page.1)

/-- What `Build` writes. -/
structure FileLaid (config : IndexConfig) (pageSize : Nat) (vectors : List Binary32)
    (tables : List (SortedTable config.numPoints)) (fileSize : Nat) (file : File) : Prop where
  written : ∃ (offsets : MetadataOffsets) (pages : List Page) (roots : List Nat) (cut : Nat → Nat),
    Framed config pageSize vectors offsets pages.length fileSize ∧
    (roots.length = config.qalsh.numHashTables ∧ cut 0 = 1 ∧ cut tables.length = pages.length) ∧
    (1 < pages.length ∧ ∀ root ∈ roots, 0 < root ∧ root < pages.length) ∧
    (∀ (t : Nat) (ht : t < tables.length), TableIn (leafCapacity pageSize) (internalCapacity pageSize)
      pages (tables.get ⟨t, ht⟩).entries (roots.getD t 0) (cut t) (cut (t + 1))) ∧
    fileSize = offsets.data + pages.length * pageSize ∧
    Written (headerFor bPlusMagic config pageSize offsets pages.length fileSize) roots vectors
      (pageData offsets.data pageSize pages) file

section Layout

variable {config : IndexConfig} {pageSize : Nat} {vectors : List Binary32}
  {tables : List (SortedTable config.numPoints)} {pages : List Page}

/-- A page that is not the first, with its offset. -/
theorem mem_zipIdx_drop {page : Page × Nat} (h : page ∈ pages.zipIdx.drop 1) :
    0 < page.2 ∧ pages[page.2]? = some page.1 := by
  obtain ⟨i, hi⟩ := List.mem_iff_getElem?.mp h
  rw [List.getElem?_drop, List.getElem?_zipIdx] at hi
  obtain ⟨page', hpage, rfl⟩ := Option.map_eq_some_iff.mp hi
  rw [Nat.zero_add]
  exact ⟨Nat.add_pos_left Nat.one_pos i, hpage⟩

theorem cut_pos {roots : List Nat} {cut : Nat → Nat} (hstart : cut 0 = 1)
    (htrees : ∀ (t : Nat) (ht : t < tables.length), TableIn (leafCapacity pageSize)
      (internalCapacity pageSize) pages (tables.get ⟨t, ht⟩).entries (roots.getD t 0) (cut t)
      (cut (t + 1))) : ∀ t ≤ tables.length, 1 ≤ cut t := by
  intro t ht
  induction t with
  | zero => rw [hstart]
  | succ t ih => exact (ih (by omega)).trans (htrees t ht).ordered

/-- Every page of the tables is sound. -/
theorem sound_of_tables (haccepted : AcceptedPageSize pageSize) (hcount : pages.length < 2 ^ 64)
    (hpoints : config.numPoints ≤ 2 ^ 30) {roots : List Nat} {cut : Nat → Nat} (hstart : cut 0 = 1)
    (hstop : cut tables.length = pages.length)
    (htrees : ∀ (t : Nat) (ht : t < tables.length), TableIn (leafCapacity pageSize)
      (internalCapacity pageSize) pages (tables.get ⟨t, ht⟩).entries (roots.getD t 0) (cut t)
      (cut (t + 1))) :
    ∀ (i : Nat) (page : Page), 0 < i → pages[i]? = some page → page.Sound pages.length pageSize := by
  intro i page hpos hpage
  have hlt := (List.getElem?_eq_some_iff.mp hpage).1
  have hmono : ∀ t ≤ tables.length, 1 ≤ cut t := cut_pos hstart htrees
  -- the table whose pages these are
  have htable : ∀ count ≤ tables.length, i < cut count → ∃ t, ∃ ht : t < tables.length,
      cut t ≤ i ∧ i < cut (t + 1) := by
    intro count
    induction count with
    | zero =>
        intro _ h0
        rw [hstart] at h0
        omega
    | succ count ih =>
        intro hle hbelow
        rcases Nat.lt_or_ge i (cut count) with hearlier | hhere
        · exact ih (by omega) hearlier
        · exact ⟨count, by omega, hhere, hbelow⟩
  obtain ⟨t, ht, hfrom, hbelow⟩ := htable tables.length le_rfl (by omega)
  exact (htrees t ht).sound haccepted hcount hpoints (hmono t ht.le) hfrom hbelow hpage

theorem pageBytes_of (haccepted : AcceptedPageSize pageSize) {count : Nat} {page : Page}
    (h : page.Sound count pageSize) : serializePage page pageSize = .ok (pageBytes pageSize page) ∧
      (pageBytes pageSize page).length = pageSize ∧ page.ReadsBack (pageBytes pageSize page) := by
  obtain ⟨bytes, hbytes, hlength, hreads⟩ := h.serialized haccepted
  have heq : pageBytes pageSize page = bytes := by
    unfold pageBytes
    rw [hbytes]
    rfl
  rw [heq]
  exact ⟨hbytes, hlength, hreads⟩

theorem pagePieces_eq (haccepted : AcceptedPageSize pageSize) {data : Nat}
    (hmax : data + pages.length * pageSize ≤ uint64Max)
    (hsound : ∀ (i : Nat) (page : Page), 0 < i → pages[i]? = some page →
      page.Sound pages.length pageSize) :
    (pages.zipIdx.drop 1).map (fun page => pagePiece pageSize data page.1 page.2) =
      (pageData data pageSize pages).map Except.ok := by
  rw [pageData, List.map_map]
  refine List.map_congr_left fun page hpage => ?_
  obtain ⟨hpos, hget⟩ := mem_zipIdx_drop hpage
  have hlt := (List.getElem?_eq_some_iff.mp hget).1
  have hmul : page.2 * pageSize ≤ pages.length * pageSize := Nat.mul_le_mul_right _ hlt.le
  unfold pagePiece
  rw [(pageBytes_of haccepted (hsound _ _ hpos hget)).1, except_ok_bind,
    checkedMultiplyOrThrow_of_le (by omega), except_ok_bind, checkedAddOrThrow_of_le (by omega)]
  rfl

theorem pageData_sideBySide (haccepted : AcceptedPageSize pageSize) (data : Nat)
    (hsound : ∀ (i : Nat) (page : Page), 0 < i → pages[i]? = some page →
      page.Sound pages.length pageSize) :
    SideBySide (data + pages.length * pageSize) (pageData data pageSize pages) := by
  have hlength : ∀ page ∈ pages.zipIdx.drop 1, (pageBytes pageSize page.1).length = pageSize := by
    intro page hpage
    obtain ⟨hpos, hget⟩ := mem_zipIdx_drop hpage
    exact (pageBytes_of haccepted (hsound _ _ hpos hget)).2.1
  refine ⟨fun piece hpiece => ?_, ?_⟩
  · obtain ⟨page, hpage, rfl⟩ := List.mem_map.mp hpiece
    have hlt := (List.getElem?_eq_some_iff.mp (mem_zipIdx_drop hpage).2).1
    have hmul : (page.2 + 1) * pageSize ≤ pages.length * pageSize := Nat.mul_le_mul_right _ hlt
    rw [Nat.succ_mul] at hmul
    dsimp only
    rw [hlength page hpage]
    omega
  · rw [pageData, List.pairwise_map]
    have hordered : (pages.zipIdx.drop 1).Pairwise fun page other => page.2 < other.2 := by
      refine List.Pairwise.sublist (List.drop_sublist _ _) ?_
      rw [List.pairwise_iff_getElem]
      intro i j hi hj hij
      simpa using hij
    refine hordered.imp_of_mem fun {page other} hpage hother hless => Or.inl ?_
    have hmul : (page.2 + 1) * pageSize ≤ other.2 * pageSize := Nat.mul_le_mul_right _ hless
    rw [Nat.succ_mul] at hmul
    dsimp only
    rw [hlength page hpage]
    omega

theorem layoutOf_laid {layout : FileLayout} (hvalid : ValidConfig config)
    (haccepted : AcceptedPageSize pageSize)
    (hvectors : vectors.length = config.qalsh.numHashTables * config.numDimensions)
    (hfinite : ∀ value ∈ vectors, value.isFinite = true)
    (htables : tables.length = config.qalsh.numHashTables)
    (h : layoutOf config pageSize vectors (tables.map SortedTable.entries) = .ok layout) :
    ∃ file, layout.image = .ok file ∧ FileLaid config pageSize vectors tables layout.fileSize file := by
  have hmax : offTMax ≤ uint64Max := by decide
  have hlower := haccepted.lower
  have hleaf : 0 < leafCapacity pageSize := by
    unfold leafCapacity pageHeaderSize entrySize
    omega
  have hinternal : 3 ≤ internalCapacity pageSize := by
    unfold internalCapacity pageHeaderSize
    omega
  have hne : ∀ entries ∈ tables.map SortedTable.entries, entries ≠ [] := by
    intro entries hentries
    obtain ⟨table, -, rfl⟩ := List.mem_map.mp hentries
    have hpoints := hvalid.points.1
    rw [← List.length_pos_iff_ne_nil, table.length_entries]
    exact hpoints
  obtain ⟨pages, roots, hfold, -, hroots, cut, hstart, hstop, htrees⟩ :=
    addTables_eq hleaf hinternal hne default
  rw [List.length_map] at hroots hstop
  simp only [layoutOf, except_bind_eq_ok, require_eq_ok] at h
  obtain ⟨_, -, perTable, -, product, -, total, -, _, -, built, hbuilt, h⟩ := h
  rw [hfold] at hbuilt
  cases hbuilt
  dsimp only at h
  obtain ⟨offsets, hoffsets, pageBytes, hbytes, fileSize, hsize, _, -, _, hsmall, h⟩ := h
  rw [hroots, htables] at hoffsets
  have hsound := metadataOffsets_sound hoffsets
  obtain ⟨rfl, -⟩ := checkedMultiplyOrThrow_eq_ok hbytes
  obtain ⟨rfl, hfile⟩ := checkedAddOrThrow_eq_ok hsound.small hsize
  have hpages : pages.length ≤ pages.length * pageSize := Nat.le_mul_of_pos_right _ (by omega)
  have hcount : pages.length < 2 ^ 64 := by
    have : offTMax < 2 ^ 64 := by decide
    omega
  have hframed : Framed config pageSize vectors offsets pages.length
      (offsets.data + pages.length * pageSize) :=
    { valid := hvalid
      accepted := haccepted
      vectorsLength := hvectors
      vectorsFinite := hfinite
      sound := hsound
      dataEnd := Nat.le_add_right _ _
      small := hsmall
      pages := hcount }
  have htrees' : ∀ (t : Nat) (ht : t < tables.length), TableIn (leafCapacity pageSize)
      (internalCapacity pageSize) pages (tables.get ⟨t, ht⟩).entries (roots.getD t 0) (cut t)
      (cut (t + 1)) := fun t ht => by
    have htree := htrees t (by rwa [List.length_map])
    rwa [List.getElem_map] at htree
  have hpageSound := sound_of_tables haccepted hcount hvalid.points.2 hstart hstop htrees'
  have hmono : ∀ t ≤ tables.length, 1 ≤ cut t := cut_pos hstart htrees'
  have hrootIn : ∀ root ∈ roots, 0 < root ∧ root < pages.length := by
    intro root hroot
    obtain ⟨t, ht, rfl⟩ := List.getElem_of_mem hroot
    have htable := htrees' t (by omega)
    obtain ⟨height, twig, htree, hid, -, hnodes⟩ := htable.tree
    rw [List.getD_eq_getElem _ _ ht] at hid
    have hmem := hnodes.mem_iff.mp htree.id_mem
    rw [hid, List.mem_range'_1] at hmem
    have hbound := htable.bound
    have hfrom := hmono t (by omega)
    omega
  have hmany : 1 < pages.length := by
    have htablesPos := hvalid.tables.1
    obtain ⟨root, hroot⟩ := List.exists_mem_of_length_pos (show 0 < roots.length by omega)
    have := hrootIn root hroot
    omega
  have hrootLt : ∀ root ∈ roots, root < 2 ^ 64 := fun root hroot =>
    (hrootIn root hroot).2.trans hcount
  have hlaid := hframed.laidOut bPlusMagic rfl (hroots.trans htables) hrootLt
  have hpieces := pageData_sideBySide haccepted offsets.data hpageSound
  cases h
  have hdata := hsound.data
  have hsmall' := hsound.small
  have hprojections := hsound.projections
  have hrootBytes : roots.length * 8 ≤ uint64Max := by omega
  have hvectorBytes : vectors.length * 4 ≤ uint64Max := by omega
  have hpiecesEq : metadataPieces "root metadata is too large"
      (headerFor bPlusMagic config pageSize offsets pages.length
        (offsets.data + pages.length * pageSize)) roots vectors ++
        (pages.zipIdx.drop 1).map (fun page => pagePiece pageSize offsets.data page.1 page.2) =
      (metadataData (headerFor bPlusMagic config pageSize offsets pages.length
        (offsets.data + pages.length * pageSize)) roots vectors ++
        pageData offsets.data pageSize pages).map Except.ok := by
    rw [metadataPieces_eq hrootBytes hvectorBytes, pagePieces_eq haccepted hfile hpageSound, List.map_append]
  refine ⟨_, FileLayout.image_of_pieces hpiecesEq, offsets, pages, roots, cut, hframed,
    ⟨by omega, hstart, hstop⟩, ⟨hmany, hrootIn⟩, htrees', rfl, ?_⟩
  exact hlaid.written hpieces fun piece hpiece => by
    obtain ⟨page, -, rfl⟩ := List.mem_map.mp hpiece
    exact Nat.le_add_right _ _

/-! ## Opening it -/

/-- What an opened file serves: each table in consecutive leaves from its first page id on. -/
structure Serves (index : BPlusTreeIndex) (config : IndexConfig) (pageSize : Nat)
    (vectors : List Binary32) (tables : List (SortedTable config.numPoints)) (fileSize : Nat) :
    Prop where
  metadata : index.metadata =
    { metadataFromConfig config pageSize .bPlusTree with fileSize := fileSize }
  vectors : index.projectionVectors = vectors
  stores : ∃ first : Nat → Nat, ∀ t : QueryTable config.numPoints, tables[t.tableId]? = some t.table →
    index.StoresIn t.tableId t.table
      (List.range' (first t.tableId) (groupCount config.numPoints (leafCapacity pageSize))) ∧
    ∀ i < groupCount config.numPoints (leafCapacity pageSize),
      index.leafEntries (first t.tableId + i) =
        (t.table.entries.drop (i * leafCapacity pageSize)).take (leafCapacity pageSize)

variable {fileSize : Nat} {file : File}

theorem header_ok (badMagic : Error) (badLayout incomplete : String) {offsets : MetadataOffsets}
    {pageCount : Nat} (h : Framed config pageSize vectors offsets pageCount fileSize)
    (hmany : 1 < pageCount) (hsize : fileSize = offsets.data + pageCount * pageSize) :
    validateBPlusHeader badMagic badLayout incomplete
      (headerFor bPlusMagic config pageSize offsets pageCount fileSize) fileSize = .ok () := by
  have hmax : offTMax ≤ uint64Max := by decide
  have hsmall := h.small
  unfold validateBPlusHeader
  rw [h.validateHeaderFields, except_ok_bind]
  show (require (pageCount > 1) _ >>= fun _ => checkedMultiplyOrThrow pageCount pageSize _ >>= fun bytes =>
    checkedAddOrThrow offsets.data bytes _ >>= fun expected => require (fileSize = expected) _ >>= fun _ =>
    require (fileSize = fileSize) _ >>= fun _ => _) = _
  rw [require_of hmany, except_ok_bind, checkedMultiplyOrThrow_of_le (by omega), except_ok_bind,
    checkedAddOrThrow_of_le (by omega), except_ok_bind, require_of hsize, except_ok_bind,
    require_of rfl, except_ok_bind]
  exact h.validateHeaderOffsets _

/-- A built file passes the loader. -/
theorem loadHeader_laid (h : FileLaid config pageSize vectors tables fileSize file)
    (htables : tables.length = config.qalsh.numHashTables) (path : String) :
    ∃ index, loadHeader file path = .ok index ∧
      index.Serves config pageSize vectors tables fileSize := by
  obtain ⟨offsets, pages, roots, cut, hframed, ⟨hroots, hstart, hstop⟩, ⟨hmany, hrootIn⟩, htrees, hsize,
    hwritten⟩ := h.written
  have hmax : offTMax ≤ uint64Max := by decide
  have hoff : offTMax ≤ offMax := by decide
  have hsmall := hframed.small
  have hlength : file.length = fileSize := hwritten.length
  have hfile : file.length ≤ offMax := by omega
  have hdata := hframed.sound.data
  have hprojections := hframed.sound.projections
  have hrootsAt := hframed.sound.roots
  have hdataEnd := hframed.dataEnd
  have hvectors := hframed.vectorsLength
  have hpages64 : pages.length < 2 ^ 64 := hframed.pages
  have hpagesMax : pages.length ≤ uint64Max := Nat.le_of_lt_succ hpages64
  have haccepted := hframed.accepted
  have hpageSound := sound_of_tables haccepted hpages64 hframed.valid.points.2 hstart hstop htrees
  have hpageSize := haccepted.lower
  let header := headerFor bPlusMagic config pageSize offsets pages.length fileSize
  let metadata : IndexMetadata := { metadataFromConfig config pageSize .bPlusTree with fileSize := fileSize }
  let opened : BPlusTreeIndex :=
    { metadata := metadata
      projectionVectors := vectors
      roots := roots
      pageHeaders := fun _ => default
      leafRanks := fun _ => uint64Max
      dataOffset := offsets.data
      pageCount := pages.length
      mapping := file }
  have hreads : opened.Reads pages := by
    refine ⟨⟨by show offsets.data + pages.length * pageSize ≤ file.length; omega,
      by show file.length ≤ uint64Max; omega, haccepted.upper⟩, haccepted, rfl, hpageSound,
      fun i page hpos hpage => ?_⟩
    obtain ⟨-, hbytes, hback⟩ := pageBytes_of haccepted (hpageSound i page hpos hpage)
    have hmem : (offsets.data + i * pageSize, pageBytes pageSize page) ∈
        pageData offsets.data pageSize pages := by
      refine List.mem_map.mpr ⟨(page, i), List.mem_iff_getElem?.mpr ⟨i - 1, ?_⟩, rfl⟩
      rw [List.getElem?_drop, List.getElem?_zipIdx, Nat.add_sub_cancel' hpos, hpage]
      simp
    have hslice := hwritten.data _ hmem
    rw [hbytes] at hslice
    show page.ReadsBack (slice file (offsets.data + i * pageSize) pageSize)
    rw [hslice]
    exact hback
  have hrooted : opened.Rooted pages tables cut :=
    ⟨by show roots.length = tables.length; omega, hstart, hstop, hframed.valid.points.1, htrees⟩
  obtain ⟨headers, ranks, hcheck, hstores⟩ := hreads.checkPages_ok hrooted
  have hdecoded : decodeFileHeader (slice file 0 fileHeaderSize) = header := hwritten.decoded
  have hoffsets := hwritten.offsets
  have hfloats := hwritten.floats
  rw [hroots] at hoffsets
  change decodeOffsets (slice file offsets.roots _) _ = roots at hoffsets
  change decodeFloats (slice file offsets.projections _) _ = vectors at hfloats
  rw [hvectors] at hfloats hdata
  have hmetadata : metadataFromHeader header .bPlusTree = metadata := hframed.metadata bPlusMagic .bPlusTree
  have hqalsh : validateQalsh metadata.qalsh false = .ok () :=
    validateQalsh_eq_ok.mpr hframed.valid.qalsh
  have hchecked : vectors.forM (fun value => requireFinite value "QALSH index projection vector") =
      .ok () :=
    forM_eq_ok.mpr fun value hvalue => require_of (hframed.vectorsFinite value hvalue)
  have hrootChecks : roots.forM (fun root => require (root > 0 ∧ root < pages.length)
      "QALSH index root page is out of range") = .ok () :=
    forM_eq_ok.mpr fun root hroot => require_of (hrootIn root hroot)
  have hcapacities : leafCapacity pageSize > 0 ∧ internalCapacity pageSize ≥ 2 := by
    unfold leafCapacity internalCapacity pageHeaderSize entrySize
    omega
  have hload : loadHeader file path =
      .ok { opened with pageHeaders := headers, leafRanks := ranks } := by
    unfold loadHeader
    rw [readAt_of_le (by omega) hfile, except_ok_bind]
    dsimp only
    rw [hdecoded, hlength, header_ok _ _ _ hframed hmany hsize, except_ok_bind, hmetadata, hqalsh,
      except_ok_bind]
    simp only [show header.numHashTables = config.qalsh.numHashTables from rfl,
      show header.numDimensions = config.numDimensions from rfl,
      show header.projectionsOffset = offsets.projections from rfl,
      show header.rootsOffset = offsets.roots from rfl,
      show header.dataOffset = offsets.data from rfl, show header.fileSize = fileSize from rfl,
      show header.pageCount = pages.length from rfl, show header.pageSize = pageSize from rfl]
    rw [checkedMultiplyOrThrow_of_le (by omega), except_ok_bind,
      checkedMultiplyOrThrow_of_le (by omega), except_ok_bind,
      checkedMultiplyOrThrow_of_le (by omega), except_ok_bind,
      checkedSize_eq_ok.mpr ⟨rfl, (by omega)⟩, except_ok_bind,
      checkedSize_eq_ok.mpr ⟨rfl, (by omega)⟩, except_ok_bind, readAt_of_le (by omega) hfile,
      except_ok_bind, hoffsets, hrootChecks, except_ok_bind,
      checkedSize_eq_ok.mpr ⟨rfl, (by omega)⟩, except_ok_bind,
      checkedSize_eq_ok.mpr ⟨rfl, (by omega)⟩, except_ok_bind, readAt_of_le (by omega) hfile,
      except_ok_bind, hfloats, hchecked, except_ok_bind,
      checkedSize_eq_ok.mpr ⟨rfl, (by omega)⟩, except_ok_bind, require_of hcapacities, except_ok_bind,
      checkedSize_eq_ok.mpr ⟨rfl, (by omega)⟩, except_ok_bind]
    exact hcheck
  refine ⟨_, hload, rfl, rfl, cut, fun t ht => ?_⟩
  obtain ⟨hlt, hget⟩ := List.getElem?_eq_some_iff.mp ht
  have htable : tables.get ⟨t.tableId, hlt⟩ = t.table := hget
  have hstored : ({ opened with pageHeaders := headers, leafRanks := ranks } : BPlusTreeIndex).StoresIn
      t.tableId (tables.get ⟨t.tableId, hlt⟩) _ := (hstores t.tableId hlt).1
  rw [htable] at hstored
  refine ⟨hstored, fun i hi => ?_⟩
  have hentries := ((hstores t.tableId hlt).2 i hi).entries
  rw [← htable]
  exact hentries

/-- A built file can be opened, and what is opened serves the tables. -/
theorem openFile_laid (h : FileLaid config pageSize vectors tables fileSize file)
    (htables : tables.length = config.qalsh.numHashTables) (path : String) :
    ∃ index, openFile file path = .ok index ∧
      index.Serves config pageSize vectors tables fileSize := by
  obtain ⟨index, hload, hserves⟩ := loadHeader_laid h htables path
  refine ⟨index, ?_, hserves⟩
  obtain ⟨offsets, pages, roots, cut, hframed, -, ⟨hmany, -⟩, -, hsize, hwritten⟩ := h.written
  have hmax : offTMax ≤ uint64Max := by decide
  have hoff : offTMax ≤ offMax := by decide
  have hsmall := hframed.small
  have hlength : file.length = fileSize := hwritten.length
  have hprojections := hframed.sound.projections
  have hdata := hframed.sound.data
  have hdataEnd := hframed.dataEnd
  have hdecoded := hwritten.decoded
  unfold openFile
  rw [require_of (by omega), except_ok_bind, if_neg (by omega)]
  show (readAt file fileHeaderSize 0 path >>= fun envelope =>
    validateFileHeaderEnvelope (decodeFileHeader envelope) file.length >>= fun _ =>
    loadHeader file path) = _
  rw [readAt_of_le (by omega) (by omega), except_ok_bind, hdecoded, hlength, validateFileHeaderEnvelope,
    header_ok _ _ _ hframed hmany hsize, except_ok_bind, hload]

end Layout

/-- What a build that has been prepared writes. -/
theorem prepare_laid [Platform] {scheduler : Scheduler} {path : String} {config : IndexConfig}
    {accessor : Option PointAccessor} {pageSize : Nat} {layout : FileLayout}
    (h : prepare scheduler path config accessor pageSize = .ok layout) :
    ∃ points vectors tables file, accessor = some points ∧
      BuildTables config points vectors tables ∧ AcceptedPageSize pageSize ∧
      layout.image = .ok file ∧ FileLaid config pageSize vectors tables layout.fileSize file := by
  unfold prepare at h
  obtain ⟨⟨vectors, pushed⟩, hpushed, h⟩ := except_bind_eq_ok.mp h
  obtain ⟨entries, hsorted, h⟩ := except_bind_eq_ok.mp h
  obtain ⟨hchecks, points, tables, rfl, hbuild, rfl⟩ := buildTables_of_sorted hpushed hsorted
  have haccepted := (checkTarget_eq_ok.mp hchecks).2
  obtain ⟨hlength, hfinite⟩ := makeProjectionVectors_spec hbuild.valid hbuild.made
  obtain ⟨file, himage, hlaid⟩ := layoutOf_laid hbuild.valid haccepted hlength hfinite hbuild.count h
  exact ⟨points, vectors, tables, file, rfl, hbuild, haccepted, himage, hlaid⟩

end BPlusTreeIndex

end Qalsh
