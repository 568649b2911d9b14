/-
  Setup.lean --- from a query to the running search, and back.

  A search leases a scratch, clears what it must not keep, places its cursors and
  starts the strategy; then it runs as the ideal search does, and gives the scratch
  back.  So the whole search agrees with the ideal one, from any valid thread.
-/
import Qalsh.Realize

set_option autoImplicit false

namespace Qalsh

open Foundation

variable {R : Type} [RadiusArithmetic R] [Platform] {σ : Type} [HasThread R σ]

/-! ## Leasing and giving back -/

section Lease

omit [RadiusArithmetic R] [Platform] [HasThread R σ]

variable {pool : List (QueryScratch R)}

theorem freeSlot_unused {scratch : QueryScratch R} (h : pool[freeSlot pool]? = some scratch) :
    scratch.inUse = false := by
  obtain ⟨hlt, rfl⟩ := List.getElem?_eq_some_iff.mp h
  have hfree := List.findIdx_getElem (w := hlt)
  exact (Bool.not_eq_true' _).mp hfree

theorem freeSlot_append (h : ¬ freeSlot pool < pool.length) :
    freeSlot (pool ++ [QueryScratch.blank R]) = pool.length ∧ freeSlot pool = pool.length := by
  have hlen : freeSlot pool = pool.length :=
    le_antisymm List.findIdx_le_length (Nat.le_of_not_lt h)
  refine ⟨?_, hlen⟩
  unfold freeSlot at hlen ⊢
  rw [List.findIdx_append, hlen]
  simp [QueryScratch.blank]

/-- The leased pool: its free slot is in use and the others are as they were. -/
theorem leasePool_spec : (∃ scratch, (leasePool pool)[freeSlot pool]? =
      some { scratch with inUse := true } ∧ (scratch ∈ pool ∨ scratch = QueryScratch.blank R)) ∧
    ∀ slot ≠ freeSlot pool, ∀ scratch : QueryScratch R, scratch.inUse = true →
      (pool[slot]? = some scratch ↔ (leasePool pool)[slot]? = some scratch) := by
  unfold leasePool
  by_cases hlt : freeSlot pool < pool.length
  · simp only [hlt, if_true]
    refine ⟨⟨pool[freeSlot pool], ?_, Or.inl (List.getElem_mem hlt)⟩, fun slot hslot scratch _ => ?_⟩
    · rw [List.getElem?_modify_eq, List.getElem?_eq_getElem hlt]
      rfl
    · rw [List.getElem?_modify_ne _ _ (Ne.symm hslot)]
  · obtain ⟨happend, hlen⟩ := freeSlot_append hlt
    simp only [hlt, if_false]
    rw [happend, hlen]
    refine ⟨⟨QueryScratch.blank R, ?_, Or.inr rfl⟩, fun slot hslot scratch huse => ?_⟩
    · rw [List.getElem?_modify_eq, List.getElem?_append_right le_rfl, Nat.sub_self]
      rfl
    · rw [List.getElem?_modify_ne _ _ (Ne.symm hslot)]
      rcases Nat.lt_or_ge slot pool.length with h | h
      · rw [List.getElem?_append_left h]
      · rw [List.getElem?_eq_none h, List.getElem?_append_right h,
          List.getElem?_eq_none (by simp only [List.length_singleton]; omega)]

theorem forall_mem_modify {α : Type} {P : α → Prop} {items : List α} (h : ∀ a ∈ items, P a)
    {f : α → α} (hf : ∀ a, P a → P (f a)) (i : Nat) : ∀ a ∈ items.modify i f, P a := by
  intro a ha
  obtain ⟨j, hj⟩ := List.mem_iff_getElem?.mp ha
  rw [List.getElem?_modify] at hj
  cases hget : items[j]? with
  | none => rw [hget] at hj; cases hj
  | some a' =>
      have ha' := h a' (List.mem_of_getElem? hget)
      rw [hget] at hj
      obtain rfl : (if i = j then f a' else a') = a := Option.some.inj hj
      split
      · exact hf a' ha'
      · exact ha'

/-- `resize` to a length. -/
theorem length_resize {α : Type} (items : List α) (size : Nat) (fill : α) :
    (resize items size fill).length = size := by
  simp only [resize, List.length_append, List.length_take, List.length_replicate]
  omega

theorem mem_resize {α : Type} {items : List α} {size : Nat} {fill a : α}
    (h : a ∈ resize items size fill) : a ∈ items ∨ a = fill := by
  obtain h | h := List.mem_append.mp h
  · exact Or.inl (List.mem_of_mem_take h)
  · exact Or.inr (List.eq_of_mem_replicate h)

end Lease

section Threads

omit [RadiusArithmetic R]

theorem QueryScratch.Valid.withUse {heap : Heap} {scratch : QueryScratch R} (h : scratch.Valid heap)
    (inUse : Bool) : ({ scratch with inUse := inUse } : QueryScratch R).Valid heap :=
  ⟨h.epoch, h.stamps, h.identity, h.owned⟩

theorem QueryScratch.blank_valid (heap : Heap) : (QueryScratch.blank R).Valid heap where
  epoch := Nat.two_pow_pos 32
  stamps _ h := by cases h
  identity _ h := by cases h
  owned _ _ h := by cases h

theorem leasePool_valid {thread : Thread R} (h : thread.Valid) :
    (thread.withPool (leasePool thread.pool)).Valid := by
  have hblank : ∀ scratch ∈ thread.pool ++ [QueryScratch.blank R], scratch.Valid thread.heap := by
    intro scratch hscratch
    obtain hscratch | hscratch := List.mem_append.mp hscratch
    · exact h scratch hscratch
    · rw [List.mem_singleton.mp hscratch]
      exact QueryScratch.blank_valid _
  unfold leasePool
  refine forall_mem_modify ?_ (fun _ hvalid => hvalid.withUse true) _
  split
  · exact h
  · exact hblank

end Threads

section Slots

omit [RadiusArithmetic R]

variable {p q : Thread R} {s t : σ}

/-- A search that has leased its slot. -/
theorem Apart.lease (h : Apart none p q s t) :
    Leased (freeSlot (threadOf s).pool) (fun _ => True) p q
      (Qalsh.repool (leasePool (threadOf s).pool) s) t := by
  obtain ⟨⟨scratch, hat, -⟩, hother⟩ := @leasePool_spec R (threadOf s).pool
  refine ⟨h.repool (leasePool_valid h.twin.left) ?_, { scratch with inUse := true }, ?_, rfl, trivial⟩
  · refine h.left.weaken.trans ⟨fun slot hslot => hother slot ?_, le_rfl, fun _ _ _ hlock => hlock⟩
    exact fun heq => hslot (congrArg some heq.symm)
  · rw [threadOf_repool]
    exact hat

/-- The slot is given back; it was not in use at `p`. -/
theorem Leased.release {slot : Nat} {P : QueryScratch R → Prop} (h : Leased slot P p q s t)
    (hfree : ∀ scratch, p.pool[slot]? = some scratch → scratch.inUse = false) :
    Apart none p q (repool ((threadOf s).pool.modify slot fun scratch =>
      { scratch with inUse := false }) s) t := by
  refine h.apart.repool (forall_mem_modify h.apart.twin.left
    (fun _ hvalid => hvalid.withUse false) _) ⟨fun i _ scratch huse => ?_, h.apart.left.created,
    h.apart.left.objects⟩
  show _ ↔ ((threadOf s).pool.modify slot _)[i]? = some scratch
  by_cases hi : slot = i
  · subst hi
    obtain ⟨own, hat, -⟩ := h.scratch
    rw [List.getElem?_modify_eq, hat]
    constructor
    · intro hp
      rw [hfree scratch hp] at huse
      cases huse
    · intro heq
      rw [← Option.some.inj heq] at huse
      cases huse
  · rw [List.getElem?_modify_ne _ _ hi]
    exact h.apart.left.leased i (fun heq => hi (Option.some.inj heq)) scratch huse

end Slots

/-! ## Making a scratch ready -/

section Ready

variable {object : IndexObject} {content : Tables object.index.metadata.numPoints}
  (b : Backing R object.index content) {options : SearchOptions} {query : PointView} {k : Nat}
  {plan : QueryPlan} (hplan : planQuery object options query k = .ok plan)

/-- A scratch with the cursors of the first `count` tables in place. -/
structure Placed (plan : QueryPlan) (query : PointView) (index seenEpoch count : Nat) (scratch : QueryScratch R) : Prop where
  identity : scratch.indexIdentity = some index
  epoch : scratch.epoch = seenEpoch
  points : object.metadata.numPoints ≤ scratch.seenEpochs.length
  unseen : ∀ stamp ∈ scratch.seenEpochs, stamp ≠ seenEpoch
  size : scratch.cursors.length = plan.tableCount
  owned : ∀ cursor, some cursor ∈ scratch.cursors → object.index.owns cursor = true
  placed : ∀ tableId < count,
    ∃ (hfinite : ((plan.projections object query).getD tableId Binary32.zero).isFinite = true)
      (cursor : Cursor R), scratch.cursors[tableId]? = some (some cursor) ∧
      b.Holds (b.queryTable plan query tableId hfinite)
        (Outward.start (b.queryTable plan query tableId hfinite).split) cursor

theorem Heap.lock_eq_some {heap : Heap} {i : Nat} {object : IndexObject} :
    heap.lock i = some object ↔ heap.objects[i]? = some (some object) := by
  unfold lock
  exact Option.join_eq_some_iff

/-- A scratch any search may have left becomes one without cursors and marks. -/
theorem Placed.prepare (plan : QueryPlan) (query : PointView) {heap : Heap}
    {scratch : QueryScratch R} {index : Nat} (hobject : heap.lock index = some object)
    (hvalid : scratch.Valid heap) :
    Placed b plan query index (scratch.prepare heap index object plan.tableCount).epoch 0
        (scratch.prepare heap index object plan.tableCount) ∧
      (scratch.prepare heap index object plan.tableCount).inUse = scratch.inUse ∧
      (scratch.prepare heap index object plan.tableCount).Valid heap := by
  have hindex : index < heap.objects.length := by
    by_contra hge
    rw [Heap.lock, List.getElem?_eq_none (Nat.le_of_not_lt hge)] at hobject
    cases hobject
  generalize hready : scratch.prepare heap index object plan.tableCount = ready
  unfold QueryScratch.prepare at hready
  extract_lets current own sized seen counted at hready
  have hown : own.indexIdentity = some index ∧ own.inUse = scratch.inUse ∧
      own.seenEpochs = scratch.seenEpochs ∧ own.epoch = scratch.epoch ∧
      ∀ cursor, some cursor ∈ own.cursors → object.index.owns cursor = true := by
    unfold own
    split
    · exact ⟨rfl, rfl, rfl, rfl, fun cursor h => by cases h⟩
    · -- the scratch was last used for this very object
      rename_i hcurrent
      have hcurrent : current = some object.address := by
        by_contra hne
        exact hcurrent hne
      obtain ⟨other, hbind, haddress⟩ := Option.map_eq_some_iff.mp hcurrent
      obtain ⟨i, hi, hlock⟩ := Option.bind_eq_some_iff.mp hbind
      obtain rfl : i = index :=
        heap.distinct i index other object (Heap.lock_eq_some.mp hlock)
          (Heap.lock_eq_some.mp hobject) haddress
      obtain rfl : other = object := Option.some.inj (hlock.symm.trans hobject)
      exact ⟨hi, rfl, rfl, rfl, hvalid.owned i other hi hobject⟩
  obtain ⟨hidentity, huse, hseen, hepoch, hcursors⟩ := hown
  have hsized : sized.cursors.length = plan.tableCount ∧
      ∀ cursor, some cursor ∈ sized.cursors → object.index.owns cursor = true := by
    refine ⟨length_resize _ _ _, fun cursor h => ?_⟩
    obtain h | h := mem_resize h
    · exact hcursors cursor h
    · cases h
  have hstamps : object.metadata.numPoints ≤ seen.seenEpochs.length ∧
      seen = { sized with seenEpochs := seen.seenEpochs } ∧
      ∀ stamp ∈ seen.seenEpochs, stamp ≤ scratch.epoch := by
    have hsame : sized.seenEpochs = scratch.seenEpochs := hseen
    unfold seen
    split
    · refine ⟨(length_resize _ _ _).ge, rfl, fun stamp h => ?_⟩
      obtain h | h := mem_resize h
      · exact hvalid.stamps stamp (hsame ▸ h)
      · exact h ▸ Nat.zero_le _
    · refine ⟨Nat.le_of_not_lt ‹_›, rfl, fun stamp h => hvalid.stamps stamp (hsame ▸ h)⟩
  obtain ⟨hpoints, hseenEq, hstamps⟩ := hstamps
  have hcounted : counted.epoch = (scratch.epoch + 1) % 2 ^ 32 := by
    show (seen.epoch + 1) % 2 ^ 32 = _
    rw [hseenEq]
    show (own.epoch + 1) % 2 ^ 32 = _
    rw [hepoch]
  have hlt := hvalid.epoch
  have hfields : counted.indexIdentity = some index ∧ counted.inUse = scratch.inUse ∧
      counted.cursors = sized.cursors ∧ counted.seenEpochs = seen.seenEpochs := by
    refine ⟨?_, ?_, ?_, rfl⟩
    · show seen.indexIdentity = _
      rw [hseenEq]
      exact hidentity
    · show seen.inUse = _
      rw [hseenEq]
      exact huse
    · show seen.cursors = _
      rw [hseenEq]
  obtain ⟨hidentity, huse, hcursorsEq, hseenEpochs⟩ := hfields
  have hready' : ready.indexIdentity = some index ∧ ready.inUse = scratch.inUse ∧
      ready.cursors = sized.cursors ∧ ready.seenEpochs.length = seen.seenEpochs.length ∧
      ready.epoch < 2 ^ 32 ∧ ∀ stamp ∈ ready.seenEpochs, stamp < ready.epoch := by
    rw [← hready]
    split
    · -- the epoch has wrapped around
      refine ⟨hidentity, huse, hcursorsEq, ?_, Nat.one_lt_two_pow (Nat.succ_ne_zero 31),
        fun stamp h => ?_⟩
      · show (counted.seenEpochs.map _).length = _
        rw [List.length_map, hseenEpochs]
      · obtain ⟨_, -, rfl⟩ := List.mem_map.mp h
        exact Nat.one_pos
    · rename_i hne
      refine ⟨hidentity, huse, hcursorsEq, by rw [hseenEpochs], ?_, fun stamp h => ?_⟩
      · rw [hcounted]
        exact Nat.mod_lt _ (Nat.two_pow_pos 32)
      · have hle := hstamps stamp (hseenEpochs ▸ h)
        omega
  obtain ⟨hidentity, huse, hcursors, hlength, hlt', hfresh⟩ := hready'
  refine ⟨⟨hidentity, rfl, hlength ▸ hpoints, fun stamp h => (hfresh stamp h).ne,
    hcursors ▸ hsized.1, hcursors ▸ hsized.2, fun _ h => absurd h (Nat.not_lt_zero _)⟩, huse,
    ⟨hlt', fun stamp h => (hfresh stamp h).le, fun i hi => ?_, fun i other hi hlock => ?_⟩⟩
  · obtain rfl : index = i := Option.some.inj (hidentity.symm.trans hi)
    exact hindex
  · obtain rfl : index = i := Option.some.inj (hidentity.symm.trans hi)
    obtain rfl : other = object := Option.some.inj (hlock.symm.trans hobject)
    exact hcursors ▸ hsized.2

variable {b} {index seenEpoch slot : Nat} {p q : Thread R}

/-- The cursor of the next table is in place. -/
theorem Placed.step {tableId : Nat} {scratch : QueryScratch R} {cursor : Cursor R}
    (h : Placed b plan query index seenEpoch tableId scratch) (htable : tableId < plan.tableCount)
    (hfinite : ((plan.projections object query).getD tableId Binary32.zero).isFinite = true)
    (hholds : b.Holds (b.queryTable plan query tableId hfinite)
      (Outward.start (b.queryTable plan query tableId hfinite).split) cursor) :
    Placed b plan query index seenEpoch (tableId + 1) ((cursorLens tableId).set cursor scratch) := by
  refine { h with size := ?_, owned := fun other hother => ?_, placed := fun other hother => ?_ }
  · exact List.length_set.trans h.size
  · obtain hother | hother := List.mem_or_eq_of_mem_set hother
    · exact h.owned other hother
    · rw [Option.some.inj hother]
      exact b.owns_of_holds hholds
  · show ∃ hfinite c, (scratch.cursors.set tableId (some cursor))[other]? = some (some c) ∧ _
    by_cases heq : other = tableId
    · subst heq
      rw [List.getElem?_set_self (h.size.symm ▸ htable)]
      exact ⟨hfinite, cursor, rfl, hholds⟩
    · rw [List.getElem?_set_ne (Ne.symm heq)]
      exact h.placed other (by omega)

include hplan in
/-- One turn of the loop that places the cursors fails for infinite projections only. -/
theorem placeCursor_agrees (hobject : p.heap.lock index = some object) {tableId : Nat}
    (htable : tableId < plan.tableCount) :
    Simulates (Leased slot (Placed b plan query index seenEpoch tableId) p q)
      (placeCursor object slot (plan.projections object query) tableId : EStateM Error σ Unit)
      (liftResult (requireFinite ((plan.projections object query).getD tableId Binary32.zero)
        "query projection") : EStateM Error σ Unit)
      (fun _ _ => Leased slot (Placed b plan query index seenEpoch (tableId + 1)) p q)
      (Leased slot (fun scratch => scratch.indexIdentity = some index) p q) := by
  intro s t h
  unfold placeCursor
  rw [bind_apply]
  by_cases hfinite : ((plan.projections object query).getD tableId Binary32.zero).isFinite = true
  · rw [requireFinite, require_of hfinite, liftResult_ok, liftResult_ok]
    obtain ⟨scratch, hat, huse, hplaced⟩ := h.scratch
    have hget : (threadOf s).pool.getD slot (QueryScratch.blank R) = scratch := by
      rw [List.getD_eq_getElem?_getD, hat]
      rfl
    have hscratch : (getScratch slot : EStateM Error σ (QueryScratch R)) s = .ok scratch s :=
      congrArg (fun scratch => EStateM.Result.ok scratch s) hget
    have hhas := b.has_table hplan htable hfinite
    have hdone : ∀ placed, b.Holds (b.queryTable plan query tableId hfinite)
        (Outward.start (b.queryTable plan query tableId hfinite).split) placed →
        Leased slot (Placed b plan query index seenEpoch (tableId + 1)) p q
          ((cursorSlot slot tableId).set placed s) t := fun placed hholds =>
      Leased.alter (f := (cursorLens tableId).set placed) h fun scratch hplaced huse hvalid =>
        ⟨hplaced.step htable hfinite hholds, huse,
          h.apart.setCursor hobject hplaced.identity hvalid (b.owns_of_holds hholds)⟩
    dsimp only
    rw [bind_apply, hscratch]
    dsimp only
    cases hcursor : scratch.cursors.getD tableId none with
    | none =>
        obtain ⟨placed, hholds, hreset⟩ := b.reset hhas object.index.owns_blankCursor
        have hmake : object.makeCursor tableId
            ((plan.projections object query).getD tableId Binary32.zero) = .ok placed := by
          unfold IndexObject.makeCursor BuiltInIndex.makeCursor
          change object.index.resetCursor tableId
            ((plan.projections object query).getD tableId Binary32.zero) _ = _ at hreset
          rw [hreset]
        rw [hmake]
        exact hdone placed hholds
    | some cursor =>
        have hmem : some cursor ∈ scratch.cursors := by
          rw [List.getD_eq_getElem?_getD] at hcursor
          cases hget : scratch.cursors[tableId]? with
          | none => rw [hget] at hcursor; cases hcursor
          | some c =>
              rw [hget] at hcursor
              exact hcursor ▸ List.mem_of_getElem? hget
        obtain ⟨placed, hholds, hreset⟩ := b.reset hhas (hplaced.owned cursor hmem)
        have hslot : (cursorSlot slot tableId : Lens σ (Cursor R)).get s = cursor := by
          show (((threadOf s).pool.getD slot (QueryScratch.blank R)).cursors.getD tableId none).getD _ = _
          rw [hget, hcursor]
          rfl
        dsimp only
        unfold Lens.zoom IndexObject.resetCursor
        change object.index.resetCursor tableId
            ((plan.projections object query).getD tableId Binary32.zero) _ = _ at hreset
        rw [hslot, hreset]
        exact hdone placed hholds
  · rw [requireFinite, Qalsh.require, if_neg hfinite]
    exact ⟨rfl, h.mono fun _ hplaced => hplaced.identity⟩

end Ready

/-! ## The whole search -/

/-- Callbacks that do the same and leave the other searches of their thread alone. -/
structure AlikeCallbacks (strategy strategy' : SearchStrategy R σ)
    (accessor accessor' : Nat → EStateM Error σ PointView) (accept accept' : Accept R σ) : Prop where
  strategy : strategy.Alike strategy'
  accessor : ∀ pointId, Alike (accessor pointId) (accessor' pointId)
  accept : ∀ hit state, Alike (accept hit state) (accept' hit state)

section Whole

variable {object : IndexObject} {content : Tables object.index.metadata.numPoints}

omit [HasThread R σ] in
theorem QueryPlan.finite_projections {plan : QueryPlan} {query : PointView}
    (h : ∀ tableId < plan.tableCount,
      ((plan.projections object query).getD tableId Binary32.zero).isFinite = true) (tableId : Nat) :
    ((plan.projections object query).getD tableId Binary32.zero).isFinite = true := by
  rcases Nat.lt_or_ge tableId plan.tableCount with hlt | hge
  · exact h tableId hlt
  · rw [List.getD_eq_default _ _ (by simpa [QueryPlan.projections] using hge)]
    decide

/-- The search over the tables of a backed index, once the query is planned. -/
def Backing.searchPlanned (b : Backing R object.index content) {options : SearchOptions}
    {query : PointView} {k : Nat} {plan : QueryPlan}
    (hplan : planQuery object options query k = .ok plan) (strategy : SearchStrategy R σ)
    (accessor : Nat → EStateM Error σ PointView) (accept : Accept R σ) :
    EStateM Error σ SearchResult := do
  let bound : R ← liftResult (windowBound object.metadata.qalsh.bucketWidth
    (RadiusArithmetic.ofFloat object.metadata.qalsh.initialRadius))
  (List.range plan.tableCount).forM fun tableId => liftResult
    (requireFinite ((plan.projections object query).getD tableId Binary32.zero) "query projection")
  if hfinite : ∀ tableId < plan.tableCount,
      ((plan.projections object query).getD tableId Binary32.zero).isFinite = true then
    (b.setting hplan (plan.finite_projections hfinite)).searchFrom strategy accessor accept bound
  else throw (.undefined "query projection")

/-- The search over the tables of a backed index. -/
def Backing.search (b : Backing R object.index content) (options : SearchOptions) (query : PointView)
    (k : Nat) (strategy : SearchStrategy R σ) (accessor : Nat → EStateM Error σ PointView)
    (accept : Accept R σ) : EStateM Error σ SearchResult :=
  match hplan : planQuery object options query k with
  | .error e => throw e
  | .ok _ => b.searchPlanned hplan strategy accessor accept

omit [HasThread R σ] in
theorem Backing.search_error (b : Backing R object.index content) {options : SearchOptions}
    {query : PointView} {k : Nat} {e : Error} (h : planQuery object options query k = .error e)
    (strategy : SearchStrategy R σ) (accessor : Nat → EStateM Error σ PointView)
    (accept : Accept R σ) : b.search options query k strategy accessor accept = throw e := by
  unfold search
  split
  · rename_i e' h'
    cases h.symm.trans h'
    rfl
  · rename_i plan h'
    cases h.symm.trans h'

omit [HasThread R σ] in
theorem Backing.search_planned (b : Backing R object.index content) {options : SearchOptions}
    {query : PointView} {k : Nat} {plan : QueryPlan}
    (h : planQuery object options query k = .ok plan) (strategy : SearchStrategy R σ)
    (accessor : Nat → EStateM Error σ PointView) (accept : Accept R σ) :
    b.search options query k strategy accessor accept =
      b.searchPlanned h strategy accessor accept := by
  unfold search
  split
  · rename_i e h'
    cases h.symm.trans h'
  · rename_i plan' h'
    cases h.symm.trans h'
    rfl

variable {b : Backing R object.index content} {query : PointView} {k : Nat} {plan : QueryPlan}
  {engine : SearchEngine σ} {strategy strategy' : SearchStrategy R σ}
  {accessor' : Nat → EStateM Error σ PointView} {driver : RangeDriver R σ} {accept accept' : Accept R σ}
  {slot : Nat} {p q : Thread R}

/-- The contexts of the two searches. -/
theorem AlikeCallbacks.related (h : AlikeCallbacks strategy strategy' engine.accessor accessor' accept accept')
    (hdelivers : driver.Delivers accept) (hobject : p.heap.lock engine.index = some object)
    (hplan : planQuery object engine.options query k = .ok plan)
    (hfinite : ∀ tableId,
      ((plan.projections object query).getD tableId Binary32.zero).isFinite = true) (seenEpoch : Nat) :
    SearchContext.Related (RunsAs b hplan hfinite engine.index seenEpoch slot p q)
      (Unwound engine.index slot p q) (fun _ => True)
      { strategy := strategy
        accessor := engine.accessor
        options := engine.options
        metadata := object.metadata
        query := query
        k := k
        tableCount := plan.tableCount
        scanQuantum := plan.scanQuantum
        services := scratchServices object slot seenEpoch driver }
      ((b.setting hplan hfinite).context strategy' accessor' accept') where
  parameters := rfl
  width := b.metadata_valid.qalsh.width
  raise := RunsAs.raise
  unwind := RunsAs.unwind
  next _ state := (RunsAs.callback (h.strategy.next state)).consequence (fun _ _ hst => hst)
    (fun _ _ _ _ hst => ⟨hst.1, trivial, hst.2⟩) (fun _ _ hst => hst)
  onEvaluation _ event state := RunsAs.callback (h.strategy.onEvaluation event state)
  onScanBoundary _ event state := RunsAs.callback (h.strategy.onScanBoundary event state)
  onRadiusAdvanced _ state := RunsAs.callback (h.strategy.onRadiusAdvanced state)
  accessor _ pointId := RunsAs.callback (h.accessor pointId)
  seen _ _ hpoint := RunsAs.seen hpoint
  mark _ _ hpoint := RunsAs.mark hpoint
  scan _ _ _ hkeeps _ hevaluate _ htable _ hlimit scope _ progress :=
    RunsAs.scan hdelivers h.accept hobject hkeeps hevaluate htable hlimit scope progress

/-- Once all cursors are in place the scratch stands for fresh private parts. -/
theorem Placed.runsAs {index seenEpoch : Nat}
    (hplan : planQuery object engine.options query k = .ok plan)
    (hfinite : ∀ tableId,
      ((plan.projections object query).getD tableId Binary32.zero).isFinite = true) {bound : R}
    (hbound : ValidBound bound) {s t : σ}
    (h : Leased slot (Placed b plan query index seenEpoch plan.tableCount) p q s t) :
    RunsAs b hplan hfinite index seenEpoch slot p q bound s
      ((b.setting hplan hfinite).fresh, t) := by
  refine h.mono fun scratch hplaced => ⟨hplaced.identity, hplaced.epoch, hplaced.points,
    fun pointId hpoint => ?_, fun tableId ht => ?_, fun tableId _ => Outward.start_valid _,
    fun _ _ _ h => (nomatch h), hbound⟩
  · refine iff_of_false (hplaced.unseen _ ?_) Bool.false_ne_true
    rw [List.getD_eq_getElem _ _ (hpoint.trans_le hplaced.points)]
    exact List.getElem_mem _
  · obtain ⟨_, cursor, hcursor, hholds⟩ := hplaced.placed tableId ht
    exact ⟨cursor, hcursor, hholds⟩

/-- The search with a leased scratch. -/
theorem SearchEngine.searchLeased_agrees (h : AlikeCallbacks strategy strategy' engine.accessor accessor' accept accept')
    (hdelivers : driver.Delivers accept) (hobject : p.heap.lock engine.index = some object)
    (hplan : planQuery object engine.options query k = .ok plan) :
    Simulates (fun s t => Leased slot (fun _ => True) p q s t ∧
        (threadOf s).heap.lock engine.index = some object)
      (engine.searchLeased object plan query k strategy driver slot)
      (b.searchPlanned hplan strategy' accessor' accept')
      (fun result result' s t => result = result' ∧ Leased slot (fun _ => True) p q s t)
      (Leased slot (fun _ => True) p q) := by
  intro s t hst
  obtain ⟨hst, hlive⟩ := hst
  obtain ⟨scratch, hat, huse, -⟩ := hst.scratch
  let ready := scratch.prepare (threadOf s).heap engine.index object plan.tableCount
  let prepare := fun scratch : QueryScratch R =>
    scratch.prepare (threadOf s).heap engine.index object plan.tableCount
  have hsame : Leased slot (fun other => other = scratch) p q s t := ⟨hst.apart, scratch, hat, huse, rfl⟩
  have hready : Leased slot (fun other => other = ready ∧
      Placed b plan query engine.index ready.epoch 0 other) p q (alterScratch slot prepare s) t := by
    refine Leased.alter hsame fun other heq huse hvalid => ?_
    subst heq
    obtain ⟨hplaced, hkept, hvalid⟩ := Placed.prepare b plan query hlive hvalid
    exact ⟨⟨rfl, hplaced⟩, hkept.trans huse, hvalid⟩
  have hscratch : (getScratch slot : EStateM Error σ (QueryScratch R)) (alterScratch slot prepare s) =
      .ok ready (alterScratch slot prepare s) := by
    obtain ⟨other, hat', -, rfl, -⟩ := hready.scratch
    refine congrArg (fun scratch => EStateM.Result.ok scratch (alterScratch slot prepare s)) ?_
    show (threadOf (alterScratch slot prepare s)).pool.getD slot (QueryScratch.blank R) = _
    rw [List.getD_eq_getElem?_getD, hat']
    rfl
  have hthread : (getThread : EStateM Error σ (Thread R)) s = .ok (threadOf s) s := rfl
  have hmodify : (modifyScratch slot prepare : EStateM Error σ Unit) s =
      .ok () (alterScratch slot prepare s) := rfl
  unfold searchLeased
  rw [bind_apply, hthread]
  dsimp only
  rw [bind_apply, hmodify]
  dsimp only
  rw [bind_apply, hscratch]
  dsimp only
  revert hready
  generalize alterScratch slot prepare s = s₁
  intro hready
  refine (?_ : Simulates (Leased slot (Placed b plan query engine.index ready.epoch 0) p q) _ _ _ _)
    s₁ t (hready.mono fun _ hr => hr.2)
  have hleased : ∀ {P : QueryScratch R → Prop} (s t : σ), Leased slot P p q s t →
      Leased slot (fun _ => True) p q s t := fun _ _ hst => hst.mono fun _ _ => trivial
  unfold Backing.searchPlanned
  refine Simulates.lift _ hleased fun bound hbound => ?_
  have hquery : ∀ s t, Leased slot (Placed b plan query engine.index ready.epoch 0) p q s t →
      ∃ s', (modifyScratch slot fun scratch : QueryScratch R =>
        { scratch with queryProjections := plan.projections object query } : EStateM Error σ Unit) s =
          .ok () s' ∧ Leased slot (Placed b plan query engine.index ready.epoch 0) p q s' t :=
    fun s t hst => ⟨_, rfl, Leased.alter (f := fun scratch : QueryScratch R =>
      { scratch with queryProjections := plan.projections object query }) hst
      fun scratch hplaced huse hvalid => ⟨{ hplaced with }, huse, { hvalid with }⟩⟩
  refine Simulates.bind_left hquery ?_
  refine Simulates.bind ((Simulates.forM_range plan.tableCount fun i hi =>
    (placeCursor_agrees hplan hobject hi).consequence (fun _ _ hst => hst) (fun _ _ _ _ hst => hst)
      hleased)) fun _ _ => ?_
  by_cases hfinite : ∀ tableId < plan.tableCount,
      ((plan.projections object query).getD tableId Binary32.zero).isFinite = true
  · rw [dif_pos hfinite]
    have hfinite := plan.finite_projections hfinite
    refine Simulates.bind ((Leased.callback (h.strategy.start _)).consequence (fun _ _ hst => hst)
      (fun _ _ _ _ hst => hst.2) hleased) fun _ _ => ?_
    refine Simulates.lift _ hleased fun limit _ => ?_
    have hrelated : SearchContext.Related (RunsAs b hplan hfinite engine.index ready.epoch slot p q) _ _
        _ _ := h.related hdelivers hobject hplan hfinite ready.epoch
    have hloop := hrelated.searchLoop
      (planQuery_spec hplan).2.2.2.2 limit (SearchRuntime.initial
        (RadiusArithmetic.ofFloat object.metadata.qalsh.initialRadius) bound plan.tableCount)
      (RadiusArithmetic.isFinite_ofFloat b.metadata_valid.qalsh.radius_finite) hbound
    refine Simulates.bind ((Simulates.enclosed (b.setting hplan hfinite).fresh hloop).consequence
      (fun s t hst => Placed.runsAs hplan hfinite (windowBound_valid hbound) hst)
      (fun out out' s t hout => (⟨hout.choose_spec.1, hleased s t hout.choose_spec.2⟩ :
        out = out' ∧ Leased slot (fun _ => True) p q s t))
      (fun s t hst => hleased s t hst.choose_spec)) fun out out' s t hout => ?_
    obtain ⟨rfl, hst⟩ := hout
    exact ⟨rfl, hst⟩
  · intro s t hst
    obtain ⟨_, -, -, hplaced⟩ := hst.scratch
    exact absurd (fun tableId ht => (hplaced.placed tableId ht).1) hfinite

omit [RadiusArithmetic R] in
theorem Apart.since {s t s' t' : σ} (h : Apart none p q s t)
    (h' : Apart none (threadOf s) (threadOf t) s' t') : Apart none p q s' t' :=
  ⟨h'.twin, h.left.trans h'.left, h.right.trans h'.right⟩

variable (query k) in
/-- A search agrees with the search over the tables of its index, whatever its thread has
been used for. -/
theorem SearchEngine.searchImplTyped_agrees
    (h : AlikeCallbacks strategy strategy' engine.accessor accessor' accept accept') (hdelivers : driver.Delivers accept)
    (b : Backing R object.index content) :
    Simulates (fun s t => Apart none p q s t ∧ (threadOf s).heap.lock engine.index = some object)
      (engine.searchImplTyped query k strategy driver)
      (b.search engine.options query k strategy' accessor' accept')
      (fun result result' s t => result = result' ∧ Apart none p q s t) (Apart none p q) := by
  intro s t hst
  obtain ⟨hst, hlive⟩ := hst
  have hthread : (getThread : EStateM Error σ (Thread R)) s = .ok (threadOf s) s := rfl
  unfold searchImplTyped
  rw [bind_apply, hthread]
  dsimp only
  rw [hlive]
  dsimp only
  rw [bind_apply]
  cases hplan : planQuery object engine.options query k with
  | error e =>
    rw [b.search_error hplan, liftResult_error]
    exact ⟨rfl, hst⟩
  | ok plan =>
    rw [b.search_planned hplan, liftResult_ok]
    dsimp only
    have hlease : (leaseScratch : EStateM Error σ Nat) s =
      .ok (freeSlot (threadOf s).pool) (repool (leasePool (threadOf s).pool) s) := rfl
    rw [bind_apply, hlease]
    dsimp only
    have hbase : Apart none (threadOf s) (threadOf t) s t :=
      ⟨hst.twin, Thread.Kept.refl _ _, Thread.Kept.refl _ _⟩
    have hfree : ∀ scratch, (threadOf s).pool[freeSlot (threadOf s).pool]? = some scratch →
        scratch.inUse = false := fun _ => freeSlot_unused
    have hheap : (threadOf (repool (leasePool (threadOf s).pool) s)).heap = (threadOf s).heap := by
      rw [threadOf_repool]
      rfl
    have hrun := searchLeased_agrees (b := b) h hdelivers hlive hplan _ _
      ⟨hbase.lease, hheap ▸ hlive⟩
    unfold withLease
    generalize engine.searchLeased object plan query k strategy driver
      (freeSlot (threadOf s).pool) (repool (leasePool (threadOf s).pool) s) = x at hrun ⊢
    generalize b.searchPlanned hplan strategy' accessor' accept' t = y at hrun ⊢
    cases x with
    | ok result s' =>
        cases y with
        | ok result' t' => exact ⟨hrun.1, hst.since (hrun.2.release hfree)⟩
        | error e t' => exact hrun.elim
    | error e s' =>
        cases y with
        | ok result' t' => exact hrun.elim
        | error e' t' => exact ⟨hrun.1, hst.since (hrun.2.release hfree)⟩

end Whole

end Qalsh
