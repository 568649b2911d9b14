/-
  Realize.lean --- the search of the engine realizes the ideal search.

  While a search runs, the scratch it has leased stands for the private part of the
  ideal search: its cursors hold the outward cursors and its stamps mark the points
  seen.  Nobody else touches that scratch, so the two searches agree, whatever the
  thread has been used for before and whatever confined callbacks do.
-/
import Qalsh.Confined
import Qalsh.Ideal
import Qalsh.ScanRun

set_option autoImplicit false

namespace Qalsh

open Foundation

variable {R : Type} [RadiusArithmetic R] [Platform] {σ α β : Type} [HasThread R σ]

/-! ## Leased scratches -/

/-- A state change that puts another pool in place. -/
def repool (pool : List (QueryScratch R)) (s : σ) : σ :=
  onThread ((threadOf s).withPool pool) s

omit [RadiusArithmetic R] in
@[simp] theorem threadOf_repool (pool : List (QueryScratch R)) (s : σ) :
    threadOf (repool pool s) = (threadOf s).withPool pool := HasThread.get_set _ _

omit [RadiusArithmetic R] in
theorem Twin.repool {s t : σ} (h : Twin s t) {pool : List (QueryScratch R)}
    (hvalid : ((threadOf s).withPool pool).Valid) : Twin (repool pool s) t where
  same := by
    rw [threadOf_repool]
    have hs := h.same
    have hheap := h.heap
    unfold Qalsh.repool
    show HasThread.thread.set _ s = HasThread.thread.set _ t
    rw [show (threadOf s).withPool pool = (threadOf t).withPool pool by
      unfold Thread.withPool
      rw [hheap]]
    conv_lhs => rw [hs]
    show HasThread.thread.set _ (HasThread.thread.set _ t) = _
    rw [HasThread.set_set]
    rfl
  left := by
    rw [threadOf_repool]
    exact hvalid
  right := h.right

omit [RadiusArithmetic R] in
theorem Apart.repool {own own' : Option Nat} {p q : Thread R} {s t : σ} (h : Apart own p q s t)
    {pool : List (QueryScratch R)} (hvalid : ((threadOf s).withPool pool).Valid)
    (hkept : p.Kept own' ((threadOf s).withPool pool)) : Apart own' p q (repool pool s) t where
  twin := h.twin.repool hvalid
  left := by
    rw [threadOf_repool]
    exact hkept
  right := h.right

/-- `s` has leased a slot since `p`, whose scratch satisfies `P`, and is else a twin of `t`. -/
structure Leased (slot : Nat) (P : QueryScratch R → Prop) (p q : Thread R) (s t : σ) : Prop where
  apart : Apart (some slot) p q s t
  scratch : ∃ scratch, (threadOf s).pool[slot]? = some scratch ∧ scratch.inUse = true ∧ P scratch

/-- Change one scratch of the thread. -/
def alterScratch (slot : Nat) (f : QueryScratch R → QueryScratch R) (s : σ) : σ :=
  repool ((threadOf s).pool.set slot (f ((threadOf s).pool.getD slot (QueryScratch.blank R)))) s

namespace Leased

variable {slot : Nat} {P P' : QueryScratch R → Prop} {p q : Thread R} {s t : σ}

omit [RadiusArithmetic R] in
theorem mono (h : Leased slot P p q s t) (hP : ∀ scratch, P scratch → P' scratch) :
    Leased slot P' p q s t :=
  ⟨h.apart, by obtain ⟨scratch, hat, huse, hp⟩ := h.scratch; exact ⟨scratch, hat, huse, hP _ hp⟩⟩

omit [RadiusArithmetic R] in
/-- A search may change the scratch it has leased. -/
theorem alter (h : Leased slot P p q s t) {f : QueryScratch R → QueryScratch R}
    (hf : ∀ scratch, P scratch → scratch.inUse = true → scratch.Valid (threadOf s).heap →
      P' (f scratch) ∧ (f scratch).inUse = true ∧ (f scratch).Valid (threadOf s).heap) :
    Leased slot P' p q (alterScratch slot f s) t := by
  obtain ⟨scratch, hat, huse, hp⟩ := h.scratch
  obtain ⟨hlt, hget⟩ := List.getElem?_eq_some_iff.mp hat
  have hvalid := h.apart.twin.left
  have hmem : scratch ∈ (threadOf s).pool := List.mem_of_getElem? hat
  have hgetD : (threadOf s).pool.getD slot (QueryScratch.blank R) = scratch := by
    rw [List.getD_eq_getElem?_getD, hat]
    rfl
  obtain ⟨hp', huse', hvalid'⟩ := hf scratch hp huse (hvalid scratch hmem)
  unfold alterScratch
  rw [hgetD]
  refine ⟨h.apart.repool ?_ ?_, f scratch, ?_, huse', hp'⟩
  · intro other hother
    obtain hother | rfl := List.mem_or_eq_of_mem_set hother
    · exact hvalid other hother
    · exact hvalid'
  · refine h.apart.left.trans ⟨fun i hi other _ => ?_, le_rfl, fun _ _ _ hlock => hlock⟩
    have hne : slot ≠ i := fun heq => hi (congrArg some heq)
    show _ ↔ ((threadOf s).pool.set slot (f scratch))[i]? = some other
    rw [List.getElem?_set_ne hne]
  · rw [threadOf_repool]
    exact List.getElem?_set_self hlt

omit [RadiusArithmetic R] in
/-- Alike computations keep the scratch. -/
theorem callback {x y : EStateM Error σ α} (hx : Alike x y) :
    Agrees (Leased slot P p q) (Leased slot P p q) x y := by
  intro s t h
  have hxy := hx (threadOf s) (threadOf t) s t
    ⟨h.apart.twin, Thread.Kept.refl _ _, Thread.Kept.refl _ _⟩
  have hkeep : ∀ s' t' : σ, Apart none (threadOf s) (threadOf t) s' t' → Leased slot P p q s' t' := by
    intro s' t' h'
    obtain ⟨scratch, hat, huse, hp⟩ := h.scratch
    exact ⟨⟨h'.twin, h.apart.left.trans h'.left.weaken, h.apart.right.trans h'.right⟩, scratch,
      (h'.left.leased slot nofun scratch huse).mp hat, huse, hp⟩
  cases hxs : x s with
  | ok a s' =>
      cases hxt : y t with
      | ok a' t' =>
          rw [hxs, hxt] at hxy
          exact ⟨hxy.1, hkeep s' t' hxy.2⟩
      | error e t' => rw [hxs, hxt] at hxy; exact hxy.elim
  | error e s' =>
      cases hxt : y t with
      | ok b t' => rw [hxs, hxt] at hxy; exact hxy.elim
      | error e' t' =>
          rw [hxs, hxt] at hxy
          exact ⟨hxy.1, hkeep s' t' hxy.2⟩

end Leased

/-! ## The setting of a planned query -/

/-- The projections of a query. -/
def QueryPlan.projections (plan : QueryPlan) (object : IndexObject) (query : PointView) :
    List Binary32 :=
  projectPoint query object.projectionVectors object.metadata.numDimensions plan.tableCount

omit [Platform] in
theorem planQuery_spec {object : IndexObject} {options : SearchOptions} {query : PointView} {k : Nat}
    {plan : QueryPlan} (h : planQuery object options query k = .ok plan) :
    0 < k ∧ k ≤ object.metadata.numPoints ∧ 0 < plan.tableCount ∧
      plan.tableCount ≤ object.metadata.numHashTables ∧ 0 < plan.scanQuantum := by
  simp only [planQuery, except_unit_bind_eq_ok, require_eq_ok] at h
  obtain ⟨-, hk, hle, -, -, h⟩ := h
  simp only [except_bind_eq_ok, require_eq_ok] at h
  obtain ⟨htables, hquantum, _, -, _, -, _, -, hplan⟩ := h
  cases hplan
  exact ⟨hk, hle, htables.1, htables.2, hquantum⟩

/-- A table of a backed index around a finite projection of the query. -/
def Backing.queryTable {object : IndexObject} {content : Tables object.index.metadata.numPoints}
    (b : Backing R object.index content) (plan : QueryPlan) (query : PointView) (tableId : Nat)
    (hfinite : ((plan.projections object query).getD tableId Binary32.zero).isFinite = true) :
    QueryTable object.index.metadata.numPoints where
  table := content.tables.getD tableId
    (content.tables.get ⟨0, b.tables_length ▸ b.metadata_valid.tables.1⟩)
  tableId := tableId
  queryValue := (plan.projections object query).getD tableId Binary32.zero
  query_finite := hfinite

/-- The search over the tables of a backed index. -/
def Backing.setting {object : IndexObject} {content : Tables object.index.metadata.numPoints}
    (b : Backing R object.index content) {options : SearchOptions} {query : PointView} {k : Nat}
    {plan : QueryPlan} (hplan : planQuery object options query k = .ok plan)
    (hfinite : ∀ tableId, ((plan.projections object query).getD tableId Binary32.zero).isFinite =
      true) : Setting where
  options := options
  metadata := object.metadata
  query := query
  k := k
  tableCount := plan.tableCount
  scanQuantum := plan.scanQuantum
  table tableId := b.queryTable plan query tableId (hfinite tableId)
  extent := content.extent
  tableId_eq _ _ := rfl
  metadata_valid := b.metadata_valid
  k_pos := (planQuery_spec hplan).1
  k_le := (planQuery_spec hplan).2.1
  tables_pos := (planQuery_spec hplan).2.2.1
  quantum_pos := (planQuery_spec hplan).2.2.2.2

section Running

variable {object : IndexObject} {content : Tables object.index.metadata.numPoints}
  (b : Backing R object.index content) {options : SearchOptions} {query : PointView} {k : Nat}
  {plan : QueryPlan} (hplan : planQuery object options query k = .ok plan)

include hplan in
theorem Backing.has_table {tableId : Nat} (h : tableId < plan.tableCount)
    (hfinite : ((plan.projections object query).getD tableId Binary32.zero).isFinite = true) :
    content.Has (b.queryTable plan query tableId hfinite) := by
  have hlt : tableId < content.tables.length := by
    rw [b.tables_length]
    exact h.trans_le (planQuery_spec hplan).2.2.2.1
  show content.tables[tableId]? = some (content.tables.getD tableId _)
  rw [List.getD_eq_getElem _ _ hlt, List.getElem?_eq_getElem hlt]

/-! ## A scan, hit by hit -/

omit [RadiusArithmetic R] [Platform] [HasThread R σ] in
theorem foldlM_ranges {visit : β → HitRange → EStateM Error σ β}
    {deliver : β → ProjectionHit → EStateM Error σ β}
    (hvisit : ∀ acc range, visit acc range = range.hits.foldlM deliver acc)
    (ranges : List HitRange) (acc : β) :
    ranges.foldlM visit acc = (ranges.flatMap HitRange.hits).foldlM deliver acc := by
  induction ranges generalizing acc with
  | nil => rfl
  | cons range rest ih =>
      rw [List.foldlM_cons, List.flatMap_cons, List.foldlM_append, hvisit]
      exact congrArg _ (funext ih)

omit [RadiusArithmetic R] [Platform] [HasThread R σ] in
/-- Through an external object each hit comes as a range of its own. -/
theorem foldlM_externalVisit {driver : RangeDriver R σ} {accept : Accept R σ}
    (hdelivers : driver.Delivers accept) {evaluate : Progress R → Nat → EStateM Error σ (Progress R)}
    (hkeeps : Keeps evaluate) {points : Nat} (t : QueryTable points) (positions : List Nat)
    (hpositions : ∀ i ∈ positions, i < points) (progress : Progress R) :
    (positions.map t.hitAt).foldlM (IndexObject.externalVisit points (driver evaluate)) progress =
      (positions.map t.hitAt).foldlM (deliverHit accept evaluate) progress := by
  induction positions generalizing progress with
  | nil => rfl
  | cons i rest ih =>
      have hlt : (t.hitAt i).pointId < points :=
        t.table.pointId_lt (hpositions i List.mem_cons_self)
      have hone : IndexObject.externalVisit points (driver evaluate) progress (t.hitAt i) =
          deliverHit accept evaluate progress (t.hitAt i) := by
        unfold IndexObject.externalVisit
        rw [require_of hlt]
        show driver evaluate progress _ = _
        rw [hdelivers evaluate hkeeps]
        exact bind_pure _
      rw [List.map_cons, List.foldlM_cons, List.foldlM_cons, hone]
      exact congrArg _ (funext fun progress =>
        ih (fun j hj => hpositions j (List.mem_cons_of_mem _ hj)) progress)

omit [HasThread R σ] in
/-- What a scan of a backed object amounts to. -/
theorem Backing.scan_object {driver : RangeDriver R σ} {accept : Accept R σ}
    (hdelivers : driver.Delivers accept) {evaluate : Progress R → Nat → EStateM Error σ (Progress R)}
    (hkeeps : Keeps evaluate) {t : QueryTable object.index.metadata.numPoints} (ht : content.Has t)
    {scope : ScanScope} (hscope : scope.isValid = true) (slot : Lens σ (Cursor R))
    (request : OutwardCall (ScanBound R)) (hranged : request.ranged = decide (scope = .range))
    (hbudget : 0 < request.budget) {o : Outward (ScanBound R)} (hvalid : o.Valid t.windows)
    (hadmits : o.Admits t.windows request.bound) {s : σ} (hholds : b.Holds t o (slot.get s))
    (progress : Progress R) :
    ∃ placed, b.Holds t (o.call t.windows (content.extent t.tableId) request).cursor placed ∧
      match (((o.call t.windows (content.extent t.tableId) request).positions o).map
          t.hitAt).foldlM (deliverHit accept evaluate) progress s with
      | .ok progress' s' =>
          object.scan slot request.bound.1 request.budget scope (driver evaluate) progress s =
            .ok (reportOf t.tableId object.index.metadata.numPoints
              (o.call t.windows (content.extent t.tableId) request), progress') (slot.set placed s')
      | .error e s' => ∃ parked, object.index.owns parked = true ∧
          object.scan slot request.bound.1 request.budget scope (driver evaluate) progress s =
            .error e (slot.set parked s') := by
  have hdriver := hdelivers evaluate hkeeps
  have hpositions : ∀ i ∈ (o.call t.windows (content.extent t.tableId) request).positions o,
      i < object.index.metadata.numPoints := by
    intro i hi
    have hafter := (Outward.call_valid (content.extent t.tableId) hvalid hadmits).1
    have hlt := hvalid.left_le.trans t.windows.split_le
    obtain ⟨-, hi⟩ | ⟨-, hi⟩ := Outward.mem_positions.mp hi
    · exact hi.trans_le hlt
    · exact hi.trans_le hafter.right_le
  cases object with
  | builtIn index =>
      obtain ⟨ranges, placed, hafter, hhits, hspec⟩ :=
        b.scan ht hscope slot request hranged (driver evaluate) hholds hadmits
      refine ⟨placed, hafter, ?_⟩
      rw [← hhits, ← foldlM_ranges hdriver]
      have hs := hspec progress s
      cases hfold : ranges.foldlM (driver evaluate) progress s with
      | ok progress' s' =>
          rw [hfold] at hs
          exact hs
      | error e s' =>
          rw [hfold] at hs
          obtain ⟨s'', hscan, parked, hparked, rfl⟩ := hs
          exact ⟨parked, hparked, hscan⟩
  | forwarding address inner =>
      obtain ⟨ranges, placed, hafter, hhits, hspec⟩ := b.scan ht hscope slot request hranged
        (forEachHit (IndexObject.externalVisit inner.metadata.numPoints (driver evaluate))) hholds hadmits
      refine ⟨placed, hafter, ?_⟩
      have hfolds : ranges.foldlM
          (forEachHit (IndexObject.externalVisit inner.metadata.numPoints (driver evaluate))) progress =
          (((o.call t.windows (content.extent t.tableId) request).positions o).map t.hitAt).foldlM
            (deliverHit accept evaluate) progress := by
        have hvisit : ∀ acc range, forEachHit
            (IndexObject.externalVisit inner.metadata.numPoints (driver evaluate)) acc range =
            range.hits.foldlM (IndexObject.externalVisit inner.metadata.numPoints (driver evaluate)) acc :=
          fun _ _ => rfl
        refine (foldlM_ranges hvisit ranges progress).trans ?_
        rw [hhits]
        exact foldlM_externalVisit hdelivers hkeeps t _ hpositions progress
      have hs := hspec progress s
      rw [hfolds] at hs
      have hcall := BuiltInIndex.scan_eq request.bound hbudget
        (IndexObject.externalVisit inner.metadata.numPoints (driver evaluate)) scope progress
        (b.owns_of_holds hholds)
      change inner.scan slot request.bound.1 request.budget _ scope progress s = _ at hcall
      generalize ((o.call t.windows (content.extent t.tableId) request).positions o).map t.hitAt = hits at *
      cases hfold : hits.foldlM (deliverHit accept evaluate) progress s with
      | ok progress' s' =>
          rw [hfold] at hs
          exact hcall.trans hs
      | error e s' =>
          rw [hfold] at hs
          obtain ⟨s'', hscan, parked, hparked, rfl⟩ := hs
          exact ⟨parked, hparked, hcall.trans hscan⟩

omit [HasThread R σ] in
theorem BuiltInIndex.scanImpl_invalid (index : BuiltInIndex) {scope : ScanScope}
    (hscope : ¬ scope.isValid = true) (slot : Lens σ (Cursor R)) (bound : R) (limit : Nat)
    (cursor : Cursor R) (visitor : β → HitRange → EStateM Error σ β) (acc : β) (s : σ) :
    index.scanImpl slot bound limit scope cursor visitor acc s =
      .error (.invalidArgument "invalid projection scan scope") s := by
  unfold scanImpl
  cases index.backend with
  | memory backend => simp [InMemoryIndex.scanImpl, bind_apply, Qalsh.require, hscope]
  | bPlusTree backend => simp [BPlusTreeIndex.scanImpl, bind_apply, Qalsh.require, hscope]
  | sortedArray backend => simp [SortedArrayIndex.scanImpl, bind_apply, Qalsh.require, hscope]

omit [HasThread R σ] in
/-- An invalid scope is refused before anything else. -/
theorem IndexObject.scan_invalid (object : IndexObject) {scope : ScanScope}
    (hscope : ¬ scope.isValid = true) (slot : Lens σ (Cursor R)) (bound : ScanBound R) {limit : Nat}
    (hlimit : 0 < limit) (visit : β → HitRange → EStateM Error σ β) (acc : β) {s : σ}
    (hown : object.index.owns (slot.get s) = true) :
    object.scan slot bound.1 limit scope visit acc s =
      .error (.invalidArgument "invalid projection scan scope") s := by
  cases object with
  | builtIn index => exact index.scanImpl_invalid hscope slot bound.1 limit (slot.get s) visit acc s
  | forwarding address inner =>
      exact (BuiltInIndex.scan_eq bound hlimit _ scope acc hown).trans
        (inner.scanImpl_invalid hscope slot bound.1 limit (slot.get s) _ acc s)

/-! ## The scratch of a running search -/

variable (hfinite : ∀ tableId,
  ((plan.projections object query).getD tableId Binary32.zero).isFinite = true)

/-- A scratch that stands for the private part of a search at some bound. -/
structure Running (index seenEpoch : Nat) (bound : R) (own : Private R)
    (scratch : QueryScratch R) : Prop where
  identity : scratch.indexIdentity = some index
  epoch : scratch.epoch = seenEpoch
  points : object.metadata.numPoints ≤ scratch.seenEpochs.length
  stamps : ∀ pointId < object.metadata.numPoints,
    (scratch.seenEpochs.getD pointId 0 = seenEpoch ↔ own.seen pointId = true)
  cursors : ∀ tableId < plan.tableCount, ∃ cursor, scratch.cursors[tableId]? = some (some cursor) ∧
    b.Holds ((b.setting hplan hfinite).table tableId) (own.cursors tableId) cursor
  valid : ∀ tableId < plan.tableCount,
    (own.cursors tableId).Valid ((b.setting hplan hfinite).table tableId).windows
  admits : ∀ tableId < plan.tableCount, ∀ last, (own.cursors tableId).lastBound = some last →
    RadiusArithmetic.le last.1 bound = true
  bound : ValidBound bound

variable (index seenEpoch slot : Nat) (p q : Thread R)

/-- The states of a running search and of the ideal one. -/
def RunsAs (bound : R) (s : σ) (u : Private R × σ) : Prop :=
  Leased slot (Running b hplan hfinite index seenEpoch bound u.1) p q s u.2

variable {b hplan hfinite index seenEpoch slot p q} {bound : R}

/-- The two states once the search has thrown. -/
def Unwound (index slot : Nat) (p q : Thread R) (s : σ) (u : Private R × σ) : Prop :=
  Leased slot (fun scratch => scratch.indexIdentity = some index) p q s u.2

theorem RunsAs.unwind {s : σ} {u : Private R × σ}
    (h : RunsAs b hplan hfinite index seenEpoch slot p q bound s u) : Unwound index slot p q s u :=
  h.mono fun _ hrun => hrun.identity

theorem RunsAs.raise {bound' : R} {s : σ} {u : Private R × σ} (hvalid : ValidBound bound')
    (hle : RadiusArithmetic.le bound bound' = true)
    (h : RunsAs b hplan hfinite index seenEpoch slot p q bound s u) :
    RunsAs b hplan hfinite index seenEpoch slot p q bound' s u :=
  h.mono fun _ hrun =>
    { hrun with
      admits := fun tableId ht last hlast =>
        RadiusArithmetic.le_trans (hrun.admits tableId ht last hlast) hle
      bound := hvalid }

theorem RunsAs.callback {x y : EStateM Error σ α} (hx : Alike x y) :
    Agrees (RunsAs b hplan hfinite index seenEpoch slot p q bound) (Unwound index slot p q) x
      (outside y) := by
  intro s u h
  have hxy := Leased.callback hx s u.2 h
  unfold outside
  cases hxs : x s with
  | ok a s' =>
      cases hxu : y u.2 with
      | ok a' t' => rw [hxs, hxu] at hxy; exact hxy
      | error e t' => rw [hxs, hxu] at hxy; exact hxy.elim
  | error e s' =>
      cases hxu : y u.2 with
      | ok a' t' => rw [hxs, hxu] at hxy; exact hxy.elim
      | error e' t' =>
          rw [hxs, hxu] at hxy
          exact ⟨hxy.1, RunsAs.unwind hxy.2⟩

variable {driver : RangeDriver R σ} {accept : Accept R σ}

theorem RunsAs.seen {pointId : Nat} (hpoint : pointId < object.metadata.numPoints) :
    Agrees (RunsAs b hplan hfinite index seenEpoch slot p q bound) (Unwound index slot p q)
      ((scratchServices object slot seenEpoch driver).seen pointId)
      (((b.setting hplan hfinite).services accept).seen pointId) := by
  intro s u h
  obtain ⟨scratch, hat, huse, hrun⟩ := h.scratch
  have hget : (threadOf s).pool.getD slot (QueryScratch.blank R) = scratch := by
    rw [List.getD_eq_getElem?_getD, hat]
    rfl
  refine ⟨?_, h⟩
  show decide (((threadOf s).pool.getD slot (QueryScratch.blank R)).seenEpochs.getD pointId 0 =
    seenEpoch) = u.1.seen pointId
  rw [hget, Bool.eq_iff_iff, decide_eq_true_eq]
  exact hrun.stamps pointId hpoint

theorem RunsAs.mark {pointId : Nat} (hpoint : pointId < object.metadata.numPoints) :
    Agrees (RunsAs b hplan hfinite index seenEpoch slot p q bound) (Unwound index slot p q)
      ((scratchServices object slot seenEpoch driver).mark pointId)
      (((b.setting hplan hfinite).services accept).mark pointId) := by
  intro s u h
  refine ⟨rfl, Leased.alter (f := fun scratch : QueryScratch R =>
    { scratch with seenEpochs := scratch.seenEpochs.set pointId seenEpoch }) h
    fun scratch hrun huse hvalid => ⟨?_, huse, ?_⟩⟩
  · refine { hrun with points := ?_, stamps := fun other hother => ?_ }
    · show _ ≤ (scratch.seenEpochs.set pointId seenEpoch).length
      rw [List.length_set]
      exact hrun.points
    · show (scratch.seenEpochs.set pointId seenEpoch).getD other 0 = seenEpoch ↔
        Function.update u.1.seen pointId true other = true
      have hlt : pointId < scratch.seenEpochs.length := hpoint.trans_le hrun.points
      by_cases heq : other = pointId
      · subst heq
        rw [Function.update_self, List.getD_eq_getElem?_getD, List.getElem?_set_self hlt]
        simp
      · rw [Function.update_of_ne heq, List.getD_eq_getElem?_getD,
          List.getElem?_set_ne (Ne.symm heq), ← List.getD_eq_getElem?_getD]
        exact hrun.stamps other hother
  · refine { hvalid with stamps := fun stamp hstamp => ?_ }
    obtain hstamp | rfl := List.mem_or_eq_of_mem_set hstamp
    · exact hvalid.stamps stamp hstamp
    · exact hrun.epoch.ge

omit [RadiusArithmetic R] in
/-- The object of the search does not change its number while the search runs. -/
theorem Apart.object_eq {own : Option Nat} {s t : σ} (h : Apart own p q s t)
    (hobject : p.heap.lock index = some object) {other : IndexObject}
    (hlock : (threadOf s).heap.lock index = some other) : other = object := by
  have hlt : index < p.heap.objects.length := by
    by_contra hge
    rw [Heap.lock, List.getElem?_eq_none (Nat.le_of_not_lt hge)] at hobject
    cases hobject
  exact Option.some.inj ((h.left.objects index other hlt hlock).symm.trans hobject)

omit [RadiusArithmetic R] in
/-- Another cursor of the object in the scratch of the search. -/
theorem Apart.setCursor {s t : σ} {scratch : QueryScratch R} {tableId : Nat}
    {cursor : Cursor R} (h : Apart (some slot) p q s t) (hobject : p.heap.lock index = some object)
    (hidentity : scratch.indexIdentity = some index)
    (hvalid : scratch.Valid (threadOf s).heap) (hown : object.index.owns cursor = true) :
    ((cursorLens tableId).set cursor scratch).Valid (threadOf s).heap := by
  refine { hvalid with owned := fun i other hi hlock c hc => ?_ }
  have hi : scratch.indexIdentity = some i := hi
  obtain rfl : i = index := Option.some.inj (hi.symm.trans hidentity)
  obtain hc | hc := List.mem_or_eq_of_mem_set hc
  · exact hvalid.owned i other hi hlock c hc
  · cases hc
    rw [h.object_eq hobject hlock]
    exact hown

omit [HasThread R σ] in
/-- The cursor of one table moves on. -/
theorem Running.setCursor {own : Private R} {scratch : QueryScratch R}
    (hrun : Running b hplan hfinite index seenEpoch bound own scratch) {tableId : Nat}
    (ht : tableId < plan.tableCount) {o : Outward (ScanBound R)} {cursor : Cursor R}
    (hholds : b.Holds ((b.setting hplan hfinite).table tableId) o cursor)
    (hvalid : o.Valid ((b.setting hplan hfinite).table tableId).windows)
    (hadmits : o.Admits ((b.setting hplan hfinite).table tableId).windows ⟨bound, hrun.bound⟩) :
    Running b hplan hfinite index seenEpoch bound
      { own with cursors := Function.update own.cursors tableId o }
      ((cursorLens tableId).set cursor scratch) := by
  have hlt : tableId < scratch.cursors.length := by
    obtain ⟨_, hat, -⟩ := hrun.cursors tableId ht
    exact (List.getElem?_eq_some_iff.mp hat).1
  refine { hrun with cursors := fun other hother => ?_, valid := fun other hother => ?_, admits := fun other hother => ?_ }
  · show ∃ c, (scratch.cursors.set tableId (some cursor))[other]? = some (some c) ∧
      b.Holds _ (Function.update own.cursors tableId o other) c
    by_cases heq : other = tableId
    · subst heq
      rw [Function.update_self, List.getElem?_set_self hlt]
      exact ⟨cursor, rfl, hholds⟩
    · rw [Function.update_of_ne heq, List.getElem?_set_ne (Ne.symm heq)]
      exact hrun.cursors other hother
  · show (Function.update own.cursors tableId o other).Valid _
    by_cases heq : other = tableId
    · subst heq
      rw [Function.update_self]
      exact hvalid
    · rw [Function.update_of_ne heq]
      exact hrun.valid other hother
  · show ∀ last, (Function.update own.cursors tableId o other).lastBound = some last → _
    by_cases heq : other = tableId
    · subst heq
      rw [Function.update_self]
      exact hadmits
    · rw [Function.update_of_ne heq]
      exact hrun.admits other hother

theorem RunsAs.scan {accept' : Accept R σ} (hdelivers : driver.Delivers accept)
    (haccept : ∀ hit state, Alike (accept hit state) (accept' hit state)) (hobject : p.heap.lock index = some object)
    {evaluate : Progress R → Nat → EStateM Error σ (Progress R)}
    {evaluate' : Progress R → Nat → EStateM Error (Private R × σ) (Progress R)}
    (hkeeps : Keeps evaluate)
    (hevaluate : ∀ progress pointId,
      Agrees (RunsAs b hplan hfinite index seenEpoch slot p q bound) (Unwound index slot p q)
        (evaluate progress pointId) (evaluate' progress pointId))
    {tableId : Nat} (htable : tableId < plan.tableCount) {limit : Nat} (hlimit : 0 < limit)
    (scope : ScanScope) (progress : Progress R) :
    Simulates (RunsAs b hplan hfinite index seenEpoch slot p q bound)
      ((scratchServices object slot seenEpoch driver).scan evaluate tableId bound limit scope progress)
      (((b.setting hplan hfinite).services accept').scan evaluate' tableId bound limit scope progress)
      (fun out out' s t => out = out' ∧ progress.runtime.SameRound out.2.runtime ∧
        RunsAs b hplan hfinite index seenEpoch slot p q bound s t) (Unwound index slot p q) := by
  intro s u h
  obtain ⟨scratch, hat, huse, hrun⟩ := h.scratch
  obtain ⟨cursor, hcursor, hholds⟩ := hrun.cursors tableId htable
  have hget : (threadOf s).pool.getD slot (QueryScratch.blank R) = scratch := by
    rw [List.getD_eq_getElem?_getD, hat]
    rfl
  have hcursors : scratch.cursors.getD tableId none = some cursor := by
    rw [List.getD_eq_getElem?_getD, hcursor]
    rfl
  have hslot : (cursorSlot slot tableId : Lens σ (Cursor R)).get s = cursor := by
    show (((threadOf s).pool.getD slot (QueryScratch.blank R)).cursors.getD tableId none).getD _ = _
    rw [hget, hcursors]
    rfl
  have hleft : (scratchServices object slot seenEpoch driver).scan evaluate tableId bound limit scope
      progress s = object.scan (cursorSlot slot tableId) bound limit scope (driver evaluate) progress s := by
    have hscratch : (getScratch slot : EStateM Error σ (QueryScratch R)) s = .ok scratch s :=
      congrArg (fun scratch => EStateM.Result.ok scratch s) hget
    show ((getScratch slot : EStateM Error σ (QueryScratch R)) >>= _) s = _
    rw [bind_apply, hscratch]
    dsimp only
    rw [hcursors]
  have hright : ((b.setting hplan hfinite).services accept').scan evaluate' tableId bound limit scope
      progress u = (b.setting hplan hfinite).scan (fun hit state => outside (accept' hit state))
        evaluate' tableId bound limit scope progress u := rfl
  rw [hleft, hright]
  have hown := b.owns_of_holds hholds
  by_cases hscope : scope.isValid = true
  · have hadmits : (u.1.cursors tableId).Admits
        ((b.setting hplan hfinite).table tableId).windows ⟨bound, hrun.bound⟩ :=
      hrun.admits tableId htable
    obtain ⟨placed, hplaced, hmatch⟩ := b.scan_object hdelivers hkeeps
      (b.has_table hplan htable (hfinite tableId)) hscope (cursorSlot slot tableId)
      (Setting.request ⟨bound, hrun.bound⟩ limit scope) rfl hlimit (hrun.valid tableId htable) hadmits
      (by rw [hslot]; exact hholds) progress
    obtain ⟨hvalid', hat'⟩ : ((b.setting hplan hfinite).step tableId
        (Setting.request ⟨bound, hrun.bound⟩ limit scope) (u.1.cursors tableId)).cursor.Valid _ ∧
        Outward.At _ _ _ :=
      Outward.call_valid (content.extent tableId) (hrun.valid tableId htable) hadmits
    have hfold := foldlM_deliverHit_agrees hkeeps hevaluate
      ((((b.setting hplan hfinite).step tableId
        (Setting.request ⟨bound, hrun.bound⟩ limit scope) (u.1.cursors tableId)).positions
          (u.1.cursors tableId)).map ((b.setting hplan hfinite).table tableId).hitAt)
      (fun hit _ state => RunsAs.callback (haccept hit state)) progress s u h
    rw [Setting.scan_valid _ ⟨bound, hrun.bound⟩ hscope rfl]
    have hset : ∀ (f : Cursor R) (s' : σ), (cursorSlot slot tableId).set f s' =
        alterScratch slot ((cursorLens tableId).set f) s' := fun _ _ => rfl
    revert hmatch hfold
    change (match List.foldlM (deliverHit accept evaluate) progress
        ((((b.setting hplan hfinite).step tableId (Setting.request ⟨bound, hrun.bound⟩ limit scope)
          (u.1.cursors tableId)).positions (u.1.cursors tableId)).map
            ((b.setting hplan hfinite).table tableId).hitAt) s with
      | .ok _ _ => _
      | .error _ _ => _) → _
    generalize ((((b.setting hplan hfinite).step tableId
        (Setting.request ⟨bound, hrun.bound⟩ limit scope) (u.1.cursors tableId)).positions
          (u.1.cursors tableId)).map ((b.setting hplan hfinite).table tableId).hitAt) = hits
    generalize hits.foldlM (deliverHit accept evaluate) progress s = x
    generalize hits.foldlM (deliverHit (fun hit state => outside (accept' hit state)) evaluate')
      progress u = y
    intro hmatch hfold
    cases x with
    | error e s' =>
        cases y with
        | ok c' u' => exact hfold.elim
        | error e' u' =>
            obtain ⟨rfl, hleased⟩ := hfold
            obtain ⟨parked, hparked, hscan⟩ := hmatch
            change object.scan _ bound limit scope _ _ _ = _ at hscan
            rw [hscan]
            exact ⟨rfl, Leased.alter (f := (cursorLens tableId).set parked) hleased
              fun scratch hidentity huse hvalid => ⟨hidentity, huse,
                hleased.apart.setCursor hobject hidentity hvalid hparked⟩⟩
    | ok c s' =>
        cases y with
        | error e' u' => exact hfold.elim
        | ok c' u' =>
            obtain ⟨rfl, hround, hst⟩ := hfold
            change object.scan _ bound limit scope _ _ _ = _ at hmatch
            rw [hmatch]
            refine ⟨rfl, hround, Leased.alter (f := (cursorLens tableId).set placed) hst
              fun scratch hrun huse hvalid => ⟨?_, huse, hst.apart.setCursor hobject hrun.identity
                hvalid (b.owns_of_holds hplaced)⟩⟩
            exact hrun.setCursor htable hplaced hvalid'
              (Outward.admits_of_at hat' ((QueryTable.windows _).le_refl _))
  · rw [object.scan_invalid hscope (cursorSlot slot tableId) ⟨bound, hrun.bound⟩ hlimit _ _
      (by rw [hslot]; exact hown)]
    rw [Setting.scan_invalid _ hscope]
    exact ⟨rfl, h.unwind⟩

end Running

end Qalsh
