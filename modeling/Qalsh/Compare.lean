/-
  Compare.lean --- searches over the same tables in different indexes.

  A search sees of an index the tables it selects, where ranged calls end in them, and
  a few parameters.  Two searches that see the same give the same answers to the same
  callbacks, in the same order, and so end alike.
-/
import Qalsh.Relation

set_option autoImplicit false

namespace Qalsh

open Foundation

variable {R : Type} [RadiusArithmetic R] {σ : Type}

namespace Foundation

variable {ε α : Type}

/-- A computation agrees with itself. -/
theorem Agrees.same {x : EStateM ε σ α} : Agrees Eq Eq x x := by
  rintro s _ rfl
  cases x s with
  | ok a t => exact ⟨rfl, rfl⟩
  | error e t => exact ⟨rfl, rfl⟩

/-- Computations that agree on equal states are equal. -/
theorem Agrees.eq {x y : EStateM ε σ α} (h : Agrees Eq Eq x y) : y = x := by
  funext s
  have hxy := h s s rfl
  cases hx : x s with
  | ok a t =>
      cases hy : y s with
      | ok a' t' =>
          rw [hx, hy] at hxy
          rw [hxy.1, hxy.2]
      | error e t' => rw [hx, hy] at hxy; exact hxy.elim
  | error e t =>
      cases hy : y s with
      | ok a' t' => rw [hx, hy] at hxy; exact hxy.elim
      | error e' t' =>
          rw [hx, hy] at hxy
          rw [hxy.1, hxy.2]

end Foundation

/-! ## What a search reads -/

/-- The metadata a search reads, with the rest blanked out. -/
def IndexMetadata.core (metadata : IndexMetadata) : IndexMetadata :=
  { metadata with
    numHashTables := 0
    pageSize := 0
    seed := ⟨0, Nat.two_pow_pos 32⟩
    fileSize := 0
    qalsh := { metadata.qalsh with numHashTables := 0 }
    layout := .inMemory }

/-- The options a planned search reads. -/
def SearchOptions.core (options : SearchOptions) : SearchOptions :=
  { options with numHashTables := none, scanQuantum := 0 }

def SearchParameters.core (parameters : SearchParameters) : SearchParameters :=
  { parameters with options := parameters.options.core, metadata := parameters.metadata.core }

def SearchContext.core (ctx : SearchContext R σ) : SearchContext R σ :=
  { ctx with toSearchParameters := ctx.toSearchParameters.core }

/-- The loop reads no more of its parameters. -/
theorem SearchContext.searchLoop_core [Platform] (ctx : SearchContext R σ) (steps : Nat)
    (runtime : SearchRuntime R) :
    ctx.core.searchLoop steps runtime = ctx.searchLoop steps runtime := by
  induction steps generalizing runtime with
  | zero => rfl
  | succ steps ih =>
      simp only [searchLoop, ih]
      rfl

/-! ## Tables that agree -/

/-- The same entries under the same id and query, whatever the types say. -/
structure QueryTable.Same {points points' : Nat} (t : QueryTable points)
    (t' : QueryTable points') : Prop where
  entries : t'.table.entries = t.table.entries
  tableId : t'.tableId = t.tableId
  queryValue : t'.queryValue = t.queryValue

section Tables

variable {n n' : Nat} {t : QueryTable n} {t' : QueryTable n'}

theorem QueryTable.Same.points (h : t.Same t') : n' = n := by
  rw [← t'.table.length_entries, ← t.table.length_entries, h.entries]

theorem QueryTable.Same.entryAt (h : t.Same t') : t'.table.entryAt = t.table.entryAt := by
  funext i
  unfold SortedTable.entryAt
  rw [h.entries]

theorem QueryTable.Same.hitAt (h : t.Same t') : t'.hitAt = t.hitAt := by
  funext i
  unfold QueryTable.hitAt
  rw [h.entryAt, h.tableId, h.queryValue]

theorem QueryTable.Same.split (h : t.Same t') : t'.split = t.split := by
  unfold QueryTable.split SortedTable.lowerBound
  rw [h.entryAt, h.queryValue, h.points]

theorem QueryTable.Same.insideAt (h : t.Same t') (bound : R) : t'.insideAt bound = t.insideAt bound := by
  funext i
  unfold QueryTable.insideAt
  rw [h.entryAt, h.queryValue]

/-- Ranged calls end at the same positions. -/
def Foundation.Extent.Same (ext : Extent n) (ext' : Extent n') : Prop :=
  ∀ i ≤ n, ext'.left i = ext.left i ∧ ext'.right i = ext.right i

omit [RadiusArithmetic R] in
/-- A scan looks at the extents of its two sides only. -/
theorem Foundation.Outward.consume_congr {B : Type} {inside : Nat → Bool} {ext : Extent n}
    {ext' : Extent n'} {ranged : Bool} {budget : Nat} {o : Outward B}
    (hleft : ext'.left o.left = ext.left o.left) (hright : ext'.right o.right = ext.right o.right) :
    o.consume inside ext' ranged budget = o.consume inside ext ranged budget := by
  unfold consume
  rw [hleft, hright]

/-- A call does the same to tables that agree; only a ranged call looks at extents. -/
theorem QueryTable.Same.call (h : t.Same t') {ext : Extent n} {ext' : Extent n'}
    {request : OutwardCall (ScanBound R)} (hext : request.ranged = true → ext.Same ext')
    {o : Outward (ScanBound R)} (hleft : o.left ≤ n) (hright : o.right ≤ n) :
    o.call t'.windows ext' request = o.call t.windows ext request := by
  have hinside : (t'.windows (R := R)).inside request.bound = t.windows.inside request.bound :=
    h.insideAt request.bound.1
  unfold Outward.call
  rw [hinside]
  refine Outward.consume_congr ?_ ?_
  · rw [Outward.raise_left]
    unfold callExtent
    cases hranged : request.ranged with
    | true => exact (hext hranged _ hleft).1
    | false => rfl
  · rw [Outward.raise_right]
    unfold callExtent
    cases hranged : request.ranged with
    | true => exact (hext hranged _ hright).2
    | false =>
        show n' - o.right = n - o.right
        rw [h.points]

/-- A call stays within the table. -/
theorem QueryTable.call_within (t : QueryTable n) (ext : Extent n)
    (request : OutwardCall (ScanBound R)) {o : Outward (ScanBound R)} (hleft : o.left ≤ n)
    (hright : o.right ≤ n) :
    (o.call t.windows ext request).cursor.left ≤ n ∧
      (o.call t.windows ext request).cursor.right ≤ n := by
  have htaken := Outward.rightTaken_le t.windows (o.raise t.windows.le request.bound) request.bound
    (callExtent ext request.ranged) request.ranged request.budget
  rw [Outward.raise_right] at htaken
  have hroom := (callExtent ext request.ranged).right_le o.right hright
  have hcursor : (o.call t.windows ext request).cursor.left =
        (o.raise t.windows.le request.bound).left - (o.call t.windows ext request).leftTaken ∧
      (o.call t.windows ext request).cursor.right =
        (o.raise t.windows.le request.bound).right + (o.call t.windows ext request).rightTaken :=
    ⟨rfl, rfl⟩
  rw [Outward.raise_left, Outward.raise_right] at hcursor
  have htaken' : (o.call t.windows ext request).rightTaken ≤
      (callExtent ext request.ranged).right o.right := htaken
  omega

end Tables

/-! ## Settings that match -/

/-- Two settings in which a search sees the same; `ranged` says whether it may scan in
range scope. -/
structure Setting.Matches (ranged : Bool) (setting setting' : Setting) : Prop where
  parameters : setting'.toSearchParameters.core = setting.toSearchParameters.core
  table : ∀ tableId < setting.tableCount,
    (setting.table tableId).Same (setting'.table tableId)
  extent : ranged = true → ∀ tableId < setting.tableCount,
    (setting.extent tableId).Same (setting'.extent tableId)

/-- An action a search may take. -/
def StrategyAction.Within (ranged : Bool) (action : StrategyAction) : Prop :=
  ∀ tableId, action = .scan tableId .range → ranged = true

/-- The strategy scans in range scope only when it may. -/
def SearchStrategy.Within (ranged : Bool) (strategy : SearchStrategy R σ) : Prop :=
  ∀ state s action s', strategy.next state s = .ok action s' → action.Within ranged

omit [RadiusArithmetic R] in
theorem SearchStrategy.Within.outside {ρ : Type} {ranged : Bool} {strategy : SearchStrategy R σ}
    (h : strategy.Within ranged) {state : QuerySnapshot R} {u u' : ρ × σ} {action : StrategyAction}
    (hnext : Foundation.outside (strategy.next state) u = .ok action u') : action.Within ranged := by
  unfold Foundation.outside at hnext
  cases hrun : strategy.next state u.2 with
  | ok action' s =>
      rw [hrun] at hnext
      cases hnext
      exact h _ _ _ _ hrun
  | error e s =>
      rw [hrun] at hnext
      cases hnext

/-- The private parts agree on the tables in use, which lie within the points. -/
structure Alongside (setting : Setting) (u v : Private R × σ) : Prop where
  cursors : ∀ tableId < setting.tableCount, v.1.cursors tableId = u.1.cursors tableId
  within : ∀ tableId < setting.tableCount, (u.1.cursors tableId).left ≤ setting.metadata.numPoints ∧
    (u.1.cursors tableId).right ≤ setting.metadata.numPoints
  seen : v.1.seen = u.1.seen
  state : v.2 = u.2

namespace Setting.Matches

variable {ranged : Bool} {setting setting' : Setting}

/-- A callback on both sides. -/
theorem callback {α : Type} (x : EStateM Error σ α) :
    Agrees (Alongside (R := R) setting) (Alongside setting) (outside x) (outside x) := by
  intro u v huv
  unfold outside
  rw [huv.state]
  cases x u.2 with
  | ok a s => exact ⟨rfl, { huv with state := rfl }⟩
  | error e s => exact ⟨rfl, { huv with state := rfl }⟩

/-- The hits of a scan delivered on both sides. -/
theorem deliver {accept : Accept R σ}
    {evaluate evaluate' : Progress R → Nat → EStateM Error (Private R × σ) (Progress R)}
    (hkeeps : Qalsh.Keeps evaluate)
    (hevaluate : ∀ progress pointId, Agrees (Alongside setting) (Alongside setting)
      (evaluate progress pointId) (evaluate' progress pointId)) (hits : List ProjectionHit)
    (progress : Progress R) :
    Simulates (Alongside setting)
      (hits.foldlM (deliverHit (fun hit state => outside (accept hit state)) evaluate) progress)
      (hits.foldlM (deliverHit (fun hit state => outside (accept hit state)) evaluate') progress)
      (fun out out' u v => out = out' ∧ progress.runtime.SameRound out.runtime ∧ Alongside setting u v)
      (Alongside setting) :=
  foldlM_deliverHit_agrees hkeeps hevaluate hits (fun hit _ state => callback (accept hit state))
    progress

theorem points (h : setting.Matches ranged setting') :
    setting'.metadata.numPoints = setting.metadata.numPoints := by
  have heq := congrArg (fun parameters => parameters.metadata.numPoints) h.parameters
  exact heq

theorem tableCount (h : setting.Matches ranged setting') : setting'.tableCount = setting.tableCount := by
  have heq := congrArg (fun parameters => parameters.tableCount) h.parameters
  exact heq

theorem scanQuantum (h : setting.Matches ranged setting') :
    setting'.scanQuantum = setting.scanQuantum := by
  have heq := congrArg (fun parameters => parameters.scanQuantum) h.parameters
  exact heq

/-- A scan of a table in use, in a scope the search may use. -/
theorem scan [Platform] (h : setting.Matches ranged setting') {accept : Accept R σ}
    {evaluate evaluate' : Progress R → Nat → EStateM Error (Private R × σ) (Progress R)}
    (hkeeps : Qalsh.Keeps evaluate)
    (hevaluate : ∀ progress pointId, Agrees (Alongside setting) (Alongside setting)
      (evaluate progress pointId) (evaluate' progress pointId)) {tableId : Nat}
    (htable : tableId < setting.tableCount) (bound : R) (limit : Nat) {scope : ScanScope}
    (hscope : StrategyAction.Within ranged (.scan tableId scope)) (progress : Progress R) :
    Simulates (Alongside setting)
      ((setting.services accept).scan evaluate tableId bound limit scope progress)
      ((setting'.services accept).scan evaluate' tableId bound limit scope progress)
      (fun out out' u v => out = out' ∧ progress.runtime.SameRound out.2.runtime ∧
        Alongside setting u v) (Alongside setting) := by
  have hsame := h.table tableId htable
  refine Simulates.require (fun _ _ huv => huv) fun _ => ?_
  dsimp only
  split
  · rename_i hbound
    refine Simulates.get_bind fun u v huv => ?_
    obtain ⟨hleft, hright⟩ := huv.within tableId htable
    let request : OutwardCall (ScanBound R) := Setting.request ⟨bound, hbound⟩ limit scope
    have hranged : request.ranged = true →
        (setting.extent tableId).Same (setting'.extent tableId) := fun hr =>
      h.extent (hscope tableId (by rw [of_decide_eq_true hr])) tableId htable
    have hstep : setting'.step tableId request (v.1.cursors tableId) =
        setting.step tableId request (u.1.cursors tableId) := by
      rw [huv.cursors tableId htable]
      exact hsame.call hranged hleft hright
    have hwithin := (setting.table tableId).call_within (setting.extent tableId) request hleft hright
    rw [hstep, huv.cursors tableId htable, hsame.hitAt, hsame.tableId, h.points]
    refine Simulates.consequence (R := Alongside setting) ?_ (fun u' v' heq => ?_)
      (fun _ _ _ _ hq => hq) fun _ _ he => he
    · refine Simulates.bind (deliver hkeeps hevaluate _ progress) fun progress' progress'' u' v' hout => ?_
      obtain ⟨rfl, hround, huv'⟩ := hout
      refine ⟨rfl, hround, { huv' with cursors := fun other hother => ?_, within := fun other hother => ?_ }⟩
      · show Function.update v'.1.cursors tableId _ other = Function.update u'.1.cursors tableId _ other
        rw [Function.update_apply, Function.update_apply, huv'.cursors other hother]
      · show (Function.update u'.1.cursors tableId _ other).left ≤ _ ∧
          (Function.update u'.1.cursors tableId _ other).right ≤ _
        rw [Function.update_apply]
        split
        · exact hwithin
        · exact huv'.within other hother
    · obtain ⟨rfl, rfl⟩ := heq
      exact huv
  · exact fun u v huv => ⟨rfl, huv⟩

/-- The contexts, as far as their loops look at them. -/
theorem context_related [Platform] (h : setting.Matches ranged setting')
    {strategy : SearchStrategy R σ} (hwithin : strategy.Within ranged)
    (accessor : Nat → EStateM Error σ PointView) (accept : Accept R σ) :
    SearchContext.Related (R := R) (fun _ => Alongside setting) (Alongside setting)
      (StrategyAction.Within ranged) (setting.context strategy accessor accept).core
      (setting'.context strategy accessor accept).core where
  parameters := h.parameters
  width := setting.metadata_valid.qalsh.width
  raise _ _ huv := huv
  unwind huv := huv
  next _ state := (callback (strategy.next state)).and_left (P := StrategyAction.Within ranged)
      (fun _ _ _ hnext => hwithin.outside hnext) |>.consequence (fun _ _ huv => huv)
    (fun _ _ _ _ hq => ⟨hq.2.1, hq.1, hq.2.2⟩) fun _ _ he => he
  onEvaluation _ event state := callback (strategy.onEvaluation event state)
  onScanBoundary _ event state := callback (strategy.onScanBoundary event state)
  onRadiusAdvanced _ state := callback (strategy.onRadiusAdvanced state)
  accessor _ pointId := callback (accessor pointId)
  seen _ pointId _ := Simulates.get_bind fun u v huv => Simulates.pure fun u' v' heq => by
    obtain ⟨rfl, rfl⟩ := heq
    exact ⟨by rw [huv.seen], huv⟩
  mark _ pointId _ := Simulates.modify fun u v huv =>
    ⟨rfl, { huv with seen := by dsimp only; rw [huv.seen] }⟩
  scan b _ _ hkeeps _ hevaluate _ htable limit _ _ hmay progress :=
    h.scan hkeeps hevaluate htable b limit hmay progress

theorem fresh (h : setting.Matches ranged setting') (s : σ) :
    Alongside (R := R) setting (setting.fresh, s) (setting'.fresh, s) where
  cursors tableId htable := congrArg Outward.start (h.table tableId htable).split
  within tableId _ := ⟨(setting.table tableId).split_le, (setting.table tableId).split_le⟩
  seen := rfl
  state := rfl

/-- A search does the same in both settings. -/
theorem searchFrom [Platform] (h : setting.Matches ranged setting') {strategy : SearchStrategy R σ}
    (hwithin : strategy.Within ranged) (accessor : Nat → EStateM Error σ PointView)
    (accept : Accept R σ) {bound : R} (hbound : windowBound setting.metadata.qalsh.bucketWidth
      (RadiusArithmetic.ofFloat setting.metadata.qalsh.initialRadius) = .ok bound) :
    Agrees Eq Eq (setting.searchFrom strategy accessor accept bound)
      (setting'.searchFrom strategy accessor accept bound) := by
  have hpoints := h.points
  have htables := h.tableCount
  have hradius : setting'.metadata.qalsh.initialRadius = setting.metadata.qalsh.initialRadius := by
    have heq := congrArg (fun parameters => parameters.metadata.qalsh.initialRadius) h.parameters
    exact heq
  have hstart : ∀ radius : R, queryStart setting'.metadata setting'.tableCount setting'.k radius =
      queryStart setting.metadata setting.tableCount setting.k radius := fun radius => by
    have heq := congrArg (fun parameters =>
      queryStart parameters.metadata parameters.tableCount parameters.k radius) h.parameters
    exact heq
  have hlimit : stepLimit setting'.metadata setting'.tableCount setting'.options.maxSteps =
      stepLimit setting.metadata setting.tableCount setting.options.maxSteps := by
    have heq := congrArg (fun parameters =>
      stepLimit parameters.metadata parameters.tableCount parameters.options.maxSteps) h.parameters
    exact heq
  have hresult : setting'.result (R := R) = setting.result := by
    have heq := congrArg (fun parameters => parameters.result (R := R)) h.parameters
    exact heq
  have hcontexts := h.context_related hwithin accessor accept (σ := σ) (R := R)
  unfold Setting.searchFrom
  dsimp only
  rw [hradius, hstart, hlimit, hresult, htables]
  refine Agrees.bind Agrees.same fun _ => Simulates.lift _ (fun _ _ hst => hst) fun limit _ => ?_
  have hloop := hcontexts.searchLoop setting.quantum_pos limit
    (SearchRuntime.initial (RadiusArithmetic.ofFloat setting.metadata.qalsh.initialRadius) bound
      setting.tableCount)
    (RadiusArithmetic.isFinite_ofFloat setting.metadata_valid.qalsh.radius_finite) hbound
  rw [SearchContext.searchLoop_core, SearchContext.searchLoop_core] at hloop
  refine Agrees.bind ?_ fun _ => Agrees.pure _
  rintro s _ rfl
  have hrun := hloop (setting.fresh, s) (setting'.fresh, s) (h.fresh s)
  unfold enclosed
  generalize (setting.context strategy accessor accept).searchLoop limit _ (setting.fresh, s) = x
    at hrun ⊢
  generalize (setting'.context strategy accessor accept).searchLoop limit _ (setting'.fresh, s) = y
    at hrun ⊢
  cases x with
  | ok out u =>
      cases y with
      | ok out' v => exact ⟨hrun.1, hrun.2.state.symm⟩
      | error e v => exact hrun.elim
  | error e u =>
      cases y with
      | ok out' v => exact hrun.elim
      | error e' v => exact ⟨hrun.1, hrun.2.state.symm⟩

end Setting.Matches

/-! ## Searches over matching tables -/

/-- The first tables agree; `ranged` says whether their extents do as well. -/
structure Tables.Matches {n n' : Nat} (ranged : Bool) (tableCount : Nat) (content : Tables n)
    (content' : Tables n') : Prop where
  table : ∀ tableId < tableCount, (content'.tables[tableId]?).map SortedTable.entries =
    (content.tables[tableId]?).map SortedTable.entries
  extent : ranged = true → ∀ tableId < tableCount,
    (content.extent tableId).Same (content'.extent tableId)

/-- A query asks the same of both objects. -/
structure QueryMatches [Platform] (object object' : IndexObject) (options options' : SearchOptions)
    (query : PointView) (k : Nat) : Prop where
  metadata : object'.metadata.core = object.metadata.core
  core : options'.core = options.core
  plan : planQuery object' options' query k = planQuery object options query k
  projections : ∀ plan, planQuery object options query k = .ok plan →
    plan.projections object' query = plan.projections object query

section Searches

variable [Platform] {object object' : IndexObject} {content : Tables object.index.metadata.numPoints}
  {content' : Tables object'.index.metadata.numPoints} {b : Backing R object.index content}
  {b' : Backing R object'.index content'} {options options' : SearchOptions} {query : PointView}
  {k : Nat} {plan : QueryPlan} {ranged : Bool}

variable (b b') in
/-- Tables at one place of matching contents agree. -/
theorem Backing.queryTable_same (hplan : planQuery object options query k = .ok plan)
    (hplan' : planQuery object' options' query k = .ok plan)
    (hprojections : plan.projections object' query = plan.projections object query)
    (h : content.Matches ranged plan.tableCount content') {tableId : Nat}
    (htable : tableId < plan.tableCount)
    (hfinite : ((plan.projections object query).getD tableId Binary32.zero).isFinite = true)
    (hfinite' : ((plan.projections object' query).getD tableId Binary32.zero).isFinite = true) :
    (b.queryTable plan query tableId hfinite).Same (b'.queryTable plan query tableId hfinite') where
  entries := by
    have htables := h.table tableId htable
    have hhas := b.has_table hplan htable hfinite
    have hhas' := b'.has_table hplan' htable hfinite'
    unfold Tables.Has at hhas hhas'
    change content.tables[tableId]? = _ at hhas
    change content'.tables[tableId]? = _ at hhas'
    rw [hhas, hhas'] at htables
    exact Option.some.inj htables
  tableId := rfl
  queryValue := by
    show (plan.projections object' query).getD tableId _ = (plan.projections object query).getD tableId _
    rw [hprojections]

/-- The settings of the planned searches. -/
theorem Backing.setting_matches (hmatch : QueryMatches object object' options options' query k)
    (hplan : planQuery object options query k = .ok plan)
    (hplan' : planQuery object' options' query k = .ok plan)
    (h : content.Matches ranged plan.tableCount content')
    (hfinite : ∀ tableId,
      ((plan.projections object query).getD tableId Binary32.zero).isFinite = true)
    (hfinite' : ∀ tableId,
      ((plan.projections object' query).getD tableId Binary32.zero).isFinite = true) :
    (b.setting hplan hfinite).Matches ranged (b'.setting hplan' hfinite') where
  parameters := by
    unfold SearchParameters.core Backing.setting
    dsimp only
    rw [hmatch.metadata, hmatch.core]
  table tableId htable := b.queryTable_same b' hplan hplan'
    (hmatch.projections plan hplan) h htable (hfinite tableId) (hfinite' tableId)
  extent hranged tableId htable := h.extent hranged tableId htable

/-- A search does the same over matching tables. -/
theorem Backing.search_matches (hmatch : QueryMatches object object' options options' query k)
    (h : ∀ plan, planQuery object options query k = .ok plan →
      content.Matches ranged plan.tableCount content') {strategy : SearchStrategy R σ}
    (hwithin : strategy.Within ranged) (accessor : Nat → EStateM Error σ PointView)
    (accept : Accept R σ) :
    b'.search options' query k strategy accessor accept =
      b.search options query k strategy accessor accept := by
  cases hplan : planQuery object options query k with
  | error e =>
      have hplan' : planQuery object' options' query k = .error e := hmatch.plan.trans hplan
      rw [b.search_error hplan, b'.search_error hplan']
  | ok plan =>
      have hplan' : planQuery object' options' query k = .ok plan := hmatch.plan.trans hplan
      have hprojections := hmatch.projections plan hplan
      have hbound : ∀ x y : IndexMetadata, y.core = x.core → (windowBound y.qalsh.bucketWidth
          (RadiusArithmetic.ofFloat y.qalsh.initialRadius) : Except Error R) =
          windowBound x.qalsh.bucketWidth (RadiusArithmetic.ofFloat x.qalsh.initialRadius) := by
        intro x y hxy
        have heq := congrArg (fun metadata => (windowBound metadata.qalsh.bucketWidth
          (RadiusArithmetic.ofFloat metadata.qalsh.initialRadius) : Except Error R)) hxy
        exact heq
      rw [b.search_planned hplan, b'.search_planned hplan']
      refine Agrees.eq ?_
      unfold searchPlanned
      rw [hbound _ _ hmatch.metadata]
      refine Simulates.lift _ (fun _ _ hst => hst) fun bound hbound =>
        Agrees.bind (by rw [hprojections]; exact Agrees.same) fun _ => ?_
      by_cases hfinite : ∀ tableId < plan.tableCount,
          ((plan.projections object query).getD tableId Binary32.zero).isFinite = true
      · rw [dif_pos hfinite, dif_pos (by rw [hprojections]; exact hfinite)]
        exact (Backing.setting_matches hmatch hplan hplan' (h plan hplan) _ _).searchFrom hwithin
          accessor accept hbound
      · rw [dif_neg hfinite, dif_neg (by rw [hprojections]; exact hfinite)]
        exact Agrees.same

end Searches

end Qalsh
