/-
  AccountRun.lean --- every search keeps what its callbacks keep.

  The private part of a search stands for its account: each cursor has delivered what
  the account lists for its table, and the marks are the candidates evaluated.  One
  lemma for each action of the loop, an induction over a scan and one over the steps.
-/
import Qalsh.AccountRule

set_option autoImplicit false

namespace Qalsh

open Foundation

variable {R : Type} [RadiusArithmetic R] {σ : Type}

/-! ## What evaluations leave alone -/

/-- The accounts differ in the candidates evaluated only. -/
structure Account.Evaluates (account account' : Account R) : Prop where
  steps : account'.steps = account.steps
  radius : account'.radius = account.radius
  bound : account'.bound = account.bound
  delivered : account'.delivered = account.delivered
  exhausted : account'.exhausted = account.exhausted
  completed : account'.completed = account.completed

section Evaluates

omit [RadiusArithmetic R]

theorem Account.Evaluates.refl (account : Account R) : account.Evaluates account :=
  ⟨rfl, rfl, rfl, rfl, rfl, rfl⟩

theorem Account.Evaluates.record (account : Account R) (pointId : Nat) (distance : BoundedDistance) :
    account.Evaluates (account.record pointId distance) :=
  ⟨rfl, rfl, rfl, rfl, rfl, rfl⟩

theorem Account.Evaluates.positions {account account' : Account R} (h : account.Evaluates account')
    (tableId : Nat) : account'.positions tableId = account.positions tableId := by
  unfold Account.positions
  rw [h.delivered]

theorem Account.Evaluates.deliver {account account' : Account R} {tableId position : Nat}
    (h : (account.deliver tableId position).Evaluates account') :
    account'.delivered = account.delivered ++ [(tableId, position)] ∧
      account'.exhausted = account.exhausted ∧ account'.completed = account.completed ∧
      account'.radius = account.radius ∧ account'.bound = account.bound ∧
      account'.steps = account.steps :=
  ⟨h.delivered, h.exhausted, h.completed, h.radius, h.bound, h.steps⟩

end Evaluates

namespace Setting

variable {setting : Setting} {account account' : Account R} {priv priv' : Private R}

omit [RadiusArithmetic R] in
theorem Settled.evaluates (h : setting.Settled account) (he : account.Evaluates account') :
    setting.Settled account' := by
  intro tableId htable hall
  rw [he.exhausted]
  rw [he.delivered] at hall
  exact h tableId htable hall

theorem Sound.stepped (h : setting.Sound account) : setting.Sound account.stepped := { h with }

theorem Sound.record (h : setting.Sound account) {pointId : Nat} (distance : BoundedDistance)
    (hlt : pointId < setting.metadata.numPoints) (hnew : pointId ∉ account.evaluatedIds) :
    setting.Sound (account.record pointId distance) :=
  { h with
    evaluated_nodup := by
      rw [Account.evaluatedIds_record, List.nodup_append]
      refine ⟨h.evaluated_nodup, List.nodup_singleton _, fun a ha b hb heq => hnew ?_⟩
      rw [← List.mem_singleton.mp hb, ← heq]
      exact ha
    evaluated_lt := by
      rw [Account.evaluatedIds_record]
      intro id hid
      rcases List.mem_append.mp hid with hid | hid
      · exact h.evaluated_lt id hid
      · rw [List.mem_singleton.mp hid]
        exact hlt }

theorem Sound.deliver (h : setting.Sound account) {tableId position : Nat}
    (htable : tableId < setting.tableCount) (hposition : position < setting.metadata.numPoints)
    (hinside : (setting.table tableId).insideAt account.bound position = true)
    (hnew : (tableId, position) ∉ account.delivered) :
    setting.Sound (account.deliver tableId position) :=
  { h with
    delivered_mem := by
      intro t p hmem
      rcases List.mem_append.mp hmem with hmem | hmem
      · exact h.delivered_mem t p hmem
      · cases List.mem_singleton.mp hmem
        exact ⟨htable, hposition, hinside⟩
    delivered_nodup := by
      refine List.nodup_append.mpr ⟨h.delivered_nodup, List.nodup_singleton _, fun a ha b hb heq => hnew ?_⟩
      rw [← List.mem_singleton.mp hb, ← heq]
      exact ha
    exhausted := fun t ht p hp => List.mem_append_left _ (h.exhausted t ht p hp)
    completed := fun t ht p hp hin => List.mem_append_left _ (h.completed t ht p hp hin) }

/-! ## The private part -/

/-- The cursors have delivered what the account lists. -/
structure Placed (setting : Setting) (account : Account R)
    (cursors : Nat → Outward (ScanBound R)) : Prop where
  valid : ∀ tableId < setting.tableCount, (cursors tableId).Valid (setting.table tableId).windows
  admits : ∀ tableId < setting.tableCount, ∀ last, (cursors tableId).lastBound = some last →
    RadiusArithmetic.le last.1 account.bound = true
  delivered : ∀ tableId < setting.tableCount,
    (cursors tableId).Delivered (setting.table tableId).windows (account.positions tableId)

/-- The private part has these cursors, and its marks are the candidates evaluated. -/
structure Stands (cursors : Nat → Outward (ScanBound R)) (account : Account R) (priv : Private R) :
    Prop where
  cursors : priv.cursors = cursors
  seen : ∀ pointId, priv.seen pointId = true ↔ pointId ∈ account.evaluatedIds

/-! ## What a scan does to an account -/

/-- Where a scan of a table stands: `done` of its positions have been delivered. -/
structure Midway (setting : Setting) (tableId : Nat) (base : Account R) (done : List Nat)
    (account : Account R) : Prop where
  steps : account.steps = base.steps
  radius : account.radius = base.radius
  bound : account.bound = base.bound
  exhausted : account.exhausted = base.exhausted
  completed : account.completed = base.completed
  delivered : account.delivered = base.delivered ++ done.map fun position => (tableId, position)
  sound : setting.Sound account

variable {cursors : Nat → Outward (ScanBound R)} {tableId : Nat} {scan : OngoingScan}
  {base : Account R} {done : List Nat}

theorem Midway.start (h : setting.Sound account) : setting.Midway tableId account [] account :=
  ⟨rfl, rfl, rfl, rfl, rfl, (List.append_nil _).symm, h⟩

theorem Midway.evaluates {position : Nat} (h : setting.Midway tableId base done account)
    (he : (account.deliver tableId position).Evaluates account') (hsound : setting.Sound account') :
    setting.Midway tableId base (done ++ [position]) account' where
  steps := he.steps.trans h.steps
  radius := he.radius.trans h.radius
  bound := he.bound.trans h.bound
  exhausted := he.exhausted.trans h.exhausted
  completed := he.completed.trans h.completed
  delivered := by
    rw [he.delivered]
    unfold Account.deliver
    rw [h.delivered]
    simp
  sound := hsound

theorem Midway.positions (h : setting.Midway tableId base done account) (tableId' : Nat) :
    account.positions tableId' =
      base.positions tableId' ++ if tableId' = tableId then done else [] := by
  unfold Account.positions
  rw [h.delivered, List.filter_append, List.map_append]
  congr 1
  by_cases heq : tableId' = tableId
  · subst heq
    simp [List.filter_map, Function.comp_def]
  · simp [heq, List.filter_map, Function.comp_def, Ne.symm heq]

variable {bound : ScanBound R} {limit : Nat} {scope : ScanScope}

/-- The cursor of a scan at the bound of its account. -/
theorem Placed.step (h : setting.Placed account cursors) (htable : tableId < setting.tableCount)
    (limit : Nat) (scope : ScanScope) (hbound : bound.1 = account.bound) :
    (cursors tableId).Admits (setting.table tableId).windows bound ∧
    (setting.step tableId (request bound limit scope) (cursors tableId)).cursor.Valid
        (setting.table tableId).windows ∧
      (setting.step tableId (request bound limit scope) (cursors tableId)).cursor.At
        (setting.table tableId).windows bound ∧
      (setting.step tableId (request bound limit scope) (cursors tableId)).cursor.Delivered
        (setting.table tableId).windows (account.positions tableId ++
          (setting.step tableId (request bound limit scope) (cursors tableId)).positions
            (cursors tableId)) := by
  have hadmits : (cursors tableId).Admits (setting.table tableId).windows bound := by
    intro last hlast
    have hle := h.admits tableId htable last hlast
    rw [← hbound] at hle
    exact hle
  have hrequest : (cursors tableId).Admits (setting.table tableId).windows
      (request bound limit scope).bound := hadmits
  exact ⟨hadmits, Outward.Delivered.call (w := (setting.table tableId).windows)
    (setting.extent tableId) (h.delivered tableId htable) (h.valid tableId htable) hrequest⟩

/-- What a scan has not delivered yet it may deliver. -/
theorem Placed.deliver (h : setting.Placed base cursors) (htable : tableId < setting.tableCount)
    (hbound : bound.1 = base.bound) {position : Nat} {rest : List Nat}
    (hall : (setting.step tableId (request bound limit scope) (cursors tableId)).positions
      (cursors tableId) = done ++ position :: rest)
    (hmidway : setting.Midway tableId base done account) :
    setting.Sound (account.deliver tableId position) := by
  obtain ⟨-, hvalid, -, hdelivered⟩ := h.step htable limit scope hbound
  have hmem : position ∈ (setting.step tableId (request bound limit scope) (cursors tableId)).positions
      (cursors tableId) := by
    rw [hall]
    exact List.mem_append_right _ List.mem_cons_self
  have hlt : position < setting.metadata.numPoints :=
    ((hdelivered.mem_iff hvalid).mp (List.mem_append_right _ hmem)).2.trans_le hvalid.right_le
  have hinside : (setting.table tableId).insideAt account.bound position = true := by
    have hin := Outward.call_inside hmem
    rw [hmidway.bound, ← hbound]
    exact hin
  refine hmidway.sound.deliver htable hlt hinside fun hagain => ?_
  have hposition := account.mem_positions.mpr hagain
  rw [hmidway.positions, if_pos rfl] at hposition
  have hnodup := hdelivered.nodup hvalid
  rw [hall, ← List.append_assoc, List.nodup_append] at hnodup
  exact hnodup.2.2 position hposition position List.mem_cons_self rfl

/-- What the report of a scan says of its account. -/
structure Reports (setting : Setting) (tableId : Nat) (account : Account R) (report : ScanReport) :
    Prop where
  exhausted : report.tableExhausted = true ↔
    ∀ position < setting.metadata.numPoints, (tableId, position) ∈ account.delivered
  completed : report.windowExhausted = true → ∀ position < setting.metadata.numPoints,
    (setting.table tableId).insideAt account.bound position = true →
    (tableId, position) ∈ account.delivered

theorem Sound.close (h : setting.Sound account) (htable : tableId < setting.tableCount)
    {report : ScanReport} (hreport : setting.Reports tableId account report) :
    setting.Sound (account.close tableId report) where
  radius_finite := h.radius_finite
  bound_eq := h.bound_eq
  exhausted_length := by
    unfold Account.close
    dsimp only
    split <;> simp [h.exhausted_length]
  completed_length := by
    unfold Account.close
    dsimp only
    split <;> simp [h.completed_length]
  delivered_mem := h.delivered_mem
  delivered_nodup := h.delivered_nodup
  exhausted := by
    intro t ht position hposition
    unfold Account.close at ht
    dsimp only at ht
    split at ht
    · rename_i hflag
      rw [getD_set_true (h.exhausted_length ▸ htable)] at ht
      rcases ht with rfl | ht
      · exact hreport.exhausted.mp hflag position hposition
      · exact h.exhausted t ht position hposition
    · exact h.exhausted t ht position hposition
  completed := by
    intro t ht position hposition hinside
    unfold Account.close at ht
    dsimp only at ht
    split at ht
    · rename_i hflag
      rw [getD_set_true (h.completed_length ▸ htable)] at ht
      rcases ht with rfl | ht
      · rcases Bool.or_eq_true_iff.mp hflag with hwindow | hexhausted
        · exact hreport.completed hwindow position hposition hinside
        · exact hreport.exhausted.mp hexhausted position hposition
      · exact h.completed t ht position hposition hinside
    · exact h.completed t ht position hposition hinside
  exhausted_completed := by
    intro t ht
    unfold Account.close at ht ⊢
    dsimp only at ht ⊢
    cases hflag : report.tableExhausted with
    | false =>
        rw [hflag] at ht
        have hold := h.exhausted_completed t (by simpa using ht)
        split
        · rw [getD_set_true (h.completed_length ▸ htable)]
          exact Or.inr hold
        · exact hold
    | true =>
        rw [hflag, if_pos rfl, getD_set_true (h.exhausted_length ▸ htable)] at ht
        rw [Bool.or_true, if_pos rfl, getD_set_true (h.completed_length ▸ htable)]
        exact ht.imp_right (h.exhausted_completed t)
  evaluated_nodup := h.evaluated_nodup
  evaluated_lt := h.evaluated_lt

theorem Settled.close (h : setting.Settled base) (hsound : setting.Sound account)
    (hmidway : setting.Midway tableId base done account) (htable : tableId < setting.tableCount)
    {report : ScanReport} (hreport : setting.Reports tableId account report) :
    setting.Settled (account.close tableId report) := by
  intro t ht hall
  unfold Account.close
  dsimp only
  by_cases heq : t = tableId
  · subst heq
    rw [if_pos (hreport.exhausted.mpr hall), getD_set_true (hsound.exhausted_length ▸ htable)]
    exact Or.inl rfl
  · have hold : account.exhausted.getD t false = true := by
      rw [hmidway.exhausted]
      refine h t ht fun position hposition => ?_
      have hmem := account.mem_positions.mpr (hall position hposition)
      rw [hmidway.positions, if_neg heq, List.append_nil] at hmem
      exact base.mem_positions.mp hmem
    split
    · rw [getD_set_true (hsound.exhausted_length ▸ htable)]
      exact Or.inr hold
    · exact hold

/-- The positions a quantum scan delivers are the shares of its two sides. -/
theorem Placed.share (h : setting.Placed base cursors) (htable : tableId < setting.tableCount)
    (hbound : bound.1 = base.bound)
    (hmidway : setting.Midway tableId base
      ((setting.step tableId (request bound setting.scanQuantum .quantum)
        (cursors tableId)).positions (cursors tableId)) account) :
    (setting.step tableId (request bound setting.scanQuantum .quantum) (cursors tableId)).leftTaken +
        (setting.step tableId (request bound setting.scanQuantum .quantum)
          (cursors tableId)).rightTaken =
      setting.quantumShare account ⟨tableId, .quantum, base.delivered.length⟩ := by
  obtain ⟨hadmits, -⟩ := h.step htable setting.scanQuantum .quantum hbound
  have hvalid := h.valid tableId htable
  have hbefore : ∀ position, (tableId, position) ∈ base.delivered ↔
      (cursors tableId).left ≤ position ∧ position < (cursors tableId).right := fun position => by
    rw [← base.mem_positions]
    exact (h.delivered tableId htable).mem_iff hvalid
  have hwaiting : ∀ below, setting.waiting account ⟨tableId, .quantum, base.delivered.length⟩ below =
      (cursors tableId).waiting (setting.table tableId).windows bound below := by
    intro below
    unfold waiting Outward.waiting
    rw [hmidway.delivered, List.take_left' rfl, hmidway.bound, ← hbound]
    refine List.countP_congr fun position _ => ?_
    dsimp only
    rw [decide_eq_decide.mpr (not_congr (hbefore position)), decide_not]
    rfl
  have hranged : (request bound setting.scanQuantum .quantum).ranged = false := rfl
  obtain ⟨hleft, hright⟩ := Outward.call_share (w := (setting.table tableId).windows)
    (setting.extent tableId) hvalid hadmits hranged
  unfold quantumShare
  rw [hwaiting, hwaiting]
  change (setting.step tableId _ _).leftTaken = min (leftLimit false setting.scanQuantum)
    (Outward.waiting (setting.table tableId).windows bound (cursors tableId) true) at hleft
  change (setting.step tableId _ _).rightTaken = min (rightLimit false setting.scanQuantum
    (setting.step tableId _ _).leftTaken) (Outward.waiting (setting.table tableId).windows bound
      (cursors tableId) false) at hright
  rw [hright, hleft]

/-- The report of a whole scan. -/
theorem Placed.reports (h : setting.Placed base cursors) (htable : tableId < setting.tableCount)
    (hbound : bound.1 = base.bound)
    (hmidway : setting.Midway tableId base
      ((setting.step tableId (request bound limit scope) (cursors tableId)).positions
        (cursors tableId)) account) :
    setting.Reports tableId account (reportOf (setting.table tableId).tableId
      setting.metadata.numPoints (setting.step tableId (request bound limit scope) (cursors tableId))) := by
  obtain ⟨-, hvalid, hat, hdelivered⟩ := h.step htable limit scope hbound
  have hmem : ∀ position, (tableId, position) ∈ account.delivered ↔
      (setting.step tableId (request bound limit scope) (cursors tableId)).cursor.left ≤ position ∧
        position < (setting.step tableId (request bound limit scope) (cursors tableId)).cursor.right := by
    intro position
    rw [← account.mem_positions, hmidway.positions, if_pos rfl]
    exact hdelivered.mem_iff hvalid
  have hpoints : 0 < setting.metadata.numPoints := setting.k_pos.trans_le setting.k_le
  refine ⟨?_, fun hcomplete position hposition hinside => ?_⟩
  · change Outward.exhausted _ _ = true ↔ _
    unfold Outward.exhausted
    rw [Bool.and_eq_true, decide_eq_true_eq, decide_eq_true_eq]
    constructor
    · rintro ⟨hleft, hright⟩ position hposition
      exact (hmem position).mpr ⟨by omega, by omega⟩
    · intro hall
      have hfirst := (hmem 0).mp (hall 0 hpoints)
      have hlast := (hmem (setting.metadata.numPoints - 1)).mp (hall _ (by omega))
      have hle : _ ≤ setting.metadata.numPoints := hvalid.right_le
      exact ⟨by omega, by omega⟩
  · refine (hmem position).mpr ((Outward.complete_iff_delivered hvalid hat hcomplete hposition).mp ?_)
    rw [hmidway.bound, ← hbound] at hinside
    exact hinside

variable [Platform] {strategy : SearchStrategy R σ} {accessor : Nat → EStateM Error σ PointView}
  {accept : Accept R σ} {J : Phase → Account R → σ → Prop} {E : Error → σ → Prop}
  {runtime : SearchRuntime R}

/-- What an evaluation returns. -/
structure AfterEvaluation (setting : Setting) (cursors : Nat → Outward (ScanBound R))
    (account : Account R) (runtime : SearchRuntime R) (account' : Account R) (priv : Private R) : Prop where
  evaluates : account.Evaluates account'
  reflects : runtime.Shows setting.k account'
  cached : runtime.snapshotCache = account'.snapshot setting.k
  clean : runtime.snapshotDirty = false
  sound : setting.Sound account'
  stands : Stands cursors account' priv

/-- `EvaluateCandidate` -/
theorem Keeps.evaluateCandidate (h : setting.Keeps strategy accessor accept J E)
    (cursors : Nat → Outward (ScanBound R)) (scan : Option OngoingScan) (pointId : Nat)
    (hshows : runtime.Shows setting.k account)
    (hsound : setting.Sound account) :
    Triple (fun u => Stands cursors account u.1 ∧ J (.submitted scan pointId) account u.2)
      ((setting.context strategy accessor accept).evaluateCandidate runtime pointId)
      (fun runtime' u => ∃ account', setting.AfterEvaluation cursors account runtime' account' u.1 ∧
        J (.after scan) account' u.2)
      (fun e u => E e u.2) := by
  obtain ⟨hmade, hcache⟩ := hshows.makeSnapshot
  unfold SearchContext.evaluateCandidate
  refine Triple.bind (M := fun _ u => pointId < setting.metadata.numPoints ∧
    Stands cursors account u.1 ∧ J (.submitted scan pointId) account u.2)
    (Triple.liftResult (fun _ hok u hu => ⟨require_eq_ok.mp hok, hu⟩) fun e herr u hu =>
      h.failed _ account e u.2 (.of_require (by decide) herr) hu.2) fun _ => Triple.assume fun hlt => ?_
  refine Triple.bind (M := fun seen u => (seen = true ↔ pointId ∈ account.evaluatedIds) ∧
    Stands cursors account u.1 ∧ J (.submitted scan pointId) account u.2)
    (fun u hu => ⟨hu.1.seen pointId, hu⟩) fun seen => Triple.assume fun hseen => ?_
  cases seen with
  | true =>
      refine Triple.bind (Triple.outside (Stands cursors account)
        (hcache ▸ h.duplicate scan pointId account hsound (hseen.mp rfl))) fun _ => Triple.pure ?_
      exact fun u hu => ⟨account, ⟨.refl account, hmade, hcache, runtime.makeSnapshot_dirty _, hsound,
        hu.1⟩, hu.2⟩
  | false =>
      have hnew : pointId ∉ account.evaluatedIds := fun hmem => Bool.false_ne_true (hseen.mpr hmem)
      -- once marked the point is not yet evaluated; the mark is what the account will list
      let marked := fun priv : Private R => ∀ distance,
        Stands cursors (account.record pointId distance) priv
      refine Triple.bind (M := fun _ u => marked u.1 ∧ J (.submitted scan pointId) account u.2)
        (fun u hu => ⟨fun distance => ⟨hu.1.cursors, fun id => ?_⟩, hu.2⟩) fun _ => ?_
      · rw [Account.evaluatedIds_record, List.mem_append, List.mem_singleton, ← hu.1.seen id]
        change Function.update u.1.seen pointId true id = true ↔ _
        by_cases hid : id = pointId
        · subst hid
          simp
        · rw [Function.update_of_ne hid]
          simp [hid]
      refine Triple.bind (Triple.outside marked (h.access scan pointId account hsound hlt hnew))
        fun point => ?_
      refine Triple.bind (M := fun _ u =>
        validatePoint point setting.metadata.numDimensions pointId = .ok () ∧ marked u.1 ∧
          J (.accessed scan pointId point) account u.2)
        (Triple.liftResult (fun _ hok u hu => ⟨hok, hu⟩) fun e herr u hu =>
          h.failed _ account e u.2 (.of_validatePoint herr) hu.2) fun _ => Triple.assume fun hvalid => ?_
      refine Triple.bind (M := fun distance u =>
        boundedDistanceValueUnchecked point setting.query setting.metadata.metric
          (setting.upperBound runtime) = .ok distance ∧ marked u.1 ∧
          J (.accessed scan pointId point) account u.2)
        (Triple.liftResult (fun _ hok u hu => ⟨hok, hu⟩) fun e herr u hu =>
          h.failed _ account e u.2 (.of_distance herr) hu.2)
        fun distance => Triple.assume fun hdistance => ?_
      have hrecorded := hsound.record distance hlt hnew
      unfold SearchParameters.upperBound at hdistance
      rw [hshows.neighbors] at hdistance
      obtain ⟨hshows', hcache'⟩ := hshows.recordDistance setting.toSearchParameters pointId
        distance
      refine Triple.bind (Triple.outside (Stands cursors (account.record pointId distance))
        (hcache' ▸ h.evaluation scan pointId point account distance hrecorded hnew hvalid hdistance)
        |>.consequence (fun u hu => ⟨hu.1 distance, hu.2⟩) (fun _ _ hu => hu) fun _ _ hu => hu)
        fun _ => Triple.pure ?_
      exact fun u hu => ⟨account.record pointId distance, ⟨.record account pointId distance, hshows',
        hcache', SearchRuntime.makeSnapshot_dirty _ _, hrecorded, hu.1⟩, hu.2⟩

/-! ## One scan -/

/-- What holds while a scan delivers: the cursors wait where they were. -/
structure InScan (setting : Setting) (J : Phase → Account R → σ → Prop) (scan : OngoingScan)
    (base : Account R) (cursors : Nat → Outward (ScanBound R)) (done : List Nat)
    (progress : Progress R) (u : Private R × σ) (account : Account R) : Prop where
  reflects : progress.Shows setting.k account
  midway : setting.Midway scan.tableId base done account
  stands : Stands cursors account u.1
  holds : J (.scanning scan) account u.2

/-- `RangeExecution::evaluate` -/
theorem Keeps.evaluateHit (h : setting.Keeps strategy accessor accept J E)
    (cursors : Nat → Outward (ScanBound R)) (scan : OngoingScan) (pointId : Nat) {progress : Progress R} (hshows : progress.Shows setting.k account)
    (hsound : setting.Sound account) :
    Triple (fun u => Stands cursors account u.1 ∧
        J (.submitted (some scan) pointId) account u.2)
      ((setting.context strategy accessor accept).evaluateHit progress pointId)
      (fun progress' u => ∃ account', account.Evaluates account' ∧
        progress'.Shows setting.k account' ∧ setting.Sound account' ∧ Stands cursors account' u.1 ∧
        J (.scanning scan) account' u.2)
      (fun e u => E e u.2) := by
  unfold SearchContext.evaluateHit
  rw [hshows.hits]
  refine Triple.bind (h.evaluateCandidate cursors (some scan) pointId hshows.runtime hsound)
    fun runtime => Triple.exists_pre fun account' => Triple.pure ?_
  rintro u ⟨hafter, hj⟩
  have hclean : runtime.makeSnapshot setting.k = runtime := by
    unfold SearchRuntime.makeSnapshot
    rw [hafter.clean]
    rfl
  refine ⟨account', hafter.evaluates, ⟨?_, ?_⟩, hafter.sound, hafter.stands, hj⟩
  · exact (congrArg SearchRuntime.snapshotCache hclean).trans hafter.cached
  · change SearchRuntime.Shows setting.k
      ((runtime.makeSnapshot setting.k).setHits account'.delivered.length) account'
    have hcached : runtime.snapshotCache.projectionHits = account'.delivered.length := by
      rw [hafter.cached]
      rfl
    rw [hclean, SearchRuntime.setHits_self hafter.reflects.hits hcached]
    exact hafter.reflects

/-- One hit of a scan. -/
theorem Keeps.deliverHit (h : setting.Keeps strategy accessor accept J E) {position : Nat}
    (progress : Progress R)
    (hnew : ∀ account, setting.Midway scan.tableId base done account →
      setting.Sound (account.deliver scan.tableId position)) :
    Triple (fun u => ∃ account, setting.InScan J scan base cursors done progress u account)
      (Qalsh.deliverHit (fun hit state => Foundation.outside (accept hit state))
        (setting.context strategy accessor accept).evaluateHit progress
        ((setting.table scan.tableId).hitAt position))
      (fun progress' u => ∃ account,
        setting.InScan J scan base cursors (done ++ [position]) progress' u account)
      (fun e u => E e u.2) := by
  refine Triple.exists_pre fun account => ?_
  intro u hu
  have hsound := hnew account hu.midway
  have hshows := hu.reflects.deliver scan.tableId position
  have hstands : Stands cursors (account.deliver scan.tableId position) u.1 :=
    ⟨hu.stands.cursors, hu.stands.seen⟩
  refine (?_ : Triple (fun u => Stands cursors (account.deliver scan.tableId position) u.1 ∧
    J (.scanning scan) account u.2) _ _ _) u ⟨hstands, hu.holds⟩
  unfold Qalsh.deliverHit
  refine Triple.bind (Triple.outside _ (hshows.state ▸
    h.hit scan position account hsound)) fun decision => ?_
  cases hdecision : decision.hasCandidate with
  | true =>
      refine (h.evaluateHit cursors scan decision.candidate hshows
        hsound).consequence (fun u hu => ?_) (fun progress' u hafter => ?_) fun _ _ hu => hu
      · exact ⟨hu.1, by simpa [hdecision] using hu.2⟩
      · obtain ⟨account', hevaluates, hshows', hsound', hstands', hj⟩ := hafter
        exact ⟨account', hshows', hu.midway.evaluates hevaluates hsound', hstands', hj⟩
  | false =>
      refine Triple.pure fun u hafter => ⟨account.deliver scan.tableId position, hshows,
        hu.midway.evaluates (.refl _) hsound, hafter.1, ?_⟩
      simpa [hdecision] using hafter.2

/-- The hits of a scan, one after the other. -/
theorem Keeps.scanHits (h : setting.Keeps strategy accessor accept J E) (limit : Nat)
    (scope : ScanScope) (hplaced : setting.Placed base cursors)
    (htable : scan.tableId < setting.tableCount)
    (hbound : bound.1 = base.bound) (hsound : setting.Sound base) {progress : Progress R}
    (hshows : progress.Shows setting.k base) :
    Triple (fun u => Stands cursors base u.1 ∧ J (.scanning scan) base u.2)
      ((((setting.step scan.tableId (request bound limit scope) (cursors scan.tableId)).positions
          (cursors scan.tableId)).map (setting.table scan.tableId).hitAt).foldlM
        (Qalsh.deliverHit (fun hit state => Foundation.outside (accept hit state))
          (setting.context strategy accessor accept).evaluateHit) progress)
      (fun progress' u => ∃ account, setting.InScan J scan base cursors
        ((setting.step scan.tableId (request bound limit scope) (cursors scan.tableId)).positions
          (cursors scan.tableId)) progress' u account)
      (fun e u => E e u.2) := by
  rw [List.foldlM_map]
  refine (Triple.foldlM (I := fun done progress u => ∃ account, setting.InScan J scan base cursors
    done progress u account) (fun done position rest progress hall => ?_) _ [] progress
    (List.nil_append _).symm).consequence (fun u hu => ?_) (fun _ _ hu => hu) fun _ _ hu => hu
  · exact h.deliverHit progress fun account hmidway => hplaced.deliver htable hbound hall hmidway
  · exact ⟨base, hshows, .start hsound, hu.1, hu.2⟩

omit [Platform] in
/-- The cursors after a scan. -/
theorem Placed.close (hplaced : setting.Placed base cursors) (htable : tableId < setting.tableCount)
    (hbound : bound.1 = base.bound)
    (hmidway : setting.Midway tableId base
      ((setting.step tableId (request bound limit scope) (cursors tableId)).positions
        (cursors tableId)) account) (report : ScanReport) :
    setting.Placed (account.close tableId report) (Function.update cursors tableId
      (setting.step tableId (request bound limit scope) (cursors tableId)).cursor) := by
  obtain ⟨-, hvalid, hat, hdelivered⟩ := hplaced.step htable limit scope hbound
  refine ⟨fun t ht => ?_, fun t ht => ?_, fun t ht => ?_⟩
  · by_cases heq : t = tableId
    · subst heq
      rw [Function.update_self]
      exact hvalid
    · rw [Function.update_of_ne heq]
      exact hplaced.valid t ht
  · change ∀ last : ScanBound R, _ → RadiusArithmetic.le last.1 account.bound = true
    by_cases heq : t = tableId
    · subst heq
      rw [Function.update_self]
      intro last hlast
      obtain ⟨last', hlast', hle, -⟩ := hat
      cases hlast.symm.trans hlast'
      rw [hmidway.bound, ← hbound]
      exact hle
    · rw [Function.update_of_ne heq, hmidway.bound]
      exact hplaced.admits t ht
  · rw [Account.positions_close, hmidway.positions]
    by_cases heq : t = tableId
    · subst heq
      rw [Function.update_self, if_pos rfl]
      exact hdelivered
    · rw [Function.update_of_ne heq, if_neg heq, List.append_nil]
      exact hplaced.delivered t ht

/-- The state of a search that is not scanning. -/
structure Rests (setting : Setting) (account : Account R) (priv : Private R) : Prop where
  placed : setting.Placed account priv.cursors
  stands : Stands priv.cursors account priv

/-- What a whole scan returns. -/
structure AfterScan (setting : Setting) (scan : OngoingScan) (base account : Account R)
    (report : ScanReport) (progress : Progress R) (priv : Private R) : Prop where
  reflects : progress.Shows setting.k account
  sound : setting.Sound account
  steps : account.steps = base.steps
  closed : setting.Sound (account.close scan.tableId report)
  settled : setting.Settled (account.close scan.tableId report)
  rests : setting.Rests (account.close scan.tableId report) priv
  tableId_eq : report.tableId = scan.tableId
  visited : scan.start + report.entriesVisited = account.delivered.length
  share : scan.scope = .quantum → report.entriesVisited = setting.quantumShare account scan
  progress : report.entriesVisited = 0 → report.windowExhausted = true

theorem Keeps.scanRange (h : setting.Keeps strategy accessor accept J E) (hlimit : 0 < limit)
    (hquantum : scope = .quantum → limit = setting.scanQuantum)
    (htable : tableId < setting.tableCount) (hsound : setting.Sound base)
    (hsettled : setting.Settled base) {progress : Progress R} (hshows : progress.Shows setting.k base) :
    Triple (fun u => setting.Rests base u.1 ∧ J (.acting (.scan tableId scope)) base u.2)
      ((setting.context strategy accessor accept).services.scan
        (setting.context strategy accessor accept).evaluateHit tableId base.bound limit scope progress)
      (fun out u => ∃ account, setting.AfterScan ⟨tableId, scope, base.delivered.length⟩ base
          account out.1 out.2 u.1 ∧
        J (.scanning ⟨tableId, scope, base.delivered.length⟩) account u.2)
      (fun e u => E e u.2) := by
  rintro u ⟨hrests, hj⟩
  have hvalid := windowBound_valid hsound.bound_eq
  have hservice : (setting.context strategy accessor accept).services.scan
      (setting.context strategy accessor accept).evaluateHit tableId base.bound limit scope progress u =
      setting.scan (fun hit state => Foundation.outside (accept hit state))
        (setting.context strategy accessor accept).evaluateHit tableId base.bound limit scope progress u :=
    rfl
  rw [hservice]
  by_cases hscope : scope.isValid = true
  · rw [setting.scan_valid ⟨base.bound, hvalid⟩ hscope rfl]
    have hbound : (⟨base.bound, hvalid⟩ : ScanBound R).1 = base.bound := rfl
    have hhits := h.scanHits limit scope hrests.placed htable hbound hsound hshows u
      ⟨hrests.stands, h.scan tableId scope base u.2 hsound hsettled htable hj⟩
    generalize hstep : setting.step tableId (request ⟨base.bound, hvalid⟩ limit scope)
      (u.1.cursors tableId) = step at hhits ⊢
    generalize ((step.positions (u.1.cursors tableId)).map (setting.table tableId).hitAt).foldlM
      (Qalsh.deliverHit (fun hit state => Foundation.outside (accept hit state))
        (setting.context strategy accessor accept).evaluateHit) progress u = x at hhits ⊢
    cases x with
    | error e u' => exact hhits
    | ok progress' u' =>
        obtain ⟨account, hin⟩ := hhits
        subst hstep
        have hreports := hrests.placed.reports htable rfl hin.midway
        have hplaced := hrests.placed.close htable rfl hin.midway (reportOf
          (setting.table tableId).tableId setting.metadata.numPoints (setting.step tableId
            (request ⟨base.bound, hvalid⟩ limit scope) (u.1.cursors tableId)))
        refine ⟨account, ⟨hin.reflects, hin.midway.sound, hin.midway.steps,
          hin.midway.sound.close htable hreports, hsettled.close hin.midway.sound hin.midway htable hreports,
          ⟨?_, rfl, hin.stands.seen⟩, setting.tableId_eq tableId htable, ?_, fun hscope => ?_,
          fun hnone => ?_⟩, hin.holds⟩
        · change setting.Placed _ (Function.update u'.1.cursors tableId _)
          rw [hin.stands.cursors]
          exact hplaced
        · change base.delivered.length + (_ + _) = _
          rw [hin.midway.delivered, List.length_append, List.length_map, Outward.length_positions]
        · change scope = .quantum at hscope
          obtain rfl := hquantum hscope
          subst hscope
          exact hrests.placed.share htable hbound hin.midway
        · exact Outward.call_progress (w := (setting.table tableId).windows) (setting.extent tableId)
            (hrests.placed.valid tableId htable) hlimit hnone
  · rw [setting.scan_invalid hscope]
    exact h.failed _ base _ u.2 (.invalidArgument (by decide)) hj

/-! ## The actions -/

/-- What the loop knows of its state. -/
structure Between (setting : Setting) (account : Account R) (runtime : SearchRuntime R)
    (priv : Private R) : Prop where
  reflects : runtime.Shows setting.k account
  sound : setting.Sound account
  settled : setting.Settled account
  rests : setting.Rests account priv

omit [Platform] in
theorem Rests.evaluates (h : setting.Rests account priv) (he : account.Evaluates account')
    (hstands : Stands priv.cursors account' priv') : setting.Rests account' priv' where
  placed := by
    rw [hstands.cursors]
    refine ⟨h.placed.valid, fun t ht => ?_, fun t ht => ?_⟩
    · rw [he.bound]
      exact h.placed.admits t ht
    · rw [he.positions]
      exact h.placed.delivered t ht
  stands := ⟨rfl, hstands.seen⟩

/-- The report of a scan with the flags of the search. -/
def globalReport (tableCount : Nat) (closed : SearchRuntime R) (report : ScanReport) : ScanReport :=
  { report with
    roundComplete := closed.roundComplete
    allTablesExhausted := decide (closed.exhaustedTables = tableCount) }

/-- The end of the action `scan`. -/
theorem Keeps.closeScan (h : setting.Keeps strategy accessor accept J E)
    (htable : scan.tableId < setting.tableCount) {report : ScanReport} {progress : Progress R}
    {closed : SearchRuntime R} (hclosed : closed.Shows setting.k (account.close scan.tableId report)) :
    Triple (fun u => setting.AfterScan scan base account report progress u.1 ∧
        J (.scanning scan) account u.2)
      (do
        (setting.context strategy accessor accept).strategy.onScanBoundary
          { report := globalReport setting.tableCount closed report
            radius := (closed.makeSnapshot setting.k).radius }
          (closed.makeSnapshot setting.k).snapshotCache
        return closed.makeSnapshot setting.k)
      (fun runtime' u => ∃ account', account'.steps = base.steps ∧
        setting.Between account' runtime' u.1 ∧ J .ready account' u.2)
      (fun e u => E e u.2) := by
  rintro u ⟨hafter, hj⟩
  obtain ⟨hshows, hcache⟩ := hclosed.makeSnapshot
  have hflags : decide (closed.exhaustedTables = setting.tableCount) =
      (account.close scan.tableId report).allExhausted := by
    rw [hclosed.exhaustedTables, ← hafter.closed.exhausted_length]
    exact all_iff_count.symm
  have hradius : (closed.makeSnapshot setting.k).radius = account.radius := hshows.radius
  have hcloses : setting.Closes scan account
      (globalReport setting.tableCount closed report) :=
    ⟨hafter.tableId_eq, htable, hafter.visited, hafter.share, hafter.progress, hclosed.roundComplete, hflags⟩
  have hboundary := h.boundary scan account
    (globalReport setting.tableCount closed report) hafter.sound hafter.closed hafter.settled hcloses
  rw [hradius, hcache]
  refine Triple.bind (Triple.outside (setting.Rests (account.close scan.tableId report)) hboundary)
    (fun _ => Triple.pure fun u hu => ?_) u ⟨hafter.rests, hj⟩
  exact ⟨account.close scan.tableId report, hafter.steps, ⟨hshows, hafter.closed, hafter.settled, hu.1⟩,
    hu.2⟩

omit [Platform] in
theorem Between.stepped (h : setting.Between account runtime priv) :
    setting.Between account.stepped runtime priv :=
  ⟨h.reflects.stepped, h.sound.stepped, h.settled, ⟨⟨h.rests.placed.valid, h.rests.placed.admits,
    h.rests.placed.delivered⟩, rfl, h.rests.stands.seen⟩⟩

/-- The action `scan`. -/
theorem Keeps.scanTable (h : setting.Keeps strategy accessor accept J E) (tableId : Nat)
    (scope : ScanScope) :
    Triple (fun u => setting.Between account runtime u.1 ∧
        J (.acting (.scan tableId scope)) account u.2)
      ((setting.context strategy accessor accept).scanTable runtime tableId scope)
      (fun runtime' u => ∃ account', account'.steps = account.steps ∧
        setting.Between account' runtime' u.1 ∧ J .ready account' u.2)
      (fun e u => E e u.2) := by
  unfold SearchContext.scanTable
  refine Triple.bind (M := fun _ u => tableId < setting.tableCount ∧
    setting.Between account runtime u.1 ∧ J (.acting (.scan tableId scope)) account u.2)
    (Triple.liftResult (fun _ hok u hu => ⟨require_eq_ok.mp hok, hu⟩) fun e herr u hu =>
      h.failed _ account e u.2 (.of_require (by decide) herr) hu.2) fun _ => Triple.assume fun htable => ?_
  rintro u ⟨hbetween, hj⟩
  obtain ⟨hmade, hcache⟩ := hbetween.reflects.makeSnapshot
  have hprogress : Progress.Shows setting.k
      { runtime := runtime.makeSnapshot setting.k
        state := (runtime.makeSnapshot setting.k).snapshotCache } account := by
    refine ⟨hcache, ?_⟩
    have hcached : (runtime.makeSnapshot setting.k).snapshotCache.projectionHits =
        account.delivered.length := by
      rw [hcache]
      rfl
    change SearchRuntime.Shows setting.k ((runtime.makeSnapshot setting.k).setHits _) account
    rw [SearchRuntime.setHits_self hmade.hits hcached]
    exact hmade
  have hlimit : 0 < if scope = .range then uint64Max else setting.scanQuantum := by
    split
    · decide
    · exact setting.quantum_pos
  have hquantum : scope = .quantum →
      (if scope = .range then uint64Max else setting.scanQuantum) = setting.scanQuantum := fun heq => by
    rw [heq, if_neg nofun]
  have hbound : (runtime.makeSnapshot setting.k).bound = account.bound := hmade.bound
  refine Triple.bind (hbound ▸ h.scanRange hlimit hquantum htable hbetween.sound hbetween.settled hprogress)
    (fun out => Triple.exists_pre fun middle => ?_) u ⟨hbetween.rests, hj⟩
  obtain ⟨report, progress⟩ := out
  rintro u ⟨hafter, hj⟩
  have htallies : SearchRuntime.Tallies setting.k
      { progress.runtime with hits := progress.state.projectionHits } middle := by
    rw [hafter.reflects.hits]
    exact { hafter.reflects.runtime.toTallies with }
  have hclosed := htallies.closeScan report hafter.sound.exhausted_length
    hafter.sound.completed_length htable
  exact h.closeScan htable hclosed u ⟨hafter, hj⟩

omit [Platform] in
theorem Sound.openRound (h : setting.Sound account) {radius bound : R}
    (hradius : RadiusArithmetic.isFinite radius = true)
    (hbound : windowBound setting.metadata.qalsh.bucketWidth radius = .ok bound)
    (hle : RadiusArithmetic.le account.bound bound = true) :
    setting.Sound (account.openRound radius bound) where
  radius_finite := hradius
  bound_eq := hbound
  exhausted_length := h.exhausted_length
  completed_length := h.exhausted_length
  delivered_mem t p hmem := by
    obtain ⟨ht, hp, hinside⟩ := h.delivered_mem t p hmem
    exact ⟨ht, hp, RadiusArithmetic.covers_mono hle hinside⟩
  delivered_nodup := h.delivered_nodup
  exhausted := h.exhausted
  completed t ht p hp _ := h.exhausted t ht p hp
  exhausted_completed _ ht := ht
  evaluated_nodup := h.evaluated_nodup
  evaluated_lt := h.evaluated_lt

/-- The action `advance_radius`. -/
theorem Keeps.advanceRadius (h : setting.Keeps strategy accessor accept J E) :
    Triple (fun u => setting.Between account runtime u.1 ∧ J (.acting .advanceRadius) account u.2)
      ((setting.context strategy accessor accept).advanceRadius runtime)
      (fun runtime' u => ∃ account', account'.steps = account.steps ∧
        setting.Between account' runtime' u.1 ∧ J .ready account' u.2)
      (fun e u => E e u.2) := by
  rintro u ⟨hbetween, hj⟩
  unfold SearchContext.advanceRadius
  rw [hbetween.reflects.radius]
  refine Triple.bind (M := fun round u => setting.nextRound account.radius = .ok round ∧
    setting.Between account runtime u.1 ∧ J (.acting .advanceRadius) account u.2)
    (Triple.liftResult (fun _ hok u hu => ⟨hok, hu⟩) fun e herr u hu =>
      h.failed _ account e u.2 (.of_nextRound herr) hu.2) (fun round => Triple.assume fun hround => ?_)
    u ⟨hbetween, hj⟩
  obtain ⟨radius, bound⟩ := round
  obtain ⟨hfinite, hbound, hle⟩ := SearchParameters.nextRound_le setting.metadata_valid.qalsh.width
    hbetween.sound.radius_finite hbetween.sound.bound_eq hround
  have hsound := hbetween.sound.openRound hfinite hbound hle
  have hsettled : setting.Settled (account.openRound radius bound) := hbetween.settled
  obtain ⟨hshows, hcache⟩ := (hbetween.reflects.toTallies.openRound
    hbetween.sound.exhausted_length radius bound).makeSnapshot
  have hrests : ∀ priv, setting.Rests account priv → setting.Rests (account.openRound radius bound) priv :=
    fun priv hrests => ⟨⟨hrests.placed.valid, fun t ht last hlast =>
      RadiusArithmetic.le_trans (hrests.placed.admits t ht last hlast) hle, hrests.placed.delivered⟩,
      rfl, hrests.stands.seen⟩
  refine Triple.consequence (Triple.bind (Triple.outside (setting.Rests (account.openRound radius bound))
    (hcache ▸ h.advance account radius bound hbetween.sound hbetween.settled hround hsound hsettled))
    fun _ => Triple.pure fun u hu => ?_) (fun u hu => ⟨hrests _ hu.1.rests, hu.2⟩) (fun _ _ hu => hu)
    fun _ _ hu => hu
  exact ⟨account.openRound radius bound, rfl, ⟨hshows, hsound, hsettled, hu.1⟩, hu.2⟩

/-! ## The loop -/

/-- The loop, by induction on the steps that are left. -/
theorem Keeps.searchLoop (h : setting.Keeps strategy accessor accept J E) :
    ∀ (steps : Nat) (runtime : SearchRuntime R) (account : Account R),
      Triple (fun u => setting.Between account runtime u.1 ∧ J .ready account u.2)
        ((setting.context strategy accessor accept).searchLoop steps runtime)
        (fun out u => ∃ account', setting.Between account' out.1 u.1 ∧
          Ended J (account.steps + steps) account' u.2 out.2)
        (fun e u => E e u.2) := by
  intro steps
  induction steps with
  | zero =>
      intro runtime account
      exact Triple.pure fun u hu => ⟨account, hu.1, rfl, hu.2⟩
  | succ steps ih =>
      intro runtime account
      rintro u ⟨hbetween, hj⟩
      obtain ⟨hshows, hcache⟩ := hbetween.reflects.makeSnapshot
      simp only [SearchContext.searchLoop]
      have hmade : setting.Between account (runtime.makeSnapshot setting.k) u.1 :=
        ⟨hshows, hbetween.sound, hbetween.settled, hbetween.rests⟩
      have hk : (setting.context strategy accessor accept).k = setting.k := rfl
      rw [hk, hcache]
      have hrest : ∀ {action} {x : EStateM Error (Private R × σ) (SearchRuntime R)},
          Triple (fun u => setting.Between account.stepped (runtime.makeSnapshot setting.k) u.1 ∧
            J (.acting action) account.stepped u.2) x
            (fun runtime' u => ∃ account', account'.steps = account.stepped.steps ∧
              setting.Between account' runtime' u.1 ∧ J .ready account' u.2) (fun e u => E e u.2) →
          Triple (fun u => setting.Between account.stepped (runtime.makeSnapshot setting.k) u.1 ∧
            J (.acting action) account.stepped u.2)
            (x >>= (setting.context strategy accessor accept).searchLoop steps)
            (fun out u => ∃ account', setting.Between account' out.1 u.1 ∧
              Ended J (account.steps + (steps + 1)) account' u.2 out.2) (fun e u => E e u.2) := by
        intro action x hx
        refine Triple.bind hx fun runtime' => Triple.exists_pre fun account' =>
          Triple.assume fun hsteps => ?_
        have hloop := ih runtime' account'
        rw [hsteps] at hloop
        have hcount : account.stepped.steps + steps = account.steps + (steps + 1) := by
          show account.steps + 1 + steps = _
          omega
        rw [hcount] at hloop
        exact hloop
      refine Triple.bind (Triple.outside (fun priv => setting.Between account.stepped
        (runtime.makeSnapshot setting.k) priv) (h.next account hbetween.sound hbetween.settled))
        (fun action => ?_) u ⟨hmade.stepped, hj⟩
      cases action with
      | scan tableId scope => exact hrest (h.scanTable tableId scope)
      | evaluate pointId =>
          refine hrest ?_
          rintro u ⟨hbetween, hj⟩
          refine (h.evaluateCandidate u.1.cursors none pointId hbetween.reflects
            hbetween.sound).consequence (fun u hu => hu) (fun runtime' u' hu => ?_) (fun _ _ hu => hu)
            u ⟨hbetween.rests.stands, h.evaluate pointId _ _ hj⟩
          obtain ⟨account', hafter, hj'⟩ := hu
          exact ⟨account', hafter.evaluates.steps, ⟨hafter.reflects, hafter.sound,
            hbetween.settled.evaluates hafter.evaluates,
            hbetween.rests.evaluates hafter.evaluates hafter.stands⟩, hj'⟩
      | advanceRadius => exact hrest h.advanceRadius
      | finish =>
          refine Triple.pure fun u hu => ⟨account.stepped, hu.1, ?_⟩
          change Ended J _ account.stepped u.2 (some (if account.allExhausted then _ else _))
          cases hall : account.allExhausted with
          | true => exact ⟨hall, hu.2⟩
          | false => exact ⟨hall, hu.2⟩
      | invalid code => exact Triple.pure fun u hu => ⟨account.stepped, hu.1, code, hu.2⟩

/-! ## The search -/

omit [Platform] [RadiusArithmetic R] in
/-- The result a search returns for its account. -/
def accountResult (setting : Setting) (account : Account R) (reason : Option TerminationReason) :
    SearchResult where
  neighbors := account.neighbors setting.k
  reason := reason.getD .stepLimit
  evaluatedCandidates := account.evaluated.length
  projectionHits := account.delivered.length
  complete := reason.isSome && decide ((account.neighbors setting.k).length = setting.k) &&
    (decide (reason = some .strategy) || decide (reason = some .scanExhausted))

omit [RadiusArithmetic R] [Platform] in
theorem result_eq {reason : Option TerminationReason} (h : runtime.Shows setting.k account) :
    setting.result runtime reason = setting.accountResult account reason := by
  unfold SearchParameters.result accountResult
  rw [h.neighbors, h.evaluated, h.hits]

/-- How a search ends that returns. -/
structure Returns (setting : Setting) (J : Phase → Account R → σ → Prop) (result : SearchResult)
    (s : σ) (limit : Nat) (account : Account R) (reason : Option TerminationReason) : Prop where
  limit_eq : stepLimit setting.metadata setting.tableCount setting.options.maxSteps = .ok limit
  sound : setting.Sound account
  settled : setting.Settled account
  ended : Ended J limit account s reason
  result_eq : result = setting.accountResult account reason

omit [Platform] in
theorem Sound.initial {bound : R} (hbound : windowBound setting.metadata.qalsh.bucketWidth
    (RadiusArithmetic.ofFloat setting.metadata.qalsh.initialRadius) = .ok bound) :
    setting.Sound (Account.initial (RadiusArithmetic.ofFloat setting.metadata.qalsh.initialRadius)
      bound setting.tableCount) := by
  have hflag : ∀ t, (List.replicate setting.tableCount false).getD t false = false := fun t => by
    rw [List.getD_eq_getElem?_getD, List.getElem?_replicate]
    split <;> rfl
  exact
    { radius_finite := RadiusArithmetic.isFinite_ofFloat setting.metadata_valid.qalsh.radius_finite
      bound_eq := hbound
      exhausted_length := List.length_replicate
      completed_length := List.length_replicate
      delivered_mem := fun _ _ h => nomatch h
      delivered_nodup := List.nodup_nil
      exhausted := fun t ht => by rw [Account.initial, hflag t] at ht; cases ht
      completed := fun t ht => by rw [Account.initial, hflag t] at ht; cases ht
      exhausted_completed := fun t ht => by rw [Account.initial, hflag t] at ht; cases ht
      evaluated_nodup := List.nodup_nil
      evaluated_lt := fun _ h => nomatch h }

/-- The invariant rule of a search: what holds after `start` and is kept by every callback
holds when the search ends. -/
theorem Keeps.searchFrom (h : setting.Keeps strategy accessor accept J E) {P : σ → Prop} {bound : R}
    (hbound : windowBound setting.metadata.qalsh.bucketWidth
      (RadiusArithmetic.ofFloat setting.metadata.qalsh.initialRadius) = .ok bound)
    (hstart : Triple P (strategy.start (queryStart setting.metadata setting.tableCount setting.k
        (RadiusArithmetic.ofFloat setting.metadata.qalsh.initialRadius)))
      (fun _ => J .ready (Account.initial (RadiusArithmetic.ofFloat
        setting.metadata.qalsh.initialRadius) bound setting.tableCount)) E) :
    Triple P (setting.searchFrom strategy accessor accept bound)
      (fun result s => ∃ limit account reason, setting.Returns J result s limit account reason) E := by
  have hshows : (SearchRuntime.initial (RadiusArithmetic.ofFloat setting.metadata.qalsh.initialRadius)
      bound setting.tableCount).Shows setting.k _ := .initial setting.k _ bound setting.tables_pos
  have hsound : setting.Sound _ := .initial hbound
  have hpoints : 0 < setting.metadata.numPoints := setting.k_pos.trans_le setting.k_le
  have hsettled : setting.Settled (Account.initial (RadiusArithmetic.ofFloat (R := R)
      setting.metadata.qalsh.initialRadius) bound setting.tableCount) :=
    fun t _ hall => nomatch hall 0 hpoints
  have hrests : setting.Rests (Account.initial (RadiusArithmetic.ofFloat
      setting.metadata.qalsh.initialRadius) bound setting.tableCount) setting.fresh :=
    ⟨⟨fun t _ => Outward.start_valid _, fun _ _ _ h => (nomatch h), fun t _ => Outward.Delivered.start⟩,
      ⟨rfl, fun _ => ⟨Bool.false_ne_true.elim, List.not_mem_nil.elim⟩⟩⟩
  unfold Setting.searchFrom
  refine Triple.bind hstart fun _ => ?_
  refine Triple.bind (M := fun limit s => stepLimit setting.metadata setting.tableCount
      setting.options.maxSteps = .ok limit ∧ J .ready (Account.initial (RadiusArithmetic.ofFloat
        setting.metadata.qalsh.initialRadius) bound setting.tableCount) s)
    (Triple.liftResult (fun _ hok s hs => ⟨hok, hs⟩) fun e herr s hs =>
      h.failed _ _ e s (.of_stepLimit herr) hs) fun limit => Triple.assume fun hlimit => ?_
  refine Triple.bind ((Triple.enclosed setting.fresh (h.searchLoop limit _ _)).consequence
    (fun s hs => ⟨⟨hshows, hsound, hsettled, hrests⟩, hs⟩) (fun _ _ hs => hs) fun _ _ hs => hs)
    fun out => Triple.pure ?_
  rintro s ⟨priv, account, hbetween, hended⟩
  refine ⟨limit, account, out.2, hlimit, hbetween.sound, hbetween.settled, ?_,
    result_eq hbetween.reflects⟩
  have hcount : (Account.initial (RadiusArithmetic.ofFloat (R := R)
      setting.metadata.qalsh.initialRadius) bound setting.tableCount).steps + limit = limit :=
    Nat.zero_add limit
  rw [hcount] at hended
  exact hended

end Setting

end Qalsh
