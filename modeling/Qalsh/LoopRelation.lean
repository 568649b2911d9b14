/-
  LoopRelation.lean --- relating two runs of the search loop.

  Two searches whose strategies, accessors and services answer alike run alike.  The
  relation between their states may depend on the current bound and has to survive
  growing bounds; this is all a caller shows about its own two sides.
-/
import Qalsh.Engine

set_option autoImplicit false

namespace Qalsh

open Foundation

variable {R : Type} [RadiusArithmetic R] {σ τ ω α β : Type}

/-! ## Requirements on both sides -/

/-- A requirement both sides make: it throws on both or holds for what follows. -/
theorem Foundation.Simulates.require {Rel Err : σ → τ → Prop} {Q : α → β → σ → τ → Prop}
    {condition : Prop} [Decidable condition] {message : String} {f : Unit → EStateM Error σ α}
    {g : Unit → EStateM Error τ β} (herr : ∀ s t, Rel s t → Err s t)
    (h : condition → Simulates Rel (f ()) (g ()) Q Err) :
    Simulates Rel (Foundation.liftResult (Qalsh.require condition message) >>= f)
      (Foundation.liftResult (Qalsh.require condition message) >>= g) Q Err := by
  by_cases hc : condition
  · rw [require_of hc]
    exact h hc
  · intro s t hst
    rw [Qalsh.require, if_neg hc]
    exact ⟨rfl, herr s t hst⟩

/-- A result both sides compute: its error is thrown on both or its value is shared. -/
theorem Foundation.Simulates.lift {γ : Type} {Rel Err : σ → τ → Prop}
    {Q : α → β → σ → τ → Prop} (x : Except Error γ) {f : γ → EStateM Error σ α}
    {g : γ → EStateM Error τ β} (herr : ∀ s t, Rel s t → Err s t)
    (h : ∀ c, x = .ok c → Simulates Rel (f c) (g c) Q Err) :
    Simulates Rel (Foundation.liftResult x >>= f) (Foundation.liftResult x >>= g) Q Err := by
  cases x with
  | ok c => exact h c rfl
  | error e => exact fun s t hst => ⟨rfl, herr s t hst⟩

/-! ## What evaluations keep -/

/-- The runtimes are in the same round. -/
structure SearchRuntime.SameRound (runtime runtime' : SearchRuntime R) : Prop where
  radius : runtime'.radius = runtime.radius
  bound : runtime'.bound = runtime.bound

/-- Evaluations keep the round and the hit counter of a range execution. -/
def Keeps (evaluate : Progress R → Nat → EStateM Error σ (Progress R)) : Prop :=
  ∀ progress pointId s progress' s', evaluate progress pointId s = .ok progress' s' →
    progress'.state.projectionHits = progress.state.projectionHits ∧
      progress.runtime.SameRound progress'.runtime

section Runtime

omit [RadiusArithmetic R]

theorem SearchRuntime.SameRound.trans {r₁ r₂ r₃ : SearchRuntime R} (h : r₁.SameRound r₂)
    (h' : r₂.SameRound r₃) : r₁.SameRound r₃ :=
  ⟨h'.radius.trans h.radius, h'.bound.trans h.bound⟩

theorem SearchRuntime.makeSnapshot_round (runtime : SearchRuntime R) (k : Nat) :
    runtime.SameRound (runtime.makeSnapshot k) := by
  unfold makeSnapshot
  split <;> exact ⟨rfl, rfl⟩

@[simp] theorem SearchRuntime.makeSnapshot_radius (runtime : SearchRuntime R) (k : Nat) :
    (runtime.makeSnapshot k).radius = runtime.radius :=
  (runtime.makeSnapshot_round k).radius

@[simp] theorem SearchRuntime.makeSnapshot_bound (runtime : SearchRuntime R) (k : Nat) :
    (runtime.makeSnapshot k).bound = runtime.bound :=
  (runtime.makeSnapshot_round k).bound

@[simp] theorem SearchRuntime.makeSnapshot_dirty (runtime : SearchRuntime R) (k : Nat) :
    (runtime.makeSnapshot k).snapshotDirty = false := by
  unfold makeSnapshot
  split
  · rfl
  · exact Bool.eq_false_iff.mpr ‹_›

/-- A snapshot is taken with the hit counter the runtime and a clean cache agree on. -/
theorem SearchRuntime.makeSnapshot_hits {runtime : SearchRuntime R} (k : Nat) {hits : Nat}
    (h : runtime.hits = hits)
    (hcache : runtime.snapshotDirty = false → runtime.snapshotCache.projectionHits = hits) :
    (runtime.makeSnapshot k).snapshotCache.projectionHits = hits := by
  unfold makeSnapshot
  cases hd : runtime.snapshotDirty with
  | true => exact h
  | false => exact hcache hd

theorem SearchRuntime.closeScan_round (runtime : SearchRuntime R) (tableCount tableId : Nat)
    (report : ScanReport) : runtime.SameRound (runtime.closeScan tableCount tableId report) := by
  unfold closeScan countCompleted countExhausted
  split <;> split <;> exact ⟨rfl, rfl⟩

variable {parameters : SearchParameters} {ctx : SearchContext R σ}

theorem SearchParameters.recordDistance_round (runtime : SearchRuntime R) (pointId : Nat)
    (distance : BoundedDistance) :
    runtime.SameRound (parameters.recordDistance runtime pointId distance) := by
  unfold recordDistance
  refine SearchRuntime.SameRound.trans ?_ (SearchRuntime.makeSnapshot_round _ _)
  cases distance.exact <;> exact ⟨rfl, rfl⟩

theorem SearchParameters.recordDistance_hits (runtime : SearchRuntime R) (pointId : Nat)
    (distance : BoundedDistance) :
    (parameters.recordDistance runtime pointId distance).snapshotCache.projectionHits =
      runtime.hits := by
  unfold recordDistance
  refine SearchRuntime.makeSnapshot_hits parameters.k ?_ nofun
  cases distance.exact <;> rfl

/-- What an evaluation that returns keeps of the runtime. -/
theorem SearchContext.evaluateCandidate_keeps [Platform] {runtime runtime' : SearchRuntime R}
    {pointId : Nat} {s s' : σ} (h : ctx.evaluateCandidate runtime pointId s = .ok runtime' s') :
    runtime.SameRound runtime' ∧ runtime'.snapshotDirty = false ∧
      ((runtime.snapshotDirty = false → runtime.snapshotCache.projectionHits = runtime.hits) →
        runtime'.snapshotCache.projectionHits = runtime.hits) := by
  simp only [evaluateCandidate, bind_apply] at h
  split at h <;> [skip; cases h]
  split at h <;> [skip; cases h]
  split at h
  · -- a duplicate
    rw [bind_apply] at h
    split at h <;> [skip; cases h]
    cases h
    exact ⟨runtime.makeSnapshot_round ctx.k, runtime.makeSnapshot_dirty ctx.k,
      SearchRuntime.makeSnapshot_hits ctx.k rfl⟩
  · simp only [bind_apply] at h
    split at h <;> [skip; cases h]
    split at h <;> [skip; cases h]
    split at h <;> [skip; cases h]
    split at h <;> [skip; cases h]
    split at h <;> [skip; cases h]
    cases h
    exact ⟨SearchParameters.recordDistance_round _ _ _, SearchRuntime.makeSnapshot_dirty _ _,
      fun _ => SearchParameters.recordDistance_hits _ _ _⟩

theorem SearchContext.evaluateHit_keeps [Platform] : Keeps ctx.evaluateHit := by
  intro progress pointId s progress' s' h
  simp only [evaluateHit, bind_apply, pure_apply] at h
  split at h <;> [skip; cases h]
  rename_i runtime' s₁ hevaluate
  cases h
  obtain ⟨hround, hclean, hcached⟩ := evaluateCandidate_keeps hevaluate
  refine ⟨?_, SearchRuntime.SameRound.trans ⟨hround.radius, hround.bound⟩
    (SearchRuntime.makeSnapshot_round _ _)⟩
  show (runtime'.makeSnapshot ctx.k).snapshotCache.projectionHits = _
  unfold SearchRuntime.makeSnapshot
  rw [hclean]
  exact hcached fun _ => rfl

end Runtime

/-! ## Hits, one by one -/

section Hits

omit [RadiusArithmetic R]

theorem deliverHit_keeps {accept : ProjectionHit → QuerySnapshot R → EStateM Error σ HitDecision}
    {evaluate : Progress R → Nat → EStateM Error σ (Progress R)} (hkeeps : Keeps evaluate)
    {progress progress' : Progress R} {hit : ProjectionHit} {s s' : σ}
    (h : deliverHit accept evaluate progress hit s = .ok progress' s') :
    progress.runtime.SameRound progress'.runtime := by
  simp only [deliverHit, bind_apply] at h
  split at h <;> [skip; cases h]
  split at h
  · exact (hkeeps _ _ _ _ _ h).2
  · cases h
    exact ⟨rfl, rfl⟩

/-- Hits delivered to two sides that decide and evaluate alike. -/
theorem foldlM_deliverHit_agrees {Rel Err : σ → τ → Prop}
    {accept : ProjectionHit → QuerySnapshot R → EStateM Error σ HitDecision}
    {accept' : ProjectionHit → QuerySnapshot R → EStateM Error τ HitDecision}
    {evaluate : Progress R → Nat → EStateM Error σ (Progress R)}
    {evaluate' : Progress R → Nat → EStateM Error τ (Progress R)}
    (hkeeps : Keeps evaluate)
    (hevaluate : ∀ progress pointId, Agrees Rel Err (evaluate progress pointId)
      (evaluate' progress pointId)) (hits : List ProjectionHit)
    (haccept : ∀ hit ∈ hits, ∀ state, Agrees Rel Err (accept hit state) (accept' hit state))
    (progress : Progress R) :
    Simulates Rel (hits.foldlM (deliverHit accept evaluate) progress)
      (hits.foldlM (deliverHit accept' evaluate') progress)
      (fun c c' s t => c = c' ∧ progress.runtime.SameRound c.runtime ∧ Rel s t) Err := by
  induction hits generalizing progress with
  | nil => exact Simulates.pure fun s t h => ⟨rfl, ⟨rfl, rfl⟩, h⟩
  | cons hit rest ih =>
      rw [List.foldlM_cons, List.foldlM_cons]
      have hone : Agrees Rel Err (deliverHit accept evaluate progress hit)
          (deliverHit accept' evaluate' progress hit) := by
        refine Agrees.bind (haccept hit List.mem_cons_self _) fun decision => ?_
        exact Simulates.ite (fun _ => hevaluate _ _) fun _ => Agrees.pure _
      refine Simulates.bind (hone.and_left fun _ _ _ => deliverHit_keeps hkeeps)
        fun c c' s t hc => ?_
      obtain ⟨hround, rfl, hst⟩ := hc
      exact (ih (fun hit' h => haccept hit' (List.mem_cons_of_mem _ h)) c).consequence (fun _ _ h => h)
        (fun _ _ _ _ h => ⟨h.1, hround.trans h.2.1, h.2.2⟩) (fun _ _ h => h) s t hst

end Hits

/-- The bound of the next round is not below the bound of this one. -/
theorem SearchParameters.nextRound_le {parameters : SearchParameters}
    (hwidth : Binary32.zero.lt parameters.metadata.qalsh.bucketWidth = true)
    {radius bound radius' bound' : R} (hfinite : RadiusArithmetic.isFinite radius = true)
    (hbound : windowBound parameters.metadata.qalsh.bucketWidth radius = .ok bound)
    (hnext : parameters.nextRound radius = .ok (radius', bound')) :
    RadiusArithmetic.isFinite radius' = true ∧
      windowBound parameters.metadata.qalsh.bucketWidth radius' = .ok bound' ∧
      RadiusArithmetic.le bound bound' = true := by
  simp only [SearchParameters.nextRound, except_bind_eq_ok] at hnext
  obtain ⟨_, hrequire, bound₁, hbound₁, hpair⟩ := hnext
  obtain ⟨hfinite', hlt⟩ := require_eq_ok.mp hrequire
  cases hpair
  have hle : RadiusArithmetic.le radius
      (RadiusArithmetic.grow radius parameters.metadata.qalsh.radiusGrowth) = true := by
    refine (RadiusArithmetic.le_total hfinite hfinite').resolve_right ?_
    rw [(RadiusArithmetic.lt_iff hfinite hfinite').mp hlt]
    decide
  exact ⟨hfinite', hbound₁, windowBound_mono hwidth hle hbound hbound₁⟩

/-! ## Related contexts -/

/-- Two contexts that answer alike.  `Rel b` relates the states at bound `b`, `Err`
after a throw, and `May` holds of the actions the strategies take. -/
structure SearchContext.Related (Rel : R → σ → τ → Prop) (Err : σ → τ → Prop)
    (May : StrategyAction → Prop) (ctx : SearchContext R σ) (ctx' : SearchContext R τ) : Prop where
  parameters : ctx'.toSearchParameters = ctx.toSearchParameters
  width : Binary32.zero.lt ctx.metadata.qalsh.bucketWidth = true
  raise : ∀ {b b' s t}, ValidBound b' → RadiusArithmetic.le b b' = true → Rel b s t → Rel b' s t
  unwind : ∀ {b s t}, Rel b s t → Err s t
  next : ∀ b state, Simulates (Rel b) (ctx.strategy.next state) (ctx'.strategy.next state)
    (fun a a' s t => a = a' ∧ May a ∧ Rel b s t) Err
  onEvaluation : ∀ b event state, Agrees (Rel b) Err (ctx.strategy.onEvaluation event state)
    (ctx'.strategy.onEvaluation event state)
  onScanBoundary : ∀ b event state, Agrees (Rel b) Err (ctx.strategy.onScanBoundary event state)
    (ctx'.strategy.onScanBoundary event state)
  onRadiusAdvanced : ∀ b state, Agrees (Rel b) Err (ctx.strategy.onRadiusAdvanced state)
    (ctx'.strategy.onRadiusAdvanced state)
  accessor : ∀ b pointId, Agrees (Rel b) Err (ctx.accessor pointId) (ctx'.accessor pointId)
  seen : ∀ b pointId, pointId < ctx.metadata.numPoints →
    Agrees (Rel b) Err (ctx.services.seen pointId) (ctx'.services.seen pointId)
  mark : ∀ b pointId, pointId < ctx.metadata.numPoints →
    Agrees (Rel b) Err (ctx.services.mark pointId) (ctx'.services.mark pointId)
  scan : ∀ b evaluate evaluate', Keeps evaluate → Keeps evaluate' →
    (∀ progress pointId,
      Agrees (Rel b) Err (evaluate progress pointId) (evaluate' progress pointId)) →
    ∀ tableId < ctx.tableCount, ∀ limit > 0, ∀ scope, May (.scan tableId scope) →
    ∀ progress, Simulates (Rel b) (ctx.services.scan evaluate tableId b limit scope progress)
      (ctx'.services.scan evaluate' tableId b limit scope progress)
      (fun out out' s t => out = out' ∧ progress.runtime.SameRound out.2.runtime ∧ Rel b s t) Err

namespace SearchContext.Related

variable [Platform] {Rel : R → σ → τ → Prop} {Err : σ → τ → Prop} {May : StrategyAction → Prop}
  {ctx : SearchContext R σ} {ctx' : SearchContext R τ}

theorem evaluateCandidate (h : Related Rel Err May ctx ctx') (b : R) (runtime : SearchRuntime R)
    (pointId : Nat) :
    Agrees (Rel b) Err (ctx.evaluateCandidate runtime pointId)
      (ctx'.evaluateCandidate runtime pointId) := by
  obtain ⟨parameters', strategy', accessor', services'⟩ := ctx'
  obtain rfl : parameters' = _ := h.parameters
  refine Simulates.require (fun _ _ => h.unwind) fun hpoint =>
    Agrees.bind (h.seen b pointId hpoint) fun seen => Simulates.ite (fun _ => ?_) fun _ => ?_
  · exact Agrees.bind (h.onEvaluation b _ _) fun _ => Agrees.pure _
  · refine Agrees.bind (h.mark b pointId hpoint) fun _ => Agrees.bind (h.accessor b pointId)
      fun point => Simulates.lift _ (fun _ _ => h.unwind) fun _ _ =>
        Simulates.lift _ (fun _ _ => h.unwind) fun distance _ => ?_
    exact Agrees.bind (h.onEvaluation b _ _) fun _ => Agrees.pure _

theorem evaluateHit (h : Related Rel Err May ctx ctx') (b : R) (progress : Progress R)
    (pointId : Nat) :
    Agrees (Rel b) Err (ctx.evaluateHit progress pointId) (ctx'.evaluateHit progress pointId) := by
  have hk : ctx'.k = ctx.k := congrArg SearchParameters.k h.parameters
  unfold SearchContext.evaluateHit
  rw [hk]
  exact Agrees.bind (h.evaluateCandidate b _ _) fun _ => Agrees.pure _

theorem scanTable (h : Related Rel Err May ctx ctx') (hquantum : 0 < ctx.scanQuantum)
    (runtime : SearchRuntime R) {tableId : Nat} {scope : ScanScope}
    (hmay : May (.scan tableId scope)) :
    Simulates (Rel runtime.bound) (ctx.scanTable runtime tableId scope)
      (ctx'.scanTable runtime tableId scope)
      (fun r r' s t => r = r' ∧ runtime.SameRound r ∧ Rel runtime.bound s t) Err := by
  have hevaluate := h.evaluateHit runtime.bound
  have hkeeps : Keeps ctx.evaluateHit := SearchContext.evaluateHit_keeps
  have hkeeps' : Keeps ctx'.evaluateHit := SearchContext.evaluateHit_keeps
  have hparameters := h.parameters
  have htables : ctx'.tableCount = ctx.tableCount := congrArg SearchParameters.tableCount hparameters
  have hscan : ctx'.scanQuantum = ctx.scanQuantum := congrArg SearchParameters.scanQuantum hparameters
  have hk : ctx'.k = ctx.k := congrArg SearchParameters.k hparameters
  unfold SearchContext.scanTable
  rw [htables, hscan, hk]
  refine Simulates.require (fun _ _ => h.unwind) fun htable => ?_
  have hlimit : 0 < if scope = .range then uint64Max else ctx.scanQuantum := by
    split
    · decide
    · exact hquantum
  simp only [SearchRuntime.makeSnapshot_bound]
  refine Simulates.bind (h.scan runtime.bound _ _ hkeeps hkeeps' hevaluate tableId htable _ hlimit
    scope hmay _) fun out out' s t hout => ?_
  obtain ⟨rfl, hround, hrel⟩ := hout
  refine Agrees.bind (h.onScanBoundary runtime.bound _ _) (fun _ => Simulates.pure fun s t hst => ?_)
    s t hrel
  refine ⟨rfl, ?_, hst⟩
  refine ((runtime.makeSnapshot_round _).trans hround).trans ?_
  refine SearchRuntime.SameRound.trans ?_ (SearchRuntime.makeSnapshot_round _ _)
  refine SearchRuntime.SameRound.trans ?_ (SearchRuntime.closeScan_round _ _ _ _)
  exact ⟨rfl, rfl⟩

omit [Platform] in
theorem advanceRadius (h : Related Rel Err May ctx ctx') {runtime : SearchRuntime R}
    (hfinite : RadiusArithmetic.isFinite runtime.radius = true)
    (hbound : windowBound ctx.metadata.qalsh.bucketWidth runtime.radius = .ok runtime.bound) :
    Simulates (Rel runtime.bound) (ctx.advanceRadius runtime) (ctx'.advanceRadius runtime)
      (fun r r' s t => r = r' ∧ RadiusArithmetic.isFinite r.radius = true ∧
        windowBound ctx.metadata.qalsh.bucketWidth r.radius = .ok r.bound ∧ Rel r.bound s t)
      Err := by
  have hwidth := h.width
  obtain ⟨parameters', strategy', accessor', services'⟩ := ctx'
  obtain rfl : parameters' = _ := h.parameters
  refine Simulates.lift _ (fun _ _ => h.unwind) fun round hround => ?_
  obtain ⟨radius, bound⟩ := round
  obtain ⟨hfinite', hbound', hle⟩ := SearchParameters.nextRound_le hwidth hfinite hbound hround
  intro s t hst
  refine Agrees.bind (h.onRadiusAdvanced bound _) (fun _ => Simulates.pure fun s t hst => ?_) s t
    (h.raise (windowBound_valid hbound') hle hst)
  refine ⟨rfl, ?_⟩
  rw [SearchRuntime.makeSnapshot_radius, SearchRuntime.makeSnapshot_bound]
  exact ⟨hfinite', hbound', hst⟩

/-- Related contexts run their loops alike. -/
theorem searchLoop (h : Related Rel Err May ctx ctx') (hquantum : 0 < ctx.scanQuantum) :
    ∀ (steps : Nat) (runtime : SearchRuntime R),
      RadiusArithmetic.isFinite runtime.radius = true →
      windowBound ctx.metadata.qalsh.bucketWidth runtime.radius = .ok runtime.bound →
      Simulates (Rel runtime.bound) (ctx.searchLoop steps runtime) (ctx'.searchLoop steps runtime)
        (fun out out' s t => out = out' ∧ Rel out.1.bound s t) Err := by
  have hk : ctx'.k = ctx.k := congrArg SearchParameters.k h.parameters
  intro steps
  induction steps with
  | zero => exact fun runtime _ _ => Simulates.pure fun s t hst => ⟨rfl, hst⟩
  | succ steps ih =>
      intro runtime hfinite hbound
      simp only [SearchContext.searchLoop, hk]
      have hround := runtime.makeSnapshot_round ctx.k
      rw [← hround.bound]
      rw [← hround.radius] at hfinite
      rw [← hround.radius, ← hround.bound] at hbound
      generalize runtime.makeSnapshot ctx.k = fresh at *
      refine Simulates.bind (h.next fresh.bound _) fun action action' s t hnext => ?_
      obtain ⟨rfl, hmay, hrel⟩ := hnext
      cases action with
      | scan tableId scope =>
          refine Simulates.bind (h.scanTable hquantum fresh hmay) (fun r r' s t hr => ?_) s t hrel
          obtain ⟨rfl, hsame, hst⟩ := hr
          refine ih r (by rw [hsame.radius]; exact hfinite)
            (by rw [hsame.radius, hsame.bound]; exact hbound) s t ?_
          rw [hsame.bound]
          exact hst
      | evaluate pointId =>
          refine Simulates.bind ((h.evaluateCandidate fresh.bound fresh pointId).and_left
            fun _ _ _ hx => (SearchContext.evaluateCandidate_keeps hx).1) (fun r r' s t hr => ?_)
            s t hrel
          obtain ⟨hsame, rfl, hst⟩ := hr
          refine ih r (by rw [hsame.radius]; exact hfinite)
            (by rw [hsame.radius, hsame.bound]; exact hbound) s t ?_
          rw [hsame.bound]
          exact hst
      | advanceRadius =>
          refine Simulates.bind (h.advanceRadius hfinite hbound) (fun r r' s t hr => ?_) s t hrel
          obtain ⟨rfl, hfinite', hbound', hst⟩ := hr
          exact ih r hfinite' hbound' s t hst
      | finish => exact ⟨rfl, hrel⟩
      | invalid code => exact ⟨rfl, hrel⟩

end SearchContext.Related

end Qalsh
