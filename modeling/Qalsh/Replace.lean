/-
  Replace.lean --- the default rules written as custom ones.

  In standard mode the default strategy counts the hits of a point down and keeps a
  budget.  With custom rules it counts them up, marks accepted points and asks the
  rules.  Rules that say what the standard ones do leave every search as it is.
-/
import Qalsh.Answer

set_option autoImplicit false

namespace Qalsh

open Foundation

variable {R σ ω κ α : Type}

/-! ## Searches with callbacks that correspond -/

section Related

variable [RadiusArithmetic R] {τ : Type} {Rel Err : σ → τ → Prop} {callbacks : Callbacks R σ}
  {callbacks' : Callbacks R τ} {points : Nat}

omit [RadiusArithmetic R] in
/-- Callbacks that correspond write the same transcript, for observers that see the same. -/
theorem Callbacks.Related.recorded (h : callbacks.Related points Rel Err callbacks')
    {observe : σ → κ} {observe' : τ → κ} (hobserve : ∀ s t, Rel s t → observe s = observe' t) :
    Callbacks.Related points (fun (u : Transcript R κ × σ) (v : Transcript R κ × τ) =>
        u.1 = v.1 ∧ Rel u.2 v.2) (fun u v => u.1 = v.1 ∧ Err u.2 v.2)
      (callbacks.recorded observe) (callbacks'.recorded observe') where
  unwind _ _ huv := ⟨huv.1, h.unwind _ _ huv.2⟩
  next state := (h.next state).recorded fun s t hst => lineOf_congr (hobserve s t hst)
  onEvaluation event state :=
    (h.onEvaluation event state).recorded fun s t hst => lineOf_congr (hobserve s t hst)
  onScanBoundary event state :=
    (h.onScanBoundary event state).recorded fun s t hst => lineOf_congr (hobserve s t hst)
  onRadiusAdvanced state := (h.onRadiusAdvanced state).recorded fun s t hst => lineOf_congr (hobserve s t hst)
  accessor pointId := (h.accessor pointId).recorded fun s t hst => lineOf_congr (hobserve s t hst)
  accept hit hlt state := (h.accept hit hlt state).recorded fun s t hst => lineOf_congr (hobserve s t hst)

end Related

namespace DefaultOptions

/-! ## The rules -/

section Rules

variable [RadiusArithmetic R]

/-- The rule `collision_count >= threshold`. -/
def reachesThreshold (threshold : Nat) : CandidateRule ω := fun observation =>
  pure (decide (observation.collisionCount ≥ threshold))

/-- The rule `evaluated_candidates >= budget`, or at least `k` neighbors with the last distance
at most `approximation_ratio * radius`. -/
def spentOrNear (budget : Nat) (approximationRatio : Binary32) : TerminationRule R ω := fun state =>
  pure (decide (state.evaluatedCandidates ≥ budget) ||
    (decide (state.neighbors.length ≥ state.k) &&
      (match state.neighbors.getLast? with
        | some last => RadiusArithmetic.withinRatio last.distance approximationRatio state.radius
        | none => false)))

variable (options : DefaultOptions R ω) (metadata : IndexMetadata) (k : Nat)

/-- The threshold of a search over an index. -/
def thresholdOver : Nat :=
  if options.collisionThreshold = 0 then metadata.qalsh.collisionThreshold else options.collisionThreshold

/-- The budget of a search for `k` neighbors over an index, by the standard rules. -/
def budgetOver : Nat := min metadata.numPoints (metadata.qalsh.candidateBudget.val + k - 1)

/-- A custom rule in place of each standard one it is asked for. -/
def replaced (candidate termination : Bool) : DefaultOptions R ω :=
  { options with
    candidateRule := if candidate then some (reachesThreshold (options.thresholdOver metadata)) else none
    terminationRule := if termination then
      some (spentOrNear (budgetOver metadata k) metadata.qalsh.approximationRatio) else none }

end Rules

/-! ## The count-downs and the counts -/

/-- The hits a point still waits for, and the count of a search with the custom rule or
without it. -/
def Complements (threshold remaining : Nat) : Bool → Nat → Prop
  | false, other => other = remaining
  | true, observed =>
      remaining = 0 ∧ observed = acceptedMark ∨ 0 < remaining ∧ remaining + observed = threshold

section Hits

variable {options : DefaultOptions R ω} {hit : ProjectionHit} {state : QuerySnapshot R}
  {s : WithDefault R ω}

/-- A hit in standard mode. -/
theorem acceptRanged_run (hrule : options.candidateRule = none)
    (hlt : hit.pointId < s.1.collisionState.length) :
    options.acceptRanged hit state s =
      if s.1.finishRequested = true ∨ s.1.collisionState.getD hit.pointId 0 = 0 then .ok .ignore s
      else .ok (if s.1.collisionState.getD hit.pointId 0 = 1 then { candidate := hit.pointId } else .ignore)
        ({ s.1 with
          collisionState :=
            s.1.collisionState.set hit.pointId (s.1.collisionState.getD hit.pointId 0 - 1) }, s.2) := by
  unfold acceptRanged
  rw [hrule]
  dsimp only
  rw [bind_apply, get_apply]
  dsimp only
  by_cases hfinish : s.1.finishRequested = true
  · rw [if_pos hfinish, if_pos (Or.inl hfinish)]
    rfl
  · rw [if_neg hfinish]
    simp only [acceptBuiltinId, countDown, modifyDefault, bind_apply, get_apply, ge_iff_le,
      Nat.not_le.mpr hlt, if_false]
    by_cases hzero : s.1.collisionState.getD hit.pointId 0 = 0
    · rw [if_pos hzero, if_pos (Or.inr hzero)]
      rfl
    · rw [if_neg hzero, if_neg (not_or.mpr ⟨hfinish, hzero⟩), bind_apply, modify_apply]
      dsimp only
      by_cases hlast : s.1.collisionState.getD hit.pointId 0 = 1
      · rw [if_neg (by omega), if_pos hlast]
        rfl
      · rw [if_pos (by omega), if_neg hlast]
        rfl

/-- A hit with the custom rule, on a point that is accepted or below the greatest count. -/
theorem acceptCustom_run {threshold : Nat} (hlt : hit.pointId < s.1.collisionState.length)
    (hcount : s.1.collisionState.getD hit.pointId 0 = acceptedMark ∨
      s.1.collisionState.getD hit.pointId 0 + 1 < acceptedMark) :
    acceptCustom (reachesThreshold threshold) hit s =
      if s.1.finishRequested = true ∨ s.1.collisionState.getD hit.pointId 0 = acceptedMark then
        .ok .ignore s
      else if threshold ≤ s.1.collisionState.getD hit.pointId 0 + 1 then
        .ok { candidate := hit.pointId }
          ({ s.1 with collisionState := s.1.collisionState.set hit.pointId acceptedMark }, s.2)
      else .ok .ignore
        ({ s.1 with
          collisionState :=
            s.1.collisionState.set hit.pointId (s.1.collisionState.getD hit.pointId 0 + 1) }, s.2) := by
  unfold acceptCustom
  rw [bind_apply, get_apply]
  dsimp only
  by_cases hfinish : s.1.finishRequested = true
  · rw [if_pos hfinish, if_pos (Or.inl hfinish)]
    rfl
  · rw [if_neg hfinish]
    simp only [ge_iff_le, Nat.not_le.mpr hlt, if_false]
    by_cases hmark : s.1.collisionState.getD hit.pointId 0 = acceptedMark
    · rw [if_pos hmark, if_pos (Or.inr hmark)]
      rfl
    · have hbelow := hcount.resolve_left hmark
      rw [if_neg hmark, if_neg (not_or.mpr ⟨hfinish, hmark⟩), if_neg (by omega)]
      simp only [modifyDefault, bind_apply, modify_apply, outside, reachesThreshold, pure_apply]
      by_cases hreached : threshold ≤ s.1.collisionState.getD hit.pointId 0 + 1
      · rw [if_pos hreached, decide_eq_true hreached]
        simp only [Bool.not_true, Bool.false_eq_true, if_false, bind_apply, modify_apply, pure_apply,
          List.set_set]
      · rw [if_neg hreached, decide_eq_false hreached]
        rfl

end Hits

/-! ## States in step -/

section InStep

variable [RadiusArithmetic R] (options : DefaultOptions R ω) (metadata : IndexMetadata) (k : Nat)
  (candidate termination : Bool)

/-- The members of a search with the standard rules and of one with custom ones. -/
structure InStep (members members' : DefaultState R) : Prop where
  query : members'.query = members.query
  ratio : members.query.approximationRatio = metadata.qalsh.approximationRatio
  budget : members.activeCandidateBudget = some (budgetOver metadata k)
  stored : termination = false → members'.activeCandidateBudget = members.activeCandidateBudget
  length : members.collisionState.length = metadata.numPoints
  length' : members'.collisionState.length = metadata.numPoints
  counts : ∀ pointId < metadata.numPoints, Complements (options.thresholdOver metadata)
    (members.collisionState.getD pointId 0) candidate (members'.collisionState.getD pointId 0)
  schedule : members'.tableSchedule = members.tableSchedule
  advanced : members'.radiusAdvanced = members.radiusAdvanced
  finish : members'.finishRequested = members.finishRequested

/-- The states of the two searches. -/
def Abreast (s s' : WithDefault R ω) : Prop :=
  options.InStep metadata k candidate termination s.1 s'.1 ∧ SameRest s s'

variable {options metadata k candidate termination} {self self' : DefaultState R}
  {Q : α → α → WithDefault R ω → WithDefault R ω → Prop} {E : WithDefault R ω → WithDefault R ω → Prop}

omit [RadiusArithmetic R] in
/-- New counts of one point. -/
theorem InStep.count (h : options.InStep metadata k candidate termination self self')
    (pointId remaining other : Nat)
    (hcount : Complements (options.thresholdOver metadata) remaining candidate other) :
    options.InStep metadata k candidate termination
      { self with collisionState := self.collisionState.set pointId remaining }
      { self' with collisionState := self'.collisionState.set pointId other } :=
  { h with
    length := (List.length_set ..).trans h.length
    length' := (List.length_set ..).trans h.length'
    counts := fun pointId' hlt => by
      by_cases hpoint : pointId = pointId'
      · subst hpoint
        simpa [List.getD_eq_getElem?_getD, List.getElem?_set, h.length, h.length', hlt] using hcount
      · have hother := h.counts pointId' hlt
        simpa [List.getD_eq_getElem?_getD, List.getElem?_set, hpoint] using hother }

omit [RadiusArithmetic R] in
/-- Reading both states. -/
theorem get_abreast {f g : WithDefault R ω → EStateM Error (WithDefault R ω) α}
    (h : ∀ self self' rest, options.InStep metadata k candidate termination self self' →
      Simulates (options.Abreast metadata k candidate termination) (f (self, rest)) (g (self', rest))
        Q E) :
    Simulates (options.Abreast metadata k candidate termination) (get >>= f) (get >>= g) Q E := by
  refine Simulates.get_bind fun s t hst => ?_
  obtain ⟨hmembers, hrest⟩ := hst
  have hstep := h s.1 t.1 s.2 hmembers
  rw [show (t.1, s.2) = t from Prod.ext rfl hrest] at hstep
  refine hstep.consequence (fun s' t' heq => ?_) (fun _ _ _ _ hq => hq) fun _ _ he => he
  obtain ⟨rfl, rfl⟩ := heq
  exact ⟨hmembers, hrest⟩

omit [RadiusArithmetic R] in
theorem modify_abreast {f g : DefaultState R → DefaultState R}
    (h : ∀ self self', options.InStep metadata k candidate termination self self' →
      options.InStep metadata k candidate termination (f self) (g self')) :
    Agrees (options.Abreast metadata k candidate termination) SameRest
      (modifyDefault f : EStateM Error (WithDefault R ω) Unit) (modifyDefault g) :=
  Simulates.modify fun s t hst => ⟨rfl, h s.1 t.1 hst.1, hst.2⟩

/-! ## The callbacks of the two searches -/

section Callbacks

variable (hcandidate : options.candidateRule = none) (htermination : options.terminationRule = none)

include htermination in
/-- The termination rule says what the standard test says. -/
theorem shouldTerminate_replaced (state : QuerySnapshot R) :
    Agrees (options.Abreast metadata k candidate termination) SameRest (options.shouldTerminate state)
      ((options.replaced metadata k candidate termination).shouldTerminate state) := by
  rintro ⟨self, rest⟩ ⟨self', _⟩ ⟨h, rfl⟩
  unfold shouldTerminate
  rw [htermination]
  cases termination with
  | false =>
      have hsame : standardTermination self' state = standardTermination self state := by
        unfold standardTermination
        rw [h.stored rfl, h.query]
      exact ⟨hsame.symm, h, rfl⟩
  | true =>
      have hbudget : self.activeCandidateBudget = some (budgetOver metadata k) := h.budget
      have hratio : self.query.approximationRatio = metadata.qalsh.approximationRatio := h.ratio
      have hsame : standardTermination self state = standardTermination
          { self with
            activeCandidateBudget := some (budgetOver metadata k)
            query := { self.query with approximationRatio := metadata.qalsh.approximationRatio } }
          state := by
        rw [← hbudget, ← hratio]
      exact ⟨hsame, h, rfl⟩

include htermination in
theorem boundaryCheck_replaced (state : QuerySnapshot R) :
    Agrees (options.Abreast metadata k candidate termination) SameRest (options.boundaryCheck state)
      ((options.replaced metadata k candidate termination).boundaryCheck state) :=
  Simulates.ite (fun _ => shouldTerminate_replaced htermination state) fun _ => Agrees.pure false

omit [RadiusArithmetic R] in
theorem requestFinish_replaced :
    Agrees (options.Abreast metadata k candidate termination) SameRest
      (requestFinish : EStateM Error (WithDefault R ω) StrategyAction) requestFinish :=
  Agrees.bind (modify_abreast fun _ _ h => { h with finish := rfl }) fun _ =>
    Agrees.pure StrategyAction.finish

include htermination in
theorem nextTableOrRound_replaced (state : QuerySnapshot R) :
    Agrees (options.Abreast metadata k candidate termination) SameRest (options.nextTableOrRound state)
      ((options.replaced metadata k candidate termination).nextTableOrRound state) := by
  refine get_abreast (R := R) fun self self' rest h => ?_
  dsimp only
  rw [h.schedule]
  generalize self.tableSchedule.nextTable = popped
  obtain ⟨table, schedule⟩ := popped
  refine Agrees.bind (modify_abreast fun _ _ h => { h with schedule := rfl }) fun _ => ?_
  cases table with
  | some table => exact Agrees.pure _
  | none =>
      refine Simulates.ite (fun _ => requestFinish_replaced) fun _ => ?_
      refine Simulates.ite (fun _ => Agrees.pure _) fun _ => ?_
      refine Agrees.bind (boundaryCheck_replaced htermination state) fun finish => ?_
      exact Simulates.ite (fun _ => requestFinish_replaced) fun _ => Agrees.pure _

include htermination in
theorem next_replaced (state : QuerySnapshot R) :
    Agrees (options.Abreast metadata k candidate termination) SameRest (options.next state)
      ((options.replaced metadata k candidate termination).next state) := by
  refine get_abreast (R := R) fun self self' rest h => ?_
  dsimp only
  rw [h.finish, h.advanced]
  refine Simulates.ite (fun _ => Agrees.pure _) fun _ => ?_
  refine Simulates.ite (fun _ => ?_) fun _ => nextTableOrRound_replaced htermination state
  refine Agrees.bind (modify_abreast fun _ _ h => { h with advanced := rfl }) fun _ => ?_
  refine Agrees.bind (boundaryCheck_replaced htermination state) fun finish => ?_
  exact Simulates.ite (fun _ => requestFinish_replaced) fun _ =>
    nextTableOrRound_replaced htermination state

include htermination in
theorem onEvaluation_replaced (event : EvaluationEvent) (state : QuerySnapshot R) :
    Agrees (options.Abreast metadata k candidate termination) SameRest (options.onEvaluation event state)
      ((options.replaced metadata k candidate termination).onEvaluation event state) := by
  refine Simulates.ite (fun _ => ?_) fun _ => Agrees.pure _
  refine Agrees.bind (shouldTerminate_replaced htermination state) fun finish => ?_
  exact Simulates.ite (fun _ => modify_abreast fun _ _ h => { h with finish := rfl }) fun _ => Agrees.pure _

include htermination in
theorem onScanBoundary_replaced (event : ScanBoundaryEvent R) (state : QuerySnapshot R) :
    Agrees (options.Abreast metadata k candidate termination) SameRest
      (options.onScanBoundary event state)
      ((options.replaced metadata k candidate termination).onScanBoundary event state) := by
  refine get_abreast (R := R) fun self self' rest h => ?_
  dsimp only
  rw [h.schedule]
  refine Agrees.bind (Agrees.liftResult _ fun _ _ hst => hst.2) fun schedule => ?_
  refine Agrees.bind (modify_abreast fun _ _ h => { h with schedule := rfl }) fun _ => ?_
  refine get_abreast (R := R) fun self self' rest h => ?_
  dsimp only
  rw [h.finish]
  refine Simulates.ite (fun _ => ?_) fun _ => Agrees.pure _
  refine Agrees.bind (shouldTerminate_replaced htermination state) fun finish => ?_
  exact Simulates.ite (fun _ => modify_abreast fun _ _ h => { h with finish := rfl }) fun _ => Agrees.pure _

omit [RadiusArithmetic R] in
theorem onRadiusAdvanced_replaced (state : QuerySnapshot R) :
    Agrees (options.Abreast metadata k candidate termination) SameRest
      (DefaultOptions.onRadiusAdvanced state : EStateM Error (WithDefault R ω) Unit)
      (DefaultOptions.onRadiusAdvanced state) := by
  unfold DefaultOptions.onRadiusAdvanced
  refine modify_abreast fun self self' h => ?_
  exact
    { h with
      advanced := rfl
      schedule := congrArg TableScanSchedule.onRadiusAdvanced h.schedule }

include hcandidate in
/-- The search that counts up accepts a hit when the one that counts down does. -/
theorem acceptRanged_replaced (hsmall : options.thresholdOver metadata < acceptedMark)
    {hit : ProjectionHit} (hlt : hit.pointId < metadata.numPoints) (state : QuerySnapshot R) :
    Agrees (options.Abreast metadata k candidate termination) SameRest (options.acceptRanged hit state)
      ((options.replaced metadata k candidate termination).acceptRanged hit state) := by
  rintro ⟨self, rest⟩ ⟨self', _⟩ ⟨h, rfl⟩
  change options.InStep metadata k candidate termination self self' at h
  have hcount := h.counts hit.pointId hlt
  have hlt' : hit.pointId < self'.collisionState.length := h.length'.symm ▸ hlt
  rw [acceptRanged_run hcandidate (h.length.symm ▸ hlt)]
  dsimp only
  cases candidate with
  | false =>
      have hsame : self'.collisionState.getD hit.pointId 0 = self.collisionState.getD hit.pointId 0 :=
        hcount
      have hidle : self'.finishRequested = true ∨ self.collisionState.getD hit.pointId 0 = 0 ↔
          self.finishRequested = true ∨ self.collisionState.getD hit.pointId 0 = 0 := by
        rw [h.finish]
      rw [acceptRanged_run rfl hlt']
      dsimp only
      rw [hsame]
      by_cases hdone : self.finishRequested = true ∨ self.collisionState.getD hit.pointId 0 = 0
      · rw [if_pos hdone, if_pos (hidle.mpr hdone)]
        exact ⟨rfl, h, rfl⟩
      · rw [if_neg hdone, if_neg fun hcon => hdone (hidle.mp hcon)]
        exact ⟨rfl, h.count hit.pointId (self.collisionState.getD hit.pointId 0 - 1) _ rfl, rfl⟩
  | true =>
      have haccept : (options.replaced metadata k true termination).acceptRanged hit state =
          acceptCustom (reachesThreshold (options.thresholdOver metadata)) hit := rfl
      rw [haccept]
      rcases hcount with ⟨hnone, hmark⟩ | ⟨hsome, hsum⟩
      · rw [acceptCustom_run hlt' (Or.inl hmark), if_pos (Or.inr hnone), if_pos (Or.inr hmark)]
        exact ⟨rfl, h, rfl⟩
      · have hbelow : self'.collisionState.getD hit.pointId 0 + 1 < acceptedMark := by omega
        rw [acceptCustom_run hlt' (Or.inr hbelow)]
        dsimp only
        by_cases hfinish : self.finishRequested = true
        · rw [if_pos (Or.inl hfinish), if_pos (Or.inl (h.finish.trans hfinish))]
          exact ⟨rfl, h, rfl⟩
        · have hgoing : ¬self'.finishRequested = true := fun hcon => hfinish (h.finish.symm.trans hcon)
          rw [if_neg (not_or.mpr ⟨hfinish, by omega⟩), if_neg (not_or.mpr ⟨hgoing, by omega⟩)]
          by_cases hlast : self.collisionState.getD hit.pointId 0 = 1
          · rw [if_pos hlast, if_pos (by omega)]
            exact ⟨rfl, h.count hit.pointId (self.collisionState.getD hit.pointId 0 - 1) acceptedMark
              (Or.inl ⟨by omega, rfl⟩), rfl⟩
          · rw [if_neg hlast, if_neg (by omega)]
            exact ⟨rfl, h.count hit.pointId (self.collisionState.getD hit.pointId 0 - 1)
              (self'.collisionState.getD hit.pointId 0 + 1) (Or.inr ⟨by omega, by omega⟩), rfl⟩

include hcandidate htermination in
/-- The callbacks of the two searches correspond. -/
theorem related_replaced (hsmall : options.thresholdOver metadata < acceptedMark)
    (accessor : Nat → EStateM Error ω PointView) :
    Callbacks.Related metadata.numPoints (options.Abreast metadata k candidate termination) SameRest
      (.ofDefault options accessor)
      (.ofDefault (options.replaced metadata k candidate termination) accessor) where
  unwind _ _ hst := hst.2
  next := next_replaced htermination
  onEvaluation := onEvaluation_replaced htermination
  onScanBoundary := onScanBoundary_replaced htermination
  onRadiusAdvanced := onRadiusAdvanced_replaced
  accessor pointId := by
    rintro ⟨self, rest⟩ ⟨self', _⟩ ⟨h, rfl⟩
    unfold Callbacks.ofDefault outside
    dsimp only
    cases accessor pointId rest with
    | ok point rest' => exact ⟨rfl, h, rfl⟩
    | error e rest' => exact ⟨rfl, rfl⟩
  accept _ hlt state := acceptRanged_replaced hcandidate hsmall hlt state

/-! ## `start` -/

omit [RadiusArithmetic R] in
theorem start_run (options : DefaultOptions R ω) (query : QueryStart R) (s : WithDefault R ω)
    (h : 0 < options.activeThreshold query ∧ options.activeThreshold query ≤ query.numHashTables) :
    options.start query s = .ok () (options.started query, s.2) := by
  unfold start
  rw [bind_apply, modifyDefault, modify_apply]
  dsimp only
  split
  · rw [bind_apply, require, if_pos h]
    rfl
  · rfl

include hcandidate htermination in
/-- The members the two searches start with. -/
theorem inStep_started (hbudget : options.candidateBudgetOverride = none)
    (hpoints : metadata.numPoints ≤ maxReasonablePoints) (hk : 0 < k)
    (hpos : 0 < options.thresholdOver metadata) (tableCount : Nat) (radius : R) :
    options.InStep metadata k candidate termination
      (options.started (queryStart metadata tableCount k radius))
      ((options.replaced metadata k candidate termination).started
        (queryStart metadata tableCount k radius)) := by
  have hactive : options.activeBudget (queryStart metadata tableCount k radius) =
      some (budgetOver metadata k) := by
    unfold activeBudget
    rw [htermination, hbudget]
    exact congrArg some (standardBudget_queryStart tableCount radius hpoints hk)
  refine
    { query := rfl
      ratio := rfl
      budget := hactive
      stored := fun hstored => ?_
      length := List.length_replicate
      length' := List.length_replicate
      counts := fun pointId hlt => ?_
      schedule := rfl
      advanced := rfl
      finish := rfl }
  · subst hstored
    unfold started activeBudget
    rw [htermination]
    rfl
  · have hpoint : pointId < (queryStart metadata tableCount k radius).numPoints := hlt
    unfold started
    rw [hcandidate]
    dsimp only
    rw [List.getD_replicate _ hpoint, List.getD_replicate _ hpoint]
    cases candidate with
    | false => rfl
    | true => exact Or.inr ⟨hpos, rfl⟩

include hcandidate htermination in
/-- The two searches start in step, whatever earlier searches have left in the members. -/
theorem start_replaced (hbudget : options.candidateBudgetOverride = none)
    (hpoints : metadata.numPoints ≤ maxReasonablePoints) (hk : 0 < k)
    (hpos : 0 < options.thresholdOver metadata) {tableCount : Nat}
    (hle : options.thresholdOver metadata ≤ tableCount) (radius : R) :
    Simulates SameRest (options.start (queryStart metadata tableCount k radius))
      ((options.replaced metadata k candidate termination).start (queryStart metadata tableCount k radius))
      (fun a b s t => a = b ∧ options.Abreast metadata k candidate termination s t) SameRest := by
  intro s t hst
  rw [start_run options (queryStart metadata tableCount k radius) s ⟨hpos, hle⟩,
    start_run (options.replaced metadata k candidate termination)
      (queryStart metadata tableCount k radius) t ⟨hpos, hle⟩]
  exact ⟨rfl, inStep_started hcandidate htermination hbudget hpoints hk hpos tableCount radius, hst⟩

end Callbacks

end InStep

end DefaultOptions

section Confined

variable [RadiusArithmetic R] [Platform] [HasThread R ω] {options : DefaultOptions R ω}

omit [RadiusArithmetic R] in
theorem DefaultOptions.alike_standard (hcandidate : options.candidateRule = none)
    (htermination : options.terminationRule = none) : options.Alike options where
  threshold := rfl
  budget := rfl
  afterEvaluation := rfl
  atRoundBoundary := rfl
  candidate := by
    rw [hcandidate]
    exact .none
  termination := by
    rw [htermination]
    exact .none

theorem DefaultOptions.alike_replaced {metadata : IndexMetadata} {k : Nat} {candidate termination : Bool} :
    (options.replaced metadata k candidate termination).Alike
      (options.replaced metadata k candidate termination) where
  threshold := rfl
  budget := rfl
  afterEvaluation := rfl
  atRoundBoundary := rfl
  candidate := by
    cases candidate with
    | false => exact .none
    | true => exact .some fun _ => Qalsh.Alike.pure _
  termination := by
    cases termination with
    | false => exact .none
    | true => exact .some fun _ => Qalsh.Alike.pure _

/-- The callbacks of a default strategy leave the searches of their thread alone when its rules
and the accessor do. -/
theorem DefaultOptions.Alike.confined (h : options.Alike options)
    {accessor : Nat → EStateM Error ω PointView} (haccessor : ∀ pointId, Confined (accessor pointId)) :
    (Callbacks.ofDefault options accessor).Confined where
  strategy := h.strategy
  accessor pointId := (haccessor pointId).outside
  accept hit state := (h.acceptHit hit state).2

end Confined

/-! ## Searches -/

/-- The outcomes give the same answer. -/
def SameAnswer {τ : Type} : EStateM.Result Error σ α → EStateM.Result Error τ α → Prop
  | .ok a _, .ok a' _ => a = a'
  | .error e _, .error e' _ => e = e'
  | _, _ => False

namespace Session

variable [RadiusArithmetic R] [Platform] {session session' : Session R} {options : SearchOptions}
  {query : PointView} {k : Nat}

/-- Searches whose recorded searches over the tables write the same transcript. -/
theorem searchBy_related [HasThread R σ] {τ : Type} [HasThread R τ]
    {content : Tables session.object.index.metadata.numPoints}
    {content' : Tables session'.object.index.metadata.numPoints}
    (b : Backing R session.object.index content) (b' : Backing R session'.object.index content')
    {callbacks : Callbacks R σ} {callbacks' : Callbacks R τ} (hconfined : callbacks.Confined)
    (hconfined' : callbacks'.Confined) {driver : RangeDriver R σ} {driver' : RangeDriver R τ}
    (hdelivers : driver.Delivers callbacks.accept) (hdelivers' : driver'.Delivers callbacks'.accept)
    {observe : σ → κ} {observe' : τ → κ} (hobserve : Discreet observe) (hobserve' : Discreet observe')
    {s : σ} {t : τ} (hs : threadOf s = session.thread) (ht : threadOf t = session'.thread)
    {P : Transcript R κ × σ → Transcript R κ × τ → Prop} (hstart : P ([], s) ([], t))
    (h : Simulates P
      (b.search options query k (callbacks.recorded observe).strategy
        (callbacks.recorded observe).accessor (callbacks.recorded observe).accept)
      (b'.search options query k (callbacks'.recorded observe').strategy
        (callbacks'.recorded observe').accessor (callbacks'.recorded observe').accept)
      (fun result result' u v => result = result' ∧ u.1 = v.1) fun u v => u.1 = v.1) :
    SameAnswer (session.searchBy driver callbacks options query k s)
        (session'.searchBy driver' callbacks' options query k t) ∧
      session'.transcript observe' callbacks' options query k t =
        session.transcript observe callbacks options query k s := by
  have hboth := h _ _ hstart
  generalize hright : b'.search options query k (callbacks'.recorded observe').strategy
    (callbacks'.recorded observe').accessor (callbacks'.recorded observe').accept ([], t) = right
    at hboth
  -- both sessions do what the second recorded search does
  have hleft : Concludes (fun result u => ∃ v, right = .ok result v ∧ v.1 = u.1)
      (fun e u => ∃ v, right = .error e v ∧ v.1 = u.1)
      (b.search options query k (callbacks.recorded observe).strategy
        (callbacks.recorded observe).accessor (callbacks.recorded observe).accept ([], s)) := by
    generalize b.search options query k (callbacks.recorded observe).strategy
      (callbacks.recorded observe).accessor (callbacks.recorded observe).accept ([], s) = left
      at hboth ⊢
    cases left with
    | ok result u =>
        cases right with
        | ok result' v => exact ⟨v, by rw [hboth.1], hboth.2.symm⟩
        | error e v => exact hboth.elim
    | error e u =>
        cases right with
        | ok result v => exact hboth.elim
        | error e' v => exact ⟨v, by rw [hboth.1], hboth.2.symm⟩
  have hitself : Concludes (fun result u => ∃ v, right = .ok result v ∧ v.1 = u.1)
      (fun e u => ∃ v, right = .error e v ∧ v.1 = u.1)
      (b'.search options query k (callbacks'.recorded observe').strategy
        (callbacks'.recorded observe').accessor (callbacks'.recorded observe').accept ([], t)) := by
    rw [hright]
    cases right with
    | ok result v => exact ⟨v, rfl, rfl⟩
    | error e v => exact ⟨v, rfl, rfl⟩
  obtain ⟨hok, herror⟩ := transcript_tells b hconfined hobserve hdelivers hs
    (Q := fun result lines => ∃ v, right = .ok result v ∧ v.1 = lines)
    (F := fun e lines => ∃ v, right = .error e v ∧ v.1 = lines) hleft
  obtain ⟨hok', herror'⟩ := transcript_tells b' hconfined' hobserve' hdelivers' ht
    (Q := fun result lines => ∃ v, right = .ok result v ∧ v.1 = lines)
    (F := fun e lines => ∃ v, right = .error e v ∧ v.1 = lines) hitself
  cases houtcome : session.searchBy driver callbacks options query k s with
  | ok result s' =>
      obtain ⟨v, hv, hlines⟩ := hok result s' houtcome
      cases houtcome' : session'.searchBy driver' callbacks' options query k t with
      | ok result' t' =>
          obtain ⟨v', hv', hlines'⟩ := hok' result' t' houtcome'
          cases hv.symm.trans hv'
          exact ⟨rfl, hlines'.symm.trans hlines⟩
      | error e t' =>
          obtain ⟨v', hv', -⟩ := herror' e t' houtcome'
          cases hv.symm.trans hv'
  | error e s' =>
      obtain ⟨v, hv, hlines⟩ := herror e s' houtcome
      cases houtcome' : session'.searchBy driver' callbacks' options query k t with
      | ok result' t' =>
          obtain ⟨v', hv', -⟩ := hok' result' t' houtcome'
          cases hv.symm.trans hv'
      | error e' t' =>
          obtain ⟨v', hv', hlines'⟩ := herror' e' t' houtcome'
          cases hv.symm.trans hv'
          exact ⟨rfl, hlines'.symm.trans hlines⟩

/-- Replacement rules that say what the standard ones do change nothing.  Whichever of the
two rules is replaced, the search calls its strategy and its accessor with the same
arguments, is answered alike, and returns the same result or throws the same exception. -/
theorem search_replaced [HasThread R ω] {dflt : DefaultOptions R ω}
    (hcandidate : dflt.candidateRule = none) (htermination : dflt.terminationRule = none)
    (hbudget : dflt.candidateBudgetOverride = none) {accessor : Nat → EStateM Error ω PointView}
    (haccessor : ∀ pointId, Confined (accessor pointId))
    (hpos : 0 < dflt.thresholdOver session.object.metadata)
    (hle : ∀ plan, planQuery session.object options query k = .ok plan →
      dflt.thresholdOver session.object.metadata ≤ plan.tableCount)
    (candidate termination : Bool) {s t : WithDefault R ω} (hs : threadOf s = session.thread)
    (hst : SameRest s t) :
    let custom := dflt.replaced session.object.metadata k candidate termination
    SameAnswer
        (session.searchBy (deliverRangeDefault dflt) (.ofDefault dflt accessor) options query k s)
        (session.searchBy (deliverRangeDefault custom) (.ofDefault custom accessor) options query k t) ∧
      session.transcript (fun _ => ()) (.ofDefault custom accessor) options query k t =
        session.transcript (fun _ => ()) (.ofDefault dflt accessor) options query k s := by
  intro custom
  obtain ⟨content, ⟨b⟩⟩ := session.backed
  have hthread : threadOf t.2 = threadOf s.2 := congrArg threadOf hst.symm
  have ht : threadOf t = session.thread := hthread.trans hs
  refine searchBy_related b b ((dflt.alike_standard hcandidate htermination).confined haccessor)
    (dflt.alike_replaced.confined haccessor)
    (DefaultOptions.deliverRangeDefault_delivers dflt)
    (DefaultOptions.deliverRangeDefault_delivers custom) discreet_unit discreet_unit hs ht
    (P := fun u v => u.1 = v.1 ∧ SameRest u.2 v.2) ⟨rfl, hst⟩ ?_
  cases hplan : planQuery session.object options query k with
  | error e =>
      rw [b.search_error hplan, b.search_error hplan]
      exact fun u v huv => ⟨rfl, huv.1⟩
  | ok plan =>
      obtain ⟨hk, -, -, htables, -⟩ := planQuery_spec hplan
      have hbound : session.object.metadata.numHashTables ≤ maxReasonableHashTables :=
        b.metadata_valid.tables.2
      have hsmall : dflt.thresholdOver session.object.metadata < DefaultOptions.acceptedMark := by
        refine ((hle plan hplan).trans (htables.trans hbound)).trans_lt ?_
        decide
      have hrelated : Callbacks.Related session.object.metadata.numPoints
          (dflt.Abreast session.object.metadata k candidate termination) SameRest
          (.ofDefault dflt accessor) (.ofDefault custom accessor) :=
        DefaultOptions.related_replaced hcandidate htermination hsmall accessor
      refine (b.search_related (hrelated.recorded fun _ _ _ => rfl) (fun _ _ huv => huv)
        fun plan' hplan' radius => ?_).consequence (fun _ _ huv => huv)
          (fun _ _ _ _ hq => ⟨hq.1, hq.2.1⟩) fun _ _ he => he.1
      refine (Simulates.recorded (fun _ _ _ => rfl) (DefaultOptions.start_replaced hcandidate
        htermination hbudget b.metadata_valid.points.2 hk hpos (hle plan' hplan') radius)).consequence
          (fun _ _ huv => huv) (fun _ _ _ _ hq => hq.2) fun _ _ he => he

end Session

namespace Session

/-- Both rules replaced in the default search for the point. -/
theorem search_replaced_unit :
    letI := exactPlatform true
    let dflt := (UserRules.plain Binary32).options
    let accessor := fun pointId => ((UserRules.plain Binary32).accessor pointId).run
    unitSession.transcript (fun _ => ())
        (.ofDefault (dflt.replaced unitSession.object.metadata 1 true true) accessor) SearchOptions.blank
        [one] 1 (DefaultState.blank Binary32, (), unitSession.thread) =
      unitSession.transcript (fun _ => ()) (.ofDefault dflt accessor) SearchOptions.blank [one] 1
        (DefaultState.blank Binary32, (), unitSession.thread) := by
  let := exactPlatform true
  have hthreshold : (UserRules.plain Binary32).options.thresholdOver unitSession.object.metadata = 1 := rfl
  have hle : ∀ plan, planQuery unitSession.object SearchOptions.blank [one] 1 = .ok plan →
      (UserRules.plain Binary32).options.thresholdOver unitSession.object.metadata ≤ plan.tableCount :=
    fun plan hplan => hthreshold.trans_le (planQuery_spec hplan).2.2.1
  exact (search_replaced rfl rfl rfl
    (fun pointId => ((UserRules.plain Binary32).accessor pointId).run_confined)
    (hthreshold.symm ▸ Nat.one_pos) hle true true rfl rfl).2

end Session

end Qalsh
