/-
  DefaultCalls.lean --- what the callbacks of the default strategy do.

  One lemma for each callback, about the members it reads and changes when it returns.
  The rules may do anything to the rest of the state, so the lemmas speak of the
  members only.
-/
import Qalsh.Drivers
import Qalsh.Foundation.Outcome
import Qalsh.Session

set_option autoImplicit false

namespace Qalsh

open Foundation

variable {R ω : Type} [RadiusArithmetic R]

omit [RadiusArithmetic R] in
theorem modifyDefault_eq_ok {f : DefaultState R → DefaultState R} {s s' : WithDefault R ω} {u : Unit} :
    modifyDefault f s = .ok u s' ↔ s' = (f s.1, s.2) := by
  unfold modifyDefault
  rw [modify_apply, EStateM.Result.ok.injEq]
  exact ⟨fun h => h.2.symm, fun h => ⟨rfl, h.symm⟩⟩

namespace DefaultOptions

variable {options : DefaultOptions R ω} {state : QuerySnapshot R} {s s' : WithDefault R ω}

/-! ## The termination rule -/

variable (options state) in
/-- The termination rule has given this answer. -/
def Says (self : DefaultState R) (stop : Bool) : Prop :=
  ∃ rest rest', options.shouldTerminate state (self, rest) = .ok stop (self, rest')

theorem shouldTerminate_spec {stop : Bool} (h : options.shouldTerminate state s = .ok stop s') :
    s'.1 = s.1 ∧ options.Says state s.1 stop := by
  have hmembers : s'.1 = s.1 := by
    cases hrule : options.terminationRule with
    | some rule =>
        simp only [shouldTerminate, hrule] at h
        exact (outside_eq_ok.mp h).2
    | none =>
        simp only [shouldTerminate, hrule] at h
        obtain ⟨self, t, hget, hpure⟩ := bind_eq_ok.mp h
        cases hget
        exact congrArg Prod.fst (pure_eq_ok.mp hpure).2.symm
  refine ⟨hmembers, s.2, s'.2, h.trans ?_⟩
  rw [← hmembers]

theorem Says.standard {self : DefaultState R} {stop : Bool} (h : options.Says state self stop)
    (hrule : options.terminationRule = none) : standardTermination self state = stop := by
  obtain ⟨rest, rest', h⟩ := h
  simp only [shouldTerminate, hrule] at h
  obtain ⟨self', t, hget, hpure⟩ := bind_eq_ok.mp h
  cases hget
  exact (pure_eq_ok.mp hpure).1

theorem boundaryCheck_spec {stop : Bool} (h : options.boundaryCheck state s = .ok stop s') :
    s'.1 = s.1 ∧ (options.checkAtRoundBoundary = true → options.Says state s.1 stop) ∧
      (stop = true → options.checkAtRoundBoundary = true) := by
  unfold boundaryCheck at h
  cases hcheck : options.checkAtRoundBoundary with
  | true =>
      rw [if_pos hcheck] at h
      obtain ⟨hmembers, hruling⟩ := shouldTerminate_spec h
      exact ⟨hmembers, fun _ => hruling, fun _ => rfl⟩
  | false =>
      rw [if_neg (by rw [hcheck]; exact Bool.false_ne_true)] at h
      obtain ⟨rfl, rfl⟩ := pure_eq_ok.mp h
      exact ⟨rfl, fun hcon => (nomatch hcon), fun hcon => (nomatch hcon)⟩

/-! ## `start` -/

omit [RadiusArithmetic R] in
theorem start_spec {query : QueryStart R} (h : options.start query s = .ok () s') :
    s'.1 = options.started query ∧ (options.candidateRule = none →
      0 < options.activeThreshold query ∧ options.activeThreshold query ≤ query.numHashTables) := by
  unfold start at h
  obtain ⟨_, t, -, h⟩ := bind_eq_ok.mp h
  cases hrule : options.candidateRule with
  | some rule =>
      rw [hrule, if_neg (show ¬ (some rule).isNone = true from Bool.false_ne_true)] at h
      obtain rfl := modifyDefault_eq_ok.mp h
      exact ⟨rfl, fun hcon => nomatch hcon⟩
  | none =>
      rw [hrule, if_pos (show (none : Option (CandidateRule ω)).isNone = true from rfl)] at h
      obtain ⟨_, t', hcheck, h⟩ := bind_eq_ok.mp h
      obtain rfl := modifyDefault_eq_ok.mp h
      exact ⟨rfl, fun _ => require_eq_ok.mp (liftResult_eq_ok.mp hcheck).1⟩

/-! ## `next` -/

/-- What `next` answers, and what it makes of the members. -/
inductive NextStep (options : DefaultOptions R ω) (state : QuerySnapshot R) (self : DefaultState R) :
    StrategyAction → DefaultState R → Prop
  | finished (finish : self.finishRequested = true) : NextStep options state self .finish self
  | stopped (going : self.finishRequested = false) (check : options.checkAtRoundBoundary = true)
      (ruled : options.Says state { self with radiusAdvanced := false } true) :
      NextStep options state self .finish
        { self with
          radiusAdvanced := false
          finishRequested := true }
  | exhausted (going : self.finishRequested = false) (empty : self.tableSchedule.pendingTables = [])
      (all : self.tableSchedule.allTablesExhausted = true ∨ state.allTablesExhausted = true) :
      NextStep options state self .finish
        { self with
          radiusAdvanced := false
          finishRequested := true }
  | scans {table : Nat} {rest : List Nat} (going : self.finishRequested = false)
      (pending : self.tableSchedule.pendingTables = table :: rest) :
      NextStep options state self (.scan table .quantum)
        { self with
          radiusAdvanced := false
          tableSchedule := { self.tableSchedule with pendingTables := rest } }
  | advances (going : self.finishRequested = false) (empty : self.tableSchedule.pendingTables = [])
      (some : self.tableSchedule.allTablesExhausted = false ∧ state.allTablesExhausted = false)
      (ruled : state.currentRoundComplete = true → options.checkAtRoundBoundary = true →
        options.Says state { self with radiusAdvanced := false } false) :
      NextStep options state self .advanceRadius { self with radiusAdvanced := false }

omit [RadiusArithmetic R] in
theorem requestFinish_spec {action : StrategyAction} (h : requestFinish s = .ok action s') :
    action = .finish ∧ s'.1 = { s.1 with finishRequested := true } := by
  unfold requestFinish at h
  obtain ⟨_, t, hmodify, hpure⟩ := bind_eq_ok.mp h
  obtain rfl := modifyDefault_eq_ok.mp hmodify
  obtain ⟨rfl, rfl⟩ := pure_eq_ok.mp hpure
  exact ⟨rfl, rfl⟩

/-- The part of `next` after the check that follows a radius change. -/
theorem nextTableOrRound_spec {action : StrategyAction} {self : DefaultState R}
    (hself : s.1 = { self with radiusAdvanced := false }) (hgoing : self.finishRequested = false)
    (h : options.nextTableOrRound state s = .ok action s') :
    options.NextStep state self action s'.1 := by
  unfold nextTableOrRound at h
  obtain ⟨s₀, t, hget, h⟩ := bind_eq_ok.mp h
  cases hget
  obtain ⟨members, rest⟩ := s
  dsimp only at hself
  subst hself
  cases hpending : self.tableSchedule.pendingTables with
  | cons table tables =>
      simp only [TableScanSchedule.nextTable, hpending] at h
      obtain ⟨_, t, hmodify, h⟩ := bind_eq_ok.mp h
      obtain rfl := modifyDefault_eq_ok.mp hmodify
      obtain ⟨rfl, rfl⟩ := pure_eq_ok.mp h
      exact .scans hgoing hpending
  | nil =>
      simp only [TableScanSchedule.nextTable, hpending] at h
      obtain ⟨_, t, hmodify, h⟩ := bind_eq_ok.mp h
      obtain rfl := modifyDefault_eq_ok.mp hmodify
      cases hall : self.tableSchedule.allTablesExhausted || state.allTablesExhausted with
      | true =>
          rw [if_pos hall] at h
          obtain ⟨rfl, hmembers⟩ := requestFinish_spec h
          rw [hmembers]
          exact .exhausted hgoing hpending (Bool.or_eq_true_iff.mp hall)
      | false =>
          rw [if_neg (by rw [hall]; exact Bool.false_ne_true)] at h
          have hsome := Bool.or_eq_false_iff.mp hall
          cases hround : state.currentRoundComplete with
          | false =>
              rw [if_pos hround] at h
              obtain ⟨rfl, rfl⟩ := pure_eq_ok.mp h
              exact .advances hgoing hpending hsome fun hcon => absurd (hround.symm.trans hcon) (by decide)
          | true =>
              rw [if_neg (by rw [hround]; decide)] at h
              obtain ⟨stop, t, hcheck, h⟩ := bind_eq_ok.mp h
              obtain ⟨hsame, hruling, hon⟩ := boundaryCheck_spec hcheck
              cases stop with
              | true =>
                  obtain ⟨rfl, hmembers⟩ := requestFinish_spec h
                  rw [hmembers, hsame]
                  exact .stopped hgoing (hon rfl) (hruling (hon rfl))
              | false =>
                  obtain ⟨rfl, rfl⟩ := pure_eq_ok.mp h
                  rw [hsame]
                  exact .advances hgoing hpending hsome fun _ => hruling

theorem next_spec {action : StrategyAction} (h : options.next state s = .ok action s') :
    options.NextStep state s.1 action s'.1 := by
  unfold next at h
  obtain ⟨s₀, t, hget, h⟩ := bind_eq_ok.mp h
  cases hget
  cases hfinish : s.1.finishRequested with
  | true =>
      rw [if_pos hfinish] at h
      obtain ⟨rfl, rfl⟩ := pure_eq_ok.mp h
      exact .finished hfinish
  | false =>
      rw [if_neg (by rw [hfinish]; exact Bool.false_ne_true)] at h
      cases hadvanced : s.1.radiusAdvanced with
      | true =>
          rw [if_pos hadvanced] at h
          obtain ⟨_, t, hmodify, h⟩ := bind_eq_ok.mp h
          obtain rfl := modifyDefault_eq_ok.mp hmodify
          obtain ⟨stop, t, hcheck, h⟩ := bind_eq_ok.mp h
          obtain ⟨hsame, hruling, hon⟩ := boundaryCheck_spec hcheck
          cases stop with
          | true =>
              obtain ⟨rfl, hmembers⟩ := requestFinish_spec h
              rw [hmembers, hsame]
              exact .stopped hfinish (hon rfl) (hruling (hon rfl))
          | false => exact nextTableOrRound_spec hsame hfinish h
      | false =>
          rw [if_neg (by rw [hadvanced]; exact Bool.false_ne_true)] at h
          refine nextTableOrRound_spec ?_ hfinish h
          rw [← hadvanced]

/-! ## Hits -/

/-- What a hit on a point does to the members, by the default candidate rule. -/
inductive Counts (pointId : Nat) (self : DefaultState R) : HitDecision → DefaultState R → Prop
  | finished (finish : self.finishRequested = true) : Counts pointId self .ignore self
  | counted (going : self.finishRequested = false) (inside : pointId < self.collisionState.length) :
      Counts pointId self
        (if self.collisionState.getD pointId 0 = 1 then { candidate := pointId } else .ignore)
        { self with collisionState :=
            self.collisionState.set pointId (self.collisionState.getD pointId 0 - 1) }

omit [RadiusArithmetic R] in
theorem set_getD_self {counts : List Nat} {i : Nat} (hi : i < counts.length) :
    counts.set i (counts.getD i 0) = counts := by
  rw [List.getD_eq_getElem _ _ hi]
  exact List.set_getElem_self hi

omit [RadiusArithmetic R] in
theorem countDown_spec {pointId : Nat} {decision : HitDecision} (hgoing : s.1.finishRequested = false)
    (hinside : pointId < s.1.collisionState.length) (h : countDown pointId s = .ok decision s') :
    Counts pointId s.1 decision s'.1 := by
  have hcounts := Counts.counted hgoing hinside
  unfold countDown at h
  obtain ⟨s₀, t, hget, h⟩ := bind_eq_ok.mp h
  cases hget
  generalize hcount : s.1.collisionState.getD pointId 0 = count at h hcounts
  match count with
  | 0 =>
      rw [if_pos rfl] at h
      obtain ⟨rfl, rfl⟩ := pure_eq_ok.mp h
      have hsame := set_getD_self hinside
      rw [hcount] at hsame
      rw [if_neg Nat.zero_ne_one, Nat.zero_sub, hsame] at hcounts
      exact hcounts
  | 1 =>
      rw [if_neg Nat.one_ne_zero] at h
      obtain ⟨_, t, hmodify, h⟩ := bind_eq_ok.mp h
      obtain rfl := modifyDefault_eq_ok.mp hmodify
      rw [if_neg (fun hcon => hcon rfl)] at h
      obtain ⟨rfl, rfl⟩ := pure_eq_ok.mp h
      exact hcounts
  | count + 2 =>
      rw [if_neg (Nat.succ_ne_zero _)] at h
      obtain ⟨_, t, hmodify, h⟩ := bind_eq_ok.mp h
      obtain rfl := modifyDefault_eq_ok.mp hmodify
      rw [if_pos (show count + 2 - 1 ≠ 0 from Nat.succ_ne_zero _)] at h
      obtain ⟨rfl, rfl⟩ := pure_eq_ok.mp h
      exact hcounts

omit [RadiusArithmetic R] in
theorem acceptStandard_spec {hit : ProjectionHit} {decision : HitDecision}
    (h : acceptStandard hit s = .ok decision s') : Counts hit.pointId s.1 decision s'.1 := by
  unfold acceptStandard at h
  obtain ⟨s₀, t, hget, h⟩ := bind_eq_ok.mp h
  cases hget
  cases hfinish : s.1.finishRequested with
  | true =>
      rw [if_pos hfinish] at h
      obtain ⟨rfl, rfl⟩ := pure_eq_ok.mp h
      exact .finished hfinish
  | false =>
      rw [if_neg (by rw [hfinish]; exact Bool.false_ne_true)] at h
      rcases Nat.lt_or_ge hit.pointId s.1.collisionState.length with hlt | hge
      · rw [if_neg (Nat.not_le.mpr hlt)] at h
        exact countDown_spec hfinish hlt h
      · rw [if_pos hge] at h
        obtain ⟨_, _, hthrow, -⟩ := bind_eq_ok.mp h
        cases hthrow

omit [RadiusArithmetic R] in
theorem acceptFlagged_spec {hit : ProjectionHit} {decision : HitDecision} (state : QuerySnapshot R)
    (h : acceptFlagged hit state s = .ok decision s') : Counts hit.pointId s.1 decision s'.1 := by
  unfold acceptFlagged at h
  obtain ⟨s₀, t, hget, h⟩ := bind_eq_ok.mp h
  cases hget
  cases hfinish : s.1.finishRequested with
  | true =>
      rw [if_pos hfinish] at h
      obtain ⟨rfl, rfl⟩ := pure_eq_ok.mp h
      exact .finished hfinish
  | false =>
      rw [if_neg (by rw [hfinish]; exact Bool.false_ne_true)] at h
      unfold acceptBuiltinId at h
      obtain ⟨s₀, t, hget, h⟩ := bind_eq_ok.mp h
      cases hget
      rcases Nat.lt_or_ge hit.pointId s.1.collisionState.length with hlt | hge
      · rw [if_neg (Nat.not_le.mpr hlt)] at h
        exact countDown_spec hfinish hlt h
      · rw [if_pos hge] at h
        obtain ⟨_, _, hthrow, -⟩ := bind_eq_ok.mp h
        cases hthrow

/-- What a hit does to the members, by any candidate rule. -/
structure Accepts (old : DefaultState R) (decision : HitDecision) (new : DefaultState R) : Prop where
  members : new = { old with collisionState := new.collisionState }
  finished : old.finishRequested = true → decision = .ignore

omit [RadiusArithmetic R] in
theorem Counts.accepts {pointId : Nat} {self self' : DefaultState R} {decision : HitDecision}
    (h : Counts pointId self decision self') : Accepts self decision self' := by
  cases h with
  | finished finish => exact ⟨rfl, fun _ => rfl⟩
  | counted going inside => exact ⟨rfl, fun finish => absurd (going.symm.trans finish) Bool.false_ne_true⟩

omit [RadiusArithmetic R] in
theorem acceptCustom_spec {rule : CandidateRule ω} {hit : ProjectionHit} {decision : HitDecision}
    (h : acceptCustom rule hit s = .ok decision s') : Accepts s.1 decision s'.1 := by
  unfold acceptCustom at h
  obtain ⟨s₀, t, hget, h⟩ := bind_eq_ok.mp h
  cases hget
  cases hfinish : s.1.finishRequested with
  | true =>
      rw [if_pos hfinish] at h
      obtain ⟨rfl, rfl⟩ := pure_eq_ok.mp h
      exact ⟨rfl, fun _ => rfl⟩
  | false =>
      rw [if_neg (by rw [hfinish]; exact Bool.false_ne_true)] at h
      refine ⟨?_, fun hcon => absurd hcon (by rw [hfinish]; exact Bool.false_ne_true)⟩
      split at h
      · obtain ⟨_, _, hthrow, -⟩ := bind_eq_ok.mp h
        cases hthrow
      · dsimp only at h
        split at h
        · obtain ⟨rfl, rfl⟩ := pure_eq_ok.mp h
          rfl
        · split at h
          · obtain ⟨_, _, hthrow, -⟩ := bind_eq_ok.mp h
            cases hthrow
          · obtain ⟨_, t, hmodify, h⟩ := bind_eq_ok.mp h
            obtain rfl := modifyDefault_eq_ok.mp hmodify
            obtain ⟨accepted, t, hrule, h⟩ := bind_eq_ok.mp h
            obtain ⟨-, hmembers⟩ := outside_eq_ok.mp hrule
            split at h
            · obtain ⟨rfl, rfl⟩ := pure_eq_ok.mp h
              rw [hmembers]
            · obtain ⟨_, t', hmodify, h⟩ := bind_eq_ok.mp h
              obtain rfl := modifyDefault_eq_ok.mp hmodify
              obtain ⟨rfl, rfl⟩ := pure_eq_ok.mp h
              rw [hmembers]

/-! ## Boundaries -/

/-- The finish flag may have been raised, if the termination rule said so. -/
structure MayFinish (options : DefaultOptions R ω) (state : QuerySnapshot R)
    (old new : DefaultState R) : Prop where
  members : new = { old with finishRequested := new.finishRequested }
  kept : old.finishRequested = true → new.finishRequested = true
  raised : new.finishRequested = true → old.finishRequested = true ∨ options.Says state old true

theorem MayFinish.refl (self : DefaultState R) : options.MayFinish state self self :=
  ⟨rfl, id, Or.inl⟩

theorem MayFinish.going {old new : DefaultState R} (h : options.MayFinish state old new)
    (hgoing : new.finishRequested = false) : old.finishRequested = false :=
  Bool.eq_false_iff.mpr fun hfinish => absurd (hgoing.symm.trans (h.kept hfinish)) Bool.false_ne_true

/-- Raising the flag when the rule says so. -/
theorem mayFinish_spec {u : Unit} (h : (do
      if ← options.shouldTerminate state then
        modifyDefault fun self => { self with finishRequested := true }) s = .ok u s') :
    options.MayFinish state s.1 s'.1 ∧ ∃ stop t, options.shouldTerminate state s = .ok stop t ∧
      (stop = true → s'.1.finishRequested = true) := by
  obtain ⟨stop, t, hrule, h⟩ := bind_eq_ok.mp h
  obtain ⟨hmembers, hruling⟩ := shouldTerminate_spec hrule
  cases stop with
  | true =>
      rw [if_pos rfl] at h
      obtain rfl := modifyDefault_eq_ok.mp h
      rw [hmembers]
      exact ⟨⟨rfl, fun _ => rfl, fun _ => Or.inr hruling⟩, true, t, hrule, fun _ => rfl⟩
  | false =>
      rw [if_neg Bool.false_ne_true] at h
      obtain ⟨-, rfl⟩ := pure_eq_ok.mp h
      rw [hmembers]
      exact ⟨.refl _, false, _, hrule, fun hcon => nomatch hcon⟩

theorem onEvaluation_spec (event : EvaluationEvent)
    (h : options.onEvaluation event state s = .ok () s') :
    options.MayFinish state s.1 s'.1 ∧ (options.checkAfterEvaluation = true →
      ∃ stop t, options.shouldTerminate state s = .ok stop t ∧
        (stop = true → s'.1.finishRequested = true)) := by
  unfold onEvaluation at h
  cases hcheck : options.checkAfterEvaluation with
  | true =>
      rw [if_pos hcheck] at h
      obtain ⟨hmay, hstop⟩ := mayFinish_spec h
      exact ⟨hmay, fun _ => hstop⟩
  | false =>
      rw [if_neg (by rw [hcheck]; exact Bool.false_ne_true)] at h
      obtain ⟨-, rfl⟩ := pure_eq_ok.mp h
      exact ⟨.refl _, fun hcon => nomatch hcon⟩

theorem onScanBoundary_spec {event : ScanBoundaryEvent R}
    (h : options.onScanBoundary event state s = .ok () s') :
    ∃ schedule, s.1.tableSchedule.onScanBoundary event = .ok schedule ∧
      options.MayFinish state { s.1 with tableSchedule := schedule } s'.1 := by
  unfold onScanBoundary at h
  obtain ⟨s₀, t, hget, h⟩ := bind_eq_ok.mp h
  cases hget
  obtain ⟨schedule, t, hschedule, h⟩ := bind_eq_ok.mp h
  obtain ⟨hreturns, rfl⟩ := liftResult_eq_ok.mp hschedule
  obtain ⟨_, t, hmodify, h⟩ := bind_eq_ok.mp h
  obtain rfl := modifyDefault_eq_ok.mp hmodify
  obtain ⟨s₀, t, hget, h⟩ := bind_eq_ok.mp h
  cases hget
  refine ⟨schedule, hreturns, ?_⟩
  split at h
  · exact (mayFinish_spec h).1
  · obtain ⟨-, rfl⟩ := pure_eq_ok.mp h
    exact .refl _

omit [RadiusArithmetic R] in
theorem onRadiusAdvanced_spec (state : QuerySnapshot R) (h : onRadiusAdvanced state s = .ok () s') :
    s'.1 = { s.1 with
      radiusAdvanced := true
      tableSchedule := s.1.tableSchedule.onRadiusAdvanced } := by
  obtain rfl := modifyDefault_eq_ok.mp h
  rfl

end DefaultOptions

/-! ## The callbacks of a default strategy -/

namespace Callbacks

/-- The callbacks of a default strategy behind the interface of an arbitrary one. -/
def ofErased (options : DefaultOptions R ω) (accessor : Nat → EStateM Error ω PointView) :
    Callbacks R (WithDefault R ω) :=
  .ofStrategy options.strategy fun pointId => outside (accessor pointId)

/-- Callbacks of a default strategy, in whichever search. -/
structure Default (callbacks : Callbacks R (WithDefault R ω)) (options : DefaultOptions R ω) : Prop where
  strategy : callbacks.strategy = options.strategy
  accept : callbacks.accept = options.acceptRanged ∨ callbacks.accept = options.onProjectionHit
  accessor : ∀ {pointId s point s'}, callbacks.accessor pointId s = .ok point s' → s'.1 = s.1

theorem default_ofDefault (options : DefaultOptions R ω) (accessor : Nat → EStateM Error ω PointView) :
    (ofDefault options accessor).Default options :=
  ⟨rfl, Or.inl rfl, fun h => (outside_eq_ok.mp h).2⟩

theorem default_ofErased (options : DefaultOptions R ω) (accessor : Nat → EStateM Error ω PointView) :
    (ofErased options accessor).Default options :=
  ⟨rfl, Or.inr rfl, fun h => (outside_eq_ok.mp h).2⟩

variable {callbacks : Callbacks R (WithDefault R ω)} {options : DefaultOptions R ω}
  {hit : ProjectionHit} {state : QuerySnapshot R} {s s' : WithDefault R ω} {decision : HitDecision}

theorem Default.counts (h : callbacks.Default options) (hrule : options.candidateRule = none)
    (hcall : callbacks.accept hit state s = .ok decision s') :
    DefaultOptions.Counts hit.pointId s.1 decision s'.1 := by
  rcases h.accept with haccept | haccept
  · rw [haccept] at hcall
    simp only [DefaultOptions.acceptRanged, hrule] at hcall
    exact DefaultOptions.acceptFlagged_spec state hcall
  · rw [haccept] at hcall
    simp only [DefaultOptions.onProjectionHit, hrule] at hcall
    exact DefaultOptions.acceptStandard_spec hcall

theorem Default.accepts (h : callbacks.Default options)
    (hcall : callbacks.accept hit state s = .ok decision s') :
    DefaultOptions.Accepts s.1 decision s'.1 := by
  cases hrule : options.candidateRule with
  | none => exact (h.counts hrule hcall).accepts
  | some rule =>
      rcases h.accept with haccept | haccept
      · rw [haccept] at hcall
        simp only [DefaultOptions.acceptRanged, hrule] at hcall
        exact DefaultOptions.acceptCustom_spec hcall
      · rw [haccept] at hcall
        simp only [DefaultOptions.onProjectionHit, hrule] at hcall
        exact DefaultOptions.acceptCustom_spec hcall

theorem Default.start {query : QueryStart R} (h : callbacks.Default options)
    (hcall : callbacks.strategy.start query s = .ok () s') :
    s'.1 = options.started query ∧ (options.candidateRule = none →
      0 < options.activeThreshold query ∧ options.activeThreshold query ≤ query.numHashTables) := by
  rw [h.strategy] at hcall
  exact DefaultOptions.start_spec hcall

theorem Default.next {action : StrategyAction} (h : callbacks.Default options)
    (hcall : callbacks.strategy.next state s = .ok action s') :
    options.NextStep state s.1 action s'.1 := by
  rw [h.strategy] at hcall
  exact DefaultOptions.next_spec hcall

theorem Default.evaluation {event : EvaluationEvent} (h : callbacks.Default options)
    (hcall : callbacks.strategy.onEvaluation event state s = .ok () s') :
    options.MayFinish state s.1 s'.1 ∧ (options.checkAfterEvaluation = true →
      ∃ stop t, options.shouldTerminate state s = .ok stop t ∧
        (stop = true → s'.1.finishRequested = true)) := by
  rw [h.strategy] at hcall
  exact DefaultOptions.onEvaluation_spec event hcall

theorem Default.boundary {event : ScanBoundaryEvent R} (h : callbacks.Default options)
    (hcall : callbacks.strategy.onScanBoundary event state s = .ok () s') :
    ∃ schedule, s.1.tableSchedule.onScanBoundary event = .ok schedule ∧
      options.MayFinish state { s.1 with tableSchedule := schedule } s'.1 := by
  rw [h.strategy] at hcall
  exact DefaultOptions.onScanBoundary_spec hcall

theorem Default.advanced (h : callbacks.Default options)
    (hcall : callbacks.strategy.onRadiusAdvanced state s = .ok () s') :
    s'.1 = { s.1 with
      radiusAdvanced := true
      tableSchedule := s.1.tableSchedule.onRadiusAdvanced } := by
  rw [h.strategy] at hcall
  exact DefaultOptions.onRadiusAdvanced_spec state hcall

end Callbacks

end Qalsh
