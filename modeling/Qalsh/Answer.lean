/-
  Answer.lean --- a default search returns neighbors it can justify.

  By the standard rules a search finishes when it has evaluated as many points as its
  budget, when its last neighbor is near enough, or when every table is exhausted, and
  then every point has been evaluated.  Each way it has a neighbor for every place.
-/
import Qalsh.Stop

set_option autoImplicit false

namespace Qalsh

open Foundation

variable {R σ ω : Type}

/-- The budget of a search over an index; the sum does not overflow where it matters. -/
theorem DefaultOptions.standardBudget_queryStart {metadata : IndexMetadata} {k : Nat} (tableCount : Nat)
    (radius : R) (hpoints : metadata.numPoints ≤ maxReasonablePoints) (hk : 0 < k) :
    standardBudget (queryStart metadata tableCount k radius) =
      min metadata.numPoints (metadata.qalsh.candidateBudget.val + k - 1) := by
  unfold standardBudget maxReasonablePoints uint64Max at *
  unfold queryStart
  dsimp only
  split
  · omega
  · congr 1
    omega

namespace Setting

/-! ## As many neighbors as evaluations -/

section Filled

variable [Platform]

omit [Platform] in
/-- A neighbor more, unless all places are taken. -/
theorem insertNeighbor_length {neighbors : List Neighbor} {k : Nat} (candidate : Neighbor)
    (h : neighbors.length ≤ k) :
    (insertNeighbor neighbors candidate k).length = min k (neighbors.length + 1) := by
  have hplace := bisect_le (fun i => betterNeighbor (neighbors.getD i default) candidate)
    (Nat.zero_le neighbors.length)
  have hinserted := List.length_insertIdx_of_le_length hplace (a := candidate)
  unfold insertNeighbor
  dsimp only
  split
  · omega
  · split
    · rw [List.length_dropLast, hinserted]
      omega
    · omega

/-- An evaluation is pruned only when all places are taken. -/
theorem insertEvaluated_length {neighbors : List Neighbor} {k count pointId : Nat}
    {point query : PointView} {metric : Metric} {bounded : Bool} {result : BoundedDistance}
    (hlength : neighbors.length = min k count)
    (hresult : boundedDistanceValueUnchecked point query metric (pruningBound bounded k neighbors) =
      .ok result) :
    (insertEvaluated k neighbors (pointId, result)).length = min k (count + 1) := by
  have hshort : neighbors.length ≤ k := hlength.trans_le (Nat.min_le_left _ _)
  unfold insertEvaluated
  split
  · rw [insertNeighbor_length _ hshort, hlength]
    omega
  · rename_i hpruned
    have hfull : neighbors.length = k := by
      by_contra hopen
      have hplain : pruningBound bounded k neighbors = Binary32.infinity :=
        if_neg fun hcon => hopen hcon.2
      rw [hplain] at hresult
      exact hpruned (unchecked_exact hresult).1
    omega

variable [RadiusArithmetic R] {setting : Setting} {phase : Phase} {account : Account R}
  {callbacks : Callbacks R σ} {observe : σ → ω} {origin s : σ} {lines : Transcript R ω}

/-- A run has as many neighbors as evaluations, up to `k`. -/
theorem Runs.filled (run : setting.Runs callbacks observe origin lines phase account s) :
    (account.neighbors setting.k).length = min setting.k account.evaluated.length := by
  induction run with
  | start bound_eq answers => exact (Nat.min_zero _).symm
  | scan run sound settled table_lt ih => exact ih
  | evaluate run ih => exact ih
  | call run asks answers ih =>
      cases asks with
      | next sound settled => exact ih
      | hit scan position sound => exact ih
      | boundary scan report before sound settled closes => exact ih
      | duplicate scan pointId sound old => exact ih
      | access scan pointId sound inside new => exact ih
      | evaluation scan pointId point distance sound new valid distance_eq =>
          rw [Account.neighbors_record]
          unfold Account.record
          rw [List.length_append]
          exact insertEvaluated_length ih distance_eq
      | advanced radius bound before waiting round sound settled => exact ih

end Filled

/-! ## Exhaustion -/

section Exhaustion

variable [Platform] [RadiusArithmetic R] {setting : Setting} {phase : Phase} {account : Account R}

omit [Platform] [RadiusArithmetic R] in
/-- A table has an entry for each point. -/
theorem exists_position (setting : Setting) (tableId : Nat) {pointId : Nat}
    (h : pointId < setting.metadata.numPoints) :
    ∃ position < setting.metadata.numPoints,
      ((setting.table tableId).hitAt position).pointId = pointId := by
  have hmem := (setting.table tableId).table.ids.mem_iff.mpr (List.mem_range.mpr h)
  obtain ⟨entry, hentry, rfl⟩ := List.mem_map.mp hmem
  obtain ⟨position, hlt, rfl⟩ := List.getElem_of_mem hentry
  refine ⟨position, (setting.table tableId).table.length_entries ▸ hlt, ?_⟩
  show ((setting.table tableId).table.entries.getD position default).pointId = _
  rw [List.getD_eq_getElem _ _ hlt]

omit [Platform] in
/-- When all tables are exhausted each of them has hit each point. -/
theorem Sound.count_exhausted (h : setting.Sound account) (hall : account.allExhausted = true)
    {pointId : Nat} (hpoint : pointId < setting.metadata.numPoints) :
    (setting.struck account.delivered).count pointId = setting.tableCount := by
  obtain ⟨tables, hnodup, hlength, hmem⟩ := h.strikers pointId
  have hperm : tables.Perm (List.range setting.tableCount) := by
    refine (List.perm_ext_iff_of_nodup hnodup List.nodup_range).mpr fun tableId => ?_
    rw [hmem tableId, List.mem_range]
    constructor
    · rintro ⟨position, hdelivered, -⟩
      exact (h.delivered_mem tableId position hdelivered).1
    · intro htable
      obtain ⟨position, hposition, hid⟩ := setting.exists_position tableId hpoint
      have hflag := all_getD hall (h.exhausted_length.symm ▸ htable)
      exact ⟨position, h.exhausted tableId hflag position hposition, hid⟩
  rw [← hlength, hperm.length_eq, List.length_range]

variable {options : DefaultOptions R ω} {callbacks : Callbacks R (WithDefault R ω)}
  {observe : WithDefault R ω → σ} {origin s : WithDefault R ω} {lines : Transcript R σ}

/-- The threshold of a search is at most the number of its tables. -/
theorem Runs.threshold_le (hdefault : callbacks.Default options) (hrule : options.candidateRule = none)
    (run : setting.Runs callbacks observe origin lines phase account s) :
    options.activeThreshold (setting.startQuery R) ≤ setting.tableCount := by
  induction run with
  | start bound_eq answers =>
      cases answers with | start h =>
      exact ((hdefault.start h).2 hrule).2
  | scan run sound settled table_lt ih => exact ih
  | evaluate run ih => exact ih
  | call run asks answers ih => exact ih

/-- When all tables are exhausted every point has been evaluated. -/
theorem Runs.evaluated_all (hdefault : callbacks.Default options) (hrule : options.candidateRule = none)
    (run : setting.Runs callbacks observe origin lines phase account s) (hawaiting : phase.awaiting = [])
    (sound : setting.Sound account) (hgoing : s.1.finishRequested = false)
    (hall : account.allExhausted = true) :
    account.evaluatedIds.Perm (List.range setting.metadata.numPoints) := by
  refine (List.perm_ext_iff_of_nodup sound.evaluated_nodup List.nodup_range).mpr fun pointId => ?_
  rw [List.mem_range]
  refine ⟨sound.evaluated_lt pointId, fun hpoint => ?_⟩
  have hsubmitted := (run.counting hdefault hrule).submitted hgoing pointId hpoint
    ((run.threshold_le hdefault hrule).trans_eq (sound.count_exhausted hall hpoint).symm)
  rw [hawaiting, List.append_nil] at hsubmitted
  exact hsubmitted

end Exhaustion

/-! ## Reasons to finish -/

section Justified

variable [Platform] [RadiusArithmetic R] {setting : Setting} {phase : Phase} {account account' : Account R}
  {old new : DefaultState R}

/-- The standard rule holds, or there is nothing left to evaluate. -/
def Justified (setting : Setting) (account : Account R) (members : DefaultState R) : Prop :=
  DefaultOptions.standardTermination members (account.snapshot setting.k) = true ∨
    account.evaluated.length = setting.metadata.numPoints

omit [Platform] in
theorem Justified.lasts (h : setting.Justified account old) (hlasts : Lasts old new)
    (hevaluated : account'.evaluated = account.evaluated) (hradius : account'.radius = account.radius) :
    setting.Justified account' new := by
  unfold Justified DefaultOptions.standardTermination Account.snapshot Account.neighbors at *
  dsimp only at *
  rw [hlasts.budget, hlasts.query, hevaluated, hradius]
  exact h

variable {options : DefaultOptions R ω} {callbacks : Callbacks R (WithDefault R ω)}
  {observe : WithDefault R ω → σ} {origin s : WithDefault R ω} {lines : Transcript R σ}

/-- The flag is set with a reason. -/
theorem Runs.justified (hdefault : callbacks.Default options) (hrule : options.candidateRule = none)
    (htermination : options.terminationRule = none)
    (run : setting.Runs callbacks observe origin lines phase account s)
    (hfinish : s.1.finishRequested = true) : setting.Justified account s.1 := by
  induction run with
  | start bound_eq answers =>
      cases answers with | start h =>
      rw [(hdefault.start h).1] at hfinish
      cases hfinish
  | scan run sound settled table_lt ih => exact ih hfinish
  | evaluate run ih => exact ih hfinish
  | @call lines phase account account' s s' call answer run asks answers ih =>
      have hlasts := Lasts.of_answers hdefault answers asks.not_start
      have hallowed := run.allowed hdefault
      cases asks with
      | next sound settled =>
          cases answers with | next h =>
          have hstep := hdefault.next h
          have htallies := (run.scheduled hdefault.follows).1
          generalize s'.1 = self' at hstep hfinish hlasts
          cases hstep with
          | finished finish => exact (ih finish).lasts hlasts rfl rfl
          | stopped going check ruled => exact Or.inl (ruled.standard htermination)
          | exhausted going empty all =>
              have hall : account.allExhausted = true := by
                rcases all with hschedule | hstate
                · rw [← htallies.allTablesExhausted sound.exhausted_length]
                  exact hschedule
                · exact hstate
              have hperm := run.evaluated_all hdefault hrule rfl sound going hall
              refine Or.inr ((List.length_map ..).symm.trans (hperm.length_eq.trans ?_))
              exact List.length_range
          | scans going pending => exact absurd (going.symm.trans hfinish) Bool.false_ne_true
          | advances going empty some ruled => exact absurd (going.symm.trans hfinish) Bool.false_ne_true
      | hit scan position sound =>
          cases answers with | hit h =>
          have hmembers := (hdefault.accepts h).members
          rw [hmembers] at hfinish
          exact (ih hfinish).lasts hlasts rfl rfl
      | boundary scan report before sound settled closes =>
          cases answers with | boundary h =>
          obtain ⟨schedule, -, hmay⟩ := hdefault.boundary h
          rcases hmay.raised hfinish with hold | hruled
          · exact (ih hold).lasts hlasts rfl rfl
          · have hstandard : setting.Justified (account.close scan.tableId report) s.1 :=
              Or.inl (hruled.standard htermination)
            exact hstandard.lasts hlasts rfl rfl
      | duplicate scan pointId sound old =>
          cases answers with | evaluation h =>
          rcases (hdefault.evaluation h).1.raised hfinish with hold | hruled
          · exact (ih hold).lasts hlasts rfl rfl
          · have hstandard : setting.Justified account s.1 := Or.inl (hruled.standard htermination)
            exact hstandard.lasts hlasts rfl rfl
      | access scan pointId sound inside new =>
          cases answers with | access h =>
          rw [hdefault.accessor h] at hfinish
          exact (ih hfinish).lasts hlasts rfl rfl
      | evaluation scan pointId point distance sound new valid distance_eq =>
          cases answers with | evaluation h =>
          rcases (hdefault.evaluation h).1.raised hfinish with hold | hruled
          · cases scan with
            | none => exact hallowed.elim
            | some scan => exact absurd (hallowed.2.symm.trans hold) Bool.false_ne_true
          · have hstandard : setting.Justified (account.record pointId distance) s.1 :=
              Or.inl (hruled.standard htermination)
            exact hstandard.lasts hlasts rfl rfl
      | advanced radius bound before waiting round sound settled =>
          cases answers with | advanced h =>
          rw [hdefault.advanced h] at hfinish
          exact absurd (hallowed.symm.trans hfinish) Bool.false_ne_true

/-! ## The last call -/

/-- An action is the answer of the last call. -/
theorem Runs.chosen {callbacks : Callbacks R ω} {observe : ω → σ} {origin s : ω} {action : StrategyAction}
    (run : setting.Runs callbacks observe origin lines (.acting action) account s) :
    ∃ before account' s', setting.Runs callbacks observe origin before .ready account' s' ∧
      setting.Sound account' ∧ setting.Settled account' ∧
      callbacks.strategy.next (account'.snapshot setting.k) s' = .ok action s ∧
      account = account'.stepped ∧
      lines = before ++ [⟨.next (account'.snapshot setting.k), observe s', .action action⟩] := by
  generalize hphase : Phase.acting action = phase at run
  cases run with
  | start bound_eq answers => cases hphase
  | scan run sound settled table_lt => cases hphase
  | evaluate run => cases hphase
  | call run asks answers =>
      cases asks with
      | next sound settled =>
          cases answers with | next h =>
          cases hphase
          exact ⟨_, _, _, run, sound, settled, h, rfl, rfl⟩
      | hit scan position sound =>
          cases answers with | @hit _ _ decision h =>
          cases hcandidate : decision.hasCandidate with
          | true =>
              rw [Phase.heard_candidate hcandidate] at hphase
              cases hphase
          | false =>
              rw [Phase.heard_ignored hcandidate] at hphase
              cases hphase
      | boundary scan report before sound settled closes =>
          cases answers with | boundary h =>
          cases hphase
      | duplicate scan pointId sound old =>
          cases answers with | evaluation h =>
          cases scan <;> cases hphase
      | access scan pointId sound inside new =>
          cases answers with | access h =>
          cases hphase
      | evaluation scan pointId point distance sound new valid distance_eq =>
          cases answers with | evaluation h =>
          cases scan <;> cases hphase
      | advanced radius bound before waiting round sound settled =>
          cases answers with | advanced h =>
          cases hphase

omit [Platform] in
/-- The budget no search with standard rules goes without. -/
theorem activeBudget_standard (htermination : options.terminationRule = none)
    (hbudget : options.candidateBudgetOverride = none) :
    options.activeBudget (setting.startQuery R) = some (min setting.metadata.numPoints
      (setting.metadata.qalsh.candidateBudget.val + setting.k - 1)) := by
  unfold DefaultOptions.activeBudget
  rw [htermination, hbudget]
  exact congrArg some (DefaultOptions.standardBudget_queryStart _ _ setting.metadata_valid.points.2
    setting.k_pos)

/-- A search that finishes by the standard rules has as many neighbors as asked for. -/
theorem Runs.answered (hdefault : callbacks.Default options) (hrule : options.candidateRule = none)
    (htermination : options.terminationRule = none) (hbudget : options.candidateBudgetOverride = none)
    (run : setting.Runs callbacks observe origin lines (.acting .finish) account s)
    (sound : setting.Sound account) :
    (account.neighbors setting.k).length = setting.k ∧
      (min setting.metadata.numPoints (setting.metadata.qalsh.candidateBudget.val + setting.k - 1) ≤
          account.evaluated.length ∨
        (∃ last ∈ (account.neighbors setting.k).getLast?, RadiusArithmetic.withinRatio last.distance
          setting.metadata.qalsh.approximationRatio account.radius = true) ∨
        account.evaluatedIds.Perm (List.range setting.metadata.numPoints)) := by
  have hfilled := run.filled
  have hk := setting.k_le
  have hcandidates := setting.metadata_valid.qalsh.budget
  obtain ⟨hquery, -, hactive⟩ := run.configured hdefault
  rw [setting.activeBudget_standard htermination hbudget] at hactive
  rcases run.justified hdefault hrule htermination (run.allowed hdefault) with hstandard | hall
  · unfold DefaultOptions.standardTermination at hstandard
    rw [hactive, hquery] at hstandard
    simp only [Bool.or_eq_true, Bool.and_eq_true, decide_eq_true_eq] at hstandard
    rcases hstandard with hspent | ⟨hfull, hnear⟩
    · have hspent : min setting.metadata.numPoints
          (setting.metadata.qalsh.candidateBudget.val + setting.k - 1) ≤ account.evaluated.length := hspent
      refine ⟨by omega, Or.inl hspent⟩
    · have hfull : setting.k ≤ (account.neighbors setting.k).length := hfull
      refine ⟨by omega, Or.inr (Or.inl ?_)⟩
      split at hnear
      · rename_i last hlast
        exact ⟨last, hlast, hnear⟩
      · cases hnear
  · refine ⟨by omega, Or.inr (Or.inr ?_)⟩
    have hsubset := List.subperm_of_subset sound.evaluated_nodup fun pointId hmem =>
      List.mem_range.mpr (sound.evaluated_lt pointId hmem)
    apply hsubset.perm_of_length_le
    rw [List.length_range, ← hall]
    exact (List.length_map ..).ge

end Justified

end Setting

/-! ## Searches -/

namespace Session

variable [RadiusArithmetic R] [Platform] {session : Session R}

/-- A default search by the standard rules that finishes, with whatever quantum and checks, has `k`
neighbors and is complete: it has evaluated as many points as its budget, or the last neighbor
is near enough at the final radius, or it has evaluated all points and its neighbors are the
nearest of all. -/
theorem search_answers [HasThread R ω] {dflt : DefaultOptions R ω}
    {callbacks : Callbacks R (WithDefault R ω)} {driver : RangeDriver R (WithDefault R ω)}
    (hdefault : callbacks.Default dflt) (hrule : dflt.candidateRule = none)
    (htermination : dflt.terminationRule = none) (hbudget : dflt.candidateBudgetOverride = none)
    (hconfined : callbacks.Confined) (hdelivers : driver.Delivers callbacks.accept)
    {options : SearchOptions} {query : PointView} {k : Nat} {s s' : WithDefault R ω}
    (hs : threadOf s = session.thread) {result : SearchResult}
    (hsearch : session.searchBy driver callbacks options query k s = .ok result s')
    (hreason : result.reason = .strategy ∨ result.reason = .scanExhausted) :
    let metadata := session.object.metadata
    let lines := session.transcript (fun _ => ()) callbacks options query k s
    result.neighbors.length = k ∧ result.complete = true ∧
      ∃ before state, lines = before ++ [⟨.next state, (), .action .finish⟩] ∧
        state.neighbors = result.neighbors ∧
        (min metadata.numPoints (metadata.qalsh.candidateBudget.val + k - 1) ≤
            result.evaluatedCandidates ∨
          (∃ last ∈ result.neighbors.getLast?, RadiusArithmetic.withinRatio last.distance
            metadata.qalsh.approximationRatio state.radius = true) ∨
          (lines.points.map Prod.fst).Perm (List.range metadata.numPoints) ∧
            KBest nearness k (competitors query metadata.metric lines.points) result.neighbors) := by
  obtain ⟨setting, ⟨content, b, plan, hplan, hfinite, rfl⟩, t, limit, account, reason, hreturns⟩ :=
    (search_runs hconfined discreet_unit hdelivers options query k hs).1 result s' hsearch
  have hended := hreturns.ended
  have hresult := hreturns.result_eq
  have hfinished : (reason = some .strategy ∨ reason = some .scanExhausted) ∧
      (b.setting hplan hfinite).Runs callbacks (fun _ => ()) s
        (session.transcript (fun _ => ()) callbacks options query k s) (.acting .finish) account t := by
    rw [hresult] at hreason
    cases reason with
    | none => rcases hreason with hcon | hcon <;> cases hcon
    | some reason =>
        cases reason with
        | strategy => exact ⟨Or.inl rfl, hended.2⟩
        | scanExhausted => exact ⟨Or.inr rfl, hended.2⟩
        | invalidStrategyAction => rcases hreason with hcon | hcon <;> cases hcon
        | stepLimit => exact hended.elim
  obtain ⟨hreason, run⟩ := hfinished
  obtain ⟨hlength, hwhy⟩ := run.answered hdefault hrule htermination hbudget hreturns.sound
  obtain ⟨hids, hnearest⟩ := run.records.nearest rfl
  obtain ⟨before, account', s'', -, -, -, -, rfl, hlast⟩ := run.chosen
  rw [hresult]
  refine ⟨hlength, ?_, before, _, hlast, rfl, ?_⟩
  · unfold Setting.accountResult
    dsimp only
    rw [decide_eq_true hlength]
    rcases hreason with rfl | rfl <;> rfl
  · rcases hwhy with hspent | hnear | hall
    · exact Or.inl hspent
    · exact Or.inr (Or.inl hnear)
    · exact Or.inr (Or.inr ⟨hids ▸ hall, hnearest⟩)

end Session

namespace Session

/-- The default search for the point returns by one of the two normal reasons. -/
theorem unitSession_default :
    letI := exactPlatform true
    ∃ result s', unitSession.searchBy (UserRules.plain Binary32).callbacks.driver
        (UserRules.plain Binary32).callbacks SearchOptions.blank [one] 1
        (DefaultState.blank Binary32, (), unitSession.thread) = .ok result s' ∧
      (result.reason = .strategy ∨ result.reason = .scanExhausted) := by
  let := exactPlatform true
  let finishes : EStateM.Result Error (WithDefault Binary32 (Unit × Thread Binary32)) SearchResult → Bool :=
    fun outcome => match outcome with
      | .ok result _ => decide (result.reason = .strategy ∨ result.reason = .scanExhausted)
      | .error _ _ => false
  have hfinishes : finishes (unitSession.searchBy (UserRules.plain Binary32).callbacks.driver
      (UserRules.plain Binary32).callbacks SearchOptions.blank [one] 1
      (DefaultState.blank Binary32, (), unitSession.thread)) = true := by decide +kernel
  generalize unitSession.searchBy (UserRules.plain Binary32).callbacks.driver
    (UserRules.plain Binary32).callbacks SearchOptions.blank [one] 1
    (DefaultState.blank Binary32, (), unitSession.thread) = outcome at hfinishes ⊢
  cases outcome with
  | ok result s' => exact ⟨result, s', rfl, of_decide_eq_true hfinishes⟩
  | error e s' => cases hfinishes

theorem search_answers_unit :
    letI := exactPlatform true
    ∃ result s', unitSession.searchBy (UserRules.plain Binary32).callbacks.driver
        (UserRules.plain Binary32).callbacks SearchOptions.blank [one] 1
        (DefaultState.blank Binary32, (), unitSession.thread) = .ok result s' ∧
      result.neighbors.length = 1 ∧ result.complete = true := by
  let := exactPlatform true
  obtain ⟨result, s', hsearch, hreason⟩ := unitSession_default
  have hanswers := search_answers (Callbacks.default_ofDefault _ _) rfl rfl rfl
    (UserRules.plain Binary32).confined (fun _ _ _ _ => rfl) rfl hsearch hreason
  exact ⟨result, s', hsearch, hanswers.1, hanswers.2.1⟩

end Session

end Qalsh
