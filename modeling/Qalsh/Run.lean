/-
  Run.lean --- the runs of a search.

  A run is a transcript with the phase, the account and the state of the callbacks it
  has led to.  Every search makes a run, whatever its callbacks do and however it
  ends, so what holds in all searches is proved by induction on runs.
-/
import Qalsh.Foundation.Outcome
import Qalsh.Nearest
import Qalsh.Transcript

set_option autoImplicit false

namespace Qalsh

open Foundation

variable {R σ ω α : Type}

/-! ## Calls and answers -/

/-- The phase after a call that has been answered. -/
def Phase.heard : Phase → Answer → Phase
  | .ready, .action action => .acting action
  | .acting .advanceRadius, .done => .ready
  | .scanning scan, .decision decision =>
      if decision.hasCandidate = true then .submitted (some scan) decision.candidate
      else .scanning scan
  | .scanning _, .done => .ready
  | .submitted scan _, .done => .after scan
  | .submitted scan pointId, .point point => .accessed scan pointId point
  | .accessed scan _ _, .done => .after scan
  | phase, _ => phase

theorem Phase.heard_candidate {scan : OngoingScan} {decision : HitDecision}
    (h : decision.hasCandidate = true) : (Phase.scanning scan).heard (.decision decision) =
      .submitted (some scan) decision.candidate :=
  if_pos h

theorem Phase.heard_ignored {scan : OngoingScan} {decision : HitDecision}
    (h : decision.hasCandidate = false) :
    (Phase.scanning scan).heard (.decision decision) = .scanning scan :=
  if_neg (by rw [h]; exact Bool.false_ne_true)

/-- A call that returns, with its answer. -/
inductive Callbacks.Answers (callbacks : Callbacks R σ) (s s' : σ) : Call R → Answer → Prop
  | start {query : QueryStart R} (h : callbacks.strategy.start query s = .ok () s') :
      Answers callbacks s s' (.start query) .done
  | next {state : QuerySnapshot R} {action : StrategyAction}
      (h : callbacks.strategy.next state s = .ok action s') :
      Answers callbacks s s' (.next state) (.action action)
  | hit {hit : ProjectionHit} {state : QuerySnapshot R} {decision : HitDecision}
      (h : callbacks.accept hit state s = .ok decision s') :
      Answers callbacks s s' (.hit hit state) (.decision decision)
  | evaluation {event : EvaluationEvent} {state : QuerySnapshot R}
      (h : callbacks.strategy.onEvaluation event state s = .ok () s') :
      Answers callbacks s s' (.evaluation event state) .done
  | boundary {event : ScanBoundaryEvent R} {state : QuerySnapshot R}
      (h : callbacks.strategy.onScanBoundary event state s = .ok () s') :
      Answers callbacks s s' (.boundary event state) .done
  | advanced {state : QuerySnapshot R} (h : callbacks.strategy.onRadiusAdvanced state s = .ok () s') :
      Answers callbacks s s' (.advanced state) .done
  | access {pointId : Nat} {point : PointView} (h : callbacks.accessor pointId s = .ok point s') :
      Answers callbacks s s' (.access pointId) (.point point)

namespace Setting

section Calls

variable [Platform] [RadiusArithmetic R] (setting : Setting)

variable (R) in
/-- What a search tells its strategy first. -/
def startQuery : QueryStart R :=
  queryStart setting.metadata setting.tableCount setting.k
    (RadiusArithmetic.ofFloat setting.metadata.qalsh.initialRadius)

variable (R) in
/-- The first call of a search. -/
def opening : Call R := .start (setting.startQuery R)

/-- The account of a search that has begun. -/
def initial (bound : R) : Account R :=
  Account.initial (RadiusArithmetic.ofFloat setting.metadata.qalsh.initialRadius) bound
    setting.tableCount

/-- The call a search makes in a phase, with what it knows then, and the account after it. -/
inductive Asks : Phase → Account R → Call R → Account R → Prop
  | next {account : Account R} (sound : setting.Sound account) (settled : setting.Settled account) :
      Asks .ready account (.next (account.snapshot setting.k)) account.stepped
  | hit {account : Account R} (scan : OngoingScan) (position : Nat)
      (sound : setting.Sound (account.deliver scan.tableId position)) :
      Asks (.scanning scan) account
        (.hit ((setting.table scan.tableId).hitAt position)
          ((account.deliver scan.tableId position).snapshot setting.k))
        (account.deliver scan.tableId position)
  | boundary {account : Account R} (scan : OngoingScan) (report : ScanReport)
      (before : setting.Sound account)
      (sound : setting.Sound (account.close scan.tableId report))
      (settled : setting.Settled (account.close scan.tableId report))
      (closes : setting.Closes scan account report) :
      Asks (.scanning scan) account
        (.boundary { report := report, radius := account.radius }
          ((account.close scan.tableId report).snapshot setting.k))
        (account.close scan.tableId report)
  | duplicate {account : Account R} (scan : Option OngoingScan) (pointId : Nat)
      (sound : setting.Sound account) (old : pointId ∈ account.evaluatedIds) :
      Asks (.submitted scan pointId) account
        (.evaluation
          { pointId := pointId
            status := .duplicate
            exactDistance := false
            distance := Binary32.zero } (account.snapshot setting.k))
        account
  | access {account : Account R} (scan : Option OngoingScan) (pointId : Nat)
      (sound : setting.Sound account) (inside : pointId < setting.metadata.numPoints)
      (new : pointId ∉ account.evaluatedIds) :
      Asks (.submitted scan pointId) account (.access pointId) account
  | evaluation {account : Account R} (scan : Option OngoingScan) (pointId : Nat) (point : PointView)
      (distance : BoundedDistance) (sound : setting.Sound (account.record pointId distance))
      (new : pointId ∉ account.evaluatedIds)
      (valid : validatePoint point setting.metadata.numDimensions pointId = .ok ())
      (distance_eq : boundedDistanceValueUnchecked point setting.query setting.metadata.metric
        (pruningBound setting.options.boundedDistance setting.k (account.neighbors setting.k)) =
          .ok distance) :
      Asks (.accessed scan pointId point) account
        (.evaluation
          { pointId := pointId
            status := .evaluated
            exactDistance := distance.exact
            distance := distance.distance } ((account.record pointId distance).snapshot setting.k))
        (account.record pointId distance)
  | advanced {account : Account R} (radius bound : R) (before : setting.Sound account)
      (waiting : setting.Settled account)
      (round : setting.nextRound account.radius = .ok (radius, bound))
      (sound : setting.Sound (account.openRound radius bound))
      (settled : setting.Settled (account.openRound radius bound)) :
      Asks (.acting .advanceRadius) account
        (.advanced ((account.openRound radius bound).snapshot setting.k))
        (account.openRound radius bound)

end Calls

/-! ## Runs -/

section Runs

variable [Platform] [RadiusArithmetic R] (setting : Setting) (callbacks : Callbacks R σ)
  (observe : σ → ω) (origin : σ)

/-- The runs from `origin`. -/
inductive Runs : Transcript R ω → Phase → Account R → σ → Prop
  | start {bound : R} {s : σ}
      (bound_eq : windowBound setting.metadata.qalsh.bucketWidth
        (RadiusArithmetic.ofFloat setting.metadata.qalsh.initialRadius) = .ok bound)
      (answers : callbacks.Answers origin s (setting.opening R) .done) :
      Runs [⟨setting.opening R, observe origin, .done⟩] .ready (setting.initial bound) s
  | call {lines : Transcript R ω} {phase : Phase} {account account' : Account R} {s s' : σ}
      {call : Call R} {answer : Answer} (run : Runs lines phase account s)
      (asks : setting.Asks phase account call account') (answers : callbacks.Answers s s' call answer) :
      Runs (lines ++ [⟨call, observe s, answer⟩]) (phase.heard answer) account' s'
  | scan {lines : Transcript R ω} {account : Account R} {s : σ} {tableId : Nat} {scope : ScanScope}
      (run : Runs lines (.acting (.scan tableId scope)) account s) (sound : setting.Sound account)
      (settled : setting.Settled account) (table_lt : tableId < setting.tableCount) :
      Runs lines (.scanning ⟨tableId, scope, account.delivered.length⟩) account s
  | evaluate {lines : Transcript R ω} {account : Account R} {s : σ} {pointId : Nat}
      (run : Runs lines (.acting (.evaluate pointId)) account s) :
      Runs lines (.submitted none pointId) account s

/-- How a search stops that throws: in the engine, or in its last call. -/
inductive Stops (e : Error) : Transcript R ω → Prop
  | opening : Stops e [⟨setting.opening R, observe origin, .threw e⟩]
  | engine {lines : Transcript R ω} {phase : Phase} {account : Account R} {s : σ}
      (run : setting.Runs callbacks observe origin lines phase account s) (error : EngineError e) :
      Stops e lines
  | call {lines : Transcript R ω} {phase : Phase} {account account' : Account R} {s : σ} {call : Call R}
      (run : setting.Runs callbacks observe origin lines phase account s)
      (asks : setting.Asks phase account call account') :
      Stops e (lines ++ [⟨call, observe s, .threw e⟩])

variable {setting callbacks observe origin} {phase : Phase} {account account' : Account R}

/-- A recorded call makes a run longer. -/
theorem recorded_call {call : Call R} {answer : α → Answer} {x : EStateM Error σ α}
    (asks : setting.Asks phase account call account')
    (hanswers : ∀ s a s', x s = .ok a s' → callbacks.Answers s s' call (answer a)) :
    Triple (fun u => setting.Runs callbacks observe origin u.1 phase account u.2)
      (recorded (lineOf observe call answer) x)
      (fun a u => setting.Runs callbacks observe origin u.1 (phase.heard (answer a)) account' u.2)
      (fun e u => setting.Stops callbacks observe origin e u.1) := by
  rintro ⟨lines, s⟩ run
  unfold recorded
  dsimp only
  cases hx : x s with
  | ok a s' => exact .call run asks (hanswers s a s' hx)
  | error e s' => exact .call run asks

/-- Recorded callbacks make runs. -/
theorem Keeps.of_runs :
    setting.Keeps (callbacks.recorded observe).strategy (callbacks.recorded observe).accessor
      (callbacks.recorded observe).accept
      (fun phase account u => setting.Runs callbacks observe origin u.1 phase account u.2)
      (fun e u => setting.Stops callbacks observe origin e u.1) where
  failed phase account e u he run := .engine run he
  next account sound settled := recorded_call (.next sound settled) fun _ _ _ h => .next h
  scan tableId scope account u sound settled htable run := .scan run sound settled htable
  hit scan position account sound := by
    refine (recorded_call (.hit scan position sound) fun _ _ _ h => .hit h).consequence (fun _ run => run)
      (fun decision u run => ?_) fun _ _ h => h
    cases hcandidate : decision.hasCandidate with
    | true =>
        rw [Phase.heard_candidate hcandidate] at run
        exact run
    | false =>
        rw [Phase.heard_ignored hcandidate] at run
        exact run
  boundary scan account report before sound settled closes :=
    recorded_call (.boundary scan report before sound settled closes) fun _ _ _ h => .boundary h
  evaluate pointId account u run := .evaluate run
  duplicate scan pointId account sound old :=
    recorded_call (.duplicate scan pointId sound old) fun _ _ _ h => .evaluation h
  access scan pointId account sound inside new :=
    recorded_call (.access scan pointId sound inside new) fun _ _ _ h => .access h
  evaluation scan pointId point account distance sound new valid hdistance :=
    recorded_call (.evaluation scan pointId point distance sound new valid hdistance) fun _ _ _ h =>
      .evaluation h
  advance account radius bound before waiting round sound settled :=
    recorded_call (.advanced radius bound before waiting round sound settled) fun _ _ _ h =>
      .advanced h

variable {lines : Transcript R ω} {s : σ}

/-- The line ends with an answer or with an exception. -/
def Ends (callbacks : Callbacks R σ) (s : σ) (line : Line R ω) : Prop :=
  (∃ s', callbacks.Answers s s' line.call line.answer) ∨ ∃ e, line.answer = .threw e

/-- The line a search writes next. -/
def Moment (setting : Setting) (callbacks : Callbacks R σ) (observe : σ → ω) (origin : σ)
    (before : Transcript R ω) (line : Line R ω) : Prop :=
  before = [] ∧ line.call = setting.opening R ∧ line.seen = observe origin ∧ Ends callbacks origin line ∨
    ∃ phase account account' s, setting.Runs callbacks observe origin before phase account s ∧
      setting.Asks phase account line.call account' ∧ line.seen = observe s ∧ Ends callbacks s line

/-- Each line of a run was written so. -/
theorem Runs.moments (run : setting.Runs callbacks observe origin lines phase account s) :
    Throughout (setting.Moment callbacks observe origin) lines := by
  induction run with
  | start bound_eq answers =>
      exact Throughout.nil.concat (Or.inl ⟨rfl, rfl, rfl, Or.inl ⟨_, answers⟩⟩)
  | call run asks answers ih =>
      exact ih.concat (Or.inr ⟨_, _, _, _, run, asks, rfl, Or.inl ⟨_, answers⟩⟩)
  | scan run sound settled table_lt ih => exact ih
  | evaluate run ih => exact ih

theorem Stops.moments {e : Error} (h : setting.Stops callbacks observe origin e lines) :
    Throughout (setting.Moment callbacks observe origin) lines := by
  cases h with
  | opening => exact Throughout.nil.concat (Or.inl ⟨rfl, rfl, rfl, Or.inr ⟨e, rfl⟩⟩)
  | engine run error => exact run.moments
  | call run asks =>
      exact run.moments.concat (Or.inr ⟨_, _, _, _, run, asks, rfl, Or.inr ⟨e, rfl⟩⟩)

/-- A search throws an error of its own, or what its last call has thrown. -/
theorem Stops.error {e : Error} (h : setting.Stops callbacks observe origin e lines) :
    EngineError e ∨ ∃ line ∈ lines.getLast?, line.answer = .threw e := by
  cases h with
  | opening => exact Or.inr ⟨_, rfl, rfl⟩
  | engine run error => exact Or.inl error
  | call run asks => exact Or.inr ⟨_, List.getLast?_concat, rfl⟩

/-- What callbacks keep holds in every run. -/
theorem Runs.holds {J : Phase → Account R → σ → Prop} {E : Error → σ → Prop}
    (h : setting.Keeps callbacks.strategy callbacks.accessor callbacks.accept J E)
    (hstart : ∀ bound s, callbacks.Answers origin s (setting.opening R) .done →
      J .ready (setting.initial bound) s)
    (run : setting.Runs callbacks observe origin lines phase account s) : J phase account s := by
  induction run with
  | start bound_eq answers => exact hstart _ _ answers
  | scan run sound settled table_lt ih => exact h.scan _ _ _ _ sound settled table_lt ih
  | evaluate run ih => exact h.evaluate _ _ _ ih
  | call run asks answers ih =>
      cases asks with
      | next sound settled =>
          cases answers with | next hcall =>
          have hpost := (h.next _ sound settled).returns ih hcall
          exact hpost
      | hit scan position sound =>
          cases answers with | @hit _ _ decision hcall =>
          have hpost := (h.hit scan position _ sound).returns ih hcall
          cases hcandidate : decision.hasCandidate with
          | true =>
              rw [Phase.heard_candidate hcandidate]
              rw [if_pos hcandidate] at hpost
              exact hpost
          | false =>
              rw [Phase.heard_ignored hcandidate]
              rw [if_neg (by rw [hcandidate]; exact Bool.false_ne_true)] at hpost
              exact hpost
      | boundary scan report before sound settled closes =>
          cases answers with | boundary hcall =>
          have hpost := (h.boundary scan _ report before sound settled closes).returns ih hcall
          exact hpost
      | duplicate scan pointId sound old =>
          cases answers with | evaluation hcall =>
          have hpost := (h.duplicate scan pointId _ sound old).returns ih hcall
          exact hpost
      | access scan pointId sound inside new =>
          cases answers with | access hcall =>
          have hpost := (h.access scan pointId _ sound inside new).returns ih hcall
          exact hpost
      | evaluation scan pointId point distance sound new valid distance_eq =>
          cases answers with | evaluation hcall =>
          have hpost := (h.evaluation scan pointId point _ distance sound new valid distance_eq).returns ih
            hcall
          exact hpost
      | advanced radius bound before waiting round sound settled =>
          cases answers with | advanced hcall =>
          have hpost := (h.advance _ radius bound before waiting round sound settled).returns ih hcall
          exact hpost

end Runs

end Setting

end Qalsh
