/-
  Transcript.lean --- what a search says to its strategy and its accessor.

  Callbacks can be run beside a transcript that gets one line for each call: what was
  asked, what could be seen of the state of the callbacks then, and how the call
  ended.  The search neither reads the transcript nor depends on it.
-/
import Qalsh.AccountRun
import Qalsh.Foundation.Record
import Qalsh.Relation

set_option autoImplicit false

namespace Qalsh

open Foundation

variable {R : Type} {σ α ω : Type}

/-! ## Lines -/

/-- A call of a search to user code. -/
inductive Call (R : Type) where
  | start (query : QueryStart R)
  | next (state : QuerySnapshot R)
  | hit (hit : ProjectionHit) (state : QuerySnapshot R)
  | evaluation (event : EvaluationEvent) (state : QuerySnapshot R)
  | boundary (event : ScanBoundaryEvent R) (state : QuerySnapshot R)
  | advanced (state : QuerySnapshot R)
  | access (pointId : Nat)
  deriving DecidableEq, Repr

/-- How a call ended. -/
inductive Answer where
  | done
  | action (action : StrategyAction)
  | decision (decision : HitDecision)
  | point (point : PointView)
  | threw (error : Error)
  deriving DecidableEq, Repr

/-- One line of a transcript; `seen` is what the callbacks' state showed before the call. -/
structure Line (R ω : Type) where
  call : Call R
  seen : ω
  answer : Answer
  deriving DecidableEq, Repr

abbrev Transcript (R ω : Type) : Type := List (Line R ω)

namespace Line

variable (line : Line R ω)

/-- The hit a line delivers. -/
def hit? : Option ProjectionHit :=
  match line.call with
  | .hit hit _ => some hit
  | _ => none

/-- The point a line of the accessor returns. -/
def point? : Option (Nat × PointView) :=
  match line.call, line.answer with
  | .access pointId, .point point => some (pointId, point)
  | _, _ => none

/-- The candidate a line of the strategy submits. -/
def submission? : Option Nat :=
  match line.answer with
  | .action (.evaluate pointId) => some pointId
  | .decision decision => if decision.hasCandidate then some decision.candidate else none
  | _ => none

/-- The candidate a line reports on. -/
def report? : Option Nat :=
  match line.call with
  | .evaluation event _ => some event.pointId
  | _ => none

def isNext : Bool :=
  match line.call with
  | .next _ => true
  | _ => false

def isAdvance : Bool :=
  match line.call with
  | .advanced _ => true
  | _ => false

end Line

namespace Transcript

variable (lines : Transcript R ω)

/-- The hits delivered, in order. -/
def hits : List ProjectionHit := lines.filterMap Line.hit?

/-- The points the accessor has returned, in order. -/
def points : List (Nat × PointView) := lines.filterMap Line.point?

/-- The candidates submitted, in order and with repetitions. -/
def submissions : List Nat := lines.filterMap Line.submission?

/-- The candidates reported on, in order. -/
def reports : List Nat := lines.filterMap Line.report?

/-- The calls of `next`. -/
def steps : Nat := lines.countP Line.isNext

/-- The radius changes. -/
def advances : Nat := lines.countP Line.isAdvance

section Concat

variable (lines : Transcript R ω) (line : Line R ω)

theorem hits_concat : Transcript.hits (lines ++ [line]) = lines.hits ++ line.hit?.toList := by
  unfold hits
  rw [List.filterMap_append]
  cases h : line.hit? <;> simp [h]

theorem points_concat : Transcript.points (lines ++ [line]) = lines.points ++ line.point?.toList := by
  unfold points
  rw [List.filterMap_append]
  cases h : line.point? <;> simp [h]

theorem submissions_concat :
    Transcript.submissions (lines ++ [line]) = lines.submissions ++ line.submission?.toList := by
  unfold submissions
  rw [List.filterMap_append]
  cases h : line.submission? <;> simp [h]

theorem reports_concat :
    Transcript.reports (lines ++ [line]) = lines.reports ++ line.report?.toList := by
  unfold reports
  rw [List.filterMap_append]
  cases h : line.report? <;> simp [h]

theorem steps_concat :
    Transcript.steps (lines ++ [line]) = lines.steps + if line.isNext then 1 else 0 := by
  unfold steps
  rw [List.countP_append]
  cases h : line.isNext <;> simp [h]

theorem advances_concat :
    Transcript.advances (lines ++ [line]) = lines.advances + if line.isAdvance then 1 else 0 := by
  unfold advances
  rw [List.countP_append]
  cases h : line.isAdvance <;> simp [h]

end Concat

end Transcript

/-! ## Recording -/

/-- The line of a call. -/
def lineOf (observe : σ → ω) (call : Call R) (answer : α → Answer) (s : σ) :
    Except Error α → Line R ω
  | .ok a => ⟨call, observe s, answer a⟩
  | .error e => ⟨call, observe s, .threw e⟩

theorem lineOf_congr {τ : Type} {observe : σ → ω} {observe' : τ → ω} {call : Call R}
    {answer : α → Answer} {s : σ} {t : τ} (h : observe s = observe' t) :
    lineOf observe call answer s = lineOf observe' call answer t := by
  funext outcome
  cases outcome <;> simp only [lineOf, h]

/-- The callbacks beside a transcript. -/
def Callbacks.recorded (observe : σ → ω) (callbacks : Callbacks R σ) :
    Callbacks R (Transcript R ω × σ) where
  strategy :=
    { start := fun query => Foundation.recorded (lineOf observe (.start query) fun _ => .done)
        (callbacks.strategy.start query)
      next := fun state => Foundation.recorded (lineOf observe (.next state) .action)
        (callbacks.strategy.next state)
      onProjectionHit := fun hit state => Foundation.recorded (lineOf observe (.hit hit state) .decision)
        (callbacks.strategy.onProjectionHit hit state)
      onEvaluation := fun event state =>
        Foundation.recorded (lineOf observe (.evaluation event state) fun _ => .done)
          (callbacks.strategy.onEvaluation event state)
      onScanBoundary := fun event state =>
        Foundation.recorded (lineOf observe (.boundary event state) fun _ => .done)
          (callbacks.strategy.onScanBoundary event state)
      onRadiusAdvanced := fun state =>
        Foundation.recorded (lineOf observe (.advanced state) fun _ => .done)
          (callbacks.strategy.onRadiusAdvanced state) }
  accessor pointId := Foundation.recorded (lineOf observe (.access pointId) .point)
    (callbacks.accessor pointId)
  accept hit state := Foundation.recorded (lineOf observe (.hit hit state) .decision)
    (callbacks.accept hit state)

section Confined

variable [Platform] [HasThread R σ] {observe : σ → ω}

/-- What an observer sees has nothing to do with scratch records. -/
def Discreet (observe : σ → ω) : Prop :=
  ∀ s t : σ, Twin s t → observe s = observe t

theorem discreet_fst {δ : Type} : Discreet (Prod.fst : δ × σ → δ) := by
  intro s t htwin
  have hfirst := congrArg Prod.fst htwin.same
  exact hfirst

theorem discreet_unit : Discreet fun _ : σ => () := fun _ _ _ => rfl

theorem recorded_confined (hobserve : Discreet observe) {call : Call R} {answer : α → Answer}
    {x : EStateM Error σ α} (h : Confined x) :
    Confined (Foundation.recorded (lineOf observe call answer) x) := by
  rintro p q ⟨lines, s⟩ ⟨lines', t⟩ hst
  obtain rfl : lines = lines' := hst.first
  have hx := h p q s t hst.second
  have hline : lineOf observe call answer s = lineOf observe call answer t :=
    lineOf_congr (hobserve s t hst.second.twin)
  unfold Foundation.recorded
  dsimp only
  rw [hline]
  cases hxs : x s with
  | ok a s' =>
      cases hxt : x t with
      | ok a' t' =>
          rw [hxs, hxt] at hx
          obtain ⟨rfl, hst'⟩ := hx
          exact ⟨rfl, hst'.pair _⟩
      | error e t' => rw [hxs, hxt] at hx; exact hx.elim
  | error e s' =>
      cases hxt : x t with
      | ok a t' => rw [hxs, hxt] at hx; exact hx.elim
      | error e' t' =>
          rw [hxs, hxt] at hx
          obtain ⟨rfl, hst'⟩ := hx
          exact ⟨rfl, hst'.pair _⟩

theorem Callbacks.Confined.recorded {callbacks : Callbacks R σ} (h : callbacks.Confined)
    (hobserve : Discreet observe) : (callbacks.recorded observe).Confined where
  strategy :=
    { start := fun query => recorded_confined hobserve (h.strategy.start query)
      next := fun state => recorded_confined hobserve (h.strategy.next state)
      onProjectionHit := fun hit state =>
        recorded_confined hobserve (h.strategy.onProjectionHit hit state)
      onEvaluation := fun event state =>
        recorded_confined hobserve (h.strategy.onEvaluation event state)
      onScanBoundary := fun event state =>
        recorded_confined hobserve (h.strategy.onScanBoundary event state)
      onRadiusAdvanced := fun state => recorded_confined hobserve (h.strategy.onRadiusAdvanced state) }
  accessor pointId := recorded_confined hobserve (h.accessor pointId)
  accept hit state := recorded_confined hobserve (h.accept hit state)

end Confined

end Qalsh
