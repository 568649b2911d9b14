/-
  Testimony.lean --- what the transcript of a search tells.

  In every run the lines agree with the account: the hits, the candidates and the
  points they name are those the account lists.  Every search of a session leaves the
  transcript of a run, so what is proved of runs holds of its transcript and of its
  result.
-/
import Qalsh.Run

set_option autoImplicit false

namespace Qalsh

open Foundation

variable {R σ ω : Type}

/-! ## Accounts and transcripts -/

namespace Phase

/-- A candidate that has been submitted and not been reported on yet. -/
def awaiting : Phase → List Nat
  | .acting (.evaluate pointId) => [pointId]
  | .submitted _ pointId => [pointId]
  | .accessed _ pointId _ => [pointId]
  | _ => []

/-- A point that has been accessed and not been evaluated yet. -/
def pending : Phase → List (Nat × PointView)
  | .accessed _ pointId point => [(pointId, point)]
  | _ => []

@[simp] theorem awaiting_after (scan : Option OngoingScan) : (Phase.after scan).awaiting = [] := by
  cases scan <;> rfl

@[simp] theorem pending_after (scan : Option OngoingScan) : (Phase.after scan).pending = [] := by
  cases scan <;> rfl

end Phase

namespace Setting

variable [Platform] (setting : Setting)

/-- The hits of the positions delivered. -/
def hitsOf (delivered : List (Nat × Nat)) : List ProjectionHit :=
  delivered.map fun d => (setting.table d.1).hitAt d.2

/-- The lines agree with the account. -/
structure Records (phase : Phase) (account : Account R) (lines : Transcript R ω) : Prop where
  hits : lines.hits = setting.hitsOf account.delivered
  steps : lines.steps = account.steps
  submissions : lines.submissions = lines.reports ++ phase.awaiting
  reported : ∀ pointId, pointId ∈ lines.reports ↔ pointId ∈ account.evaluatedIds
  points : ∃ seen, lines.points = seen ++ phase.pending ∧
    seen.map Prod.fst = account.evaluatedIds ∧
    KBest nearness setting.k (competitors setting.query setting.metadata.metric seen)
      (account.neighbors setting.k)

variable [RadiusArithmetic R] {setting}

/-! ## One line more -/

section Lines

variable {phase phase' : Phase} {scan : OngoingScan} {account account' : Account R}
  {lines : Transcript R ω} {line : Line R ω}

omit [RadiusArithmetic R] in
/-- A line that delivers nothing and reports on nothing. -/
theorem Records.quiet (h : setting.Records phase account lines) (hhit : line.hit? = none)
    (hpoint : line.point? = none) (hreport : line.report? = none)
    (hdelivered : account'.delivered = account.delivered)
    (hevaluated : account'.evaluated = account.evaluated)
    (hsteps : account'.steps = account.steps + if line.isNext then 1 else 0)
    (hsubmission : phase.awaiting = [] ∧ phase'.awaiting = line.submission?.toList)
    (hpending : phase.pending = [] ∧ phase'.pending = []) :
    setting.Records phase' account' (lines ++ [line]) where
  hits := by rw [Transcript.hits_concat, hhit, hdelivered, h.hits]; exact List.append_nil _
  steps := by rw [Transcript.steps_concat, h.steps, hsteps]
  submissions := by
    rw [Transcript.submissions_concat, Transcript.reports_concat, hreport, h.submissions, hsubmission.1, hsubmission.2]
    simp
  reported pointId := by
    rw [Transcript.reports_concat, hreport]
    unfold Account.evaluatedIds
    rw [hevaluated, Option.toList_none, List.append_nil]
    exact h.reported pointId
  points := by
    obtain ⟨seen, hseen, hids, hnearest⟩ := h.points
    refine ⟨seen, ?_, ?_, ?_⟩
    · rw [Transcript.points_concat, hpoint, hseen, hpending.1, hpending.2]
      simp
    · unfold Account.evaluatedIds
      rw [hevaluated]
      exact hids
    · unfold Account.neighbors
      rw [hevaluated]
      exact hnearest

omit [RadiusArithmetic R] in
/-- A line that delivers a hit. -/
theorem Records.hit (h : setting.Records (.scanning scan) account lines) {state : QuerySnapshot R}
    {position : Nat} {seen : ω} {decision : HitDecision} :
    setting.Records
      (if decision.hasCandidate = true then .submitted (some scan) decision.candidate else .scanning scan)
      (account.deliver scan.tableId position)
      (lines ++ [⟨.hit ((setting.table scan.tableId).hitAt position) state, seen, .decision decision⟩])
    where
  hits := by
    rw [Transcript.hits_concat, h.hits]
    unfold hitsOf Account.deliver
    rw [List.map_append]
    rfl
  steps := by
    rw [Transcript.steps_concat, h.steps]
    rfl
  submissions := by
    rw [Transcript.submissions_concat, Transcript.reports_concat, h.submissions]
    unfold Line.submission?
    cases hdecision : decision.hasCandidate <;> simp [hdecision, Phase.awaiting, Line.report?]
  reported pointId := by
    rw [Transcript.reports_concat]
    exact (List.append_nil _).symm ▸ h.reported pointId
  points := by
    obtain ⟨points, hpoints, hids, hnearest⟩ := h.points
    refine ⟨points, ?_, hids, hnearest⟩
    rw [Transcript.points_concat, hpoints]
    split <;> exact List.append_nil _

omit [RadiusArithmetic R] in
/-- A line of the accessor. -/
theorem Records.access {scan : Option OngoingScan} {pointId : Nat} {point : PointView} {seen : ω}
    (h : setting.Records (.submitted scan pointId) account lines) :
    setting.Records (.accessed scan pointId point) account
      (lines ++ [⟨.access pointId, seen, .point point⟩]) where
  hits := by
    rw [Transcript.hits_concat, h.hits]
    exact List.append_nil _
  steps := by
    rw [Transcript.steps_concat, h.steps]
    rfl
  submissions := by
    rw [Transcript.submissions_concat, Transcript.reports_concat, h.submissions]
    simp [Line.submission?, Line.report?, Phase.awaiting]
  reported id := by
    rw [Transcript.reports_concat]
    simpa [Line.report?] using h.reported id
  points := by
    obtain ⟨points, hpoints, hids, hnearest⟩ := h.points
    refine ⟨points, ?_, hids, hnearest⟩
    rw [Transcript.points_concat, hpoints]
    simp [Line.point?, Phase.pending]

omit [RadiusArithmetic R] in
/-- A line that reports on a candidate evaluated before. -/
theorem Records.duplicate {scan : Option OngoingScan} {event : EvaluationEvent}
    {state : QuerySnapshot R} {seen : ω}
    (h : setting.Records (.submitted scan event.pointId) account lines)
    (hold : event.pointId ∈ account.evaluatedIds) :
    setting.Records (.after scan) account (lines ++ [⟨.evaluation event state, seen, .done⟩]) where
  hits := by
    rw [Transcript.hits_concat, h.hits]
    exact List.append_nil _
  steps := by
    rw [Transcript.steps_concat, h.steps]
    rfl
  submissions := by
    rw [Transcript.submissions_concat, Transcript.reports_concat, h.submissions]
    rw [Phase.awaiting_after]
    rfl
  reported pointId := by
    rw [Transcript.reports_concat, List.mem_append, h.reported pointId]
    simp only [Line.report?, Option.toList_some, List.mem_singleton]
    constructor
    · rintro (hmem | rfl)
      · exact hmem
      · exact hold
    · exact Or.inl
  points := by
    obtain ⟨points, hpoints, hids, hnearest⟩ := h.points
    refine ⟨points, ?_, hids, hnearest⟩
    rw [Transcript.points_concat, hpoints]
    rw [Phase.pending_after, List.append_nil]
    simp [Line.point?, Phase.pending]

omit [RadiusArithmetic R] in
/-- A line that reports on a new candidate. -/
theorem Records.evaluation {scan : Option OngoingScan} (event : EvaluationEvent) {point : PointView}
    {distance : BoundedDistance} {state : QuerySnapshot R} {seen : ω}
    (h : setting.Records (.accessed scan event.pointId point) account lines)
    (hnew : event.pointId ∉ account.evaluatedIds)
    (hdistance : boundedDistanceValueUnchecked point setting.query setting.metadata.metric
      (pruningBound setting.options.boundedDistance setting.k (account.neighbors setting.k)) =
        .ok distance) :
    setting.Records (.after scan) (account.record event.pointId distance)
      (lines ++ [⟨.evaluation event state, seen, .done⟩]) where
  hits := by
    rw [Transcript.hits_concat, h.hits]
    exact List.append_nil _
  steps := by
    rw [Transcript.steps_concat, h.steps]
    rfl
  submissions := by
    rw [Transcript.submissions_concat, Transcript.reports_concat, h.submissions]
    rw [Phase.awaiting_after]
    rfl
  reported pointId := by
    rw [Transcript.reports_concat, List.mem_append, h.reported pointId, Account.evaluatedIds_record,
      List.mem_append]
    rfl
  points := by
    obtain ⟨points, hpoints, hids, hnearest⟩ := h.points
    refine ⟨points ++ [(event.pointId, point)], ?_, ?_, ?_⟩
    · rw [Transcript.points_concat, hpoints, Phase.pending_after, List.append_nil]
      simp [Line.point?, Phase.pending]
    · rw [List.map_append, hids, Account.evaluatedIds_record]
      rfl
    · rw [Account.neighbors_record]
      exact evaluated_nearest setting.k_pos hnearest (hids ▸ hnew) hdistance

end Lines

/-- The lines of a run agree with its account. -/
theorem Runs.records {callbacks : Callbacks R σ} {observe : σ → ω} {origin : σ}
    {lines : Transcript R ω} {phase : Phase} {account : Account R} {s : σ}
    (run : setting.Runs callbacks observe origin lines phase account s) :
    setting.Records phase account lines := by
  induction run with
  | start bound_eq answers => exact ⟨rfl, rfl, rfl, fun _ => Iff.rfl, [], rfl, rfl, KBest.nil⟩
  | scan run sound settled table_lt ih => exact { ih with }
  | evaluate run ih => exact { ih with }
  | call run asks answers ih =>
      cases asks with
      | next sound settled =>
          cases answers with | @next _ action h =>
          exact ih.quiet rfl rfl rfl rfl rfl rfl ⟨rfl, by cases action <;> rfl⟩ ⟨rfl, rfl⟩
      | hit scan position sound =>
          cases answers with | hit h =>
          exact ih.hit
      | boundary scan report before sound settled closes =>
          cases answers with | boundary h =>
          exact ih.quiet rfl rfl rfl rfl rfl rfl ⟨rfl, rfl⟩ ⟨rfl, rfl⟩
      | duplicate scan pointId sound old =>
          cases answers with | evaluation h =>
          exact ih.duplicate old
      | access scan pointId sound inside new =>
          cases answers with | access h =>
          exact ih.access
      | evaluation scan pointId point distance sound new valid distance_eq =>
          cases answers with | evaluation h =>
          exact Records.evaluation
            { pointId := pointId
              status := .evaluated
              exactDistance := distance.exact
              distance := distance.distance } ih new distance_eq
      | advanced radius bound before waiting round sound settled =>
          cases answers with | advanced h =>
          exact ih.quiet rfl rfl rfl rfl rfl rfl ⟨rfl, rfl⟩ ⟨rfl, rfl⟩

end Setting

/-! ## Recorded searches -/

section Searches

variable [RadiusArithmetic R]

/-- The outcome of a computation, by how it ends. -/
def Concludes {α : Type} (Q : α → σ → Prop) (E : Error → σ → Prop) : EStateM.Result Error σ α → Prop
  | .ok a s => Q a s
  | .error e s => E e s

namespace Backing

variable [Platform] {object : IndexObject} {content : Tables object.index.metadata.numPoints}
  (b : Backing R object.index content)

/-- What a search over the tables of an index is about, once it has been set up. -/
def Poses (options : SearchOptions) (query : PointView) (k : Nat) (setting : Setting) : Prop :=
  ∃ (plan : QueryPlan) (hplan : planQuery object options query k = .ok plan)
    (hfinite : ∀ tableId, ((plan.projections object query).getD tableId Binary32.zero).isFinite = true),
    setting = b.setting hplan hfinite

variable {b} {options : SearchOptions} {query : PointView} {k : Nat} {callbacks : Callbacks R σ}
  {observe : σ → ω} {J : Setting → Phase → Account R → σ → Prop} {E : Error → σ → Prop} {P : σ → Prop}

omit [RadiusArithmetic R] [Platform] in
theorem engineError_of_requireFinite {value : Binary32} {name : String} {e : Error}
    (hname : name.toList.head? ≠ some 's') (hnonempty : name.toList ≠ [])
    (h : requireFinite value name = .error e) : EngineError e := by
  refine .of_require (fun heq => ?_) h
  have hfirst := congrArg (fun message => message.toList.head?) heq
  simp only [String.toList_append] at hfirst
  rw [List.head?_append_of_ne_nil _ hnonempty] at hfirst
  exact hname (hfirst.trans (by decide))

omit [RadiusArithmetic R] [Platform] in
theorem engineError_of_forM {α : Type} {f : α → Except Error Unit} {items : List α} {e : Error}
    (hf : ∀ a, f a = .error e → EngineError e) (h : items.forM f = .error e) : EngineError e := by
  induction items with
  | nil => cases h
  | cons a rest ih =>
      have h : (f a >>= fun _ => rest.forM f) = .error e := h
      exact .of_bind h (hf a) fun _ hrest => ih hrest

omit [RadiusArithmetic R] [Platform] in
/-- Checks made one after the other, of which the first that fails is reported. -/
theorem forM_checks {τ : Type} {α : Type} {f : α → Except Error Unit} {P : τ → Prop} (items : List α) :
    Triple P (items.forM fun a => liftResult (f a)) (fun _ s => (∀ a ∈ items, f a = .ok ()) ∧ P s)
      (fun e s => (∃ a ∈ items, f a = .error e) ∧ P s) := by
  induction items with
  | nil => exact Triple.pure fun s hs => ⟨fun _ h => (nomatch h), hs⟩
  | cons a rest ih =>
      refine Triple.bind (M := fun _ s => f a = .ok () ∧ P s)
        (Triple.liftResult (fun _ hok s hs => ⟨hok, hs⟩) fun e herr s hs =>
          ⟨⟨a, List.mem_cons_self, herr⟩, hs⟩) fun _ => Triple.assume fun hfirst => ?_
      refine ih.consequence (fun _ hs => hs) (fun _ s hs => ⟨?_, hs.2⟩) fun e s hs => ⟨?_, hs.2⟩
      · exact List.forall_mem_cons.mpr ⟨hfirst, hs.1⟩
      · obtain ⟨b, hb, herr⟩ := hs.1
        exact ⟨b, List.mem_cons_of_mem _ hb, herr⟩

omit [RadiusArithmetic R] [Platform] in
theorem engineError_of_checkedSize {value : Nat} {description : String} {e : Error}
    (hdescription : description ≠ "scan bound cannot decrease for an existing cursor")
    (h : checkedSize value description = .error e) : EngineError e := by
  unfold checkedSize at h
  exact .of_bind h (.of_require hdescription) fun _ h => nomatch h

omit [RadiusArithmetic R] [Platform] in
theorem engineError_of_planQuery {e : Error} (h : planQuery object options query k = .error e) :
    EngineError e := by
  unfold planQuery at h
  refine .of_bind h (.of_require (by decide)) fun _ h => ?_
  refine .of_bind h (.of_require (by decide)) fun _ h => ?_
  refine .of_bind h (.of_require (by decide)) fun _ h => ?_
  refine .of_bind h (.of_require (by decide)) fun _ h => ?_
  refine .of_bind h (engineError_of_forM fun _ h =>
    engineError_of_requireFinite (by decide) (by decide) h) fun _ h => ?_
  refine .of_bind h (.of_require (by decide)) fun _ h => ?_
  refine .of_bind h (.of_require (by decide)) fun _ h => ?_
  refine .of_bind h (.of_checkedMultiply (by decide)) fun _ h => ?_
  refine .of_bind h (engineError_of_checkedSize (by decide)) fun _ h => ?_
  exact .of_bind h (.of_require (by decide)) fun _ h => nomatch h

/-- The invariant rule of a search over the tables of an index. -/
theorem search_keeps {J : Setting → Phase → Account R → σ → Prop} {E : Setting → Error → σ → Prop}
    (hkeeps : ∀ setting, b.Poses options query k setting →
      setting.Keeps callbacks.strategy callbacks.accessor callbacks.accept (J setting) (E setting))
    (hstart : ∀ setting bound, b.Poses options query k setting →
      windowBound setting.metadata.qalsh.bucketWidth
        (RadiusArithmetic.ofFloat setting.metadata.qalsh.initialRadius) = .ok bound →
      Triple P (callbacks.strategy.start (queryStart setting.metadata setting.tableCount setting.k
          (RadiusArithmetic.ofFloat setting.metadata.qalsh.initialRadius)))
        (fun _ => J setting .ready (setting.initial bound)) (E setting)) :
    Triple P (b.search options query k callbacks.strategy callbacks.accessor callbacks.accept)
      (fun result s => ∃ setting, b.Poses options query k setting ∧ ∃ limit account reason,
        setting.Returns (J setting) result s limit account reason)
      (fun e s => EngineError e ∧ P s ∨ ∃ setting, b.Poses options query k setting ∧ E setting e s) := by
  cases hplan : planQuery object options query k with
  | error e =>
      rw [b.search_error hplan]
      exact Triple.throw fun s hs => Or.inl ⟨engineError_of_planQuery hplan, hs⟩
  | ok plan =>
      rw [b.search_planned hplan]
      unfold searchPlanned
      refine Triple.bind (M := fun (bound : R) s => windowBound object.metadata.qalsh.bucketWidth
          (RadiusArithmetic.ofFloat object.metadata.qalsh.initialRadius) = .ok bound ∧ P s)
        (Triple.liftResult (fun _ hok s hs => ⟨hok, hs⟩) fun e herr s hs =>
          Or.inl ⟨EngineError.of_windowBound herr, hs⟩) fun bound => Triple.assume fun hbound => ?_
      refine Triple.bind ((forM_checks (List.range plan.tableCount)).consequence
        (fun _ hs => hs) (fun _ _ hs => hs) fun e s hs => ?_) fun _ => Triple.assume fun hchecks => ?_
      · obtain ⟨tableId, -, herr⟩ := hs.1
        exact Or.inl ⟨engineError_of_requireFinite (by decide) (by decide) herr, hs.2⟩
      · split
        · rename_i hall
          have hfinite := plan.finite_projections hall
          have hposes : b.Poses options query k (b.setting hplan hfinite) := ⟨plan, hplan, hfinite, rfl⟩
          exact ((hkeeps _ hposes).searchFrom hbound (hstart _ bound hposes hbound)).consequence
            (fun _ hs => hs) (fun result s hs => ⟨_, hposes, hs⟩) fun e s hs => Or.inr ⟨_, hposes, hs⟩
        · rename_i hnone
          -- the loop has checked all of them
          refine absurd (fun tableId htable => ?_) hnone
          exact require_eq_ok.mp (hchecks tableId (List.mem_range.mpr htable))

variable (options query k) in
/-- A search with recorded callbacks makes a run. -/
theorem search_recorded (observe : σ → ω) (callbacks : Callbacks R σ) (origin : σ) :
    Triple (fun u => u = ([], origin))
      (b.search options query k (callbacks.recorded observe).strategy
        (callbacks.recorded observe).accessor (callbacks.recorded observe).accept)
      (fun result u => ∃ setting, b.Poses options query k setting ∧ ∃ limit account reason,
        setting.Returns (fun phase account u =>
          setting.Runs callbacks observe origin u.1 phase account u.2) result u limit account reason)
      (fun e u => EngineError e ∧ u = ([], origin) ∨ ∃ setting, b.Poses options query k setting ∧
        setting.Stops callbacks observe origin e u.1) := by
  apply search_keeps (fun setting _ => Setting.Keeps.of_runs)
  rintro setting bound - hbound _ rfl
  unfold Callbacks.recorded recorded
  dsimp only
  cases hcall : callbacks.strategy.start (queryStart setting.metadata setting.tableCount setting.k
      (RadiusArithmetic.ofFloat setting.metadata.qalsh.initialRadius)) origin with
  | ok a s => exact .start hbound (.start hcall)
  | error e s => exact .opening

end Backing

omit [RadiusArithmetic R] in
/-- Recorded callbacks answer as the callbacks do. -/
theorem Callbacks.recorded_related (observe : σ → ω) (callbacks : Callbacks R σ) (points : Nat) :
    Callbacks.Related points (fun (u : Transcript R ω × σ) s => u.2 = s) (fun u s => u.2 = s)
      (callbacks.recorded observe) callbacks where
  unwind _ _ h := h
  next _ := recorded_agrees
  onEvaluation _ _ := recorded_agrees
  onScanBoundary _ _ := recorded_agrees
  onRadiusAdvanced _ := recorded_agrees
  accessor _ := recorded_agrees
  accept _ _ _ := recorded_agrees

/-- Recording changes nothing. -/
theorem Backing.search_unrecorded [Platform] {object : IndexObject}
    {content : Tables object.index.metadata.numPoints} (b : Backing R object.index content)
    (observe : σ → ω) (callbacks : Callbacks R σ) (options : SearchOptions) (query : PointView)
    (k : Nat) :
    Simulates (fun (u : Transcript R ω × σ) s => u.2 = s)
      (b.search options query k (callbacks.recorded observe).strategy
        (callbacks.recorded observe).accessor (callbacks.recorded observe).accept)
      (b.search options query k callbacks.strategy callbacks.accessor callbacks.accept)
      (fun result result' u s => result = result' ∧ u.2 = s) (fun u s => u.2 = s) := by
  refine b.search_related (callbacks.recorded_related observe _) (fun _ _ h => h) fun _ _ _ => ?_
  exact recorded_agrees.consequence (fun _ _ h => h) (fun _ _ _ _ h => h.2) fun _ _ h => h

/-- A search ends when no candidate is left to be reported on. -/
theorem Setting.Returns.kept {setting : Setting}
    {J : Phase → Account R → σ → Prop} {result : SearchResult} {s : σ} {limit : Nat}
    {account : Account R} {reason : Option TerminationReason}
    (h : setting.Returns J result s limit account reason) :
    ∃ phase : Phase, phase.awaiting = [] ∧ phase.pending = [] ∧ J phase account s := by
  have hended := h.ended
  cases reason with
  | none => exact ⟨.ready, rfl, rfl, hended.2⟩
  | some reason =>
      cases reason with
      | strategy => exact ⟨.acting .finish, rfl, rfl, hended.2⟩
      | scanExhausted => exact ⟨.acting .finish, rfl, rfl, hended.2⟩
      | invalidStrategyAction =>
          obtain ⟨code, hj⟩ := hended
          exact ⟨.acting (.invalid code), rfl, rfl, hj⟩
      | stepLimit => exact hended.elim

namespace Session

variable [Platform] [HasThread R σ] {session : Session R} {callbacks : Callbacks R σ}
  {observe : σ → ω} {options : SearchOptions} {query : PointView} {k : Nat}

variable (session) in
/-- What a search says to its callbacks, until it returns or throws. -/
def transcript (observe : σ → ω) (callbacks : Callbacks R σ) (options : SearchOptions)
    (query : PointView) (k : Nat) (s : σ) : Transcript R ω :=
  (outcomeState (session.search (callbacks.recorded observe) options query k ([], s))).1

/-- What is known of a recorded search over the tables holds of the search of a session,
whichever driver delivers its hits, and of its transcript. -/
theorem transcript_tells {content : Tables session.object.index.metadata.numPoints}
    (b : Backing R session.object.index content) (hconfined : callbacks.Confined)
    (hobserve : Discreet observe) {driver : RangeDriver R σ}
    (hdelivers : driver.Delivers callbacks.accept) {s : σ} (hs : threadOf s = session.thread)
    {Q : SearchResult → Transcript R ω → Prop} {F : Error → Transcript R ω → Prop}
    (h : Concludes (fun result u => Q result u.1) (fun e u => F e u.1)
      (b.search options query k (callbacks.recorded observe).strategy
        (callbacks.recorded observe).accessor (callbacks.recorded observe).accept ([], s))) :
    (∀ result s', session.searchBy driver callbacks options query k s = .ok result s' →
      Q result (session.transcript observe callbacks options query k s)) ∧
    ∀ e s', session.searchBy driver callbacks options query k s = .error e s' →
      F e (session.transcript observe callbacks options query k s) := by
  have hrecorded := session.search_twinned (hconfined.recorded hobserve) b options query k
    (s := (([] : Transcript R ω), s)) hs
  have hplain := session.searchBy_twinned hconfined hdelivers b options query k hs
  have hsame := b.search_unrecorded observe callbacks options query k ([], s) s rfl
  unfold transcript
  generalize session.search (callbacks.recorded observe) options query k ([], s) = x at hrecorded ⊢
  generalize b.search options query k (callbacks.recorded observe).strategy
    (callbacks.recorded observe).accessor (callbacks.recorded observe).accept ([], s) = y
    at h hrecorded hsame
  generalize b.search options query k callbacks.strategy callbacks.accessor callbacks.accept s = z
    at hplain hsame
  generalize session.searchBy driver callbacks options query k s = w at hplain ⊢
  have hlines : ∀ {u v : Transcript R ω × σ}, Twin u v → u.1 = v.1 := fun htwin => by
    have hfirst := congrArg Prod.fst htwin.same
    exact hfirst
  cases y with
  | ok result u =>
      cases x with
      | error e v => exact hrecorded.elim
      | ok result' v =>
          cases z with
          | error e t => exact hsame.elim
          | ok result'' t =>
              cases w with
              | error e t' => exact hplain.elim
              | ok result''' t' =>
                  obtain ⟨rfl, htwin⟩ := hrecorded
                  obtain ⟨rfl, -⟩ := hsame
                  obtain ⟨rfl, -⟩ := hplain
                  refine ⟨fun _ _ heq => ?_, fun _ _ heq => nomatch heq⟩
                  cases heq
                  show Q _ v.1
                  rw [hlines htwin]
                  exact h
  | error e u =>
      cases x with
      | ok result v => exact hrecorded.elim
      | error e' v =>
          cases z with
          | ok result t => exact hsame.elim
          | error e'' t =>
              cases w with
              | ok result t' => exact hplain.elim
              | error e''' t' =>
                  obtain ⟨rfl, htwin⟩ := hrecorded
                  obtain ⟨rfl, -⟩ := hsame
                  obtain ⟨rfl, -⟩ := hplain
                  refine ⟨fun _ _ heq => (nomatch heq), fun _ _ heq => ?_⟩
                  cases heq
                  show F _ v.1
                  rw [hlines htwin]
                  exact h

variable (session) in
/-- What a search is about once it has been set up: the tables of the index around the
projections of the query. -/
def Poses (options : SearchOptions) (query : PointView) (k : Nat) (setting : Setting) : Prop :=
  ∃ (content : Tables session.object.index.metadata.numPoints)
    (b : Backing R session.object.index content), b.Poses options query k setting

/-- The transcript of a search is that of a run; what the search throws is an error of its setup
or stops the run. -/
theorem search_runs (hconfined : callbacks.Confined) (hobserve : Discreet observe)
    {driver : RangeDriver R σ} (hdelivers : driver.Delivers callbacks.accept)
    (options : SearchOptions) (query : PointView) (k : Nat) {s : σ} (hs : threadOf s = session.thread) :
    (∀ result s', session.searchBy driver callbacks options query k s = .ok result s' →
      ∃ setting, session.Poses options query k setting ∧ ∃ (t : σ) (limit : Nat) (account : Account R)
        (reason : Option TerminationReason),
        setting.Returns (fun phase account u =>
          setting.Runs callbacks observe s u.1 phase account u.2) result
          (session.transcript observe callbacks options query k s, t) limit account reason) ∧
    ∀ e s', session.searchBy driver callbacks options query k s = .error e s' →
      session.transcript observe callbacks options query k s = [] ∧ EngineError e ∨
        ∃ setting, session.Poses options query k setting ∧
          setting.Stops callbacks observe s e (session.transcript observe callbacks options query k s) := by
  obtain ⟨content, ⟨b⟩⟩ := session.backed
  have hsearch := b.search_recorded options query k observe callbacks s
    ([], s) rfl
  apply transcript_tells b hconfined hobserve hdelivers hs (Q := fun result lines =>
    ∃ setting, session.Poses options query k setting ∧ ∃ (t : σ) (limit : Nat) (account : Account R)
      (reason : Option TerminationReason), setting.Returns (fun phase account u =>
        setting.Runs callbacks observe s u.1 phase account u.2) result (lines, t) limit account reason)
    (F := fun e lines => lines = [] ∧ EngineError e ∨
      ∃ setting, session.Poses options query k setting ∧ setting.Stops callbacks observe s e lines)
  generalize b.search options query k (callbacks.recorded observe).strategy
    (callbacks.recorded observe).accessor (callbacks.recorded observe).accept ([], s) = outcome at hsearch ⊢
  cases outcome with
  | ok result u =>
      obtain ⟨setting, hposes, limit, account, reason, hreturns⟩ := hsearch
      exact ⟨setting, ⟨content, b, hposes⟩, u.2, limit, account, reason, hreturns⟩
  | error e u =>
      rcases hsearch with ⟨he, hnone⟩ | ⟨setting, hposes, hstops⟩
      · exact Or.inl ⟨congrArg Prod.fst hnone, he⟩
      · exact Or.inr ⟨setting, ⟨content, b, hposes⟩, hstops⟩

/-- What holds of each line of a run holds of each line of a search. -/
theorem search_throughout (hconfined : callbacks.Confined)
    (hobserve : Discreet observe)
    {driver : RangeDriver R σ} (hdelivers : driver.Delivers callbacks.accept)
    (options : SearchOptions) (query : PointView) (k : Nat) {s : σ} (hs : threadOf s = session.thread)
    {P : Setting → Transcript R ω → Line R ω → Prop}
    (h : ∀ setting before line, session.Poses options query k setting →
      setting.Moment callbacks observe s before line → P setting before line) :
    session.transcript observe callbacks options query k s = [] ∨
      ∃ setting, session.Poses options query k setting ∧
        Throughout (P setting) (session.transcript observe callbacks options query k s) := by
  obtain ⟨hok, herror⟩ := search_runs hconfined hobserve hdelivers options query k hs
  cases houtcome : session.searchBy driver callbacks options query k s with
  | ok result s' =>
      obtain ⟨setting, hposes, t, limit, account, reason, hreturns⟩ := hok result s' houtcome
      obtain ⟨phase, -, -, run⟩ := hreturns.kept
      exact Or.inr ⟨setting, hposes, run.moments.mono fun before line => h setting before line hposes⟩
  | error e s' =>
      rcases herror e s' houtcome with ⟨hnone, -⟩ | ⟨setting, hposes, hstops⟩
      · exact Or.inl hnone
      · exact Or.inr ⟨setting, hposes, hstops.moments.mono fun before line => h setting before line hposes⟩

end Session

end Searches

end Qalsh
