/-
  Stop.lean --- nothing is done after the decision to finish.

  The default strategy keeps its decision in a flag.  Once the flag is set no candidate
  is submitted, the scan in progress still delivers its share, and the next action is
  the last.  The standard rule decides with the evaluation that exhausts the budget, so
  no more points are evaluated than that.
-/
import Qalsh.Collisions

set_option autoImplicit false

namespace Qalsh

open Foundation

variable {R σ ω : Type}

/-! ## What the flag allows -/

/-- What can be going on in a default search while the finish flag has a value. -/
def Phase.Allows : Phase → Bool → Prop
  | .ready, _ => True
  | .scanning scan, _ => scan.scope = .quantum
  | .acting .finish, finish => finish = true
  | .acting .advanceRadius, finish => finish = false
  | .acting (.scan _ scope), finish => scope = .quantum ∧ finish = false
  | .submitted (some scan) _, finish => scan.scope = .quantum ∧ finish = false
  | .accessed (some scan) _ _, finish => scan.scope = .quantum ∧ finish = false
  | _, _ => False

/-- The scan of a phase. -/
def Phase.scan? : Phase → Option OngoingScan
  | .scanning scan => some scan
  | .submitted scan _ => scan
  | .accessed scan _ _ => scan
  | _ => none

theorem Phase.scan?_after (scan : Option OngoingScan) : (Phase.after scan).scan? = scan := by
  cases scan <;> rfl

/-- The hits before the last call of `next`. -/
def Transcript.hitsBeforeScan (lines : Transcript R ω) : Nat :=
  ((lines.reverse.dropWhile fun line => !line.isNext).filterMap Line.hit?).length

theorem Transcript.hitsBeforeScan_concat (lines : Transcript R ω) (line : Line R ω) :
    Transcript.hitsBeforeScan (lines ++ [line]) =
      if line.isNext then lines.hits.length else lines.hitsBeforeScan := by
  unfold hitsBeforeScan
  rw [List.reverse_append, List.reverse_singleton, List.singleton_append, List.dropWhile_cons]
  cases hnext : line.isNext with
  | false => rfl
  | true =>
      have hhit : line.hit? = none := by
        unfold Line.isNext at hnext
        unfold Line.hit?
        split at hnext
        · rename_i hcall
          rw [hcall]
        · cases hnext
      rw [if_neg (by decide), if_pos rfl, List.filterMap_cons_none hhit, List.filterMap_reverse,
        List.length_reverse]
      rfl

/-! ## Termination rules -/

section Rules

variable {ν : Type}

/-- What can be seen of a default strategy and the rest of the state. -/
def beside (view : ω → ν) (s : WithDefault R ω) : DefaultState R × ν := (s.1, view s.2)

/-- The termination rule answers by what can be seen. -/
def DefaultOptions.Decides [RadiusArithmetic R] (options : DefaultOptions R ω) (view : ω → ν)
    (holds : QuerySnapshot R → DefaultState R → ν → Bool) : Prop :=
  ∀ {state s stop s'}, options.shouldTerminate state s = .ok stop s' → stop = holds state s.1 (view s.2)

/-- The standard rule reads the members only. -/
theorem DefaultOptions.decides_standard [RadiusArithmetic R] {options : DefaultOptions R ω}
    (hrule : options.terminationRule = none) :
    options.Decides (fun _ => ()) fun state self _ => standardTermination self state :=
  fun h => ((shouldTerminate_spec h).2.standard hrule).symm

/-- An evaluation after which the termination rule holds. -/
def Line.decides (holds : QuerySnapshot R → DefaultState R → ν → Bool)
    (line : Line R (DefaultState R × ν)) : Bool :=
  match line.call with
  | .evaluation _ state => holds state line.seen.1 line.seen.2
  | _ => false

end Rules

namespace Setting

section Runs

variable [Platform] [RadiusArithmetic R] {setting : Setting} {phase : Phase} {account : Account R}

/-- After `finish` no call is made, and a scan knows how many hits there were before it. -/
theorem Runs.paced {callbacks : Callbacks R σ} {observe : σ → ω} {origin s : σ} {lines : Transcript R ω}
    (run : setting.Runs callbacks observe origin lines phase account s) :
    (phase ≠ .acting .finish → ∀ line ∈ lines, line.answer ≠ .action .finish) ∧
      (∀ scan ∈ phase.scan?, scan.start = lines.hitsBeforeScan) ∧
      ∀ action, phase = .acting action → lines.hitsBeforeScan = account.delivered.length := by
  -- a call that is not `next` keeps the count
  have hcount : ∀ {lines : Transcript R ω} {line : Line R ω}, line.isNext = false →
      Transcript.hitsBeforeScan (lines ++ [line]) = lines.hitsBeforeScan := by
    intro lines line hnext
    rw [Transcript.hitsBeforeScan_concat, hnext, if_neg Bool.false_ne_true]
  have hanswers : ∀ {lines : Transcript R ω} {line : Line R ω},
      (∀ earlier ∈ lines, earlier.answer ≠ .action .finish) → line.answer ≠ .action .finish →
      ∀ earlier ∈ lines ++ [line], earlier.answer ≠ .action .finish := by
    intro lines line hlines hline earlier hmem
    rcases List.mem_append.mp hmem with hmem | hmem
    · exact hlines earlier hmem
    · rw [List.mem_singleton.mp hmem]
      exact hline
  induction run with
  | start bound_eq answers =>
      refine ⟨fun _ line hmem => ?_, nofun, nofun⟩
      rw [List.mem_singleton.mp hmem]
      exact nofun
  | scan run sound settled table_lt ih =>
      refine ⟨fun _ => ih.1 nofun, fun scan hscan => ?_, nofun⟩
      rw [← Option.some.inj hscan]
      exact (ih.2.2 _ rfl).symm
  | evaluate run ih => exact ⟨fun _ => ih.1 nofun, nofun, nofun⟩
  | @call lines phase account account' s s' call answer run asks answers ih =>
      cases asks with
      | next sound settled =>
          cases answers with | @next _ action h =>
          refine ⟨fun hphase => hanswers (ih.1 nofun) fun hanswer => ?_, nofun, fun _ _ => ?_⟩
          · exact hphase (congrArg Phase.acting (Answer.action.inj hanswer))
          · rw [Transcript.hitsBeforeScan_concat, run.records.hits]
            exact List.length_map ..
      | hit scan position sound =>
          cases answers with | @hit _ _ decision h =>
          have hscan : ((Phase.scanning scan).heard (.decision decision)).scan? = some scan := by
            unfold Phase.heard
            dsimp only
            split <;> rfl
          refine ⟨fun _ => hanswers (ih.1 nofun) nofun, fun other hother => ?_, fun action hphase => ?_⟩
          · rw [hscan] at hother
            rw [hcount rfl, ← Option.some.inj hother]
            exact ih.2.1 scan rfl
          · rw [hphase] at hscan
            cases hscan
      | boundary scan report before sound settled closes =>
          cases answers with | boundary h =>
          exact ⟨fun _ => hanswers (ih.1 nofun) nofun, nofun, nofun⟩
      | duplicate scan pointId sound old =>
          cases answers with | evaluation h =>
          refine ⟨fun _ => hanswers (ih.1 nofun) nofun, fun other hother => ?_, fun action hphase => ?_⟩
          · rw [hcount rfl]
            exact ih.2.1 other (Phase.scan?_after scan ▸ hother)
          · cases scan <;> cases hphase
      | access scan pointId sound inside new =>
          cases answers with | access h =>
          refine ⟨fun _ => hanswers (ih.1 nofun) nofun, fun other hother => ?_, nofun⟩
          rw [hcount rfl]
          exact ih.2.1 other hother
      | evaluation scan pointId point distance sound new valid distance_eq =>
          cases answers with | evaluation h =>
          refine ⟨fun _ => hanswers (ih.1 nofun) nofun, fun other hother => ?_, fun action hphase => ?_⟩
          · rw [hcount rfl]
            exact ih.2.1 other (Phase.scan?_after scan ▸ hother)
          · cases scan <;> cases hphase
      | advanced radius bound before waiting round sound settled =>
          cases answers with | advanced h =>
          exact ⟨fun _ => hanswers (ih.1 nofun) nofun, nofun, nofun⟩

/-! ## What a default search keeps -/

variable {options : DefaultOptions R ω} {callbacks : Callbacks R (WithDefault R ω)}
  {observe : WithDefault R ω → σ} {origin s s' : WithDefault R ω} {lines : Transcript R σ}
  {account' : Account R} {call : Call R} {answer : Answer}

theorem Asks.not_start (h : setting.Asks phase account call account')
    (query : QueryStart R) : call ≠ .start query := by
  cases h <;> exact nofun

/-- What no call but `start` changes. -/
structure Lasts (old new : DefaultState R) : Prop where
  query : new.query = old.query
  threshold : new.activeCollisionThreshold = old.activeCollisionThreshold
  budget : new.activeCandidateBudget = old.activeCandidateBudget
  finish : old.finishRequested = true → new.finishRequested = true

omit [Platform] in
theorem Lasts.of_answers (hdefault : callbacks.Default options)
    (answers : callbacks.Answers s s' call answer) (hcall : ∀ query, call ≠ .start query) :
    Lasts s.1 s'.1 := by
  cases answers with
  | start h => exact absurd rfl (hcall _)
  | next h =>
      have hstep := hdefault.next h
      generalize s'.1 = self' at hstep
      cases hstep with
      | finished finish => exact ⟨rfl, rfl, rfl, id⟩
      | stopped going check ruled => exact ⟨rfl, rfl, rfl, fun _ => rfl⟩
      | exhausted going empty all => exact ⟨rfl, rfl, rfl, fun _ => rfl⟩
      | scans going pending => exact ⟨rfl, rfl, rfl, id⟩
      | advances going empty some ruled => exact ⟨rfl, rfl, rfl, id⟩
  | hit h =>
      rw [(hdefault.accepts h).members]
      exact ⟨rfl, rfl, rfl, id⟩
  | evaluation h =>
      have hmay := (hdefault.evaluation h).1
      exact ⟨by rw [hmay.members], by rw [hmay.members], by rw [hmay.members], hmay.kept⟩
  | boundary h =>
      obtain ⟨schedule, -, hmay⟩ := hdefault.boundary h
      exact ⟨by rw [hmay.members], by rw [hmay.members], by rw [hmay.members], hmay.kept⟩
  | advanced h =>
      rw [hdefault.advanced h]
      exact ⟨rfl, rfl, rfl, id⟩
  | access h =>
      rw [hdefault.accessor h]
      exact ⟨rfl, rfl, rfl, id⟩

/-- What `start` has set lasts. -/
theorem Runs.configured (hdefault : callbacks.Default options)
    (run : setting.Runs callbacks observe origin lines phase account s) :
    s.1.query = setting.startQuery R ∧
      s.1.activeCollisionThreshold = options.activeThreshold (setting.startQuery R) ∧
      s.1.activeCandidateBudget = options.activeBudget (setting.startQuery R) := by
  induction run with
  | start bound_eq answers =>
      cases answers with | start h =>
      rw [(hdefault.start h).1]
      exact ⟨rfl, rfl, rfl⟩
  | scan run sound settled table_lt ih => exact ih
  | evaluate run ih => exact ih
  | call run asks answers ih =>
      have hlasts := Lasts.of_answers hdefault answers asks.not_start
      exact ⟨hlasts.query.trans ih.1, hlasts.threshold.trans ih.2.1, hlasts.budget.trans ih.2.2⟩

/-- What is going on in a default search is what the flag allows. -/
theorem Runs.allowed (hdefault : callbacks.Default options)
    (run : setting.Runs callbacks observe origin lines phase account s) :
    phase.Allows s.1.finishRequested := by
  induction run with
  | start bound_eq answers => exact trivial
  | scan run sound settled table_lt ih => exact ih.1
  | evaluate run ih => exact ih.elim
  | @call lines phase account account' s s' call answer run asks answers ih =>
      cases asks with
      | next sound settled =>
          cases answers with | next h =>
          have hstep := hdefault.next h
          generalize s'.1 = self' at hstep
          cases hstep with
          | finished finish => exact finish
          | stopped going check ruled => exact rfl
          | exhausted going empty all => exact rfl
          | scans going pending => exact ⟨rfl, going⟩
          | advances going empty some ruled => exact going
      | hit scan position sound =>
          cases answers with | @hit _ _ decision h =>
          have haccepts := hdefault.accepts h
          have hscope : scan.scope = .quantum := ih
          cases hcandidate : decision.hasCandidate with
          | false =>
              rw [Phase.heard_ignored hcandidate]
              exact hscope
          | true =>
              rw [Phase.heard_candidate hcandidate, haccepts.members]
              refine ⟨hscope, Bool.eq_false_iff.mpr fun hfinish => ?_⟩
              rw [haccepts.finished hfinish] at hcandidate
              exact Bool.false_ne_true hcandidate
      | boundary scan report before sound settled closes =>
          cases answers with | boundary h =>
          exact trivial
      | duplicate scan pointId sound old =>
          cases answers with | evaluation h =>
          cases scan with
          | none => exact ih.elim
          | some scan => exact ih.1
      | access scan pointId sound inside new =>
          cases answers with | access h =>
          rw [hdefault.accessor h]
          cases scan with
          | none => exact ih.elim
          | some scan => exact ih
      | evaluation scan pointId point distance sound new valid distance_eq =>
          cases answers with | evaluation h =>
          cases scan with
          | none => exact ih.elim
          | some scan => exact ih.1
      | advanced radius bound before waiting round sound settled =>
          cases answers with | advanced h =>
          exact trivial

end Runs

/-! ## The decision -/

section Decision

variable [Platform] [RadiusArithmetic R] {setting : Setting} {phase : Phase} {account : Account R}
  {options : DefaultOptions R ω} {callbacks : Callbacks R (WithDefault R ω)} {ν : Type} {view : ω → ν}
  {holds : QuerySnapshot R → DefaultState R → ν → Bool} {origin s : WithDefault R ω}

/-- Once the rule has held after an evaluation the flag is set. -/
theorem Runs.decided (hdefault : callbacks.Default options) (hcheck : options.checkAfterEvaluation = true)
    (hholds : options.Decides view holds) {lines : Transcript R (DefaultState R × ν)}
    (run : setting.Runs callbacks (beside view) origin lines phase account s) :
    ∀ line ∈ lines, line.decides holds = true → s.1.finishRequested = true := by
  induction run with
  | start bound_eq answers =>
      intro line hmem hdecides
      rw [List.mem_singleton.mp hmem] at hdecides
      cases hdecides
  | scan run sound settled table_lt ih => exact ih
  | evaluate run ih => exact ih
  | call run asks answers ih =>
      intro line hmem hdecides
      rcases List.mem_append.mp hmem with hmem | hmem
      · exact (Lasts.of_answers hdefault answers asks.not_start).finish (ih line hmem hdecides)
      · rw [List.mem_singleton.mp hmem] at hdecides
        cases answers with
        | evaluation h =>
            obtain ⟨stop, t, hrule, hraised⟩ := (hdefault.evaluation h).2 hcheck
            exact hraised ((hholds hrule).trans hdecides)
        | start => cases hdecides
        | next => cases hdecides
        | hit => cases hdecides
        | boundary => cases hdecides
        | advanced => cases hdecides
        | access => cases hdecides

/-- The standard rule keeps the evaluations within the budget. -/
theorem Runs.within {observe : WithDefault R ω → σ} {lines : Transcript R σ}
    (hdefault : callbacks.Default options) (hcheck : options.checkAfterEvaluation = true)
    (hrule : options.terminationRule = none)
    (run : setting.Runs callbacks observe origin lines phase account s) {budget : Nat}
    (hbudget : options.activeBudget (setting.startQuery R) = some budget) (hpos : 0 < budget) :
    account.evaluated.length ≤ budget ∧
      (s.1.finishRequested = false → account.evaluated.length < budget) := by
  have hkept : ∀ {old new : DefaultState R} {count : Nat}, Lasts old new →
      count ≤ budget ∧ (old.finishRequested = false → count < budget) →
      count ≤ budget ∧ (new.finishRequested = false → count < budget) := by
    intro old new count hlasts h
    refine ⟨h.1, fun hgoing => h.2 (Bool.eq_false_iff.mpr fun hfinish => ?_)⟩
    exact absurd (hgoing.symm.trans (hlasts.finish hfinish)) Bool.false_ne_true
  induction run with
  | start bound_eq answers => exact ⟨Nat.zero_le _, fun _ => hpos⟩
  | scan run sound settled table_lt ih => exact ih
  | evaluate run ih => exact ih
  | @call lines phase account account' s s' call answer run asks answers ih =>
      have hlasts := Lasts.of_answers hdefault answers asks.not_start
      cases asks with
      | evaluation scan pointId point distance sound new valid distance_eq =>
          cases answers with | evaluation h =>
          have hallowed := run.allowed hdefault
          have hconfigured := (run.configured hdefault).2.2
          rw [hbudget] at hconfigured
          have hgoing : s.1.finishRequested = false := by
            cases scan with
            | none => exact hallowed.elim
            | some scan => exact hallowed.2
          have hless := ih.2 hgoing
          obtain ⟨stop, t, hruled, hraised⟩ := (hdefault.evaluation h).2 hcheck
          have hstandard := (DefaultOptions.shouldTerminate_spec hruled).2.standard hrule
          have hmore : (account.record pointId distance).evaluated.length = account.evaluated.length + 1 :=
            List.length_append
          rw [hmore]
          refine ⟨hless, fun hnew => Nat.lt_of_not_le fun hreached => ?_⟩
          have hstop : DefaultOptions.standardTermination s.1
              ((account.record pointId distance).snapshot setting.k) = true := by
            unfold DefaultOptions.standardTermination
            rw [hconfigured]
            apply Bool.or_eq_true_iff.mpr
            exact Or.inl (decide_eq_true (hreached.trans_eq hmore.symm))
          exact absurd (hnew.symm.trans (hraised (hstandard.symm.trans hstop))) Bool.false_ne_true
      | next sound settled => exact hkept hlasts ih
      | hit scan position sound => exact hkept hlasts ih
      | boundary scan report before sound settled closes => exact hkept hlasts ih
      | duplicate scan pointId sound old => exact hkept hlasts ih
      | access scan pointId sound inside new => exact hkept hlasts ih
      | advanced radius bound before waiting round sound settled => exact hkept hlasts ih

/-! ## Lines -/

/-- Positions of a table on one side of the query that lie in the window and are not among
these hits. -/
def left (setting : Setting) (bound : R) (hits : List ProjectionHit) (tableId : Nat)
    (below : Bool) : Nat :=
  (List.range setting.metadata.numPoints).countP fun position =>
    decide (position < (setting.table tableId).split) == below &&
      (setting.table tableId).insideAt bound position &&
      decide ((setting.table tableId).hitAt position ∉ hits)

/-- Where a quantum scan of a table ends that begins after these hits: the left side has a share
of the quantum, the right side the rest. -/
def boundaryShare (setting : Setting) (bound : R) (hits : List ProjectionHit) (tableId : Nat) : Nat :=
  let share := min (leftLimit false setting.scanQuantum) (setting.left bound hits tableId true)
  share + min (rightLimit false setting.scanQuantum share) (setting.left bound hits tableId false)

/-- A boundary comes when the scan has delivered its share. -/
def Shares (setting : Setting) (before : Transcript R ν) (line : Line R ν) : Prop :=
  ∀ event state, line.call = .boundary event state →
    before.hits.length = before.hitsBeforeScan + event.report.entriesVisited ∧
      event.report.entriesVisited = setting.boundaryShare state.bound
        (before.hits.take before.hitsBeforeScan) event.report.tableId

omit [Platform] in
/-- The hits before a scan are those its account had. -/
theorem Closes.share_eq {scan : OngoingScan} {report : ScanReport} (h : setting.Closes scan account report)
    (hsound : setting.Sound account) (hscope : scan.scope = .quantum) :
    report.entriesVisited = setting.boundaryShare account.bound
      ((setting.hitsOf account.delivered).take scan.start) report.tableId := by
  have hwaiting : ∀ below, setting.waiting account scan below = setting.left account.bound
      ((setting.hitsOf account.delivered).take scan.start) scan.tableId below := by
    intro below
    unfold waiting left
    refine List.countP_congr fun position hposition => ?_
    have hmem : (scan.tableId, position) ∈ account.delivered.take scan.start ↔
        (setting.table scan.tableId).hitAt position ∈
          (setting.hitsOf account.delivered).take scan.start := by
      unfold hitsOf
      rw [← List.map_take]
      exact (mem_hitsOf hsound (List.take_subset _ _) h.table_lt (List.mem_range.mp hposition)).symm
    rw [decide_eq_decide.mpr (not_congr hmem)]
  rw [h.share hscope, h.tableId_eq]
  unfold quantumShare boundaryShare
  rw [hwaiting true, hwaiting false]

/-- Where a line stands to the decision to finish: no call comes after `finish`, each scan ends
at its boundary, and once the termination rule has held no candidate is submitted, no point is
accessed or evaluated, no round is opened and the next action is `finish`. -/
structure Quits (setting : Setting) (holds : QuerySnapshot R → DefaultState R → ν → Bool)
    (before : Transcript R (DefaultState R × ν)) (line : Line R (DefaultState R × ν)) : Prop where
  going : ∀ earlier ∈ before, earlier.answer ≠ .action .finish
  shares : setting.Shares before line
  submission : (∃ earlier ∈ before, earlier.decides holds = true) → line.submission? = none
  call : (∃ earlier ∈ before, earlier.decides holds = true) →
    (∃ state, line.call = .next state ∧ ∀ action, line.answer = .action action → action = .finish) ∨
      (∃ hit state, line.call = .hit hit state) ∨ ∃ event state, line.call = .boundary event state

omit [Platform] in
theorem Asks.not_finished [Platform] {account' : Account R} {call : Call R}
    (h : setting.Asks phase account call account') : phase ≠ .acting .finish := by
  cases h <;> exact nofun

variable {account' : Account R} {lines : Transcript R (DefaultState R × ν)}

/-- Once the flag is set. -/
theorem Asks.finishing (hdefault : callbacks.Default options) {line : Line R (DefaultState R × ν)}
    (run : setting.Runs callbacks (beside view) origin lines phase account s)
    (asks : setting.Asks phase account line.call account') (hends : Ends callbacks s line)
    (hfinish : s.1.finishRequested = true) :
    line.submission? = none ∧
      ((∃ state, line.call = .next state ∧ ∀ action, line.answer = .action action → action = .finish) ∨
        (∃ hit state, line.call = .hit hit state) ∨ ∃ event state, line.call = .boundary event state) := by
  obtain ⟨call, seen, answer⟩ := line
  have hallowed := run.allowed hdefault
  have hover : s.1.finishRequested ≠ false := fun hgoing =>
    absurd (hgoing.symm.trans hfinish) Bool.false_ne_true
  have hthrown : ∀ {e : Error}, answer = .threw e →
      (⟨call, seen, answer⟩ : Line R (DefaultState R × ν)).submission? = none := by
    rintro e rfl
    rfl
  cases asks with
  | next sound settled =>
      have haction : ∀ action, answer = .action action → action = .finish := by
        rintro action rfl
        rcases hends with ⟨s', answers⟩ | ⟨e, he⟩
        · cases answers with | next h =>
          have hstep := hdefault.next h
          generalize s'.1 = self' at hstep
          cases hstep with
          | finished finish => rfl
          | stopped going check ruled => rfl
          | exhausted going empty all => rfl
          | scans going pending => exact absurd going hover
          | advances going empty some ruled => exact absurd going hover
        · cases he
      refine ⟨?_, Or.inl ⟨_, rfl, haction⟩⟩
      rcases hends with ⟨s', answers⟩ | ⟨e, he⟩
      · cases answers with | @next _ action h =>
        rw [haction action rfl]
        rfl
      · exact hthrown he
  | hit scan position sound =>
      refine ⟨?_, Or.inr (Or.inl ⟨_, _, rfl⟩)⟩
      rcases hends with ⟨s', answers⟩ | ⟨e, he⟩
      · cases answers with | hit h =>
        rw [(hdefault.accepts h).finished hfinish]
        rfl
      · exact hthrown he
  | boundary scan report before sound settled closes =>
      refine ⟨?_, Or.inr (Or.inr ⟨_, _, rfl⟩)⟩
      rcases hends with ⟨s', answers⟩ | ⟨e, he⟩
      · cases answers with | boundary h => rfl
      · exact hthrown he
  | duplicate scan pointId sound old =>
      cases scan with
      | none => exact hallowed.elim
      | some scan => exact absurd hallowed.2 hover
  | access scan pointId sound inside new =>
      cases scan with
      | none => exact hallowed.elim
      | some scan => exact absurd hallowed.2 hover
  | evaluation scan pointId point distance sound new valid distance_eq =>
      cases scan with
      | none => exact hallowed.elim
      | some scan => exact absurd hallowed.2 hover
  | advanced radius bound before waiting round sound settled => exact absurd hallowed hover

/-- A scan of a default search ends at its boundary. -/
theorem Asks.shares (hdefault : callbacks.Default options) {line : Line R (DefaultState R × ν)}
    (run : setting.Runs callbacks (beside view) origin lines phase account s)
    (asks : setting.Asks phase account line.call account') : setting.Shares lines line := by
  obtain ⟨call, seen, answer⟩ := line
  rintro event state rfl
  cases asks with | boundary scan report before sound settled closes =>
  have hscope : scan.scope = .quantum := run.allowed hdefault
  have hstart := run.paced.2.1 scan rfl
  have hvisited := closes.visited
  have hshare := closes.share_eq before hscope
  have hhits := run.records.hits
  rw [← hhits, hstart] at hshare
  refine ⟨?_, hshare⟩
  rw [hhits, ← hstart, hvisited]
  exact List.length_map ..

theorem Moment.quits (hdefault : callbacks.Default options) (hcheck : options.checkAfterEvaluation = true)
    (hholds : options.Decides view holds) {line : Line R (DefaultState R × ν)}
    (h : setting.Moment callbacks (beside view) origin lines line) : setting.Quits holds lines line := by
  rcases h with ⟨rfl, hcall, -⟩ | ⟨phase, account, account', s, run, asks, -, hends⟩
  · exact
      { going := fun _ hmem => absurd hmem List.not_mem_nil
        shares := fun event state hboundary => nomatch hcall.symm.trans hboundary
        submission := fun ⟨_, hmem, _⟩ => absurd hmem List.not_mem_nil
        call := fun ⟨_, hmem, _⟩ => absurd hmem List.not_mem_nil }
  · have hdecided := run.decided hdefault hcheck hholds
    exact
      { going := run.paced.1 asks.not_finished
        shares := asks.shares hdefault run
        submission := fun ⟨earlier, hmem, hdecides⟩ =>
          (asks.finishing hdefault run hends (hdecided earlier hmem hdecides)).1
        call := fun ⟨earlier, hmem, hdecides⟩ =>
          (asks.finishing hdefault run hends (hdecided earlier hmem hdecides)).2 }

/-! ## The budget -/

omit [Platform] in
/-- A budget that has been set or computed is positive. -/
theorem activeBudget_pos (hset : ∀ budget, options.candidateBudgetOverride = some (some budget) → 0 < budget)
    {budget : Nat} (h : options.activeBudget (setting.startQuery R) = some budget) : 0 < budget := by
  unfold DefaultOptions.activeBudget at h
  split at h
  · cases h
  · cases hoverride : options.candidateBudgetOverride with
    | some override =>
        rw [hoverride] at h
        have h : override = some budget := h
        exact hset budget (hoverride.trans (congrArg some h))
    | none =>
        rw [hoverride] at h
        obtain rfl := Option.some.inj h
        have hpoints := setting.metadata_valid.points.1
        have hcandidates := setting.metadata_valid.qalsh.budget
        have hk := setting.k_pos
        unfold DefaultOptions.standardBudget uint64Max
        apply Nat.lt_min.mpr
        refine ⟨hpoints, ?_⟩
        split
        · omega
        · exact Nat.add_pos_left hcandidates _

/-- The snapshot of a line has evaluated no more than the budget. -/
def Affords (budget : Option Nat) (line : Line R σ) : Prop :=
  ∀ state ∈ line.call.state?, ∀ most ∈ budget, state.evaluatedCandidates ≤ most

theorem Moment.affords {observe : WithDefault R ω → σ} (hdefault : callbacks.Default options)
    (hcheck : options.checkAfterEvaluation = true) (hrule : options.terminationRule = none)
    (hset : ∀ budget, options.candidateBudgetOverride = some (some budget) → 0 < budget)
    {before : Transcript R σ} {line : Line R σ}
    (h : setting.Moment callbacks observe origin before line) :
    Affords (options.activeBudget (setting.startQuery R)) line := by
  intro state hstate budget hbudget
  have hpos := setting.activeBudget_pos hset hbudget
  rcases h with ⟨-, hcall, -⟩ | ⟨phase, account, account', s, run, asks, -, -⟩
  · rw [hcall] at hstate
    cases hstate
  obtain rfl := asks.snapshot.1 state hstate
  have hwithin := run.within hdefault hcheck hrule hbudget hpos
  show account'.evaluated.length ≤ budget
  generalize line.call = call at asks
  cases asks with
  | evaluation scan pointId point distance sound new valid distance_eq =>
      have hallowed := run.allowed hdefault
      cases scan with
      | none => exact hallowed.elim
      | some scan =>
          unfold Account.record
          rw [List.length_append]
          exact hwithin.2 hallowed.2
  | next sound settled => exact hwithin.1
  | hit scan position sound => exact hwithin.1
  | boundary scan report before sound settled closes => exact hwithin.1
  | duplicate scan pointId sound old => exact hwithin.1
  | access scan pointId sound inside new => exact hwithin.1
  | advanced radius bound before waiting round sound settled => exact hwithin.1

end Decision

end Setting

/-! ## Searches -/

theorem Twin.second [Platform] [HasThread R ω] {δ : Type} {s t : δ × ω} (h : Twin s t) :
    Twin s.2 t.2 :=
  (Apart.mk h (.refl none _) (.refl none _)).second.twin

theorem discreet_beside [Platform] [HasThread R ω] {ν : Type} {view : ω → ν} (hview : Discreet view) :
    Discreet (beside (R := R) view) := by
  intro s t htwin
  unfold beside
  rw [discreet_fst s t htwin, hview s.2 t.2 htwin.second]

namespace Session

variable [RadiusArithmetic R] [Platform] [HasThread R ω] {session : Session R}
  {dflt : DefaultOptions R ω} {callbacks : Callbacks R (WithDefault R ω)}
  {driver : RangeDriver R (WithDefault R ω)}

/-- Once the termination rule of a default search has held after an evaluation, nothing is
submitted, accessed or evaluated any more: the scan in progress delivers the hits up to its
boundary, and the next action is `finish` and the last. -/
theorem search_quits {ν : Type} {view : ω → ν} {holds : QuerySnapshot R → DefaultState R → ν → Bool}
    (hdefault : callbacks.Default dflt) (hcheck : dflt.checkAfterEvaluation = true)
    (hholds : dflt.Decides view holds) (hview : Discreet view) (hconfined : callbacks.Confined)
    (hdelivers : driver.Delivers callbacks.accept) (options : SearchOptions) (query : PointView)
    (k : Nat) {s : WithDefault R ω} (hs : threadOf s = session.thread) :
    session.transcript (beside view) callbacks options query k s = [] ∨
      ∃ setting, session.Poses options query k setting ∧ Throughout (setting.Quits holds)
        (session.transcript (beside view) callbacks options query k s) :=
  search_throughout hconfined (discreet_beside hview) hdelivers options query k hs
    fun _ _ _ _ hmoment => hmoment.quits hdefault hcheck hholds

/-- A default search with the standard rule never evaluates more points than its budget. -/
theorem search_affords (hdefault : callbacks.Default dflt) (hcheck : dflt.checkAfterEvaluation = true)
    (hrule : dflt.terminationRule = none)
    (hset : ∀ budget, dflt.candidateBudgetOverride = some (some budget) → 0 < budget)
    (hconfined : callbacks.Confined) (hdelivers : driver.Delivers callbacks.accept)
    (options : SearchOptions) (query : PointView) (k : Nat) {s : WithDefault R ω}
    (hs : threadOf s = session.thread) :
    let lines := session.transcript (fun _ => ()) callbacks options query k s
    (lines = [] ∨ ∃ setting, session.Poses options query k setting ∧
      Throughout (fun _ => Setting.Affords (dflt.activeBudget (setting.startQuery R))) lines) ∧
    ∀ result s', session.searchBy driver callbacks options query k s = .ok result s' →
      ∃ setting, session.Poses options query k setting ∧
        ∀ budget ∈ dflt.activeBudget (setting.startQuery R), result.evaluatedCandidates ≤ budget := by
  refine ⟨?_, fun result s' h => ?_⟩
  · exact search_throughout hconfined discreet_unit hdelivers options query k hs
      fun _ _ _ _ hmoment => hmoment.affords hdefault hcheck hrule hset
  · obtain ⟨setting, hposes, t, limit, account, reason, hreturns⟩ :=
      (search_runs hconfined discreet_unit hdelivers options query k hs).1 result s' h
    obtain ⟨phase, -, -, run⟩ := hreturns.kept
    refine ⟨setting, hposes, fun budget hbudget => ?_⟩
    rw [hreturns.result_eq]
    exact (run.within hdefault hcheck hrule hbudget (setting.activeBudget_pos hset hbudget)).1

end Session

namespace Session

theorem search_quits_unit :
    letI := exactPlatform true
    ∃ setting, unitSession.Poses SearchOptions.blank [one] 1 setting ∧
      Throughout (setting.Quits fun state self _ => DefaultOptions.standardTermination self state)
        (unitSession.transcript (beside fun _ => ()) (UserRules.plain Binary32).callbacks
          SearchOptions.blank [one] 1 (DefaultState.blank Binary32, (), unitSession.thread)) := by
  let := exactPlatform true
  exact (search_quits (Callbacks.default_ofDefault _ _) rfl (DefaultOptions.decides_standard rfl)
    discreet_unit (UserRules.plain Binary32).confined
    (DefaultOptions.deliverRangeDefault_delivers (UserRules.plain Binary32).options)
    SearchOptions.blank [one] 1 rfl).resolve_left (by decide +kernel)

theorem search_affords_unit :
    letI := exactPlatform true
    ∃ setting, unitSession.Poses SearchOptions.blank [one] 1 setting ∧
      Throughout (fun _ => Setting.Affords ((UserRules.plain Binary32).options.activeBudget
          (setting.startQuery Binary32)))
        (unitSession.transcript (fun _ => ()) (UserRules.plain Binary32).callbacks
          SearchOptions.blank [one] 1 (DefaultState.blank Binary32, (), unitSession.thread)) := by
  let := exactPlatform true
  have hset : ∀ budget, (none : Option (Option Nat)) = some (some budget) → 0 < budget :=
    fun _ h => nomatch h
  exact (search_affords (Callbacks.default_ofDefault _ _) rfl rfl hset
    (UserRules.plain Binary32).confined
    (DefaultOptions.deliverRangeDefault_delivers (UserRules.plain Binary32).options)
    SearchOptions.blank [one] 1 rfl).1.resolve_left (by decide +kernel)

end Session

end Qalsh
