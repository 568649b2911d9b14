/-
  Schedule.lean --- the schedule of tables and the ledgers of the engine.

  A strategy that scans the tables it takes from a `TableScanSchedule`, and hands it
  every boundary and every radius change, has a second copy of what the engine keeps
  about its tables.  The two agree at every call of a search, so the tables that wait
  in the queue are those whose window is not complete.
-/
import Qalsh.Contract
import Qalsh.DefaultCalls

set_option autoImplicit false

namespace Qalsh

open Foundation

variable {R σ ω : Type}

/-! ## What a transcript says of the tables -/

namespace Line

variable (line : Line R ω) (tableId : Nat)

/-- A boundary that reports the table exhausted. -/
def exhausts : Bool :=
  match line.call with
  | .boundary event _ => decide (event.report.tableId = tableId) && event.report.tableExhausted
  | _ => false

/-- A boundary that reports the window of the table complete. -/
def completes : Bool :=
  match line.call with
  | .boundary event _ => decide (event.report.tableId = tableId) &&
      (event.report.windowExhausted || event.report.tableExhausted)
  | _ => false

end Line

namespace Transcript

variable (lines : Transcript R ω) (tableId : Nat)

/-- A table that has been reported exhausted. -/
def exhausted : Bool := lines.any fun line => line.exhausts tableId

/-- A table whose window is complete: so reported since the last radius change, or exhausted. -/
def completed : Bool :=
  lines.exhausted tableId ||
    (lines.reverse.takeWhile fun line => !line.isAdvance).any fun line => line.completes tableId

variable (line : Line R ω)

theorem exhausted_concat :
    Transcript.exhausted (lines ++ [line]) tableId = (lines.exhausted tableId || line.exhausts tableId) := by
  unfold exhausted
  rw [List.any_append, List.any_cons, List.any_nil, Bool.or_false]

theorem completed_concat :
    Transcript.completed (lines ++ [line]) tableId =
      (if line.isAdvance then lines.exhausted tableId || line.exhausts tableId
        else lines.completed tableId || line.exhausts tableId || line.completes tableId) := by
  unfold completed
  rw [exhausted_concat, List.reverse_append, List.reverse_singleton, List.singleton_append,
    List.takeWhile_cons]
  cases line.isAdvance with
  | true => exact Bool.or_false _
  | false =>
      simp only [Bool.not_false, if_true, List.any_cons, Bool.false_eq_true, if_false]
      ac_rfl

end Transcript

/-! ## Following a schedule -/

/-- What an action takes from the schedule. -/
def TableScanSchedule.Takes (schedule : TableScanSchedule) (action : StrategyAction)
    (schedule' : TableScanSchedule) : Prop :=
  match action with
  | .scan tableId _ => schedule.nextTable = (some tableId, schedule')
  | _ => schedule' = schedule

/-- Callbacks that scan what they take from a schedule and hand it every event. -/
structure Callbacks.Follows (callbacks : Callbacks R σ) (schedule : σ → TableScanSchedule) : Prop where
  start : ∀ {query s s'}, callbacks.strategy.start query s = .ok () s' →
    schedule s' = TableScanSchedule.start query.numHashTables
  next : ∀ {state s action s'}, callbacks.strategy.next state s = .ok action s' →
    (schedule s).Takes action (schedule s')
  hit : ∀ {hit state s decision s'}, callbacks.accept hit state s = .ok decision s' →
    schedule s' = schedule s
  evaluation : ∀ {event state s s'}, callbacks.strategy.onEvaluation event state s = .ok () s' →
    schedule s' = schedule s
  boundary : ∀ {event state s s'}, callbacks.strategy.onScanBoundary event state s = .ok () s' →
    (schedule s).onScanBoundary event = .ok (schedule s')
  advanced : ∀ {state s s'}, callbacks.strategy.onRadiusAdvanced state s = .ok () s' →
    schedule s' = (schedule s).onRadiusAdvanced
  access : ∀ {pointId s point s'}, callbacks.accessor pointId s = .ok point s' → schedule s' = schedule s

/-! ## The ledgers -/

/-- The table being scanned. -/
def Phase.table : Phase → Option Nat
  | .acting (.scan tableId _) => some tableId
  | .scanning scan => some scan.tableId
  | .submitted scan _ => scan.map OngoingScan.tableId
  | .accessed scan _ _ => scan.map OngoingScan.tableId
  | _ => none

@[simp] theorem Phase.table_after (scan : Option OngoingScan) :
    (Phase.after scan).table = scan.map OngoingScan.tableId := by
  cases scan <;> rfl

/-- The schedule keeps the flags of the account and counts them. -/
structure TableScanSchedule.Tallies (schedule : TableScanSchedule) (tableCount : Nat)
    (account : Account R) : Prop where
  tableCount_eq : schedule.tableCount = tableCount
  tableExhausted : schedule.tableExhausted = account.exhausted
  exhaustedTables : schedule.exhaustedTables = account.exhausted.count true
  tableCompleted : schedule.tableCompleted = account.completed
  completedTables : schedule.completedTables = account.completed.count true

/-- A queue of the tables whose window is not complete, beside the one being scanned. -/
structure TableScanSchedule.Queues (schedule : TableScanSchedule) (tableCount : Nat)
    (account : Account R) (scanned : Option Nat) : Prop where
  nodup : (scanned.toList ++ schedule.pendingTables).Nodup
  mem_iff : ∀ tableId, tableId ∈ scanned.toList ++ schedule.pendingTables ↔
    tableId < tableCount ∧ account.completed.getD tableId false = false

theorem Account.close_complete (account : Account R) (tableId : Nat) {report : ScanReport}
    (h : (report.windowExhausted || report.tableExhausted) = true) :
    account.close tableId report =
      { account with
        exhausted := if report.tableExhausted then account.exhausted.set tableId true
          else account.exhausted
        completed := account.completed.set tableId true } := by
  unfold Account.close
  rw [if_pos h]

theorem Account.close_open (account : Account R) (tableId : Nat) {report : ScanReport}
    (h : (report.windowExhausted || report.tableExhausted) = false) :
    account.close tableId report = account := by
  obtain ⟨hwindow, htable⟩ := Bool.or_eq_false_iff.mp h
  unfold Account.close
  rw [hwindow, htable]
  rfl

namespace TableScanSchedule

variable {schedule schedule' : TableScanSchedule} {tableCount tableId : Nat} {account : Account R}

theorem Tallies.roundComplete (h : schedule.Tallies tableCount account)
    (hlength : account.completed.length = tableCount) :
    schedule.roundComplete = account.roundComplete := by
  unfold TableScanSchedule.roundComplete Account.roundComplete
  rw [all_iff_count, h.completedTables, h.tableCount_eq, hlength]

theorem Tallies.allTablesExhausted (h : schedule.Tallies tableCount account)
    (hlength : account.exhausted.length = tableCount) :
    schedule.allTablesExhausted = account.allExhausted := by
  unfold TableScanSchedule.allTablesExhausted Account.allExhausted
  rw [all_iff_count, h.exhaustedTables, h.tableCount_eq, hlength]

theorem getD_replicate (count i : Nat) : (List.replicate count false).getD i false = false := by
  rw [List.getD_eq_getElem?_getD, List.getElem?_replicate]
  split <;> rfl

theorem start_tallies (tableCount : Nat) (radius bound : R) :
    (start tableCount).Tallies tableCount (Account.initial radius bound tableCount) where
  tableCount_eq := rfl
  tableExhausted := rfl
  exhaustedTables := by simp [start, Account.initial, List.count_replicate]
  tableCompleted := rfl
  completedTables := by simp [start, Account.initial, List.count_replicate]

theorem start_queues (tableCount : Nat) (radius bound : R) :
    (start tableCount).Queues tableCount (Account.initial radius bound tableCount) none where
  nodup := List.nodup_range
  mem_iff tableId := by
    unfold Account.initial
    rw [getD_replicate]
    exact List.mem_range.trans (and_iff_left rfl).symm

theorem Takes.tallies {action : StrategyAction} (htakes : schedule.Takes action schedule')
    (h : schedule.Tallies tableCount account) : schedule'.Tallies tableCount account.stepped := by
  have hsame : (∃ rest, schedule' = { schedule with pendingTables := rest }) := by
    unfold Takes at htakes
    split at htakes
    · unfold nextTable at htakes
      split at htakes
      · cases htakes
      · exact ⟨_, (Prod.mk.inj htakes).2.symm⟩
    · exact ⟨schedule.pendingTables, htakes⟩
  obtain ⟨rest, rfl⟩ := hsame
  exact ⟨h.tableCount_eq, h.tableExhausted, h.exhaustedTables, h.tableCompleted, h.completedTables⟩

theorem Takes.queues {action : StrategyAction} (htakes : schedule.Takes action schedule')
    (h : schedule.Queues tableCount account none) :
    schedule'.Queues tableCount account.stepped (Phase.acting action).table := by
  cases action with
  | scan tableId scope =>
      have htakes : schedule.nextTable = (some tableId, schedule') := htakes
      unfold nextTable at htakes
      split at htakes
      · cases htakes
      · rename_i table rest hpending
        obtain ⟨hfirst, hrest⟩ := Prod.mk.inj htakes
        obtain rfl := Option.some.inj hfirst
        have hnodup := h.nodup
        have hmem := h.mem_iff
        rw [hpending] at hnodup hmem
        rw [← hrest]
        exact ⟨hnodup, hmem⟩
  | evaluate pointId => exact htakes ▸ ⟨h.nodup, h.mem_iff⟩
  | advanceRadius => exact htakes ▸ ⟨h.nodup, h.mem_iff⟩
  | finish => exact htakes ▸ ⟨h.nodup, h.mem_iff⟩
  | invalid code => exact htakes ▸ ⟨h.nodup, h.mem_iff⟩

/-! ### Boundaries -/

theorem countExhausted_rest (schedule : TableScanSchedule) (tableId : Nat) (exhausted : Bool) :
    let counted := schedule.countExhausted tableId exhausted
    counted.tableCount = schedule.tableCount ∧ counted.tableCompleted = schedule.tableCompleted ∧
      counted.completedTables = schedule.completedTables ∧
      counted.pendingTables = schedule.pendingTables := by
  unfold countExhausted
  split <;> exact ⟨rfl, rfl, rfl, rfl⟩

theorem countCompleted_rest (schedule : TableScanSchedule) (tableId : Nat) :
    let counted := schedule.countCompleted tableId
    counted.tableCount = schedule.tableCount ∧ counted.tableExhausted = schedule.tableExhausted ∧
      counted.exhaustedTables = schedule.exhaustedTables ∧
      counted.pendingTables = schedule.pendingTables := by
  unfold countCompleted
  split <;> exact ⟨rfl, rfl, rfl, rfl⟩

theorem Tallies.countExhausted (h : schedule.Tallies tableCount account)
    (hlength : account.exhausted.length = tableCount) (htable : tableId < tableCount)
    (exhausted : Bool) : (schedule.countExhausted tableId exhausted).Tallies tableCount
      { account with exhausted := if exhausted then account.exhausted.set tableId true
          else account.exhausted } := by
  obtain ⟨htables, hcompleted, hcount, -⟩ := schedule.countExhausted_rest tableId exhausted
  have hflags : (schedule.countExhausted tableId exhausted).tableExhausted =
        (if exhausted then account.exhausted.set tableId true else account.exhausted) ∧
      (schedule.countExhausted tableId exhausted).exhaustedTables =
        (if exhausted then account.exhausted.set tableId true else account.exhausted).count true := by
    unfold TableScanSchedule.countExhausted
    rw [h.tableExhausted]
    cases exhausted with
    | false => simp [h.tableExhausted, h.exhaustedTables]
    | true =>
        cases hflag : account.exhausted.getD tableId false with
        | false => simp [count_set (hlength ▸ htable) hflag, h.exhaustedTables]
        | true => simp [set_of_getD hflag, h.tableExhausted, h.exhaustedTables]
  exact ⟨htables.trans h.tableCount_eq, hflags.1, hflags.2, hcompleted.trans h.tableCompleted,
    hcount.trans h.completedTables⟩

theorem Tallies.countCompleted (h : schedule.Tallies tableCount account)
    (hlength : account.completed.length = tableCount) (htable : tableId < tableCount) :
    (schedule.countCompleted tableId).Tallies tableCount
      { account with completed := account.completed.set tableId true } := by
  obtain ⟨htables, hexhausted, hcount, -⟩ := schedule.countCompleted_rest tableId
  have hflags : (schedule.countCompleted tableId).tableCompleted = account.completed.set tableId true ∧
      (schedule.countCompleted tableId).completedTables =
        (account.completed.set tableId true).count true := by
    unfold TableScanSchedule.countCompleted
    rw [h.tableCompleted]
    cases hflag : account.completed.getD tableId false with
    | false => simp [count_set (hlength ▸ htable) hflag, h.completedTables]
    | true => simp [set_of_getD hflag, h.tableCompleted, h.completedTables]
  exact ⟨htables.trans h.tableCount_eq, hexhausted.trans h.tableExhausted,
    hcount.trans h.exhaustedTables, hflags.1, hflags.2⟩

/-- The schedule after a boundary of the table that was scanned. -/
theorem onScanBoundary_keeps {event : ScanBoundaryEvent R}
    (hscan : schedule.onScanBoundary event = .ok schedule')
    (h : schedule.Tallies tableCount account) (hqueue : schedule.Queues tableCount account (some tableId))
    (htable : event.report.tableId = tableId) (hexhausted : account.exhausted.length = tableCount)
    (hcompleted : account.completed.length = tableCount)
    (himplies : account.exhausted.getD tableId false = true →
      account.completed.getD tableId false = true) :
    schedule'.Tallies tableCount (account.close tableId event.report) ∧
      schedule'.Queues tableCount (account.close tableId event.report) none := by
  obtain ⟨hlt, hopen⟩ := (hqueue.mem_iff tableId).mp List.mem_cons_self
  obtain ⟨hfirst, hnodup⟩ := List.nodup_cons.mp hqueue.nodup
  unfold onScanBoundary at hscan
  cases hrequire : require (event.report.tableId < schedule.tableCount)
      "scan boundary references an invalid projection table" with
  | error e => rw [hrequire] at hscan; cases hscan
  | ok u =>
      rw [hrequire, htable] at hscan
      have hcounted := h.countExhausted hexhausted hlt event.report.tableExhausted
      have hpending := (schedule.countExhausted_rest tableId event.report.tableExhausted).2.2.2
      simp only [bind, Except.bind] at hscan
      cases hdone : event.report.windowExhausted || event.report.tableExhausted with
      | true =>
          rw [if_pos hdone] at hscan
          obtain rfl := Except.ok.inj hscan
          rw [account.close_complete tableId hdone]
          refine ⟨hcounted.countCompleted hcompleted hlt, ?_, fun id => ?_⟩
          · rw [(countCompleted_rest _ tableId).2.2.2, hpending]
            exact hnodup
          · rw [(countCompleted_rest _ tableId).2.2.2, hpending]
            have hid := hqueue.mem_iff id
            dsimp only
            rw [← Bool.not_eq_true, getD_set_true (hcompleted.symm ▸ hlt)]
            constructor
            · intro hmem
              obtain ⟨hidlt, hidopen⟩ := hid.mp (List.mem_cons_of_mem _ hmem)
              refine ⟨hidlt, ?_⟩
              rintro (rfl | hcon)
              · exact hfirst hmem
              · exact absurd (hidopen.symm.trans hcon) Bool.false_ne_true
            · intro hmem
              have hidopen := hid.mpr ⟨hmem.1, Bool.eq_false_iff.mpr fun hcon => hmem.2 (Or.inr hcon)⟩
              exact (List.mem_cons.mp hidopen).resolve_left fun heq => hmem.2 (Or.inl heq)
      | false =>
          rw [if_neg (by rw [hdone]; exact Bool.false_ne_true)] at hscan
          have hnone : event.report.tableExhausted = false := (Bool.or_eq_false_iff.mp hdone).2
          rw [hnone] at hcounted hpending hscan
          have hrest : (schedule.countExhausted tableId false).tableExhausted.getD tableId false =
              false := by
            rw [hcounted.tableExhausted]
            exact Bool.eq_false_iff.mpr fun hcon =>
              absurd (hopen.symm.trans (himplies hcon)) Bool.false_ne_true
          rw [if_pos hrest] at hscan
          obtain rfl := Except.ok.inj hscan
          rw [account.close_open tableId hdone]
          refine ⟨⟨hcounted.tableCount_eq, hcounted.tableExhausted, hcounted.exhaustedTables,
            hcounted.tableCompleted, hcounted.completedTables⟩, ?_, fun id => ?_⟩
          · dsimp only
            rw [hpending]
            change (schedule.pendingTables ++ [tableId]).Nodup
            exact List.nodup_append_comm.mp (List.nodup_cons.mpr ⟨hfirst, hnodup⟩)
          · dsimp only
            rw [hpending]
            refine Iff.trans ?_ (hqueue.mem_iff id)
            change id ∈ schedule.pendingTables ++ [tableId] ↔ id ∈ [tableId] ++ schedule.pendingTables
            exact List.perm_append_comm.mem_iff

/-- The schedule after a radius change. -/
theorem onRadiusAdvanced_keeps (h : schedule.Tallies tableCount account) (radius bound : R)
    (hlength : account.exhausted.length = tableCount) :
    schedule.onRadiusAdvanced.Tallies tableCount (account.openRound radius bound) ∧
      schedule.onRadiusAdvanced.Queues tableCount (account.openRound radius bound) none := by
  refine ⟨⟨h.tableCount_eq, h.tableExhausted, h.exhaustedTables, ?_, h.exhaustedTables⟩, ?_, fun id => ?_⟩
  · unfold onRadiusAdvanced Account.openRound
    dsimp only
    rw [h.tableExhausted, h.tableCount_eq, ← hlength]
    apply List.ext_getElem (by simp)
    intro i hi hlt
    rw [List.getElem_map, List.getElem_range, List.getD_eq_getElem _ _ hlt]
  · exact List.nodup_range.filter _
  · unfold onRadiusAdvanced Account.openRound
    simp [h.tableExhausted, h.tableCount_eq]

end TableScanSchedule

/-! ## Runs -/

theorem getD_raised {flags : List Bool} {i : Nat} (hi : i < flags.length) (j : Nat) (raised : Bool) :
    (if raised then flags.set i true else flags).getD j false =
      (flags.getD j false || (decide (i = j) && raised)) := by
  cases raised with
  | false =>
      rw [Bool.and_false, Bool.or_false]
      rfl
  | true =>
      rw [if_pos rfl, Bool.and_true, Bool.eq_iff_iff, getD_set_true hi, Bool.or_eq_true,
        decide_eq_true_iff, eq_comm]
      exact or_comm

namespace Setting

variable [Platform] [RadiusArithmetic R] {setting : Setting} {callbacks : Callbacks R σ}
  {observe : σ → ω} {origin s : σ} {lines : Transcript R ω} {phase : Phase} {account : Account R}

/-- The transcript reports what the account notes. -/
theorem Runs.reported (run : setting.Runs callbacks observe origin lines phase account s) :
    ∀ tableId < setting.tableCount, account.exhausted.getD tableId false = lines.exhausted tableId ∧
      account.completed.getD tableId false = lines.completed tableId := by
  intro tableId htable
  -- most calls report nothing
  have hquiet : ∀ {lines : Transcript R ω} {line : Line R ω} {exhausted completed : Bool},
      line.isAdvance = false → line.exhausts tableId = false → line.completes tableId = false →
      exhausted = lines.exhausted tableId ∧ completed = lines.completed tableId →
      exhausted = Transcript.exhausted (lines ++ [line]) tableId ∧
        completed = Transcript.completed (lines ++ [line]) tableId := by
    intro lines line exhausted completed hadvance hexhausts hcompletes h
    rw [Transcript.exhausted_concat, Transcript.completed_concat, hadvance, hexhausts, hcompletes, h.1, h.2]
    simp
  induction run with
  | start bound_eq answers =>
      exact ⟨TableScanSchedule.getD_replicate _ _, TableScanSchedule.getD_replicate _ _⟩
  | scan run sound settled table_lt ih => exact ih
  | evaluate run ih => exact ih
  | @call lines phase account account' s s' call answer run asks answers ih =>
      cases asks with
      | next sound settled => exact hquiet rfl rfl rfl ih
      | hit scan position sound => exact hquiet rfl rfl rfl ih
      | duplicate scan pointId sound old => exact hquiet rfl rfl rfl ih
      | access scan pointId sound inside new => exact hquiet rfl rfl rfl ih
      | evaluation scan pointId point distance sound new valid distance_eq =>
          exact hquiet rfl rfl rfl ih
      | advanced radius bound before waiting round sound settled =>
          rw [Transcript.exhausted_concat, Transcript.completed_concat]
          exact ⟨ih.1.trans (Bool.or_false _).symm, ih.1.trans (Bool.or_false _).symm⟩
      | boundary scan report before sound settled closes =>
          have hexhausted := getD_raised (before.exhausted_length.symm ▸ closes.table_lt :
            scan.tableId < account.exhausted.length) tableId report.tableExhausted
          have hcompleted := getD_raised (before.completed_length.symm ▸ closes.table_lt :
            scan.tableId < account.completed.length) tableId
            (report.windowExhausted || report.tableExhausted)
          rw [← closes.tableId_eq] at hexhausted hcompleted
          rw [Transcript.exhausted_concat, Transcript.completed_concat, ← ih.1, ← ih.2,
            ← closes.tableId_eq]
          refine ⟨hexhausted, hcompleted.trans ?_⟩
          simp only [Line.isAdvance, Line.exhausts, Line.completes]
          cases report.tableExhausted <;> simp

variable {schedule : σ → TableScanSchedule}

/-- The schedule and the ledgers of the engine agree in every run. -/
theorem Runs.scheduled (hfollows : callbacks.Follows schedule)
    (run : setting.Runs callbacks observe origin lines phase account s) :
    (schedule s).Tallies setting.tableCount account ∧
      (schedule s).Queues setting.tableCount account phase.table := by
  induction run with
  | start bound_eq answers =>
      cases answers with | start h =>
      rw [hfollows.start h]
      exact ⟨TableScanSchedule.start_tallies _ _ _, TableScanSchedule.start_queues _ _ _⟩
  | scan run sound settled table_lt ih => exact ih
  | evaluate run ih => exact ih
  | call run asks answers ih =>
      cases asks with
      | next sound settled =>
          cases answers with | next h =>
          exact ⟨(hfollows.next h).tallies ih.1, (hfollows.next h).queues ih.2⟩
      | hit scan position sound =>
          cases answers with | @hit _ _ decision h =>
          rw [hfollows.hit h]
          refine ⟨{ ih.1 with }, ?_⟩
          have hphase : ((Phase.scanning scan).heard (.decision decision)).table = some scan.tableId := by
            unfold Phase.heard
            dsimp only
            split <;> rfl
          rw [hphase]
          exact ⟨ih.2.nodup, ih.2.mem_iff⟩
      | boundary scan report before sound settled closes =>
          cases answers with | boundary h =>
          exact TableScanSchedule.onScanBoundary_keeps (hfollows.boundary h) ih.1 ih.2 closes.tableId_eq
            before.exhausted_length before.completed_length (before.exhausted_completed _)
      | duplicate scan pointId sound old =>
          cases answers with | evaluation h =>
          rw [hfollows.evaluation h]
          refine ⟨ih.1, ?_⟩
          exact (Phase.table_after scan).symm ▸ ih.2
      | access scan pointId sound inside new =>
          cases answers with | access h =>
          rw [hfollows.access h]
          exact ih
      | evaluation scan pointId point distance sound new valid distance_eq =>
          cases answers with | evaluation h =>
          rw [hfollows.evaluation h]
          refine ⟨{ ih.1 with }, ?_⟩
          exact (Phase.table_after scan).symm ▸ ⟨ih.2.nodup, ih.2.mem_iff⟩
      | advanced radius bound before waiting round sound settled =>
          cases answers with | advanced h =>
          rw [hfollows.advanced h]
          exact TableScanSchedule.onRadiusAdvanced_keeps ih.1 radius bound before.exhausted_length

/-- A queue without tables: every window is complete. -/
theorem Runs.completed_of_empty (hfollows : callbacks.Follows schedule)
    (run : setting.Runs callbacks observe origin lines .ready account s)
    (hempty : (schedule s).pendingTables = []) {tableId : Nat} (htable : tableId < setting.tableCount) :
    account.completed.getD tableId false = true := by
  have hqueue := (run.scheduled hfollows).2.mem_iff tableId
  rw [hempty] at hqueue
  exact Bool.not_eq_false _ ▸ fun hopen => List.not_mem_nil (hqueue.mpr ⟨htable, hopen⟩)

/-- At each call of `next` the schedule agrees with the snapshot and with the transcript. -/
def Scheduled (setting : Setting) (before : Transcript R TableScanSchedule)
    (line : Line R TableScanSchedule) : Prop :=
  match line.call with
  | .next state =>
      line.seen.pendingTables.Nodup ∧
        (∀ tableId, tableId ∈ line.seen.pendingTables ↔
          tableId < setting.tableCount ∧ before.completed tableId = false) ∧
        line.seen.roundComplete = state.currentRoundComplete ∧
        line.seen.allTablesExhausted = state.allTablesExhausted
  | _ => True

theorem Moment.scheduled (hfollows : callbacks.Follows schedule) {before : Transcript R TableScanSchedule}
    {line : Line R TableScanSchedule} (h : setting.Moment callbacks schedule origin before line) :
    setting.Scheduled before line := by
  obtain ⟨call, seen, answer⟩ := line
  rcases h with ⟨-, rfl, -⟩ | ⟨phase, account, account', s, run, asks, rfl, -⟩
  · exact trivial
  cases asks with
  | next sound settled =>
      obtain ⟨htallies, hqueue⟩ := run.scheduled hfollows
      refine ⟨hqueue.nodup, fun tableId => ?_, htallies.roundComplete sound.completed_length,
        htallies.allTablesExhausted sound.exhausted_length⟩
      refine (hqueue.mem_iff tableId).trans (and_congr_right fun htable => ?_)
      rw [(run.reported tableId htable).2]
  | hit => exact trivial
  | boundary => exact trivial
  | duplicate => exact trivial
  | access => exact trivial
  | evaluation => exact trivial
  | advanced => exact trivial

end Setting

/-! ## The default strategy -/

namespace Callbacks

variable [RadiusArithmetic R]

/-- The default strategy follows its schedule. -/
theorem Default.follows {options : DefaultOptions R ω} {callbacks : Callbacks R (WithDefault R ω)}
    (h : callbacks.Default options) : callbacks.Follows fun s => s.1.tableSchedule where
  start hcall := by
    rw [(h.start hcall).1]
    rfl
  next {state s action s'} hcall := by
    have hstep := h.next hcall
    generalize s'.1 = self' at hstep
    cases hstep with
    | finished => rfl
    | stopped => rfl
    | exhausted => rfl
    | scans going pending =>
        unfold TableScanSchedule.Takes TableScanSchedule.nextTable
        rw [pending]
    | advances => rfl
  hit hcall := by rw [(h.accepts hcall).members]
  evaluation hcall := by rw [(h.evaluation hcall).1.members]
  boundary hcall := by
    obtain ⟨schedule, hschedule, hmay⟩ := h.boundary hcall
    rw [hmay.members]
    exact hschedule
  advanced hcall := by rw [h.advanced hcall]
  access hcall := by rw [h.accessor hcall]

end Callbacks

namespace Setting

section Default

variable [Platform] [RadiusArithmetic R] {setting : Setting} {options : DefaultOptions R ω}
  {callbacks : Callbacks R (WithDefault R ω)} {origin : WithDefault R ω}

omit [Platform] [RadiusArithmetic R] in
theorem roundComplete_of_forall {account : Account R} (hlength : account.completed.length = setting.tableCount)
    (h : ∀ tableId < setting.tableCount, account.completed.getD tableId false = true) :
    account.roundComplete = true := by
  apply List.all_eq_true.mpr
  intro flag hflag
  obtain ⟨tableId, hlt, rfl⟩ := List.getElem_of_mem hflag
  have hcompleted := h tableId (hlength ▸ hlt)
  rw [List.getD_eq_getElem _ _ hlt] at hcompleted
  exact hcompleted

/-- The default strategy asks for a greater radius when every window is complete, some table is
not exhausted and the termination rule has said to go on. -/
def Advances (setting : Setting) (options : DefaultOptions R ω)
    (before : Transcript R (DefaultState R)) (line : Line R (DefaultState R)) : Prop :=
  ∀ state, line.call = .next state → line.answer = .action .advanceRadius →
    (∀ tableId < setting.tableCount, before.completed tableId = true) ∧
      state.currentRoundComplete = true ∧ state.allTablesExhausted = false ∧
      (options.checkAtRoundBoundary = true →
        options.Says state { line.seen with radiusAdvanced := false } false)

theorem Moment.advances (hdefault : callbacks.Default options) {before : Transcript R (DefaultState R)}
    {line : Line R (DefaultState R)} (h : setting.Moment callbacks Prod.fst origin before line) :
    setting.Advances options before line := by
  obtain ⟨call, seen, answer⟩ := line
  rintro state rfl rfl
  rcases h with ⟨-, hcall, -⟩ | ⟨phase, account, account', s, run, asks, rfl, ⟨s', answers⟩ | ⟨e, he⟩⟩
  · cases hcall
  · cases asks with
    | next sound settled =>
        cases answers with | next hcall =>
        have hstep := hdefault.next hcall
        generalize s'.1 = self' at hstep
        cases hstep with
        | advances going empty some ruled =>
            have hall : ∀ tableId < setting.tableCount, account.completed.getD tableId false = true :=
              fun tableId htable => run.completed_of_empty hdefault.follows empty htable
            have hround := roundComplete_of_forall sound.completed_length hall
            refine ⟨fun tableId htable => ?_, hround, some.2, ruled hround⟩
            rw [← (run.reported tableId htable).2]
            exact hall tableId htable
  · cases he

end Default

end Setting

/-! ## Searches -/

namespace Session

variable [RadiusArithmetic R] [Platform] {session : Session R}

/-- The queue of a strategy that follows a schedule holds, at each call of `next`, the tables whose
window is not complete, each once; and the schedule and the snapshot agree on whether the round is
complete and all tables are exhausted. -/
theorem search_scheduled [HasThread R σ] {callbacks : Callbacks R σ} {driver : RangeDriver R σ}
    {schedule : σ → TableScanSchedule} (hfollows : callbacks.Follows schedule)
    (hschedule : Discreet schedule) (hconfined : callbacks.Confined)
    (hdelivers : driver.Delivers callbacks.accept) (options : SearchOptions) (query : PointView)
    (k : Nat) {s : σ} (hs : threadOf s = session.thread) :
    session.transcript schedule callbacks options query k s = [] ∨
      ∃ setting, session.Poses options query k setting ∧
        Throughout setting.Scheduled (session.transcript schedule callbacks options query k s) :=
  search_throughout hconfined hschedule hdelivers options query k hs
    fun _ _ _ _ hmoment => hmoment.scheduled hfollows

end Session

/-! ## One default search for the point on the line -/

/-- A default strategy without rules of its own. -/
def UserRules.plain (R : Type) [RadiusArithmetic R] [Platform] : UserRules R Unit where
  accessor _ := .act (pure [one])
  dflt := DefaultOptions.make 0
  candidateRule _ := .act (pure true)
  terminationRule _ := .act (pure false)

namespace Session

theorem search_scheduled_unit :
    letI := exactPlatform true
    ∃ setting, unitSession.Poses SearchOptions.blank [one] 1 setting ∧
      Throughout setting.Scheduled (unitSession.transcript (fun s => s.1.tableSchedule)
        (UserRules.plain Binary32).callbacks SearchOptions.blank [one] 1
        (DefaultState.blank Binary32, (), unitSession.thread)) := by
  let := exactPlatform true
  have hdefault : (UserRules.plain Binary32).callbacks.Default (UserRules.plain Binary32).options :=
    Callbacks.default_ofDefault _ _
  refine (search_scheduled hdefault.follows (fun s t htwin => ?_) (UserRules.plain Binary32).confined
    (DefaultOptions.deliverRangeDefault_delivers (UserRules.plain Binary32).options)
    SearchOptions.blank [one] 1 rfl).resolve_left (by decide +kernel)
  rw [discreet_fst s t htwin]

end Session

end Qalsh
