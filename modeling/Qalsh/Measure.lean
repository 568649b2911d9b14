/-
  Measure.lean --- how many steps a default search can take.

  A scan that visits nothing completes its window, and a table whose window is complete
  is not queued again before the radius has changed.  So each step is paid for: by a hit,
  by a window that becomes complete, by a radius change, or it is the last one.  The
  radius changes only while some entry lies outside the window.
-/
import Qalsh.Answer

set_option autoImplicit false

namespace Qalsh

open Foundation

variable {R σ ω : Type}

theorem Transcript.hitsBeforeScan_le (lines : Transcript R ω) :
    lines.hitsBeforeScan ≤ lines.hits.length := by
  have hsublist := (List.dropWhile_sublist (l := lines.reverse) fun line => !line.isNext).filterMap
    Line.hit?
  rw [List.filterMap_reverse] at hsublist
  exact hsublist.length_le.trans_eq (List.length_reverse ..)

theorem Transcript.advances_quiet {lines : Transcript R ω} {line : Line R ω}
    (h : line.isAdvance = false) : Transcript.advances (lines ++ [line]) = lines.advances := by
  rw [Transcript.advances_concat, h]
  exact Nat.add_zero _

/-- The calls of `next` not paid for yet. -/
def Phase.unpaid : Phase → Nat
  | .ready => 0
  | _ => 1

theorem Phase.unpaid_le (phase : Phase) : phase.unpaid ≤ 1 := by
  cases phase with
  | ready => exact Nat.zero_le 1
  | acting action => exact le_rfl
  | scanning scan => exact le_rfl
  | submitted scan pointId => exact le_rfl
  | accessed scan pointId point => exact le_rfl

/-- A closed scan does not reopen a window. -/
theorem Account.count_close (account : Account R) {tableId : Nat} (report : ScanReport)
    (htable : tableId < account.completed.length) :
    account.completed.count true ≤ (account.close tableId report).completed.count true := by
  unfold Account.close
  dsimp only
  split
  · cases hflag : account.completed.getD tableId false with
    | false => exact (Nat.le_succ _).trans_eq (count_set htable hflag).symm
    | true => rw [set_of_getD hflag]
  · exact le_rfl

namespace Setting

section Steps

variable [Platform] [RadiusArithmetic R] {setting : Setting} {phase : Phase} {account account' : Account R}
  {options : DefaultOptions R ω} {callbacks : Callbacks R (WithDefault R ω)}
  {observe : WithDefault R ω → σ} {origin s : WithDefault R ω} {lines : Transcript R σ}

/-- The hits that can pay for steps: those of the scan in progress cannot. -/
def payingHits (phase : Phase) (account : Account R) : Nat :=
  match phase.scan? with
  | some scan => scan.start
  | none => account.delivered.length

omit [Platform] in
theorem Sound.delivered_le (h : setting.Sound account) :
    account.delivered.length ≤ setting.tableCount * setting.metadata.numPoints := by
  have hsubset : account.delivered ⊆
      List.range setting.tableCount ×ˢ List.range setting.metadata.numPoints := by
    rintro ⟨tableId, position⟩ hmem
    obtain ⟨htable, hposition, -⟩ := h.delivered_mem tableId position hmem
    exact List.mem_product.mpr ⟨List.mem_range.mpr htable, List.mem_range.mpr hposition⟩
  have hlength := (List.subperm_of_subset h.delivered_nodup hsubset).length_le
  rw [List.length_product, List.length_range, List.length_range] at hlength
  exact hlength

/-- What pays for the steps of a search. -/
def Paid (setting : Setting) (phase : Phase) (account : Account R) (lines : Transcript R σ) : Prop :=
  account.steps ≤ payingHits phase account + account.completed.count true +
    setting.tableCount * lines.advances + lines.advances + phase.unpaid

/-- Every step of a default search is paid for. -/
theorem Runs.paid (hdefault : callbacks.Default options)
    (run : setting.Runs callbacks observe origin lines phase account s) :
    setting.Paid phase account lines := by
  unfold Paid
  induction run with
  | start bound_eq answers => exact Nat.zero_le _
  | scan run sound settled table_lt ih => exact ih
  | evaluate run ih => exact (run.allowed hdefault).elim
  | @call lines phase account account' s s' call answer run asks answers ih =>
      have hallowed := run.allowed hdefault
      cases asks with
      | next sound settled =>
          cases answers with | next h =>
          rw [Transcript.advances_quiet rfl]
          exact Nat.succ_le_succ ih
      | hit scan position sound =>
          cases answers with | @hit _ _ decision h =>
          have hsame : payingHits ((Phase.scanning scan).heard (.decision decision))
                (account.deliver scan.tableId position) = scan.start ∧
              ((Phase.scanning scan).heard (.decision decision)).unpaid = 1 := by
            unfold Phase.heard
            dsimp only
            split <;> exact ⟨rfl, rfl⟩
          rw [Transcript.advances_quiet rfl, hsame.1, hsame.2]
          exact ih
      | boundary scan report before sound settled closes =>
          cases answers with | boundary h =>
          rw [Transcript.advances_quiet rfl]
          have hlength := before.completed_length.symm ▸ closes.table_lt
          have hvisited := closes.visited
          have hcount := account.count_close report hlength
          have hpaid : account.steps ≤ scan.start + account.completed.count true +
            setting.tableCount * lines.advances + lines.advances + 1 := ih
          show account.steps ≤ account.delivered.length +
            (account.close scan.tableId report).completed.count true +
            setting.tableCount * lines.advances + lines.advances + 0
          rcases Nat.eq_zero_or_pos report.entriesVisited with hnone | hsome
          · -- the window becomes complete
            have hopen := (((run.scheduled hdefault.follows).2.mem_iff scan.tableId).mp
              List.mem_cons_self).2
            have hmore : (account.close scan.tableId report).completed.count true =
                account.completed.count true + 1 := by
              unfold Account.close
              dsimp only
              rw [closes.progress hnone, Bool.true_or, if_pos rfl]
              exact count_set hlength hopen
            omega
          · omega
      | duplicate scan pointId sound old =>
          cases answers with | evaluation h =>
          rw [Transcript.advances_quiet rfl]
          cases scan with
          | none => exact hallowed.elim
          | some scan => exact ih
      | access scan pointId sound inside new =>
          cases answers with | access h =>
          rw [Transcript.advances_quiet rfl]
          exact ih
      | evaluation scan pointId point distance sound new valid distance_eq =>
          cases answers with | evaluation h =>
          rw [Transcript.advances_quiet rfl]
          cases scan with
          | none => exact hallowed.elim
          | some scan => exact ih
      | advanced radius bound before waiting round sound settled =>
          cases answers with | advanced h =>
          rw [Transcript.advances_concat]
          have hmany : account.completed.count true ≤ setting.tableCount :=
            List.count_le_length.trans_eq before.completed_length
          have hpaid : account.steps ≤ account.delivered.length + account.completed.count true +
            setting.tableCount * lines.advances + lines.advances + 1 := ih
          show account.steps ≤ account.delivered.length + account.exhausted.count true +
            setting.tableCount * (lines.advances + 1) + (lines.advances + 1) + 0
          rw [Nat.mul_add, Nat.mul_one]
          omega

end Steps

/-! ## Radii -/

section Radii

variable [Platform] [RadiusArithmetic R] {setting : Setting} {phase : Phase} {account account' : Account R}

variable (R) in
/-- The radius after some radius changes. -/
def radiusAfter (setting : Setting) : Nat → R
  | 0 => RadiusArithmetic.ofFloat setting.metadata.qalsh.initialRadius
  | count + 1 => RadiusArithmetic.grow (setting.radiusAfter count) setting.metadata.qalsh.radiusGrowth

variable (R) in
/-- The window covers every entry of every table after so many radius changes. -/
def Covered (setting : Setting) (count : Nat) : Prop :=
  ∃ bound : R, windowBound setting.metadata.qalsh.bucketWidth (setting.radiusAfter R count) = .ok bound ∧
    ∀ tableId < setting.tableCount, ∀ position < setting.metadata.numPoints,
      (setting.table tableId).insideAt bound position = true

omit [Platform] in
theorem nextRound_radius {radius radius' bound : R} (h : setting.nextRound radius = .ok (radius', bound)) :
    radius' = RadiusArithmetic.grow radius setting.metadata.qalsh.radiusGrowth := by
  simp only [SearchParameters.nextRound, except_bind_eq_ok] at h
  obtain ⟨-, -, bound', -, hpair⟩ := h
  cases hpair
  rfl

/-- Only a radius change counts as one, and only it changes the radius. -/
theorem Asks.advance_cases {call : Call R} (asks : setting.Asks phase account call account') :
    (∀ (seen : σ) (answer : Answer), (⟨call, seen, answer⟩ : Line R σ).isAdvance = false) ∧
        account'.radius = account.radius ∨
      phase = .acting .advanceRadius ∧ setting.Sound account ∧
        (∀ (seen : σ) (answer : Answer), (⟨call, seen, answer⟩ : Line R σ).isAdvance = true) ∧
        account'.radius = RadiusArithmetic.grow account.radius setting.metadata.qalsh.radiusGrowth := by
  cases asks with
  | next sound settled => exact Or.inl ⟨fun _ _ => rfl, rfl⟩
  | hit scan position sound => exact Or.inl ⟨fun _ _ => rfl, rfl⟩
  | boundary scan report before sound settled closes => exact Or.inl ⟨fun _ _ => rfl, rfl⟩
  | duplicate scan pointId sound old => exact Or.inl ⟨fun _ _ => rfl, rfl⟩
  | access scan pointId sound inside new => exact Or.inl ⟨fun _ _ => rfl, rfl⟩
  | evaluation scan pointId point distance sound new valid distance_eq =>
      exact Or.inl ⟨fun _ _ => rfl, rfl⟩
  | advanced radius bound before waiting round sound settled =>
      exact Or.inr ⟨rfl, before, fun _ _ => rfl, setting.nextRound_radius round⟩

/-- A radius is the first one grown once for each radius change. -/
theorem Runs.radius_eq {callbacks : Callbacks R ω} {observe : ω → σ} {origin s : ω} {lines : Transcript R σ}
    (run : setting.Runs callbacks observe origin lines phase account s) :
    account.radius = setting.radiusAfter R lines.advances := by
  induction run with
  | start bound_eq answers => rfl
  | scan run sound settled table_lt ih => exact ih
  | evaluate run ih => exact ih
  | call run asks answers ih =>
      rcases asks.advance_cases with ⟨hquiet, hradius⟩ | ⟨-, -, hadvance, round⟩
      · rw [Transcript.advances_quiet (hquiet _ _), hradius]
        exact ih
      · rw [Transcript.advances_concat, hadvance]
        exact round.trans (congrArg (fun radius => RadiusArithmetic.grow radius _) ih)

variable {options : DefaultOptions R ω} {callbacks : Callbacks R (WithDefault R ω)}
  {observe : WithDefault R ω → σ} {origin s : WithDefault R ω} {lines : Transcript R σ}

/-- The default strategy asks for a greater radius only while an entry is outside the window. -/
theorem Runs.outside (hdefault : callbacks.Default options)
    (run : setting.Runs callbacks observe origin lines (.acting .advanceRadius) account s) :
    ∃ tableId < setting.tableCount, ∃ position < setting.metadata.numPoints,
      (setting.table tableId).insideAt account.bound position = false := by
  obtain ⟨before, account', s', run', sound, settled, hnext, rfl, -⟩ := run.chosen
  have hstep := hdefault.next hnext
  generalize s.1 = self' at hstep
  cases hstep with | advances going empty some ruled =>
  -- some table is not exhausted, so some entry has not been delivered
  have hsome : account'.allExhausted = false := some.2
  by_contra hall
  push Not at hall
  refine absurd (List.all_eq_true.mpr fun flag hflag => ?_) (Bool.eq_false_iff.mp hsome)
  obtain ⟨tableId, hlt, rfl⟩ := List.getElem_of_mem hflag
  have htable : tableId < setting.tableCount := sound.exhausted_length ▸ hlt
  have hcomplete := run'.completed_of_empty hdefault.follows empty htable
  have hexhausted := settled tableId htable fun position hposition =>
    sound.completed tableId hcomplete position hposition
      (Bool.not_eq_false _ ▸ hall tableId htable position hposition)
  rw [List.getD_eq_getElem _ _ hlt] at hexhausted
  exact hexhausted

variable {call : Call R} {count : Nat}

/-- One call more; the window of a radius that changes did not cover every entry. -/
theorem Asks.advances_le (hdefault : callbacks.Default options) (hcovered : setting.Covered R count)
    (run : setting.Runs callbacks observe origin lines phase account s)
    (asks : setting.Asks phase account call account') (hle : lines.advances ≤ count) (seen : σ)
    (answer : Answer) : Transcript.advances (lines ++ [⟨call, seen, answer⟩]) ≤ count := by
  rcases asks.advance_cases with ⟨hquiet, _⟩ | ⟨hphase, before, hadvance, _⟩
  · rw [Transcript.advances_quiet (hquiet seen answer)]
    exact hle
  · subst hphase
    rw [Transcript.advances_concat, hadvance]
    apply Nat.lt_of_le_of_ne hle
    rintro rfl
    obtain ⟨bound', hbound', hall⟩ := hcovered
    rw [← run.radius_eq, before.bound_eq] at hbound'
    obtain ⟨tableId, htable, position, hposition, houtside⟩ := run.outside hdefault
    have hinside := hall tableId htable position hposition
    rw [← Except.ok.inj hbound', houtside] at hinside
    cases hinside

/-- The radius changes no more often than it takes to cover every entry. -/
theorem Runs.advances_le (hdefault : callbacks.Default options) (hcovered : setting.Covered R count)
    (run : setting.Runs callbacks observe origin lines phase account s) : lines.advances ≤ count := by
  induction run with
  | start bound_eq answers => exact Nat.zero_le _
  | scan run sound settled table_lt ih => exact ih
  | evaluate run ih => exact ih
  | call run asks answers ih => exact asks.advances_le hdefault hcovered run ih _ _

end Radii

/-! ## Whole transcripts -/

section Transcripts

variable [Platform] [RadiusArithmetic R] {setting : Setting} {options : DefaultOptions R ω}
  {callbacks : Callbacks R (WithDefault R ω)} {observe : WithDefault R ω → σ} {origin : WithDefault R ω}
  {lines : Transcript R σ} {phase : Phase} {account account' : Account R} {s : WithDefault R ω}
  {call : Call R}

variable (R) in
/-- The steps and the radius changes of a transcript are bounded. -/
structure Measured (setting : Setting) (lines : Transcript R σ) : Prop where
  steps : lines.steps ≤ setting.tableCount * setting.metadata.numPoints +
    setting.tableCount * (lines.advances + 1) + lines.advances + 1
  advances : ∀ count, setting.Covered R count → lines.advances ≤ count

/-- The account of a run is sound. -/
theorem Runs.sound {callbacks : Callbacks R ω} {observe : ω → σ} {origin s : ω}
    (run : setting.Runs callbacks observe origin lines phase account s) : setting.Sound account := by
  induction run with
  | start bound_eq answers => exact Sound.initial bound_eq
  | scan run sound settled table_lt ih => exact ih
  | evaluate run ih => exact ih
  | call run asks answers ih => exact asks.snapshot.2.1

/-- The steps of a run. -/
theorem Runs.steps_le (hdefault : callbacks.Default options)
    (run : setting.Runs callbacks observe origin lines phase account s) :
    lines.steps ≤ setting.tableCount * setting.metadata.numPoints +
      setting.tableCount * (lines.advances + 1) + lines.advances + phase.unpaid := by
  have hpaid := run.paid hdefault
  have sound := run.sound
  have hmost := sound.delivered_le
  have hcompleted : account.completed.count true ≤ setting.tableCount :=
    List.count_le_length.trans_eq sound.completed_length
  have hhits : payingHits phase account ≤ account.delivered.length := by
    unfold payingHits
    split
    · rename_i scan hscan
      rw [run.paced.2.1 scan hscan]
      refine lines.hitsBeforeScan_le.trans_eq ?_
      rw [run.records.hits]
      exact List.length_map ..
    · exact le_rfl
  unfold Paid at hpaid
  rw [run.records.steps, Nat.mul_add, Nat.mul_one]
  omega

theorem Runs.measured (hdefault : callbacks.Default options)
    (run : setting.Runs callbacks observe origin lines phase account s) : setting.Measured R lines where
  steps := (run.steps_le hdefault).trans (Nat.add_le_add_left phase.unpaid_le _)
  advances _ hcovered := run.advances_le hdefault hcovered

/-- Also when the last call throws. -/
theorem Asks.measured (hdefault : callbacks.Default options)
    (run : setting.Runs callbacks observe origin lines phase account s)
    (asks : setting.Asks phase account call account') (seen : σ) (answer : Answer) :
    setting.Measured R (lines ++ [⟨call, seen, answer⟩]) where
  steps := by
    have hmeasured := (run.measured hdefault).steps
    rw [Transcript.steps_concat]
    cases asks with
    | next sound settled =>
        rw [Transcript.advances_quiet rfl]
        exact Nat.succ_le_succ (run.steps_le hdefault)
    | advanced radius bound before waiting round sound settled =>
        rw [Transcript.advances_concat]
        refine hmeasured.trans ?_
        show _ ≤ setting.tableCount * setting.metadata.numPoints +
          setting.tableCount * (lines.advances + 1 + 1) + (lines.advances + 1) + 1
        have hmono : setting.tableCount * (lines.advances + 1) ≤
            setting.tableCount * (lines.advances + 1 + 1) :=
          Nat.mul_le_mul_left _ (Nat.le_succ _)
        omega
    | hit scan position sound => rw [Transcript.advances_quiet rfl]; exact hmeasured
    | boundary scan report before sound settled closes => rw [Transcript.advances_quiet rfl]; exact hmeasured
    | duplicate scan pointId sound old => rw [Transcript.advances_quiet rfl]; exact hmeasured
    | access scan pointId sound inside new => rw [Transcript.advances_quiet rfl]; exact hmeasured
    | evaluation scan pointId point distance sound new valid distance_eq =>
        rw [Transcript.advances_quiet rfl]
        exact hmeasured
  advances _ hcovered := asks.advances_le hdefault hcovered run (run.advances_le hdefault hcovered) seen answer

theorem Stops.measured {e : Error} (hdefault : callbacks.Default options)
    (h : setting.Stops callbacks observe origin e lines) : setting.Measured R lines := by
  cases h with
  | opening => exact ⟨Nat.zero_le _, fun _ _ => Nat.zero_le _⟩
  | engine run error => exact run.measured hdefault
  | call run asks => exact asks.measured hdefault run _ _

end Transcripts

end Setting

/-! ## Searches -/

namespace Session

variable [RadiusArithmetic R] [Platform] {session : Session R}

end Session

namespace Session

end Session

end Qalsh
