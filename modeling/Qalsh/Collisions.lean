/-
  Collisions.lean --- which points the default strategy evaluates.

  Without a candidate rule of its own the strategy counts, for each point, the hits of
  the tables, and submits the point with the hit that reaches the threshold.  Each
  table hits a point once, so what has been evaluated is what enough windows contain.
-/
import Qalsh.Foundation.Countdown
import Qalsh.Schedule

set_option autoImplicit false

namespace Qalsh

open Foundation

variable {R σ ω : Type}

namespace Call

/-- What a call is told of the search. -/
def state? : Call R → Option (QuerySnapshot R)
  | .start _ => none
  | .next state => some state
  | .hit _ state => some state
  | .evaluation _ state => some state
  | .boundary _ state => some state
  | .advanced state => some state
  | .access _ => none

/-- A call that is not made in the middle of a scan. -/
def isBetween : Call R → Bool
  | .next _ => true
  | .boundary _ _ => true
  | .advanced _ => true
  | _ => false

end Call

namespace Setting

/-! ## Collisions -/

section Struck

variable [RadiusArithmetic R] (setting : Setting)

/-- The tables whose window contains the point. -/
def collisions (bound : R) (pointId : Nat) : Nat :=
  (List.range setting.tableCount).countP fun tableId =>
    (List.range setting.metadata.numPoints).any fun position =>
      decide (((setting.table tableId).hitAt position).pointId = pointId) &&
        (setting.table tableId).insideAt bound position

omit [RadiusArithmetic R] in
/-- The points that have been hit, once for each hit. -/
def struck (delivered : List (Nat × Nat)) : List Nat :=
  delivered.map fun d => ((setting.table d.1).hitAt d.2).pointId

variable {setting} {account : Account R} {pointId : Nat}

omit [RadiusArithmetic R] in
theorem struck_deliver (account : Account R) (tableId position : Nat) :
    setting.struck (account.deliver tableId position).delivered =
      setting.struck account.delivered ++ [((setting.table tableId).hitAt position).pointId] :=
  List.map_append

/-- The tables that have hit a point, once each. -/
theorem Sound.strikers (h : setting.Sound account) (pointId : Nat) :
    ∃ tables : List Nat, tables.Nodup ∧
      tables.length = (setting.struck account.delivered).count pointId ∧
      ∀ tableId, tableId ∈ tables ↔ ∃ position, (tableId, position) ∈ account.delivered ∧
        ((setting.table tableId).hitAt position).pointId = pointId := by
  let struckHere := fun d : Nat × Nat => decide (((setting.table d.1).hitAt d.2).pointId = pointId)
  refine ⟨(account.delivered.filter struckHere).map Prod.fst, ?_, ?_, fun tableId => ?_⟩
  · refine (h.delivered_nodup.filter _).map_on ?_
    rintro ⟨tableId, position⟩ hmem ⟨_, position'⟩ hmem' rfl
    obtain ⟨hdelivered, hpoint⟩ := List.mem_filter.mp hmem
    obtain ⟨hdelivered', hpoint'⟩ := List.mem_filter.mp hmem'
    obtain ⟨-, hlt, -⟩ := h.delivered_mem tableId position hdelivered
    obtain ⟨-, hlt', -⟩ := h.delivered_mem tableId position' hdelivered'
    have hsame := (of_decide_eq_true hpoint).trans (of_decide_eq_true hpoint').symm
    rw [(setting.table tableId).pointId_injective hlt hlt' hsame]
  · unfold struck
    rw [List.length_map, ← List.countP_eq_length_filter, List.count, List.countP_map]
    rfl
  · constructor
    · intro hmem
      obtain ⟨⟨_, position⟩, hfiltered, rfl⟩ := List.mem_map.mp hmem
      obtain ⟨hdelivered, hpoint⟩ := List.mem_filter.mp hfiltered
      exact ⟨position, hdelivered, of_decide_eq_true hpoint⟩
    · rintro ⟨position, hdelivered, hpoint⟩
      exact List.mem_map.mpr ⟨(tableId, position),
        List.mem_filter.mpr ⟨hdelivered, decide_eq_true hpoint⟩, rfl⟩

/-- The tables whose window contains a point. -/
theorem mem_colliding {bound : R} {tableId : Nat} :
    tableId ∈ (List.range setting.tableCount).filter (fun tableId =>
        (List.range setting.metadata.numPoints).any fun position =>
          decide (((setting.table tableId).hitAt position).pointId = pointId) &&
            (setting.table tableId).insideAt bound position) ↔
      tableId < setting.tableCount ∧ ∃ position < setting.metadata.numPoints,
        ((setting.table tableId).hitAt position).pointId = pointId ∧
          (setting.table tableId).insideAt bound position = true := by
  rw [List.mem_filter, List.mem_range, List.any_eq_true]
  simp only [List.mem_range, Bool.and_eq_true, decide_eq_true_eq]

/-- Every hit is a collision. -/
theorem Sound.count_le (h : setting.Sound account) (pointId : Nat) :
    (setting.struck account.delivered).count pointId ≤ setting.collisions account.bound pointId := by
  obtain ⟨tables, hnodup, hlength, hmem⟩ := h.strikers pointId
  unfold collisions
  rw [← hlength, List.countP_eq_length_filter]
  refine (List.subperm_of_subset hnodup fun tableId htable => ?_).length_le
  obtain ⟨position, hdelivered, hpoint⟩ := (hmem tableId).mp htable
  obtain ⟨hlt, hposition, hinside⟩ := h.delivered_mem tableId position hdelivered
  exact mem_colliding.mpr ⟨hlt, position, hposition, hpoint, hinside⟩

/-- When the windows are complete every collision has been a hit. -/
theorem Sound.count_eq (h : setting.Sound account)
    (hcomplete : ∀ tableId < setting.tableCount, ∀ position < setting.metadata.numPoints,
      (setting.table tableId).insideAt account.bound position = true →
      (tableId, position) ∈ account.delivered) (pointId : Nat) :
    (setting.struck account.delivered).count pointId = setting.collisions account.bound pointId := by
  apply Nat.le_antisymm (h.count_le pointId)
  obtain ⟨tables, hnodup, hlength, hmem⟩ := h.strikers pointId
  unfold collisions
  rw [← hlength, List.countP_eq_length_filter]
  refine (List.subperm_of_subset (List.nodup_range.filter _) fun tableId htable => ?_).length_le
  obtain ⟨hlt, position, hposition, hpoint, hinside⟩ := mem_colliding.mp htable
  exact (hmem tableId).mpr ⟨position, hcomplete tableId hlt position hposition hinside, hpoint⟩

end Struck

/-! ## Counting -/

section Counting

variable [Platform] [RadiusArithmetic R] {setting : Setting} {options : DefaultOptions R ω}
  {callbacks : Callbacks R (WithDefault R ω)} {origin s : WithDefault R ω}
  {observe : WithDefault R ω → σ} {lines : Transcript R σ} {phase phase' : Phase}
  {account account' : Account R} {self self' : DefaultState R} {threshold : Nat}

/-- The counters of the strategy, and what has been submitted at the threshold. -/
structure Counting (setting : Setting) (threshold : Nat) (phase : Phase) (account : Account R)
    (members : DefaultState R) : Prop where
  length_eq : members.collisionState.length = setting.metadata.numPoints
  counts : members.finishRequested = false → CountsDown threshold setting.metadata.numPoints
    (setting.struck account.delivered) members.collisionState
  reached : ∀ pointId ∈ account.evaluatedIds ++ phase.awaiting,
    threshold ≤ (setting.struck account.delivered).count pointId
  submitted : members.finishRequested = false → ∀ pointId < setting.metadata.numPoints,
    threshold ≤ (setting.struck account.delivered).count pointId →
    pointId ∈ account.evaluatedIds ++ phase.awaiting

omit [Platform] [RadiusArithmetic R] in
/-- Calls that deliver nothing and leave the counters alone. -/
theorem Counting.quiet (h : setting.Counting threshold phase account self)
    (hcounters : self'.collisionState = self.collisionState)
    (hfinish : self'.finishRequested = false → self.finishRequested = false)
    (hdelivered : account'.delivered = account.delivered)
    (hpoints : ∀ pointId, pointId ∈ account'.evaluatedIds ++ phase'.awaiting ↔
      pointId ∈ account.evaluatedIds ++ phase.awaiting) :
    setting.Counting threshold phase' account' self' where
  length_eq := by rw [hcounters, h.length_eq]
  counts hgoing := by
    rw [hdelivered, hcounters]
    exact h.counts (hfinish hgoing)
  reached pointId hmem := by
    rw [hdelivered]
    exact h.reached pointId ((hpoints pointId).mp hmem)
  submitted hgoing pointId hlt hreached := by
    rw [hdelivered] at hreached
    exact (hpoints pointId).mpr (h.submitted (hfinish hgoing) pointId hlt hreached)

omit [Platform] [RadiusArithmetic R] in
/-- A hit. -/
theorem Counting.hit {scan : OngoingScan} {position : Nat} {decision : HitDecision}
    (h : setting.Counting threshold (.scanning scan) account self)
    (hcounts : DefaultOptions.Counts ((setting.table scan.tableId).hitAt position).pointId self decision
      self') :
    setting.Counting threshold ((Phase.scanning scan).heard (.decision decision))
      (account.deliver scan.tableId position) self' := by
  have hlt := setting.hitAt_pointId_lt scan.tableId position
  have hstruck := setting.struck_deliver account scan.tableId position
  generalize ((setting.table scan.tableId).hitAt position).pointId = pointId at hcounts hlt hstruck
  have hcount : ∀ id, (setting.struck (account.deliver scan.tableId position).delivered).count id =
      (setting.struck account.delivered).count id + if pointId = id then 1 else 0 := by
    intro id
    rw [hstruck, List.count_append, List.count_singleton]
    simp only [beq_iff_eq]
  have hbefore : account.evaluatedIds ++ (Phase.scanning scan).awaiting = account.evaluatedIds :=
    List.append_nil _
  have hids : (account.deliver scan.tableId position).evaluatedIds = account.evaluatedIds := rfl
  have hreached := h.reached
  have hsubmitted := h.submitted
  rw [hbefore] at hreached hsubmitted
  have hstill : ∀ id ∈ account.evaluatedIds, threshold ≤
      (setting.struck (account.deliver scan.tableId position).delivered).count id := by
    intro id hmem
    rw [hcount]
    exact (hreached id hmem).trans (Nat.le_add_right _ _)
  cases hcounts with
  | finished finish =>
      have hphase : (Phase.scanning scan).heard (.decision .ignore) = .scanning scan :=
        Phase.heard_ignored rfl
      have hover : self.finishRequested ≠ false := fun hcon =>
        absurd (hcon.symm.trans finish) Bool.false_ne_true
      rw [hphase]
      refine ⟨h.length_eq, fun hcon => absurd hcon hover, fun id hmem => ?_, fun hcon => absurd hcon hover⟩
      exact hstill id (hbefore ▸ hmem)
  | counted going inside =>
      have hcounters := h.counts going
      have hone := hcounters.eq_one_iff hlt
      have hstep := hcounters.step hlt
      rw [← hstruck] at hstep
      by_cases hnow : self.collisionState.getD pointId 0 = 1
      · have hcandidate : ({ candidate := pointId } : HitDecision).hasCandidate = true := by
          have hmax := hlt.trans_le setting.metadata_valid.points.2
          unfold HitDecision.hasCandidate noCandidate maxReasonablePoints at *
          exact decide_eq_true (by dsimp only; omega)
        rw [if_pos hnow, Phase.heard_candidate hcandidate]
        have hthis := hone.mp hnow
        have hself := hcount pointId
        rw [if_pos rfl] at hself
        refine ⟨List.length_set.trans h.length_eq, fun _ => hstep, fun id hmem => ?_,
          fun _ id hid hmany => ?_⟩
        · rcases List.mem_append.mp hmem with hmem | hmem
          · exact hstill id hmem
          · obtain rfl := List.mem_singleton.mp hmem
            omega
        · rw [hids]
          by_cases hsame : pointId = id
          · exact List.mem_append_right _ (List.mem_singleton.mpr hsame.symm)
          · rw [hcount, if_neg hsame] at hmany
            exact List.mem_append_left _ (hsubmitted going id hid hmany)
      · have hphase : (Phase.scanning scan).heard (.decision .ignore) = .scanning scan :=
          Phase.heard_ignored rfl
        rw [if_neg hnow, hphase]
        refine ⟨List.length_set.trans h.length_eq, fun _ => hstep, fun id hmem => hstill id (hbefore ▸ hmem),
          fun _ id hid hmany => ?_⟩
        apply List.mem_append_left
        apply hsubmitted going id hid
        rw [hcount] at hmany
        by_cases hsame : pointId = id
        · subst hsame
          have hnot := mt hone.mpr hnow
          rw [if_pos rfl] at hmany
          omega
        · rw [if_neg hsame] at hmany
          exact hmany

/-- The counters of every run. -/
theorem Runs.counting (hdefault : callbacks.Default options) (hrule : options.candidateRule = none)
    (run : setting.Runs callbacks observe origin lines phase account s) :
    setting.Counting (options.activeThreshold (setting.startQuery R)) phase account s.1 := by
  induction run with
  | start bound_eq answers =>
      cases answers with | start h =>
      obtain ⟨hstarted, hvalid⟩ := hdefault.start h
      obtain ⟨hpos, -⟩ := hvalid hrule
      have hcounters : (options.started (setting.startQuery R)).collisionState =
          List.replicate setting.metadata.numPoints (options.activeThreshold (setting.startQuery R)) := by
        unfold DefaultOptions.started
        rw [hrule]
        rfl
      rw [hstarted]
      refine ⟨?_, fun _ => ?_, fun _ hmem => (nomatch hmem), fun _ id _ hmany => ?_⟩
      · rw [hcounters, List.length_replicate]
      · rw [hcounters]
        exact .start _ _
      · exact absurd hmany (Nat.not_le.mpr hpos)
  | scan run sound settled table_lt ih => exact ih.quiet rfl id rfl fun _ => Iff.rfl
  | evaluate run ih => exact ih.quiet rfl id rfl fun _ => Iff.rfl
  | @call lines phase account account' s s' call answer run asks answers ih =>
      cases asks with
      | next sound settled =>
          cases answers with | next h =>
          have hstep := hdefault.next h
          generalize s'.1 = self' at hstep
          cases hstep with
          | finished finish => exact ih.quiet rfl id rfl fun _ => Iff.rfl
          | stopped going check ruled => exact ih.quiet rfl nofun rfl fun _ => Iff.rfl
          | exhausted going empty all => exact ih.quiet rfl nofun rfl fun _ => Iff.rfl
          | scans going pending => exact ih.quiet rfl id rfl fun _ => Iff.rfl
          | advances going empty some ruled => exact ih.quiet rfl id rfl fun _ => Iff.rfl
      | hit scan position sound =>
          cases answers with | hit h =>
          exact ih.hit (hdefault.counts hrule h)
      | boundary scan report before sound settled closes =>
          cases answers with | boundary h =>
          obtain ⟨schedule, -, hmay⟩ := hdefault.boundary h
          rw [hmay.members]
          exact ih.quiet rfl hmay.going rfl fun _ => Iff.rfl
      | duplicate scan pointId sound old =>
          cases answers with | evaluation h =>
          have hmay := (hdefault.evaluation h).1
          rw [hmay.members]
          refine ih.quiet rfl hmay.going rfl fun id => ?_
          change id ∈ account.evaluatedIds ++ (Phase.after scan).awaiting ↔
            id ∈ account.evaluatedIds ++ [pointId]
          rw [Phase.awaiting_after, List.append_nil, List.mem_append, List.mem_singleton]
          exact ⟨Or.inl, fun hmem => hmem.elim (fun hid => hid) fun heq => heq ▸ old⟩
      | access scan pointId sound inside new =>
          cases answers with | access h =>
          rw [hdefault.accessor h]
          exact ih.quiet rfl id rfl fun _ => Iff.rfl
      | evaluation scan pointId point distance sound new valid distance_eq =>
          cases answers with | evaluation h =>
          have hmay := (hdefault.evaluation h).1
          rw [hmay.members]
          refine ih.quiet rfl hmay.going rfl fun id => ?_
          change id ∈ (account.record pointId distance).evaluatedIds ++ (Phase.after scan).awaiting ↔
            id ∈ account.evaluatedIds ++ [pointId]
          rw [Phase.awaiting_after, List.append_nil, Account.evaluatedIds_record]
      | advanced radius bound before waiting round sound settled =>
          cases answers with | advanced h =>
          rw [hdefault.advanced h]
          exact ih.quiet rfl id rfl fun _ => Iff.rfl

end Counting

/-! ## Lines -/

section Lines

variable [Platform] [RadiusArithmetic R] {setting : Setting} {options : DefaultOptions R ω}
  {callbacks : Callbacks R (WithDefault R ω)} {origin : WithDefault R ω} {phase : Phase}
  {account account' : Account R} {call : Call R}

/-- The snapshot of a call is that of the account after it, which lists all earlier hits. -/
theorem Asks.snapshot (h : setting.Asks phase account call account') :
    (∀ state ∈ call.state?, state = account'.snapshot setting.k) ∧ setting.Sound account' ∧
      account.delivered <+: account'.delivered := by
  cases h with
  | next sound settled => exact ⟨fun _ h => (Option.some.inj h).symm, { sound with }, List.prefix_refl _⟩
  | hit scan position sound =>
      exact ⟨fun _ h => (Option.some.inj h).symm, sound, List.prefix_append _ _⟩
  | boundary scan report before sound settled closes =>
      exact ⟨fun _ h => (Option.some.inj h).symm, sound, List.prefix_refl _⟩
  | duplicate scan pointId sound old =>
      exact ⟨fun _ h => (Option.some.inj h).symm, sound, List.prefix_refl _⟩
  | access scan pointId sound inside new => exact ⟨nofun, sound, List.prefix_refl _⟩
  | evaluation scan pointId point distance sound new valid distance_eq =>
      exact ⟨fun _ h => (Option.some.inj h).symm, sound, List.prefix_refl _⟩
  | advanced radius bound before waiting round sound settled =>
      exact ⟨fun _ h => (Option.some.inj h).symm, sound, List.prefix_refl _⟩

/-- Between scans no candidate waits and no hit is on its way. -/
theorem Asks.between (h : setting.Asks phase account call account') (hbetween : call.isBetween = true) :
    phase.awaiting = [] ∧ account'.delivered = account.delivered := by
  cases h with
  | next sound settled => exact ⟨rfl, rfl⟩
  | boundary scan report before sound settled closes => exact ⟨rfl, rfl⟩
  | advanced radius bound before waiting round sound settled => exact ⟨rfl, rfl⟩
  | hit => cases hbetween
  | duplicate => cases hbetween
  | access => cases hbetween
  | evaluation => cases hbetween

end Lines

end Setting

/-! ## Searches -/

namespace Session

variable [RadiusArithmetic R] [Platform] {session : Session R}

end Session

namespace Session

end Session

end Qalsh
