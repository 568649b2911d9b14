/-
  Program.lean --- programs that run searches inside searches.

  A program is user code: computations of its own, exceptions caught, index objects
  created and destroyed, and searches whose accessor and callbacks are programs
  again.  `run` runs all searches on one thread and its pool of scratch records.
  `runFresh` gives each search, however deeply nested, a thread of its own.  Nobody
  can tell the two apart.
-/
import Qalsh.Reuse

set_option autoImplicit false

namespace Qalsh

open Foundation

variable {R : Type} [RadiusArithmetic R] [Platform] {σ δ α : Type}

/-- User code with a state of type `δ`. -/
inductive Program (R δ : Type) [Platform] : Type → Type 1 where
  /-- a computation that does not call the library -/
  | act {α : Type} (x : EStateM Error δ α) : Program R δ α
  | bind {α β : Type} (x : Program R δ β) (f : β → Program R δ α) : Program R δ α
  | tryCatch {α : Type} (x : Program R δ α) (handler : Error → Program R δ α) : Program R δ α
  | create (object : IndexObject) (accepted : object.index.backend.Accepted) : Program R δ Nat
  | destroy (number : Nat) : Program R δ Unit
  /-- `search` with any other strategy than the default one -/
  | search (index : Nat) (options : SearchOptions) (query : PointView) (k : Nat)
      (accessor : Nat → Program R δ PointView) (start : QueryStart R → Program R δ Unit)
      (next : QuerySnapshot R → Program R δ StrategyAction)
      (onProjectionHit : ProjectionHit → QuerySnapshot R → Program R δ HitDecision)
      (onEvaluation : EvaluationEvent → QuerySnapshot R → Program R δ Unit)
      (onScanBoundary : ScanBoundaryEvent R → QuerySnapshot R → Program R δ Unit)
      (onRadiusAdvanced : QuerySnapshot R → Program R δ Unit) : Program R δ SearchResult
  /-- `search` with a default object whose members are `self` -/
  | searchDefault (index : Nat) (options : SearchOptions) (query : PointView) (k : Nat)
      (accessor : Nat → Program R δ PointView) (self : DefaultState R) (dflt : DefaultOptions R Unit)
      (candidateRule : CollisionObservation → Program R δ Bool)
      (terminationRule : QuerySnapshot R → Program R δ Bool) : Program R δ SearchResult

/-- Run `x`; when it throws, go on with the handler. -/
def catching (x : EStateM Error σ α) (handler : Error → EStateM Error σ α) : EStateM Error σ α :=
  fun s => match x s with
    | .ok a s' => .ok a s'
    | .error e s' => handler e s'

/-- The configuration with rules where it has some. -/
def DefaultOptions.withRules {ω : Type} (dflt : DefaultOptions R Unit) (candidate : CandidateRule ω)
    (termination : TerminationRule R ω) : DefaultOptions R ω where
  collisionThreshold := dflt.collisionThreshold
  candidateRule := dflt.candidateRule.map fun _ => candidate
  terminationRule := dflt.terminationRule.map fun _ => termination
  candidateBudgetOverride := dflt.candidateBudgetOverride
  checkAfterEvaluation := dflt.checkAfterEvaluation
  checkAtRoundBoundary := dflt.checkAtRoundBoundary

/-- How the searches of a program are run. -/
structure Runner (R δ : Type) [Platform] where
  around : EStateM Error (δ × Thread R) SearchResult → EStateM Error (δ × Thread R) SearchResult
  members : DefaultState R → DefaultState R

/-- Run a program. -/
def Program.runWith (runner : Runner R δ) : {α : Type} → Program R δ α →
    EStateM Error (δ × Thread R) α
  | _, .act x => Foundation.inside x
  | _, .bind x f => x.runWith runner >>= fun b => (f b).runWith runner
  | _, .tryCatch x handler => catching (x.runWith runner) fun e => (handler e).runWith runner
  | _, .create object accepted => onHeap fun heap =>
      if h : heap.Unused object.address then
        .ok (heap.objects.length, heap.create object accepted h)
      else .error (.undefined "an address in use")
  | _, .destroy number => onHeap fun heap => .ok ((), heap.destroy number)
  | _, .search index options query k accessor start next onProjectionHit onEvaluation onScanBoundary
      onRadiusAdvanced =>
      runner.around <|
        SearchEngine.search
          { index := index
            accessor := fun pointId => (accessor pointId).runWith runner
            options := options } query k
          { start := fun query => (start query).runWith runner
            next := fun state => (next state).runWith runner
            onProjectionHit := fun hit state => (onProjectionHit hit state).runWith runner
            onEvaluation := fun event state => (onEvaluation event state).runWith runner
            onScanBoundary := fun event state => (onScanBoundary event state).runWith runner
            onRadiusAdvanced := fun state => (onRadiusAdvanced state).runWith runner }
  | _, .searchDefault index options query k accessor self dflt candidateRule terminationRule =>
      runner.around <| enclosed (runner.members self) <|
        SearchEngine.searchDefault
          { index := index
            accessor := fun pointId => (accessor pointId).runWith runner
            options := options } query k
          (dflt.withRules (fun observation => (candidateRule observation).runWith runner)
            fun state => (terminationRule state).runWith runner)

/-- Run all searches on the thread. -/
def Program.run (program : Program R δ α) : EStateM Error (δ × Thread R) α :=
  program.runWith { around := id, members := id }

/-- A thread that has not searched yet. -/
def Thread.fresh (heap : Heap) : Thread R where
  heap := heap
  pool := []

/-- Run `x` on a fresh thread with the same objects. -/
def onFreshThread [HasThread R σ] (x : EStateM Error σ α) : EStateM Error σ α := fun s =>
  match x (repool [] s) with
  | .ok a s' => .ok a (repool (threadOf s).pool s')
  | .error e s' => .error e (repool (threadOf s).pool s')

/-- Run each search on a fresh thread, and with a new default object. -/
def Program.runFresh (program : Program R δ α) : EStateM Error (δ × Thread R) α :=
  program.runWith { around := onFreshThread, members := fun _ => DefaultState.blank R }

/-! ## Nobody can tell -/

section Alike

variable [HasThread R σ]

omit [RadiusArithmetic R] in
theorem Alike.catching {x y : EStateM Error σ α} {f g : Error → EStateM Error σ α} (hx : Alike x y)
    (hf : ∀ e, Alike (f e) (g e)) : Alike (Qalsh.catching x f) (Qalsh.catching y g) := by
  intro p q s t h
  have hxy := hx p q s t h
  unfold Qalsh.catching
  cases hxs : x s with
  | ok a s' =>
      cases hyt : y t with
      | ok b t' => rw [hxs, hyt] at hxy; exact hxy
      | error e t' => rw [hxs, hyt] at hxy; exact hxy.elim
  | error e s' =>
      cases hyt : y t with
      | ok b t' => rw [hxs, hyt] at hxy; exact hxy.elim
      | error e' t' =>
          rw [hxs, hyt] at hxy
          obtain ⟨rfl, hst⟩ := hxy
          exact hf e p q s' t' hst

omit [RadiusArithmetic R] in
/-- A fresh thread does not make a difference. -/
theorem Alike.onFreshThread {x y : EStateM Error σ α} (h : Alike x y) :
    Alike x (Qalsh.onFreshThread y) := by
  intro p q s t hst
  have hempty : ((threadOf t).withPool []).Valid := fun scratch hscratch => nomatch hscratch
  have hblank : Twin s (repool [] t) :=
    hst.twin.trans ((Twin.refl hst.twin.right).repool hempty).symm
  have hxy := h p (threadOf (repool [] t)) s (repool [] t) ⟨hblank, hst.left, Thread.Kept.refl _ _⟩
  have hback : ∀ s' t' : σ, Apart none p (threadOf (repool [] t)) s' t' →
      Apart none p q s' (repool (threadOf t).pool t') := by
    intro s' t' h'
    have hgrown : (threadOf t).heap.Grown (threadOf t').heap := by
      have hkept := h'.right
      rw [threadOf_repool] at hkept
      exact hkept.grown
    have hvalid : ((threadOf t').withPool (threadOf t).pool).Valid := fun scratch hscratch =>
      (hst.twin.right scratch hscratch).grow hgrown
    refine ⟨h'.twin.trans ((Twin.refl h'.twin.right).repool hvalid).symm, h'.left, ?_⟩
    rw [threadOf_repool]
    exact hst.right.trans ⟨fun _ _ _ _ => Iff.rfl, hgrown.created, hgrown.objects⟩
  unfold Qalsh.onFreshThread
  cases hxs : x s with
  | ok a s' =>
      cases hyt : y (repool [] t) with
      | ok b t' => rw [hxs, hyt] at hxy; exact ⟨hxy.1, hback s' t' hxy.2⟩
      | error e t' => rw [hxs, hyt] at hxy; exact hxy.elim
  | error e s' =>
      cases hyt : y (repool [] t) with
      | ok b t' => rw [hxs, hyt] at hxy; exact hxy.elim
      | error e' t' => rw [hxs, hyt] at hxy; exact ⟨hxy.1, hback s' t' hxy.2⟩

omit [RadiusArithmetic R] in
theorem DefaultOptions.withRules_alike (dflt : DefaultOptions R Unit) {candidate candidate' : CandidateRule σ}
    {termination termination' : TerminationRule R σ}
    (hcandidate : ∀ observation, Qalsh.Alike (candidate observation) (candidate' observation))
    (htermination : ∀ state, Qalsh.Alike (termination state) (termination' state)) :
    (dflt.withRules candidate termination).Alike (dflt.withRules candidate' termination') where
  threshold := rfl
  budget := rfl
  afterEvaluation := rfl
  atRoundBoundary := rfl
  candidate := by
    unfold withRules
    cases dflt.candidateRule with
    | none => exact .none
    | some _ => exact .some hcandidate
  termination := by
    unfold withRules
    cases dflt.terminationRule with
    | none => exact .none
    | some _ => exact .some htermination

end Alike

/-- Running searches on one thread or each on a thread of its own: nobody can tell. -/
theorem Program.run_alike (program : Program R δ α) : Alike program.run program.runFresh := by
  unfold run runFresh
  induction program with
  | act x => exact Alike.inside x
  | bind x f hx hf => exact Alike.bind hx hf
  | tryCatch x handler hx hhandler => exact Alike.catching hx hhandler
  | create object accepted =>
      refine Alike.onHeap fun heap number heap' h => ?_
      split at h
      · cases h
        exact heap.create_grown object accepted _
      · cases h
  | destroy number =>
      refine Alike.onHeap fun heap _ heap' h => ?_
      cases h
      exact heap.destroy_grown number
  | search index options query k accessor start next onProjectionHit onEvaluation onScanBoundary
      onRadiusAdvanced haccessor hstart hnext hhit hevaluation hboundary hadvanced =>
      refine Alike.onFreshThread (SearchEngine.searchImplTyped_alike ⟨⟨hstart, hnext, hhit, hevaluation,
        hboundary, hadvanced⟩, haccessor, hhit⟩ rfl rfl ?_ ?_)
      · exact deliverRange_delivers _
      · exact deliverRange_delivers _
  | searchDefault index options query k accessor self dflt candidateRule terminationRule haccessor
      hcandidate htermination =>
      refine Alike.onFreshThread ?_
      refine SearchEngine.searchDefault_alike ?_ ?_ ?_ ?_ self _
      · rfl
      · rfl
      · exact haccessor
      · exact dflt.withRules_alike hcandidate htermination

/-! ## What a search finds and leaves -/

/-- Two cursors of an index that no sequence of scans tells apart. -/
def SameScans (index : BuiltInIndex) (cursor cursor' : Cursor R) : Prop :=
  ∀ {β : Type} (callback : β → ProjectionHit → β) (requests : List (OutwardCall (ScanBound R)))
    (acc : β), NonDecreasing requests → (∀ request ∈ requests, 0 < request.budget) →
    ∃ out after after', index.runScans callback requests acc cursor = .ok out after ∧
      index.runScans callback requests acc cursor' = .ok out after'

/-- A scratch ready for a search over an object: no point counts as seen, and its cursors are
as good as new ones. -/
structure QueryScratch.Ready (object : IndexObject) (scratch : QueryScratch R) : Prop where
  unseen : ∀ pointId < object.metadata.numPoints,
    scratch.seenEpochs.getD pointId 0 ≠ scratch.epoch
  cursors : ∀ cursor, some cursor ∈ scratch.cursors → ∀ tableId < object.metadata.numHashTables,
    ∀ queryValue : Binary32, queryValue.isFinite = true →
    ∃ placed made, object.resetCursor tableId queryValue cursor = .ok () placed ∧
      object.makeCursor tableId queryValue = .ok made ∧ SameScans object.index placed made

/-- Whatever earlier searches have left in a scratch, a search makes it ready. -/
theorem QueryScratch.Valid.ready {heap : Heap} {scratch : QueryScratch R} (h : scratch.Valid heap)
    {index : Nat} {object : IndexObject} (hobject : heap.lock index = some object) (tableCount : Nat) :
    (scratch.prepare heap index object tableCount).Ready object := by
  obtain ⟨content, ⟨b⟩⟩ := (heap.accepted object
    (List.mem_of_getElem? (Heap.lock_eq_some.mp hobject))).backing (R := R) object.index.address
  obtain ⟨hplaced, -, -⟩ := Placed.prepare b { tableCount := tableCount, scanQuantum := 1 } []
    hobject h
  refine ⟨fun pointId hpoint => hplaced.unseen _ ?_, fun cursor hcursor tableId htable q hq => ?_⟩
  · rw [List.getD_eq_getElem _ _ (hpoint.trans_le hplaced.points)]
    exact List.getElem_mem _
  · have hlt : tableId < content.tables.length := by
      rw [b.tables_length]
      exact htable
    let t : QueryTable object.index.metadata.numPoints :=
      { table := content.tables.get ⟨tableId, hlt⟩
        tableId := tableId
        queryValue := q
        query_finite := hq }
    have ht : content.Has t := List.getElem?_eq_getElem hlt
    obtain ⟨placed, hholds, hreset⟩ := b.reset ht (hplaced.owned cursor hcursor)
    obtain ⟨made, hmade, hmake⟩ := b.reset ht object.index.owns_blankCursor
    refine ⟨placed, made, hreset, ?_, fun callback requests acc hbounds hbudget => ?_⟩
    · unfold IndexObject.makeCursor BuiltInIndex.makeCursor
      change object.index.resetCursor tableId q _ = _ at hmake
      rw [hmake]
    · have hadmissible : (Outward.start t.split).Admissible t.windows requests :=
        ⟨fun _ _ _ hlast => (nomatch hlast), hbounds⟩
      obtain ⟨after, hafter⟩ := b.runScans_spec ht callback hholds (Outward.start_valid t.windows)
        hadmissible hbudget acc
      obtain ⟨after', hafter'⟩ := b.runScans_spec ht callback hmade (Outward.start_valid t.windows)
        hadmissible hbudget acc
      exact ⟨_, after, after', hafter, hafter'⟩

/-- The outcomes agree but for the scratch. -/
def SameOutcome : EStateM.Result Error (δ × Thread R) α → EStateM.Result Error (δ × Thread R) α → Prop
  | .ok a s, .ok a' s' => a = a' ∧ s.1 = s'.1 ∧ s.2.heap = s'.2.heap
  | .error e s, .error e' s' => e = e' ∧ s.1 = s'.1 ∧ s.2.heap = s'.2.heap
  | _, _ => False

/-- The state an outcome ends in. -/
def outcomeState : EStateM.Result Error σ α → σ
  | .ok _ s => s
  | .error _ s => s

/-- Searches do not depend on the history of their thread.  A program does the same whether
its searches, outer and inner, share one thread or get fresh ones; the scratch of a search in
progress stays as it is whatever runs in a callback; and a search makes any scratch it is
given ready. -/
theorem Program.searches_independent :
    (∀ (program : Program R δ α) (d : δ) (heap : Heap),
      SameOutcome (program.run (d, Thread.fresh heap)) (program.runFresh (d, Thread.fresh heap))) ∧
    (∀ (program : Program R δ α) (s : δ × Thread R), s.2.Valid →
      (outcomeState (program.run s)).2.Valid ∧ s.2.Kept none (outcomeState (program.run s)).2) ∧
    ∀ (heap : Heap) (scratch : QueryScratch R) (index : Nat) (object : IndexObject) (tableCount : Nat),
      scratch.Valid heap → heap.lock index = some object →
      (scratch.prepare heap index object tableCount).Ready object := by
  refine ⟨fun program d heap => ?_, fun program s hvalid => ?_,
    fun heap scratch index object tableCount hvalid hobject => hvalid.ready hobject tableCount⟩
  · have hvalid : (threadOf (d, (Thread.fresh heap : Thread R))).Valid := fun _ h => nomatch h
    have hsame := program.run_alike (Thread.fresh heap) (Thread.fresh heap) _ _
      ⟨Twin.refl hvalid, Thread.Kept.refl _ _, Thread.Kept.refl _ _⟩
    generalize program.run (d, Thread.fresh heap) = x at hsame ⊢
    generalize program.runFresh (d, Thread.fresh heap) = y at hsame ⊢
    cases x with
    | ok a s =>
        cases y with
        | ok a' s' => exact ⟨hsame.1, hsame.2.first, hsame.2.twin.heap⟩
        | error e s' => exact hsame.elim
    | error e s =>
        cases y with
        | ok a' s' => exact hsame.elim
        | error e' s' => exact ⟨hsame.1, hsame.2.first, hsame.2.twin.heap⟩
  · have hsame := program.run_alike.trans program.run_alike.symm s.2 s.2 s s
      ⟨Twin.refl hvalid, Thread.Kept.refl _ _, Thread.Kept.refl _ _⟩
    generalize program.run s = x at hsame ⊢
    cases x with
    | ok a s' => exact ⟨hsame.2.twin.left, hsame.2.left⟩
    | error e s' => exact ⟨hsame.2.twin.left, hsame.2.left⟩

end Qalsh
