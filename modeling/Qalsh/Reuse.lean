/-
  Reuse.lean --- searches do not depend on what their thread has done before.

  A program is user code that creates and destroys indexes and runs searches whose
  callbacks are programs again.  Searches of one thread share its pool of scratch
  records, whatever their nesting; a program still behaves as if each of its searches
  ran on a fresh thread.
-/
import Qalsh.Setup

set_option autoImplicit false

namespace Qalsh

open Foundation

variable {R : Type} [RadiusArithmetic R] [Platform] {σ α β : Type}

/-! ## Searches are confined -/

section Search

variable [HasThread R σ] {query : PointView} {k : Nat} {engine engine' : SearchEngine σ}
  {strategy strategy' : SearchStrategy R σ} {driver driver' : RangeDriver R σ}
  {accept accept' : Accept R σ}

theorem SearchEngine.searchImplTyped_gone {s : σ}
    (h : (threadOf s).heap.lock engine.index = none) :
    engine.searchImplTyped query k strategy driver s = .error (.undefined "*index_") s := by
  have hthread : (getThread : EStateM Error σ (Thread R)) s = .ok (threadOf s) s := rfl
  unfold searchImplTyped
  rw [bind_apply, hthread]
  dsimp only
  rw [h]
  rfl

/-- Two searches with alike callbacks are alike. -/
theorem SearchEngine.searchImplTyped_alike
    (h : AlikeCallbacks strategy strategy' engine.accessor engine'.accessor accept accept')
    (hindex : engine'.index = engine.index) (hoptions : engine'.options = engine.options)
    (hdelivers : driver.Delivers accept) (hdelivers' : driver'.Delivers accept') :
    Alike (engine.searchImplTyped query k strategy driver)
      (engine'.searchImplTyped query k strategy' driver') := by
  intro p q s t hst
  have hheap := hst.twin.heap
  cases hlive : (threadOf s).heap.lock engine.index with
  | none =>
      rw [searchImplTyped_gone hlive,
        searchImplTyped_gone (by rw [hindex, ← hheap]; exact hlive)]
      exact ⟨rfl, hst⟩
  | some object =>
      obtain ⟨content, ⟨b⟩⟩ := ((threadOf s).heap.accepted object
        (List.mem_of_getElem? (Heap.lock_eq_some.mp hlive))).backing (R := R) object.index.address
      have hright : AlikeCallbacks strategy' strategy' engine'.accessor engine'.accessor accept'
          accept' :=
        ⟨⟨fun q => (h.strategy.start q).right, fun s => (h.strategy.next s).right,
          fun hit s => (h.strategy.onProjectionHit hit s).right,
          fun e s => (h.strategy.onEvaluation e s).right,
          fun e s => (h.strategy.onScanBoundary e s).right,
          fun s => (h.strategy.onRadiusAdvanced s).right⟩,
          fun pointId => (h.accessor pointId).right, fun hit s => (h.accept hit s).right⟩
      have hlive' : (threadOf t).heap.lock engine'.index = some object := by
        rw [hindex, ← hheap]
        exact hlive
      have hs := searchImplTyped_agrees query k h hdelivers b s t
        ⟨⟨hst.twin, hst.left, Thread.Kept.refl none (threadOf t)⟩, hlive⟩
      have ht := searchImplTyped_agrees query k hright hdelivers' b t t
        ⟨⟨Twin.refl hst.twin.right, hst.right, Thread.Kept.refl none (threadOf t)⟩, hlive'⟩
      rw [hoptions] at ht
      have hjoin : ∀ s' t' u' : σ, Apart none p (threadOf t) s' u' → Apart none q (threadOf t) t' u' →
          Apart none p q s' t' := fun s' t' u' h₁ h₂ =>
        ⟨h₁.twin.trans h₂.twin.symm, h₁.left, h₂.left⟩
      generalize engine.searchImplTyped query k strategy driver s = x at hs ⊢
      generalize engine'.searchImplTyped query k strategy' driver' t = z at ht ⊢
      generalize b.search engine.options query k strategy' engine'.accessor accept' t = y at hs ht
      cases y with
      | ok a u' =>
          cases x with
          | error e s' => exact hs.elim
          | ok a₁ s' =>
              cases z with
              | error e t' => exact ht.elim
              | ok a₂ t' => exact ⟨hs.1.trans ht.1.symm, hjoin _ _ _ hs.2 ht.2⟩
      | error e u' =>
          cases x with
          | ok a s' => exact hs.elim
          | error e₁ s' =>
              cases z with
              | ok a t' => exact ht.elim
              | error e₂ t' => exact ⟨hs.1.trans ht.1.symm, hjoin _ _ _ hs.2 ht.2⟩

end Search

/-! ## The default strategy is confined -/

section Default

variable {ω : Type} [HasThread R ω]

omit [RadiusArithmetic R] in
theorem Alike.modifyDefault (f : DefaultState R → DefaultState R) :
    Confined (Qalsh.modifyDefault f : EStateM Error (WithDefault R ω) Unit) :=
  Alike.inside (modify f : EStateM Error (DefaultState R) Unit)

omit [RadiusArithmetic R] [Platform] [HasThread R ω] in
theorem isSome_of_rel {r : α → β → Prop} {a : Option α} {b : Option β} (h : Option.Rel r a b) :
    b.isSome = a.isSome := by
  cases h <;> rfl

omit [RadiusArithmetic R] in
theorem right_of_rel {α β : Type} {a b : Option (α → EStateM Error ω β)}
    (h : Option.Rel (fun rule rule' => ∀ o, Alike (rule o) (rule' o)) a b) :
    Option.Rel (fun rule rule' => ∀ o, Alike (rule o) (rule' o)) b b := by
  cases h with
  | some h => exact .some fun o => (h o).right
  | none => exact .none

/-- Two configurations of the default strategy whose rules are alike. -/
structure DefaultOptions.Alike (options options' : DefaultOptions R ω) : Prop where
  threshold : options'.collisionThreshold = options.collisionThreshold
  budget : options'.candidateBudgetOverride = options.candidateBudgetOverride
  afterEvaluation : options'.checkAfterEvaluation = options.checkAfterEvaluation
  atRoundBoundary : options'.checkAtRoundBoundary = options.checkAtRoundBoundary
  candidate : Option.Rel (fun rule rule' : CandidateRule ω => ∀ o, Qalsh.Alike (rule o) (rule' o))
    options.candidateRule options'.candidateRule
  termination : Option.Rel
    (fun rule rule' : TerminationRule R ω => ∀ state, Qalsh.Alike (rule state) (rule' state))
    options.terminationRule options'.terminationRule

namespace DefaultOptions.Alike

variable {options options' : DefaultOptions R ω} (h : options.Alike options')

include h

theorem shouldTerminate (state : QuerySnapshot R) :
    Qalsh.Alike (options.shouldTerminate state) (options'.shouldTerminate state) := by
  unfold DefaultOptions.shouldTerminate
  have hrule := h.termination
  revert hrule
  generalize options.terminationRule = rule
  generalize options'.terminationRule = rule'
  intro hrule
  cases hrule with
  | some hrule => exact Qalsh.Alike.outside (hrule state)
  | none => exact Qalsh.Alike.get_first fun d s t => Qalsh.Alike.pure _

omit [RadiusArithmetic R] in
theorem acceptHit (hit : ProjectionHit) (state : QuerySnapshot R) :
    Qalsh.Alike (options.onProjectionHit hit state) (options'.onProjectionHit hit state) ∧
      Qalsh.Alike (options.acceptRanged hit state) (options'.acceptRanged hit state) := by
  unfold DefaultOptions.onProjectionHit acceptRanged
  have hrule := h.candidate
  revert hrule
  generalize options.candidateRule = rule
  generalize options'.candidateRule = rule'
  intro hrule
  have hcount : ∀ pointId, Confined (countDown pointId : EStateM Error (WithDefault R ω) _) := by
    intro pointId
    refine Qalsh.Alike.get_first fun d s t => ?_
    refine Qalsh.Alike.ite (fun _ => Qalsh.Alike.pure _) fun _ => ?_
    refine Qalsh.Alike.bind (Qalsh.Alike.modifyDefault _) fun _ => ?_
    exact Qalsh.Alike.ite (fun _ => Qalsh.Alike.pure _) fun _ => Qalsh.Alike.pure _
  cases hrule with
  | some hrule =>
      refine and_self_iff.mpr ?_
      refine Qalsh.Alike.get_first fun d s t => ?_
      refine Qalsh.Alike.ite (fun _ => Qalsh.Alike.pure _) fun _ => ?_
      refine Qalsh.Alike.ite (fun _ => Qalsh.Alike.throw _) fun _ => ?_
      refine Qalsh.Alike.ite (fun _ => Qalsh.Alike.pure _) fun _ => ?_
      refine Qalsh.Alike.ite (fun _ => Qalsh.Alike.throw _) fun _ => ?_
      refine Qalsh.Alike.bind (Qalsh.Alike.modifyDefault _) fun _ => ?_
      refine Qalsh.Alike.bind (Qalsh.Alike.outside (hrule _)) fun accepted => ?_
      refine Qalsh.Alike.ite (fun _ => Qalsh.Alike.pure _) fun _ => ?_
      exact Qalsh.Alike.bind (Qalsh.Alike.modifyDefault _) fun _ => Qalsh.Alike.pure _
  | none =>
      constructor
      · refine Qalsh.Alike.get_first fun d s t => ?_
        refine Qalsh.Alike.ite (fun _ => Qalsh.Alike.pure _) fun _ => ?_
        refine Qalsh.Alike.ite (fun _ => Qalsh.Alike.throw _) fun _ => hcount _
      · refine Qalsh.Alike.get_first fun d s t => ?_
        refine Qalsh.Alike.ite (fun _ => Qalsh.Alike.pure _) fun _ => ?_
        refine Qalsh.Alike.get_first fun d s t => ?_
        exact Qalsh.Alike.ite (fun _ => Qalsh.Alike.throw _) fun _ => hcount _

omit [RadiusArithmetic R] in
theorem threshold_eq (query : QueryStart R) :
    options'.activeThreshold query = options.activeThreshold query := by
  simp only [DefaultOptions.activeThreshold, h.threshold]

omit [RadiusArithmetic R] in
theorem candidate_isSome : options'.candidateRule.isSome = options.candidateRule.isSome :=
  isSome_of_rel h.candidate

omit [RadiusArithmetic R] in
theorem started_eq (query : QueryStart R) : options'.started query = options.started query := by
  have htermination : options'.terminationRule.isSome = options.terminationRule.isSome :=
    isSome_of_rel h.termination
  simp only [DefaultOptions.started, DefaultOptions.activeBudget, h.threshold_eq, htermination, h.budget,
    h.candidate_isSome]

omit [RadiusArithmetic R] in
theorem start (query : QueryStart R) :
    Qalsh.Alike (options.start query) (options'.start query) := by
  have hnone : options'.candidateRule.isNone = options.candidateRule.isNone := by
    rw [← Option.not_isSome, ← Option.not_isSome, h.candidate_isSome]
  simp only [DefaultOptions.start, h.threshold_eq, h.started_eq, hnone]
  refine Qalsh.Alike.bind (Qalsh.Alike.modifyDefault _) fun _ => ?_
  refine Qalsh.Alike.ite (fun _ => ?_) fun _ => ?_
  · exact Qalsh.Alike.bind (Qalsh.Alike.liftResult _) fun _ => Qalsh.Alike.modifyDefault _
  · exact Qalsh.Alike.modifyDefault _

theorem boundaryCheck (state : QuerySnapshot R) :
    Qalsh.Alike (options.boundaryCheck state) (options'.boundaryCheck state) := by
  simp only [DefaultOptions.boundaryCheck, h.atRoundBoundary]
  exact Qalsh.Alike.ite (fun _ => h.shouldTerminate state) fun _ => Qalsh.Alike.pure _

omit h in
omit [RadiusArithmetic R] in
theorem requestFinish :
    Confined (DefaultOptions.requestFinish : EStateM Error (WithDefault R ω) StrategyAction) :=
  Qalsh.Alike.bind (Qalsh.Alike.modifyDefault (R := R) (ω := ω) _) fun _ => Qalsh.Alike.pure _

theorem nextTableOrRound (state : QuerySnapshot R) :
    Qalsh.Alike (options.nextTableOrRound state) (options'.nextTableOrRound state) := by
  refine Qalsh.Alike.get_first fun d s t => ?_
  dsimp only
  generalize d.tableSchedule.nextTable = popped
  obtain ⟨table, schedule⟩ := popped
  refine Qalsh.Alike.bind (Qalsh.Alike.modifyDefault _) fun _ => ?_
  cases table with
  | some table => exact Qalsh.Alike.pure _
  | none =>
      refine Qalsh.Alike.ite (fun _ => requestFinish) fun _ => ?_
      refine Qalsh.Alike.ite (fun _ => Qalsh.Alike.pure _) fun _ => ?_
      refine Qalsh.Alike.bind (h.boundaryCheck state) fun finish => ?_
      exact Qalsh.Alike.ite (fun _ => requestFinish) fun _ => Qalsh.Alike.pure _

theorem next (state : QuerySnapshot R) :
    Qalsh.Alike (options.next state) (options'.next state) := by
  refine Qalsh.Alike.get_first fun d s t => ?_
  refine Qalsh.Alike.ite (fun _ => Qalsh.Alike.pure _) fun _ => ?_
  refine Qalsh.Alike.ite (fun _ => ?_) fun _ => h.nextTableOrRound state
  refine Qalsh.Alike.bind (Qalsh.Alike.modifyDefault _) fun _ => ?_
  refine Qalsh.Alike.bind (h.boundaryCheck state) fun finish => ?_
  exact Qalsh.Alike.ite (fun _ => requestFinish) fun _ => h.nextTableOrRound state

theorem onEvaluation (event : EvaluationEvent) (state : QuerySnapshot R) :
    Qalsh.Alike (options.onEvaluation event state) (options'.onEvaluation event state) := by
  simp only [DefaultOptions.onEvaluation, h.afterEvaluation]
  refine Qalsh.Alike.ite (fun _ => ?_) fun _ => Qalsh.Alike.pure _
  refine Qalsh.Alike.bind (h.shouldTerminate state) fun finish => ?_
  exact Qalsh.Alike.ite (fun _ => Qalsh.Alike.modifyDefault _) fun _ => Qalsh.Alike.pure _

theorem onScanBoundary (event : ScanBoundaryEvent R) (state : QuerySnapshot R) :
    Qalsh.Alike (options.onScanBoundary event state) (options'.onScanBoundary event state) := by
  simp only [DefaultOptions.onScanBoundary, h.atRoundBoundary]
  refine Qalsh.Alike.get_first fun d s t => ?_
  refine Qalsh.Alike.bind (Qalsh.Alike.liftResult _) fun schedule => ?_
  refine Qalsh.Alike.bind (Qalsh.Alike.modifyDefault _) fun _ => ?_
  refine Qalsh.Alike.get_first fun d s t => ?_
  refine Qalsh.Alike.ite (fun _ => ?_) fun _ => Qalsh.Alike.pure _
  refine Qalsh.Alike.bind (h.shouldTerminate state) fun finish => ?_
  exact Qalsh.Alike.ite (fun _ => Qalsh.Alike.modifyDefault _) fun _ => Qalsh.Alike.pure _

theorem strategy : options.strategy.Alike options'.strategy where
  start := h.start
  next := h.next
  onProjectionHit hit state := (h.acceptHit hit state).1
  onEvaluation := h.onEvaluation
  onScanBoundary := h.onScanBoundary
  onRadiusAdvanced state := by
    show Confined (DefaultOptions.onRadiusAdvanced state : EStateM Error (WithDefault R ω) Unit)
    unfold DefaultOptions.onRadiusAdvanced
    exact Qalsh.Alike.modifyDefault _

end DefaultOptions.Alike

end Default

/-! ## A default object may be used again -/

section Object

variable [HasThread R σ]

/-- The members of a default object and the rest of the state, equal but for the members. -/
def SameRest (u u' : WithDefault R σ) : Prop := u.2 = u'.2

omit [RadiusArithmetic R] [Platform] [HasThread R σ] in
/-- `start` forgets the members an earlier search has left. -/
theorem DefaultOptions.start_sameRest (options : DefaultOptions R σ) (query : QueryStart R) :
    Simulates SameRest (options.start query) (options.start query) (fun _ _ u u' => u = u') SameRest := by
  have hlast : Simulates SameRest
      (modifyDefault (fun _ => options.started query) : EStateM Error (WithDefault R σ) Unit)
      (modifyDefault fun _ => options.started query) (fun _ _ u u' => u = u') SameRest :=
    Simulates.modify fun _ _ h => Prod.ext rfl h
  refine Simulates.bind (M := fun _ _ => SameRest) (Simulates.modify fun _ _ h => h) fun _ _ => ?_
  refine Simulates.ite (fun _ => ?_) fun _ => hlast
  exact Simulates.require (fun _ _ h => h) fun _ => hlast

variable {object : IndexObject} {content : Tables object.index.metadata.numPoints}

omit [HasThread R σ] in
/-- What a search does not depend on the members of the default object at its start. -/
theorem Backing.search_sameRest (b : Backing R object.index content) (options : SearchOptions)
    (query : PointView) (k : Nat) (dflt : DefaultOptions R σ)
    (accessor : Nat → EStateM Error (WithDefault R σ) PointView) (accept : Accept R (WithDefault R σ)) :
    Simulates SameRest (b.search options query k dflt.strategy accessor accept)
      (b.search options query k dflt.strategy accessor accept)
      (fun result result' u u' => result = result' ∧ SameRest u u') SameRest := by
  cases hplan : planQuery object options query k with
  | error e =>
      rw [b.search_error hplan]
      exact fun u u' h => ⟨rfl, h⟩
  | ok plan =>
      rw [b.search_planned hplan]
      unfold searchPlanned
      refine Simulates.lift _ (fun _ _ h => h) fun bound _ => ?_
      refine Simulates.bind (Simulates.forM_range (I := fun _ => SameRest) (E := SameRest)
        plan.tableCount fun i _ => ?_) fun _ _ => ?_
      · exact Simulates.liftResult (fun _ _ _ _ h => h) fun _ _ h => h
      · split
        · unfold Setting.searchFrom
          refine Simulates.bind (DefaultOptions.start_sameRest dflt _) fun _ _ => ?_
          exact (Simulates.same _).consequence (fun _ _ h => h)
            (fun _ _ _ _ h => ⟨h.1, congrArg Prod.snd h.2⟩) (fun _ _ h => congrArg Prod.snd h)
        · exact fun u u' h => ⟨rfl, h⟩

variable {query : PointView} {k : Nat} {engine engine' : SearchEngine σ}
  {options options' : DefaultOptions R σ}

/-- Searches with default objects are alike, whatever the objects have been used for. -/
theorem SearchEngine.searchDefault_alike (hindex : engine'.index = engine.index)
    (hoptions : engine'.options = engine.options)
    (haccessor : ∀ pointId, Alike (engine.accessor pointId) (engine'.accessor pointId))
    (h : options.Alike options') (self self' : DefaultState R) :
    Alike (enclosed self (engine.searchDefault query k options))
      (enclosed self' (engine'.searchDefault query k options')) := by
  intro p q s t hst
  have hheap := hst.twin.heap
  have hright : options'.Alike options' :=
    ⟨rfl, rfl, rfl, rfl, right_of_rel h.candidate, right_of_rel h.termination⟩
  have hcallbacks : AlikeCallbacks options.strategy options'.strategy engine.withDefault.accessor
      engine'.withDefault.accessor options.acceptRanged options'.acceptRanged :=
    ⟨h.strategy, fun pointId => (haccessor pointId).outside, fun hit state => (h.acceptHit hit state).2⟩
  have hcallbacks' : AlikeCallbacks options'.strategy options'.strategy engine'.withDefault.accessor
      engine'.withDefault.accessor options'.acceptRanged options'.acceptRanged :=
    ⟨hright.strategy, fun pointId => (haccessor pointId).right.outside,
      fun hit state => (hright.acceptHit hit state).2⟩
  unfold enclosed searchDefault
  cases hlive : (threadOf s).heap.lock engine.index with
  | none =>
      have hlive' : (threadOf t).heap.lock engine'.index = none := by
        rw [hindex, ← hheap]
        exact hlive
      have hs : engine.withDefault.searchImplTyped query k options.strategy
          (deliverRangeDefault options) (self, s) = _ := searchImplTyped_gone hlive
      have ht : engine'.withDefault.searchImplTyped query k options'.strategy
          (deliverRangeDefault options') (self', t) = _ := searchImplTyped_gone hlive'
      rw [hs, ht]
      exact ⟨rfl, hst⟩
  | some object =>
      obtain ⟨content, ⟨b⟩⟩ := ((threadOf s).heap.accepted object
        (List.mem_of_getElem? (Heap.lock_eq_some.mp hlive))).backing (R := R) object.index.address
      have hlive' : (threadOf t).heap.lock engine'.index = some object := by
        rw [hindex, ← hheap]
        exact hlive
      have hst' : Apart none p (threadOf t) s t := ⟨hst.twin, hst.left, Thread.Kept.refl none (threadOf t)⟩
      have htt : Apart none q (threadOf t) t t :=
        ⟨Twin.refl hst.twin.right, hst.right, Thread.Kept.refl none (threadOf t)⟩
      have hs := searchImplTyped_agrees query k hcallbacks
        (DefaultOptions.deliverRangeDefault_delivers options) b (self, s) (self, t)
        ⟨hst'.pair self, hlive⟩
      have ht := searchImplTyped_agrees query k hcallbacks'
        (DefaultOptions.deliverRangeDefault_delivers options') b (self', t) (self', t)
        ⟨htt.pair self', hlive'⟩
      have hself := b.search_sameRest engine.options query k options' engine'.withDefault.accessor
        options'.acceptRanged (self, t) (self', t) rfl
      rw [show engine'.withDefault.options = engine.options from hoptions] at ht
      rw [show engine.withDefault.options = engine.options from rfl] at hs
      have hjoin : ∀ (s' t' : WithDefault R σ) (u u' : WithDefault R σ),
          Apart none p (threadOf t) s' u → Apart none q (threadOf t) t' u' → SameRest u u' →
          Apart none p q s'.2 t'.2 := by
        intro s' t' u u' h₁ h₂ hrest
        have h₁ := h₁.second
        have h₂ := h₂.second
        rw [show u.2 = u'.2 from hrest] at h₁
        exact ⟨h₁.twin.trans h₂.twin.symm, h₁.left, h₂.left⟩
      generalize engine.withDefault.searchImplTyped query k options.strategy
        (deliverRangeDefault options) (self, s) = x at hs ⊢
      generalize engine'.withDefault.searchImplTyped query k options'.strategy
        (deliverRangeDefault options') (self', t) = z at ht ⊢
      generalize b.search engine.options query k options'.strategy engine'.withDefault.accessor
        options'.acceptRanged (self, t) = y at hs hself
      generalize b.search engine.options query k options'.strategy engine'.withDefault.accessor
        options'.acceptRanged (self', t) = y' at ht hself
      cases y with
      | ok a u =>
          cases y' with
          | error e u' => exact hself.elim
          | ok a' u' =>
              cases x with
              | error e s' => exact hs.elim
              | ok a₁ s' =>
                  cases z with
                  | error e t' => exact ht.elim
                  | ok a₂ t' =>
                      exact ⟨(hs.1.trans hself.1).trans ht.1.symm, hjoin _ _ _ _ hs.2 ht.2 hself.2⟩
      | error e u =>
          cases y' with
          | ok a' u' => exact hself.elim
          | error e' u' =>
              cases x with
              | ok a s' => exact hs.elim
              | error e₁ s' =>
                  cases z with
                  | ok a t' => exact ht.elim
                  | error e₂ t' =>
                      exact ⟨(hs.1.trans hself.1).trans ht.1.symm, hjoin _ _ _ _ hs.2 ht.2 hself.2⟩

end Object

/-! ## Objects come and go -/

section Heaps

omit [RadiusArithmetic R]

/-- No live object has the address. -/
def Heap.Unused (heap : Heap) (address : Nat) : Prop :=
  ∀ entry ∈ heap.objects, entry.map IndexObject.address ≠ some address

instance (heap : Heap) (address : Nat) : Decidable (heap.Unused address) :=
  inferInstanceAs (Decidable (∀ entry ∈ heap.objects, _))

/-- A new object gets the next number; its address may be that of a destroyed one. -/
def Heap.create (heap : Heap) (object : IndexObject) (accepted : object.index.backend.Accepted)
    (unused : heap.Unused object.address) : Heap where
  objects := heap.objects ++ [some object]
  accepted other h := by
    obtain h | h := List.mem_append.mp h
    · exact heap.accepted other h
    · rw [Option.some.inj (List.mem_singleton.mp h)]
      exact accepted
  distinct i j a b hi hj hab := by
    have hold : ∀ (i : Nat) (a : IndexObject), (heap.objects ++ [some object])[i]? = some (some a) →
        heap.objects[i]? = some (some a) ∨ i = heap.objects.length ∧ a = object := by
      intro i a h
      rcases Nat.lt_or_ge i heap.objects.length with hlt | hge
      · rw [List.getElem?_append_left hlt] at h
        exact Or.inl h
      · rw [List.getElem?_append_right hge] at h
        obtain ⟨hlt, hget⟩ := List.getElem?_eq_some_iff.mp h
        rw [List.length_singleton] at hlt
        refine Or.inr ⟨by omega, ?_⟩
        rw [List.getElem_singleton] at hget
        exact (Option.some.inj hget).symm
    have hnew : ∀ (i : Nat) (a : IndexObject), heap.objects[i]? = some (some a) →
        a.address ≠ object.address := by
      intro i a h heq
      exact unused (some a) (List.mem_of_getElem? h) (congrArg some heq)
    obtain hia | ⟨hia, ha⟩ := hold i a hi
    · obtain hjb | ⟨-, hb⟩ := hold j b hj
      · exact heap.distinct i j a b hia hjb hab
      · exact absurd (hb ▸ hab) (hnew i a hia)
    · obtain hjb | ⟨hjb, -⟩ := hold j b hj
      · exact absurd (ha ▸ hab).symm (hnew j b hjb)
      · exact hia.trans hjb.symm

/-- The last owner of an object lets it go. -/
def Heap.destroy (heap : Heap) (number : Nat) : Heap where
  objects := heap.objects.set number none
  accepted object h := by
    obtain h | h := List.mem_or_eq_of_mem_set h
    · exact heap.accepted object h
    · cases h
  distinct i j a b hi hj := by
    have hold : ∀ (i : Nat) (a : IndexObject), (heap.objects.set number none)[i]? = some (some a) →
        heap.objects[i]? = some (some a) := by
      intro i a h
      rw [List.getElem?_set] at h
      split at h
      · split at h <;> cases h
      · exact h
    exact heap.distinct i j a b (hold i a hi) (hold j b hj)

/-- Objects have been created or destroyed. -/
structure Heap.Grown (before after : Heap) : Prop where
  created : before.objects.length ≤ after.objects.length
  objects : ∀ i object, i < before.objects.length → after.lock i = some object →
    before.lock i = some object

theorem Heap.create_grown (heap : Heap) (object : IndexObject)
    (accepted : object.index.backend.Accepted) (unused : heap.Unused object.address) :
    heap.Grown (heap.create object accepted unused) where
  created := by simp [Heap.create]
  objects i other hi h := by
    rw [Heap.lock, Heap.create, List.getElem?_append_left hi] at h
    exact h

theorem Heap.destroy_grown (heap : Heap) (number : Nat) : heap.Grown (heap.destroy number) where
  created := by simp [Heap.destroy]
  objects i other hi h := by
    rw [Heap.lock_eq_some, Heap.destroy, List.getElem?_set] at h
    rw [Heap.lock_eq_some]
    split at h
    · split at h <;> cases h
    · exact h

theorem QueryScratch.Valid.grow {heap heap' : Heap} (h : heap.Grown heap')
    {scratch : QueryScratch R} (hvalid : scratch.Valid heap) : scratch.Valid heap' where
  epoch := hvalid.epoch
  stamps := hvalid.stamps
  identity i hi := (hvalid.identity i hi).trans_le h.created
  owned i object hi hlock := hvalid.owned i object hi (h.objects i object (hvalid.identity i hi) hlock)

theorem Thread.Kept.grown {own : Option Nat} {before after : Thread R} (h : before.Kept own after) :
    before.heap.Grown after.heap := ⟨h.created, h.objects⟩

variable [HasThread R σ]

/-- Twins on a heap that has grown. -/
theorem Apart.grow {p q : Thread R} {s t : σ} (h : Apart none p q s t) {heap : Heap}
    (hgrown : (threadOf s).heap.Grown heap) :
    Apart none p q (onThread { heap := heap, pool := (threadOf s).pool } s)
      (onThread { heap := heap, pool := (threadOf t).pool } t) := by
  have hset : ∀ (thread : Thread R) (s : σ), threadOf (onThread thread s) = thread :=
    fun thread s => HasThread.get_set thread s
  have hgrown' : (threadOf t).heap.Grown heap := h.twin.heap ▸ hgrown
  have hkept : ∀ {p : Thread R} {s : σ}, p.Kept none (threadOf s) → (threadOf s).heap.Grown heap →
      p.Kept none { heap := heap, pool := (threadOf s).pool } := fun h hg =>
    h.trans ⟨fun _ _ _ _ => Iff.rfl, hg.created, hg.objects⟩
  refine ⟨⟨?_, ?_, ?_⟩, ?_, ?_⟩
  · rw [hset, hset]
    show HasThread.thread.set _ s = HasThread.thread.set _ (HasThread.thread.set _ t)
    conv_lhs => rw [h.twin.same]
    show HasThread.thread.set _ (HasThread.thread.set _ t) = _
    rw [HasThread.set_set, HasThread.set_set, show threadOf (onThread _ t) = _ from hset _ t]
    rfl
  · rw [hset]
    exact fun scratch hscratch => (h.twin.left scratch hscratch).grow hgrown
  · rw [hset]
    exact fun scratch hscratch => (h.twin.right scratch hscratch).grow hgrown'
  · rw [hset]
    exact hkept h.left hgrown
  · rw [hset]
    exact hkept h.right hgrown'

/-- A computation on the heap. -/
def onHeap (f : Heap → Except Error (α × Heap)) : EStateM Error σ α := fun s =>
  match f (threadOf s).heap with
  | .ok (a, heap) => .ok a (onThread { heap := heap, pool := (threadOf s).pool } s)
  | .error e => .error e s

theorem Alike.onHeap {f : Heap → Except Error (α × Heap)}
    (hf : ∀ heap a heap', f heap = .ok (a, heap') → heap.Grown heap') :
    Confined (Qalsh.onHeap f : EStateM Error σ α) := by
  intro p q s t h
  have hheap := h.twin.heap
  unfold Qalsh.onHeap
  rw [← hheap]
  cases hr : f (threadOf s).heap with
  | error e => exact ⟨rfl, h⟩
  | ok out =>
      obtain ⟨a, heap'⟩ := out
      exact ⟨rfl, h.grow (hf _ _ _ hr)⟩

end Heaps

end Qalsh
