/-
  Dispatch.lean --- the ways to make one search.

  A default strategy may search as itself or behind the interface of an arbitrary
  strategy, and an index may be searched directly or through an external object that
  forwards every call to it.  As itself the strategy skips checks and snapshots, and
  through an external object it sees ranges of one hit.  None of it shows.
-/
import Qalsh.Replace

set_option autoImplicit false

namespace Qalsh

open Foundation

variable {R σ ω κ α : Type}

/-! ## The counters of a default strategy -/

namespace DefaultOptions

variable {options : DefaultOptions R ω} {hit : ProjectionHit} {state : QuerySnapshot R}
  {s s' : WithDefault R ω}

theorem Counts.length {pointId : Nat} {self self' : DefaultState R} {decision : HitDecision}
    (h : Counts pointId self decision self') :
    self'.collisionState.length = self.collisionState.length := by
  cases h with
  | finished finish => rfl
  | counted going inside => exact List.length_set ..

/-- A custom rule may do anything, but not to the counters. -/
theorem acceptCustom_length {rule : CandidateRule ω} {decision : HitDecision}
    (h : acceptCustom rule hit s = .ok decision s') :
    s'.1.collisionState.length = s.1.collisionState.length := by
  unfold acceptCustom at h
  obtain ⟨s₀, t, hget, h⟩ := bind_eq_ok.mp h
  cases hget
  dsimp only at h
  split at h
  · obtain ⟨rfl, rfl⟩ := pure_eq_ok.mp h
    rfl
  · split at h
    · obtain ⟨_, _, hthrow, -⟩ := bind_eq_ok.mp h
      cases hthrow
    · split at h
      · obtain ⟨rfl, rfl⟩ := pure_eq_ok.mp h
        rfl
      · split at h
        · obtain ⟨_, _, hthrow, -⟩ := bind_eq_ok.mp h
          cases hthrow
        · obtain ⟨_, t, hmodify, h⟩ := bind_eq_ok.mp h
          obtain rfl := modifyDefault_eq_ok.mp hmodify
          obtain ⟨accepted, t, hrule, h⟩ := bind_eq_ok.mp h
          obtain ⟨-, hmembers⟩ := outside_eq_ok.mp hrule
          split at h
          · obtain ⟨rfl, rfl⟩ := pure_eq_ok.mp h
            rw [hmembers]
            exact List.length_set ..
          · obtain ⟨_, t', hmodify, h⟩ := bind_eq_ok.mp h
            obtain rfl := modifyDefault_eq_ok.mp hmodify
            obtain ⟨rfl, rfl⟩ := pure_eq_ok.mp h
            rw [hmembers]
            exact (List.length_set ..).trans (List.length_set ..)

/-- A hit on a point with a counter, as itself and behind the interface. -/
theorem acceptRanged_eq (hlt : hit.pointId < s.1.collisionState.length) :
    options.acceptRanged hit state s = options.onProjectionHit hit state s := by
  unfold acceptRanged onProjectionHit
  cases options.candidateRule with
  | some rule => rfl
  | none =>
      have hinside : ¬hit.pointId ≥ s.1.collisionState.length := Nat.not_le.mpr hlt
      dsimp only
      unfold acceptStandard
      rw [bind_apply, bind_apply, get_apply]
      dsimp only
      unfold acceptBuiltinId
      by_cases hfinish : s.1.finishRequested = true
      · rw [if_pos hfinish, if_pos hfinish]
      · rw [if_neg hfinish, if_neg hfinish, bind_apply, get_apply]
        dsimp only
        rw [if_neg hinside, if_neg hinside]

end DefaultOptions

namespace Callbacks

variable [RadiusArithmetic R] {options : DefaultOptions R ω} {callbacks : Callbacks R (WithDefault R ω)}
  {s s' : WithDefault R ω} {call : Call R} {answer : Answer}

theorem Default.accept_length (h : callbacks.Default options) {hit : ProjectionHit}
    (state : QuerySnapshot R) {decision : HitDecision}
    (hcall : callbacks.accept hit state s = .ok decision s') :
    s'.1.collisionState.length = s.1.collisionState.length := by
  cases hrule : options.candidateRule with
  | none => exact (h.counts hrule hcall).length
  | some rule =>
      rcases h.accept with haccept | haccept
      · rw [haccept] at hcall
        simp only [DefaultOptions.acceptRanged, hrule] at hcall
        exact DefaultOptions.acceptCustom_length hcall
      · rw [haccept] at hcall
        simp only [DefaultOptions.onProjectionHit, hrule] at hcall
        exact DefaultOptions.acceptCustom_length hcall

/-- No call but `start` changes the number of counters. -/
theorem Default.length (h : callbacks.Default options) (answers : callbacks.Answers s s' call answer)
    (hcall : ∀ query, call ≠ .start query) :
    s'.1.collisionState.length = s.1.collisionState.length := by
  cases answers with
  | start hstart => exact absurd rfl (hcall _)
  | next hnext =>
      have hstep := h.next hnext
      generalize s'.1 = self' at hstep ⊢
      cases hstep with
      | finished finish => rfl
      | stopped going check ruled => rfl
      | exhausted going empty all => rfl
      | scans going pending => rfl
      | advances going empty some ruled => rfl
  | hit hhit => exact h.accept_length _ hhit
  | evaluation hevaluation => rw [(h.evaluation hevaluation).1.members]
  | boundary hboundary =>
      obtain ⟨schedule, -, hmay⟩ := h.boundary hboundary
      rw [hmay.members]
  | advanced hadvanced => rw [h.advanced hadvanced]
  | access haccess => rw [h.accessor haccess]

end Callbacks

/-! ## As itself and behind the interface -/

namespace DefaultOptions

variable [RadiusArithmetic R] {options : DefaultOptions R ω}

/-- The two searches are in one state, with a counter for every point. -/
def Level (points : Nat) (s t : WithDefault R ω) : Prop :=
  s = t ∧ s.1.collisionState.length = points

omit [RadiusArithmetic R] in
theorem agrees_level {points : Nat} {x : EStateM Error (WithDefault R ω) α}
    (hx : ∀ {s a s'}, x s = .ok a s' → s'.1.collisionState.length = s.1.collisionState.length) :
    Agrees (Level points) SameRest x x := by
  rintro s _ ⟨rfl, hlength⟩
  cases hcall : x s with
  | ok a s' => exact ⟨rfl, rfl, (hx hcall).trans hlength⟩
  | error e s' => exact ⟨rfl, rfl⟩

/-- The callbacks of a default strategy as itself and behind the interface. -/
theorem related_dispatched (options : DefaultOptions R ω) (points : Nat)
    (accessor : Nat → EStateM Error ω PointView) :
    Callbacks.Related points (Level points) SameRest (.ofDefault options accessor)
      (.ofErased options accessor) := by
  have hdefault := Callbacks.default_ofErased options accessor
  exact
    { unwind := fun s t hst => congrArg Prod.snd hst.1
      next := fun state => agrees_level fun h => hdefault.length (.next h) nofun
      onEvaluation := fun event state => agrees_level fun h => hdefault.length (.evaluation h) nofun
      onScanBoundary := fun event state => agrees_level fun h => hdefault.length (.boundary h) nofun
      onRadiusAdvanced := fun state => agrees_level fun h => hdefault.length (.advanced h) nofun
      accessor := fun pointId => agrees_level fun h => hdefault.length (.access h) nofun
      accept := fun hit hlt state => by
        rintro s t hst
        have hinside : hit.pointId < s.1.collisionState.length := hst.2.symm ▸ hlt
        have hsame := agrees_level (x := options.onProjectionHit hit state)
          (fun h => hdefault.accept_length state h) s t hst
        rw [show (Callbacks.ofDefault options accessor).accept hit state s =
          options.onProjectionHit hit state s from acceptRanged_eq hinside]
        exact hsame }

omit [RadiusArithmetic R] in
/-- Both start in one state, whatever earlier searches have left in the members. -/
theorem start_level (options : DefaultOptions R ω) (query : QueryStart R) :
    Simulates SameRest (options.start query) (options.start query)
      (fun a b s t => a = b ∧ Level query.numPoints s t) SameRest := by
  intro s t hst
  have hsame := start_sameRest options query s t hst
  cases hstart : options.start query s with
  | ok a s' =>
      rw [hstart] at hsame
      cases hstart' : options.start query t with
      | ok b t' =>
          rw [hstart'] at hsame
          refine ⟨rfl, hsame, ?_⟩
          rw [(start_spec hstart).1]
          exact List.length_replicate
      | error e t' => rw [hstart'] at hsame; exact hsame.elim
  | error e s' =>
      rw [hstart] at hsame
      cases hstart' : options.start query t with
      | ok b t' => rw [hstart'] at hsame; exact hsame.elim
      | error e' t' => rw [hstart'] at hsame; exact hsame

end DefaultOptions

/-! ## Through an external object -/

/-- A search asks an external object what it asks the index behind it. -/
theorem Backing.through [RadiusArithmetic R] [Platform] {object object' : IndexObject}
    (h : object'.index = object.index) {content : Tables object.index.metadata.numPoints}
    (b : Backing R object.index content) :
    ∃ (content' : Tables object'.index.metadata.numPoints) (b' : Backing R object'.index content'),
      ∀ {σ : Type} (options : SearchOptions) (query : PointView) (k : Nat) (strategy : SearchStrategy R σ)
        (accessor : Nat → EStateM Error σ PointView) (accept : Accept R σ),
        b'.search options query k strategy accessor accept =
          b.search options query k strategy accessor accept := by
  cases object with
  | builtIn index =>
      cases object' with
      | builtIn index' =>
          cases h
          exact ⟨content, b, fun _ _ _ _ _ _ => rfl⟩
      | forwarding address index' =>
          cases h
          exact ⟨content, b, fun _ _ _ _ _ _ => rfl⟩
  | forwarding address index =>
      cases object' with
      | builtIn index' =>
          cases h
          exact ⟨content, b, fun _ _ _ _ _ _ => rfl⟩
      | forwarding address' index' =>
          cases h
          exact ⟨content, b, fun _ _ _ _ _ _ => rfl⟩

/-! ## Searches -/

section Ends

variable [RadiusArithmetic R] [Platform] [HasThread R ω]

/-- The outcomes give the same answer and leave the same behind, but for the members of the
object and the scratch. -/
def SameEnd : EStateM.Result Error (WithDefault R ω) α → EStateM.Result Error (WithDefault R ω) α → Prop
  | .ok a s, .ok a' t => a = a' ∧ Twin s.2 t.2
  | .error e s, .error e' t => e = e' ∧ Twin s.2 t.2
  | _, _ => False

omit [RadiusArithmetic R] in
/-- Searches of sessions end alike when the searches over the tables do. -/
theorem Twinned.sameEnd {x y : EStateM.Result Error (WithDefault R ω) α}
    {f g : EStateM Error (WithDefault R ω) α} {s t : WithDefault R ω}
    {P : WithDefault R ω → WithDefault R ω → Prop} (h : Twinned x (f s)) (h' : Twinned y (g t))
    (hfg : Simulates P f g (fun a a' u v => a = a' ∧ SameRest u v) SameRest) (hst : P s t) :
    SameEnd x y := by
  have hboth := hfg s t hst
  have hrest : ∀ {s' t' u v : WithDefault R ω}, Twin s' u → Twin t' v → SameRest u v →
      Twin s'.2 t'.2 := by
    intro s' t' u v hs' ht' huv
    have hleft : Twin s'.2 v.2 := huv ▸ hs'.second
    exact hleft.trans ht'.second.symm
  generalize f s = left at h hboth
  generalize g t = right at h' hboth
  cases left with
  | ok a u =>
      cases right with
      | error e v => exact hboth.elim
      | ok a' v =>
          cases x with
          | error e s' => exact h.elim
          | ok b s' =>
              cases y with
              | error e t' => exact h'.elim
              | ok b' t' => exact ⟨h.1.trans (hboth.1.trans h'.1.symm), hrest h.2 h'.2 hboth.2⟩
  | error e u =>
      cases right with
      | ok a v => exact hboth.elim
      | error e' v =>
          cases x with
          | ok b s' => exact h.elim
          | error f s' =>
              cases y with
              | ok b t' => exact h'.elim
              | error f' t' => exact ⟨h.1.trans (hboth.1.trans h'.1.symm), hrest h.2 h'.2 hboth.2⟩

/-- The callbacks behind the interface leave the searches of their thread alone too. -/
theorem DefaultOptions.Alike.confined_erased {options : DefaultOptions R ω}
    (h : options.Alike options) {accessor : Nat → EStateM Error ω PointView}
    (haccessor : ∀ pointId, Confined (accessor pointId)) :
    (Callbacks.ofErased options accessor).Confined where
  strategy := h.strategy
  accessor pointId := (haccessor pointId).outside
  accept hit state := (h.acceptHit hit state).1

end Ends

namespace Session

variable [RadiusArithmetic R] [Platform] {session session' : Session R} {options : SearchOptions}
  {query : PointView} {k : Nat}

/-- It cannot be told how a search was called.  A default strategy, whose rules may keep state of
their own, searches as itself in one session and behind the interface of an arbitrary strategy
in another; either index may be an external object that forwards to the other's.  The
transcripts are the same, so are the results or exceptions, and what the rules and the
accessor have made of their state is the same all along and at the end. -/
theorem search_dispatched [HasThread R ω] (hthread : session'.thread = session.thread)
    (hindex : session'.object.index = session.object.index) {dflt : DefaultOptions R ω}
    (halike : dflt.Alike dflt) {accessor : Nat → EStateM Error ω PointView}
    (haccessor : ∀ pointId, Confined (accessor pointId)) {view : ω → κ} (hview : Discreet view)
    {s t : WithDefault R ω} (hs : threadOf s = session.thread) (hst : SameRest s t) :
    SameEnd
        (session.searchBy (deliverRangeDefault dflt) (.ofDefault dflt accessor) options query k s)
        (session'.searchBy (deliverRange dflt.strategy) (.ofErased dflt accessor) options query k t) ∧
      session'.transcript (fun s => view s.2) (.ofErased dflt accessor) options query k t =
        session.transcript (fun s => view s.2) (.ofDefault dflt accessor) options query k s := by
  obtain ⟨content, ⟨b⟩⟩ := session.backed
  obtain ⟨content', b', hthrough⟩ := b.through hindex
  have hrest : threadOf t.2 = threadOf s.2 := congrArg threadOf hst.symm
  have ht : threadOf t = session'.thread := hrest.trans (hs.trans hthread.symm)
  have hconfined := halike.confined haccessor
  have hconfined' := halike.confined_erased haccessor
  have hrelated := DefaultOptions.related_dispatched dflt session.object.metadata.numPoints accessor
  constructor
  · have hplain : Simulates SameRest
        (b.search options query k (Callbacks.ofDefault dflt accessor).strategy
          (Callbacks.ofDefault dflt accessor).accessor (Callbacks.ofDefault dflt accessor).accept)
        (b.search options query k (Callbacks.ofErased dflt accessor).strategy
          (Callbacks.ofErased dflt accessor).accessor (Callbacks.ofErased dflt accessor).accept)
        (fun result result' u v => result = result' ∧ SameRest u v) SameRest := by
      refine (b.search_related hrelated (fun _ _ h => h) fun plan hplan radius => ?_).consequence
        (fun _ _ h => h) (fun _ _ _ _ hq => ⟨hq.1, congrArg Prod.snd hq.2.1⟩) fun _ _ he => he
      exact (dflt.start_level _).consequence (fun _ _ h => h) (fun _ _ _ _ hq => hq.2) fun _ _ he => he
    have hright := searchBy_twinned hconfined' (deliverRange_delivers dflt.strategy) b' options query k ht
    rw [hthrough] at hright
    exact (searchBy_twinned hconfined dflt.deliverRangeDefault_delivers b options query k hs).sameEnd
      hright hplain hst
  · have hobserve : Discreet fun s : WithDefault R ω => view s.2 := fun _ _ htwin => hview _ _ htwin.second
    refine (searchBy_related b b' hconfined hconfined' dflt.deliverRangeDefault_delivers
      (deliverRange_delivers dflt.strategy) hobserve hobserve hs ht
      (P := fun u v => u.1 = v.1 ∧ SameRest u.2 v.2) ⟨rfl, hst⟩ ?_).2
    rw [hthrough]
    refine (b.search_related (hrelated.recorded fun s t hst => congrArg (fun s => view s.2) hst.1)
      (fun _ _ h => h) fun plan hplan radius => ?_).consequence (fun _ _ h => h)
        (fun _ _ _ _ hq => ⟨hq.1, hq.2.1⟩) fun _ _ he => he.1
    exact ((dflt.start_level _).recorded fun s t hst => lineOf_congr (congrArg view hst)).consequence
      (fun _ _ h => h) (fun _ _ _ _ hq => hq.2) fun _ _ he => he

/-- An arbitrary strategy cannot tell an external object from the index it forwards to, nor
one driver from another. -/
theorem search_forwarded [HasThread R σ] (hthread : session'.thread = session.thread)
    (hindex : session'.object.index = session.object.index) {callbacks : Callbacks R σ}
    (hconfined : callbacks.Confined) {driver driver' : RangeDriver R σ}
    (hdelivers : driver.Delivers callbacks.accept) (hdelivers' : driver'.Delivers callbacks.accept)
    {observe : σ → κ} (hobserve : Discreet observe) {s : σ} (hs : threadOf s = session.thread) :
    Twinned (session'.searchBy driver' callbacks options query k s)
        (session.searchBy driver callbacks options query k s) ∧
      session'.transcript observe callbacks options query k s =
        session.transcript observe callbacks options query k s := by
  obtain ⟨content, ⟨b⟩⟩ := session.backed
  obtain ⟨content', b', hthrough⟩ := b.through hindex
  have hs' : threadOf s = session'.thread := hs.trans hthread.symm
  constructor
  · have hright := searchBy_twinned hconfined hdelivers' b' options query k hs'
    rw [hthrough] at hright
    exact hright.both (searchBy_twinned hconfined hdelivers b options query k hs)
  · refine (searchBy_related b b' hconfined hconfined hdelivers hdelivers' hobserve hobserve hs hs'
      (P := fun u v => u = v) rfl ?_).2
    rw [hthrough]
    exact (Simulates.same _).consequence (fun _ _ h => h)
      (fun _ _ _ _ hq => ⟨hq.1, congrArg Prod.fst hq.2⟩) fun _ _ he => congrArg Prod.fst he

end Session

namespace Session

/-- An index and an external object that forwards to it, on the heap of one thread. -/
theorem exists_forwarding [Platform] (R : Type) (index : BuiltInIndex) (h : index.backend.Accepted) :
    ∃ session session' : Session R, session'.thread = session.thread ∧
      session.object = .builtIn index ∧ session'.object = .forwarding (index.address + 1) index := by
  let heap : Heap :=
    { objects := [some (.builtIn index), some (.forwarding (index.address + 1) index)]
      accepted := fun object hmem => by
        simp only [List.mem_cons, Option.some.injEq, List.not_mem_nil, or_false] at hmem
        obtain rfl | rfl := hmem
        · exact h
        · exact h
      distinct := fun i j a b hi hj hab => by
        match i, j with
        | 0, 0 => rfl
        | 1, 1 => rfl
        | 0, 1 => cases hi; cases hj; exact absurd hab (Nat.lt_succ_self _).ne
        | 1, 0 => cases hi; cases hj; exact absurd hab (Nat.lt_succ_self _).ne'
        | i + 2, _ => cases hi
        | _, j + 2 => cases hj }
  let thread : Thread R := { heap := heap, pool := [] }
  have hvalid : thread.Valid := fun scratch hmem => absurd hmem List.not_mem_nil
  exact ⟨⟨thread, hvalid, 0, .builtIn index, rfl⟩,
    ⟨thread, hvalid, 1, .forwarding (index.address + 1) index, rfl⟩, rfl, rfl, rfl⟩

/-- The index of the point on the line, as itself and through an external object. -/
theorem search_dispatched_unit :
    letI := exactPlatform true
    let dflt := (UserRules.plain Binary32).options
    let accessor := fun pointId => ((UserRules.plain Binary32).accessor pointId).run
    ∃ session session' : Session Binary32, session.object = .builtIn ⟨0, .memory unitIndex⟩ ∧
      session'.object = .forwarding 1 ⟨0, .memory unitIndex⟩ ∧
      session'.transcript (fun s => s.2.1) (.ofErased dflt accessor) SearchOptions.blank [one] 1
          (DefaultState.blank Binary32, (), session.thread) =
        session.transcript (fun s => s.2.1) (.ofDefault dflt accessor) SearchOptions.blank [one] 1
          (DefaultState.blank Binary32, (), session.thread) := by
  let := exactPlatform true
  obtain ⟨session, session', hthread, hobject, hobject'⟩ :=
    exists_forwarding Binary32 ⟨0, .memory unitIndex⟩ (.memory unitIndex_built)
  refine ⟨session, session', hobject, hobject', ?_⟩
  have hindex : session'.object.index = session.object.index := by rw [hobject, hobject']; rfl
  exact (search_dispatched hthread hindex (UserRules.plain Binary32).options_alike
    (fun pointId => ((UserRules.plain Binary32).accessor pointId).run_confined) discreet_fst rfl rfl).2

/-- One scan of the point on the line, through an external object and without it. -/
theorem search_forwarded_unit :
    letI := exactPlatform true
    ∃ session session' : Session Binary32, session.object = .builtIn ⟨0, .memory unitIndex⟩ ∧
      session'.object = .forwarding 1 ⟨0, .memory unitIndex⟩ ∧
      session'.transcript Prod.fst (UserStrategy.once Binary32).callbacks SearchOptions.blank [one] 1
          (0, session.thread) =
        session.transcript Prod.fst (UserStrategy.once Binary32).callbacks SearchOptions.blank [one] 1
          (0, session.thread) := by
  let := exactPlatform true
  obtain ⟨session, session', hthread, hobject, hobject'⟩ :=
    exists_forwarding Binary32 ⟨0, .memory unitIndex⟩ (.memory unitIndex_built)
  refine ⟨session, session', hobject, hobject', ?_⟩
  have hindex : session'.object.index = session.object.index := by rw [hobject, hobject']; rfl
  exact (search_forwarded hthread hindex (UserStrategy.once Binary32).confined
    (deliverRange_delivers (UserStrategy.once Binary32).strategy)
    (deliverRange_delivers (UserStrategy.once Binary32).strategy) discreet_fst rfl).2

end Session

end Qalsh
