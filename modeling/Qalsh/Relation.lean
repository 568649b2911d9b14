/-
  Relation.lean --- searches over the same tables with callbacks that correspond.

  Two sets of callbacks may keep different states.  If a relation between the states is
  kept by every pair of callbacks, which give the same answers under it, then the
  searches return the same result or throw the same exception.
-/
import Qalsh.Session

set_option autoImplicit false

namespace Qalsh

open Foundation

variable {R : Type} [RadiusArithmetic R] [Platform] {σ τ : Type}

/-- Callbacks that answer alike in related states, for hits on `points` points. -/
structure Callbacks.Related (points : Nat) (Rel Err : σ → τ → Prop) (callbacks : Callbacks R σ)
    (callbacks' : Callbacks R τ) : Prop where
  unwind : ∀ s t, Rel s t → Err s t
  next : ∀ state, Agrees Rel Err (callbacks.strategy.next state) (callbacks'.strategy.next state)
  onEvaluation : ∀ event state, Agrees Rel Err (callbacks.strategy.onEvaluation event state)
    (callbacks'.strategy.onEvaluation event state)
  onScanBoundary : ∀ event state, Agrees Rel Err (callbacks.strategy.onScanBoundary event state)
    (callbacks'.strategy.onScanBoundary event state)
  onRadiusAdvanced : ∀ state, Agrees Rel Err (callbacks.strategy.onRadiusAdvanced state)
    (callbacks'.strategy.onRadiusAdvanced state)
  accessor : ∀ pointId, Agrees Rel Err (callbacks.accessor pointId) (callbacks'.accessor pointId)
  accept : ∀ hit, hit.pointId < points → ∀ state,
    Agrees Rel Err (callbacks.accept hit state) (callbacks'.accept hit state)

namespace Setting

variable {setting : Setting} {Rel Err Before : σ → τ → Prop} {callbacks : Callbacks R σ}
  {callbacks' : Callbacks R τ}

omit [Platform] in
/-- Every hit of a setting is on one of its points. -/
theorem hitAt_pointId_lt (setting : Setting) (tableId position : Nat) :
    ((setting.table tableId).hitAt position).pointId < setting.metadata.numPoints := by
  rcases Nat.lt_or_ge position setting.metadata.numPoints with hlt | hge
  · exact (setting.table tableId).table.pointId_lt hlt
  · change ((setting.table tableId).table.entries.getD position default).pointId < _
    rw [List.getD_eq_default _ _ (by rw [SortedTable.length_entries]; exact hge)]
    exact setting.k_pos.trans_le setting.k_le

omit [Platform] in
/-- A scan with callbacks that correspond; the private parts stay equal. -/
theorem scan_related (h : callbacks.Related setting.metadata.numPoints Rel Err callbacks')
    {evaluate : Progress R → Nat → EStateM Error (Private R × σ) (Progress R)}
    {evaluate' : Progress R → Nat → EStateM Error (Private R × τ) (Progress R)}
    (hkeeps : Qalsh.Keeps evaluate)
    (hevaluate : ∀ progress pointId, Agrees (fun u v => u.1 = v.1 ∧ Rel u.2 v.2)
      (fun u v => u.1 = v.1 ∧ Err u.2 v.2) (evaluate progress pointId) (evaluate' progress pointId))
    (tableId : Nat) (bound : R) (limit : Nat) (scope : ScanScope) (progress : Progress R) :
    Simulates (fun u v => u.1 = v.1 ∧ Rel u.2 v.2)
      ((setting.services callbacks.accept).scan evaluate tableId bound limit scope progress)
      ((setting.services callbacks'.accept).scan evaluate' tableId bound limit scope progress)
      (fun out out' u v => out = out' ∧ progress.runtime.SameRound out.2.runtime ∧
        u.1 = v.1 ∧ Rel u.2 v.2) (fun u v => u.1 = v.1 ∧ Err u.2 v.2) := by
  have herr : ∀ (u : Private R × σ) (v : Private R × τ), u.1 = v.1 ∧ Rel u.2 v.2 →
      u.1 = v.1 ∧ Err u.2 v.2 := fun u v huv => ⟨huv.1, h.unwind _ _ huv.2⟩
  refine Simulates.require herr fun _ => ?_
  dsimp only
  split
  · refine Simulates.get_bind fun u v huv => ?_
    obtain ⟨hpriv, hrel⟩ := huv
    rw [← hpriv]
    refine Simulates.consequence (R := fun u v => u.1 = v.1 ∧ Rel u.2 v.2) ?_
      (fun u' v' huv => ?_) (fun _ _ _ _ hq => hq) fun _ _ he => he
    · refine Simulates.bind (foldlM_deliverHit_agrees hkeeps hevaluate _ (fun hit hhit state => ?_)
        progress) fun progress' progress'' u v hout => ?_
      · obtain ⟨position, -, rfl⟩ := List.mem_map.mp hhit
        exact (h.accept _ (setting.hitAt_pointId_lt tableId position) state).outside.consequence
          (fun _ _ huv => huv) (fun _ _ _ _ hq => ⟨hq.2.1, hq.1, hq.2.2⟩) fun _ _ he => he
      · obtain ⟨rfl, hround, hpriv', hrel'⟩ := hout
        refine ⟨rfl, hround, ?_, hrel'⟩
        dsimp only
        rw [hpriv']
    · obtain ⟨rfl, rfl⟩ := huv
      exact ⟨hpriv, hrel⟩
  · exact fun u v huv => ⟨rfl, herr u v huv⟩

/-- The contexts of two such searches. -/
theorem context_related (h : callbacks.Related setting.metadata.numPoints Rel Err callbacks') :
    SearchContext.Related (R := R) (fun _ u v => u.1 = v.1 ∧ Rel u.2 v.2)
      (fun u v => u.1 = v.1 ∧ Err u.2 v.2) (fun _ => True)
      (setting.context callbacks.strategy callbacks.accessor callbacks.accept)
      (setting.context callbacks'.strategy callbacks'.accessor callbacks'.accept) := by
  have hcallback : ∀ {α : Type} {x : EStateM Error σ α} {y : EStateM Error τ α}, Agrees Rel Err x y →
      Agrees (fun (u : Private R × σ) (v : Private R × τ) => u.1 = v.1 ∧ Rel u.2 v.2)
        (fun u v => u.1 = v.1 ∧ Err u.2 v.2) (outside x) (outside y) := fun hxy =>
    hxy.outside.consequence (fun _ _ huv => huv) (fun _ _ _ _ hq => ⟨hq.2.1, hq.1, hq.2.2⟩)
      fun _ _ he => he
  exact
    { parameters := rfl
      width := setting.metadata_valid.qalsh.width
      raise := fun _ _ huv => huv
      unwind := fun huv => ⟨huv.1, h.unwind _ _ huv.2⟩
      next := fun _ state => (hcallback (h.next state)).consequence (fun _ _ huv => huv)
        (fun _ _ _ _ hq => ⟨hq.1, trivial, hq.2⟩) fun _ _ he => he
      onEvaluation := fun _ event state => hcallback (h.onEvaluation event state)
      onScanBoundary := fun _ event state => hcallback (h.onScanBoundary event state)
      onRadiusAdvanced := fun _ state => hcallback (h.onRadiusAdvanced state)
      accessor := fun _ pointId => hcallback (h.accessor pointId)
      seen := fun _ pointId _ => Simulates.get_bind fun u v huv =>
        Simulates.pure fun u' v' heq => by
          obtain ⟨rfl, rfl⟩ := heq
          exact ⟨by rw [huv.1], huv⟩
      mark := fun _ pointId _ => Simulates.modify fun u v huv =>
        ⟨rfl, by dsimp only; rw [huv.1], huv.2⟩
      scan := fun b evaluate evaluate' hkeeps _ hevaluate tableId _ limit _ scope _ progress =>
        setting.scan_related h hkeeps hevaluate tableId b limit scope progress }

/-- Searches from starts that correspond. -/
theorem searchFrom_related (h : callbacks.Related setting.metadata.numPoints Rel Err callbacks')
    (hstart : Simulates Before
      (callbacks.strategy.start (queryStart setting.metadata setting.tableCount setting.k
        (RadiusArithmetic.ofFloat setting.metadata.qalsh.initialRadius)))
      (callbacks'.strategy.start (queryStart setting.metadata setting.tableCount setting.k
        (RadiusArithmetic.ofFloat setting.metadata.qalsh.initialRadius))) (fun _ _ => Rel) Err)
    {bound : R} (hbound : windowBound setting.metadata.qalsh.bucketWidth
      (RadiusArithmetic.ofFloat setting.metadata.qalsh.initialRadius) = .ok bound) :
    Simulates Before
      (setting.searchFrom callbacks.strategy callbacks.accessor callbacks.accept bound)
      (setting.searchFrom callbacks'.strategy callbacks'.accessor callbacks'.accept bound)
      (fun result result' s t => result = result' ∧ Rel s t) Err := by
  unfold searchFrom
  refine Simulates.bind hstart fun _ _ => Simulates.lift _ (fun s t => h.unwind s t) fun limit _ => ?_
  have hloop := (setting.context_related h).searchLoop setting.quantum_pos limit
    (SearchRuntime.initial (RadiusArithmetic.ofFloat setting.metadata.qalsh.initialRadius) bound
      setting.tableCount)
    (RadiusArithmetic.isFinite_ofFloat setting.metadata_valid.qalsh.radius_finite) hbound
  refine Simulates.bind (M := fun out out' s t => out = out' ∧ Rel s t)
    ((Simulates.enclosed_both setting.fresh (hloop.consequence (fun _ _ huv => huv)
      (fun _ _ _ _ hq => ⟨hq.1, hq.2.2⟩) fun _ _ he => he.2)).consequence
        (fun _ _ hst => ⟨rfl, hst⟩) (fun _ _ _ _ hq => hq) fun _ _ he => he) fun out out' s t hout => ?_
  obtain ⟨rfl, hrel⟩ := hout
  exact ⟨rfl, hrel⟩

end Setting

/-- Searches over the tables of an index with callbacks that correspond. -/
theorem Backing.search_related {object : IndexObject} {content : Tables object.index.metadata.numPoints}
    (b : Backing R object.index content) {options : SearchOptions} {query : PointView} {k : Nat}
    {Rel Err Before : σ → τ → Prop} {callbacks : Callbacks R σ} {callbacks' : Callbacks R τ}
    (h : callbacks.Related object.metadata.numPoints Rel Err callbacks')
    (hbefore : ∀ s t, Before s t → Err s t)
    (hstart : ∀ plan, planQuery object options query k = .ok plan → ∀ radius,
      Simulates Before
        (callbacks.strategy.start (queryStart object.metadata plan.tableCount k radius))
        (callbacks'.strategy.start (queryStart object.metadata plan.tableCount k radius))
        (fun _ _ => Rel) Err) :
    Simulates Before
      (b.search options query k callbacks.strategy callbacks.accessor callbacks.accept)
      (b.search options query k callbacks'.strategy callbacks'.accessor callbacks'.accept)
      (fun result result' s t => result = result' ∧ Rel s t) Err := by
  cases hplan : planQuery object options query k with
  | error e =>
      rw [b.search_error hplan, b.search_error hplan]
      exact fun s t hst => ⟨rfl, hbefore s t hst⟩
  | ok plan =>
      rw [b.search_planned hplan, b.search_planned hplan]
      unfold searchPlanned
      refine Simulates.lift _ hbefore fun bound hbound => ?_
      refine Simulates.bind (Simulates.forM_range (I := fun _ => Before) (E := Err) plan.tableCount
        fun i _ => Simulates.liftResult (fun _ _ _ _ hst => hst) hbefore) fun _ _ => ?_
      split
      · exact Setting.searchFrom_related h (hstart plan hplan _) hbound
      · exact fun s t hst => ⟨rfl, hbefore s t hst⟩

end Qalsh
