/-
  Nearest.lean --- the neighbors of a search are the nearest points it has evaluated.

  The engine evaluates with a bound: a point that cannot enter the full list of
  neighbors may come back as infinitely far.  The list is still that of the `k`
  nearest points among all evaluated, by their distances without a bound, and of the
  equally near the ones with the smaller ids.
-/
import Qalsh.Account
import Qalsh.Foundation.KBest

set_option autoImplicit false

namespace Qalsh

open Foundation

/-! ## The order of neighbors -/

/-- Nearer first, and of the equally near the smaller id. -/
def nearness (neighbor : Neighbor) : ℕ ×ₗ ℕ := toLex (neighbor.distance.magnitude, neighbor.pointId)

theorem betterNeighbor_iff {a b : Neighbor} (ha : Magnitude a.distance) (hb : Magnitude b.distance) :
    betterNeighbor a b = true ↔ nearness a < nearness b := by
  have hcode : ∀ {x : Binary32}, Magnitude x → x.orderKey = x.magnitude := magnitude_orderKey
  simp only [betterNeighbor, Binary32.lt, Binary32.eq, ha.1, hb.1, hcode ha, hcode hb, nearness,
    Prod.Lex.toLex_lt_toLex, Bool.or_eq_true, Bool.and_eq_true, Bool.not_false, Bool.true_and,
    decide_eq_true_eq, Nat.cast_lt, Nat.cast_inj]

theorem leading_getD {α : Type} (p : α → Bool) (d : α) (items : List α) :
    leading (fun i => p (items.getD i d)) items.length = (items.takeWhile p).length := by
  induction items with
  | nil => rfl
  | cons a rest ih =>
      rw [List.length_cons, leading, List.takeWhile_cons]
      cases hp : p a with
      | false => simp [hp]
      | true =>
          simp only [List.getD_cons_zero, hp, if_true, List.getD_cons_succ, List.length_cons]
          rw [ih]

theorem insertIdx_length_append {α : Type} (before after : List α) (c : α) :
    (before ++ after).insertIdx before.length c = before ++ c :: after := by
  induction before with
  | nil => rfl
  | cons a rest ih => exact congrArg (a :: ·) ih

/-- Where the binary search of `InsertNeighbor` puts a candidate. -/
theorem insertNeighbor_eq {neighbors : List Neighbor} {candidate : Neighbor} {k : Nat}
    (hsorted : neighbors.Pairwise fun a b => nearness a < nearness b)
    (hmagnitude : ∀ n ∈ neighbors, Magnitude n.distance) (hcandidate : Magnitude candidate.distance)
    (hlength : neighbors.length ≤ k) :
    insertNeighbor neighbors candidate k = (insertByKey nearness neighbors candidate).take k := by
  have hbetter : ∀ n ∈ neighbors, betterNeighbor n candidate =
      decide (nearness n < nearness candidate) := by
    intro n hn
    rw [Bool.eq_iff_iff, decide_eq_true_eq]
    exact betterNeighbor_iff (hmagnitude n hn) hcandidate
  have hget : ∀ i < neighbors.length, betterNeighbor (neighbors.getD i default) candidate =
      decide (nearness (neighbors.getD i default) < nearness candidate) := by
    intro i hi
    apply hbetter
    rw [List.getD_eq_getElem _ _ hi]
    exact List.getElem_mem hi
  have hclosed : PrefixClosed (fun i => betterNeighbor (neighbors.getD i default) candidate)
      neighbors.length := by
    intro i j hij hj hlt
    rcases Nat.lt_or_eq_of_le hij with hij | rfl
    · have hlt : betterNeighbor (neighbors.getD j default) candidate = true := hlt
      rw [hget j hj, decide_eq_true_eq] at hlt
      show betterNeighbor (neighbors.getD i default) candidate = true
      rw [hget i (hij.trans hj), decide_eq_true_eq]
      apply lt_trans ?_ hlt
      rw [List.getD_eq_getElem _ _ (hij.trans hj), List.getD_eq_getElem _ _ hj]
      exact List.pairwise_iff_getElem.mp hsorted i j (hij.trans hj) hj hij
    · exact hlt
  have hbisect : bisect (fun i => betterNeighbor (neighbors.getD i default) candidate) 0
      neighbors.length =
      (neighbors.takeWhile fun n => decide (nearness n < nearness candidate)).length := by
    rw [bisect_eq_leading hclosed 0 _ (Nat.zero_le _) (leading_le _ _) le_rfl,
      leading_congr hget]
    exact leading_getD (fun n => decide (nearness n < nearness candidate)) default neighbors
  have hsplit := List.takeWhile_append_dropWhile
    (p := fun n => decide (nearness n < nearness candidate)) (l := neighbors)
  have hinserted : neighbors.insertIdx
      (neighbors.takeWhile fun n => decide (nearness n < nearness candidate)).length candidate =
      insertByKey nearness neighbors candidate := by
    unfold insertByKey
    generalize neighbors.takeWhile (fun n => decide (nearness n < nearness candidate)) = before
      at hsplit ⊢
    generalize neighbors.dropWhile (fun n => decide (nearness n < nearness candidate)) = after
      at hsplit ⊢
    rw [← hsplit]
    exact insertIdx_length_append before after candidate
  have hcount : (insertByKey nearness neighbors candidate).length = neighbors.length + 1 :=
    length_insertByKey candidate
  unfold insertNeighbor
  dsimp only
  rw [hbisect, hinserted]
  split
  · rename_i hfull
    obtain ⟨hfull, hlast⟩ := hfull
    -- the list is full and the candidate comes after all of it
    have hall : neighbors.dropWhile (fun n => decide (nearness n < nearness candidate)) = [] := by
      have := congrArg List.length hsplit
      rw [List.length_append] at this
      exact List.length_eq_zero_iff.mp (by omega)
    rw [hall, List.append_nil] at hsplit
    unfold insertByKey
    rw [hall, hsplit, ← hfull, List.take_left']
    rfl
  · split
    · rw [List.dropLast_eq_take, hcount]
      congr 1
      omega
    · exact (List.take_of_length_le (by omega)).symm

/-! ## Evaluated points -/

variable [Platform]

/-- The distance of a point to the query, if float32 can represent it. -/
def plainDistance (query : PointView) (metric : Metric) (point : PointView) : Option Binary32 :=
  match boundedDistanceValueUnchecked point query metric Binary32.infinity with
  | .ok result => some result.distance
  | .error _ => none

/-- What some points compete with. -/
def competitors (query : PointView) (metric : Metric) (points : List (Nat × PointView)) :
    List Neighbor :=
  points.filterMap fun p => (plainDistance query metric p.2).map fun distance =>
    { distance := distance, pointId := p.1 }

variable {query : PointView} {metric : Metric} {k : Nat} {points : List (Nat × PointView)}
  {neighbors : List Neighbor}

theorem unchecked_exact {point : PointView} {result : BoundedDistance}
    (h : boundedDistanceValueUnchecked point query metric Binary32.infinity = .ok result) :
    result.exact = true ∧ result.distance.isFinite = true ∧ Magnitude result.distance := by
  unfold boundedDistanceValueUnchecked at h
  split at h
  · exact distanceKernel_exact h
  · exact distanceKernel_exact h

theorem mem_competitors {n : Neighbor} : n ∈ competitors query metric points ↔
    ∃ point, (n.pointId, point) ∈ points ∧ plainDistance query metric point = some n.distance := by
  unfold competitors
  rw [List.mem_filterMap]
  constructor
  · rintro ⟨⟨pointId, point⟩, hmem, hn⟩
    obtain ⟨distance, hdistance, rfl⟩ := Option.map_eq_some_iff.mp hn
    exact ⟨point, hmem, hdistance⟩
  · rintro ⟨point, hmem, hdistance⟩
    exact ⟨(n.pointId, point), hmem, Option.map_eq_some_iff.mpr ⟨n.distance, hdistance, rfl⟩⟩

theorem competitor_magnitude {n : Neighbor} (h : n ∈ competitors query metric points) :
    n.distance.isFinite = true ∧ Magnitude n.distance := by
  obtain ⟨point, -, hdistance⟩ := mem_competitors.mp h
  unfold plainDistance at hdistance
  split at hdistance
  · rename_i result hresult
    rw [← Option.some.inj hdistance]
    exact (unchecked_exact hresult).2
  · cases hdistance

/-- The bound an evaluation prunes with. -/
def pruningBound (bounded : Bool) (k : Nat) (neighbors : List Neighbor) : Binary32 :=
  if bounded = true ∧ neighbors.length = k then
    match neighbors.getLast? with
    | some last => last.distance
    | none => Binary32.infinity
  else Binary32.infinity

/-- One evaluation more; it may have been pruned. -/
theorem evaluated_nearest (hk : 0 < k) (h : KBest nearness k (competitors query metric points) neighbors)
    {pointId : Nat} {point : PointView} (hfresh : pointId ∉ points.map Prod.fst) {bounded : Bool}
    {result : BoundedDistance}
    (hresult : boundedDistanceValueUnchecked point query metric
      (pruningBound bounded k neighbors) = .ok result) :
    KBest nearness k (competitors query metric (points ++ [(pointId, point)]))
      (insertEvaluated k neighbors (pointId, result)) := by
  have hlength : neighbors.length ≤ k := h.length_eq.trans_le (Nat.min_le_left _ _)
  have hmagnitude : ∀ n ∈ neighbors, n.distance.isFinite = true ∧ Magnitude n.distance :=
    fun n hn => competitor_magnitude (h.mem n hn)
  have hmore : ∀ distance, plainDistance query metric point = some distance →
      competitors query metric (points ++ [(pointId, point)]) =
        competitors query metric points ++ [{ distance := distance, pointId := pointId }] := by
    intro distance hdistance
    unfold competitors
    rw [List.filterMap_append]
    simp [hdistance]
  have hsame : plainDistance query metric point = none →
      competitors query metric (points ++ [(pointId, point)]) = competitors query metric points := by
    intro hdistance
    unfold competitors
    rw [List.filterMap_append]
    simp [hdistance]
  -- a result that was not pruned is inserted
  have hinsert : boundedDistanceValueUnchecked point query metric Binary32.infinity = .ok result →
      KBest nearness k (competitors query metric (points ++ [(pointId, point)]))
        (insertEvaluated k neighbors (pointId, result)) := by
    intro hplain
    obtain ⟨hexact, -, hvalue⟩ := unchecked_exact hplain
    have hdistance : plainDistance query metric point = some result.distance := by
      unfold plainDistance
      rw [hplain]
    rw [hmore _ hdistance]
    unfold insertEvaluated
    rw [if_pos hexact, insertNeighbor_eq h.sorted (fun n hn => (hmagnitude n hn).2) hvalue hlength]
    apply h.insert
    intro n hn heq
    obtain ⟨other, hmem, -⟩ := mem_competitors.mp hn
    have hid : n.pointId = pointId := congrArg (fun key => (ofLex key).2) heq
    exact hfresh (List.mem_map.mpr ⟨_, hmem, hid⟩)
  unfold pruningBound at hresult
  split at hresult
  · rename_i hfull
    obtain ⟨-, hfull⟩ := hfull
    obtain ⟨last, hlast⟩ : ∃ last, neighbors.getLast? = some last := by
      rw [← Option.isSome_iff_exists, List.getLast?_isSome]
      exact List.ne_nil_of_length_pos (hfull ▸ hk)
    rw [hlast] at hresult
    obtain ⟨hfinite, hvalue⟩ := hmagnitude last (List.mem_of_getLast? hlast)
    have hnonnegative : Binary32.zero.le last.distance = true := by
      rw [Binary32.le_iff_of_isFinite (by decide) hfinite, magnitude_orderKey hvalue]
      have hzero : Binary32.zero.orderKey = 0 := by decide
      rw [hzero]
      exact Int.natCast_nonneg _
    obtain ⟨hok, herror⟩ :=
      boundedDistanceValueUnchecked_filter metric point query hnonnegative hfinite
    cases hplain : boundedDistanceValueUnchecked point query metric Binary32.infinity with
    | error e =>
        rw [(herror e hplain).2] at hresult
        cases hresult
        rw [hsame (by unfold plainDistance; rw [hplain])]
        exact h
    | ok plain =>
        obtain ⟨-, ⟨-, hkept⟩ | ⟨hbeyond, hpruned⟩⟩ := hok plain hplain
        · rw [hkept] at hresult
          cases hresult
          exact hinsert hplain
        · rw [hpruned] at hresult
          cases hresult
          rw [hmore plain.distance (by unfold plainDistance; rw [hplain])]
          apply h.skip hfull
          intro n hn
          obtain ⟨-, hplainFinite, hplainValue⟩ := unchecked_exact hplain
          have hfar : nearness last < nearness { distance := plain.distance, pointId := pointId } := by
            rw [Binary32.lt_iff_of_isFinite hfinite hplainFinite, magnitude_orderKey hvalue,
              magnitude_orderKey hplainValue] at hbeyond
            exact Prod.Lex.toLex_lt_toLex.mpr (Or.inl (Nat.cast_lt.mp hbeyond))
          -- all neighbors are at most as far as the last one
          obtain ⟨init, rfl⟩ := List.getLast?_eq_some_iff.mp hlast
          rcases List.mem_append.mp hn with hn | hn
          · exact ((List.pairwise_append.mp h.sorted).2.2 n hn last
              (List.mem_singleton.mpr rfl)).trans hfar
          · rw [List.mem_singleton.mp hn]
            exact hfar
  · exact hinsert hresult

end Qalsh
