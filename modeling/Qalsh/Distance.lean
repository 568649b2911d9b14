/-
  Distance.lean --- the bounded distance kernel.

  A call with a finite bound accumulates in the same order as an unbounded call and
  may stop early.  The result of a bounded call is the unbounded result filtered by
  the bound, which is what lets the search prune without changing its answer.
-/
import Qalsh.Config

set_option autoImplicit false

namespace Qalsh

open Foundation

structure BoundedDistance where
  distance : Binary32
  exact : Bool
  deriving DecidableEq, Repr

variable [Platform]

/-- The block loop of `DistanceKernel`; `none` is its early exit. -/
def accumulate (metric : Metric) (limit : Platform.Double) (lhs rhs : PointView)
    (sum : Platform.Double) : Option Platform.Double :=
  if lhs = [] then some sum
  else
    let sum := Platform.add sum (Platform.blockSum metric (lhs.take 64) (rhs.take 64))
    if limit < sum then none else accumulate metric limit (lhs.drop 64) (rhs.drop 64) sum
termination_by lhs.length
decreasing_by
  rename_i hne _
  have := List.length_pos_iff.mpr hne
  simp only [List.length_drop]
  omega

/-- The value compared and rounded after the loop. -/
def kernelResult (norm : Metric) (sum : Platform.Double) : Platform.Double :=
  if norm = .l2 then Platform.sqrt sum else sum

/-- The limit of the early exit: the least word above the bound, squared for L2. -/
def earlyExitLimit (norm : Metric) (upperBound : Binary32) : Platform.Double :=
  let expanded := Platform.ofFloat upperBound.nextUp
  if norm = .l2 then Platform.square expanded else expanded

/-- The end of `DistanceKernel`, after the block loop. -/
def roundDistance (value : Platform.Double) (upperBound : Binary32) :
    Except Error BoundedDistance :=
  if Platform.ofFloat Binary32.maxFinite < value then
    if upperBound.isFinite then .ok { distance := Binary32.infinity, exact := false }
    else .error (.overflowError "distance is not representable as float32")
  else
    let distance := Platform.toFloat value
    if upperBound.lt distance then .ok { distance := Binary32.infinity, exact := false }
    else .ok { distance := distance, exact := true }

def distanceKernel (norm : Metric) (lhs rhs : PointView) (upperBound : Binary32) :
    Except Error BoundedDistance :=
  match accumulate norm (earlyExitLimit norm upperBound) lhs rhs Platform.zero with
  | none => .ok { distance := Binary32.infinity, exact := false }
  | some sum => roundDistance (kernelResult norm sum) upperBound

def boundedDistanceValueUnchecked (lhs rhs : PointView) (metric : Metric)
    (upperBound : Binary32) : Except Error BoundedDistance :=
  if metric = .l1 then distanceKernel .l1 lhs rhs upperBound
  else distanceKernel .l2 lhs rhs upperBound

/-! ## The early exit never prunes a distance within the bound -/

/-- The sum the block loop computes when it does not stop. -/
def totalSum (metric : Metric) (lhs rhs : PointView) (sum : Platform.Double) : Platform.Double :=
  if lhs = [] then sum
  else totalSum metric (lhs.drop 64) (rhs.drop 64)
    (Platform.add sum (Platform.blockSum metric (lhs.take 64) (rhs.take 64)))
termination_by lhs.length
decreasing_by
  rename_i hne
  have := List.length_pos_iff.mpr hne
  simp only [List.length_drop]
  omega

theorem le_totalSum (metric : Metric) (lhs rhs : PointView) (sum : Platform.Double) :
    sum ≤ totalSum metric lhs rhs sum := by
  fun_induction totalSum metric lhs rhs sum with
  | case1 lhs rhs => exact le_rfl
  | case2 lhs rhs sum hne ih => exact (Platform.le_add_blockSum _ _ _ _).trans ih

/-- The loop stops early only if the whole sum exceeds the limit. -/
theorem accumulate_cases (metric : Metric) (limit : Platform.Double) (lhs rhs : PointView)
    (sum : Platform.Double) :
    accumulate metric limit lhs rhs sum = some (totalSum metric lhs rhs sum) ∨
      (accumulate metric limit lhs rhs sum = none ∧ limit < totalSum metric lhs rhs sum) := by
  fun_induction accumulate metric limit lhs rhs sum with
  | case1 rhs sum =>
      left
      unfold totalSum
      rw [if_pos rfl]
  | case2 lhs rhs sum hne next hlt =>
      refine Or.inr ⟨rfl, ?_⟩
      unfold totalSum
      rw [if_neg hne]
      exact lt_of_lt_of_le hlt (le_totalSum _ _ _ _)
  | case3 lhs rhs sum hne next hlt ih =>
      unfold totalSum
      rw [if_neg hne]
      exact ih

/-- The value the kernel rounds to float32 at the end. -/
def kernelValue (norm : Metric) (lhs rhs : PointView) : Platform.Double :=
  kernelResult norm (totalSum norm lhs rhs Platform.zero)

theorem le_earlyExitLimit_of_nextUp (norm : Metric) {u : Binary32}
    (hu : u.nextUp = Binary32.infinity) (a : Platform.Double) : a ≤ earlyExitLimit norm u := by
  unfold earlyExitLimit
  rw [hu]
  dsimp only
  split
  · exact Platform.le_infinity_square a
  · exact Platform.le_infinity a

/-- Without a bound the kernel computes the rounded value or reports overflow. -/
theorem distanceKernel_infinity (norm : Metric) (lhs rhs : PointView) :
    distanceKernel norm lhs rhs Binary32.infinity =
      if Platform.ofFloat Binary32.maxFinite < kernelValue norm lhs rhs then
        .error (.overflowError "distance is not representable as float32")
      else .ok { distance := Platform.toFloat (kernelValue norm lhs rhs), exact := true } := by
  have hnext : Binary32.infinity.nextUp = Binary32.infinity := by decide
  have hinf : Binary32.infinity.isFinite = false := by decide
  have hsome : accumulate norm (earlyExitLimit norm Binary32.infinity) lhs rhs Platform.zero =
      some (totalSum norm lhs rhs Platform.zero) := by
    rcases accumulate_cases norm _ lhs rhs Platform.zero with h | ⟨-, hlt⟩
    · exact h
    · exact absurd hlt (not_lt.mpr (le_earlyExitLimit_of_nextUp norm hnext _))
  unfold distanceKernel
  rw [hsome]
  show roundDistance (kernelValue norm lhs rhs) Binary32.infinity = _
  unfold roundDistance
  by_cases hmax : Platform.ofFloat Binary32.maxFinite < kernelValue norm lhs rhs
  · simp [hmax, hinf]
  · obtain ⟨hf, -⟩ := Platform.toFloat_finite (not_lt.mp hmax)
    have hno : Binary32.infinity.lt (Platform.toFloat (kernelValue norm lhs rhs)) = false := by
      have hkey : Binary32.infinity.orderKey = infinityCode := by decide
      simp only [Binary32.isFinite, decide_eq_true_eq] at hf
      rw [← Bool.not_eq_true]
      simp only [Binary32.lt, Bool.and_eq_true, decide_eq_true_eq, hkey]
      rintro ⟨-, hlt⟩
      unfold Binary32.orderKey at hlt
      split at hlt <;> omega
    simp [hmax, hno]

omit [Platform] in
/-- A bound that is not negative, the negative zero included, is ordered by its code. -/
theorem orderKey_of_nonnegative {u : Binary32} (h : Binary32.zero.le u = true) :
    u.orderKey = u.magnitude := by
  simp only [Binary32.le, Bool.and_eq_true, decide_eq_true_eq] at h
  have hz : Binary32.zero.orderKey = 0 := by decide
  have hkey := h.2
  unfold Binary32.orderKey at hkey ⊢
  split
  · rename_i hneg
    rw [if_pos hneg] at hkey
    unfold Binary32.orderKey at hz
    omega
  · rfl

omit [Platform] in
/-- The successor of a bound is a magnitude of the next order key. -/
theorem nextUp_spec {u : Binary32} (hu : Binary32.zero.le u = true) (hf : u.isFinite = true) :
    Magnitude u.nextUp ∧ u.nextUp.orderKey = u.orderKey + 1 := by
  have hlt : u.magnitude < infinityCode := by simpa [Binary32.isFinite] using hf
  have hcode : u.magnitude + 1 ≤ infinityCode := hlt
  unfold Binary32.nextUp
  rw [if_pos hf]
  refine ⟨⟨Binary32.isNaN_ofMagnitude hcode, Binary32.negative_ofMagnitude hcode⟩, ?_⟩
  rw [Binary32.orderKey_ofMagnitude hcode, orderKey_of_nonnegative hu]
  push_cast
  rfl

omit [Platform] in
theorem eq_infinity_of_magnitude {x : Binary32} (hx : Magnitude x) (hf : x.isFinite ≠ true) :
    x = Binary32.infinity := by
  have hnan : ¬ x.isNaN = true := by simp [hx.1]
  simp only [Binary32.isFinite, Binary32.isNaN, decide_eq_true_eq, ne_eq] at hf hnan
  have hmag : x.magnitude = infinityCode := by omega
  rw [Binary32.eq_ofMagnitude x, hmag, hx.2]
  rfl

/-- A sum above the early-exit limit gives a distance above the bound. -/
theorem upperBound_lt_of_limit_lt {norm : Metric} {lhs rhs : PointView} {u : Binary32}
    (hu : Binary32.zero.le u = true) (hf : u.isFinite = true)
    (hmax : kernelValue norm lhs rhs ≤ Platform.ofFloat Binary32.maxFinite)
    (hlt : earlyExitLimit norm u < totalSum norm lhs rhs Platform.zero) :
    u.lt (Platform.toFloat (kernelValue norm lhs rhs)) = true := by
  obtain ⟨hm, hkey⟩ := nextUp_spec hu hf
  obtain ⟨hfin, -⟩ := Platform.toFloat_finite hmax
  -- an infinite successor disables the early exit
  have hfinU : u.nextUp.isFinite = true := by
    by_contra hinf
    exact absurd hlt (not_lt.mpr
      (le_earlyExitLimit_of_nextUp norm (eq_infinity_of_magnitude hm hinf) _))
  have hvalue : Platform.ofFloat u.nextUp ≤ kernelValue norm lhs rhs := by
    unfold earlyExitLimit at hlt
    unfold kernelValue kernelResult
    by_cases hl2 : norm = .l2
    · simp only [hl2, if_true] at hlt ⊢
      rw [← Platform.sqrt_square hm]
      exact Platform.sqrt_mono hlt.le
    · simp only [hl2, if_false] at hlt ⊢
      exact hlt.le
  have hround := Platform.toFloat_mono hvalue hmax
  rw [Platform.toFloat_ofFloat hm hfinU, hkey] at hround
  rw [Binary32.lt_iff_of_isFinite hf hfin]
  omega

/-- The bounded kernel is the unbounded one filtered by the bound. -/
theorem distanceKernel_bounded (norm : Metric) (lhs rhs : PointView) {u : Binary32}
    (hu : Binary32.zero.le u = true) (hf : u.isFinite = true) :
    distanceKernel norm lhs rhs u =
      match distanceKernel norm lhs rhs Binary32.infinity with
      | .ok r => if u.lt r.distance then .ok { distance := Binary32.infinity, exact := false }
          else .ok r
      | .error _ => .ok { distance := Binary32.infinity, exact := false } := by
  rw [distanceKernel_infinity]
  unfold distanceKernel
  by_cases hmax : Platform.ofFloat Binary32.maxFinite < kernelValue norm lhs rhs
  · rw [if_pos hmax]
    rcases accumulate_cases norm (earlyExitLimit norm u) lhs rhs Platform.zero with h | ⟨h, -⟩
    · rw [h]
      show roundDistance (kernelValue norm lhs rhs) u = _
      simp [roundDistance, hmax, hf]
    · rw [h]
  · rw [if_neg hmax]
    rcases accumulate_cases norm (earlyExitLimit norm u) lhs rhs Platform.zero with h | ⟨h, hlt⟩
    · rw [h]
      show roundDistance (kernelValue norm lhs rhs) u = _
      simp [roundDistance, hmax]
    · rw [h]
      simp [upperBound_lt_of_limit_lt hu hf (not_lt.mp hmax) hlt]

/-- An exact distance is a finite magnitude. -/
theorem distanceKernel_exact {norm : Metric} {lhs rhs : PointView} {d : BoundedDistance}
    (h : distanceKernel norm lhs rhs Binary32.infinity = .ok d) :
    d.exact = true ∧ d.distance.isFinite = true ∧ Magnitude d.distance := by
  rw [distanceKernel_infinity] at h
  split at h
  · cases h
  · rename_i hle
    cases h
    obtain ⟨hf, hn⟩ := Platform.toFloat_finite (not_lt.mp hle)
    exact ⟨rfl, hf, Binary32.isNaN_eq_false_of_isFinite hf, hn⟩

/-- The cases of a bounded call: the distance is kept, pruned, or not representable. -/
theorem distanceKernel_filter (norm : Metric) (lhs rhs : PointView) {u : Binary32}
    (hu : Binary32.zero.le u = true) (hf : u.isFinite = true) :
    (∀ d, distanceKernel norm lhs rhs Binary32.infinity = .ok d → d.exact = true ∧
      (d.distance.le u = true ∧ distanceKernel norm lhs rhs u = .ok d ∨
        u.lt d.distance = true ∧ distanceKernel norm lhs rhs u =
          .ok { distance := Binary32.infinity, exact := false })) ∧
    ∀ e, distanceKernel norm lhs rhs Binary32.infinity = .error e →
      e = .overflowError "distance is not representable as float32" ∧
      distanceKernel norm lhs rhs u = .ok { distance := Binary32.infinity, exact := false } := by
  have hbounded := distanceKernel_bounded norm lhs rhs hu hf
  refine ⟨fun d hd => ?_, fun e he => ?_⟩
  · obtain ⟨hexact, hfinite, -⟩ := distanceKernel_exact hd
    have hlt := Binary32.lt_iff_of_isFinite hf hfinite
    have hle := Binary32.le_iff_of_isFinite hfinite hf
    rw [hd] at hbounded
    refine ⟨hexact, ?_⟩
    cases hbeyond : u.lt d.distance with
    | true =>
        refine Or.inr ⟨rfl, ?_⟩
        rw [hbounded]
        simp [hbeyond]
    | false =>
        have hwithin : ¬ u.orderKey < d.distance.orderKey := fun h => by
          rw [hlt.mpr h] at hbeyond
          cases hbeyond
        refine Or.inl ⟨hle.mpr (by omega), ?_⟩
        rw [hbounded]
        simp [hbeyond]
  · rw [he] at hbounded
    refine ⟨?_, hbounded⟩
    rw [distanceKernel_infinity] at he
    split at he
    · cases he
      rfl
    · cases he

/-- For either metric a bounded evaluation keeps a distance within the bound and
answers infinity for any other, also for one that float32 cannot represent. -/
theorem boundedDistanceValueUnchecked_filter (metric : Metric) (lhs rhs : PointView)
    {u : Binary32} (hu : Binary32.zero.le u = true) (hf : u.isFinite = true) :
    (∀ d, boundedDistanceValueUnchecked lhs rhs metric Binary32.infinity = .ok d →
      d.exact = true ∧
      (d.distance.le u = true ∧ boundedDistanceValueUnchecked lhs rhs metric u = .ok d ∨
        u.lt d.distance = true ∧ boundedDistanceValueUnchecked lhs rhs metric u =
          .ok { distance := Binary32.infinity, exact := false })) ∧
    ∀ e, boundedDistanceValueUnchecked lhs rhs metric Binary32.infinity = .error e →
      e = .overflowError "distance is not representable as float32" ∧
      boundedDistanceValueUnchecked lhs rhs metric u =
        .ok { distance := Binary32.infinity, exact := false } := by
  unfold boundedDistanceValueUnchecked
  split
  · exact distanceKernel_filter .l1 lhs rhs hu hf
  · exact distanceKernel_filter .l2 lhs rhs hu hf

omit [Platform] in
/-- The two unit vectors of the line, bounded by their distance. -/
theorem boundedDistanceValueUnchecked_filter_one :
    ∃ result, @boundedDistanceValueUnchecked (exactPlatform true) [one] [Binary32.zero] .l2 one =
      .ok result := by
  obtain ⟨hok, herror⟩ := @boundedDistanceValueUnchecked_filter (exactPlatform true) .l2 [one]
    [Binary32.zero] one (by decide) (by decide)
  cases h : @boundedDistanceValueUnchecked (exactPlatform true) [one] [Binary32.zero] .l2
      Binary32.infinity with
  | ok d =>
      obtain ⟨-, ⟨-, h⟩ | ⟨-, h⟩⟩ := hok d h
      · exact ⟨_, h⟩
      · exact ⟨_, h⟩
  | error e => exact ⟨_, (herror e h).2⟩

/-! ## The public distances -/

omit [Platform] in
def validateDistanceOperands (lhs rhs : PointView) : Except Error Unit := do
  require (lhs.length = rhs.length) "distance operands have different dimensions"
  lhs.forM fun value => requireFinite value "distance operand"
  rhs.forM fun value => requireFinite value "distance operand"

def l1Distance (lhs rhs : PointView) : Except Error Binary32 := do
  validateDistanceOperands lhs rhs
  let result ← distanceKernel .l1 lhs rhs Binary32.infinity
  return result.distance

def l2Distance (lhs rhs : PointView) : Except Error Binary32 := do
  validateDistanceOperands lhs rhs
  let result ← distanceKernel .l2 lhs rhs Binary32.infinity
  return result.distance

def distanceValue (lhs rhs : PointView) (metric : Metric) : Except Error Binary32 := do
  require (isValidMetric metric = true) "unsupported metric"
  if metric = .l1 then l1Distance lhs rhs else l2Distance lhs rhs

def boundedDistanceValue (lhs rhs : PointView) (metric : Metric) (upperBound : Binary32) :
    Except Error BoundedDistance := do
  validateDistanceOperands lhs rhs
  require (isValidMetric metric = true) "unsupported metric"
  require (upperBound.isFinite = true ∨ (upperBound.isFinite = false ∧ upperBound.isNaN = false))
    "distance upper bound must be finite or infinity"
  require (Binary32.zero.le upperBound = true) "distance upper bound must not be negative"
  boundedDistanceValueUnchecked lhs rhs metric upperBound

/-- The public bounded distance of valid operands within the bound is the distance. -/
theorem boundedDistanceValue_eq {lhs rhs : PointView} {metric : Metric} {u distance : Binary32}
    (hu : Binary32.zero.le u = true) (hf : u.isFinite = true)
    (hdistance : distanceValue lhs rhs metric = .ok distance) :
    boundedDistanceValue lhs rhs metric u =
      .ok (if distance.le u then { distance := distance, exact := true }
        else { distance := Binary32.infinity, exact := false }) := by
  simp only [distanceValue, except_unit_bind_eq_ok, require_eq_ok] at hdistance
  obtain ⟨hmetric, hdistance⟩ := hdistance
  obtain ⟨hoperands, d, hd, rfl⟩ : validateDistanceOperands lhs rhs = .ok () ∧
      ∃ d, distanceKernel (if metric = .l1 then .l1 else .l2) lhs rhs Binary32.infinity = .ok d ∧
        d.distance = distance := by
    by_cases hl1 : metric = .l1
    · simp only [hl1, if_true, l1Distance, except_bind_eq_ok] at hdistance ⊢
      obtain ⟨_, hoperands, d, hd, hend⟩ := hdistance
      exact ⟨hoperands, d, hd, by simpa using hend⟩
    · simp only [hl1, if_false, l2Distance, except_bind_eq_ok] at hdistance ⊢
      obtain ⟨_, hoperands, d, hd, hend⟩ := hdistance
      exact ⟨hoperands, d, hd, by simpa using hend⟩
  have hunchecked : boundedDistanceValueUnchecked lhs rhs metric u =
      distanceKernel (if metric = .l1 then .l1 else .l2) lhs rhs u := by
    unfold boundedDistanceValueUnchecked
    split <;> rfl
  simp only [boundedDistanceValue, hoperands, require_of hmetric, require_of (Or.inl hf),
    require_of hu, except_ok_bind, hunchecked]
  obtain ⟨hexact, ⟨hwithin, hkept⟩ | ⟨hbeyond, hpruned⟩⟩ :=
    (distanceKernel_filter _ lhs rhs hu hf).1 d hd
  · rw [hkept, if_pos hwithin, ← hexact]
  · have hno : ¬ d.distance.le u = true := by
      simp only [Binary32.le, Binary32.lt, Bool.and_eq_true, decide_eq_true_eq] at hbeyond ⊢
      omega
    rw [hpruned, if_neg hno]

end Qalsh
