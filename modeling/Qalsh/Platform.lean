/-
  Platform.lean --- what the source leaves to the build and to its libraries.

  Three things are not fixed by the source text: whether the window clamp is built
  with its SSE2 path, in which order a vectorised float reduction adds its terms,
  and what the standard distributions draw.  They are fields of `Platform`, with
  the facts about double arithmetic that the distance kernel is written against.
  `exactPlatform` is an instance whose accumulators do not round.
-/
import Mathlib
import Qalsh.Basic
import Qalsh.Foundation.Binary32

set_option autoImplicit false

namespace Qalsh

open Foundation

/-- `enum class Metric : std::uint32_t` -/
inductive Metric where
  | l1
  | l2
  | invalid (code : Nat)
  deriving DecidableEq, Repr

def Metric.code : Metric → Nat
  | .l1 => 1
  | .l2 => 2
  | .invalid code => code

def isValidMetric (metric : Metric) : Bool := metric == .l1 || metric == .l2

/-- A non-negative word that is not a NaN. -/
def Magnitude (x : Binary32) : Prop := x.isNaN = false ∧ x.negative = false

/-- The choices of one build. -/
class Platform : Type 1 where
  /-- `UsesSse2()` -/
  sse2 : Bool
  /-- one lane of `DotGroup<Count>`: the float32 dot product in that group's order -/
  dot : Nat → List Binary32 → List Binary32 → Binary32
  /-- the values drawn for generated projection vectors, by metric, seed and position -/
  sample : Metric → Nat → Nat → Binary32
  /-- the non-negative doubles, with infinity -/
  Double : Type
  [order : LinearOrder Double]
  zero : Double
  ofFloat : Binary32 → Double
  add : Double → Double → Double
  square : Double → Double
  sqrt : Double → Double
  /-- `static_cast<float>` -/
  toFloat : Double → Binary32
  /-- the sum over one block of at most 64 coordinates, in the build's order -/
  blockSum : Metric → List Binary32 → List Binary32 → Double
  le_add_blockSum : ∀ a metric x y, a ≤ add a (blockSum metric x y)
  ofFloat_mono : ∀ {x y}, Magnitude x → Magnitude y → x.orderKey ≤ y.orderKey →
    ofFloat x ≤ ofFloat y
  le_infinity : ∀ a, a ≤ ofFloat Binary32.infinity
  le_infinity_square : ∀ a, a ≤ square (ofFloat Binary32.infinity)
  sqrt_mono : ∀ {a b}, a ≤ b → sqrt a ≤ sqrt b
  sqrt_square : ∀ {x}, Magnitude x → sqrt (square (ofFloat x)) = ofFloat x
  toFloat_mono : ∀ {a b}, a ≤ b → b ≤ ofFloat Binary32.maxFinite →
    (toFloat a).orderKey ≤ (toFloat b).orderKey
  toFloat_ofFloat : ∀ {x}, Magnitude x → x.isFinite = true →
    (toFloat (ofFloat x)).orderKey = x.orderKey
  toFloat_finite : ∀ {a}, a ≤ ofFloat Binary32.maxFinite →
    (toFloat a).isFinite = true ∧ (toFloat a).negative = false

attribute [reducible, instance] Platform.order

/-! ## A build with exact accumulators -/

/-- `a - b` exactly, in units of `2 ^ -149`. -/
def exactDifference (a b : Binary32) : Nat := (a.value - b.value).natAbs

/-- Exact block sums in units of `2 ^ -298`. -/
def exactBlockSum (metric : Metric) (x y : List Binary32) : Nat :=
  ((x.zip y).map fun pair =>
    match metric with
    | .l2 => exactDifference pair.1 pair.2 ^ 2
    | _ => exactDifference pair.1 pair.2 * 2 ^ 149).sum

/-- A dot product rounded once at the end. -/
def exactDot (x y : List Binary32) : Binary32 :=
  let total : Int := ((x.zip y).map fun pair => pair.1.value * pair.2.value).sum
  Binary32.ofMagnitude (decide (total < 0)) (roundMagnitude 149 total.natAbs)

/-- Doubles replaced by exact multiples of `2 ^ -298`, with infinity. -/
def exactOfFloat (x : Binary32) : WithTop Nat :=
  if x.isFinite then WithTop.some (scaled x.magnitude * 2 ^ 149) else ⊤

def exactToFloat : WithTop Nat → Binary32
  | none => Binary32.infinity
  | some n => Binary32.ofMagnitude false (roundMagnitude 149 n)

def exactMap (f : Nat → Nat) : WithTop Nat → WithTop Nat
  | none => none
  | some n => some (f n)

theorem exactMap_mono {f : Nat → Nat} (hf : Monotone f) {a b : WithTop Nat} (h : a ≤ b) :
    exactMap f a ≤ exactMap f b := by
  induction b using WithTop.recTopCoe with
  | top => exact le_top
  | coe n =>
      induction a using WithTop.recTopCoe with
      | top => exact absurd (top_le_iff.mp h) WithTop.coe_ne_top
      | coe m => exact WithTop.coe_le_coe.mpr (hf (WithTop.coe_le_coe.mp h))

theorem orderKey_exactToFloat_coe (n : Nat) :
    (exactToFloat (WithTop.some n)).orderKey = roundMagnitude 149 n :=
  Binary32.orderKey_ofMagnitude (roundMagnitude_le _ _)

theorem magnitude_orderKey {x : Binary32} (h : Magnitude x) : x.orderKey = x.magnitude := by
  simp [Binary32.orderKey, h.2]

theorem exactOfFloat_infinity : exactOfFloat Binary32.infinity = ⊤ := by
  have : Binary32.infinity.isFinite = false := by decide
  simp [exactOfFloat, this]

theorem exactToFloat_of_le_max {a : WithTop Nat} (h : a ≤ exactOfFloat Binary32.maxFinite) :
    ∃ n : Nat, a = WithTop.some n ∧ roundMagnitude 149 n ≤ infinityCode - 1 := by
  have hmax : exactOfFloat Binary32.maxFinite =
      WithTop.some (scaled (infinityCode - 1) * 2 ^ 149) := by decide
  rw [hmax] at h
  induction a using WithTop.recTopCoe with
  | top => exact absurd (top_le_iff.mp h) WithTop.coe_ne_top
  | coe n =>
      refine ⟨n, rfl, ?_⟩
      have hle := roundMagnitude_mono 149 (WithTop.coe_le_coe.mp h)
      have hcode : roundMagnitude 149 (scaled (infinityCode - 1) * 2 ^ 149) = infinityCode - 1 := by
        unfold roundMagnitude
        rw [roundCode_scaled]
        decide
      rwa [hcode] at hle

theorem le_add_exactBlockSum (a : WithTop Nat) (metric : Metric) (x y : List Binary32) :
    a ≤ a + WithTop.some (exactBlockSum metric x y) := by
  induction a using WithTop.recTopCoe with
  | top => simp
  | coe n => exact WithTop.coe_le_coe.mpr (Nat.le_add_right n _)

theorem exactOfFloat_mono {x y : Binary32} (hx : Magnitude x) (hy : Magnitude y)
    (h : x.orderKey ≤ y.orderKey) : exactOfFloat x ≤ exactOfFloat y := by
  rw [magnitude_orderKey hx, magnitude_orderKey hy] at h
  unfold exactOfFloat
  by_cases hfy : y.isFinite = true
  · have hfx : x.isFinite = true := by
      simp only [Binary32.isFinite, decide_eq_true_eq] at *
      omega
    rw [if_pos hfx, if_pos hfy]
    exact WithTop.coe_le_coe.mpr (Nat.mul_le_mul_right _ (scaled_le_scaled (by omega)))
  · rw [if_neg hfy]
    exact le_top

/-- Squares in units of `2 ^ -298`. -/
def exactSquare : WithTop Nat → WithTop Nat := exactMap fun n => n ^ 2 / (2 ^ 149) ^ 2

/-- Square roots in units of `2 ^ -298`. -/
def exactSqrt : WithTop Nat → WithTop Nat := exactMap fun n => Nat.sqrt n * 2 ^ 149

theorem le_exactInfinity (a : WithTop Nat) : a ≤ exactOfFloat Binary32.infinity := by
  rw [exactOfFloat_infinity]
  exact le_top

theorem le_exactInfinity_square (a : WithTop Nat) :
    a ≤ exactSquare (exactOfFloat Binary32.infinity) := by
  rw [exactOfFloat_infinity]
  exact le_top

theorem exactSqrt_mono {a b : WithTop Nat} (h : a ≤ b) : exactSqrt a ≤ exactSqrt b :=
  exactMap_mono (fun _ _ h => Nat.mul_le_mul_right _ (Nat.sqrt_le_sqrt h)) h

theorem exactSqrt_square {x : Binary32} (_ : Magnitude x) :
    exactSqrt (exactSquare (exactOfFloat x)) = exactOfFloat x := by
  unfold exactOfFloat
  by_cases hf : x.isFinite = true
  · rw [if_pos hf]
    have hsq : (scaled x.magnitude * 2 ^ 149) ^ 2 / (2 ^ 149) ^ 2 = scaled x.magnitude ^ 2 := by
      rw [mul_pow]
      exact Nat.mul_div_cancel _ (Nat.pow_pos (Nat.two_pow_pos 149))
    show WithTop.some (Nat.sqrt ((scaled x.magnitude * 2 ^ 149) ^ 2 / (2 ^ 149) ^ 2) * 2 ^ 149) = _
    rw [hsq, Nat.sqrt_eq']
  · rw [if_neg hf]
    rfl

theorem exactToFloat_mono {a b : WithTop Nat} (hab : a ≤ b)
    (hb : b ≤ exactOfFloat Binary32.maxFinite) :
    (exactToFloat a).orderKey ≤ (exactToFloat b).orderKey := by
  obtain ⟨n, rfl, -⟩ := exactToFloat_of_le_max hb
  obtain ⟨m, rfl, -⟩ := exactToFloat_of_le_max (hab.trans hb)
  rw [orderKey_exactToFloat_coe, orderKey_exactToFloat_coe]
  exact_mod_cast roundMagnitude_mono 149 (WithTop.coe_le_coe.mp hab)

theorem exactToFloat_ofFloat {x : Binary32} (hx : Magnitude x) (hf : x.isFinite = true) :
    (exactToFloat (exactOfFloat x)).orderKey = x.orderKey := by
  unfold exactOfFloat
  rw [if_pos hf, orderKey_exactToFloat_coe, magnitude_orderKey hx]
  unfold roundMagnitude
  rw [roundCode_scaled]
  simp only [Binary32.isFinite, decide_eq_true_eq] at hf
  have : min x.magnitude infinityCode = x.magnitude := by omega
  rw [this]

theorem exactToFloat_finite {a : WithTop Nat} (h : a ≤ exactOfFloat Binary32.maxFinite) :
    (exactToFloat a).isFinite = true ∧ (exactToFloat a).negative = false := by
  obtain ⟨n, rfl, hn⟩ := exactToFloat_of_le_max h
  have hcode : roundMagnitude 149 n ≤ infinityCode := roundMagnitude_le _ _
  refine ⟨?_, Binary32.negative_ofMagnitude hcode⟩
  show (Binary32.ofMagnitude false (roundMagnitude 149 n)).isFinite = true
  simp only [Binary32.isFinite, Binary32.magnitude_ofMagnitude hcode, decide_eq_true_eq]
  have : 0 < infinityCode := by decide
  omega

/-- The build with exact accumulators and unit projection vectors. -/
@[reducible] def exactPlatform (sse2 : Bool) : Platform where
  sse2 := sse2
  dot _ := exactDot
  sample _ _ _ := Binary32.ofMagnitude false 0x3F800000
  Double := WithTop Nat
  order := inferInstance
  zero := WithTop.some 0
  ofFloat := exactOfFloat
  add a b := a + b
  square := exactSquare
  sqrt := exactSqrt
  toFloat := exactToFloat
  blockSum metric x y := WithTop.some (exactBlockSum metric x y)
  le_add_blockSum := le_add_exactBlockSum
  ofFloat_mono := exactOfFloat_mono
  le_infinity := le_exactInfinity
  le_infinity_square := le_exactInfinity_square
  sqrt_mono := exactSqrt_mono
  sqrt_square := exactSqrt_square
  toFloat_mono := exactToFloat_mono
  toFloat_ofFloat := exactToFloat_ofFloat
  toFloat_finite := exactToFloat_finite

end Qalsh
