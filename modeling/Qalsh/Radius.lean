/-
  Radius.lean --- the arithmetic of radii and scan bounds.

  The search multiplies a radius, derives a bound from it and compares computed
  projection differences and distances with both.  `RadiusArithmetic` collects
  these operations with the order facts the search relies on.  The instance for
  `Binary32` is the program's; the search is written over the class so that the
  same code can also be run with radii and bounds in exact arithmetic.
-/
import Qalsh.Basic
import Qalsh.Foundation.Binary32

set_option autoImplicit false

namespace Qalsh

open Foundation

/-- The operations on radii and bounds, and what they guarantee. -/
class RadiusArithmetic (R : Type) where
  /-- a stored parameter as a radius -/
  ofFloat : Binary32 → R
  isFinite : R → Bool
  /-- `bound >= 0` -/
  nonnegative : R → Bool
  le : R → R → Bool
  lt : R → R → Bool
  /-- `radius * growth` -/
  grow : R → Binary32 → R
  /-- `width * radius / 2` when it is representable -/
  halfProduct : Binary32 → R → Option R
  /-- `difference <= bound` -/
  covers : R → Binary32 → Bool
  /-- `distance <= ratio * radius` -/
  withinRatio : Binary32 → Binary32 → R → Bool
  le_trans : ∀ {a b c}, le a b = true → le b c = true → le a c = true
  le_total : ∀ {a b}, isFinite a = true → isFinite b = true → le a b = true ∨ le b a = true
  lt_iff : ∀ {a b}, isFinite a = true → isFinite b = true → (lt a b = true ↔ le b a = false)
  covers_mono : ∀ {a b d}, le a b = true → covers a d = true → covers b d = true
  covers_anti : ∀ {b d d'}, d.le d' = true → covers b d' = true → covers b d = true
  isFinite_ofFloat : ∀ {x}, x.isFinite = true → isFinite (ofFloat x) = true
  halfProduct_valid : ∀ {w r b}, halfProduct w r = some b →
    isFinite b = true ∧ nonnegative b = true
  halfProduct_mono : ∀ {w r r' b b'}, Binary32.zero.lt w = true → le r r' = true →
    halfProduct w r = some b → halfProduct w r' = some b' → le b b' = true

/-! ## The program's instance -/

/-- `static_cast<float>(double(width) * radius / 2.0)` with the range test of
`WindowBound`.  The double product of two binary32 values is exact. -/
def halfProduct32 (width radius : Binary32) : Option Binary32 :=
  if width.isFinite && radius.isFinite &&
      decide (0 ≤ width.value * radius.value) &&
      decide ((width.value * radius.value).natAbs ≤ scaled (infinityCode - 1) * 2 ^ 150) then
    some (Binary32.ofMagnitude (width.negative != radius.negative)
      (roundMagnitude 150 (width.value * radius.value).natAbs))
  else none

theorem roundMagnitude_max : roundMagnitude 150 (scaled (infinityCode - 1) * 2 ^ 150) =
    infinityCode - 1 := by
  unfold roundMagnitude
  rw [roundCode_scaled]
  decide

theorem value_pos_of_zero_lt {w : Binary32} (h : Binary32.zero.lt w = true) : 0 < w.orderKey := by
  simp only [Binary32.lt, Bool.and_eq_true, decide_eq_true_eq] at h
  have hz : Binary32.zero.orderKey = 0 := by decide
  omega

theorem halfProduct32_orderKey {w r b : Binary32} (h : halfProduct32 w r = some b) :
    b.isFinite = true ∧
      b.orderKey = roundMagnitude 150 (w.value * r.value).natAbs := by
  unfold halfProduct32 at h
  split at h
  · rename_i hc
    cases h
    simp only [Bool.and_eq_true, decide_eq_true_eq] at hc
    have hle := roundMagnitude_mono 150 hc.2
    rw [roundMagnitude_max] at hle
    have hcode : roundMagnitude 150 (w.value * r.value).natAbs ≤ infinityCode :=
      roundMagnitude_le _ _
    refine ⟨?_, ?_⟩
    · simp only [Binary32.isFinite, Binary32.magnitude_ofMagnitude hcode, decide_eq_true_eq]
      have : 0 < infinityCode := by decide
      omega
    · by_cases hs : (w.negative != r.negative) = true
      · -- opposite signs with a non-negative product: the product is zero
        have hzero : w.value * r.value = 0 := by
          have hnn := hc.1.2
          simp only [bne_iff_ne, ne_eq] at hs
          refine le_antisymm ?_ hnn
          unfold Binary32.value
          have hprod : 0 ≤ (scaled w.magnitude : Int) * scaled r.magnitude :=
            mul_nonneg (Int.natCast_nonneg _) (Int.natCast_nonneg _)
          cases hw : w.negative <;> cases hr : r.negative <;> simp_all
        have hr0 : roundMagnitude 150 0 = 0 := by decide
        simp [Binary32.orderKey, Binary32.magnitude_ofMagnitude, hzero, hr0]
      · rw [Bool.not_eq_true] at hs
        rw [hs, Binary32.orderKey_ofMagnitude hcode]
  · cases h

theorem le_total32 {a b : Binary32} (ha : a.isFinite = true) (hb : b.isFinite = true) :
    a.le b = true ∨ b.le a = true := by
  rw [Binary32.le_iff_of_isFinite ha hb, Binary32.le_iff_of_isFinite hb ha]
  exact le_total _ _

theorem lt_iff32 {a b : Binary32} (ha : a.isFinite = true) (hb : b.isFinite = true) :
    a.lt b = true ↔ b.le a = false := by
  rw [Binary32.lt_iff_of_isFinite ha hb, ← Bool.not_eq_true, Binary32.le_iff_of_isFinite hb ha]
  omega

theorem covers_mono32 {a b d : Binary32} (h : a.le b = true) (hc : d.le a = true) :
    d.le b = true :=
  Binary32.le_trans hc h

theorem halfProduct32_valid {w r b : Binary32} (h : halfProduct32 w r = some b) :
    b.isFinite = true ∧ Binary32.zero.le b = true := by
  obtain ⟨hf, hk⟩ := halfProduct32_orderKey h
  refine ⟨hf, ?_⟩
  rw [Binary32.le_iff_of_isFinite (by decide) hf, hk]
  have hz : Binary32.zero.orderKey = 0 := by decide
  omega

theorem halfProduct32_mono {w r r' b b' : Binary32} (hw : Binary32.zero.lt w = true)
    (hr : r.le r' = true) (h : halfProduct32 w r = some b) (h' : halfProduct32 w r' = some b') :
    b.le b' = true := by
  obtain ⟨hf, hk⟩ := halfProduct32_orderKey h
  obtain ⟨hf', hk'⟩ := halfProduct32_orderKey h'
  rw [Binary32.le_iff_of_isFinite hf hf', hk, hk']
  have hpos : 0 ≤ w.value := by
    have hkey := value_pos_of_zero_lt hw
    have := Binary32.value_le_value (x := Binary32.zero) (y := w) (by
      have hz : Binary32.zero.orderKey = 0 := by decide
      omega)
    have hz : Binary32.zero.value = 0 := by decide
    omega
  have hle : r.value ≤ r'.value := by
    refine Binary32.value_le_value ?_
    simp only [Binary32.le, Bool.and_eq_true, decide_eq_true_eq] at hr
    exact hr.2
  have hprod : w.value * r.value ≤ w.value * r'.value := mul_le_mul_of_nonneg_left hle hpos
  have hnn : 0 ≤ w.value * r.value := by
    unfold halfProduct32 at h
    split at h
    · rename_i hc
      simp only [Bool.and_eq_true, decide_eq_true_eq] at hc
      exact hc.1.2
    · cases h
  have := roundMagnitude_mono 150 (show (w.value * r.value).natAbs ≤
    (w.value * r'.value).natAbs by omega)
  exact_mod_cast this

theorem covers_anti32 {b d d' : Binary32} (h : d.le d' = true) (hc : d'.le b = true) :
    d.le b = true :=
  Binary32.le_trans h hc

instance : RadiusArithmetic Binary32 where
  ofFloat x := x
  isFinite := Binary32.isFinite
  nonnegative bound := Binary32.zero.le bound
  le := Binary32.le
  lt := Binary32.lt
  grow := Binary32.mul
  halfProduct := halfProduct32
  covers bound difference := difference.le bound
  withinRatio distance ratio radius := distance.le (ratio.mul radius)
  le_trans := Binary32.le_trans
  le_total := le_total32
  lt_iff := lt_iff32
  covers_mono := covers_mono32
  covers_anti := covers_anti32
  isFinite_ofFloat := id
  halfProduct_valid := halfProduct32_valid
  halfProduct_mono := halfProduct32_mono

/-! ## Bounds of the search -/

variable {R : Type} [RadiusArithmetic R]

def windowBound (width : Binary32) (radius : R) : Except Error R :=
  match RadiusArithmetic.halfProduct width radius with
  | some value => .ok value
  | none => .error (.invalidArgument "QALSH scan bound is not representable")

/-- A bound a scan accepts: finite and not negative. -/
def ValidBound (bound : R) : Prop :=
  RadiusArithmetic.isFinite bound = true ∧ RadiusArithmetic.nonnegative bound = true

instance (bound : R) : Decidable (ValidBound bound) := inferInstanceAs (Decidable (_ ∧ _))

theorem windowBound_valid {width : Binary32} {radius bound : R}
    (h : windowBound width radius = .ok bound) : ValidBound bound := by
  unfold windowBound at h
  split at h
  · rename_i heq
    cases h
    exact RadiusArithmetic.halfProduct_valid heq
  · cases h

theorem windowBound_mono {width : Binary32} {r r' b b' : R} (hw : Binary32.zero.lt width = true)
    (hr : RadiusArithmetic.le r r' = true) (h : windowBound width r = .ok b)
    (h' : windowBound width r' = .ok b') : RadiusArithmetic.le b b' = true := by
  unfold windowBound at h h'
  cases hb : RadiusArithmetic.halfProduct width r with
  | none => simp [hb] at h
  | some v =>
      cases hb' : RadiusArithmetic.halfProduct width r' with
      | none => simp [hb'] at h'
      | some v' =>
          simp only [hb, hb', Except.ok.injEq] at h h'
          subst h h'
          exact RadiusArithmetic.halfProduct_mono hw hr hb hb'

end Qalsh
