/-
  Foundation/Binary32.lean --- IEEE 754 binary32 as bit patterns.

  The format is modelled on its 32-bit words: classification and comparison read
  the sign and the magnitude code, and the arithmetic rounds the exact result to
  nearest, ties to even.  A finite magnitude code denotes an integer multiple of
  `2 ^ -149`, so every exact intermediate result below is a natural number over a
  power of two and no rational or real arithmetic is needed.

  The order of magnitude codes is the order of the values they denote, which is
  what makes comparison and the monotonicity of rounding integer facts.
-/
import Mathlib

set_option autoImplicit false

namespace Qalsh.Foundation

/-! ## Nearest-even rounding of magnitudes -/

/-- Units in the last place: a normal significand has 24 bits, 23 of them stored. -/
def hiddenBit : Nat := 2 ^ 23

/-- The magnitude code of infinity; larger codes are NaNs. -/
def infinityCode : Nat := 0x7F800000

/-- The magnitude denoted by a code, in units of `2 ^ -149`. -/
def scaled (code : Nat) : Nat :=
  if code < hiddenBit then code
  else (hiddenBit + code % hiddenBit) * 2 ^ (code / hiddenBit - 1)

/-- `n / 2 ^ s` rounded to the nearest integer, ties to even. -/
def halfEven (n s : Nat) : Nat :=
  if 2 * (n % 2 ^ s) < 2 ^ s ∨ (2 * (n % 2 ^ s) = 2 ^ s ∧ n / 2 ^ s % 2 = 0)
  then n / 2 ^ s else n / 2 ^ s + 1

/-- How many low bits of `n` the result drops when `n` counts units of
`2 ^ -(149 + k)`: at least `k`, and enough to leave a 24-bit significand. -/
def roundShift (k n : Nat) : Nat := max k (Nat.log2 n - 23)

/-- The magnitude code nearest to `n * 2 ^ -(149 + k)`, before overflow. -/
def roundCode (k n : Nat) : Nat :=
  (roundShift k n - k) * hiddenBit + halfEven n (roundShift k n)

/-- `roundCode` with overflow to infinity. -/
def roundMagnitude (k n : Nat) : Nat := min (roundCode k n) infinityCode

theorem scaled_lt_scaled {m n : Nat} (h : m < n) : scaled m < scaled n := by
  have hpos : 0 < hiddenBit := by decide
  have hn : ∀ c, hiddenBit ≤ c → hiddenBit ≤ scaled c := by
    intro c hc
    have hone : 1 ≤ 2 ^ (c / hiddenBit - 1) := Nat.one_le_two_pow
    simp only [scaled, Nat.not_lt.mpr hc, if_false]
    calc hiddenBit ≤ hiddenBit + c % hiddenBit := Nat.le_add_right _ _
      _ = (hiddenBit + c % hiddenBit) * 1 := (Nat.mul_one _).symm
      _ ≤ _ := Nat.mul_le_mul_left _ hone
  by_cases hm : m < hiddenBit
  · by_cases hn' : n < hiddenBit
    · simpa [scaled, hm, hn'] using h
    · have hge := hn n (Nat.not_lt.mp hn')
      have hself : scaled m = m := by simp [scaled, hm]
      omega
  · have hnn : ¬ n < hiddenBit := by omega
    simp only [scaled, hm, hnn, if_false]
    have hdm := Nat.div_add_mod m hiddenBit
    have hdn := Nat.div_add_mod n hiddenBit
    have hmm := Nat.mod_lt m hpos
    rcases Nat.lt_or_ge (m / hiddenBit) (n / hiddenBit) with hlt | hge
    · have hstep : m / hiddenBit - 1 + 1 ≤ n / hiddenBit - 1 := by
        have : 1 ≤ m / hiddenBit := by
          rw [Nat.le_div_iff_mul_le hpos]; omega
        omega
      calc (hiddenBit + m % hiddenBit) * 2 ^ (m / hiddenBit - 1)
          < (hiddenBit + hiddenBit) * 2 ^ (m / hiddenBit - 1) :=
            Nat.mul_lt_mul_of_pos_right (by omega) (Nat.two_pow_pos _)
        _ = hiddenBit * 2 ^ (m / hiddenBit - 1 + 1) := by rw [pow_succ]; ring
        _ ≤ hiddenBit * 2 ^ (n / hiddenBit - 1) :=
            Nat.mul_le_mul_left _ (Nat.pow_le_pow_right (by decide) hstep)
        _ ≤ (hiddenBit + n % hiddenBit) * 2 ^ (n / hiddenBit - 1) :=
            Nat.mul_le_mul_right _ (Nat.le_add_right _ _)
    · have heq : m / hiddenBit = n / hiddenBit :=
        le_antisymm (Nat.div_le_div_right (by omega)) hge
      rw [heq] at hdm ⊢
      exact Nat.mul_lt_mul_of_pos_right (by omega) (Nat.two_pow_pos _)

theorem scaled_le_scaled {m n : Nat} (h : m ≤ n) : scaled m ≤ scaled n := by
  rcases Nat.eq_or_lt_of_le h with rfl | hlt
  · exact le_rfl
  · exact (scaled_lt_scaled hlt).le

theorem div_le_halfEven (n s : Nat) : n / 2 ^ s ≤ halfEven n s := by
  unfold halfEven
  split <;> omega

theorem halfEven_le_div_succ (n s : Nat) : halfEven n s ≤ n / 2 ^ s + 1 := by
  unfold halfEven
  split <;> omega

theorem halfEven_mono {m n : Nat} (s : Nat) (h : m ≤ n) : halfEven m s ≤ halfEven n s := by
  have hq : m / 2 ^ s ≤ n / 2 ^ s := Nat.div_le_div_right h
  rcases Nat.eq_or_lt_of_le hq with heq | hlt
  · -- equal quotients: the remainders are ordered, so rounding up can only start later
    have hm := Nat.div_add_mod m (2 ^ s)
    have hn := Nat.div_add_mod n (2 ^ s)
    have hr : m % 2 ^ s ≤ n % 2 ^ s := by rw [heq] at hm; omega
    unfold halfEven
    rw [heq]
    split <;> split <;> omega
  · exact le_trans (halfEven_le_div_succ m s) (le_trans hlt (div_le_halfEven n s))

theorem lt_two_pow_roundShift (k n : Nat) : n / 2 ^ roundShift k n < 2 * hiddenBit := by
  rw [Nat.div_lt_iff_lt_mul (Nat.two_pow_pos _)]
  have hlog : n < 2 ^ (Nat.log2 n + 1) := Nat.lt_log2_self
  have hexp : Nat.log2 n + 1 ≤ 24 + roundShift k n := by
    have := le_max_right k (Nat.log2 n - 23)
    unfold roundShift
    omega
  calc n < 2 ^ (Nat.log2 n + 1) := hlog
    _ ≤ 2 ^ (24 + roundShift k n) := Nat.pow_le_pow_right (by decide) hexp
    _ = 2 * hiddenBit * 2 ^ roundShift k n := by rw [pow_add]; rfl

theorem hiddenBit_le_of_roundShift {k n : Nat} (h : k < roundShift k n) :
    hiddenBit ≤ n / 2 ^ roundShift k n := by
  have hs : roundShift k n = Nat.log2 n - 23 := by unfold roundShift at *; omega
  have hn : n ≠ 0 := by
    rintro rfl
    simp [roundShift] at h
  have hlog : 2 ^ Nat.log2 n ≤ n := Nat.log2_self_le hn
  rw [Nat.le_div_iff_mul_le (Nat.two_pow_pos _)]
  calc hiddenBit * 2 ^ roundShift k n = 2 ^ (23 + roundShift k n) := by rw [pow_add]; rfl
    _ = 2 ^ Nat.log2 n := by congr 1; omega
    _ ≤ n := hlog

theorem roundShift_mono {m n : Nat} (k : Nat) (h : m ≤ n) : roundShift k m ≤ roundShift k n := by
  have hlog : Nat.log2 m ≤ Nat.log2 n := by
    rw [Nat.log2_eq_log_two, Nat.log2_eq_log_two]
    exact Nat.log_mono_right h
  unfold roundShift
  omega

/-- Rounding is monotone.  Inside one binade this is monotonicity of
`halfEven`; across binades the smaller operand rounds at most to the first code
of the next binade and the larger one lies in a later binade. -/
theorem roundCode_mono {m n : Nat} (k : Nat) (h : m ≤ n) : roundCode k m ≤ roundCode k n := by
  have hs := roundShift_mono k h
  have hk : k ≤ roundShift k m := le_max_left _ _
  rcases Nat.eq_or_lt_of_le hs with heq | hlt
  · unfold roundCode
    rw [heq]
    exact Nat.add_le_add_left (halfEven_mono _ h) _
  · have hm := halfEven_le_div_succ m (roundShift k m)
    have hm2 := lt_two_pow_roundShift k m
    have hn := div_le_halfEven n (roundShift k n)
    have hn2 := hiddenBit_le_of_roundShift (lt_of_le_of_lt hk hlt)
    have hmul : (roundShift k m - k + 1) * hiddenBit ≤ (roundShift k n - k) * hiddenBit :=
      Nat.mul_le_mul_right _ (by omega)
    unfold roundCode
    rw [Nat.add_mul] at hmul
    omega

theorem roundMagnitude_mono {m n : Nat} (k : Nat) (h : m ≤ n) :
    roundMagnitude k m ≤ roundMagnitude k n := by
  have := roundCode_mono k h
  unfold roundMagnitude
  omega

theorem roundMagnitude_le (k n : Nat) : roundMagnitude k n ≤ infinityCode :=
  min_le_right _ _

/-- A magnitude code denotes a value that rounds back to itself. -/
theorem roundCode_scaled (k code : Nat) : roundCode k (scaled code * 2 ^ k) = code := by
  have hexact : ∀ q s, halfEven (q * 2 ^ s) s = q := by
    intro q s
    have hpos : 0 < 2 ^ s := Nat.two_pow_pos s
    simp [halfEven, Nat.mul_div_cancel _ hpos, hpos]
  by_cases hc : code < hiddenBit
  · have hlog : Nat.log2 (code * 2 ^ k) ≤ k + 22 := by
      by_cases hz : code * 2 ^ k = 0
      · simp [hz]
      · have : Nat.log2 (code * 2 ^ k) < k + 23 := by
          rw [Nat.log2_lt hz]
          calc code * 2 ^ k < hiddenBit * 2 ^ k :=
                Nat.mul_lt_mul_of_pos_right hc (Nat.two_pow_pos k)
            _ = 2 ^ (k + 23) := by rw [pow_add, Nat.mul_comm]; rfl
        omega
    have hs : roundShift k (code * 2 ^ k) = k := by unfold roundShift; omega
    simp [roundCode, scaled, hc, hs, hexact]
  · have hb : 1 ≤ code / hiddenBit := by
      rw [Nat.le_div_iff_mul_le (by decide)]
      omega
    have hlt : code % hiddenBit < hiddenBit := Nat.mod_lt _ (by decide)
    have hval : scaled code * 2 ^ k =
        (hiddenBit + code % hiddenBit) * 2 ^ (code / hiddenBit - 1 + k) := by
      simp only [scaled, hc, if_false]
      rw [pow_add]
      ring
    have hne : (hiddenBit + code % hiddenBit) * 2 ^ (code / hiddenBit - 1 + k) ≠ 0 :=
      (Nat.mul_pos (by have : 0 < hiddenBit := by decide
                       omega) (Nat.two_pow_pos _)).ne'
    have hlog : Nat.log2 ((hiddenBit + code % hiddenBit) * 2 ^ (code / hiddenBit - 1 + k)) =
        code / hiddenBit - 1 + k + 23 := by
      rw [Nat.log2_eq_iff hne]
      constructor
      · calc 2 ^ (code / hiddenBit - 1 + k + 23)
            = hiddenBit * 2 ^ (code / hiddenBit - 1 + k) := by rw [pow_add, Nat.mul_comm]; rfl
          _ ≤ _ := Nat.mul_le_mul_right _ (Nat.le_add_right _ _)
      · calc (hiddenBit + code % hiddenBit) * 2 ^ (code / hiddenBit - 1 + k)
            < (hiddenBit + hiddenBit) * 2 ^ (code / hiddenBit - 1 + k) :=
              Nat.mul_lt_mul_of_pos_right (by omega) (Nat.two_pow_pos _)
          _ = 2 ^ (code / hiddenBit - 1 + k + 23 + 1) := by
              rw [pow_succ, pow_add _ _ 23]
              have : (2 : Nat) ^ 23 = hiddenBit := rfl
              rw [this]
              ring
    have hs : roundShift k (scaled code * 2 ^ k) = code / hiddenBit - 1 + k := by
      rw [hval]
      unfold roundShift
      omega
    have hdm := Nat.div_add_mod code hiddenBit
    have hsplit : (code / hiddenBit - 1) * hiddenBit + hiddenBit = hiddenBit * (code / hiddenBit) := by
      rw [← Nat.succ_mul, Nat.succ_eq_add_one, Nat.sub_add_cancel hb, Nat.mul_comm]
    rw [roundCode, hs, hval, hexact, Nat.add_sub_cancel]
    omega

/-! ## Words -/

/-- A binary32 word. -/
structure Binary32 where
  bits : BitVec 32
  deriving DecidableEq, Repr, Inhabited

namespace Binary32

/-- The word without its sign bit. -/
def magnitude (x : Binary32) : Nat := x.bits.toNat % 2 ^ 31

def negative (x : Binary32) : Bool := decide (2 ^ 31 ≤ x.bits.toNat)

/-- `std::isfinite` -/
def isFinite (x : Binary32) : Bool := decide (x.magnitude < infinityCode)

def isNaN (x : Binary32) : Bool := decide (infinityCode < x.magnitude)

/-- The word with a given sign and magnitude code. -/
def ofMagnitude (negative : Bool) (code : Nat) : Binary32 :=
  ⟨BitVec.ofNat 32 ((if negative then 2 ^ 31 else 0) + code)⟩

def zero : Binary32 := ofMagnitude false 0
def infinity : Binary32 := ofMagnitude false infinityCode
def quietNaN : Binary32 := ofMagnitude false 0x7FC00000
/-- The largest finite word. -/
def maxFinite : Binary32 := ofMagnitude false (infinityCode - 1)

/-- Position in the IEEE order; the two zeros share it. -/
def orderKey (x : Binary32) : Int :=
  if x.negative then -(x.magnitude : Int) else x.magnitude

/-- The exact value of a finite word in units of `2 ^ -149`. -/
def value (x : Binary32) : Int :=
  if x.negative then -(scaled x.magnitude : Int) else scaled x.magnitude

/-- The comparisons `<=`, `<` and `==`; each is false on a NaN. -/
def le (x y : Binary32) : Bool := !x.isNaN && !y.isNaN && decide (x.orderKey ≤ y.orderKey)
def lt (x y : Binary32) : Bool := !x.isNaN && !y.isNaN && decide (x.orderKey < y.orderKey)
def eq (x y : Binary32) : Bool := !x.isNaN && !y.isNaN && decide (x.orderKey = y.orderKey)

/-- `|x - y|` with the subtraction rounded to binary32. -/
def absDiff (x y : Binary32) : Binary32 :=
  if x.isNaN || y.isNaN then quietNaN
  else if x.isFinite && y.isFinite then
    ofMagnitude false (roundMagnitude 0 (x.value - y.value).natAbs)
  else if !x.isFinite && !y.isFinite && x.negative == y.negative then quietNaN
  else infinity

/-- `x * y` rounded to binary32. -/
def mul (x y : Binary32) : Binary32 :=
  let sign := x.negative != y.negative
  if x.isNaN || y.isNaN then quietNaN
  else if x.isFinite && y.isFinite then
    ofMagnitude sign (roundMagnitude 149 (scaled x.magnitude * scaled y.magnitude))
  else if x.magnitude = 0 ∨ y.magnitude = 0 then quietNaN
  else ofMagnitude sign infinityCode

/-- `std::nextafter(x, +infinity)` for a non-negative `x`. -/
def nextUp (x : Binary32) : Binary32 :=
  if x.isFinite then ofMagnitude false (x.magnitude + 1) else x

theorem magnitude_ofMagnitude {sign : Bool} {code : Nat} (h : code ≤ infinityCode) :
    (ofMagnitude sign code).magnitude = code := by
  have hcode : code < 2 ^ 31 := lt_of_le_of_lt h (by decide)
  cases sign <;> simp [ofMagnitude, magnitude, BitVec.toNat_ofNat] <;> omega

theorem negative_ofMagnitude {sign : Bool} {code : Nat} (h : code ≤ infinityCode) :
    (ofMagnitude sign code).negative = sign := by
  have hcode : code < 2 ^ 31 := lt_of_le_of_lt h (by decide)
  cases sign <;> simp [ofMagnitude, negative, BitVec.toNat_ofNat] <;> omega

theorem orderKey_ofMagnitude {code : Nat} (h : code ≤ infinityCode) :
    (ofMagnitude false code).orderKey = code := by
  simp [orderKey, magnitude_ofMagnitude h, negative_ofMagnitude h]

theorem isNaN_ofMagnitude {sign : Bool} {code : Nat} (h : code ≤ infinityCode) :
    (ofMagnitude sign code).isNaN = false := by
  simp [isNaN, magnitude_ofMagnitude h, h]

/-- A word is its sign and magnitude. -/
theorem eq_ofMagnitude (x : Binary32) : x = ofMagnitude x.negative x.magnitude := by
  obtain ⟨bits⟩ := x
  have hlt := bits.isLt
  simp only [ofMagnitude, negative, magnitude, mk.injEq]
  apply BitVec.eq_of_toNat_eq
  rw [BitVec.toNat_ofNat]
  by_cases hs : 2 ^ 31 ≤ bits.toNat
  · simp only [hs, decide_true, if_true]
    omega
  · simp only [hs, decide_false, Bool.false_eq_true, if_false]
    omega

theorem isNaN_eq_false_of_isFinite {x : Binary32} (h : x.isFinite = true) : x.isNaN = false := by
  simp only [isFinite, isNaN, decide_eq_true_eq, decide_eq_false_iff_not] at *
  omega

/-! ## Comparison -/

theorem le_trans {x y z : Binary32} (hxy : x.le y = true) (hyz : y.le z = true) :
    x.le z = true := by
  simp only [le, Bool.and_eq_true, decide_eq_true_eq] at *
  exact ⟨⟨hxy.1.1, hyz.1.2⟩, hxy.2.trans hyz.2⟩

theorem le_iff_of_isFinite {x y : Binary32} (hx : x.isFinite = true) (hy : y.isFinite = true) :
    x.le y = true ↔ x.orderKey ≤ y.orderKey := by
  simp [le, isNaN_eq_false_of_isFinite hx, isNaN_eq_false_of_isFinite hy]

theorem lt_iff_of_isFinite {x y : Binary32} (hx : x.isFinite = true) (hy : y.isFinite = true) :
    x.lt y = true ↔ x.orderKey < y.orderKey := by
  simp [lt, isNaN_eq_false_of_isFinite hx, isNaN_eq_false_of_isFinite hy]

theorem eq_iff_of_isFinite {x y : Binary32} (hx : x.isFinite = true) (hy : y.isFinite = true) :
    x.eq y = true ↔ x.orderKey = y.orderKey := by
  simp [eq, isNaN_eq_false_of_isFinite hx, isNaN_eq_false_of_isFinite hy]

/-- The order of words is the order of the values they denote. -/
theorem value_le_value {x y : Binary32} (h : x.orderKey ≤ y.orderKey) : x.value ≤ y.value := by
  have hzero : scaled 0 = 0 := by simp [scaled, hiddenBit]
  unfold orderKey at h
  unfold value
  cases hx : x.negative <;> cases hy : y.negative <;>
    simp only [hx, hy, Bool.false_eq_true, if_false, if_true] at h ⊢
  · have : scaled x.magnitude ≤ scaled y.magnitude := scaled_le_scaled (by omega)
    omega
  · have hmx : x.magnitude = 0 := by omega
    have hmy : y.magnitude = 0 := by omega
    simp [hmx, hmy, hzero]
  · omega
  · have : scaled y.magnitude ≤ scaled x.magnitude := scaled_le_scaled (by omega)
    omega

/-! ## The computed distance between two words -/

theorem absDiff_of_isFinite {x y : Binary32} (hx : x.isFinite = true) (hy : y.isFinite = true) :
    x.absDiff y = ofMagnitude false (roundMagnitude 0 (x.value - y.value).natAbs) := by
  simp [absDiff, hx, hy, isNaN_eq_false_of_isFinite hx, isNaN_eq_false_of_isFinite hy]

theorem absDiff_le_of_natAbs_le {x y z : Binary32} (hx : x.isFinite = true)
    (hy : y.isFinite = true) (hz : z.isFinite = true)
    (h : (x.value - y.value).natAbs ≤ (x.value - z.value).natAbs) :
    (x.absDiff y).le (x.absDiff z) = true := by
  have hround := roundMagnitude_mono 0 h
  rw [absDiff_of_isFinite hx hy, absDiff_of_isFinite hx hz]
  simp only [le, isNaN_ofMagnitude (roundMagnitude_le _ _), Bool.not_false, Bool.and_self,
    Bool.true_and, decide_eq_true_eq, orderKey_ofMagnitude (roundMagnitude_le _ _)]
  exact_mod_cast hround

/-- Moving down from `x` never shrinks the computed distance. -/
theorem absDiff_mono_below {x y z : Binary32} (hx : x.isFinite = true) (hy : y.isFinite = true)
    (hz : z.isFinite = true) (hzy : z.orderKey ≤ y.orderKey) (hyx : y.orderKey ≤ x.orderKey) :
    (x.absDiff y).le (x.absDiff z) = true := by
  have h₁ := value_le_value hzy
  have h₂ := value_le_value hyx
  exact absDiff_le_of_natAbs_le hx hy hz (by omega)

/-- Moving up from `x` never shrinks the computed distance. -/
theorem absDiff_mono_above {x y z : Binary32} (hx : x.isFinite = true) (hy : y.isFinite = true)
    (hz : z.isFinite = true) (hxy : x.orderKey ≤ y.orderKey) (hyz : y.orderKey ≤ z.orderKey) :
    (x.absDiff y).le (x.absDiff z) = true := by
  have h₁ := value_le_value hxy
  have h₂ := value_le_value hyz
  exact absDiff_le_of_natAbs_le hx hy hz (by omega)

end Binary32

end Qalsh.Foundation
