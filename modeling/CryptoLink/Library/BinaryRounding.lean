import Mathlib.Algebra.Order.Ring.Pow
import Mathlib.Data.Int.Log
import Mathlib.Data.Rat.Floor
import Mathlib.Tactic.FieldSimp
import Mathlib.Tactic.Linarith
import Mathlib.Tactic.Positivity
import Mathlib.Tactic.Ring

/-!
# Rounding to significant bits

A rational is rounded to the nearest number of `p` significant bits, ties to
the even one. The exponent is not bounded.
-/

namespace BinaryRounding

/-- To the nearest integer, ties to the even one. -/
def roundEven (y : ℚ) : Int :=
  if y - ⌊y⌋ < 1 / 2 then ⌊y⌋
  else if 1 / 2 < y - ⌊y⌋ then ⌊y⌋ + 1
  else if ⌊y⌋ % 2 = 0 then ⌊y⌋
  else ⌊y⌋ + 1

def toPrecision (p : ℕ) (x : ℚ) : ℚ :=
  let unit : ℚ := 2 ^ (Int.log 2 |x| + 1 - p)
  roundEven (x / unit) * unit

/-- The rounded quotient of two integers. -/
def nearestQuotient (a b : Int) : Int :=
  if 2 * (a % b) < b then a / b
  else if b < 2 * (a % b) then a / b + 1
  else if a / b % 2 = 0 then a / b
  else a / b + 1

theorem roundEven_div (a : Int) {b : Int} (hb : 0 < b) :
    roundEven ((a : ℚ) / b) = nearestQuotient a b := by
  have hfloor : ⌊(a : ℚ) / b⌋ = a / b := by
    obtain ⟨k, rfl⟩ := Int.eq_ofNat_of_zero_le hb.le
    exact Rat.floor_intCast_div_natCast a k
  have hpos : (0 : ℚ) < b := Int.cast_pos.mpr hb
  have hrest : (a : ℚ) / b - (a / b : Int) = (a % b : Int) / b := by
    have hsplit : (b : ℚ) * (a / b : Int) + (a % b : Int) = a := by
      have h := Int.mul_ediv_add_emod a b
      exact_mod_cast h
    field_simp
    linarith
  have hlow : (a : ℚ) / b - (a / b : Int) < 1 / 2 ↔ 2 * (a % b) < b := by
    rw [hrest, div_lt_div_iff₀ hpos two_pos, ← Int.cast_lt (R := ℚ)]
    push_cast
    constructor
    · intro h
      linarith
    · intro h
      linarith
  have hhigh : 1 / 2 < (a : ℚ) / b - (a / b : Int) ↔ b < 2 * (a % b) := by
    rw [hrest, div_lt_div_iff₀ two_pos hpos, ← Int.cast_lt (R := ℚ)]
    push_cast
    constructor
    · intro h
      linarith
    · intro h
      linarith
  simp only [roundEven, nearestQuotient, hfloor, hlow, hhigh]

/-- The exponent of a number is read off any scale that gives it `p` bits. -/
theorem toPrecision_of_scaled {p t : ℕ} {x : ℚ} (hlow : 2 ^ p ≤ x * 2 ^ t)
    (hhigh : x * 2 ^ t < 2 ^ (p + 1)) :
    toPrecision (p + 1) x = roundEven (x * 2 ^ t) / 2 ^ t := by
  have htwo : (0 : ℚ) < 2 ^ t := by positivity
  have hx : 0 < x := by
    have hpow : (0 : ℚ) < 2 ^ p := by positivity
    exact (mul_pos_iff_of_pos_right htwo).mp (hpow.trans_le hlow)
  have hlog : Int.log 2 |x| = p - t := by
    rw [abs_of_pos hx]
    apply le_antisymm
    · have hlt : x < ((2 : ℕ) : ℚ) ^ ((p : Int) - t + 1) := by
        have hexp : ((p : Int) - t + 1) = ((p + 1 : ℕ) : Int) - (t : ℕ) := by
          push_cast
          ring
        rw [hexp, zpow_sub₀ (by norm_num), zpow_natCast, zpow_natCast, lt_div_iff₀ (by positivity)]
        exact_mod_cast hhigh
      have h := (Int.lt_zpow_iff_log_lt (by omega) hx).mp hlt
      omega
    · apply (Int.zpow_le_iff_le_log (by omega) hx).mp
      rw [zpow_sub₀ (by norm_num), zpow_natCast, zpow_natCast, div_le_iff₀ (by positivity)]
      exact_mod_cast hlow
  have hunit : (2 : ℚ) ^ (Int.log 2 |x| + 1 - ((p + 1 : ℕ) : Int)) = (2 ^ t)⁻¹ := by
    have hexp : Int.log 2 |x| + 1 - ((p + 1 : ℕ) : Int) = -(t : Int) := by
      rw [hlog]
      push_cast
      ring
    rw [hexp, zpow_neg, zpow_natCast]
  simp only [toPrecision, hunit, div_eq_mul_inv, inv_inv]

/-- A number that is `a / b` at the scale where it has its bits. -/
theorem toPrecision_of_ratio {p s : ℕ} {x : ℚ} {a b : Int} (hb : 0 < b)
    (hx : x * 2 ^ s = (a : ℚ) / b) (hlow : 2 ^ p * b ≤ a) (hhigh : a < 2 ^ (p + 1) * b) :
    toPrecision (p + 1) x = (nearestQuotient a b : ℚ) / 2 ^ s := by
  have hpos : (0 : ℚ) < b := Int.cast_pos.mpr hb
  have hlow' : (2 : ℚ) ^ p * b ≤ a := by exact_mod_cast hlow
  have hhigh' : (a : ℚ) < 2 ^ (p + 1) * b := by exact_mod_cast hhigh
  rw [toPrecision_of_scaled (t := s), hx, roundEven_div a hb]
  · rw [hx, le_div_iff₀ hpos]
    exact hlow'
  · rw [hx, div_lt_iff₀ hpos]
    exact hhigh'

/-- The rounded quotient is off by half a unit at most. -/
theorem nearestQuotient_close (a : Int) {b : Int} (hb : 0 < b) :
    2 * a - b ≤ 2 * (b * nearestQuotient a b) ∧ 2 * (b * nearestQuotient a b) ≤ 2 * a + b := by
  have hsplit := Int.mul_ediv_add_emod a b
  have hlow := Int.emod_nonneg a hb.ne'
  have hup : b * (a / b + 1) = b * (a / b) + b := by rw [Int.mul_add, Int.mul_one]
  unfold nearestQuotient
  by_cases hbelow : 2 * (a % b) < b
  · rw [if_pos hbelow]
    omega
  · rw [if_neg hbelow]
    by_cases habove : b < 2 * (a % b)
    · have hlt := Int.emod_lt_of_pos a hb
      rw [if_pos habove, hup]
      omega
    · rw [if_neg habove]
      by_cases heven : a / b % 2 = 0
      · rw [if_pos heven]
        omega
      · rw [if_neg heven, hup]
        omega

theorem roundEven_intCast (n : Int) : roundEven n = n := by
  simp [roundEven]

theorem abs_roundEven_sub_le (y : ℚ) : |(roundEven y : ℚ) - y| ≤ 1 / 2 := by
  have hfloor := Int.floor_le y
  have hnext := Int.lt_floor_add_one y
  rw [abs_le]
  unfold roundEven
  split_ifs with hbelow habove heven
  · constructor <;> linarith
  · push_cast
    constructor <;> linarith
  · constructor <;> linarith
  · push_cast
    constructor <;> linarith

/-- `y` is `x` up to the fraction `e`. -/
structure Near (e x y : ℚ) : Prop where
  low : (1 - e) * x ≤ y
  high : y ≤ (1 + e) * x

variable {e x y : ℚ}

theorem Near.pos (h : Near e x y) (he : e < 1) (hx : 0 < x) : 0 < y :=
  (mul_pos (sub_pos.mpr he) hx).trans_le h.low

theorem near_of_abs (h : |y - x| ≤ e * x) : Near e x y := by
  obtain ⟨hlow, hhigh⟩ := abs_le.mp h
  constructor
  · linarith
  · linarith

/-- The last of `p` bits is worth twice the fraction `2 ^ -p` at most. -/
theorem near_toPrecision (p : ℕ) (hx : 0 < x) : Near (1 / 2 ^ p) x (toPrecision p x) := by
  have hunit : (0 : ℚ) < 2 ^ (Int.log 2 |x| + 1 - p) := zpow_pos two_pos _
  have hhalf : (2 : ℚ) ^ (Int.log 2 |x| + 1 - p) / 2 ≤ 1 / 2 ^ p * x := by
    have hlog : ((2 : ℕ) : ℚ) ^ Int.log 2 x ≤ x := Int.zpow_log_le_self (by omega) hx
    rw [abs_of_pos hx]
    have hsplit : (2 : ℚ) ^ (Int.log 2 x + 1 - p) / 2 = 1 / 2 ^ p * 2 ^ Int.log 2 x := by
      rw [zpow_sub₀ two_ne_zero, zpow_add₀ two_ne_zero, zpow_one, zpow_natCast]
      ring
    rw [hsplit]
    exact mul_le_mul_of_nonneg_left (by exact_mod_cast hlog) (by positivity)
  refine near_of_abs ?_
  have hoff := abs_roundEven_sub_le (x / 2 ^ (Int.log 2 |x| + 1 - p))
  have hdiff : toPrecision p x - x =
      (roundEven (x / 2 ^ (Int.log 2 |x| + 1 - p)) - x / 2 ^ (Int.log 2 |x| + 1 - p)) *
        2 ^ (Int.log 2 |x| + 1 - p) := by
    rw [sub_mul, div_mul_cancel₀ _ hunit.ne']
    rfl
  rw [hdiff, abs_mul, abs_of_pos hunit]
  calc _ ≤ 1 / 2 * (2 : ℚ) ^ (Int.log 2 |x| + 1 - p) := mul_le_mul_of_nonneg_right hoff hunit.le
    _ ≤ 1 / 2 ^ p * x := by linarith

/-- A number of `p` bits is kept. -/
theorem toPrecision_of_bits {p : ℕ} {k : Int} (hk : |k| < 2 ^ p) (j : ℕ) :
    toPrecision p (k * 2 ^ j) = k * 2 ^ j := by
  by_cases hzero : k = 0
  · subst hzero
    simp [toPrecision, roundEven]
  have hpos : (0 : ℚ) < |(k * 2 ^ j : ℚ)| := by positivity
  have hlog : Int.log 2 |(k * 2 ^ j : ℚ)| < p + j := by
    refine (Int.lt_zpow_iff_log_lt (by omega) hpos).mp ?_
    have hcast : (|k| : ℚ) < 2 ^ p := by exact_mod_cast hk
    have hexp : ((2 : ℕ) : ℚ) ^ ((p : Int) + j) = 2 ^ p * 2 ^ j := by
      rw [zpow_add₀ (by norm_num), zpow_natCast, zpow_natCast]
      norm_cast
    rw [hexp, abs_mul, abs_of_pos (by positivity : (0 : ℚ) < 2 ^ j)]
    exact mul_lt_mul_of_pos_right hcast (by positivity)
  have hunfold : toPrecision p (k * 2 ^ j) =
      roundEven (k * 2 ^ j / 2 ^ (Int.log 2 |(k * 2 ^ j : ℚ)| + 1 - p)) *
        2 ^ (Int.log 2 |(k * 2 ^ j : ℚ)| + 1 - p) := rfl
  rw [hunfold]
  have hle : Int.log 2 |(k * 2 ^ j : ℚ)| + 1 - p ≤ j := by omega
  generalize Int.log 2 |(k * 2 ^ j : ℚ)| + 1 - p = unit at hle ⊢
  obtain ⟨n, hn⟩ := Int.le.dest hle
  have hpow : (2 : ℚ) ^ j = 2 ^ n * 2 ^ unit := by
    rw [← zpow_natCast, ← hn, zpow_add₀ two_ne_zero, zpow_natCast, mul_comm]
  have hwhole : (k * 2 ^ j : ℚ) / 2 ^ unit = ((k * 2 ^ n : Int) : ℚ) := by
    rw [hpow, ← mul_assoc, mul_div_cancel_right₀ _ (zpow_ne_zero unit two_ne_zero)]
    push_cast
    rfl
  rw [hwhole, roundEven_intCast, hpow]
  push_cast
  ring

/-- `y` is `x` after `n` roundings up to the fraction `u`, and short of it by
`loss` at most beyond that. -/
structure Drift (u : ℚ) (n : ℕ) (loss x y : ℚ) : Prop where
  low : (1 - u) ^ n * x - loss ≤ y
  high : y ≤ (1 + u) ^ n * x

namespace Drift

variable {u loss f z : ℚ} {n k : ℕ}

theorem refl (u x : ℚ) : Drift u 0 0 x x := by
  constructor <;> simp

theorem of_near (h : Near u x y) : Drift u 1 0 x y := by
  constructor
  · rw [pow_one, sub_zero]
    exact h.low
  · rw [pow_one]
    exact h.high

theorem mul (h : Drift u n loss x y) (hf : Drift u k 0 f z) (hu : 0 ≤ u) (hu' : u ≤ 1)
    (hloss : 0 ≤ loss) (hy : 0 ≤ y) (hpos : 0 ≤ f) :
    Drift u (n + k) (loss * f) (x * f) (y * z) := by
  have hlow := h.low
  have hhigh := h.high
  have hflow := hf.low
  have hfhigh := hf.high
  have hpow : (1 - u) ^ k ≤ 1 := pow_le_one₀ (by linarith) (by linarith)
  have hpow' : 0 ≤ (1 - u) ^ k := pow_nonneg (by linarith) k
  rw [sub_zero] at hflow
  constructor
  · calc (1 - u) ^ (n + k) * (x * f) - loss * f
        = (1 - u) ^ k * f * ((1 - u) ^ n * x) - loss * f := by ring
      _ ≤ (1 - u) ^ k * f * (y + loss) - loss * f := by
          have := mul_le_mul_of_nonneg_left (sub_le_iff_le_add.mp hlow) (mul_nonneg hpow' hpos)
          linarith
      _ ≤ y * ((1 - u) ^ k * f) := by
          have := mul_le_mul_of_nonneg_right hpow (mul_nonneg hloss hpos)
          linarith
      _ ≤ y * z := mul_le_mul_of_nonneg_left hflow hy
  · calc y * z ≤ y * ((1 + u) ^ k * f) := mul_le_mul_of_nonneg_left hfhigh hy
      _ ≤ (1 + u) ^ n * x * ((1 + u) ^ k * f) :=
          mul_le_mul_of_nonneg_right hhigh (mul_nonneg (pow_nonneg (by linarith) k) hpos)
      _ = (1 + u) ^ (n + k) * (x * f) := by ring

theorem round (h : Drift u n loss x y) (hz : Near u y z) (hu : 0 ≤ u) (hu' : u ≤ 1)
    (hloss : 0 ≤ loss) : Drift u (n + 1) loss x z := by
  have hlow := mul_le_mul_of_nonneg_left h.low (sub_nonneg.mpr hu')
  have hhigh := mul_le_mul_of_nonneg_left h.high (by linarith : 0 ≤ 1 + u)
  have hrest := mul_nonneg hu hloss
  constructor
  · calc (1 - u) ^ (n + 1) * x - loss ≤ (1 - u) * ((1 - u) ^ n * x - loss) := by
          rw [pow_succ]
          linarith
      _ ≤ z := hlow.trans hz.low
  · calc z ≤ (1 + u) * ((1 + u) ^ n * x) := hz.high.trans hhigh
      _ = (1 + u) ^ (n + 1) * x := by ring

theorem floor (h : Drift u n loss x y) : Drift u n (loss + 1) x ⌊y⌋ := by
  have hnext := Int.lt_floor_add_one y
  have hlow := h.low
  constructor
  · linarith
  · exact (Int.floor_le y).trans h.high

theorem one_add (h : Drift u n 0 x y) (hu : 0 ≤ u) (hu' : u ≤ 1) : Drift u n 0 (1 + x) (1 + y) := by
  have hlow := h.low
  have hhigh := h.high
  have hle : (1 - u) ^ n ≤ 1 := pow_le_one₀ (by linarith) (by linarith)
  have hge : 1 ≤ (1 + u) ^ n := one_le_pow₀ (by linarith)
  constructor
  · linarith
  · linarith

theorem mono (h : Drift u n loss x y) (hu : 0 ≤ u) (hu' : u ≤ 1) (hx : 0 ≤ x) {m : ℕ} {l : ℚ}
    (hm : n ≤ m) (hl : loss ≤ l) : Drift u m l x y := by
  have hlow := h.low
  have hhigh := h.high
  have hle : (1 - u) ^ m ≤ (1 - u) ^ n := pow_le_pow_of_le_one (by linarith) (by linarith) hm
  have hge : (1 + u) ^ n ≤ (1 + u) ^ m := pow_le_pow_right₀ (by linarith) hm
  have hbelow := mul_le_mul_of_nonneg_right hle hx
  have habove := mul_le_mul_of_nonneg_right hge hx
  constructor
  · linarith
  · linarith

/-- The roundings together. -/
theorem near (h : Drift u n loss x y) (hu : u ≤ 1) (hx : 0 ≤ x) {e : ℚ}
    (he : (1 + u) ^ n ≤ 1 + e) : x - n * u * x - loss ≤ y ∧ y ≤ x + e * x := by
  have hbernoulli : 1 - n * u ≤ (1 - u) ^ n := by
    have := one_add_mul_le_pow (by linarith : -2 ≤ -u) n
    rw [← sub_eq_add_neg] at this
    linarith
  have hlow := mul_le_mul_of_nonneg_right hbernoulli hx
  have hhigh := mul_le_mul_of_nonneg_right he hx
  constructor
  · have := h.low
    linarith
  · have := h.high
    linarith

end Drift

end BinaryRounding
