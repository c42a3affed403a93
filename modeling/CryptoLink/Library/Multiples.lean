import Mathlib.Algebra.Order.Ring.Abs
import Mathlib.Algebra.Order.Ring.Int
import Mathlib.Order.Bounds.Basic

/-!
# Rounding an integer to multiples

Down, up and toward zero. Up is built from the division that rounds toward
zero and the sign of its remainder.
-/

namespace Multiples

def down (scale x : Int) : Int := x / scale * scale

def up (scale x : Int) : Int := (x.tdiv scale + if 0 < x.tmod scale then 1 else 0) * scale

/-- `y` is the multiple furthest from zero that lies between zero and `x`. -/
structure IsTowardZero (scale x y : Int) : Prop where
  multiple : scale ∣ y
  nonneg : 0 ≤ x → 0 ≤ y
  nonpos : x ≤ 0 → y ≤ 0
  within : |y| ≤ |x|
  largest : ∀ z, scale ∣ z → |z| ≤ |x| → |z| ≤ |y|

variable {scale x y : Int}

theorem scale_dvd_down : scale ∣ down scale x := Dvd.intro_left _ rfl

theorem scale_dvd_up : scale ∣ up scale x := Dvd.intro_left _ rfl

/-- Two multiples less than a scale apart are ordered as their quotients. -/
theorem le_of_lt_add (hy : scale ∣ y) (hx : scale ∣ x) (hlt : y < x + scale) : y ≤ x := by
  obtain ⟨k, rfl⟩ := hy
  obtain ⟨l, rfl⟩ := hx
  by_contra hgt
  have hsub : scale * k - scale * l = scale * (k - l) := (Int.mul_sub scale k l).symm
  have hscale : 0 < scale := by omega
  have hpos : 0 < scale * (k - l) := by omega
  have hone : 1 ≤ k - l := by
    by_contra hle
    have hnonpos : scale * (k - l) ≤ 0 := mul_nonpos_of_nonneg_of_nonpos hscale.le (by omega)
    omega
  have hle : scale * 1 ≤ scale * (k - l) := mul_le_mul_of_nonneg_left hone hscale.le
  omega

section

variable (h : 0 < scale)

include h

theorem down_le : down scale x ≤ x := Int.ediv_mul_le x h.ne'

theorem lt_down_add : x < down scale x + scale := Int.lt_ediv_add_one_mul_self x h |>.trans_eq (by
  rw [down, Int.add_mul, Int.one_mul])

theorem down_isGreatest : IsGreatest {z | scale ∣ z ∧ z ≤ x} (down scale x) := by
  constructor
  · exact ⟨scale_dvd_down, down_le h⟩
  · rintro z ⟨hz, hle⟩
    have hlt := lt_down_add (x := x) h
    exact le_of_lt_add hz scale_dvd_down (by omega)

theorem le_up : x ≤ up scale x ∧ up scale x < x + scale := by
  have hsplit : x.tdiv scale * scale + x.tmod scale = x := by
    rw [Int.mul_comm]
    exact Int.mul_tdiv_add_tmod x scale
  have habove : x.tmod scale < scale := Int.tmod_lt_of_pos x h
  have hbelow : -scale < x.tmod scale := by
    by_cases hx : 0 ≤ x
    · have hnonneg := Int.tmod_nonneg scale hx
      omega
    · have hneg : (-x).tmod scale < scale := Int.tmod_lt_of_pos (-x) h
      rw [Int.neg_tmod] at hneg
      omega
  unfold up
  by_cases hpos : 0 < x.tmod scale
  · rw [if_pos hpos, Int.add_mul, Int.one_mul]
    omega
  · rw [if_neg hpos, Int.add_zero]
    omega

theorem up_isLeast : IsLeast {z | scale ∣ z ∧ x ≤ z} (up scale x) := by
  obtain ⟨hcovers, hclose⟩ := le_up (x := x) h
  constructor
  · exact ⟨scale_dvd_up, hcovers⟩
  · rintro z ⟨hz, hle⟩
    exact le_of_lt_add scale_dvd_up hz (by omega)

theorem up_of_dvd (hx : scale ∣ x) : up scale x = x := by
  have hleast := up_isLeast (x := x) h
  have hle : up scale x ≤ x := hleast.2 ⟨hx, le_refl x⟩
  have hge : x ≤ up scale x := hleast.1.2
  omega

theorem down_of_dvd (hx : scale ∣ x) : down scale x = x := by
  have hgreatest := down_isGreatest (x := x) h
  have hge : x ≤ down scale x := hgreatest.2 ⟨hx, le_refl x⟩
  have hle : down scale x ≤ x := hgreatest.1.2
  omega

theorem up_mono (hxy : x ≤ y) : up scale x ≤ up scale y :=
  (up_isLeast h).2 ⟨scale_dvd_up, hxy.trans (le_up h).1⟩

/-- Rounding down is rounding toward zero only where there is nothing to
round, or nothing below zero. -/
theorem down_isTowardZero_iff :
    IsTowardZero scale x (down scale x) ↔ 0 ≤ x ∨ scale ∣ x := by
  have hle := down_le (x := x) h
  constructor
  · intro htoward
    by_cases hx : 0 ≤ x
    · exact Or.inl hx
    · apply Or.inr
      have hwithin := htoward.within
      have hnonpos := htoward.nonpos (by omega)
      rw [abs_of_nonpos hnonpos, abs_of_nonpos (by omega)] at hwithin
      have hsame : down scale x = x := by omega
      rw [← hsame]
      exact scale_dvd_down
  · rintro (hx | hx)
    · have hnonneg : 0 ≤ down scale x := (down_isGreatest h).2 ⟨Int.dvd_zero scale, hx⟩
      refine ⟨scale_dvd_down, fun _ => hnonneg, fun _ => by omega, ?_, ?_⟩
      · rw [abs_of_nonneg hnonneg, abs_of_nonneg hx]
        exact hle
      · intro z hz hzx
        rw [abs_of_nonneg hx] at hzx
        rw [abs_of_nonneg hnonneg]
        exact (down_isGreatest h).2 ⟨(dvd_abs scale z).mpr hz, hzx⟩
    · rw [down_of_dvd h hx]
      exact ⟨hx, fun hx => hx, fun hx => hx, le_refl _, fun z _ hzx => hzx⟩

theorem down_neg_iff : down scale (-x) = -down scale x ↔ scale ∣ x := by
  constructor
  · intro hodd
    have hle := down_le (x := x) h
    have hle' := down_le (x := -x) h
    have hsame : down scale x = x := by omega
    rw [← hsame]
    exact scale_dvd_down
  · intro hx
    rw [down_of_dvd h hx, down_of_dvd h ((dvd_neg (a := scale)).mpr hx)]

end

end Multiples
