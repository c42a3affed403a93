import Mathlib.Data.Int.Order.Basic
import Mathlib.Data.List.Basic

/-!
# Tilings of an interval

Ranges of integers, first and last included, that fill an interval one after
another: none is empty, and each starts where the one before it ended.
-/

namespace Tilings

/-- The ranges fill the interval from `a` up to but not including `b`. -/
inductive Tiles : Int → Int → List (Int × Int) → Prop
  | nil (a : Int) : Tiles a a []
  | cons {a last b : Int} {ranges : List (Int × Int)} (nonempty : a ≤ last)
      (rest : Tiles (last + 1) b ranges) : Tiles a b ((a, last) :: ranges)

variable {a b d : Int} {ranges more : List (Int × Int)}

theorem Tiles.single (h : a ≤ b) : Tiles a (b + 1) [(a, b)] := .cons h (.nil (b + 1))

theorem Tiles.le (h : Tiles a b ranges) : a ≤ b := by
  induction h with
  | nil a => omega
  | cons nonempty _ ih => omega

theorem Tiles.bounds (h : Tiles a b ranges) {r : Int × Int} (hr : r ∈ ranges) :
    a ≤ r.1 ∧ r.1 ≤ r.2 ∧ r.2 < b := by
  induction h with
  | nil a => cases hr
  | cons nonempty rest ih =>
    have hle := rest.le
    rcases List.mem_cons.mp hr with rfl | hmem
    · exact ⟨le_rfl, nonempty, by omega⟩
    · obtain ⟨hfirst, horder, hlast⟩ := ih hmem
      exact ⟨by omega, horder, hlast⟩

/-- Every integer of the interval is in one of the ranges, and no other is. -/
theorem Tiles.mem_iff (h : Tiles a b ranges) (x : Int) :
    (∃ r ∈ ranges, r.1 ≤ x ∧ x ≤ r.2) ↔ a ≤ x ∧ x < b := by
  induction h with
  | nil a =>
    constructor
    · rintro ⟨r, hr, -⟩
      cases hr
    · intro h
      omega
  | @cons a last b ranges nonempty rest ih =>
    have hle := rest.le
    constructor
    · rintro ⟨r, hr, hfirst, hlast⟩
      rcases List.mem_cons.mp hr with rfl | hmem
      · omega
      · have := ih.mp ⟨r, hmem, hfirst, hlast⟩
        omega
    · rintro ⟨hfirst, hlast⟩
      by_cases hhead : x ≤ last
      · exact ⟨(a, last), List.mem_cons_self, hfirst, hhead⟩
      · obtain ⟨r, hr, hx⟩ := ih.mpr ⟨by omega, hlast⟩
        exact ⟨r, List.mem_cons_of_mem _ hr, hx⟩

/-- The ranges are disjoint and in order. -/
theorem Tiles.pairwise (h : Tiles a b ranges) : ranges.Pairwise fun r r' => r.2 < r'.1 := by
  induction h with
  | nil a => exact List.Pairwise.nil
  | cons nonempty rest ih =>
    refine List.Pairwise.cons ?_ ih
    intro r hr
    have := rest.bounds hr
    omega

end Tilings
