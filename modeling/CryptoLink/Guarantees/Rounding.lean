import CryptoLink.Library.Multiples
import CryptoLink.Money
import Mathlib.Tactic.Positivity

/-!
# Rounding to displayed decimals

An amount is rounded to the multiples of its last displayed digit: up when it
is locked, down when it is shown.
-/

namespace CryptoLink

open Multiples

namespace Money

/-- The smallest amount that `maxDecimals` decimals display. -/
def displayUnit (m : Money) (maxDecimals : Int) : Int :=
  10 ^ (max (m.decimals - maxDecimals) 0).toNat

variable (m : Money) (maxDecimals : Int)

theorem displayUnit_pos : 0 < m.displayUnit maxDecimals := by
  unfold displayUnit
  positivity

/-- Rounding an amount, with everything but the value kept. -/
theorem ceilDecimals_eq (h : 0 ≤ maxDecimals) :
    m.ceilDecimals maxDecimals =
      { m with value := up (m.displayUnit maxDecimals) m.value } := by
  by_cases hle : m.decimals ≤ maxDecimals
  · have hunit : m.displayUnit maxDecimals = 1 := by
      rw [displayUnit, max_eq_right (by omega), Int.toNat_zero, pow_zero]
    rw [ceilDecimals, if_pos (Or.inl hle), hunit, up_of_dvd one_pos (Int.one_dvd _)]
  · have hunit : m.displayUnit maxDecimals = 10 ^ (m.decimals - maxDecimals).toNat := by
      rw [displayUnit, max_eq_left (by omega)]
    rw [ceilDecimals, if_neg (by omega), hunit]
    rfl

theorem truncateDecimals_eq (h : 0 ≤ maxDecimals) :
    m.truncateDecimals maxDecimals =
      { m with value := down (m.displayUnit maxDecimals) m.value } := by
  by_cases hle : m.decimals ≤ maxDecimals
  · have hunit : m.displayUnit maxDecimals = 1 := by
      rw [displayUnit, max_eq_right (by omega), Int.toNat_zero, pow_zero]
    rw [truncateDecimals, if_pos (Or.inl hle), hunit, down_of_dvd one_pos (Int.one_dvd _)]
  · have hunit : m.displayUnit maxDecimals = 10 ^ (m.decimals - maxDecimals).toNat := by
      rw [displayUnit, max_eq_left (by omega)]
    rw [truncateDecimals, if_neg (by omega), hunit]
    rfl

end Money

/-- Rounding up to the displayed decimals gives the least multiple of the
displayed unit that covers the amount. -/
theorem ceilDecimals_least_multiple (maxDecimals : Int) (h : 0 ≤ maxDecimals) (m : Money) :
    IsLeast {z | m.displayUnit maxDecimals ∣ z ∧ m.value ≤ z} (m.ceilDecimals maxDecimals).value ∧
      (m.ceilDecimals maxDecimals).ceilDecimals maxDecimals = m.ceilDecimals maxDecimals ∧
      (∀ n : Money, n.decimals = m.decimals → m.value ≤ n.value →
        (m.ceilDecimals maxDecimals).value ≤ (n.ceilDecimals maxDecimals).value) ∧
      (m.ceilDecimals maxDecimals).moneyType = m.moneyType ∧
      (m.ceilDecimals maxDecimals).ticker = m.ticker ∧
      (m.ceilDecimals maxDecimals).decimals = m.decimals := by
  have hpos := m.displayUnit_pos maxDecimals
  have hceil := m.ceilDecimals_eq maxDecimals h
  refine ⟨?_, ?_, ?_, ?_⟩
  · rw [hceil]
    exact up_isLeast hpos
  · rw [Money.ceilDecimals_eq _ _ h, hceil]
    have hagain := up_of_dvd hpos (scale_dvd_up (x := m.value))
    exact congrArg (fun v => { m with value := v }) hagain
  · intro n hdecimals hle
    have hunit : n.displayUnit maxDecimals = m.displayUnit maxDecimals := by
      rw [Money.displayUnit, Money.displayUnit, hdecimals]
    rw [hceil, n.ceilDecimals_eq maxDecimals h, hunit]
    exact up_mono hpos hle
  · rw [hceil]
    exact ⟨rfl, rfl, rfl⟩

theorem ceilDecimals_least_multiple_below_zero :
    (0 : Int) ≤ 8 ∧ IsLeast {z | (Money.crypto "ETH" (-1) 18).displayUnit 8 ∣ z ∧ -1 ≤ z}
      ((Money.crypto "ETH" (-1) 18).ceilDecimals 8).value :=
  ⟨by decide, (ceilDecimals_least_multiple 8 (by decide) (Money.crypto "ETH" (-1) 18)).1⟩

/-- What rounding toward zero means for an amount and its opposite. -/
structure TruncatesTowardZero (maxDecimals : Int) (m : Money) : Prop where
  towardZero : IsTowardZero (m.displayUnit maxDecimals) m.value
    (m.truncateDecimals maxDecimals).value
  odd : ({ m with value := -m.value }.truncateDecimals maxDecimals).value =
    -(m.truncateDecimals maxDecimals).value
  idempotent : (m.truncateDecimals maxDecimals).truncateDecimals maxDecimals =
    m.truncateDecimals maxDecimals

section

variable {maxDecimals : Int} (h : 0 ≤ maxDecimals) (m : Money)

include h

theorem truncateDecimals_towardZero_iff :
    IsTowardZero (m.displayUnit maxDecimals) m.value (m.truncateDecimals maxDecimals).value ↔
      0 ≤ m.value ∨ m.displayUnit maxDecimals ∣ m.value := by
  rw [m.truncateDecimals_eq maxDecimals h]
  exact down_isTowardZero_iff (m.displayUnit_pos maxDecimals)

theorem truncateDecimals_odd_iff :
    ({ m with value := -m.value }.truncateDecimals maxDecimals).value =
      -(m.truncateDecimals maxDecimals).value ↔ m.displayUnit maxDecimals ∣ m.value := by
  rw [Money.truncateDecimals_eq _ _ h, Money.truncateDecimals_eq _ _ h]
  exact down_neg_iff (m.displayUnit_pos maxDecimals)

theorem truncateDecimals_idempotent :
    (m.truncateDecimals maxDecimals).truncateDecimals maxDecimals =
      m.truncateDecimals maxDecimals := by
  rw [Money.truncateDecimals_eq _ _ h, m.truncateDecimals_eq maxDecimals h]
  have hagain := down_of_dvd (m.displayUnit_pos maxDecimals) (scale_dvd_down (x := m.value))
  exact congrArg (fun v => { m with value := v }) hagain

end

/-- Truncation divides with the floor: below zero it moves away from zero
unless there is nothing to round. -/
theorem truncateDecimals_towardZero_exactly (maxDecimals : Int) (h : 0 ≤ maxDecimals) (m : Money) :
    (TruncatesTowardZero maxDecimals m ↔ m.displayUnit maxDecimals ∣ m.value) ∧
      (IsTowardZero (m.displayUnit maxDecimals) m.value (m.truncateDecimals maxDecimals).value ↔
        0 ≤ m.value ∨ m.displayUnit maxDecimals ∣ m.value) ∧
      (m.truncateDecimals maxDecimals).truncateDecimals maxDecimals =
        m.truncateDecimals maxDecimals := by
  have htoward := truncateDecimals_towardZero_iff h m
  have hodd := truncateDecimals_odd_iff h m
  have hagain := truncateDecimals_idempotent h m
  refine ⟨?_, htoward, hagain⟩
  constructor
  · intro hall
    exact hodd.mp hall.odd
  · intro hmultiple
    exact ⟨htoward.mpr (Or.inr hmultiple), hodd.mpr hmultiple, hagain⟩

theorem truncateDecimals_towardZero_exactly_multiple :
    TruncatesTowardZero 8 (Money.crypto "ETH" (-20000000000) 18) ↔
      (Money.crypto "ETH" (-20000000000) 18).displayUnit 8 ∣ -20000000000 :=
  (truncateDecimals_towardZero_exactly 8 (by decide) (Money.crypto "ETH" (-20000000000) 18)).1

/-- A customer who paid one wei too much is shown 10 gwei as paid too much. -/
theorem one_wei_overpaid_truncates_away :
    ((Money.crypto "ETH" (-1) 18).truncateDecimals 8).string = "-0.00000001" ∧
      ((Money.crypto "ETH" 1 18).truncateDecimals 8).string = "0" ∧
      ¬ TruncatesTowardZero 8 (Money.crypto "ETH" (-1) 18) := by
  refine ⟨by decide, by decide, ?_⟩
  intro hall
  exact absurd hall.odd (by decide)

end CryptoLink
