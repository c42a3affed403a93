import CryptoLink.Subscriptions.Tables
import Mathlib

/-!
# Months

Months are numbered through, and each day lies between the first of its month
and the first of the next. The dates of the calendar are read off that.
-/

namespace CryptoLink

namespace Calendar

/-- The first day of month `k`, counted in months from the year zero. -/
def firstDay (k : Int) : Int := daysFromCivil (k / 12) (k % 12 + 1) 1

/-- The month a day lies in. -/
def monthIndex (days : Int) : Int :=
  let (year, month, _) := civilFromDays days
  12 * year + (month - 1)

/-- The year of an era starts at most `doe` days after it, and the next one later. -/
theorem yearOfEra_bracket (doe : Int) (h : 0 ≤ doe) (h' : doe < 146097) :
    let y := (doe - doe / 1460 + doe / 36524 - doe / 146096) / 365
    0 ≤ y ∧ y ≤ 399 ∧ 365 * y + y / 4 - y / 100 ≤ doe ∧
      doe < 365 * (y + 1) + (y + 1) / 4 - (y + 1) / 100 + (y + 1) / 400 := by
  intro y
  obtain ⟨e, he⟩ : ∃ e, e = doe / 1460 := ⟨_, rfl⟩
  obtain ⟨q, hq⟩ : ∃ q, y = 4 * e + q := ⟨y - 4 * e, by omega⟩
  have hy : 365 * y ≤ doe - doe / 1460 + doe / 36524 - doe / 146096 ∧
      doe - doe / 1460 + doe / 36524 - doe / 146096 < 365 * y + 365 := by omega
  clear_value y
  -- centuries, the place in four years, and centuries of the year
  have hcentury : doe / 36524 = 0 ∨ doe / 36524 = 1 ∨ doe / 36524 = 2 ∨ doe / 36524 = 3 ∨
      doe / 36524 = 4 := by omega
  have hplace : q = -1 ∨ q = 0 ∨ q = 1 ∨ q = 2 ∨ q = 3 ∨ q = 4 := by omega
  have hyear : y / 100 = 0 ∨ y / 100 = 1 ∨ y / 100 = 2 ∨ y / 100 = 3 := by omega
  rcases hcentury with hc | hc | hc | hc | hc <;>
    rcases hplace with rfl | rfl | rfl | rfl | rfl | rfl <;>
      rcases hyear with hd | hd | hd | hd
  all_goals omega

/-- What the date of a day is made of. -/
theorem civilFromDays_spec (days : Int) : ∃ era y mp dayOfMonth : Int,
    0 ≤ y ∧ y ≤ 399 ∧ 0 ≤ mp ∧ mp ≤ 11 ∧
    civilFromDays days =
      (if mp < 10 then y + era * 400 else y + era * 400 + 1, if mp < 10 then mp + 3 else mp - 9,
        dayOfMonth) ∧
    era * 146097 + (y * 365 + y / 4 - y / 100 + (153 * mp + 2) / 5) - 719468 + (dayOfMonth - 1) =
      days ∧ 1 ≤ dayOfMonth ∧
    (mp < 11 → (153 * mp + 2) / 5 + dayOfMonth ≤ (153 * (mp + 1) + 2) / 5) ∧
    y * 365 + y / 4 - y / 100 + (153 * mp + 2) / 5 + (dayOfMonth - 1) <
      365 * (y + 1) + (y + 1) / 4 - (y + 1) / 100 + (y + 1) / 400 := by
  obtain ⟨doe, hdoe⟩ : ∃ doe, doe = (days + 719468) - (days + 719468) / 146097 * 146097 := ⟨_, rfl⟩
  have hbracket := yearOfEra_bracket doe (by omega) (by omega)
  obtain ⟨y, hy⟩ : ∃ y, y = (doe - doe / 1460 + doe / 36524 - doe / 146096) / 365 := ⟨_, rfl⟩
  rw [← hy] at hbracket
  obtain ⟨hlow, hhigh, hstart, hend⟩ := hbracket
  obtain ⟨doy, hdoy⟩ : ∃ doy, doy = doe - (365 * y + y / 4 - y / 100) := ⟨_, rfl⟩
  obtain ⟨mp, hmp⟩ : ∃ mp, mp = (5 * doy + 2) / 153 := ⟨_, rfl⟩
  have hdoyHigh : doy ≤ 365 := by omega
  refine ⟨(days + 719468) / 146097, y, mp, doy - (153 * mp + 2) / 5 + 1, hlow, hhigh, by omega,
    by omega, ?_, by omega, by omega, by omega, by omega⟩
  have hcivil : civilFromDays days =
      (if (if mp < 10 then mp + 3 else mp - 9) ≤ 2 then y + (days + 719468) / 146097 * 400 + 1
        else y + (days + 719468) / 146097 * 400, if mp < 10 then mp + 3 else mp - 9,
        doy - (153 * mp + 2) / 5 + 1) := by
    rw [hmp, hdoy, hy, hdoe]
    rfl
  rw [hcivil]
  by_cases hspring : mp < 10
  · have hmonth : ¬ mp + 3 ≤ 2 := by omega
    simp only [hspring, if_true, hmonth, if_false]
  · have hmonth : mp - 9 ≤ 2 := by omega
    simp only [hspring, if_false, hmonth, if_true]

/-- Month `mp` after March of year `y` of an era. -/
theorem firstDay_eq {era y mp : Int} (hy : 0 ≤ y) (hy' : y ≤ 399) (hmp : 0 ≤ mp) (hmp' : mp ≤ 11) :
    firstDay (12 * (y + era * 400) + (mp + 2)) =
      era * 146097 + (y * 365 + y / 4 - y / 100 + (153 * mp + 2) / 5) - 719468 := by
  rw [firstDay, daysFromCivil]
  by_cases hspring : mp < 10
  · have hyear : (12 * (y + era * 400) + (mp + 2)) / 12 = y + era * 400 := by omega
    have hmonth : (12 * (y + era * 400) + (mp + 2)) % 12 = mp + 2 := by omega
    have hlate : ¬ mp + 2 + 1 ≤ 2 := by omega
    have hera : (y + era * 400) / 400 = era := by omega
    have hplace : (mp + 2 + 1 + 9) % 12 = mp := by omega
    simp only [hyear, hmonth, hlate, if_false, hera, hplace]
    omega
  · have hyear : (12 * (y + era * 400) + (mp + 2)) / 12 = y + era * 400 + 1 := by omega
    have hmonth : (12 * (y + era * 400) + (mp + 2)) % 12 = mp - 10 := by omega
    have hearly : mp - 10 + 1 ≤ 2 := by omega
    have hera : (y + era * 400 + 1 - 1) / 400 = era := by omega
    have hplace : (mp - 10 + 1 + 9) % 12 = mp := by omega
    simp only [hyear, hmonth, hearly, if_true, hera, hplace]
    omega

/-- Every month is one of twelve from March on in a year of an era. -/
theorem month_cases (k : Int) : ∃ era y mp : Int, 0 ≤ y ∧ y ≤ 399 ∧ 0 ≤ mp ∧ mp ≤ 11 ∧
    k = 12 * (y + era * 400) + (mp + 2) :=
  ⟨(k - 2) / 12 / 400, (k - 2) / 12 % 400, (k - 2) % 12, by omega, by omega, by omega, by omega,
    by omega⟩

/-- The first of the next month. -/
theorem firstDay_succ {era y mp : Int} (hy : 0 ≤ y) (hy' : y ≤ 399) (hmp : 0 ≤ mp)
    (hmp' : mp ≤ 11) : firstDay (12 * (y + era * 400) + (mp + 2) + 1) =
      if mp < 11 then
        era * 146097 + (y * 365 + y / 4 - y / 100 + (153 * (mp + 1) + 2) / 5) - 719468
      else era * 146097 + (365 * (y + 1) + (y + 1) / 4 - (y + 1) / 100 +
        (y + 1) / 400) - 719468 := by
  by_cases hsame : mp < 11
  · have hindex : 12 * (y + era * 400) + (mp + 2) + 1 = 12 * (y + era * 400) + (mp + 1 + 2) := by
      omega
    rw [if_pos hsame, hindex, firstDay_eq hy hy' (by omega) (by omega)]
  · rw [if_neg hsame]
    by_cases hyear : y < 399
    · have hindex : 12 * (y + era * 400) + (mp + 2) + 1 = 12 * (y + 1 + era * 400) + (0 + 2) := by
        omega
      rw [hindex, firstDay_eq (by omega) (by omega) le_rfl (by omega)]
      omega
    · have hindex : 12 * (y + era * 400) + (mp + 2) + 1 =
          12 * (0 + (era + 1) * 400) + (0 + 2) := by omega
      rw [hindex, firstDay_eq le_rfl (by omega) le_rfl (by omega)]
      omega

theorem firstDay_strictMono : StrictMono firstDay := by
  refine strictMono_int_of_lt_succ fun k => ?_
  obtain ⟨era, y, mp, hy, hy', hmp, hmp', rfl⟩ := month_cases k
  rw [firstDay_eq hy hy' hmp hmp', firstDay_succ hy hy' hmp hmp']
  split
  · omega
  · omega

/-- The date of a day, counted in months. -/
theorem civilFromDays_eq (days : Int) : ∃ year month, 1 ≤ month ∧ month ≤ 12 ∧
    civilFromDays days = (year, month, days - firstDay (monthIndex days) + 1) ∧
    monthIndex days = 12 * year + (month - 1) ∧ firstDay (monthIndex days) ≤ days ∧
    days < firstDay (monthIndex days + 1) := by
  obtain ⟨era, y, mp, dayOfMonth, hy, hy', hmp, hmp', hcivil, hdays, hfirst, hlast, hyearEnd⟩ :=
    civilFromDays_spec days
  have hindex : monthIndex days = 12 * (y + era * 400) + (mp + 2) := by
    rw [monthIndex, hcivil]
    by_cases hspring : mp < 10
    · simp only [hspring, if_true]
      omega
    · simp only [hspring, if_false]
      omega
  have hstart := @firstDay_eq era y mp hy hy' hmp hmp'
  have hend := @firstDay_succ era y mp hy hy' hmp hmp'
  rw [hindex, hstart, hend]
  refine ⟨if mp < 10 then y + era * 400 else y + era * 400 + 1,
    if mp < 10 then mp + 3 else mp - 9, ?_, ?_, ?_, ?_, by omega, ?_⟩
  · split <;> omega
  · split <;> omega
  · rw [hcivil]
    have hday : dayOfMonth = days - (era * 146097 + (y * 365 + y / 4 - y / 100 +
        (153 * mp + 2) / 5) - 719468) + 1 := by omega
    rw [← hday]
  · split <;> omega
  · split
    · rename_i hsame
      have := hlast hsame
      omega
    · omega

theorem monthIndex_eq_of {k days : Int} (h : firstDay k ≤ days) (h' : days < firstDay (k + 1)) :
    monthIndex days = k := by
  obtain ⟨-, -, -, -, -, -, hlow, hhigh⟩ := civilFromDays_eq days
  have hle : monthIndex days < k + 1 := firstDay_strictMono.lt_iff_lt.mp (lt_of_le_of_lt hlow h')
  have hge : k < monthIndex days + 1 := firstDay_strictMono.lt_iff_lt.mp (lt_of_le_of_lt h hhigh)
  omega

theorem monthIndex_firstDay (k : Int) : monthIndex (firstDay k) = k :=
  monthIndex_eq_of le_rfl (firstDay_strictMono (by omega))

/-- The month an instant lies in. -/
def monthOf (t : Int) : Int := monthIndex (t / day)

/-- The first instant of month `k`. -/
def startOf (k : Int) : Int := firstDay k * day

theorem monthStart_eq (t : Int) : monthStart t = startOf (monthOf t) := by
  obtain ⟨year, month, hlow, hhigh, hcivil, hindex, -, -⟩ := civilFromDays_eq (t / day)
  rw [monthStart, hcivil, startOf, monthOf, hindex, firstDay]
  have hyear : (12 * year + (month - 1)) / 12 = year := by omega
  have hmonth : (12 * year + (month - 1)) % 12 + 1 = month := by omega
  rw [hyear, hmonth]

theorem startOf_div (k : Int) : startOf k / day = firstDay k := by
  rw [startOf, Int.mul_ediv_cancel _ (by decide)]

/-- A month later is the start of the next one. -/
theorem addDate_startOf (k : Int) : addDate (startOf k) 0 1 = startOf (k + 1) := by
  obtain ⟨year, month, hlow, hhigh, hcivil, hindex, -, -⟩ := civilFromDays_eq (firstDay k)
  rw [monthIndex_firstDay] at hcivil hindex
  have hrest : startOf k % day = 0 := Int.mul_emod_left _ _
  have hyear : (k + 1) / 12 = year + 0 + (month - 1 + 1) / 12 := by omega
  have hmonth : (k + 1) % 12 + 1 = (month - 1 + 1) % 12 + 1 := by omega
  have hnext : firstDay (k + 1) =
      daysFromCivil (year + 0 + (month - 1 + 1) / 12) ((month - 1 + 1) % 12 + 1) 1 := by
    rw [firstDay, hyear, hmonth]
  rw [addDate, startOf_div, hcivil, hrest, startOf, hnext]
  dsimp only
  rw [sub_self, zero_add, sub_self, add_zero, add_zero]

/-- An instant lies in the month between whose start and the next start it is. -/
theorem monthOf_eq_iff {t k : Int} : monthOf t = k ↔ startOf k ≤ t ∧ t < startOf (k + 1) := by
  have hpositive : 0 < day := by decide
  constructor
  · rintro rfl
    obtain ⟨-, -, -, -, -, -, hlow, hhigh⟩ := civilFromDays_eq (t / day)
    constructor
    · exact (Int.le_ediv_iff_mul_le hpositive).mp hlow
    · exact (Int.ediv_lt_iff_lt_mul hpositive).mp hhigh
  · rintro ⟨hlow, hhigh⟩
    exact monthIndex_eq_of ((Int.le_ediv_iff_mul_le hpositive).mpr hlow)
      ((Int.ediv_lt_iff_lt_mul hpositive).mpr hhigh)

end Calendar

end CryptoLink
