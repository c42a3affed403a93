import CryptoLink.Calls
import CryptoLink.Watcher.Matching

/-!
# An exact payment and its invoice

When a transfer of exactly what one open invoice expects is bound to an invoice
that expects it. Scores are whole basis points of 64 bits: another invoice can
tie with the exact one, or fall below it once its score overflows.
-/

namespace CryptoLink

open LeftmostMin

/-- The basis points by which `amount` exceeds `expected`. -/
def excessBps (amount expected : Int) : Int := (amount - expected) * 10000 / expected

/-- The 64-bit score of an overpaid invoice is not negative. -/
def ScoreInRange (amount : Int) (p : PendingInfo) : Prop :=
  0 < p.effectiveExpected → p.effectiveExpected < amount →
    excessBps amount p.effectiveExpected % 2 ^ 64 < 2 ^ 63

/-- Overpaid, but by no whole basis point (in 64 bits). -/
def Indistinct (amount : Int) (p : PendingInfo) : Prop :=
  0 < p.effectiveExpected ∧ p.effectiveExpected < amount ∧
    excessBps amount p.effectiveExpected % 2 ^ 64 = 0

/-- An invoice in front of position `i` expects exactly `amount`. -/
def ExactBefore (pending : List PendingInfo) (amount : Int) (i : ℕ) : Prop :=
  ∃ (j : ℕ) (q : PendingInfo), j < i ∧ pending[j]? = some q ∧ q.effectiveExpected = amount

/-- No open invoice can be taken for the one that expects `amount`. -/
def Separated (pending : List PendingInfo) (amount : Int) : Prop :=
  if amount = 0 then
    (∀ p ∈ pending, p.effectiveExpected ≤ 0) ∧
      pending.head?.map PendingInfo.effectiveExpected = some 0
  else
    (∀ p ∈ pending, ScoreInRange amount p) ∧
      ∀ (i : ℕ) p, pending[i]? = some p → Indistinct amount p → ExactBefore pending amount i

def FindsExact (pending : List PendingInfo) (amount : Int) : Prop :=
  ∃ i p, bestMatchByAmount pending amount = some (i, p, true) ∧ p.effectiveExpected = amount

theorem not_isDust_self (e : Int) : isDust e e = false := by
  unfold isDust dustThresholdBps
  by_cases h : 0 < e
  · simp only [h, decide_true, Bool.true_and, decide_eq_false_iff_not]
    omega
  · simp [h]

section Scores

variable {amount : Int} {p : PendingInfo}

theorem matchScore_skipped (h : p.effectiveExpected ≤ 0) : matchScore amount p = none := by
  simp only [matchScore, if_pos h]

theorem matchScore_some {v : Int} (h : matchScore amount p = some v) :
    0 < p.effectiveExpected := by
  by_contra hle
  rw [matchScore_skipped (by omega)] at h
  cases h

theorem matchScore_exact (h : p.effectiveExpected = amount) (hpos : 0 < amount) :
    matchScore amount p = some 0 := by
  have hnot : ¬ amount ≤ 0 := by omega
  simp only [matchScore, h, if_neg hnot, sub_self, abs_zero, zero_mul, Int.zero_ediv, lt_irrefl,
    if_false]
  rfl

theorem matchScore_over (hpos : 0 < p.effectiveExpected) (h : p.effectiveExpected < amount) :
    matchScore amount p = some (int64 (excessBps amount p.effectiveExpected)) := by
  have hnot : ¬ p.effectiveExpected ≤ 0 := by omega
  have hdiff : ¬ amount - p.effectiveExpected < 0 := by omega
  have habs : |amount - p.effectiveExpected| = amount - p.effectiveExpected :=
    abs_of_nonneg (by omega)
  simp only [matchScore, if_neg hnot, if_neg hdiff, habs, excessBps]

/-- An underpayment of something scores between 50000 and 60000. -/
theorem matchScore_under (hamount : 0 ≤ amount) (h : amount < p.effectiveExpected) :
    ∃ v, matchScore amount p = some v ∧ 50000 ≤ v ∧ v ≤ 60000 := by
  have hnot : ¬ p.effectiveExpected ≤ 0 := by omega
  have hdiff : amount - p.effectiveExpected < 0 := by omega
  have habs : |amount - p.effectiveExpected| = p.effectiveExpected - amount := by
    rw [abs_of_neg hdiff]
    omega
  have hlow : 0 ≤ (p.effectiveExpected - amount) * 10000 / p.effectiveExpected :=
    Int.ediv_nonneg (by omega) (by omega)
  have hhigh : (p.effectiveExpected - amount) * 10000 / p.effectiveExpected ≤ 10000 :=
    Int.ediv_le_of_le_mul (by omega) (by omega)
  refine ⟨_, by simp only [matchScore, if_neg hnot, if_pos hdiff, habs]; rfl, ?_, ?_⟩
  · simp only [int64, Int.bmod_def]
    omega
  · simp only [int64, Int.bmod_def]
    omega

theorem int64_nonneg_iff {x : Int} (_hx : 0 ≤ x) : 0 ≤ int64 x ↔ x % 2 ^ 64 < 2 ^ 63 := by
  simp only [int64, Int.bmod_def]
  omega

theorem int64_eq_zero_iff {x : Int} : int64 x = 0 ↔ x % 2 ^ 64 = 0 := by
  simp only [int64, Int.bmod_def]
  omega

theorem excessBps_nonneg {e : Int} (hpos : 0 < e) (h : e < amount) : 0 ≤ excessBps amount e :=
  Int.ediv_nonneg (by omega) hpos.le

/-- What a score at most zero says about the invoice. -/
theorem matchScore_le_zero {v : Int} (hpos : 0 < amount) (hrange : ScoreInRange amount p)
    (h : matchScore amount p = some v) (hv : v ≤ 0) :
    v = 0 ∧ (p.effectiveExpected = amount ∨ Indistinct amount p) := by
  have hexp : 0 < p.effectiveExpected := matchScore_some h
  rcases lt_trichotomy p.effectiveExpected amount with hover | hexact | hunder
  · have hval : v = int64 (excessBps amount p.effectiveExpected) :=
      (Option.some.inj ((matchScore_over hexp hover).symm.trans h)).symm
    have hnonneg : 0 ≤ v := by
      rw [hval]
      exact (int64_nonneg_iff (excessBps_nonneg hexp hover)).mpr (hrange hexp hover)
    have hzero : v = 0 := by omega
    refine ⟨hzero, .inr ⟨hexp, hover, ?_⟩⟩
    exact int64_eq_zero_iff.mp (hval.symm.trans hzero)
  · have hval : v = 0 := (Option.some.inj ((matchScore_exact hexact hpos).symm.trans h)).symm
    exact ⟨hval, .inl hexact⟩
  · obtain ⟨u, hu, hlow, -⟩ := matchScore_under hpos.le hunder
    have hval : v = u := Option.some.inj (h.symm.trans hu)
    omega

end Scores

section

variable {pending : List PendingInfo} {amount : Int}

/-- With an exact invoice open, the scan stops at a score of at most zero. -/
theorem scan_exact (hpos : 0 < amount)
    (hexact : ∃ p ∈ pending, p.effectiveExpected = amount) :
    ∃ k v p, scan (matchScore amount) pending 0 (0, 2 ^ 62 - 1) = (k, v) ∧ v ≤ 0 ∧
      IsFirst (matchScore amount) pending k v ∧ pending[k]? = some p ∧
        matchScore amount p = some v := by
  obtain ⟨q, hq, hqe⟩ := hexact
  have hqs : matchScore amount q = some 0 := matchScore_exact hqe hpos
  obtain ⟨k, v, hscan, -, hfirst⟩ :=
    @scan_of_lt _ _ _ _ _ ((0 : ℕ), (2 ^ 62 - 1 : Int)) _ _ hq hqs (by decide)
  obtain ⟨p, hp, hpv⟩ := hfirst.value
  obtain ⟨i, hi⟩ := List.mem_iff_getElem?.mp hq
  exact ⟨k, v, p, hscan, hfirst.least i q 0 hi hqs, hfirst, hp, hpv⟩

theorem separated_of_finds (hpos : 0 < amount)
    (hexact : ∃ p ∈ pending, p.effectiveExpected = amount) (h : FindsExact pending amount) :
    (∀ p ∈ pending, ScoreInRange amount p) ∧
      ∀ (i : ℕ) p, pending[i]? = some p → Indistinct amount p → ExactBefore pending amount i := by
  obtain ⟨k, v, p, hscan, -, hfirst, hp, hpv⟩ := scan_exact hpos hexact
  obtain ⟨i, q, hfound, hqe⟩ := h
  rw [bestMatchByAmount_eq hscan hp] at hfound
  -- the invoice found is the one the scan stopped at, so its score is zero
  simp only [Option.some.injEq, Prod.mk.injEq] at hfound
  obtain ⟨rfl, rfl, -⟩ := hfound
  have hv : v = 0 := Option.some.inj (hpv.symm.trans (matchScore_exact hqe hpos))
  constructor
  · intro r hr hrpos hrover
    obtain ⟨j, hj⟩ := List.mem_iff_getElem?.mp hr
    have hleast := hfirst.least j r _ hj (matchScore_over hrpos hrover)
    rw [hv] at hleast
    exact (int64_nonneg_iff (excessBps_nonneg hrpos hrover)).mp hleast
  · rintro j r hj ⟨hrpos, hrover, hzero⟩
    have hscore := matchScore_over hrpos hrover
    rw [int64_eq_zero_iff.mpr hzero] at hscore
    have hle : k ≤ j := by
      by_contra hlt
      have := hfirst.earlier j (by omega) r 0 hj hscore
      omega
    have hne : k ≠ j := by
      rintro rfl
      rw [hp] at hj
      obtain rfl := Option.some.inj hj
      omega
    exact ⟨k, p, by omega, hp, hqe⟩

theorem finds_of_separated (hpos : 0 < amount)
    (hexact : ∃ p ∈ pending, p.effectiveExpected = amount)
    (hrange : ∀ p ∈ pending, ScoreInRange amount p)
    (hfirst : ∀ (i : ℕ) p, pending[i]? = some p → Indistinct amount p →
      ExactBefore pending amount i) :
    FindsExact pending amount := by
  obtain ⟨k, v, p, hscan, hv, hscanFirst, hp, hpv⟩ := scan_exact hpos hexact
  have hmem : p ∈ pending := List.mem_of_getElem? hp
  obtain ⟨rfl, hcase⟩ := matchScore_le_zero hpos (hrange p hmem) hpv hv
  rcases hcase with hpe | hnear
  · refine ⟨k, p, ?_, hpe⟩
    rw [bestMatchByAmount_eq hscan hp, hpe, not_isDust_self]
    rfl
  · -- an exact invoice in front of it would have stopped the scan
    obtain ⟨j, q, hj, hq, hqe⟩ := hfirst k p hp hnear
    have := hscanFirst.earlier j hj q 0 hq (matchScore_exact hqe hpos)
    omega

/-- A transfer of nothing goes to the first invoice unless one expects more. -/
theorem finds_zero_iff :
    FindsExact pending 0 ↔ (∀ p ∈ pending, p.effectiveExpected ≤ 0) ∧
      pending.head?.map PendingInfo.effectiveExpected = some 0 := by
  by_cases hall : ∀ p ∈ pending, p.effectiveExpected ≤ 0
  · have hscan : scan (matchScore 0) pending 0 (0, 2 ^ 62 - 1) = (0, 2 ^ 62 - 1) := by
      refine scan_of_le fun p hp v hv => ?_
      rw [matchScore_skipped (hall p hp)] at hv
      cases hv
    cases pending with
    | nil => simp [FindsExact, bestMatchByAmount]
    | cons p rest =>
      have hdust : isDust 0 p.effectiveExpected = false := by
        have := hall p List.mem_cons_self
        simp [isDust, this]
      have hbest := bestMatchByAmount_eq (p := p) hscan rfl
      constructor
      · rintro ⟨i, q, hfound, hqe⟩
        rw [hbest] at hfound
        simp only [Option.some.injEq, Prod.mk.injEq] at hfound
        obtain ⟨-, rfl, -⟩ := hfound
        exact ⟨hall, by simp [hqe]⟩
      · rintro ⟨-, hhead⟩
        have hpe : p.effectiveExpected = 0 := by simpa using hhead
        exact ⟨0, p, by rw [hbest, hdust]; rfl, hpe⟩
  · push Not at hall
    obtain ⟨r, hr, hrpos⟩ := hall
    constructor
    · rintro ⟨i, q, hfound, hqe⟩
      obtain ⟨u, hu, -, hhigh⟩ : ∃ u, matchScore 0 r = some u ∧ 50000 ≤ u ∧ u ≤ 60000 :=
        matchScore_under le_rfl hrpos
      have hbelow : u < 2 ^ 62 - 1 := by omega
      obtain ⟨k, v, hscan, -, hfirst⟩ :=
        @scan_of_lt _ _ _ _ _ ((0 : ℕ), (2 ^ 62 - 1 : Int)) _ _ hr hu hbelow
      obtain ⟨p, hp, hpv⟩ := hfirst.value
      rw [bestMatchByAmount_eq hscan hp] at hfound
      simp only [Option.some.injEq, Prod.mk.injEq] at hfound
      obtain ⟨-, rfl, -⟩ := hfound
      have := matchScore_some hpv
      omega
    · rintro ⟨hle, -⟩
      have := hle r hr
      omega

end

/-- For every list of open invoices and every amount one of them expects
exactly: it is found, or another that expects the same, exactly when the
invoices are separated. -/
theorem exact_payment_finds_invoice_iff (pending : List PendingInfo) (amount : ℕ)
    (hexact : ∃ p ∈ pending, p.effectiveExpected = amount) :
    FindsExact pending amount ↔ Separated pending amount := by
  by_cases hzero : (amount : Int) = 0
  · rw [Separated, if_pos hzero, hzero]
    exact finds_zero_iff
  · have hpos : 0 < (amount : Int) := by omega
    rw [Separated, if_neg hzero]
    constructor
    · exact separated_of_finds hpos hexact
    · rintro ⟨hrange, hfirst⟩
      exact finds_of_separated hpos hexact hrange hfirst

namespace Sample

/-- An open invoice without fills that expects `amount`. -/
def awaiting (id amount : Int) : PendingInfo where
  tx := Service.transactionOf { invoice .pending none none none with id := id, amount := amount }
    ether none
  walletID := none
  remaining := none

end Sample

open Sample

/-- Eighty of something, with a hundred and eighty expected. -/
theorem exact_payment_finds_invoice_iff_sample :
    FindsExact [awaiting 1 100, awaiting 2 80] (80 : ℕ) ↔
      Separated [awaiting 1 100, awaiting 2 80] (80 : ℕ) :=
  exact_payment_finds_invoice_iff [awaiting 1 100, awaiting 2 80] 80
    ⟨awaiting 2 80, by decide, by decide⟩

/-- 63.822789 of a token with six decimals, in front of it an invoice of
63.822456: less than a basis point apart. -/
theorem exact_payment_taken_by_another_invoice :
    ¬ ∀ (pending : List PendingInfo) (amount : ℕ), pending ≠ [] →
      (∃ p ∈ pending, p.effectiveExpected = amount) → FindsExact pending amount := by
  intro h
  obtain ⟨i, p, hfound, hpe⟩ := h [awaiting 1 63822456, awaiting 2 63822789] 63822789 (by simp)
    ⟨awaiting 2 63822789, by simp, by decide⟩
  have hbest : bestMatchByAmount [awaiting 1 63822456, awaiting 2 63822789] (63822789 : ℕ) =
      some (0, awaiting 1 63822456, true) := by decide +kernel
  rw [hbest] at hfound
  simp only [Option.some.injEq, Prod.mk.injEq] at hfound
  obtain ⟨-, rfl, -⟩ := hfound
  revert hpe
  decide

end CryptoLink
