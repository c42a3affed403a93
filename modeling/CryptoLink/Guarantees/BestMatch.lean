import CryptoLink.Guarantees.ExactMatch

/-!
# The closest invoice

Which invoice of a list takes a transfer: the one the transfer misses by the
fewest basis points, an underpayment penalized. The scan compares 64-bit
readings of these numbers, and only the invoice it stops at is tested for dust.
-/

namespace CryptoLink

open LeftmostMin

/-- The basis points between a transfer and an expected amount, with the
penalty of an underpayment, in unbounded integers. -/
def mismatch (amount expected : Int) : Int :=
  |amount - expected| * 10000 / expected + if amount < expected then 50000 else 0

/-- The mismatch of an open invoice. -/
def PendingInfo.offBy (amount : Int) (p : PendingInfo) : Int :=
  mismatch amount p.effectiveExpected

/-- Position `k` has the smallest mismatch `v`, and every earlier invoice a larger one. -/
def FirstClosest (amount : Int) (pending : List PendingInfo) (k : ℕ) (v : Int) : Prop :=
  IsFirst (fun p => some (p.offBy amount)) pending k v

def ReturnsFirstClosest (pending : List PendingInfo) (amount : Int) : Prop :=
  ∃ i p fits, bestMatchByAmount pending amount = some (i, p, fits) ∧
    FirstClosest amount pending i (p.offBy amount)

/-- An invoice whose mismatch needs more than 63 bits reads, in 64 of them, as
at least `bound`, and as more than that in front of position `k`. -/
def WrapsBehind (amount : Int) (pending : List PendingInfo) (k : ℕ) (bound : Int) : Prop :=
  ∀ (j : ℕ) q, pending[j]? = some q → 2 ^ 63 ≤ q.offBy amount →
    bound ≤ int64 (q.offBy amount) ∧ (j < k → bound < int64 (q.offBy amount))

/-- The first closest invoice reads below the score the scan starts from, and
no wrapped mismatch passes it; or it is the front one and nothing reads below
the start. -/
def StaysClosest (pending : List PendingInfo) (amount : Int) : Prop :=
  ∃ k v, FirstClosest amount pending k v ∧
    (int64 v < 2 ^ 62 - 1 ∧ WrapsBehind amount pending k (int64 v) ∨
      k = 0 ∧ 2 ^ 62 - 1 ≤ v ∧ WrapsBehind amount pending 0 (2 ^ 62 - 1))

theorem int64_of_small {x : Int} (hlow : 0 ≤ x) (hhigh : x < 2 ^ 63) : int64 x = x := by
  simp only [int64, Int.bmod_def]
  omega

theorem mismatch_nonneg {amount e : Int} (he : 0 < e) : 0 ≤ mismatch amount e := by
  have hoff : 0 ≤ |amount - e| * 10000 / e :=
    Int.ediv_nonneg (mul_nonneg (abs_nonneg _) (by omega)) he.le
  unfold mismatch
  split
  · omega
  · omega

/-- An underpayment is off by between 50000 and 60000. -/
theorem mismatch_under {amount e : Int} (hamount : 0 ≤ amount) (h : amount < e) :
    50000 ≤ mismatch amount e ∧ mismatch amount e ≤ 60000 := by
  have habs : |amount - e| = e - amount := by
    rw [abs_of_neg (by omega)]
    omega
  have hlow : 0 ≤ (e - amount) * 10000 / e := Int.ediv_nonneg (by omega) (by omega)
  have hhigh : (e - amount) * 10000 / e ≤ 10000 := Int.ediv_le_of_le_mul (by omega) (by omega)
  rw [mismatch, habs, if_pos h]
  omega

/-- The score of an invoice is its mismatch, read in 64 bits. -/
theorem matchScore_eq {amount : Int} {p : PendingInfo} (hamount : 0 ≤ amount)
    (hp : 0 < p.effectiveExpected) :
    matchScore amount p = some (int64 (p.offBy amount)) := by
  have hnot : ¬ p.effectiveExpected ≤ 0 := by omega
  by_cases hunder : amount < p.effectiveExpected
  · have hdiff : amount - p.effectiveExpected < 0 := by omega
    have hbounds := mismatch_under hamount hunder
    rw [PendingInfo.offBy]
    rw [mismatch, if_pos hunder] at hbounds ⊢
    simp only [matchScore, if_neg hnot, if_pos hdiff, Option.some.injEq]
    -- neither the quotient nor the penalized score leaves 64 bits
    rw [int64_of_small (x := |amount - p.effectiveExpected| * 10000 / p.effectiveExpected)
      (by omega) (by omega)]
  · have hdiff : ¬ amount - p.effectiveExpected < 0 := by omega
    simp only [matchScore, if_neg hnot, if_neg hdiff, PendingInfo.offBy, mismatch, if_neg hunder,
      add_zero]

/-- An invoice is dust to a transfer of less than a fifth: off by 58000 at least. -/
theorem mismatch_of_dust {amount e : Int} (h : isDust amount e = true) :
    0 < e ∧ amount < e ∧ 58000 ≤ mismatch amount e := by
  unfold isDust dustThresholdBps at h
  simp only [Bool.and_eq_true, decide_eq_true_eq] at h
  obtain ⟨he, hlt⟩ := h
  have hunder : amount < e := by omega
  have habs : |amount - e| = e - amount := by
    rw [abs_of_neg (by omega)]
    omega
  have hlow : 8000 ≤ (e - amount) * 10000 / e := by
    rw [Int.le_ediv_iff_mul_le he]
    omega
  refine ⟨he, hunder, ?_⟩
  rw [mismatch, habs, if_pos hunder]
  omega

section

variable {pending : List PendingInfo} {amount : Int}

theorem exists_firstClosest (amount : Int) (hne : pending ≠ []) : ∃ k v,
    FirstClosest amount pending k v := by
  obtain ⟨x, hx⟩ := List.exists_mem_of_ne_nil pending hne
  have hbelow : x.offBy amount < ((0 : ℕ), x.offBy amount + 1).2 := by
    simp only
    omega
  obtain ⟨k, v, -, -, hfirst⟩ := @scan_of_lt _ _ _ (fun p => some (p.offBy amount)) _ _ _ _ hx rfl
    hbelow
  exact ⟨k, v, hfirst⟩

theorem FirstClosest.offBy_eq {k : ℕ} {v : Int} {p : PendingInfo}
    (h : FirstClosest amount pending k v) (hp : pending[k]? = some p) : p.offBy amount = v := by
  obtain ⟨x, hx, hv⟩ := h.value
  obtain rfl : x = p := Option.some.inj (hx.symm.trans hp)
  exact Option.some.inj hv

theorem staysClosest_of_returns (hpos : ∀ p ∈ pending, 0 < p.effectiveExpected)
    (hamount : 0 ≤ amount) (h : ReturnsFirstClosest pending amount) :
    StaysClosest pending amount := by
  obtain ⟨i, p, fits, hbest, hclosest⟩ := h
  obtain ⟨hscan, hp, -⟩ := bestMatchByAmount_eq_some hbest
  have hreading : ∀ (j : ℕ) q, pending[j]? = some q →
      matchScore amount q = some (int64 (q.offBy amount)) :=
    fun j q hq => matchScore_eq hamount (hpos q (List.mem_of_getElem? hq))
  have hnonneg : 0 ≤ p.offBy amount := mismatch_nonneg (hpos p (List.mem_of_getElem? hp))
  refine ⟨i, p.offBy amount, hclosest, ?_⟩
  rcases scan_spec (matchScore amount) pending 0 (0, 2 ^ 62 - 1) with
    ⟨hkeep, hall⟩ | ⟨k, v, hfound, hlt, hfirst⟩
  · -- nothing reads below the start
    obtain rfl : 0 = i := by rw [← hscan, hkeep]
    have hbehind : ∀ (j : ℕ) q, pending[j]? = some q → 2 ^ 62 - 1 ≤ int64 (q.offBy amount) :=
      fun j q hq => hall q (List.mem_of_getElem? hq) _ (hreading j q hq)
    refine .inr ⟨rfl, ?_, fun j q hq _ => ⟨hbehind j q hq, fun hj => by omega⟩⟩
    by_contra hsmall
    have := hbehind 0 p hp
    rw [int64_of_small hnonneg (by omega)] at this
    omega
  · -- the scan stopped at the first smallest reading
    rw [hfound, Nat.zero_add] at hscan
    obtain rfl : k = i := hscan
    obtain ⟨x, hx, hxv⟩ := hfirst.value
    obtain rfl : p = x := Option.some.inj (hp.symm.trans hx)
    obtain rfl : int64 (p.offBy amount) = v :=
      Option.some.inj ((hreading k p hp).symm.trans hxv)
    refine .inl ⟨hlt, fun j q hq _ => ⟨?_, fun hj => ?_⟩⟩
    · exact hfirst.least j q _ hq (hreading j q hq)
    · exact hfirst.earlier j hj q _ hq (hreading j q hq)

theorem returns_of_staysClosest (hpos : ∀ p ∈ pending, 0 < p.effectiveExpected)
    (hamount : 0 ≤ amount) (h : StaysClosest pending amount) :
    ReturnsFirstClosest pending amount := by
  obtain ⟨k, v, hclosest, hcase⟩ := h
  obtain ⟨p, hp, -⟩ := hclosest.value
  have hv : p.offBy amount = v := hclosest.offBy_eq hp
  have hnonneg : 0 ≤ v := by
    rw [← hv]
    exact mismatch_nonneg (hpos p (List.mem_of_getElem? hp))
  have hreading : ∀ (j : ℕ) q w, pending[j]? = some q → matchScore amount q = some w →
      int64 (q.offBy amount) = w := by
    intro j q w hq hw
    rw [matchScore_eq hamount (hpos q (List.mem_of_getElem? hq))] at hw
    exact Option.some.inj hw
  rcases hcase with ⟨hlt, hwraps⟩ | ⟨rfl, hlarge, hwraps⟩
  · have hfirst : IsFirst (matchScore amount) pending k (int64 v) := by
      constructor
      · refine ⟨p, hp, ?_⟩
        rw [matchScore_eq hamount (hpos p (List.mem_of_getElem? hp)), hv]
      · intro j q w hq hw
        obtain rfl := hreading j q w hq hw
        by_cases hwrap : 2 ^ 63 ≤ q.offBy amount
        · exact (hwraps j q hq hwrap).1
        · -- a mismatch of 63 bits is read as it is
          have hle : v ≤ q.offBy amount := hclosest.least j q _ hq rfl
          rw [int64_of_small hnonneg (by omega), int64_of_small (by omega) (by omega)]
          exact hle
      · intro j hj q w hq hw
        obtain rfl := hreading j q w hq hw
        by_cases hwrap : 2 ^ 63 ≤ q.offBy amount
        · exact (hwraps j q hq hwrap).2 hj
        · have hless : v < q.offBy amount := hclosest.earlier j hj q _ hq rfl
          rw [int64_of_small hnonneg (by omega), int64_of_small (by omega) (by omega)]
          exact hless
    obtain ⟨i, hbest⟩ := Chosen.bestMatchByAmount (.inl ⟨k, int64 v, hlt, hfirst, hp⟩)
    obtain ⟨hscan, -, -⟩ := bestMatchByAmount_eq_some hbest
    obtain ⟨q, hq, hqv⟩ := hfirst.value
    have hbelow : int64 v < ((0 : ℕ), (2 ^ 62 - 1 : Int)).2 := hlt
    obtain ⟨k', v', hfound, -, hfirst'⟩ := scan_of_lt (List.mem_of_getElem? hq) hqv hbelow
    obtain rfl := hfirst.unique hfirst'
    obtain rfl : k = i := by rw [← hscan, hfound]
    exact ⟨k, p, _, hbest, hv ▸ hclosest⟩
  · have hall : ∀ q ∈ pending, ∀ w, matchScore amount q = some w → 2 ^ 62 - 1 ≤ w := by
      intro q hq w hw
      obtain ⟨j, hj⟩ := List.mem_iff_getElem?.mp hq
      obtain rfl := hreading j q w hj hw
      by_cases hwrap : 2 ^ 63 ≤ q.offBy amount
      · exact (hwraps j q hj hwrap).1
      · have hle : v ≤ q.offBy amount := hclosest.least j q _ hj rfl
        rw [int64_of_small (by omega) (by omega)]
        omega
    exact ⟨0, p, _, bestMatchByAmount_eq (scan_of_le hall) hp, hv ▸ hclosest⟩

end

/-- For every list of open invoices that expect something and every amount: the
invoice returned is the first one with the smallest mismatch exactly when the
64-bit readings leave that invoice ahead. -/
theorem best_match_is_first_closest_iff (pending : List PendingInfo) (amount : Int)
    (hpos : ∀ p ∈ pending, 0 < p.effectiveExpected) (hamount : 0 < amount) :
    ReturnsFirstClosest pending amount ↔ StaysClosest pending amount := by
  constructor
  · exact staysClosest_of_returns hpos hamount.le
  · exact returns_of_staysClosest hpos hamount.le

/-- Mismatches below the start of the scan are compared as they are. -/
theorem staysClosest_of_small {pending : List PendingInfo} {amount : Int} (hne : pending ≠ [])
    (hpos : ∀ p ∈ pending, 0 < p.effectiveExpected)
    (hsmall : ∀ p ∈ pending, p.offBy amount < 2 ^ 62 - 1) : StaysClosest pending amount := by
  obtain ⟨k, v, hfirst⟩ := exists_firstClosest amount hne
  obtain ⟨p, hp, -⟩ := hfirst.value
  obtain rfl := hfirst.offBy_eq hp
  have hmem : p ∈ pending := List.mem_of_getElem? hp
  have hnonneg : 0 ≤ p.offBy amount := mismatch_nonneg (hpos p hmem)
  have hless := hsmall p hmem
  refine ⟨k, p.offBy amount, hfirst, .inl ⟨?_, ?_⟩⟩
  · rw [int64_of_small hnonneg (by omega)]
    exact hless
  · intro j q hq hwrap
    have := hsmall q (List.mem_of_getElem? hq)
    omega

namespace Sample

/-- An invoice for `amount` whose fills cover it already: one unit remains. -/
def covered (id amount : Int) : PendingInfo :=
  { awaiting id amount with
    remaining := computeRemaining (fun _ => some amount) (awaiting id amount).tx }

end Sample

open Sample

theorem best_match_is_first_closest_iff_sample :
    ReturnsFirstClosest [awaiting 1 100, awaiting 2 80] 80 ↔
      StaysClosest [awaiting 1 100, awaiting 2 80] 80 :=
  best_match_is_first_closest_iff [awaiting 1 100, awaiting 2 80] 80 (by decide) (by decide)

/-- 0.001 of a coin with 18 decimals, for an open invoice of 0.002. The covered
invoice in the list is off by 10 ^ 19 basis points, which read as a negative number. -/
theorem best_match_is_a_covered_invoice :
    ¬ ∀ (pending : List PendingInfo) (amount : Int), pending ≠ [] →
      (∀ p ∈ pending, 0 < p.effectiveExpected) → 0 < amount →
        ReturnsFirstClosest pending amount := by
  intro h
  obtain ⟨i, p, fits, hbest, hclosest⟩ :=
    h [awaiting 1 (2 * 10 ^ 15), covered 2 (10 ^ 18)] (10 ^ 15) (by simp) (by decide) (by decide)
  have hfound : bestMatchByAmount [awaiting 1 (2 * 10 ^ 15), covered 2 (10 ^ 18)] (10 ^ 15) =
      some (1, covered 2 (10 ^ 18), true) := by decide +kernel
  rw [hfound] at hbest
  simp only [Option.some.injEq, Prod.mk.injEq] at hbest
  obtain ⟨rfl, rfl, -⟩ := hbest
  have hle := hclosest.least 0 (awaiting 1 (2 * 10 ^ 15)) _ rfl rfl
  revert hle
  decide +kernel

/-- The first invoice outscores the second, as the scan compares them: a tie
goes to the one in front. -/
def Outscores (amount : Int) (i j : ℕ) (p q : PendingInfo) : Prop :=
  int64 (p.offBy amount) < q.offBy amount ∨ int64 (p.offBy amount) = q.offBy amount ∧ i < j

/-- Every invoice to which the transfer would be dust is outscored by one to
which it is not. -/
def DustOutscored (pending : List PendingInfo) (amount : Int) : Prop :=
  ∀ (j : ℕ) q, pending[j]? = some q → isDust amount q.effectiveExpected = true →
    ∃ i p, pending[i]? = some p ∧ 0 < p.effectiveExpected ∧
      isDust amount p.effectiveExpected = false ∧ Outscores amount i j p q

section

variable {pending : List PendingInfo} {amount : Int}

/-- The score of an invoice to which a transfer would be dust, below the start
of the scan. -/
theorem matchScore_of_dust {q : PendingInfo} (hamount : 0 ≤ amount)
    (hdust : isDust amount q.effectiveExpected = true) :
    matchScore amount q = some (q.offBy amount) ∧ q.offBy amount < 2 ^ 62 - 1 := by
  obtain ⟨hq, hunder, -⟩ := mismatch_of_dust hdust
  have hbounds := mismatch_under hamount hunder
  change 50000 ≤ q.offBy amount ∧ q.offBy amount ≤ 60000 at hbounds
  constructor
  · rw [matchScore_eq hamount hq, int64_of_small (by omega) (by omega)]
  · omega

/-- With such an invoice in the list, the scan stops at a first smallest score. -/
theorem isFirst_of_dust {i j : ℕ} {p q : PendingInfo} {fits : Bool} (hamount : 0 ≤ amount)
    (hbest : bestMatchByAmount pending amount = some (i, p, fits)) (hq : pending[j]? = some q)
    (hdust : isDust amount q.effectiveExpected = true) :
    0 < p.effectiveExpected ∧
      IsFirst (matchScore amount) pending i (int64 (p.offBy amount)) := by
  obtain ⟨hscore, hless⟩ := matchScore_of_dust hamount hdust
  obtain ⟨hscan, hp, -⟩ := bestMatchByAmount_eq_some hbest
  have hbelow : q.offBy amount < ((0 : ℕ), (2 ^ 62 - 1 : Int)).2 := hless
  obtain ⟨k, v, hfound, -, hfirst⟩ := scan_of_lt (List.mem_of_getElem? hq) hscore hbelow
  obtain rfl : k = i := by rw [← hscan, hfound]
  obtain ⟨x, hx, hv⟩ := hfirst.value
  obtain rfl : p = x := Option.some.inj (hp.symm.trans hx)
  have hpos : 0 < p.effectiveExpected := matchScore_some hv
  rw [matchScore_eq hamount hpos] at hv
  obtain rfl := Option.some.inj hv
  exact ⟨hpos, hfirst⟩

end

/-- For every list of open invoices and every transfer that covers one of them:
it is not refused as dust exactly when the invoices it would be dust to are
outscored. -/
theorem covering_transfer_fits_iff (pending : List PendingInfo) (amount : ℕ)
    (hcovers : ∃ p ∈ pending, p.effectiveExpected ≤ amount) :
    (∃ i p, bestMatchByAmount pending amount = some (i, p, true)) ↔
      DustOutscored pending amount := by
  have hamount : (0 : Int) ≤ amount := Int.natCast_nonneg amount
  constructor
  · rintro ⟨i, p, hbest⟩ j q hq hdust
    obtain ⟨-, hp, -⟩ := bestMatchByAmount_eq_some hbest
    obtain ⟨hpos, hfirst⟩ := isFirst_of_dust hamount hbest hq hdust
    obtain ⟨hscore, -⟩ := matchScore_of_dust hamount hdust
    have hnot := not_dust_of_match hbest
    refine ⟨i, p, hp, hpos, hnot, ?_⟩
    rcases Nat.lt_trichotomy i j with hlt | rfl | hlt
    · have hle := hfirst.least j q _ hq hscore
      unfold Outscores
      omega
    · obtain rfl : p = q := Option.some.inj (hp.symm.trans hq)
      rw [hdust] at hnot
      cases hnot
    · exact .inl (hfirst.earlier j hlt q _ hq hscore)
  · intro houtscored
    obtain ⟨i, p, fits, hbest⟩ : ∃ i p fits,
        bestMatchByAmount pending amount = some (i, p, fits) := by
      obtain ⟨x, hx, -⟩ := hcovers
      exact bestMatchByAmount_isSome _ (List.ne_nil_of_mem hx)
    obtain ⟨-, hp, hfits⟩ := bestMatchByAmount_eq_some hbest
    cases hdust : isDust amount p.effectiveExpected with
    | false => exact ⟨i, p, by rw [hbest, hfits, hdust]; rfl⟩
    | true =>
      -- the invoice found would itself be outscored
      obtain ⟨k, q, hq, hqpos, hqnot, houts⟩ := houtscored i p hp hdust
      obtain ⟨-, hfirst⟩ := isFirst_of_dust hamount hbest hp hdust
      obtain ⟨hscore, -⟩ := matchScore_of_dust hamount hdust
      have hreading : int64 (p.offBy amount) = p.offBy amount := by
        obtain ⟨hppos, -, -⟩ := mismatch_of_dust hdust
        exact Option.some.inj ((matchScore_eq hamount hppos).symm.trans hscore)
      have hle := hfirst.least k q _ hq (matchScore_eq hamount hqpos)
      rcases houts with hlt | ⟨heq, hki⟩
      · omega
      · have := hfirst.earlier k hki q _ hq (matchScore_eq hamount hqpos)
        omega

theorem covering_transfer_fits_iff_sample :
    (∃ i p, bestMatchByAmount [awaiting 1 100, awaiting 2 80] (90 : ℕ) = some (i, p, true)) ↔
      DustOutscored [awaiting 1 100, awaiting 2 80] (90 : ℕ) :=
  covering_transfer_fits_iff [awaiting 1 100, awaiting 2 80] 90
    ⟨awaiting 2 80, by decide, by decide⟩

/-- Ten of something, for an open invoice of one: the excess of 900 percent
scores worse than the missing 90 of a hundred. -/
theorem covering_transfer_refused_as_dust :
    ¬ ∀ (pending : List PendingInfo) (amount : ℕ),
      (∃ p ∈ pending, p.effectiveExpected ≤ amount) →
        ∃ i p, bestMatchByAmount pending amount = some (i, p, true) := by
  intro h
  obtain ⟨i, p, hbest⟩ := h [awaiting 1 1, awaiting 2 100] 10 ⟨awaiting 1 1, by simp, by decide⟩
  have hfound : bestMatchByAmount [awaiting 1 1, awaiting 2 100] (10 : ℕ) =
      some (1, awaiting 2 100, false) := by decide +kernel
  rw [hfound] at hbest
  simp at hbest

end CryptoLink
