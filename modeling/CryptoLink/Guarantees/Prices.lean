import CryptoLink.FiatPrices

/-!
# Prices kept to the cent

The price of a request is rounded when it is read, multiplied by a hundred,
rounded again and cut off. With `t` such that the price times `2 ^ t` has 53
bits, both roundings are quotients of `n * 2 ^ t`.
-/

namespace CryptoLink

open BinaryRounding

/-- The price `n / 100` has the exponent `-t`, the product stays below the next
power of two, and the price is rounded down by more than a third of a unit. -/
def LosesACent (n : ℕ) : Prop :=
  ∃ t : ℕ, 100 * 2 ^ 52 ≤ n * 2 ^ t ∧ n * 2 ^ t < 2 ^ 59 ∧
    32 < n * 2 ^ t % 100 ∧ n * 2 ^ t % 100 < 50

/-- The price read, in hundredths of its last bit. -/
theorem first_rounding (c : Int) :
    (128 * c % 100 < 50 ∧ 100 * nearestQuotient (128 * c) 100 = 128 * c - 128 * c % 100) ∨
      (50 < 128 * c % 100 ∧
        100 * nearestQuotient (128 * c) 100 = 128 * c + (100 - 128 * c % 100)) := by
  by_cases hdown : 128 * c % 100 < 50
  · apply Or.inl
    have hlow : 2 * (128 * c % 100) < 100 := by omega
    rw [nearestQuotient, if_pos hlow]
    omega
  · apply Or.inr
    have hlow : ¬ 2 * (128 * c % 100) < 100 := by omega
    have hhigh : 100 < 2 * (128 * c % 100) := by omega
    rw [nearestQuotient, if_neg hlow, if_pos hhigh]
    omega

/-- A little below a multiple of 128: half a unit of 64 still rounds up, the
multiple being even. -/
theorem nearest_below (c r : Int) (hr : 0 ≤ r) (hr' : r < 50) :
    nearestQuotient (128 * c - r) 128 = c ∧
      nearestQuotient (128 * c - r) 64 = if 32 < r then 2 * c - 1 else 2 * c := by
  by_cases hzero : r = 0
  · have hfull : (128 * c - r) % 128 = 0 := by omega
    have hhalf : (128 * c - r) % 64 = 0 := by omega
    rw [nearestQuotient, nearestQuotient, hfull, hhalf, if_pos (by omega), if_pos (by omega),
      if_neg (by omega)]
    omega
  · have hfull : (128 * c - r) % 128 = 128 - r := by omega
    have hhalf : (128 * c - r) % 64 = 64 - r := by omega
    have hquot : (128 * c - r) / 64 = 2 * c - 1 := by omega
    constructor
    · rw [nearestQuotient, hfull, if_neg (by omega), if_pos (by omega)]
      omega
    · rw [nearestQuotient, hhalf, hquot]
      by_cases hlow : 32 < r
      · rw [if_pos hlow, if_pos (by omega)]
      · rw [if_neg hlow, if_neg (by omega)]
        by_cases htie : r = 32
        · rw [if_neg (by omega), if_neg (by omega)]
          omega
        · rw [if_pos (by omega)]
          omega

/-- A little above it: never below. -/
theorem nearest_above (c d : Int) (hd : 0 ≤ d) (hd' : d < 50) :
    nearestQuotient (128 * c + d) 128 = c ∧ 2 * c ≤ nearestQuotient (128 * c + d) 64 ∧
      nearestQuotient (128 * c + d) 64 ≤ 2 * c + 1 := by
  have hfull : (128 * c + d) % 128 = d := by omega
  have hquot : (128 * c + d) / 64 = 2 * c := by omega
  constructor
  · rw [nearestQuotient, hfull, if_pos (by omega)]
    omega
  · unfold nearestQuotient
    rw [hquot]
    split_ifs
    · omega
    · omega
    · omega
    · omega

/-- In the upper binade the units are too large to notice the first rounding. -/
theorem second_rounding_high (c : Int) :
    nearestQuotient (100 * nearestQuotient (128 * c) 100) 128 = c := by
  rcases first_rounding c with ⟨hrest, hproduct⟩ | ⟨hrest, hproduct⟩
  · rw [hproduct]
    exact (nearest_below c _ (by omega) hrest).1
  · rw [hproduct]
    exact (nearest_above c _ (by omega) (by omega)).1

/-- In the lower binade a unit is lost if the price was rounded down by more
than 32 and less than 50 hundredths of its last bit. -/
theorem second_rounding_low (c : Int) :
    (32 < 128 * c % 100 ∧ 128 * c % 100 < 50 ∧
      nearestQuotient (100 * nearestQuotient (128 * c) 100) 64 = 2 * c - 1) ∨
    (¬ (32 < 128 * c % 100 ∧ 128 * c % 100 < 50) ∧
      2 * c ≤ nearestQuotient (100 * nearestQuotient (128 * c) 100) 64 ∧
        nearestQuotient (100 * nearestQuotient (128 * c) 100) 64 ≤ 2 * c + 1) := by
  rcases first_rounding c with ⟨hrest, hproduct⟩ | ⟨hrest, hproduct⟩
  · have hnearest := (nearest_below c _ (by omega) hrest).2
    rw [hproduct, hnearest]
    by_cases hlow : 32 < 128 * c % 100
    · rw [if_pos hlow]
      exact Or.inl ⟨hlow, hrest, rfl⟩
    · rw [if_neg hlow]
      refine Or.inr ⟨?_, le_refl _, ?_⟩
      · rintro ⟨hbad, -⟩
        exact hlow hbad
      · omega
  · rw [hproduct]
    refine Or.inr ⟨?_, (nearest_above c _ (by omega) (by omega)).2⟩
    rintro ⟨-, hbad⟩
    omega

/-- Up to a billion cents there are seven bits to spare, and the product is in
one of two binades. -/
theorem price_scale {n : ℕ} (hone : 1 ≤ n) (hmax : n ≤ 10 ^ 9) :
    ∃ s : ℕ, (100 * 2 ^ 52 ≤ n * 2 ^ (s + 7) ∧ n * 2 ^ (s + 7) < 2 ^ 59) ∨
      (2 ^ 59 ≤ n * 2 ^ (s + 7) ∧ n * 2 ^ (s + 7) < 100 * 2 ^ 53) := by
  have hlow : 2 ^ Nat.log 2 n ≤ n := Nat.pow_log_le_self 2 (by omega)
  have hhigh : n < 2 ^ (Nat.log 2 n + 1) := Nat.lt_pow_succ_log_self (by omega) n
  have hbits : Nat.log 2 n < 30 := Nat.log_lt_of_lt_pow (by omega) (by omega)
  obtain ⟨s, hs⟩ : ∃ s, Nat.log 2 n + s = 51 := ⟨51 - Nat.log 2 n, by omega⟩
  -- scaled by `2 ^ (s + 7)` the price is in the binade of `2 ^ 58`
  have hbelow : 2 ^ 58 ≤ n * 2 ^ (s + 7) := by
    have hexp : (2 : ℕ) ^ 58 = 2 ^ Nat.log 2 n * 2 ^ (s + 7) := by
      rw [← pow_add]
      congr 1
      omega
    rw [hexp]
    exact Nat.mul_le_mul_right _ hlow
  have habove : n * 2 ^ (s + 7) < 2 ^ 59 := by
    have hexp : (2 : ℕ) ^ 59 = 2 ^ (Nat.log 2 n + 1) * 2 ^ (s + 7) := by
      rw [← pow_add]
      congr 1
      omega
    rw [hexp]
    exact Nat.mul_lt_mul_of_pos_right hhigh (by positivity)
  by_cases hfits : 100 * 2 ^ 52 ≤ n * 2 ^ (s + 7)
  · exact ⟨s, Or.inl ⟨hfits, habove⟩⟩
  · refine ⟨s + 1, Or.inr ?_⟩
    have hnext : n * 2 ^ (s + 1 + 7) = 2 * (n * 2 ^ (s + 7)) := by ring
    rw [hnext]
    omega

/-- The scale in the lower binade is the only one there. -/
theorem scale_unique {n t t' : ℕ} (h : 100 * 2 ^ 52 ≤ n * 2 ^ t) (h' : n * 2 ^ t' < 2 ^ 59) :
    t' ≤ t := by
  by_contra hlt
  have hexp : (2 : ℕ) ^ t' = 2 ^ (t' - t - 1) * (2 * 2 ^ t) := by
    rw [← pow_succ', ← pow_add]
    congr 1
    omega
  have hone : 1 ≤ 2 ^ (t' - t - 1) := Nat.one_le_two_pow
  have hgrows : 2 * (n * 2 ^ t) ≤ n * 2 ^ t' := by
    rw [hexp]
    calc 2 * (n * 2 ^ t) = 1 * (2 * (n * 2 ^ t)) := by ring
      _ ≤ 2 ^ (t' - t - 1) * (2 * (n * 2 ^ t)) := Nat.mul_le_mul_right _ hone
      _ = n * (2 ^ (t' - t - 1) * (2 * 2 ^ t)) := by ring
  omega

theorem losesACent_iff_of_low {n t : ℕ} (hlow : 100 * 2 ^ 52 ≤ n * 2 ^ t)
    (hhigh : n * 2 ^ t < 2 ^ 59) :
    LosesACent n ↔ 32 < n * 2 ^ t % 100 ∧ n * 2 ^ t % 100 < 50 := by
  constructor
  · rintro ⟨t', hlow', hhigh', hrest⟩
    have hsame : t' = t := le_antisymm (scale_unique hlow hhigh') (scale_unique hlow' hhigh)
    rw [hsame] at hrest
    exact hrest
  · intro hrest
    exact ⟨t, hlow, hhigh, hrest⟩

theorem not_losesACent_of_high {n t : ℕ} (hlow : 2 ^ 59 ≤ n * 2 ^ (t + 1))
    (hhigh : n * 2 ^ (t + 1) < 100 * 2 ^ 53) : ¬ LosesACent n := by
  rintro ⟨t', hlow', hhigh', -⟩
  have hle : t' ≤ t + 1 := scale_unique (by omega) hhigh'
  have hne : t' ≠ t + 1 := by
    rintro rfl
    omega
  have hpow : 2 ^ t' ≤ 2 ^ t := Nat.pow_le_pow_right (by omega) (by omega)
  have hmul : n * 2 ^ t' ≤ n * 2 ^ t := Nat.mul_le_mul_left _ hpow
  have hdouble : n * 2 ^ (t + 1) = 2 * (n * 2 ^ t) := by ring
  omega

section

variable {n s : ℕ}

/-- The price of a request in units of its last bit. -/
def priceBits (n s : ℕ) : Int := nearestQuotient (128 * (n * 2 ^ s : ℕ)) 100

theorem scaled_eq (n s : ℕ) : ((n * 2 ^ (s + 7) : ℕ) : Int) = 128 * (n * 2 ^ s : ℕ) := by
  have hnat : n * 2 ^ (s + 7) = 128 * (n * 2 ^ s) := by ring
  rw [hnat]
  push_cast
  ring

theorem price_read (hlow : 100 * 2 ^ 52 ≤ n * 2 ^ (s + 7))
    (hhigh : n * 2 ^ (s + 7) < 100 * 2 ^ 53) :
    binary64 ((n : ℚ) / 100) = (priceBits n s : ℚ) / 2 ^ (s + 7) := by
  have hscaled := scaled_eq n s
  apply toPrecision_of_ratio (by omega)
  · have hcast : ((128 * (n * 2 ^ s : ℕ) : Int) : ℚ) = n * 2 ^ (s + 7) := by
      rw [← hscaled]
      push_cast
      ring
    rw [hcast]
    push_cast
    ring
  · omega
  · omega

/-- What reading it changed, in hundredths of its last bit. -/
theorem priceBits_close (n s : ℕ) :
    ((n * 2 ^ (s + 7) : ℕ) : Int) - 50 ≤ 100 * priceBits n s ∧
      100 * priceBits n s ≤ ((n * 2 ^ (s + 7) : ℕ) : Int) + 50 := by
  have hclose := nearestQuotient_close (128 * (n * 2 ^ s : ℕ)) (b := 100) (by omega)
  have hscaled := scaled_eq n s
  unfold priceBits
  omega

theorem floor_div_pow (k : Int) (e : ℕ) : ⌊(k : ℚ) / 2 ^ e⌋ = k / 2 ^ e := by
  have hfloor := Rat.floor_intCast_div_natCast k (2 ^ e)
  push_cast at hfloor
  exact hfloor

/-- The product in the lower binade, cut off to cents. -/
theorem cents_of_low (hlow : 100 * 2 ^ 52 ≤ n * 2 ^ (s + 7)) (hhigh : n * 2 ^ (s + 7) < 2 ^ 59) :
    ⌊binary64 (binary64 ((n : ℚ) / 100) * 100)⌋ =
      nearestQuotient (100 * priceBits n s) 64 / 2 ^ (s + 1) := by
  have hclose := priceBits_close n s
  have hscaled := scaled_eq n s
  have hbits : 2 ^ 52 ≤ priceBits n s := by omega
  have hproduct : 100 * priceBits n s < 2 ^ 59 := by
    have hround := first_rounding (n * 2 ^ s : ℕ)
    unfold priceBits
    omega
  have hexact : (priceBits n s : ℚ) / 2 ^ (s + 7) * 100 * 2 ^ (s + 1) =
      ((100 * priceBits n s : Int) : ℚ) / (64 : Int) := by
    push_cast
    field_simp
    ring
  rw [price_read hlow (by omega), binary64,
    toPrecision_of_ratio (p := 52) (by omega) hexact (by omega) (by omega), floor_div_pow]

/-- The product in the upper binade. -/
theorem cents_of_high (hlow : 2 ^ 59 ≤ n * 2 ^ (s + 7)) (hhigh : n * 2 ^ (s + 7) < 100 * 2 ^ 53) :
    ⌊binary64 (binary64 ((n : ℚ) / 100) * 100)⌋ =
      nearestQuotient (100 * priceBits n s) 128 / 2 ^ s := by
  have hclose := priceBits_close n s
  have hscaled := scaled_eq n s
  have hproduct : 2 ^ 59 ≤ 100 * priceBits n s := by
    have hround := first_rounding (n * 2 ^ s : ℕ)
    unfold priceBits
    omega
  have hexact : (priceBits n s : ℚ) / 2 ^ (s + 7) * 100 * 2 ^ s =
      ((100 * priceBits n s : Int) : ℚ) / (128 : Int) := by
    push_cast
    field_simp
    ring
  rw [price_read (by omega) hhigh, binary64,
    toPrecision_of_ratio (p := 52) (by omega) hexact (by omega) (by omega), floor_div_pow]

theorem ediv_of_near {a p : Int} (k : Int) (hp : 0 < p) (hlow : k * p ≤ a)
    (hhigh : a < k * p + p) : a / p = k := by
  have hsplit : a = (a - k * p) + k * p := by omega
  rw [hsplit, Int.add_mul_ediv_right _ _ hp.ne', Int.ediv_eq_zero_of_lt (by omega) (by omega)]
  omega

end

/-- The number of cents a price is read as. -/
theorem cents_eq {n : ℕ} (hone : 1 ≤ n) (hmax : n ≤ 10 ^ 9) :
    (LosesACent n ∧ ⌊binary64 (binary64 ((n : ℚ) / 100) * 100)⌋ = (n : Int) - 1) ∨
      (¬ LosesACent n ∧ ⌊binary64 (binary64 ((n : ℚ) / 100) * 100)⌋ = (n : Int)) := by
  obtain ⟨s, ⟨hlow, hhigh⟩ | ⟨hlow, hhigh⟩⟩ := price_scale hone hmax
  · have hscaled := scaled_eq n s
    have hrest : n * 2 ^ (s + 7) % 100 = ((128 * (n * 2 ^ s : ℕ) : Int) % 100).toNat := by
      rw [← hscaled]
      omega
    have hdouble : 2 * ((n * 2 ^ s : ℕ) : Int) = n * 2 ^ (s + 1) := by
      push_cast
      ring
    have hunit : (2 : Int) ≤ 2 ^ (s + 1) := by
      have hpos : (1 : Int) ≤ 2 ^ s := one_le_pow₀ (by omega)
      rw [pow_succ]
      omega
    have hback : ((n : Int) - 1) * 2 ^ (s + 1) = n * 2 ^ (s + 1) - 2 ^ (s + 1) := by ring
    rw [losesACent_iff_of_low hlow hhigh, cents_of_low hlow hhigh]
    rcases second_rounding_low (n * 2 ^ s : ℕ) with ⟨hdown, hup, hloses⟩ | ⟨hkeeps, hle, hge⟩
    · refine Or.inl ⟨by omega, ?_⟩
      apply ediv_of_near _ (by omega)
      · rw [priceBits, hloses]
        omega
      · rw [priceBits, hloses]
        omega
    · refine Or.inr ⟨by omega, ?_⟩
      apply ediv_of_near _ (by omega)
      · rw [priceBits]
        omega
      · rw [priceBits]
        omega
  · have hhigher : n * 2 ^ (s + 6 + 1) < 100 * 2 ^ 53 := hhigh
    refine Or.inr ⟨not_losesACent_of_high hlow hhigher, ?_⟩
    rw [cents_of_high hlow hhigh, priceBits, second_rounding_high]
    have hpos : (0 : Int) < 2 ^ s := by positivity
    have hcast : ((n * 2 ^ s : ℕ) : Int) = n * 2 ^ s := by push_cast; rfl
    apply ediv_of_near _ hpos
    · omega
    · omega

theorem price_close {n : ℕ} (hone : 1 ≤ n) (hmax : n ≤ 10 ^ 9) :
    (n : ℚ) / 100 - 1 / 256 ≤ binary64 ((n : ℚ) / 100) ∧
      binary64 ((n : ℚ) / 100) ≤ n / 100 + 1 / 256 := by
  obtain ⟨s, hs⟩ := price_scale hone hmax
  obtain ⟨hbelow, habove⟩ := priceBits_close n s
  have hread : binary64 ((n : ℚ) / 100) = (priceBits n s : ℚ) / 2 ^ (s + 7) :=
    price_read (by omega) (by omega)
  have hpos : (0 : ℚ) < 2 ^ (s + 7) := by positivity
  have hunit : (128 : ℚ) ≤ 2 ^ (s + 7) := by
    have hone' : (1 : ℚ) ≤ 2 ^ s := one_le_pow₀ (by norm_num)
    rw [pow_add]
    linarith
  have hbelow' : (n : ℚ) * 2 ^ (s + 7) - 50 ≤ 100 * priceBits n s := by exact_mod_cast hbelow
  have habove' : 100 * (priceBits n s : ℚ) ≤ n * 2 ^ (s + 7) + 50 := by exact_mod_cast habove
  rw [hread]
  constructor
  · rw [le_div_iff₀ hpos]
    linarith
  · rw [div_le_iff₀ hpos]
    linarith

/-- Every price of one cent up to ten million passes the range check. -/
theorem price_in_range {n : ℕ} (hone : 1 ≤ n) (hmax : n ≤ 10 ^ 9) :
    ¬ (binary64 ((n : ℚ) / 100) < Money.fiatMin ∨ Money.fiatMax < binary64 ((n : ℚ) / 100)) := by
  obtain ⟨hbelow, habove⟩ := price_close hone hmax
  rintro (hlow | hhigh)
  · by_cases hcent : n = 1
    · subst hcent
      rw [Money.fiatMin] at hlow
      norm_num at hlow
    · have hcents : (2 : ℚ) ≤ n := by exact_mod_cast (by omega : 2 ≤ n)
      have hmin := (price_close (n := 1) (by omega) (by omega)).2
      have hfiatMin : Money.fiatMin = binary64 (((1 : ℕ) : ℚ) / 100) := by
        rw [Money.fiatMin]
        norm_num
      rw [hfiatMin] at hlow
      push_cast at hmin hlow
      linarith
  · unfold Money.fiatMax at hhigh
    by_cases htop : n = 10 ^ 9
    · have hexact : binary64 (((10 ^ 9 : ℕ) : ℚ) / 100) = 10000000 := by
        norm_num
        decide +kernel
      rw [htop, hexact] at hhigh
      exact lt_irrefl _ hhigh
    · have hcents : (n : ℚ) ≤ 10 ^ 9 - 1 := by
        have hle : n + 1 ≤ 10 ^ 9 := by omega
        have hcast : (n : ℚ) + 1 ≤ 10 ^ 9 := by exact_mod_cast hle
        linarith
      linarith

/-- A price of up to ten million is kept to the cent unless its first rounding
took away more than the second gives back; then a cent is lost. -/
theorem price_kept_iff (ticker : String) (n : ℕ) (hone : 1 ≤ n) (hmax : n ≤ 10 ^ 9) :
    Money.fiatFromFloat64 ticker (binary64 ((n : ℚ) / 100)) = .ok ⟨.fiat, ticker, n, 2⟩ ↔
      ¬ LosesACent n := by
  rw [Money.fiatFromFloat64, if_neg (price_in_range hone hmax)]
  rcases cents_eq hone hmax with ⟨hloses, hcents⟩ | ⟨hkeeps, hcents⟩
  · rw [hcents]
    constructor
    · intro h
      injection h with hmoney
      injection hmoney with _ _ hvalue
      omega
    · intro hkeeps
      exact absurd hloses hkeeps
  · rw [hcents]
    constructor
    · intro _
      exact hkeeps
    · intro _
      rfl

/-- Of the prices 19.98 and 19.99 the second loses a cent. -/
theorem price_kept_iff_near_twenty :
    (Money.fiatFromFloat64 "USD" (binary64 (((1998 : ℕ) : ℚ) / 100)) =
        .ok ⟨.fiat, "USD", 1998, 2⟩ ↔ ¬ LosesACent 1998) ∧
      (Money.fiatFromFloat64 "USD" (binary64 (((1999 : ℕ) : ℚ) / 100)) =
        .ok ⟨.fiat, "USD", 1999, 2⟩ ↔ ¬ LosesACent 1999) ∧ LosesACent 1999 :=
  ⟨price_kept_iff "USD" 1998 (by decide) (by decide),
    price_kept_iff "USD" 1999 (by decide) (by decide), 48, by decide⟩

/-- 29 cents are read as 28. -/
theorem twenty_nine_cents_lose_one :
    Money.fiatFromFloat64 "USD" (binary64 (29 / 100)) = .ok ⟨.fiat, "USD", 28, 2⟩ ∧
      Money.fiatFromFloat64 "USD" (binary64 (29 / 100)) ≠ .ok ⟨.fiat, "USD", 29, 2⟩ :=
  ⟨by decide +kernel, by decide +kernel⟩

end CryptoLink
