import CryptoLink.Guarantees.AmountTexts
import CryptoLink.Guarantees.Rounding
import CryptoLink.Services.Convertor

/-!
# What a price is worth in crypto

A price is multiplied, divided by a rate and cut off at the smallest unit. For a
currency whose unit is worth less than half a cent, the amount asked for is worth
the price up to the last cent, and so is what it converts back to.
-/

namespace CryptoLink

open BinaryRounding DecimalText

/-- The fraction that one rounding to a 64-bit float is off by at most. -/
def halfUlp : ℚ := 1 / 2 ^ 53

theorem halfUlp_nonneg : 0 ≤ halfUlp := by unfold halfUlp; positivity

theorem halfUlp_le_one : halfUlp ≤ 1 := by unfold halfUlp; norm_num

theorem near_binary64 {x : ℚ} (hx : 0 < x) : Near halfUlp x (binary64 x) := near_toPrecision 53 hx

/-- More bits are nearer. -/
theorem near_of_bits {p : ℕ} (hp : 53 ≤ p) {x : ℚ} (hx : 0 < x) :
    Near halfUlp x (toPrecision p x) := by
  have hnear := near_toPrecision p hx
  have hfiner : (1 : ℚ) / 2 ^ p ≤ halfUlp :=
    one_div_le_one_div_of_le (by positivity) (pow_le_pow_right₀ (by norm_num) hp)
  have hwider := mul_le_mul_of_nonneg_right hfiner hx.le
  constructor
  · have := hnear.low
    linarith
  · have := hnear.high
    linarith

theorem drift_binary64 {x : ℚ} (hx : 0 < x) : Drift halfUlp 1 0 x (binary64 x) :=
  .of_near (near_binary64 hx)

theorem binary64_pos {x : ℚ} (hx : 0 < x) : 0 < binary64 x :=
  (near_binary64 hx).pos (by unfold halfUlp; norm_num) hx

theorem binary64_power_of_ten {n : ℕ} (h : n ≤ 22) : binary64 (10 ^ n) = 10 ^ n := by
  have hbits : |((5 ^ n : ℕ) : Int)| < 2 ^ 53 := by
    have hle : 5 ^ n ≤ 5 ^ 22 := Nat.pow_le_pow_right (by omega) h
    have hlt : (5 : ℕ) ^ 22 < 2 ^ 53 := by norm_num
    rw [abs_of_nonneg (by positivity)]
    exact_mod_cast hle.trans_lt hlt
  have hexact := toPrecision_of_bits hbits n
  have hten : (((5 ^ n : ℕ) : Int) : ℚ) * 2 ^ n = 10 ^ n := by
    push_cast
    rw [← mul_pow]
    norm_num
  rw [hten] at hexact
  exact hexact

namespace Money

theorem truncated_of_nonneg {x : ℚ} (h : 0 ≤ x) : truncated x = ⌊x⌋ := if_pos h

theorem floatBits_ge (x : Int) : 53 ≤ floatBits x := le_trans (by omega) (le_max_right _ 64)

variable {m : Money} {n k : ℕ} {loss x f factor : ℚ}

/-- A product is rounded once and cut off. -/
theorem multiplyFloat64_drifts (hvalue : 0 ≤ m.value) (h : Drift halfUlp n loss x m.value)
    (hf : Drift halfUlp k 0 f factor) (hloss : 0 ≤ loss) (hpos : 0 ≤ f) (hfactor : 0 < factor) :
    ∃ value : Int, m.multiplyFloat64 factor = .ok ⟨m.moneyType, m.ticker, value, m.decimals⟩ ∧
      0 ≤ value ∧ Drift halfUlp (n + k + 1) (loss * f + 1) (x * f) value := by
  have hcast : (0 : ℚ) ≤ m.value := Int.cast_nonneg hvalue
  have hexact := h.mul hf halfUlp_nonneg halfUlp_le_one hloss hcast hpos
  have hnear : Near halfUlp (m.value * factor)
      (toPrecision (floatBits m.value) (m.value * factor)) := by
    rcases hvalue.eq_or_lt with hzero | hone
    · rw [← hzero]
      constructor <;> simp [toPrecision, roundEven]
    · exact near_of_bits (floatBits_ge _) (mul_pos (Int.cast_pos.mpr hone) hfactor)
  have hrounded : 0 ≤ toPrecision (floatBits m.value) (m.value * factor) :=
    (mul_nonneg (sub_nonneg.mpr halfUlp_le_one) (mul_nonneg hcast hfactor.le)).trans hnear.low
  refine ⟨⌊toPrecision (floatBits m.value) (m.value * factor)⌋, ?_,
    Int.floor_nonneg.mpr hrounded, ?_⟩
  · rw [multiplyFloat64, if_neg hfactor.not_ge, truncated_of_nonneg hrounded]
  · exact (hexact.round hnear halfUlp_nonneg halfUlp_le_one (mul_nonneg hloss hpos)).floor

/-- One unit of a currency. -/
theorem cryptoFromFloat64_one (ticker : String) {decimals : Int} (h : decimals ≤ 22) :
    cryptoFromFloat64 ticker 1 decimals = .ok (crypto ticker (10 ^ decimals.toNat) decimals) := by
  have hpow : binary64 (1 * bigPow decimals) = ((10 ^ decimals.toNat : Int) : ℚ) := by
    rw [bigPow, one_mul, binary64_power_of_ten (by omega), binary64_power_of_ten (by omega)]
    push_cast
    rfl
  have hnonneg : (0 : ℚ) ≤ ((10 ^ decimals.toNat : Int) : ℚ) := by positivity
  rw [cryptoFromFloat64, if_neg (by norm_num), hpow, truncated_of_nonneg hnonneg, Int.floor_intCast,
    new_toString]

theorem takeWhile_whole {whole fraction : List Char} (hwhole : IsDigits whole) :
    (trimmed whole fraction).takeWhile (fun c => c ≠ '.') = whole := by
  have hkeeps : ∀ c ∈ whole, decide (c ≠ '.') = true := by
    intro c hc
    refine decide_eq_true fun hdot => ?_
    have hdigit := hwhole c hc
    rw [hdot] at hdigit
    exact absurd hdigit (by decide)
  rw [trimmed]
  split
  · exact List.takeWhile_eq_self_iff.mpr hkeeps
  · rw [List.takeWhile_append_of_pos hkeeps, List.takeWhile_cons_of_neg (by decide),
      List.append_nil]

theorem digit_lt_ten {c : Char} (h : c.isDigit = true) : c.toNat - '0'.toNat < 10 := by
  rw [Char.isDigit, Bool.and_eq_true, decide_eq_true_eq, decide_eq_true_eq] at h
  have hnine : c.toNat ≤ 57 := UInt32.le_iff_toNat_le.mp h.2
  have hzero : '0'.toNat = 48 := rfl
  omega

theorem ofDigitChars_lt {cs : List Char} (h : IsDigits cs) :
    ∀ n, Nat.ofDigitChars 10 cs n < 10 ^ cs.length * (n + 1) := by
  induction cs with
  | nil =>
    intro n
    simp
  | cons c cs ih =>
    intro n
    have hdigit := digit_lt_ten (h c List.mem_cons_self)
    have hrest := ih (fun x hx => h x (List.mem_cons_of_mem _ hx))
      (10 * n + (c.toNat - '0'.toNat))
    have hnext : 10 * n + (c.toNat - '0'.toNat) + 1 ≤ 10 * (n + 1) := by omega
    rw [Nat.ofDigitChars_cons, List.length_cons, Nat.pow_succ, Nat.mul_assoc]
    exact hrest.trans_le (Nat.mul_le_mul_left _ hnext)

/-- In front of the dot stand the whole units. -/
theorem beforeDot_string (ticker : String) (decimals : Int) {value : Int} (hvalue : 0 ≤ value) :
    ∃ whole, (beforeDot (crypto ticker value decimals).string).toList = whole ∧ IsDigits whole ∧
      whole ≠ [] ∧ (Nat.ofDigitChars 10 whole 0 : Int) = value / 10 ^ decimals.toNat := by
  obtain ⟨whole, fraction, hwhole, hne, hfraction, hlength, hread, htext⟩ :=
    pointed_eq decimals.toNat (isDigits_toDigits value.natAbs)
  refine ⟨whole, ?_, hwhole, hne, ?_⟩
  · have hsign : (signOf value).text = [] := by
      rw [signOf, if_neg (not_lt.mpr hvalue)]
      rfl
    have hstring : (crypto ticker value decimals).string.toList = trimmed whole fraction := by
      have hall := string_toList (m := crypto ticker value decimals) rfl
      have hsame : (crypto ticker value decimals).value = value := rfl
      have hplaces : (crypto ticker value decimals).decimals = decimals := rfl
      rw [hsame, hplaces, hsign, htext, List.nil_append] at hall
      rw [hall, ← trimmed_of_digits hwhole hfraction]
      rfl
    rw [beforeDot, String.toList_ofList, hstring, takeWhile_whole hwhole]
  · have hlast := ofDigitChars_lt hfraction 0
    have hsplit : Nat.ofDigitChars 10 (whole ++ fraction) 0 =
        10 ^ fraction.length * Nat.ofDigitChars 10 whole 0 + Nat.ofDigitChars 10 fraction 0 := by
      rw [Nat.ofDigitChars_append, Nat.ofDigitChars_eq_ofDigitChars_zero]
    rw [hread, Nat.ofDigitChars_ten_toDigits, hlength] at hsplit
    rw [hlength, Nat.zero_add, Nat.mul_one] at hlast
    have hnat : value.natAbs / 10 ^ decimals.toNat = Nat.ofDigitChars 10 whole 0 := by
      rw [hsplit, Nat.mul_add_div (by positivity), Nat.div_eq_of_lt hlast, Nat.add_zero]
    have habs : (value.natAbs : Int) = value := Int.natAbs_of_nonneg hvalue
    rw [← hnat, Int.natCast_ediv, habs]
    push_cast
    rfl

theorem new_of_digits (moneyType : MoneyType) (ticker : String) {s : String} (decimals : Int)
    (hdigits : IsDigits s.toList) (hne : s.toList ≠ []) :
    new moneyType ticker s decimals =
      .ok ⟨moneyType, ticker, (Nat.ofDigitChars 10 s.toList 0 : ℕ), decimals⟩ := by
  have hkept : (clear s).toList = s.toList := by
    rw [clear, String.toList_ofList]
    exact filter_ne_of_not_mem (hdigits.not_mem (by decide))
  have hsigned : IsSigned (clear s).toList .absent s.toList := ⟨hkept, hdigits⟩
  rw [new, setString_of_signed hsigned hne]
  simp [Sign.factor]

/-- What an amount is worth: its product with the rate in cents, in whole cents. -/
theorem cryptoToFiat_eq {ticker fiat : String} {value decimals cents : Int} {rate : ℚ}
    (h : (crypto ticker value decimals).multiplyFloat64 (binary64 (rate * 100)) =
      .ok (crypto ticker cents decimals)) (hcents : 0 ≤ cents) :
    (crypto ticker value decimals).cryptoToFiat fiat rate =
      .ok ⟨.fiat, fiat, cents / 10 ^ decimals.toNat, 2⟩ := by
  obtain ⟨whole, hwhole, hdigits, hne, hread⟩ := beforeDot_string ticker decimals hcents
  have hnew := new_of_digits .fiat fiat 2 (hwhole ▸ hdigits) (hwhole ▸ hne)
  rw [hwhole, hread] at hnew
  have hcrypto : ¬ (crypto ticker value decimals).moneyType ≠ .crypto := fun hne => hne rfl
  rw [cryptoToFiat, if_neg hcrypto, h]
  simp only [Except.mapError, bind, Except.bind]
  rw [hnew]

end Money

/-- A price in cents that the convertor can turn into the currency. -/
structure Quotable (price : Money) (currency : CryptoCurrency) (rate : ℚ) : Prop where
  fiat : price.moneyType = .fiat
  listed : price.ticker ∈ fiatCurrencies
  cents : price.decimals = 2
  positive : 1 ≤ price.value
  bounded : price.value ≤ 10 ^ 9
  unlisted : currency.ticker ∉ fiatCurrencies
  named : currency.ticker ≠ ""
  whole : 0 ≤ currency.decimals
  places : currency.decimals ≤ 22
  sold : 0 < rate

namespace Convertor

variable {s : Convertor} {price : Money} {currency : CryptoCurrency} {rate : ℚ} {at_ : Int}

/-- The feed answers with the rate. -/
def Feeds (s : Convertor) (fiat crypto : String) (rate : ℚ) : Prop :=
  ∃ time, s.feedRate (s.normalizeTicker fiat) (s.normalizeTicker crypto) = .ok (rate, time)

theorem ne_of_listed {a b : String} (ha : a ∈ fiatCurrencies) (hb : b ∉ fiatCurrencies) :
    a ≠ b := by
  rintro rfl
  exact hb ha

theorem getExchangeRate_sells {fiat crypto : String} (hfiat : fiat ∈ fiatCurrencies)
    (hcrypto : crypto ∉ fiatCurrencies) (hnamed : crypto ≠ "") (h : s.Feeds fiat crypto rate) :
    ∃ time, s.getExchangeRate fiat crypto = .ok ⟨fiat, crypto, binary64 (1 / rate), time⟩ := by
  obtain ⟨time, htime⟩ := h
  have hempty : ¬ (fiat = "" ∨ crypto = "") := by
    rintro (rfl | hblank)
    · exact absurd hfiat (by decide)
    · exact hnamed hblank
  have htype : determineConversionType fiat crypto = .ok .fiatToCrypto := by
    rw [determineConversionType, if_pos (List.contains_iff_mem.mpr hfiat),
      if_neg fun hlisted => hcrypto (List.contains_iff_mem.mp hlisted)]
  refine ⟨time, ?_⟩
  rw [getExchangeRate, if_neg hempty, if_neg (ne_of_listed hfiat hcrypto), htype]
  simp only [bind, Except.bind, htime]
  rfl

theorem getExchangeRate_buys {fiat crypto : String} (hfiat : fiat ∈ fiatCurrencies)
    (hcrypto : crypto ∉ fiatCurrencies) (hnamed : crypto ≠ "") (h : s.Feeds fiat crypto rate) :
    ∃ time, s.getExchangeRate crypto fiat = .ok ⟨crypto, fiat, rate, time⟩ := by
  obtain ⟨time, htime⟩ := h
  have hempty : ¬ (crypto = "" ∨ fiat = "") := by
    rintro (hblank | rfl)
    · exact hnamed hblank
    · exact absurd hfiat (by decide)
  have htype : determineConversionType crypto fiat = .ok .cryptoToFiat := by
    rw [determineConversionType, if_neg fun hlisted => hcrypto (List.contains_iff_mem.mp hlisted),
      if_pos (List.contains_iff_mem.mpr hfiat)]
  refine ⟨time, ?_⟩
  rw [getExchangeRate, if_neg hempty, if_neg (ne_of_listed hfiat hcrypto).symm, htype]
  simp only [bind, Except.bind, htime]
  rfl

/-- What a price is quoted as: four roundings, and two units cut off. -/
theorem fiatToCrypto_drifts (h : Quotable price currency rate)
    (hfeed : s.Feeds price.ticker currency.ticker rate) :
    ∃ value : Int, s.fiatToCrypto price currency = .ok ⟨.fiatToCrypto, binary64 (1 / rate), price,
        Money.crypto currency.ticker value currency.decimals⟩ ∧ 0 ≤ value ∧
      Drift halfUlp 4 (1 / rate + 1)
        (10 ^ currency.decimals.toNat * (price.value / 100) * (1 / rate)) value := by
  obtain ⟨time, hrate⟩ := getExchangeRate_sells h.listed h.unlisted h.named hfeed
  have hone := Money.cryptoFromFloat64_one currency.ticker h.places
  have hprice : (0 : ℚ) < price.value / 100 :=
    div_pos (Int.cast_pos.mpr (lt_of_lt_of_le one_pos h.positive)) (by norm_num)
  have hinverse : 0 < 1 / rate := one_div_pos.mpr h.sold
  have hfloat : Money.toFloat64 price.value price.decimals = binary64 (price.value / 100) := by
    have hhundred : Money.bigPow 2 = 100 := by
      have hten := binary64_power_of_ten (n := 2) (by omega)
      have hpow : (10 : ℚ) ^ 2 = 100 := by norm_num
      rw [hpow] at hten
      have htwo : (2 : Int).toNat = 2 := rfl
      rw [Money.bigPow, htwo, hpow, hten]
    rw [Money.toFloat64, h.cents, hhundred]
  obtain ⟨first, hfirst, hfirst0, hdrift⟩ := Money.multiplyFloat64_drifts
    (m := Money.crypto currency.ticker (10 ^ currency.decimals.toNat) currency.decimals)
    (pow_nonneg (by norm_num) _) (Drift.refl _ _) (drift_binary64 hprice) le_rfl hprice.le
    (binary64_pos hprice)
  simp only [zero_mul, zero_add] at hdrift
  obtain ⟨value, hvalue, hvalue0, hdrift'⟩ := Money.multiplyFloat64_drifts
    (m := Money.crypto currency.ticker first currency.decimals) hfirst0 hdrift
    (drift_binary64 hinverse) zero_le_one hinverse.le (binary64_pos hinverse)
  refine ⟨value, ?_, hvalue0, ?_⟩
  · have hfiat : ¬ price.moneyType ≠ .fiat := not_not.mpr h.fiat
    have hzero : ¬ price.isZero = true := by
      rw [Money.isZero, decide_eq_true_eq]
      have := h.positive
      omega
    rw [fiatToCrypto, if_neg hfiat, if_neg hzero]
    simp only [hrate, hone, hfloat, hfirst, bind, Except.bind]
    rw [Money.crypto] at hvalue
    simp only [Money.crypto, hvalue]
    rfl
  · rw [one_mul] at hdrift'
    have hcast : ((Money.crypto currency.ticker (10 ^ currency.decimals.toNat)
        currency.decimals).value : ℚ) = 10 ^ currency.decimals.toNat := by
      simp [Money.crypto]
    rw [hcast] at hdrift'
    exact hdrift'

/-- What an amount is worth: two roundings, and one unit cut off before the cents are. -/
theorem cryptoToFiat_drifts {fiat ticker : String} {value : Int} (decimals : Int) {n : ℕ}
    {loss x : ℚ} (hfiat : fiat ∈ fiatCurrencies) (hcrypto : ticker ∉ fiatCurrencies)
    (hnamed : ticker ≠ "")
    (hrate : 0 < rate) (hfeed : s.Feeds fiat ticker rate) (hvalue : 0 ≤ value)
    (h : Drift halfUlp n loss x value) (hloss : 0 ≤ loss) :
    ∃ cents : Int, s.cryptoToFiat (Money.crypto ticker value decimals) fiat =
        .ok ⟨.cryptoToFiat, rate, Money.crypto ticker value decimals,
          ⟨.fiat, fiat, cents / 10 ^ decimals.toNat, 2⟩⟩ ∧ 0 ≤ cents ∧
      Drift halfUlp (n + 1 + 1) (loss * (rate * 100) + 1) (x * (rate * 100)) cents := by
  obtain ⟨time, hread⟩ := getExchangeRate_buys hfiat hcrypto hnamed hfeed
  have hcents : 0 < rate * 100 := by positivity
  obtain ⟨cents, hproduct, hcents0, hdrift⟩ := Money.multiplyFloat64_drifts
    (m := Money.crypto ticker value decimals) hvalue h (drift_binary64 hcents) hloss hcents.le
    (binary64_pos hcents)
  refine ⟨cents, ?_, hcents0, hdrift⟩
  have hkind : ¬ (Money.crypto ticker value decimals).moneyType ≠ .crypto := fun hne => hne rfl
  have hticker : (Money.crypto ticker value decimals).ticker = ticker := rfl
  have hworth : (Money.crypto ticker value decimals).cryptoToFiat fiat rate =
      .ok ⟨.fiat, fiat, cents / 10 ^ decimals.toNat, 2⟩ := Money.cryptoToFiat_eq hproduct hcents0
  rw [cryptoToFiat, if_neg hkind, hticker, hread]
  simp only [bind, Except.bind, hworth]
  rfl

/-- One cent is lost at most, and none is won. -/
theorem whole_cents {T cents v : Int} {e l : ℚ} (hT : 0 < T)
    (hlow : T * v - e * (T * v) - l ≤ cents) (hhigh : cents ≤ (T * v + e * (T * v) : ℚ))
    (he : e * v < 1 / 2) (hl : l ≤ T / 2) : cents / T ≤ v ∧ v ≤ cents / T + 1 := by
  have hpos : (0 : ℚ) < T := Int.cast_pos.mpr hT
  have hsmall : e * (T * v) < T / 2 := by
    have := mul_lt_mul_of_pos_left he hpos
    linarith
  constructor
  · have hlt : (cents : ℚ) < ((T * (v + 1) : Int) : ℚ) := by
      push_cast
      linarith
    have hquot : cents / T < v + 1 := Int.ediv_lt_of_lt_mul hT (by
      rw [mul_comm]
      exact Int.cast_lt.mp hlt)
    omega
  · have hle : ((T * (v - 1) : Int) : ℚ) ≤ cents := by
      push_cast
      linarith
    have hquot : v - 1 ≤ cents / T := (Int.le_ediv_iff_mul_le hT).mpr (by
      rw [mul_comm]
      exact Int.cast_le.mp hle)
    omega

/-- A price that is converted and converted back at one rate loses a cent at most, if
the smallest unit is worth less than half a cent. -/
theorem prices_survive_conversion (s s' : Convertor) (price : Money) (currency : CryptoCurrency)
    (rate : ℚ) (h : Quotable price currency rate)
    (hfine : 202 + 200 * rate ≤ 10 ^ currency.decimals.toNat)
    (hfeed : s.Feeds price.ticker currency.ticker rate)
    (hfeed' : s'.Feeds price.ticker currency.ticker rate) :
    ∃ quote back, s.fiatToCrypto price currency = .ok quote ∧
      s'.cryptoToFiat quote.target price.ticker = .ok back ∧
      back.target.compatibleTo price ∧ back.target.value ≤ price.value ∧
      price.value ≤ back.target.value + 1 := by
  obtain ⟨value, hquote, hvalue, hdrift⟩ := fiatToCrypto_drifts h hfeed
  have hrate := h.sold
  have hloss : 0 ≤ 1 / rate + 1 := by positivity
  obtain ⟨cents, hback, hcents, hdrift'⟩ := cryptoToFiat_drifts currency.decimals
    h.listed h.unlisted h.named hrate hfeed' hvalue hdrift hloss
  refine ⟨_, _, hquote, hback, ?_, ?_⟩
  · rw [Money.compatibleTo_iff]
    exact ⟨rfl, h.cents.symm⟩
  · have hscaled : (10 : ℚ) ^ currency.decimals.toNat * (price.value / 100) * (1 / rate) *
        (rate * 100) = 10 ^ currency.decimals.toNat * price.value := by
      field_simp
    have hshort : (1 / rate + 1) * (rate * 100) + 1 = 101 + 100 * rate := by
      field_simp
      ring
    have hprice : (0 : ℚ) ≤ price.value := Int.cast_nonneg (by have := h.positive; omega)
    have hbounded : (price.value : ℚ) ≤ 10 ^ 9 := by exact_mod_cast h.bounded
    rw [hscaled, hshort] at hdrift'
    obtain ⟨hlow, hhigh⟩ := hdrift'.near (e := 8 * halfUlp) halfUlp_le_one (by positivity)
      (by norm_num [halfUlp])
    have hdust : 0 ≤ halfUlp * (10 ^ currency.decimals.toNat * price.value) :=
      mul_nonneg halfUlp_nonneg (by positivity)
    refine whole_cents (T := 10 ^ currency.decimals.toNat) (e := 8 * halfUlp)
      (l := 101 + 100 * rate) (by positivity) ?_ ?_ ?_ ?_
    · push_cast at hlow ⊢
      linarith
    · push_cast
      exact hhigh
    · have := mul_le_mul_of_nonneg_left hbounded
        (mul_nonneg (by norm_num : (0 : ℚ) ≤ 8) halfUlp_nonneg)
      refine this.trans_lt ?_
      norm_num [halfUlp]
    · push_cast
      linarith

theorem globalFeePercent_bounds (s : Convertor) (fee : String) :
    0 ≤ s.globalFeePercent fee ∧ s.globalFeePercent fee ≤ 100 := by
  unfold globalFeePercent
  split
  · split
    · constructor <;> norm_num
    · rename_i hrange
      rw [not_or, not_le, not_lt] at hrange
      exact ⟨hrange.1.le, hrange.2⟩
  · constructor <;> norm_num

/-- Quoted and marked up: seven roundings, and three units cut off. -/
theorem cryptoAmount_drifts (fee : String) (h : Quotable price currency rate)
    (hfeed : s.Feeds price.ticker currency.ticker rate) :
    ∃ value : Int, s.cryptoAmount price fee currency =
        .ok ((Money.crypto currency.ticker value currency.decimals).ceilDecimals
          currency.maxDisplayDecimals) ∧
      Drift halfUlp 7 ((1 / rate + 1) * (1 + s.globalFeePercent fee / 100) + 1)
        (10 ^ currency.decimals.toNat * (price.value / 100) * (1 / rate) *
          (1 + s.globalFeePercent fee / 100)) value := by
  obtain ⟨value, hquote, hvalue, hdrift⟩ := fiatToCrypto_drifts h hfeed
  obtain ⟨hfee, -⟩ := globalFeePercent_bounds s fee
  have hrate := h.sold
  have hprice : (0 : ℚ) ≤ price.value := Int.cast_nonneg (by have := h.positive; omega)
  by_cases hmarkup : 0 < s.globalFeePercent fee
  · have hpart : 0 < s.globalFeePercent fee / 100 := by positivity
    have hsum := (drift_binary64 hpart).one_add halfUlp_nonneg halfUlp_le_one
    have hpositive : 0 < 1 + binary64 (s.globalFeePercent fee / 100) := by
      have := binary64_pos hpart
      linarith
    have hfactor := hsum.round (near_binary64 hpositive) halfUlp_nonneg halfUlp_le_one le_rfl
    obtain ⟨marked, hmarked, -, hdrift'⟩ := Money.multiplyFloat64_drifts
      (m := Money.crypto currency.ticker value currency.decimals) hvalue hdrift hfactor
      (by positivity) (by positivity) (binary64_pos hpositive)
    refine ⟨marked, ?_, hdrift'⟩
    rw [cryptoAmount, hquote]
    simp only [bind, Except.bind, if_pos hmarkup, hmarked]
    rfl
  · have hnone : s.globalFeePercent fee = 0 := le_antisymm (not_lt.mp hmarkup) hfee
    refine ⟨value, ?_, ?_⟩
    · rw [cryptoAmount, hquote]
      simp only [bind, Except.bind, if_neg hmarkup]
      rfl
    · rw [hnone, zero_div, add_zero, mul_one, mul_one]
      exact hdrift.mono halfUlp_nonneg halfUlp_le_one (by positivity) (by omega) (by linarith)

theorem worth_of_drift {T v m r value asked unit : ℚ} (hT : 0 < T) (hv : 0 ≤ v) (hm : 1 ≤ m)
    (hm' : m ≤ 2) (hr : 0 < r)
    (h : Drift halfUlp 7 ((1 / r + 1) * m + 1) (T * (v / 100) * (1 / r) * m) value)
    (hcovers : value ≤ asked) (hclose : asked ≤ value + unit) :
    v * m - v * m / 2 ^ 50 - (200 + 300 * r) / T ≤ asked * (r * 100) / T ∧
      asked * (r * 100) / T ≤ v * m + v * m / 2 ^ 50 + unit * (r * 100) / T := by
  have hfactor : 0 < r * 100 / T := by positivity
  have hexact : T * (v / 100) * (1 / r) * m * (r * 100 / T) = v * m := by
    field_simp
  have hcut : ((1 / r + 1) * m + 1) * (r * 100 / T) ≤ (200 + 300 * r) / T := by
    have hspread : ((1 / r + 1) * m + 1) * (r * 100 / T) = ((100 + 100 * r) * m + 100 * r) / T := by
      field_simp
    have hdouble := mul_le_mul_of_nonneg_left hm' (by positivity : 0 ≤ 100 + 100 * r)
    rw [hspread]
    exact div_le_div_of_nonneg_right (by linarith) hT.le
  obtain ⟨hlow, hhigh⟩ := h.near (e := 8 * halfUlp) halfUlp_le_one (by positivity)
    (by norm_num [halfUlp])
  have hlow' := mul_le_mul_of_nonneg_right (hlow.trans hcovers) hfactor.le
  have hhigh' := mul_le_mul_of_nonneg_right (hclose.trans (add_le_add_left hhigh unit)) hfactor.le
  have hfraction : v * m / 2 ^ 50 = 8 * halfUlp * (v * m) := by
    unfold halfUlp
    ring
  have hdust : 0 ≤ halfUlp * (v * m) := mul_nonneg halfUlp_nonneg (by positivity)
  rw [mul_div_assoc asked, mul_div_assoc unit, hfraction]
  constructor
  · rw [sub_mul, sub_mul, mul_assoc (_ * halfUlp), hexact] at hlow'
    push_cast at hlow'
    linarith
  · rw [add_mul, add_mul, mul_assoc (8 * halfUlp), hexact] at hhigh'
    linarith

/-- The amount that is asked for is worth the price and the merchant's buffer, but for
what is cut off below and for one displayed digit above. -/
theorem asked_amounts_are_worth_the_price (s : Convertor) (price : Money) (fee : String)
    (currency : CryptoCurrency) (rate : ℚ) (h : Quotable price currency rate)
    (hfeed : s.Feeds price.ticker currency.ticker rate) :
    ∃ asked, s.cryptoAmount price fee currency = .ok asked ∧
      asked.ticker = currency.ticker ∧ asked.decimals = currency.decimals ∧
      let unit : ℚ := 10 ^ currency.decimals.toNat
      let due : ℚ := price.value * (1 + s.globalFeePercent fee / 100)
      let worth : ℚ := asked.value * (rate * 100) / unit
      due - due / 2 ^ 50 - (200 + 300 * rate) / unit ≤ worth ∧
        worth ≤ due + due / 2 ^ 50 +
          asked.displayUnit currency.maxDisplayDecimals * (rate * 100) / unit := by
  obtain ⟨value, hasked, hdrift⟩ := cryptoAmount_drifts fee h hfeed
  obtain ⟨hfee, hfee'⟩ := globalFeePercent_bounds s fee
  have hrate := h.sold
  have hprice : (0 : ℚ) ≤ price.value := Int.cast_nonneg (by have := h.positive; omega)
  have hplaces : 0 ≤ currency.maxDisplayDecimals := by
    have hwhole := h.whole
    unfold CryptoCurrency.maxDisplayDecimals
    split <;> omega
  rw [Money.ceilDecimals_eq _ _ hplaces] at hasked
  refine ⟨_, hasked, rfl, rfl, ?_⟩
  have hunit := Money.displayUnit_pos (Money.crypto currency.ticker value currency.decimals)
    currency.maxDisplayDecimals
  obtain ⟨hcovers, hclose⟩ := Multiples.le_up (x := value) hunit
  refine worth_of_drift (by positivity) hprice (by linarith) (by linarith) hrate hdrift
    (Int.cast_le.mpr hcovers) ?_
  rw [← Int.cast_add]
  exact Int.cast_le.mpr hclose.le

end Convertor

namespace Quotes

def ether : CryptoCurrency where
  blockchain := "ETH"
  networkID := "1"
  testNetworkID := "5"
  type := .coin
  ticker := "ETH"
  name := "Ethereum"
  decimals := 18
  tokenContractAddress := ""
  testTokenContractAddress := ""
  aliases := []
  deprecated := false

def convertor : Convertor where
  currencies := ⟨[ether], by decide⟩
  parseFloat s := if s = "1800.5" then some (3601 / 2) else if s = "2.5" then some (5 / 2) else none
  priceFeed _ _ := .ok ⟨"1800.5", 0⟩
  clock := 0
  order := normalizations
  order_perm := .refl normalizations

def price : Money := ⟨.fiat, "USD", 12345, 2⟩

theorem quotable : Quotable price ether (3601 / 2) where
  fiat := rfl
  listed := by decide
  cents := rfl
  positive := by decide
  bounded := by decide
  unlisted := by decide
  named := by decide
  whole := by decide
  places := by decide
  sold := by norm_num

theorem feeds : convertor.Feeds price.ticker ether.ticker (3601 / 2) := ⟨0, rfl⟩

theorem prices_survive_conversion_ether :
    ∃ quote back, convertor.fiatToCrypto price ether = .ok quote ∧
      convertor.cryptoToFiat quote.target price.ticker = .ok back ∧
      back.target.compatibleTo price ∧ back.target.value ≤ price.value ∧
      price.value ≤ back.target.value + 1 :=
  Convertor.prices_survive_conversion convertor convertor price ether (3601 / 2) quotable
    (by norm_num [show ether.decimals.toNat = 18 from rfl]) feeds feeds

theorem asked_amounts_are_worth_the_price_ether :
    ∃ asked, convertor.cryptoAmount price "2.5" ether = .ok asked ∧
      asked.ticker = ether.ticker ∧ asked.decimals = ether.decimals ∧
      let unit : ℚ := 10 ^ ether.decimals.toNat
      let due : ℚ := price.value * (1 + convertor.globalFeePercent "2.5" / 100)
      let worth : ℚ := asked.value * (3601 / 2 * 100) / unit
      due - due / 2 ^ 50 - (200 + 300 * (3601 / 2)) / unit ≤ worth ∧
        worth ≤ due + due / 2 ^ 50 +
          asked.displayUnit ether.maxDisplayDecimals * (3601 / 2 * 100) / unit :=
  Convertor.asked_amounts_are_worth_the_price convertor price "2.5" ether (3601 / 2) quotable feeds

end Quotes

end CryptoLink
