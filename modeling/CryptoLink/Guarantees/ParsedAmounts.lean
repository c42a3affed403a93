import CryptoLink.Guarantees.AmountTexts

/-!
# Which texts are amounts

The parser reads every numeral of its places exactly. It also reads texts that
are no numerals, and panics on a fraction that is too long.
-/

namespace CryptoLink

open DecimalText

/-- An amount of any sign and any decimals parses back from its text. -/
theorem text_of_amount_parses_back (m : Money) (hcrypto : m.moneyType = .crypto)
    (hdecimals : 0 ≤ m.decimals) :
    Money.cryptoFromStringFloat m.ticker m.string m.decimals = .ok m := by
  have hshape : m = Money.crypto m.ticker m.value m.decimals := by
    rw [Money.crypto, ← hcrypto]
  rw [hshape]
  exact Money.cryptoFromStringFloat_string hdecimals

theorem text_of_amount_parses_back_below_zero :
    Money.cryptoFromStringFloat "BTC" (Money.crypto "BTC" (-25) 8).string 8 =
      .ok (Money.crypto "BTC" (-25) 8) :=
  text_of_amount_parses_back (Money.crypto "BTC" (-25) 8) rfl (by decide)

def Err.IsPanic (e : Err) : Prop := ∃ message, e.cause = .panic message

/-- A numeral of at most `decimals` places gives its exact value, and any other
text an error that is no panic. -/
structure ParsesExactly (ticker s : String) (decimals : Int) : Prop where
  reads : ∀ n : Numeral, n.text = s.toList → (n.places : Int) ≤ decimals →
    ∃ v : Int, Money.cryptoFromStringFloat ticker s decimals =
      .ok (Money.crypto ticker v decimals) ∧ (v : ℚ) = n.value * 10 ^ decimals.toNat
  refuses : (∀ n : Numeral, n.text = s.toList → decimals < n.places) →
    ∃ e : Err, Money.cryptoFromStringFloat ticker s decimals = .error e ∧ ¬ e.IsPanic

/-- What is left of a text without dots and underscores. -/
def spelled (s : String) : List Char := s.toList.filter fun c => c ≠ '.' ∧ c ≠ '_'

/-- At most one dot, and without it and the underscores a sign and digits. The
digits may be missing where zeros are padded. -/
structure Loose (s : String) (decimals : Int) : Prop where
  dots : s.toList.count '.' ≤ 1
  signed : ∃ sign digits, IsSigned (spelled s) sign digits ∧
    (digits ≠ [] ∨ (Money.fractionBytes s : Int) < decimals)

/-- The fraction is not too long, and what reads like a number is one. -/
structure ReadsRight (s : String) (decimals : Int) : Prop where
  fits : (Money.fractionBytes s : Int) ≤ decimals
  strict : Loose s decimals → ∃ n : Numeral, n.text = s.toList

section

variable {s : String} {decimals : Int}

/-- What the parser hands to the reader of integers. -/
theorem filter_padded (k : ℕ) :
    (s.toList.filter (fun c => c ≠ '.') ++ List.replicate k '0').filter (fun c => c ≠ '_') =
      spelled s ++ List.replicate k '0' := by
  have hzeros : '_' ∉ List.replicate k '0' := (isDigits_zeros k).not_mem (by decide)
  rw [List.filter_append, filter_ne_of_not_mem hzeros, List.filter_filter, spelled]
  congr 2
  funext c
  simp [Bool.and_comm]

theorem parsed_of_loose (hfit : (Money.fractionBytes s : Int) ≤ decimals) (h : Loose s decimals)
    (ticker : String) :
    ∃ v, Money.cryptoFromStringFloat ticker s decimals = .ok (Money.crypto ticker v decimals) := by
  obtain ⟨sign, digits, hsigned, hsome⟩ := h.signed
  rw [Money.cryptoFromStringFloat_of_fits h.dots hfit]
  have hpadded := hsigned.append (isDigits_zeros (decimals.toNat - Money.fractionBytes s))
  rw [← filter_padded] at hpadded
  refine ⟨_, Money.new_of_signed hpadded ?_ ticker decimals⟩
  intro hnil
  obtain ⟨hdigits, hzeros⟩ := List.append_eq_nil_iff.mp hnil
  rcases hsome with hne | hlt
  · exact hne hdigits
  · have hnone := congrArg List.length hzeros
    rw [List.length_replicate, List.length_nil] at hnone
    omega

theorem refused_of_not_loose (hfit : (Money.fractionBytes s : Int) ≤ decimals)
    (h : ¬ Loose s decimals) (ticker : String) :
    ∃ e : Err, Money.cryptoFromStringFloat ticker s decimals = .error e ∧ ¬ e.IsPanic := by
  by_cases hdots : s.toList.count '.' ≤ 1
  · rw [Money.cryptoFromStringFloat_of_fits hdots hfit]
    refine ⟨Err.of .errParse, Money.new_of_not_signed ?_ ticker decimals, ?_⟩
    · intro sign digits hsigned
      rw [filter_padded] at hsigned
      obtain ⟨front, rfl, hfront⟩ := hsigned.of_append (isDigits_zeros _)
      by_contra hne
      apply h
      refine ⟨hdots, sign, front, hfront, ?_⟩
      by_cases hnil : front = []
      · apply Or.inr
        rw [hnil, List.nil_append] at hne
        by_contra hge
        apply hne
        have hzero : decimals.toNat - Money.fractionBytes s = 0 := by omega
        rw [hzero]
        rfl
      · exact Or.inl hnil
    · rintro ⟨message, hpanic⟩
      cases hpanic
  · rw [Money.cryptoFromStringFloat_of_dots (by omega)]
    refine ⟨_, rfl, ?_⟩
    rintro ⟨message, hpanic⟩
    cases hpanic

/-- A numeral that fits is read exactly. -/
theorem parsed_of_numeral (n : Numeral) (htext : n.text = s.toList)
    (hplaces : (n.places : Int) ≤ decimals) (ticker : String) :
    ∃ v : Int, Money.cryptoFromStringFloat ticker s decimals =
      .ok (Money.crypto ticker v decimals) ∧ (v : ℚ) = n.value * 10 ^ decimals.toNat := by
  have hfit : n.places ≤ decimals.toNat := by omega
  have hd : 0 ≤ decimals := by omega
  exact ⟨_, Money.cryptoFromStringFloat_of_numeral n htext hfit hd ticker,
    (n.value_scaled hfit).symm⟩

end

/-- Exactly when parsing is exact and does not panic. -/
theorem parsesExactly_iff (ticker s : String) (decimals : Int) (hd : 0 ≤ decimals) :
    ParsesExactly ticker s decimals ↔ ReadsRight s decimals := by
  constructor
  · intro h
    by_cases hfit : (Money.fractionBytes s : Int) ≤ decimals
    · refine ⟨hfit, ?_⟩
      intro hloose
      by_contra hnone
      obtain ⟨v, hv⟩ := parsed_of_loose hfit hloose ticker
      obtain ⟨e, he, -⟩ := h.refuses fun n hn => absurd ⟨n, hn⟩ hnone
      rw [hv] at he
      cases he
    · have hpanic := Money.cryptoFromStringFloat_of_long hd (not_le.mp hfit) ticker
      obtain ⟨e, he, hsafe⟩ := h.refuses fun n hn => by
        have hplaces := (Money.fractionBytes_of_numeral n hn).1
        omega
      rw [hpanic] at he
      cases he
      exact absurd ⟨_, rfl⟩ hsafe
  · intro h
    constructor
    · intro n hn hplaces
      exact parsed_of_numeral n hn hplaces ticker
    · intro hno
      apply refused_of_not_loose h.fits
      intro hloose
      obtain ⟨n, hn⟩ := h.strict hloose
      have hplaces := (Money.fractionBytes_of_numeral n hn).1
      have hlong := hno n hn
      have hfits := h.fits
      omega

theorem parsesExactly_iff_plain :
    ParsesExactly "ETH" "1.5" 18 ↔ ReadsRight "1.5" 18 :=
  parsesExactly_iff "ETH" "1.5" 18 (by decide)

/-- More digits than the currency has decimals are a panic, not an error, and
no digit at all is zero. -/
theorem long_fraction_panics :
    Money.cryptoFromStringFloat "USDT" "1.0000001" 6 =
        .error (Err.of (.panic "strings: negative Repeat count")) ∧
      Money.cryptoFromStringFloat "USDT" "" 6 = .ok (Money.crypto "USDT" 0 6) ∧
      ¬ ParsesExactly "USDT" "1.0000001" 6 := by
  have hpanic : Money.cryptoFromStringFloat "USDT" "1.0000001" 6 =
      .error (Err.of (.panic "strings: negative Repeat count")) := by decide
  refine ⟨hpanic, by decide, ?_⟩
  intro h
  obtain ⟨e, he, hsafe⟩ := h.refuses fun n hn => by
    have hplaces := (Money.fractionBytes_of_numeral n hn).1
    have hbytes : Money.fractionBytes "1.0000001" = 7 := by decide
    omega
  rw [hpanic] at he
  cases he
  exact hsafe ⟨_, rfl⟩

end CryptoLink
