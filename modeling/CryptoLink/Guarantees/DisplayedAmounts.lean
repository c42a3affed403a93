import CryptoLink.Alone
import CryptoLink.Guarantees.AmountTexts
import CryptoLink.Guarantees.Rounding
import Mathlib.Tactic.Positivity

/-!
# Displayed amounts

What an invoice asks for is rounded up to what is displayed, and the dust on
top of it is counted in displayed units. The text of the amount is the amount.
-/

namespace CryptoLink

open ReadCommitted StatementPrograms Multiples

namespace Money

/-- Multiples of the displayed unit are not truncated. -/
theorem truncateDecimals_of_multiple {m : Money} {maxDecimals k : Int} (hmax : 0 ≤ maxDecimals)
    (h : m.value = k * m.displayUnit maxDecimals) : m.truncateDecimals maxDecimals = m := by
  have hmultiple : m.displayUnit maxDecimals ∣ m.value := Dvd.intro_left k h.symm
  rw [m.truncateDecimals_eq maxDecimals hmax,
    down_of_dvd (m.displayUnit_pos maxDecimals) hmultiple]

/-- Rounding up gives a multiple of the displayed unit that covers the amount. -/
theorem ceilDecimals_covers {m : Money} {maxDecimals : Int} (hmax : 0 ≤ maxDecimals) :
    ∃ k, m.ceilDecimals maxDecimals = { m with value := k * m.displayUnit maxDecimals } ∧
      m.value ≤ k * m.displayUnit maxDecimals := by
  have hcovers := (le_up (x := m.value) (m.displayUnit_pos maxDecimals)).1
  exact ⟨_, m.ceilDecimals_eq maxDecimals hmax, hcovers⟩

end Money

theorem CryptoCurrency.maxDisplayDecimals_le (c : CryptoCurrency) :
    c.maxDisplayDecimals ≤ c.decimals ∧ (0 ≤ c.decimals → 0 ≤ c.maxDisplayDecimals) := by
  unfold maxDisplayDecimals
  split
  · exact ⟨le_refl _, fun h => h⟩
  · constructor
    · omega
    · intro _
      omega

namespace Service

/-- Dust is one to 999 of the displayed unit. -/
theorem generateDustAmount_eq_ok {currency : CryptoCurrency} {envs : ℕ → Env} {w : World}
    {dust : Money} (h : outcome (generateDustAmount currency) envs w = .ok dust) :
    ∃ n : Int, 1 ≤ n ∧ n ≤ 999 ∧ dust = currency.makeAmountFromBigInt
      (n * 10 ^ (currency.decimals - currency.maxDisplayDecimals).toNat) := by
  have hreply : engine.reply .randomDust (envs 0) w =
      answered (envs 0).fate .remote (.ok ((envs 0).number % 999 + 1)) := rfl
  unfold outcome generateDustAmount at h
  simp only [Prog.bind_eq, Prog.pure_eq] at h
  rw [Engine.alone_bind, alone_read .randomDust rfl, hreply] at h
  simp only [succeed, Engine.alone_bind, Engine.alone_ofExcept] at h
  by_cases hdone : (envs 0).fate = .done
  · simp only [answered, if_pos hdone, wrapErr, Except.mapError, Engine.alone_ret] at h
    refine ⟨(envs 0).number % 999 + 1, by omega, by omega, ?_⟩
    rw [← Except.ok.inj h]
    by_cases hlt : currency.maxDisplayDecimals < currency.decimals
    · rw [if_pos hlt]
    · have hzero : (currency.decimals - currency.maxDisplayDecimals).toNat = 0 := by omega
      rw [if_neg hlt, hzero, pow_zero]
  · simp only [answered, if_neg hdone, wrapErr, Except.mapError] at h
    cases h

end Service

/-- For every currency, converted amount and dust: the amount of the invoice
survives truncation to the displayed decimals, its text parses back to it, and
it covers what was converted. -/
theorem locked_amount_is_displayed (currency : CryptoCurrency) (hdecimals : 0 ≤ currency.decimals)
    (converted : Int) (envs : ℕ → Env) (w : World) (dust : Money)
    (hdust : outcome (Service.generateDustAmount currency) envs w = .ok dust) :
    ∃ locked, ((currency.makeAmountFromBigInt converted).ceilDecimals
        currency.maxDisplayDecimals).add dust = .ok locked ∧
      locked.truncateDecimals currency.maxDisplayDecimals = locked ∧
      Money.cryptoFromStringFloat currency.ticker locked.string currency.decimals = .ok locked ∧
      converted ≤ locked.value := by
  obtain ⟨n, hone, -, rfl⟩ := Service.generateDustAmount_eq_ok hdust
  obtain ⟨hle, hnonneg⟩ := currency.maxDisplayDecimals_le
  obtain ⟨k, hceil, hcovers⟩ := Money.ceilDecimals_covers
    (m := currency.makeAmountFromBigInt converted) (hnonneg hdecimals)
  have hunit : (currency.makeAmountFromBigInt converted).displayUnit currency.maxDisplayDecimals =
      10 ^ (currency.decimals - currency.maxDisplayDecimals).toNat := by
    rw [Money.displayUnit, max_eq_left]
    · rfl
    · show 0 ≤ currency.decimals - currency.maxDisplayDecimals
      omega
  rw [hunit] at hceil hcovers
  have hvalue : converted ≤
      k * 10 ^ (currency.decimals - currency.maxDisplayDecimals).toNat := hcovers
  have hdustPos : 0 ≤ n * 10 ^ (currency.decimals - currency.maxDisplayDecimals).toNat := by
    positivity
  refine ⟨Money.crypto currency.ticker
    (k * 10 ^ (currency.decimals - currency.maxDisplayDecimals).toNat +
      n * 10 ^ (currency.decimals - currency.maxDisplayDecimals).toNat) currency.decimals,
    ?_, ?_, ?_, ?_⟩
  · rw [hceil]
    simp only [Money.add, Money.compatibleTo, CryptoCurrency.makeAmountFromBigInt, Money.crypto,
      decide_true, Bool.and_self, if_true]
  · apply Money.truncateDecimals_of_multiple (k := k + n) (hnonneg hdecimals)
    have hsame : (Money.crypto currency.ticker
        (k * 10 ^ (currency.decimals - currency.maxDisplayDecimals).toNat +
          n * 10 ^ (currency.decimals - currency.maxDisplayDecimals).toNat)
        currency.decimals).displayUnit currency.maxDisplayDecimals =
          10 ^ (currency.decimals - currency.maxDisplayDecimals).toNat := hunit
    rw [hsame, Int.add_mul]
    rfl
  · exact Money.cryptoFromStringFloat_string hdecimals
  · show converted ≤ _ + _
    omega

open Sample

/-- A currency of eighteen decimals, seven of the displayed unit on top. -/
theorem locked_amount_is_displayed_sample :
    ∃ locked, (({ ether with decimals := 18 }.makeAmountFromBigInt
          27345678912345678).ceilDecimals 8).add
        (Money.crypto "ETH" 70000000000 18) = .ok locked ∧
      locked.truncateDecimals 8 = locked ∧
      Money.cryptoFromStringFloat "ETH" locked.string 18 = .ok locked ∧
      27345678912345678 ≤ locked.value :=
  locked_amount_is_displayed { ether with decimals := 18 } (by decide) 27345678912345678
    (fun _ => { number := 6 }) noMoney (Money.crypto "ETH" 70000000000 18) (by decide +kernel)

end CryptoLink
