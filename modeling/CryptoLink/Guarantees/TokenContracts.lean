import CryptoLink.Registry
import Mathlib.Data.List.Nodup

/-!
# Contracts and the tokens they belong to

`ChooseContractAddress` falls back to the main contract where a token has none
for the testnet. The search by contract has no such fallback: any network but
the token's main one is taken for its testnet.
-/

namespace CryptoLink

namespace CryptoCurrency

/-- The contract the search compares with on a network. -/
def contractOn (c : CryptoCurrency) (networkID : String) : String :=
  if c.networkID = networkID then c.tokenContractAddress else c.testTokenContractAddress

/-- The search takes the token for the owner of the contract. -/
def answersTo (c : CryptoCurrency) (networkID addr : String) : Prop :=
  lower (c.contractOn networkID) = lower addr ∨ lower addr ∈ c.aliases

end CryptoCurrency

/-- Contracts are distinct on the mainnet and on the testnet, and an alias is no
other token's contract. A token may have none on the testnet. -/
structure DistinctContracts (tokens : List CryptoCurrency) : Prop where
  mainnet : ∀ c ∈ tokens, ∀ c' ∈ tokens, c ≠ c' →
    lower c.tokenContractAddress ≠ lower c'.tokenContractAddress
  testnet : ∀ c ∈ tokens, ∀ c' ∈ tokens, c ≠ c' → c.testTokenContractAddress ≠ "" →
    lower c.testTokenContractAddress ≠ lower c'.testTokenContractAddress
  aliases : ∀ c ∈ tokens, ∀ c' ∈ tokens, c ≠ c' → ∀ a ∈ c.aliases,
    a ≠ lower c'.tokenContractAddress ∧ a ≠ lower c'.testTokenContractAddress

/-- The tokens of a blockchain, in the order the search goes through them. -/
def Currencies.listTokens (r : Currencies) (blockchain : Blockchain) : List CryptoCurrency :=
  (r.listBlockchainCurrencies blockchain).filter fun c => c.type = .token

/-- The contract chosen for the token is the one its network selects, and no
token on the way to it takes the network the other way round and has that
contract there. -/
structure Resolvable (r : Currencies) (c : CryptoCurrency) (isTest : Bool) : Prop where
  blockchain : c.blockchain ≠ ""
  network : c.chooseNetwork isTest ≠ ""
  contract : c.chooseContractAddress isTest ≠ ""
  own : lower (c.contractOn (c.chooseNetwork isTest)) = lower (c.chooseContractAddress isTest) ∨
    lower (c.chooseContractAddress isTest) ∈ c.aliases
  uncrossed : ∀ c' ∈ (r.listTokens c.blockchain).takeWhile (· ≠ c),
    ¬ (c'.networkID = c.chooseNetwork isTest ↔ c.networkID = c.chooseNetwork isTest) →
      lower (c'.contractOn (c.chooseNetwork isTest)) ≠ lower (c.chooseContractAddress isTest)

variable {r : Currencies} {c c' : CryptoCurrency} {isTest : Bool} {networkID addr : String}

theorem lower_eq_empty : lower addr = "" ↔ addr = "" := by
  constructor
  · intro h
    have hchars : addr.toList.map LetterCase.toLower = [] := by
      have hlist := congrArg String.toList h
      rw [lower, String.toList_ofList] at hlist
      exact hlist
    have hnil : addr.toList = [] := List.map_eq_nil_iff.mp hchars
    rw [← String.ofList_toList (s := addr), hnil]
  · rintro rfl
    rfl

theorem chooseContractAddress_cases (c : CryptoCurrency) (isTest : Bool) :
    c.chooseContractAddress isTest = c.tokenContractAddress ∨
      c.chooseContractAddress isTest = c.testTokenContractAddress := by
  unfold CryptoCurrency.chooseContractAddress
  split
  · exact .inr rfl
  · exact .inl rfl

/-- The search ends at the first token that answers. -/
theorem getCurrencyByBlockchainAndContract_eq_ok {bc : Blockchain} :
    r.getCurrencyByBlockchainAndContract bc networkID addr = .ok c ↔
      (bc ≠ "" ∧ networkID ≠ "" ∧ addr ≠ "") ∧ c.answersTo networkID addr ∧
        ∃ before after, r.listTokens bc = before ++ c :: after ∧
          ∀ c' ∈ before, ¬ c'.answersTo networkID addr := by
  have hanswers : ∀ c : CryptoCurrency, ((if c.networkID = networkID then
      decide (lower c.tokenContractAddress = lower addr)
      else decide (lower c.testTokenContractAddress = lower addr)) ||
        c.aliases.contains (lower addr)) = true ↔ c.answersTo networkID addr := by
    intro c
    rw [Bool.or_eq_true, List.contains_iff_mem, CryptoCurrency.answersTo,
      CryptoCurrency.contractOn]
    split
    · rw [decide_eq_true_iff]
    · rw [decide_eq_true_iff]
  unfold Currencies.getCurrencyByBlockchainAndContract
  by_cases hinput : (bc = "" || networkID = "" || addr = "") = true
  · rw [if_pos hinput]
    constructor
    · intro h
      cases h
    · rintro ⟨⟨hbc, hnetwork, haddr⟩, -⟩
      simp [hbc, hnetwork, haddr] at hinput
  · rw [if_neg hinput]
    have hfilled : bc ≠ "" ∧ networkID ≠ "" ∧ addr ≠ "" := by
      simpa [not_or, and_assoc] using hinput
    have htokens : (r.listBlockchainCurrencies bc).find? (fun c => c.type = .token &&
        ((if c.networkID = networkID then decide (lower c.tokenContractAddress = lower addr)
          else decide (lower c.testTokenContractAddress = lower addr)) ||
            c.aliases.contains (lower addr))) =
        (r.listTokens bc).find? fun c =>
          (if c.networkID = networkID then decide (lower c.tokenContractAddress = lower addr)
            else decide (lower c.testTokenContractAddress = lower addr)) ||
              c.aliases.contains (lower addr) := by
      rw [Currencies.listTokens, List.find?_filter]
      simp
    have hfound : ((r.listTokens bc).find? fun c =>
        (if c.networkID = networkID then decide (lower c.tokenContractAddress = lower addr)
          else decide (lower c.testTokenContractAddress = lower addr)) ||
            c.aliases.contains (lower addr)) = some c ↔
        (bc ≠ "" ∧ networkID ≠ "" ∧ addr ≠ "") ∧ c.answersTo networkID addr ∧
          ∃ before after, r.listTokens bc = before ++ c :: after ∧
            ∀ c' ∈ before, ¬ c'.answersTo networkID addr := by
      rw [List.find?_eq_some_iff_append]
      constructor
      · rintro ⟨hown, before, after, hsplit, hbefore⟩
        refine ⟨hfilled, (hanswers c).mp hown, before, after, hsplit, ?_⟩
        intro c' hc' hanswer
        have hnot := hbefore c' hc'
        rw [(hanswers c').mpr hanswer] at hnot
        cases hnot
      · rintro ⟨-, hown, before, after, hsplit, hbefore⟩
        refine ⟨(hanswers c).mpr hown, before, after, hsplit, ?_⟩
        intro c' hc'
        rw [Bool.not_eq_true', Bool.eq_false_iff]
        exact fun hanswer => hbefore c' hc' ((hanswers c').mp hanswer)
    rw [htokens, ← hfound]
    split
    · rename_i c' hc'
      rw [hc', Except.ok.injEq, Option.some.injEq]
    · rename_i hnone
      rw [hnone]
      constructor
      · intro h
        cases h
      · intro h
        cases h

/-- What is listed before a token is what the search meets before it. -/
theorem takeWhile_of_split {before after : List CryptoCurrency} (h : c ∉ before) :
    (before ++ c :: after).takeWhile (· ≠ c) = before := by
  induction before with
  | nil => simp
  | cons x before ih =>
    have hx : x ≠ c := fun hx => h (hx ▸ List.mem_cons_self)
    have hrest := ih fun hc => h (List.mem_cons_of_mem _ hc)
    rw [List.cons_append, List.takeWhile_cons, if_pos (decide_eq_true hx), hrest]

theorem listTokens_nodup (r : Currencies) (bc : Blockchain) : (r.listTokens bc).Nodup :=
  ((List.Nodup.of_map _ r.tickers).filter _).filter _

/-- Among tokens with contracts of their own, a token chosen by its contract is
found by it exactly if it is resolvable, in whatever letter case. -/
theorem contract_resolution_iff (r : Currencies) (c : CryptoCurrency) (hc : c ∈ r.list)
    (hdeprecated : c.deprecated = false) (htoken : c.type = .token)
    (hdistinct : DistinctContracts (r.listTokens c.blockchain)) (isTest : Bool) (addr : String)
    (haddr : lower addr = lower (c.chooseContractAddress isTest)) :
    r.getCurrencyByBlockchainAndContract c.blockchain (c.chooseNetwork isTest) addr = .ok c ↔
      Resolvable r c isTest := by
  have hmem : c ∈ r.listTokens c.blockchain := by
    simp [Currencies.listTokens, Currencies.listBlockchainCurrencies, hc, hdeprecated, htoken]
  have hempty : addr = "" ↔ c.chooseContractAddress isTest = "" := by
    rw [← lower_eq_empty, haddr, lower_eq_empty]
  rw [getCurrencyByBlockchainAndContract_eq_ok]
  constructor
  · rintro ⟨⟨hbc, hnetwork, hfilled⟩, hown, before, after, hsplit, hbefore⟩
    have hnot : c ∉ before := fun hc => hbefore c hc hown
    refine ⟨hbc, hnetwork, fun h => hfilled (hempty.mpr h), ?_, ?_⟩
    · rw [← haddr]
      exact hown
    · rw [hsplit, takeWhile_of_split hnot, ← haddr]
      intro c' hc' _ hanswer
      exact hbefore c' hc' (.inl hanswer)
  · intro h
    refine ⟨⟨h.blockchain, h.network, fun hnone => h.contract (hempty.mp hnone)⟩, ?_, ?_⟩
    · rw [CryptoCurrency.answersTo, haddr]
      exact h.own
    obtain ⟨before, after, hsplit⟩ := List.append_of_mem hmem
    have hnodup := listTokens_nodup r c.blockchain
    rw [hsplit] at hnodup
    have hnot : c ∉ before := by
      intro hc
      exact (List.disjoint_of_nodup_append hnodup) hc List.mem_cons_self
    refine ⟨before, after, hsplit, ?_⟩
    intro c' hc' hanswer
    have hmem' : c' ∈ r.listTokens c.blockchain := by
      rw [hsplit]
      exact List.mem_append_left _ hc'
    have hne : c ≠ c' := fun heq => hnot (heq ▸ hc')
    rw [CryptoCurrency.answersTo, haddr] at hanswer
    rcases hanswer with hcontract | halias
    swap
    · -- an alias of another token is not this token's contract
      have hforeign := hdistinct.aliases c' hmem' c hmem hne.symm _ halias
      rcases chooseContractAddress_cases c isTest with hmain | htest
      · exact hforeign.1 (congrArg lower hmain)
      · exact hforeign.2 (congrArg lower htest)
    by_cases hsame : c'.networkID = c.chooseNetwork isTest ↔
        c.networkID = c.chooseNetwork isTest
    swap
    · refine h.uncrossed c' ?_ hsame hcontract
      rw [hsplit, takeWhile_of_split hnot]
      exact hc'
    rcases h.own with hown | halias
    · -- both are compared with the contracts of the same network
      have hequal := hown.trans hcontract.symm
      by_cases hmain : c.networkID = c.chooseNetwork isTest
      · rw [CryptoCurrency.contractOn, if_pos hmain, CryptoCurrency.contractOn,
          if_pos (hsame.mpr hmain)] at hequal
        exact hdistinct.mainnet c hmem c' hmem' hne hequal
      · have htest : c.testTokenContractAddress ≠ "" := by
          intro hnone
          rw [CryptoCurrency.contractOn, if_neg hmain, hnone] at hown
          exact h.contract (lower_eq_empty.mp hown.symm)
        rw [CryptoCurrency.contractOn, if_neg hmain, CryptoCurrency.contractOn,
          if_neg fun hmain' => hmain (hsame.mp hmain')] at hequal
        exact hdistinct.testnet c hmem c' hmem' hne htest hequal
    · -- nor is an alias of this token another token's contract
      have hforeign := hdistinct.aliases c hmem c' hmem' hne _ halias
      by_cases hmain : c'.networkID = c.chooseNetwork isTest
      · rw [CryptoCurrency.contractOn, if_pos hmain] at hcontract
        exact hforeign.1 hcontract.symm
      · rw [CryptoCurrency.contractOn, if_neg hmain] at hcontract
        exact hforeign.2 hcontract.symm

/-- Where the tokens of a blockchain share its two networks, only a missing
contract on the testnet is in the way. -/
theorem resolvable_iff_of_shared_network (hblockchain : c.blockchain ≠ "")
    (hnetwork : ∀ isTest, c.chooseNetwork isTest ≠ "") (hcontract : c.tokenContractAddress ≠ "")
    (hapart : c.networkID ≠ c.testNetworkID)
    (hshared : ∀ c' ∈ r.listTokens c.blockchain, c'.networkID = c.networkID) :
    Resolvable r c isTest ↔ (isTest = true → c.testTokenContractAddress ≠ "" ∨
      lower c.tokenContractAddress ∈ c.aliases) := by
  have huncrossed : ∀ c' ∈ (r.listTokens c.blockchain).takeWhile (· ≠ c),
      (c'.networkID = c.chooseNetwork isTest ↔ c.networkID = c.chooseNetwork isTest) := by
    intro c' hc'
    rw [hshared c' (List.takeWhile_sublist _ |>.subset hc')]
  have hchosen : c.chooseContractAddress isTest ≠ "" := by
    unfold CryptoCurrency.chooseContractAddress
    split
    · rename_i h
      simp only [Bool.and_eq_true, bne_iff_ne] at h
      exact h.2
    · exact hcontract
  cases isTest with
  | false =>
    constructor
    · intro _ h
      cases h
    · intro _
      have hown : c.contractOn (c.chooseNetwork false) = c.chooseContractAddress false := if_pos rfl
      exact ⟨hblockchain, hnetwork false, hchosen, .inl (congrArg lower hown),
        fun c' hc' hcrossed => absurd (huncrossed c' hc') hcrossed⟩
  | true =>
    have htest : c.contractOn (c.chooseNetwork true) = c.testTokenContractAddress := if_neg hapart
    by_cases hnone : c.testTokenContractAddress = ""
    · have hmain : c.chooseContractAddress true = c.tokenContractAddress := by
        simp [CryptoCurrency.chooseContractAddress, hnone]
      constructor
      · intro h _
        rcases h.own with hown | halias
        · rw [htest, hnone, hmain] at hown
          exact absurd (lower_eq_empty.mp hown.symm) hcontract
        · rw [hmain] at halias
          exact .inr halias
      · intro h
        refine ⟨hblockchain, hnetwork true, hchosen, ?_,
          fun c' hc' hcrossed => absurd (huncrossed c' hc') hcrossed⟩
        rcases h rfl with hsome | halias
        · exact absurd hnone hsome
        · rw [hmain]
          exact .inr halias
    · have hown : c.chooseContractAddress true = c.testTokenContractAddress := by
        simp [CryptoCurrency.chooseContractAddress, hnone]
      constructor
      · exact fun _ _ => .inl hnone
      · intro _
        refine ⟨hblockchain, hnetwork true, hchosen, .inl ?_,
          fun c' hc' hcrossed => absurd (huncrossed c' hc') hcrossed⟩
        rw [htest, hown]

namespace Registry

theorem distinct_ethereum : DistinctContracts (defaultCurrencies.listTokens "ETH") := by
  constructor <;> decide +kernel

/-- USDC on Ethereum has no contract on the testnet. -/
def usdcOnEthereum : CryptoCurrency :=
  token "ETH" "1" "5" "ETH_USDC" "USDC" 6 "0xa0b86991c6218b36c1d19d4a2e9eb0ce3606eb48" "" []

end Registry

open Registry in
theorem usdc_resolves_on_mainnet :
    defaultCurrencies.getCurrencyByBlockchainAndContract "ETH" "1"
        "0xA0B86991C6218B36C1D19D4A2E9EB0CE3606EB48" = .ok usdcOnEthereum ↔
      Resolvable defaultCurrencies usdcOnEthereum false :=
  contract_resolution_iff defaultCurrencies usdcOnEthereum (by decide +kernel) rfl rfl
    distinct_ethereum false "0xA0B86991C6218B36C1D19D4A2E9EB0CE3606EB48" (by decide +kernel)

open Registry in
/-- On the testnet the watcher scans for the main contract, and nobody finds the
token by it. -/
theorem usdc_unresolved_on_testnet :
    DistinctContracts (defaultCurrencies.listTokens usdcOnEthereum.blockchain) ∧
    usdcOnEthereum.chooseContractAddress true = "0xa0b86991c6218b36c1d19d4a2e9eb0ce3606eb48" ∧
    usdcOnEthereum.chooseNetwork true = "5" ∧ usdcOnEthereum ∈ defaultCurrencies.list ∧
    defaultCurrencies.getCurrencyByBlockchainAndContract "ETH" "5"
      "0xa0b86991c6218b36c1d19d4a2e9eb0ce3606eb48" = .error (Err.of .errCurrencyNotFound) :=
  ⟨distinct_ethereum, rfl, rfl, by decide +kernel, by decide +kernel⟩

end CryptoLink
