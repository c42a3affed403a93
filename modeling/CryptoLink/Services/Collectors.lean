import CryptoLink.Repository.Rows
import CryptoLink.Errors
import CryptoLink.Money
import Mathlib

/-!
# Collectors

Registration stores an EVM address in lower case; a TRON address keeps its
case.
-/

namespace CryptoLink

/-- `RegisterCollector`: one collector for a merchant and a blockchain, its
address replaced when it is registered again. -/
def registerCollector (uuid : String) (merchantID : Int) (blockchain : String) (chainID : Int)
    (contractAddress : String) (collectors : List CollectorRow) : List CollectorRow :=
  let blockchain := upper blockchain
  let contractAddress := if blockchain ≠ "TRON" then lower contractAddress else contractAddress
  if collectors.any fun c => c.merchantID = merchantID && c.blockchain = blockchain then
    collectors.map fun c =>
      if c.merchantID = merchantID ∧ c.blockchain = blockchain then
        { c with contractAddress := contractAddress, chainID := chainID, isActive := true }
      else c
  else collectors ++ [⟨uuid, merchantID, blockchain, chainID, contractAddress, true⟩]

/-- `ErrNotFound` -/
def errCollectorNotFound : Err := Err.new "evm collector not found"

/-- `Delete` -/
def deleteCollector (merchantID : Int) (blockchain : String) (collectors : List CollectorRow) :
    Except Err (List CollectorRow) :=
  if collectors.any fun c => c.merchantID = merchantID && c.blockchain = upper blockchain then
    .ok (collectors.map fun c =>
      if c.merchantID = merchantID ∧ c.blockchain = upper blockchain then
        { c with isActive := false }
      else c)
  else .error errCollectorNotFound

/-- How a registered address is stored. -/
def storedAddress (blockchain contractAddress : String) : String :=
  if upper blockchain ≠ "TRON" then lower contractAddress else contractAddress

theorem exists_registerCollector (uuid : String) (merchantID : Int) (blockchain : String)
    (chainID : Int) (contractAddress : String) (collectors : List CollectorRow) :
    ∃ c ∈ registerCollector uuid merchantID blockchain chainID contractAddress collectors,
      c.merchantID = merchantID ∧ c.blockchain = upper blockchain ∧
        c.contractAddress = storedAddress blockchain contractAddress ∧ c.isActive = true := by
  simp only [registerCollector]
  split
  · rename_i hany
    obtain ⟨c, hc, hsame⟩ := List.any_eq_true.mp hany
    simp only [Bool.and_eq_true, decide_eq_true_eq] at hsame
    refine ⟨_, List.mem_map_of_mem hc, ?_⟩
    rw [if_pos hsame]
    exact ⟨hsame.1, hsame.2, rfl, rfl⟩
  · exact ⟨_, List.mem_append_right _ List.mem_cons_self, rfl, rfl, rfl, rfl⟩

section

variable {uuid : String} {merchantID : Int} {blockchain : String} {chainID : Int}
  {contractAddress : String} {collectors : List CollectorRow} {c : CollectorRow}

/-- A collector after a registration is another one, or the registered one. -/
theorem mem_registerCollector
    (h : c ∈ registerCollector uuid merchantID blockchain chainID contractAddress collectors) :
    (c ∈ collectors ∧ ¬ (c.merchantID = merchantID ∧ c.blockchain = upper blockchain)) ∨
      (c.merchantID = merchantID ∧ c.blockchain = upper blockchain ∧
        c.contractAddress = storedAddress blockchain contractAddress) := by
  simp only [registerCollector] at h
  split at h
  · obtain ⟨c', hc', rfl⟩ := List.mem_map.mp h
    split
    · rename_i hsame
      exact .inr ⟨hsame.1, hsame.2, rfl⟩
    · rename_i hother
      exact .inl ⟨hc', hother⟩
  · rename_i hnone
    rcases List.mem_append.mp h with hold | hnew
    · refine .inl ⟨hold, ?_⟩
      rintro ⟨hmerchant, hblockchain⟩
      refine hnone (List.any_eq_true.mpr ⟨c, hold, ?_⟩)
      simp [hmerchant, hblockchain]
    · obtain rfl := List.mem_singleton.mp hnew
      exact .inr ⟨rfl, rfl, rfl⟩

theorem registerCollector_keeps (hc : c ∈ collectors) (hother : c.merchantID ≠ merchantID) :
    c ∈ registerCollector uuid merchantID blockchain chainID contractAddress collectors := by
  simp only [registerCollector]
  split
  · refine List.mem_map.mpr ⟨c, hc, if_neg ?_⟩
    rintro ⟨hmerchant, -⟩
    exact hother hmerchant
  · exact List.mem_append_left _ hc

theorem mem_deleteCollector {deleted : List CollectorRow}
    (h : deleteCollector merchantID blockchain collectors = .ok deleted) (hc : c ∈ deleted) :
    ∃ c' ∈ collectors, c'.merchantID = c.merchantID ∧ c'.blockchain = c.blockchain ∧
      c'.contractAddress = c.contractAddress ∧ (c.isActive = true → c'.isActive = true) := by
  rw [deleteCollector] at h
  split at h
  · cases h
    obtain ⟨c', hc', rfl⟩ := List.mem_map.mp hc
    refine ⟨c', hc', ?_⟩
    split
    · exact ⟨rfl, rfl, rfl, fun hactive => by cases hactive⟩
    · exact ⟨rfl, rfl, rfl, fun hactive => hactive⟩
  · cases h

end

theorem lower_lower (s : String) : lower (lower s) = lower s := by
  simp [lower, List.map_map, Function.comp_def, LetterCase.toLower_toLower]

/-- Lower case, unless it is a TRON address. -/
def CollectorRow.Normalized (c : CollectorRow) : Prop :=
  c.blockchain = "TRON" ∨ lower c.contractAddress = c.contractAddress

theorem normalized_registerCollector {uuid : String} {merchantID : Int} {blockchain : String}
    {chainID : Int} {contractAddress : String} {collectors : List CollectorRow}
    (h : ∀ c ∈ collectors, c.Normalized) :
    ∀ c ∈ registerCollector uuid merchantID blockchain chainID contractAddress collectors,
      c.Normalized := by
  intro c hc
  simp only [registerCollector] at hc
  split at hc
  · obtain ⟨c', hc', rfl⟩ := List.mem_map.mp hc
    split
    · rename_i hsame
      by_cases htron : upper blockchain = "TRON"
      · exact .inl (hsame.2.trans htron)
      · right
        simp [htron, lower_lower]
    · exact h c' hc'
  · rcases List.mem_append.mp hc with hold | hnew
    · exact h c hold
    · obtain rfl := List.mem_singleton.mp hnew
      by_cases htron : upper blockchain = "TRON"
      · exact .inl htron
      · right
        simp [htron, lower_lower]

end CryptoLink
