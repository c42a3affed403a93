import CryptoLink.Watcher.Evm

/-!
# TRON addresses

Every cycle reads the latest twenty transfers of an address again and matches
them in that order; their timestamps are not looked at.
-/

namespace CryptoLink

/-- A transfer as TronGrid lists it. -/
structure AccountTransaction where
  txID : String
  sender : String
  recipient : String
  amount : Int
  success : Bool
  timestamp : Int
  type : String
  tokenAddress : String
  tokenAmount : String
  deriving DecidableEq, Repr

namespace Tron

variable {σ : Type}

/-- The invoice a native transfer is matched to, with the amount. -/
def nativeMatch (addr : String) (pending : List PendingInfo) (rtx : AccountTransaction) :
    Option (ℕ × PendingInfo × Int) :=
  if !rtx.success || rtx.recipient ≠ addr || rtx.amount ≤ 0 then none
  else if rtx.type ≠ "TransferContract" then none
  else match bestMatchByAmount pending rtx.amount with
    | some (bestIdx, info, true) => some (bestIdx, info, rtx.amount)
    | _ => none

/-- `strings.EqualFold`, on addresses. -/
def equalFold (a b : String) : Bool := lower a = lower b

/-- The slots whose invoice is in the token of `contract`, with their
positions. -/
def tokenSlots (isTest : Bool) (contract : String) (pending : List PendingInfo) :
    List (PendingInfo × ℕ) :=
  pending.zipIdx.filter fun p => equalFold (p.1.tx.currency.chooseContractAddress isTest) contract

/-- The invoice a token transfer is matched to: the best one among those in the
token of the first that fits. -/
def tokenMatch (isTest : Bool) (addr : String) (pending : List PendingInfo)
    (rtx : AccountTransaction) : Option (ℕ × PendingInfo × Int) :=
  if rtx.recipient ≠ addr then none
  else match pending.find? fun p =>
      equalFold rtx.tokenAddress (p.tx.currency.chooseContractAddress isTest) with
  | none => none
  | some first =>
    let amount := (Money.setString rtx.tokenAmount).getD 0
    if amount ≤ 0 then none
    else
      let slots := tokenSlots isTest (first.tx.currency.chooseContractAddress isTest) pending
      match bestMatchByAmount (slots.map Prod.fst) amount with
      | some (bestSubIdx, info, true) =>
          slots[bestSubIdx]?.map fun slot => (slot.2, info, amount)
      | _ => none

/-- The slots of one token, without their positions. -/
theorem map_fst_tokenSlots (isTest : Bool) (contract : String) (pending : List PendingInfo) :
    (tokenSlots isTest contract pending).map Prod.fst =
      pending.filter fun p => equalFold (p.tx.currency.chooseContractAddress isTest) contract := by
  have hall : ∀ k, ((pending.zipIdx k).filter fun p => equalFold
      (p.1.tx.currency.chooseContractAddress isTest) contract).map Prod.fst =
        pending.filter fun p =>
          equalFold (p.tx.currency.chooseContractAddress isTest) contract := by
    induction pending with
    | nil => exact fun _ => rfl
    | cons p pending ih =>
      intro k
      rw [List.zipIdx_cons, List.filter_cons, List.filter_cons]
      split
      · rw [List.map_cons, ih]
      · exact ih (k + 1)
  exact hall 0

/-- A token transfer goes to the best of the invoices in its token. -/
theorem tokenMatch_eq {isTest : Bool} {addr : String} {pending : List PendingInfo}
    {rtx : AccountTransaction} (hto : rtx.recipient = addr) {amount : Int}
    (hamount : Money.setString rtx.tokenAmount = some amount) :
    (tokenMatch isTest addr pending rtx).map Prod.snd =
      if amount ≤ 0 then none
      else match bestMatchByAmount (pending.filter fun p =>
          equalFold (p.tx.currency.chooseContractAddress isTest) rtx.tokenAddress) amount with
        | some (_, info, true) => some (info, amount)
        | _ => none := by
  unfold tokenMatch
  rw [if_neg (not_not.mpr hto), hamount]
  simp only [Option.getD_some]
  cases hfind : pending.find? fun p =>
      equalFold rtx.tokenAddress (p.tx.currency.chooseContractAddress isTest) with
  | none =>
    have hnone : (pending.filter fun p =>
        equalFold (p.tx.currency.chooseContractAddress isTest) rtx.tokenAddress) = [] := by
      refine List.filter_eq_nil_iff.mpr fun p hp => ?_
      have hno := List.find?_eq_none.mp hfind p hp
      intro hyes
      refine hno ?_
      simp only [equalFold, decide_eq_true_eq] at hyes ⊢
      exact hyes.symm
    rw [hnone]
    show none = if amount ≤ 0 then none else _
    split
    · rfl
    · rfl
  | some first =>
    have hfirst := List.find?_some hfind
    have hcontract : (fun p : PendingInfo => equalFold (p.tx.currency.chooseContractAddress isTest)
        (first.tx.currency.chooseContractAddress isTest)) =
          fun p => equalFold (p.tx.currency.chooseContractAddress isTest) rtx.tokenAddress := by
      funext p
      simp only [equalFold, decide_eq_true_eq] at hfirst ⊢
      rw [hfirst]
    simp only
    split
    · rfl
    · rw [map_fst_tokenSlots, hcontract]
      cases hbest : bestMatchByAmount (pending.filter fun p =>
          equalFold (p.tx.currency.chooseContractAddress isTest) rtx.tokenAddress) amount with
      | none => rfl
      | some best =>
        obtain ⟨i, info, fits⟩ := best
        cases fits with
        | false => rfl
        | true =>
          obtain ⟨-, hget, -⟩ := bestMatchByAmount_eq_some hbest
          rw [← hcontract, ← map_fst_tokenSlots, List.getElem?_map] at hget
          obtain ⟨slot, hslot, -⟩ := Option.map_eq_some_iff.mp hget
          simp only [hslot, Option.map_some]

/-- The two loops over the listed transfers; `found` is the matching of either. -/
def pollTransfers (isTest : Bool) (addr : String)
    (found : List PendingInfo → AccountTransaction → Option (ℕ × PendingInfo × Int))
    (onDetected : OnDetected σ) : List AccountTransaction → Scan σ → Scan σ
  | [], x => x
  | rtx :: rest, x =>
    if x.pending.isEmpty then x
    else match found x.pending rtx with
      | none => pollTransfers isTest addr found onDetected rest x
      | some (bestIdx, info, amount) =>
          pollTransfers isTest addr found onDetected rest
            (x.handOn onDetected bestIdx info
              (invoiceDetection isTest info rtx.txID rtx.sender addr amount))

/-- A listing of one transfer. -/
theorem state_pollTransfers_single {isTest : Bool} {addr : String}
    {found : List PendingInfo → AccountTransaction → Option (ℕ × PendingInfo × Int)}
    {onDetected : OnDetected σ} {rtx : AccountTransaction} (hnone : found [] rtx = none)
    (x : Scan σ) :
    (pollTransfers isTest addr found onDetected [rtx] x).state =
      match (found x.pending rtx).map Prod.snd with
      | none => x.state
      | some (info, amount) =>
          (onDetected (invoiceDetection isTest info rtx.txID rtx.sender addr amount)
            x.state).2 := by
  unfold pollTransfers
  by_cases hempty : x.pending.isEmpty = true
  · have hnil : x.pending = [] := List.isEmpty_iff.mp hempty
    rw [if_pos hempty, hnil, hnone]
    rfl
  · rw [if_neg hempty]
    cases hfound : found x.pending rtx with
    | none => rfl
    | some best =>
      obtain ⟨bestIdx, info, amount⟩ := best
      exact Scan.state_handOn

/-- A listing that fails leaves every invoice of the address for the next
cycle. -/
def unlisted (x : Scan σ) : Scan σ :=
  { x with failedIDs := x.failedIDs ++ x.pending.map fun p => p.tx.id }

def pollTRONNativeForAddress (isTest : Bool) (addr : String) (onDetected : OnDetected σ)
    (recentTxs : Except Err (List AccountTransaction)) (x : Scan σ) : Scan σ :=
  match recentTxs with
  | .error _ => unlisted x
  | .ok txs => pollTransfers isTest addr (nativeMatch addr) onDetected txs x

def pollTRONTokenForAddress (isTest : Bool) (addr : String) (onDetected : OnDetected σ)
    (recentTxs : Except Err (List AccountTransaction)) (x : Scan σ) : Scan σ :=
  match recentTxs with
  | .error _ => unlisted x
  | .ok txs => pollTransfers isTest addr (tokenMatch isTest addr) onDetected txs x

/-- What TronGrid answers during one cycle. -/
structure Client where
  accountTransactions : String → Except Err (List AccountTransaction)
  trc20Transactions : String → Except Err (List AccountTransaction)

/-- The slots of one cycle, by address and whether they wait for the coin. -/
abbrev Groups := List ((String × Bool) × List PendingInfo)

def group (sums : Int → Option Int) (m : Groups) (tx : Transaction) : Groups :=
  match Evm.getRecipientAddress tx with
  | none => m
  | some addr =>
    let info : PendingInfo := ⟨tx, tx.recipientWalletID, computeRemaining sums tx⟩
    Evm.upsert [] (fun pending => pending ++ [info]) (addr, decide (tx.currency.type = .coin)) m

def pollGroup (isTest : Bool) (client : Client) (onDetected : OnDetected σ) (x : Scan σ) :
    (String × Bool) × List PendingInfo → Scan σ
  | ((addr, true), pending) =>
      pollTRONNativeForAddress isTest addr onDetected (client.accountTransactions addr)
        { x with pending := pending }
  | ((addr, false), pending) =>
      pollTRONTokenForAddress isTest addr onDetected (client.trc20Transactions addr)
        { x with pending := pending }

/-- `pollTRONTransactions`; nothing is polled without a provider. -/
def pollTRONTransactions (isTest : Bool) (client : Option Client) (onDetected : OnDetected σ)
    (sums : Int → Option Int) (txs : List Transaction) (state : σ) : Scan σ :=
  match client with
  | none => .start [] state
  | some client =>
      (txs.foldl (group sums) []).foldl (pollGroup isTest client onDetected) (.start [] state)

end Tron

end CryptoLink
