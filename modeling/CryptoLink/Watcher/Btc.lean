import CryptoLink.Watcher.Evm

/-!
# Bitcoin addresses

An address is watched by its confirmed balance. What the balance grew by since
the last poll is taken for one transfer, under the hash of the first confirmed
transaction of the address's history.
-/

namespace CryptoLink

namespace Btc

structure TxIO where
  address : String
  value : Int
  deriving DecidableEq, Repr

structure TransactionInfo where
  txID : String
  confirmed : Bool
  inputs : List TxIO
  outputs : List TxIO
  deriving DecidableEq, Repr

/-- What the node answers during one cycle: the confirmed balance of an address
and its recent history, newest first. -/
structure Provider where
  addressInfo : String → Except Err Int
  recentTransactions : String → Except Err (List TransactionInfo)

def cacheKey (addr : String) (isTest : Bool) : String :=
  addr ++ (":" ++ if isTest then "test" else "main")

/-- The hash and the sender found in a history; an empty hash does not end the
search. -/
def findTransfer (addr : String) : List TransactionInfo → String × String → String × String
  | [], found => found
  | rtx :: rest, found =>
    if !rtx.confirmed then findTransfer addr rest found
    else if rtx.outputs.any fun out => out.address = addr && 0 < out.value then
      let sender := match rtx.inputs with
        | input :: _ => if input.address ≠ "" then input.address else found.2
        | [] => found.2
      if rtx.txID ≠ "" then (rtx.txID, sender) else findTransfer addr rest (rtx.txID, sender)
    else findTransfer addr rest found

def Provider.transfer (p : Provider) (addr : String) : String × String :=
  match p.recentTransactions addr with
  | .ok recentTxs => findTransfer addr recentTxs ("", "")
  | .error _ => ("", "")

/-- A sender that cannot be read off the history. -/
def senderOr (sender : String) : String := if sender = "" then "unknown" else sender

variable {σ : Type}

/-- What a poll carries along: the last balances, its two results, and the
state behind the callback. -/
structure BalanceScan (σ : Type) where
  lastBTCBalance : String → Option Int
  detected : Int
  failedIDs : List Int
  state : σ

namespace BalanceScan

def lastBalance (x : BalanceScan σ) (key : String) : Int := (x.lastBTCBalance key).getD 0

def store (x : BalanceScan σ) (key : String) (balance : Int) : BalanceScan σ :=
  { x with lastBTCBalance := fun k => if k = key then some balance else x.lastBTCBalance k }

def fail (x : BalanceScan σ) (id : Int) : BalanceScan σ :=
  { x with failedIDs := x.failedIDs ++ [id] }

/-- The callback runs on a detection; the stored balance stays as it is even if
the callback returns an error. -/
def handOn (x : BalanceScan σ) (onDetected : OnDetected σ) (id : Int) (d : DetectedTransfer) :
    BalanceScan σ :=
  let result := onDetected d x.state
  if result.1 then { x with detected := x.detected + 1, state := result.2 }
  else { x with failedIDs := x.failedIDs ++ [id], state := result.2 }

@[simp] theorem lastBalance_store (x : BalanceScan σ) (key : String) (balance : Int) :
    (x.store key balance).lastBalance key = balance := by
  simp [lastBalance, store]

@[simp] theorem state_store (x : BalanceScan σ) (key : String) (balance : Int) :
    (x.store key balance).state = x.state := rfl

@[simp] theorem lastBalance_handOn (x : BalanceScan σ) (onDetected : OnDetected σ) (id : Int)
    (d : DetectedTransfer) (key : String) :
    (x.handOn onDetected id d).lastBalance key = x.lastBalance key := by
  simp only [handOn]
  split <;> rfl

@[simp] theorem state_handOn (x : BalanceScan σ) (onDetected : OnDetected σ) (id : Int)
    (d : DetectedTransfer) : (x.handOn onDetected id d).state = (onDetected d x.state).2 := by
  simp only [handOn]
  split <;> rfl

end BalanceScan

/-- The transfer a grown balance is taken for. -/
def grownBy (isTest : Bool) (tx : Transaction) (addr txHash sender : String) (amount : Int) :
    DetectedTransfer :=
  invoiceDetection isTest ⟨tx, tx.recipientWalletID, none⟩ txHash (senderOr sender) addr amount

/-- One invoice. The balance is stored before anything is done about it, and put
back if no hash is found. -/
def pollAddress (isTest : Bool) (provider : Provider) (onDetected : OnDetected σ)
    (x : BalanceScan σ) (tx : Transaction) : BalanceScan σ :=
  match Evm.getRecipientAddress tx with
  | none => x
  | some addr =>
    match provider.addressInfo addr with
    | .error _ => x.fail tx.id
    | .ok currentBalance =>
      let key := cacheKey addr isTest
      let lastBalance := x.lastBalance key
      let y := x.store key currentBalance
      if currentBalance ≤ lastBalance then y
      else if (provider.transfer addr).1 = "" then y.store key lastBalance
      else y.handOn onDetected tx.id (grownBy isTest tx addr (provider.transfer addr).1
        (provider.transfer addr).2 (currentBalance - lastBalance))

section

variable {isTest : Bool} {provider : Provider} {onDetected : OnDetected σ} {x : BalanceScan σ}
  {tx : Transaction}

theorem pollAddress_unreachable {e : Err} (haddr : tx.recipientAddress ≠ "")
    (h : provider.addressInfo tx.recipientAddress = .error e) :
    pollAddress isTest provider onDetected x tx = x.fail tx.id := by
  simp only [pollAddress, Evm.getRecipientAddress, if_neg haddr, h]

theorem pollAddress_answered {current : Int} (haddr : tx.recipientAddress ≠ "")
    (h : provider.addressInfo tx.recipientAddress = .ok current) :
    pollAddress isTest provider onDetected x tx =
      if current ≤ x.lastBalance (cacheKey tx.recipientAddress isTest) then
        x.store (cacheKey tx.recipientAddress isTest) current
      else if (provider.transfer tx.recipientAddress).1 = "" then
        (x.store (cacheKey tx.recipientAddress isTest) current).store
          (cacheKey tx.recipientAddress isTest)
          (x.lastBalance (cacheKey tx.recipientAddress isTest))
      else (x.store (cacheKey tx.recipientAddress isTest) current).handOn onDetected tx.id
        (grownBy isTest tx tx.recipientAddress (provider.transfer tx.recipientAddress).1
          (provider.transfer tx.recipientAddress).2
          (current - x.lastBalance (cacheKey tx.recipientAddress isTest))) := by
  simp only [pollAddress, Evm.getRecipientAddress, if_neg haddr, h]

end

def pollBTCTransactions (isTest : Bool) (provider : Provider) (onDetected : OnDetected σ)
    (txs : List Transaction) (lastBTCBalance : String → Option Int) (state : σ) : BalanceScan σ :=
  txs.foldl (pollAddress isTest provider onDetected) ⟨lastBTCBalance, 0, [], state⟩

theorem cacheKey_inj {a b : String} {isTest : Bool} (h : cacheKey a isTest = cacheKey b isTest) :
    a = b := by
  unfold cacheKey at h
  have hlists := congrArg String.toList h
  simp only [String.toList_append] at hlists
  exact String.toList_inj.mp (List.append_cancel_right hlists)

end Btc

end CryptoLink
