import CryptoLink.Library.KeyedTables
import CryptoLink.Money

/-!
# The tables

Rows of `transactions`, `transaction_fills`, `payments`, `balances` and
`balance_audit_log`, with the columns the payment flow reads or writes.
Identifiers are the 64-bit keys of the source read as integers; times are
nanoseconds. A fill and a balance are named by their unique constraint, which
picks out the same row as their surrogate id.
-/

namespace CryptoLink

open KeyedTables

/-- A JSON object of strings; assigning a present key replaces its value. -/
abbrev MetaData := List (String × String)

namespace MetaData

def set (m : MetaData) (k v : String) : MetaData :=
  if m.any (fun p => p.1 = k) then m.map fun p => if p.1 = k then (k, v) else p
  else m ++ [(k, v)]

def find (m : MetaData) (k : String) : Option String :=
  (m.find? fun p => p.1 = k).map Prod.snd

def merge (m n : MetaData) : MetaData :=
  n.foldl (fun acc p => acc.set p.1 p.2) m

/-- An empty map is stored as NULL. -/
def toJSONB (m : MetaData) : Option MetaData :=
  if m.isEmpty then none else some m

theorem find_set_of_ne {m : MetaData} {k k' v : String} (h : k' ≠ k) :
    (m.set k v).find k' = m.find k' := by
  unfold set
  split
  · have hmap : ∀ l : MetaData,
        find (l.map fun p => if p.1 = k then (k, v) else p) k' = find l k' := by
      intro l
      induction l with
      | nil => rfl
      | cons p l ih =>
        simp only [find, List.map_cons, List.find?_cons] at ih ⊢
        by_cases hp : p.1 = k
        · simpa [hp, h.symm] using ih
        · simp only [if_neg hp]
          cases decide (p.1 = k') with
          | true => rfl
          | false => exact ih
    exact hmap m
  · rw [find, List.find?_append]
    simp [find, h.symm]

theorem find_set (m : MetaData) (k v : String) : (m.set k v).find k = some v := by
  rw [set]
  split
  · rename_i hany
    induction m with
    | nil => cases hany
    | cons p m ih =>
      by_cases hp : p.1 = k
      · simp [find, hp]
      · have hrest : m.any (fun p => p.1 = k) = true := by simpa [hp] using hany
        simpa [find, hp] using ih hrest
  · rename_i hnone
    have hmissing : m.find? (fun p => p.1 = k) = none := by
      refine List.find?_eq_none.mpr ?_
      intro p hp hkey
      exact hnone (List.any_eq_true.mpr ⟨p, hp, hkey⟩)
    simp [find, List.find?_append, hmissing]

theorem find_toJSONB (m : MetaData) (k : String) : (m.toJSONB.getD []).find k = m.find k := by
  unfold toJSONB
  split
  · rename_i h
    rw [List.isEmpty_iff.mp h]
    rfl
  · rfl

end MetaData

namespace Transaction

inductive Status where
  | pending
  | inProgress
  | inProgressInvalid
  | completed
  | completedInvalid
  | cancelled
  | failed
  deriving DecidableEq, Repr

inductive Kind where
  | incoming
  | internal
  | withdrawal
  | virtual
  deriving DecidableEq, Repr

end Transaction

structure TransactionRow where
  id : Int
  createdAt : Int
  updatedAt : Int
  merchantID : Int
  status : Transaction.Status
  type : Transaction.Kind
  entityID : Option Int
  recipientWalletID : Option Int
  senderAddress : Option String
  recipientAddress : String
  transactionHash : Option String
  blockchain : String
  currencyType : CryptoCurrencyType
  currency : String
  decimals : Int
  networkDecimals : Int
  amount : Int
  factAmount : Option Int
  networkFee : Option Int
  serviceFee : Int
  usdAmount : Int
  metadata : Option MetaData
  networkID : Option String
  isTest : Bool
  senderWalletID : Option Int
  deriving DecidableEq, Repr

inductive FillStatus where
  | observed
  | confirmed
  | reorged
  deriving DecidableEq, Repr

structure FillKey where
  transactionID : Int
  networkID : String
  transactionHash : String
  voutOrLogIdx : Int
  deriving DecidableEq, Repr

structure FillRow where
  key : FillKey
  amount : Int
  senderAddress : Option String
  blockNumber : Option Int
  confirmations : Int
  status : FillStatus
  observedAt : Int
  confirmedAt : Option Int
  deriving DecidableEq, Repr

namespace Payment

/-- `partialPaid` is the source's `partial`. -/
inductive Status where
  | pending
  | locked
  | partialPaid
  | inProgress
  | underpaid
  | success
  | failed
  deriving DecidableEq, Repr

inductive Kind where
  | payment
  | withdrawal
  deriving DecidableEq, Repr

def Status.string : Status → String
  | pending => "pending"
  | locked => "locked"
  | partialPaid => "partial"
  | inProgress => "inProgress"
  | underpaid => "underpaid"
  | success => "success"
  | failed => "failed"

def Kind.string : Kind → String
  | payment => "payment"
  | withdrawal => "withdrawal"

end Payment

structure PaymentRow where
  id : Int
  createdAt : Int
  updatedAt : Int
  type : Payment.Kind
  status : Payment.Status
  merchantID : Int
  expiresAt : Option Int
  originalExpiresAt : Option Int
  price : Int
  decimals : Int
  currency : String
  customerID : Option Int
  isTest : Bool
  metadata : Option MetaData
  deriving DecidableEq, Repr

/-- `unset` is the empty string of an entity type never filled in. -/
inductive EntityType where
  | unset
  | merchant
  | wallet
  | system
  deriving DecidableEq, Repr

structure BalanceKey where
  entityType : EntityType
  entityID : Int
  network : String
  networkID : String
  currency : String
  deriving DecidableEq, Repr

structure BalanceRow where
  key : BalanceKey
  createdAt : Int
  updatedAt : Int
  currencyType : CryptoCurrencyType
  decimals : Int
  amount : Int
  deriving DecidableEq, Repr

structure AuditRow where
  createdAt : Int
  balance : BalanceKey
  comment : String
  metadata : Option MetaData
  deriving DecidableEq, Repr

/-- A value transfer as the scanners can see it: an output, an event log or a
top-level value. -/
structure ChainTransfer where
  recipient : String
  currency : String
  amount : Int
  deriving DecidableEq, Repr

/-- A mined transaction: whether it succeeded, how deep it lies, what it cost
and what it moved. -/
structure ChainTx where
  blockchain : Blockchain
  isTest : Bool
  hash : String
  sender : String
  success : Bool
  confirmations : Int
  networkFee : Int
  transfers : List ChainTransfer
  deriving DecidableEq, Repr

/-- A row of `evm_collector_wallets`. -/
structure CollectorRow where
  uuid : String
  merchantID : Int
  blockchain : String
  chainID : Int
  contractAddress : String
  isActive : Bool
  deriving DecidableEq, Repr

/-- A row of `derived_addresses`. -/
structure DerivedAddressRow where
  uuid : String
  merchantID : Int
  blockchain : String
  address : String
  deriving DecidableEq, Repr

structure World where
  transactions : Table Int TransactionRow TransactionRow.id
  nextTransactionID : Int
  fills : Table FillKey FillRow FillRow.key
  payments : Table Int PaymentRow PaymentRow.id
  balances : Table BalanceKey BalanceRow BalanceRow.key
  auditLog : List AuditRow
  collectors : List CollectorRow
  derivedAddresses : List DerivedAddressRow
  chain : List ChainTx

end CryptoLink
