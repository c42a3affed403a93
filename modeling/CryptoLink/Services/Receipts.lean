import CryptoLink.Services.Balances
import CryptoLink.Services.RPC

/-!
# Receipts of EVM transactions

A receipt is made of three answers of one endpoint. An endpoint that refuses
is demoted and the next one asked, three at most. What a library hands back may
lack optional parts; using a missing one is a panic.
-/

namespace CryptoLink

namespace Receipts

open RPC

/-- `toAddress` is `tx.To()`, missing when the transaction creates a contract. -/
structure EthTransaction where
  chainID : Int
  toAddress : Option String
  nonce : ℕ
  deriving DecidableEq, Repr

/-- The answer of a node may lack the price and the block. -/
structure EthReceipt where
  effectiveGasPrice : Option Int
  gasUsed : ℕ
  blockNumber : Option Int
  status : ℕ
  deriving DecidableEq, Repr

structure TransactionReceipt where
  blockchain : Blockchain
  isTest : Bool
  sender : String
  recipient : String
  hash : String
  nonce : ℕ
  networkFee : Money
  success : Bool
  confirmations : Int
  isConfirmed : Bool
  deriving DecidableEq, Repr

def errParse (message : String) : Err := (Err.of .errParse).wrap message

def makeAmountFromBigInt (c : CryptoCurrency) (amount : Option Int) : Except Err Money :=
  match amount with
  | none => .error (errParse "bigInt is nil")
  | some value => .ok (Money.crypto c.ticker value c.decimals)

def multiplyInt64 (m : Money) (factor : Int) : Except Err Money :=
  if factor ≤ 0 then .error (Err.new "multiplier should be greater than zero")
  else .ok { m with value := m.value * factor }

/-- `int64(n)` of an unsigned 64-bit number. -/
def int64 (n : ℕ) : Int := Int.bmod n (2 ^ 64)

/-- A method called on a missing value. -/
def dereference {α : Type} : Option α → Except Err α
  | none => .error (Err.of (.panic "invalid memory address or nil pointer dereference"))
  | some x => .ok x

/-- What an endpoint answered to the three requests for a hash. -/
structure EthAnswer where
  tx : EthTransaction
  receipt : EthReceipt
  blockNumber : ℕ
  deriving DecidableEq, Repr

/-- `getEthReceipt` of the answers, or of the first error among the requests. The
sender is recovered by a library, whose error is its text. -/
def getEthReceipt (recoverSender : Int → EthTransaction → Except String String)
    (nativeCoin : CryptoCurrency) (txID : String) (requiredConfirmations : Int) (isTest : Bool)
    (answers : Except Err EthAnswer) : Except Err TransactionReceipt := do
  let ⟨tx, receipt, num⟩ ← answers
  let latestBlock := int64 num
  let gasPrice ← wrapErr "unable to construct network fee"
    (makeAmountFromBigInt nativeCoin receipt.effectiveGasPrice)
  let networkFee ← wrapErr "unable to calculate network fee"
    (multiplyInt64 gasPrice (int64 receipt.gasUsed))
  let sender ← wrapErr "unable to get sender" ((recoverSender tx.chainID tx).mapError Err.new)
  let minedAt ← dereference receipt.blockNumber
  let confirmations := Int.bmod (latestBlock - Int.bmod minedAt (2 ^ 64)) (2 ^ 64)
  let recipient ← dereference tx.toAddress
  pure {
    blockchain := nativeCoin.blockchain
    isTest := isTest
    sender := sender
    recipient := recipient
    hash := txID
    nonce := tx.nonce
    networkFee := networkFee
    success := receipt.status = 1
    confirmations := confirmations
    isConfirmed := requiredConfirmations ≤ confirmations }

/-- A panic, not an error of the program. -/
def panics {α : Type} : Except Err α → Bool
  | .error ⟨.panic _, _⟩ => true
  | _ => false

/-- A stored transaction that is checked, with what the endpoint answers for its hash. -/
structure Check where
  nativeCoin : CryptoCurrency
  hash : String
  requiredConfirmations : Int
  isTest : Bool
  answer : EthAnswer
  deriving DecidableEq, Repr

/-- The receipts of a batch. Its goroutines recover from nothing, so that one panic
ends the process. -/
def batchReceipts (recoverSender : Int → EthTransaction → Except String String)
    (checks : List Check) : Option (List (Except Err TransactionReceipt)) :=
  let receipts := checks.map fun c =>
    getEthReceipt recoverSender c.nativeCoin c.hash c.requiredConfirmations c.isTest (.ok c.answer)
  if receipts.any panics then none else some receipts

/-- `errors.Is(err, ethereum.NotFound)` tells the two kinds of error apart. -/
inductive Outcome (R : Type) where
  | receipt (r : R)
  | notFound (err : Err)
  | refused (err : Err)
  deriving DecidableEq, Repr

structure Nodes (R : Type) extends Outside where
  outcome : ℕ → String → Outcome R

/-- One request for a receipt, and the health map it was made under. -/
structure Request (R : Type) where
  url : String
  outcome : Outcome R
  health : HealthMap

/-- The state of a lookup, with the requests made so far. -/
structure Lookup (R : Type) where
  provider : Provider
  requests : List (Request R)

def evmReceiptAttempts : ℕ := 3

variable {R : Type}

/-- The loop of `getEVMReceipt` with so many attempts left. -/
def attempts (nodes : Nodes R) (chain : ChainRPC) (isTest : Bool) :
    ℕ → Option Err → Lookup R → (Option R × Option Err) × Lookup R
  | 0, lastErr, l => ((none, lastErr), l)
  | left + 1, lastErr, l =>
    match dialWithFailover nodes.toOutside chain isTest l.provider with
    | (.error err, p) => ((none, some (lastErr.getD err)), { l with provider := p })
    | (.ok url, p) =>
      let outcome := nodes.outcome p.asked url
      let requests := l.requests ++ [⟨url, outcome, p.health⟩]
      match outcome with
      | .receipt r => ((some r, none), ⟨p.tick, requests⟩)
      | .notFound err => ((none, some err), ⟨p.tick, requests⟩)
      | .refused err =>
        attempts nodes chain isTest left (some err)
          ⟨p.tick.demote nodes.toOutside url, requests⟩

def getEVMReceipt (nodes : Nodes R) (chain : ChainRPC) (isTest : Bool) (health : HealthMap) :
    (Option R × Option Err) × Lookup R :=
  attempts nodes chain isTest evmReceiptAttempts none ⟨⟨health, 0⟩, []⟩

end Receipts

end CryptoLink
