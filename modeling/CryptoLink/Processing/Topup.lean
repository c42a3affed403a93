import CryptoLink.Services.Payments
import CryptoLink.Services.SystemBalances

/-!
# Topups from the system balance

A topup moves money from the operator to a merchant without moving any coins:
the merchant's balance grows and those of the wallets stay. What it takes from
is computed, so there is no row it could lock or decrement. The payment, the
transaction and its confirmation are statements of their own, outside any
database transaction.
-/

namespace CryptoLink

open StatementPrograms

structure TopupInput where
  currency : CryptoCurrency
  amount : Money
  comment : String
  isTest : Bool

structure TopupOut where
  payment : Payment
  transaction : Transaction
  merchantBalance : Balance

def internalPaymentParams (merchantID now : Int) (amount : Money) (isTest : Bool) :
    CreatePaymentParams where
  createdAt := now
  updatedAt := now
  type := .payment
  status := .success
  merchantID := merchantID
  price := amount.value
  decimals := amount.decimals
  currency := amount.ticker
  isTest := isTest
  metadata := MetaData.toJSONB [(Payment.metaInternalPayment, "system topup")]

/-- `payment.Service.CreateSystemTopup`: the payment is successful before there
is a transaction. -/
def createTopupPayment (merchantID : Int) (amount : Money) (isTest : Bool) : Call Payment :=
  if amount.moneyType ≠ .crypto then
    .fail ((Err.of .errValidation).wrap "internal payments should be in crypto")
  else do
    let mt ← ask .pool (.getMerchantByID merchantID)
    let _ ← succeed mt
    let found ← ask .pool (.getPaymentByMerchantIDAndOrderUUID merchantID)
    match found.bind entryToPayment with
    | .ok _ => .fail (Err.new "payment already exists")
    | .error _ => do
        let now ← timeNow
        let pt ← ask .pool (.createPayment (internalPaymentParams merchantID now amount isTest))
        let row ← succeed pt
        succeed (entryToPayment row)

namespace Service

def CreateTransaction.validateForSystemTopup (c : CreateTransaction) : Except Err Unit :=
  if !c.serviceFee.isZero then .error (Err.new "service fee should be empty")
  else if c.currency.ticker ≠ c.amount.ticker then .error (Err.new "invalid currency specified")
  else if c.usdAmount.moneyType ≠ .fiat ∨ c.usdAmount.ticker ≠ "USD" then
    .error (Err.new "invalid usd amount")
  else if c.amount.isZero then .error (Err.new "amount can't be zero")
  else if c.type ≠ .virtual then .error (Err.new "invalid type")
  else if c.entityID = 0 then .error (Err.new "entity id should be present")
  else if c.senderAddress ≠ "" ∨ c.senderWallet.isSome then
    .error (Err.new "sender should be empty")
  else if c.recipientAddress ≠ "" ∨ c.recipientWallet.isSome then
    .error (Err.new "recipient should be empty")
  else if c.transactionHash ≠ "" then .error (Err.new "transaction hash should be empty")
  else .ok ()

def CreateTransaction.systemTopupParams (c : CreateTransaction) (merchantID now : Int)
    (networkCurrency : CryptoCurrency) : CreateTransactionParams where
  merchantID := merchantID
  createdAt := now
  updatedAt := now
  status := .inProgress
  type := c.type
  entityID := if c.entityID ≠ 0 then some c.entityID else none
  senderWalletID := none
  senderAddress := none
  recipientWalletID := none
  recipientAddress := ""
  transactionHash := none
  blockchain := c.currency.blockchain
  networkID := stringToNullable (c.currency.chooseNetwork c.isTest)
  currencyType := c.currency.type
  currency := c.currency.ticker
  decimals := c.amount.decimals
  networkDecimals := networkCurrency.decimals
  amount := c.amount.value
  factAmount := some c.amount.value
  networkFee := some 0
  serviceFee := 0
  usdAmount := c.usdAmount.value
  metadata := MetaData.toJSONB [(Transaction.metaComment, "internal system topup")]
  isTest := c.isTest

/-- Nothing but the status, the amount and the flag is filled in. -/
def topupConfirmation (factAmount : Money) : ConfirmTransaction where
  status := .completed
  senderAddress := ""
  transactionHash := ""
  factAmount := factAmount
  networkFee := Money.zeroValue
  metaData := []
  allowZeroNetworkFee := true

variable (s : Service)

/-- The unexported `createSystemTopup`. -/
def createTopupTransaction (merchantID : Int) (params : CreateTransaction) : Call Transaction := do
  succeed params.validateForSystemTopup
  let networkCurrency ← succeed (wrapErr "unable to get network currency"
    (s.currencies.getNativeCoin params.currency.blockchain))
  let now ← timeNow
  let tx ← ask .pool (.createTransaction (params.systemTopupParams merchantID now networkCurrency))
  let row ← succeed tx
  succeed (s.entryToTransaction row)

/-- `transaction.Service.CreateSystemTopup`: `confirm` on the store itself, not
on a transaction of it. -/
def createSystemTopup (merchantID : Int) (params : CreateTransaction) : Call Transaction := do
  let tx ← (s.createTopupTransaction merchantID params).mapError
    (Err.wrap "unable to create system transaction")
  match tx.factAmount with
  | none => .fail (Err.new "fact amount is nil")
  | some factAmount =>
      (s.confirmOn .pool merchantID tx.id (topupConfirmation factAmount)).mapError
        (Err.wrap "unable to confirm system transaction")

def locateSystemBalance (currency : CryptoCurrency) (isTest : Bool) : Call Balance := do
  let balances ← listAllBalances { withSystemBalances := true }
  match balances.system.find? fun b =>
      b.id.currency = currency.ticker && b.id.networkID = currency.chooseNetwork isTest with
  | some systemBalance => pure systemBalance
  | none => .fail (Err.new "system balance not found")

def topupTransaction (pt : Payment) (input : TopupInput) (usdAmount : Money) :
    CreateTransaction where
  type := .virtual
  entityID := pt.id
  currency := input.currency
  amount := input.amount
  usdAmount := usdAmount
  isTest := input.isTest

/-- A transaction that could not be created or confirmed fails the payment. -/
def failedTopup (pt : Payment) (e : Err) : Call Transaction := do
  let failed ← (failPayment pt).attempt
  match failed with
  | .error errFail =>
      .fail (errFail.wrap "unable to delete internal payment after failed system topup tx")
  | .ok _ => .fail (e.wrap "unable to create internal transaction")

def settleTopup (pt : Payment) : Except Err Transaction → Call Transaction
  | .ok tx => pure tx
  | .error e => failedTopup pt e

def topupMerchantFromSystem (merchantID : Int) (input : TopupInput) : Call TopupOut := do
  let merchant ← ask .pool (.getMerchantByID merchantID)
  let _ ← succeed (wrapErr "unable to find merchant" merchant)
  let systemBalance ← (locateSystemBalance input.currency input.isTest).mapError
    (Err.wrap "unable to find system balance")
  succeed (wrapErr "system balance has no sufficient funds" (systemBalance.covers input.amount))
  let conv ← ask .pool (.cryptoToFiat input.amount "USD")
  let usdAmount ← succeed (wrapErr "unable to convert crypto to USD" conv)
  let pt ← (createTopupPayment merchantID input.amount input.isTest).mapError
    (Err.wrap "unable to create the payment")
  let created ← (s.createSystemTopup merchantID (topupTransaction pt input usdAmount)).attempt
  let tx ← settleTopup pt created
  let balance ← (getMerchantBalance merchantID input.currency.ticker
    (input.currency.chooseNetwork input.isTest)).mapError
      (Err.wrap "unable to get merchants balance")
  pure ⟨pt, tx, balance⟩

end Service

end CryptoLink
