import CryptoLink.Processing.Incoming

/-!
# Payment options

What the customer sets up before paying: the currency, which creates the
pending transaction and picks its recipient, and the final lock.
-/

namespace CryptoLink

open ReadCommitted StatementPrograms

namespace Service

variable (s : Service)

/-- The parts of `DetailedPayment` that decide whether a payment can be
locked. -/
structure DetailedPayment where
  payment : Payment
  hasCustomer : Bool
  paymentMethod : Option Transaction

/-- `payment.Service.GetPaymentMethod` -/
def getPaymentMethodOf (pt : Payment) : Call (Option Transaction) := do
  let found ← (s.getLatestByPaymentID pt.id).attempt
  match found with
  | .ok tx =>
      let _ ← succeed (wrapErr "unable to get payment currency"
        (s.currencies.getCurrencyByTicker tx.currency.ticker))
      pure (some tx)
  | .error e =>
      if e.is .errTransactionNotFound then pure none
      else .fail ((e.wrap "unable to get tx by payment id").wrap "unable to get payment method")

def getCustomer (merchantID : Int) : Option Int → Call Unit
  | none => pure ()
  | some id => do
      let person ← ask .pool (.getCustomerByID merchantID id)
      succeed (wrapErr "unable to get customer" person)

def getDetailedPayment (merchantID paymentID : Int) : Call DetailedPayment := do
  let pt ← getPaymentByID merchantID paymentID
  let mt ← ask .pool (.getMerchantByID pt.merchantID)
  let _ ← succeed mt
  getCustomer merchantID pt.customerID
  let method ← s.getPaymentMethodOf pt
  pure ⟨pt, pt.customerID.isSome, method⟩

def lockPaymentOptions (merchantID paymentID : Int) : Call Unit := do
  let details ← (s.getDetailedPayment merchantID paymentID).mapError
    (Err.wrap "unable to get detailed payment")
  if !details.payment.isEditable then pure ()
  else if !details.hasCustomer || details.paymentMethod.isNone then
    .fail (Err.of .errPaymentOptionsMissing)
  else do
    let _ ← (updatePayment merchantID paymentID .locked).mapError
      (Err.wrap "unable to lock payment")
    pure ()

def pendingTransaction (pt : Payment) (currency : CryptoCurrency) (recipientAddress : String)
    (amount serviceFee usdAmount : Money) : CreateTransaction where
  type := .incoming
  entityID := pt.id
  recipientAddress := recipientAddress
  currency := currency
  amount := amount
  serviceFee := serviceFee
  usdAmount := usdAmount
  isTest := pt.isTest

/-- One to 999 of the smallest displayed unit. -/
def generateDustAmount (currency : CryptoCurrency) : Call Money := do
  let drawn ← ask .pool .randomDust
  let n ← succeed (wrapErr "crypto/rand failed" drawn)
  let scale : Int :=
    if currency.maxDisplayDecimals < currency.decimals then
      10 ^ (currency.decimals - currency.maxDisplayDecimals).toNat
    else 1
  pure (currency.makeAmountFromBigInt (n * scale))

def createTransactionWithCollectorAddress (pt : Payment) (currency : CryptoCurrency)
    (collector : CollectorRow) (cryptoAmount cryptoServiceFee usdAmount : Money) :
    Call Transaction := do
  let dust ← (generateDustAmount currency).attempt
  let amount := match dust.bind cryptoAmount.add with
    | .ok withDust => withDust
    | .error _ => cryptoAmount
  (s.create pt.merchantID (pendingTransaction pt currency collector.contractAddress amount
    cryptoServiceFee usdAmount)).mapError
      (Err.wrap "unable to create transaction with collector address")

def createTransactionWithXpubAddress (pt : Payment) (currency : CryptoCurrency)
    (cryptoAmount cryptoServiceFee usdAmount : Money) : Call Transaction := do
  let derived ← ask .pool (.getNextUnusedAddress pt.merchantID currency.blockchain)
  let address ← succeed (wrapErr "unable to get next unused address from xpub wallet" derived)
  let tx ← (s.create pt.merchantID (pendingTransaction pt currency address cryptoAmount
    cryptoServiceFee usdAmount)).mapError
      (Err.wrap "unable to create transaction with xpub address")
  let _ ← ask .pool (.markAddressAsUsed address pt.id)
  pure tx

/-- The merchant's volatility buffer. A failed multiplication falls back to
the plain amount. -/
def applyFeeMarkup (feePositive : Bool) (amount : Money) : Call Money :=
  if feePositive then do
    let multiplied ← ask .pool (.multiplyFloat64 amount)
    pure (match multiplied with | .ok m => m | .error _ => amount)
  else pure amount

def serviceFeeOf (amount : Money) : Call Money :=
  if s.defaultServiceFee then do
    let fee ← ask .pool (.multiplyFloat64 amount)
    succeed (wrapErr "unable to calculate service fee" fee)
  else pure Money.zeroValue

def collectorOf (merchantID : Int) (blockchain : String) : Call (Option CollectorRow) :=
  if s.evmCollector then do
    let found ← ask .pool (.getCollectorByMerchantAndBlockchain merchantID blockchain)
    pure found.toOption
  else pure none

def createIncomingTransaction (pt : Payment) (feePositive : Bool) (currency : CryptoCurrency) :
    Call Transaction := do
  let conv ← ask .pool (.fiatToCrypto pt.price currency)
  let converted ← succeed conv
  let markedUp ← applyFeeMarkup feePositive converted
  let cryptoAmount := markedUp.ceilDecimals currency.maxDisplayDecimals
  let cryptoServiceFee ← s.serviceFeeOf cryptoAmount
  let usd ← ask .pool (.fiatToFiat pt.price "USD")
  let usdAmount ← succeed usd
  let collector ← s.collectorOf pt.merchantID currency.blockchain
  match collector with
  | some collector =>
      s.createTransactionWithCollectorAddress pt currency collector cryptoAmount cryptoServiceFee
        usdAmount
  | none => do
      let wallets ← ask .pool (.listXpubWallets pt.merchantID)
      match wallets with
      | .ok blockchains =>
          if currency.blockchain ∈ blockchains then
            s.createTransactionWithXpubAddress pt currency cryptoAmount cryptoServiceFee usdAmount
          else .fail (noWallet currency.blockchain)
      | .error _ => .fail (noWallet currency.blockchain)
where
  noWallet (blockchain : String) : Err := Err.new ("no wallet configured for " ++ blockchain ++
    ". Merchant must deploy a smart contract collector or set up an xpub wallet.")

def changePaymentMethod (pt : Payment) (feePositive : Bool) (tx : Transaction)
    (currency : CryptoCurrency) : Call Transaction :=
  if tx.recipientWalletID.isNone && tx.recipientAddress = "" then
    .fail (Err.new "wallet id is nil")
  else do
    (cancel tx .cancelled "customer chose another payment method").mapError
      (Err.wrap "unable to mark transaction as canceled")
    s.createIncomingTransaction pt feePositive currency

/-- The unexported `getPaymentMethod`: a known currency the merchant has
enabled. -/
def getPaymentMethod (merchantID : Int) (ticker : String) : Call CryptoCurrency := do
  let currency ← succeed (wrapErr "unable to get currency by ticker"
    (s.currencies.getCurrencyByTicker ticker))
  let supported ← ask .pool (.listSupportedCurrencies merchantID)
  let enabled ← succeed (wrapErr "unable to list merchant currencies" supported)
  if currency.ticker ∈ enabled then pure currency
  else .fail ((Err.of .errCurrencyNotFound).wrap
    ("currency \"" ++ currency.ticker ++ "\" is disabled for merchant"))

/-- What runs under the payment's lock. -/
def chooseMethod (p : Payment) (feePositive : Bool) (currency : CryptoCurrency) :
    Call Transaction := do
  let found ← (s.getLatestByPaymentID p.id).attempt
  match found with
  | .error e =>
      if e.is .errTransactionNotFound then s.createIncomingTransaction p feePositive currency
      else .fail (e.wrap "unable to get latest payment by id")
  | .ok tx =>
      if tx.status = .cancelled then s.createIncomingTransaction p feePositive currency
      else if tx.currency.ticker = currency.ticker ∧ tx.currency.networkID = currency.networkID then
        pure tx
      else s.changePaymentMethod p feePositive tx currency

/-- `SetPaymentMethod` for a payment read earlier. When the lock cannot be
taken, nothing is done and nothing is reported. -/
def setPaymentMethod (p : Payment) (ticker : String) : Call (Option Transaction) :=
  if !p.isEditable then .fail (Err.of .errStatusInvalid)
  else do
    let mt ← ask .pool (.getMerchantByID p.merchantID)
    let feePositive ← succeed (wrapErr "unable to get merchant" mt)
    let currency ← (s.getPaymentMethod p.merchantID ticker).mapError
      (Err.wrap "unable to get payment method")
    let outcome ← (withLock (Err.of .database) (.advisoryTxLock "payments" p.id)
      (s.chooseMethod p feePositive currency).attempt).attempt
    match outcome with
    | .ok (.ok tx) => pure (some tx)
    | .ok (.error e) => .fail e
    | .error _ => pure none

end Service

end CryptoLink
