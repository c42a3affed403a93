import CryptoLink.Services.Payments

/-!
# Incoming transfers

From one detected transfer to a paid invoice: the partial-fill aggregation,
the promotion, the receipt poller, expiry, the reorg recheck and the manual
reconciliation.
-/

namespace CryptoLink

open ReadCommitted StatementPrograms

structure Input where
  currency : CryptoCurrency
  amount : Money
  senderAddress : String
  transactionID : String
  networkID : String
  deriving DecidableEq, Repr

def Input.validate (i : Input) : Except Err Unit :=
  let invalid (message : String) : Except Err Unit :=
    .error ((Err.of .errInvalidInput).wrap message)
  if i.currency.ticker = "" then invalid "missing currency"
  else if i.amount.ticker = "" then invalid "missing amount"
  else if i.senderAddress = "" then invalid "missing SenderAddress"
  else if i.transactionID = "" then invalid "missing TransactionID"
  else if i.networkID = "" then invalid "missing networkID"
  else .ok ()

/-- `money.USD.MakeAmount("10")` -/
def tenCents : Money := ⟨.fiat, "USD", 10, 2⟩

def hours (n : Int) : Int := n * World.hour

/-- `inProgressTimeout` -/
def inProgressTimeout : Int := hours 24

/-- `reorgGracePeriod` -/
def reorgGracePeriod : Int := 30 * minute

/-- `gracePeriod`, the time a locked payment gets past its expiration. -/
def gracePeriod : Int := 30 * minute

def revertReason : String := "transaction reverted on chain"

namespace Service

variable (s : Service)

/-- At or above the invoice, give or take ten cents. -/
def crossesExpected (tx : Transaction) (received : Money) : Call Bool :=
  if received.greaterThanOrEqual tx.amount then pure true
  else do
    let conv ← ask .pool (.fiatToCrypto tenCents tx.currency)
    let tolerance ← succeed conv
    let withTolerance ← succeed (received.add tolerance)
    pure (withTolerance.greaterThanOrEqual tx.amount)

/-- The row both branches write: output index 0, no block number, confirmed on
sight. -/
def recordInput (tx : Transaction) (input : Input) : Call Fill :=
  recordFill tx input.networkID input.transactionID 0 input.amount input.senderAddress 0 1
    .confirmed

def recordPartialFill (tx : Transaction) (input : Input) : Call Unit := do
  let _ ← (recordInput tx input).mapError (Err.wrap "unable to record partial fill")
  let _ ← (markPartial tx.merchantID tx.entityID).mapError
    (Err.wrap "unable to mark payment partial")
  pure ()

/-- The status and metadata `promoteFromPartial` hands to `Receive`. -/
def determineIncomingStatusFromCombined (tx : Transaction) (combined : Money) :
    Call (Transaction.Status × MetaData) :=
  if combined.greaterThan tx.amount then
    pure (.inProgress, tx.metaData.set Transaction.metaComment
      "cumulative incoming amount is higher than expected")
  else if combined.equals tx.amount then pure (.inProgress, tx.metaData)
  else do
    let crosses ← crossesExpected tx combined
    if crosses then pure (.inProgress, tx.metaData)
    else pure (.inProgressInvalid, tx.metaData.set Transaction.metaErrorReason
      "cumulative incoming amount is less than expected")

def promoteFromPartial (tx : Transaction) (input : Input) (combined : Money) : Call Unit := do
  let determined ← determineIncomingStatusFromCombined tx combined
  let _ ← (recordInput tx input).mapError (Err.wrap "unable to record finalizing fill")
  let received ← (s.receive tx.merchantID tx.id {
    status := determined.1
    senderAddress := input.senderAddress
    transactionHash := input.transactionID
    factAmount := combined
    metaData := determined.2 }).mapError (Err.wrap "unable to update transaction")
  if received.status = .inProgress then do
    let pt ← (getPaymentByID received.merchantID received.entityID).mapError
      (Err.wrap "unable to get payment")
    let _ ← (updatePayment received.merchantID pt.id .inProgress).mapError
      (Err.wrap "unable to update payment")
    pure ()
  else pure ()

def processInboundTransaction (tx : Transaction) (input : Input) : Call Unit := do
  succeed input.validate
  let prevConfirmed ← (sumConfirmedFills tx).mapError (Err.wrap "unable to sum confirmed fills")
  let combined ← succeed (wrapErr "unable to combine fills" (prevConfirmed.add input.amount))
  let crosses ← (crossesExpected tx combined).mapError
    (Err.wrap "unable to evaluate combined amount vs expected")
  if crosses then s.promoteFromPartial tx input combined else recordPartialFill tx input

/-- `AdminReconcileFill`. The merchant id is only logged. -/
def adminReconcileFill (paymentID : Int) (txHash rawAmount senderAddress : String) :
    Call Unit := do
  let tx ← (s.getLatestByPaymentID paymentID).mapError
    (Err.wrap "unable to get latest transaction for payment")
  match Money.setString rawAmount with
  | none => .fail (Err.new "invalid amount: must be smallest-unit decimal string")
  | some amountInt =>
      s.processInboundTransaction tx {
        currency := tx.currency
        amount := Money.crypto tx.amount.ticker amountInt tx.amount.decimals
        senderAddress := if senderAddress = "" then "admin-reconcile" else senderAddress
        transactionID := txHash
        networkID := tx.networkID }

structure TransactionReceipt where
  sender : String
  hash : String
  networkFee : Money
  success : Bool
  confirmations : Int
  isConfirmed : Bool
  deriving DecidableEq, Repr

def requiredConfirmations (blockchain : Blockchain) : Option Int :=
  if blockchain = "ETH" then some 12
  else if blockchain = "MATIC" then some 30
  else if blockchain = "BSC" then some 15
  else if blockchain = "ARBITRUM" then some 20
  else if blockchain = "AVAX" then some 20
  else if blockchain = "TRON" then some 10
  else if blockchain = "BTC" then some 2
  else none

def getTransactionReceipt (blockchain : Blockchain) (transactionID : String) (isTest : Bool) :
    Call TransactionReceipt := do
  let nativeCoin ← succeed (wrapErr ("native coin for \"" ++ blockchain ++ "\" is not found")
    (s.currencies.getNativeCoin blockchain))
  match requiredConfirmations blockchain with
  | none => .fail (Err.new "unknown blockchain")
  | some required => do
      let fetched ← ask .pool (.fetchTransaction blockchain transactionID isTest)
      let c ← succeed fetched
      pure {
        sender := c.sender
        hash := transactionID
        networkFee := nativeCoin.makeAmountFromBigInt c.networkFee
        success := c.success
        confirmations := c.confirmations
        isConfirmed := decide (required ≤ c.confirmations) }

def settledStatus (tx : Transaction) : Transaction.Status :=
  if tx.status = .inProgressInvalid then .completedInvalid else .completed

/-- An underpayment confirmed on chain is the merchant's to accept or decline. -/
def settledPaymentStatus (tx : Transaction) : Payment.Status :=
  if tx.status = .inProgressInvalid then .underpaid else .success

def confirmation (tx : Transaction) (senderAddress hash : String) (factAmount : Money)
    (receipt : TransactionReceipt) : ConfirmTransaction where
  status := settledStatus tx
  senderAddress := senderAddress
  transactionHash := hash
  factAmount := factAmount
  networkFee := receipt.networkFee
  metaData := tx.metaData
  allowZeroNetworkFee := true

def confirmIncomingTransaction (tx : Transaction) (senderAddress hash : String)
    (receipt : TransactionReceipt) : Call Unit :=
  match tx.factAmount with
  | none => .fail (Err.of (.panic "nil pointer dereference"))
  | some factAmount => do
      let confirmed ← (s.confirm tx.merchantID tx.id
        (confirmation tx senderAddress hash factAmount receipt)).mapError
          (Err.wrap "unable to confirm transaction")
      if confirmed.merchantID = Transaction.systemMerchantID then pure ()
      else do
        let pt ← (getPaymentByID confirmed.merchantID confirmed.entityID).mapError
          (Err.wrap "unable to get payment")
        let _ ← (updatePayment confirmed.merchantID pt.id (settledPaymentStatus tx)).mapError
          (Err.wrap "unable to update payment")
        if settledPaymentStatus tx = .success ∧ s.subscriptions = true then do
          -- a failed increment is only logged
          let _ ← ask .pool (.incrementPaymentUsage confirmed.merchantID confirmed.usdAmount.value)
          pure ()
        else pure ()

def cancelIncomingTransaction (tx : Transaction) : Call Unit := do
  (cancel tx .failed revertReason).mapError (Err.wrap "unable to cancel transaction")
  if tx.merchantID = Transaction.systemMerchantID then pure ()
  else do
    let _ ← (updatePayment tx.merchantID tx.entityID .failed).mapError
      (Err.wrap "unable to update payment")
    pure ()

/-- What is left once the receipt of the stored hash is known, or is known to
be out of reach. -/
def settle (tx : Transaction) (senderAddress hash : String)
    (receipt : Except Err TransactionReceipt) : Call Unit :=
  match receipt with
  | .error e => do
      let now ← timeNow
      if inProgressTimeout < now - tx.updatedAt then cancelIncomingTransaction tx
      else .fail (e.wrap "unable to get transaction receipt")
  | .ok receipt =>
      if receipt.isConfirmed then
        if receipt.success then s.confirmIncomingTransaction tx senderAddress hash receipt
        else cancelIncomingTransaction tx
      else do
        let now ← timeNow
        if inProgressTimeout < now - tx.updatedAt then cancelIncomingTransaction tx
        else pure ()

def checkIncomingTransaction (txID : Int) : Call Unit := do
  let tx ← (s.getTransactionByID Transaction.merchantIDWildcard txID).mapError
    (Err.wrap "unable to get transaction")
  if tx.type ≠ .incoming then .fail (Err.new "invalid transaction type")
  else match tx.hashID with
  | none => .fail (Err.new "empty transaction hash")
  | some hash =>
    match tx.senderAddress with
    | none => .fail (Err.new "empty sender address")
    | some senderAddress =>
      if tx.recipientWalletID.isNone && tx.recipientAddress = "" then
        .fail (Err.new "empty recipient wallet id and address")
      else if tx.isInProgress then do
        let receipt ← (s.getTransactionReceipt tx.currency.blockchain hash tx.isTest).attempt
        s.settle tx senderAddress hash receipt
      else pure ()

def firstFillHash (tx : Transaction) : Call String := do
  let fills ← (listFills tx).attempt
  match fills with
  | .ok (f :: _) => pure f.id.transactionHash
  | _ => pure ""

def firstFillSender (tx : Transaction) : Call String := do
  let fills ← (listFills tx).attempt
  match fills with
  | .ok (f :: _) => pure (f.senderAddress.getD "")
  | _ => pure ""

/-- Only an absent transaction is no error. -/
def findLatestByPaymentID (paymentID : Int) : Call (Option Transaction) := do
  let found ← (s.getLatestByPaymentID paymentID).attempt
  match found with
  | .ok tx => pure (some tx)
  | .error e =>
      if e.is .errTransactionNotFound then pure none
      else .fail (e.wrap "unable to get transaction")

def inGracePeriod (pt : Payment) (tx : Option Transaction) : Call Bool :=
  match tx, pt.expiresAt with
  | some tx, some expiresAt =>
      if tx.status = .pending ∧ (pt.status = .locked ∨ pt.status = .partialPaid) then do
        let now ← timeNow
        pure (decide (now - expiresAt < gracePeriod))
      else pure false
  | _, _ => pure false

/-- A failed sum counts as zero. -/
def confirmedSumOrZero (tx : Transaction) : Call Money := do
  let sum ← (sumConfirmedFills tx).attempt
  match sum with
  | .ok m => pure m
  | .error _ => pure Money.zeroValue

def cancelUnlessCancelled (tx : Option Transaction) (reason message : String) : Call Unit :=
  match tx with
  | none => pure ()
  | some tx =>
      if tx.status = .cancelled then pure ()
      else (cancel tx .cancelled reason).mapError (Err.wrap message)

/-- The transaction of an expired payment that did receive something. A
failure is only logged. -/
def markUnderpaidTransaction (tx : Transaction) (confirmedSum : Money) : Call Unit := do
  let senderAddress ← firstFillSender tx
  let hash ← firstFillHash tx
  let _ ← (s.receive tx.merchantID tx.id {
    status := .inProgressInvalid
    senderAddress := senderAddress
    transactionHash := hash
    factAmount := confirmedSum
    metaData := tx.metaData }).attempt
  pure ()

def expireUnpaid (pt : Payment) (tx : Option Transaction) : Call Unit := do
  cancelUnlessCancelled tx "payment expired (partial, zero confirmed)"
    "unable to cancel partial-zero transaction"
  (failPayment pt).mapError (Err.wrap "unable to fail partial-zero payment")

def expirePartial (pt : Payment) : Option Transaction → Call Unit
  | none => expireUnpaid pt none
  | some tx => do
      let confirmedSum ← confirmedSumOrZero tx
      if confirmedSum.isZero then expireUnpaid pt (some tx)
      else do
        s.markUnderpaidTransaction tx confirmedSum
        let _ ← (updatePayment pt.merchantID pt.id .underpaid).mapError
          (Err.wrap "unable to mark partial payment as underpaid on expiry")
        pure ()

def expirePayment (paymentID : Int) : Call Unit := do
  let pt ← (getPaymentByID Transaction.merchantIDWildcard paymentID).mapError
    (Err.wrap "unable to get payment")
  if pt.type ≠ .payment then
    .fail (Err.new ("invalid payment type \"" ++ pt.type.string ++ "\""))
  else if pt.status ≠ .pending ∧ pt.status ≠ .locked ∧ pt.status ≠ .partialPaid then
    .fail (Err.new ("invalid payment status \"" ++ pt.status.string ++ "\""))
  else do
    let tx ← s.findLatestByPaymentID pt.id
    let waiting ← inGracePeriod pt tx
    if waiting then pure ()
    else if pt.status = .partialPaid then s.expirePartial pt tx
    else do
      cancelUnlessCancelled tx "payment expired" "unable to cancel transaction"
      (failPayment pt).mapError (Err.wrap "unable to expire payment")

def offChain (receipt : Except Err TransactionReceipt) : Bool :=
  match receipt with
  | .error _ => true
  | .ok r => !r.isConfirmed

def recheckFill (tx : Transaction) (now : Int) (f : Fill) : Call Unit :=
  if f.status ≠ .confirmed then pure ()
  else if now - f.observedAt < reorgGracePeriod then pure ()
  else do
    let receipt ← (s.getTransactionReceipt tx.currency.blockchain f.id.transactionHash
      tx.isTest).attempt
    if offChain receipt then do
      let _ ← (markFillReorged f.id).attempt
      pure ()
    else pure ()

def recheckTransaction (now txID : Int) : Call Unit := do
  let found ← (s.getTransactionByID Transaction.merchantIDWildcard txID).attempt
  match found with
  | .error _ => pure ()
  | .ok tx => do
      let fills ← (listFills tx).attempt
      match fills with
      | .error _ => pure ()
      | .ok fills => Prog.each (s.recheckFill tx now) fills

def recheckPartialFills : Call Unit := do
  let txIDs ← (listPartialPaymentTxIDs).mapError
    (Err.wrap "unable to list partial-payment tx ids")
  match txIDs with
  | [] => pure ()
  | txIDs => do
      let now ← timeNow
      Prog.each (s.recheckTransaction now) txIDs

end Service

end CryptoLink
