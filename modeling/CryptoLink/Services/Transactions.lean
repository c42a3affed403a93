import CryptoLink.Services.Balances

/-!
# Transactions and their fills

`Receive`, `Confirm` and `Cancel` read the row without a lock and write it
without a condition on its status. `Confirm` also changes the ledger, in the
same database transaction as the row.
-/

namespace CryptoLink

open ReadCommitted StatementPrograms

namespace Transaction

/-- `MerchantIDWildcard` -/
def merchantIDWildcard : Int := -1

/-- `SystemMerchantID` -/
def systemMerchantID : Int := 0

def metaComment : String := "comment"
def metaErrorReason : String := "errorReason"
def metaTransactionID : String := "transactionId"
def metaRecipientWalletID : String := "recipientWalletId"
def metaMerchantID : String := "merchantId"

end Transaction

structure Transaction where
  id : Int
  createdAt : Int
  updatedAt : Int
  merchantID : Int
  recipientAddress : String
  recipientWalletID : Option Int
  senderAddress : Option String
  senderWalletID : Option Int
  hashID : Option String
  type : Transaction.Kind
  entityID : Int
  status : Transaction.Status
  currency : CryptoCurrency
  amount : Money
  usdAmount : Money
  factAmount : Option Money
  serviceFee : Money
  networkFee : Option Money
  isTest : Bool
  metaData : MetaData
  deriving DecidableEq, Repr

namespace Transaction

/-- `finalizedTransactionStatuses` -/
def Status.isFinalized : Status → Bool
  | .completed => true
  | .completedInvalid => true
  | .cancelled => true
  | .failed => true
  | _ => false

def Status.isInProgress (s : Status) : Bool := s = .inProgress || s = .inProgressInvalid

def isInProgress (tx : Transaction) : Bool := tx.status.isInProgress

def networkID (tx : Transaction) : String := tx.currency.chooseNetwork tx.isTest

end Transaction

/-- An empty string is stored as NULL. -/
def stringToNullable (s : String) : Option String := if s = "" then none else some s

namespace Service

variable (s : Service)

/-- A row under its resolved currency; the fee is in the chain's coin. -/
def transactionOf (tx : TransactionRow) (currency : CryptoCurrency) (networkFee : Option Money) :
    Transaction where
  id := tx.id
  createdAt := tx.createdAt
  updatedAt := tx.updatedAt
  merchantID := tx.merchantID
  recipientAddress := tx.recipientAddress
  recipientWalletID := tx.recipientWalletID
  senderAddress := tx.senderAddress
  senderWalletID := tx.senderWalletID
  hashID := tx.transactionHash
  type := tx.type
  entityID := tx.entityID.getD 0
  status := tx.status
  currency := currency
  amount := Money.crypto tx.currency tx.amount tx.decimals
  usdAmount := ⟨.fiat, "USD", tx.usdAmount, 2⟩
  factAmount := tx.factAmount.map fun v => Money.crypto tx.currency v tx.decimals
  serviceFee := Money.crypto tx.currency tx.serviceFee tx.decimals
  networkFee := networkFee
  isTest := tx.isTest
  metaData := tx.metadata.getD []

def networkFeeOf (tx : TransactionRow) : Except Err (Option Money) :=
  match tx.networkFee with
  | none => .ok none
  | some fee => do
      let coin ← wrapErr ("unable to get native coin for \"" ++ tx.blockchain ++ "\"")
        (s.currencies.getNativeCoin tx.blockchain)
      .ok (some (coin.makeAmountFromBigInt fee))

def entryToTransaction (tx : TransactionRow) : Except Err Transaction := do
  let currency ← wrapErr ("unable to get currency " ++ tx.currency)
    (s.currencies.getCurrencyByTicker tx.currency)
  let networkFee ← s.networkFeeOf tx
  .ok (transactionOf tx currency networkFee)

def toTransaction (x : Except Err TransactionRow) : Except Err Transaction :=
  (orNotFound .errTransactionNotFound x).bind s.entryToTransaction

theorem entryToTransaction_eq_ok {row : TransactionRow} {tx : Transaction}
    (h : s.entryToTransaction row = .ok tx) :
    ∃ currency fee, s.currencies.getCurrencyByTicker row.currency = .ok currency ∧
      s.networkFeeOf row = .ok fee ∧ tx = transactionOf row currency fee := by
  unfold entryToTransaction wrapErr at h
  cases hc : s.currencies.getCurrencyByTicker row.currency with
  | error e => simp [hc, Except.mapError, bind, Except.bind] at h
  | ok currency =>
    cases hf : s.networkFeeOf row with
    | error e => simp [hc, hf, Except.mapError, bind, Except.bind] at h
    | ok fee =>
      simp only [hc, hf, Except.mapError, bind, Except.bind, Except.ok.injEq] at h
      exact ⟨currency, fee, rfl, rfl, h.symm⟩

theorem toTransaction_eq_ok {x : Except Err TransactionRow} {tx : Transaction}
    (h : s.toTransaction x = .ok tx) :
    ∃ row, x = .ok row ∧ s.entryToTransaction row = .ok tx := by
  cases x with
  | error e => cases h
  | ok row => exact ⟨row, rfl, h⟩

/-- The unexported `getByID`, on whichever connection it is given. -/
def getTransaction (q : Conn) (merchantID id : Int) : Call Transaction := do
  let r ← ask q (.getTransactionByID id merchantID
    (decide (merchantID ≠ Transaction.merchantIDWildcard)))
  succeed (s.toTransaction r)

def getTransactionByID (merchantID id : Int) : Call Transaction :=
  s.getTransaction .pool merchantID id

def getLatestByPaymentID (paymentID : Int) : Call Transaction := do
  let r ← ask .pool (.getLatestTransactionByPaymentID paymentID)
  succeed (s.toTransaction r)

def getByHashAndRecipient (networkID txHash recipient : String) : Call Transaction := do
  let r ← ask .pool (.getTransactionByHashNetworkAndRecipient (stringToNullable txHash)
    (stringToNullable networkID) recipient)
  succeed (s.toTransaction r)

/-- An omitted field does not filter. -/
structure Filter where
  recipientWalletID : Int := 0
  recipientAddress : String := ""
  networkID : String := ""
  currency : String := ""
  types : List Transaction.Kind := []
  statuses : List Transaction.Status := []
  hashIsEmpty : Bool := false

def Filter.toRepo (f : Filter) (limit : ℕ) : GetTransactionsByFilterParams where
  recipientWalletID := if f.recipientWalletID ≠ 0 then some f.recipientWalletID else none
  networkID := stringToNullable f.networkID
  currency := stringToNullable f.currency
  types := if f.types.isEmpty then none else some f.types
  statuses := if f.statuses.isEmpty then none else some f.statuses
  filterEmptyHash := f.hashIsEmpty
  recipientAddress := stringToNullable f.recipientAddress
  limit := limit

def listByFilter (f : Filter) (limit : ℕ) : Call (List Transaction) := do
  let r ← ask .pool (.getTransactionsByFilter (f.toRepo limit))
  succeed (r.bind fun rows => rows.mapM s.entryToTransaction)

def getByFilter (f : Filter) : Call Transaction := do
  let r ← ask .pool (.getTransactionsByFilter (f.toRepo 1))
  succeed <| match r with
    | .error e => .error (if e.is .noRows then Err.of .errTransactionNotFound else e)
    | .ok [] => .error (Err.of .errTransactionNotFound)
    | .ok (tx :: _) => s.entryToTransaction tx

/-- Go's zero values where a caller leaves a field out. -/
structure CreateTransaction where
  type : Transaction.Kind
  entityID : Int := 0
  senderAddress : String := ""
  senderWallet : Option (Int × String) := none
  recipientAddress : String := ""
  recipientWallet : Option (Int × String) := none
  transactionHash : String := ""
  currency : CryptoCurrency
  amount : Money
  usdAmount : Money
  serviceFee : Money := Money.zeroValue
  isTest : Bool
  isIncomingUnexpected : Bool := false

def CreateTransaction.validate (c : CreateTransaction) : Except Err Unit :=
  if !c.serviceFee.isZero && !c.amount.compatibleTo c.serviceFee then
    .error (Err.new "service fee does not match amount")
  else if c.currency.ticker ≠ c.amount.ticker then .error (Err.new "invalid currency specified")
  else if c.usdAmount.moneyType ≠ .fiat ∨ c.usdAmount.ticker ≠ "USD" then
    .error (Err.new "invalid usd amount")
  else if c.amount.isZero then .error (Err.new "amount can't be zero")
  else match c.type with
    | .incoming =>
        if !c.isIncomingUnexpected && c.entityID = 0 then .error (Err.new "invalid entity id")
        else if c.recipientWallet.isNone && c.recipientAddress = "" then
          .error (Err.new "empty recipient wallet")
        else if c.isIncomingUnexpected && c.transactionHash = "" then
          .error (Err.new "empty transaction hash")
        else .ok ()
    | .internal =>
        if c.entityID ≠ 0 then .error (Err.new "entity id should be 0 if tx is internal")
        else if c.senderWallet.isNone then .error (Err.new "empty sender wallet")
        else if c.recipientWallet.isNone then .error (Err.new "empty recipient wallet")
        else .ok ()
    | .withdrawal =>
        if c.entityID = 0 then .error (Err.new "invalid entity id")
        else if c.senderWallet.isNone then .error (Err.new "empty sender wallet")
        else if c.recipientAddress = "" then .error (Err.new "empty recipient address")
        else .ok ()
    | .virtual => .ok ()

def CreateTransaction.status (c : CreateTransaction) : Transaction.Status :=
  if c.isIncomingUnexpected then .inProgress else .pending

def CreateTransaction.toRepo (c : CreateTransaction) (merchantID now : Int)
    (networkCurrency : CryptoCurrency) : CreateTransactionParams where
  merchantID := merchantID
  createdAt := now
  updatedAt := now
  status := c.status
  type := c.type
  entityID := if c.entityID ≠ 0 then some c.entityID else none
  senderWalletID := c.senderWallet.map Prod.fst
  senderAddress := match c.senderWallet with
    | some wt => stringToNullable wt.2
    | none => stringToNullable c.senderAddress
  recipientWalletID := c.recipientWallet.map Prod.fst
  recipientAddress := match c.recipientWallet with
    | some wt => wt.2
    | none => c.recipientAddress
  transactionHash := stringToNullable c.transactionHash
  blockchain := c.currency.blockchain
  networkID := stringToNullable (c.currency.chooseNetwork c.isTest)
  currencyType := c.currency.type
  currency := c.currency.ticker
  decimals := c.amount.decimals
  networkDecimals := networkCurrency.decimals
  amount := c.amount.value
  factAmount := if c.isIncomingUnexpected then some c.amount.value else none
  networkFee := none
  serviceFee := c.serviceFee.value
  usdAmount := c.usdAmount.value
  metadata := if c.isIncomingUnexpected then
    MetaData.toJSONB [(Transaction.metaComment, "Unexpected transaction")] else none
  isTest := c.isTest

def create (merchantID : Int) (c : CreateTransaction) : Call Transaction := do
  succeed c.validate
  let networkCurrency ← succeed (wrapErr "unable to get network currency"
    (s.currencies.getNativeCoin c.currency.blockchain))
  let now ← timeNow
  let entry ← runTx do
    let created ← ask .tx (.createTransaction (c.toRepo merchantID now networkCurrency))
    succeed created
  succeed (s.entryToTransaction entry)

structure ReceiveTransaction where
  status : Transaction.Status
  senderAddress : String
  transactionHash : String
  factAmount : Money
  metaData : MetaData

def invalidUpdate (message : String) : Except Err Unit :=
  .error ((Err.of .errInvalidUpdateParams).wrap message)

def ReceiveTransaction.validate (u : ReceiveTransaction) : Except Err Unit :=
  if u.status ≠ .inProgress ∧ u.status ≠ .inProgressInvalid then
    invalidUpdate "unsupported update status"
  else if u.senderAddress = "" then invalidUpdate "senderAddress is empty"
  else if u.transactionHash = "" then invalidUpdate "transactionHash is empty"
  else if u.factAmount.isZero then invalidUpdate "factAmount is empty"
  else .ok ()

def ReceiveTransaction.toRepo (u : ReceiveTransaction) (merchantID txID now : Int)
    (metaData : MetaData) : UpdateTransactionParams where
  merchantID := merchantID
  id := txID
  status := u.status
  updatedAt := now
  senderAddress := stringToNullable u.senderAddress
  factAmount := some u.factAmount.value
  transactionHash := stringToNullable u.transactionHash
  networkFee := none
  metadata := metaData.toJSONB
  removeServiceFee := false

/-- The unexported `receive`. -/
def receiveOn (q : Conn) (merchantID txID : Int) (params : ReceiveTransaction) :
    Call Transaction := do
  let tx ← s.getTransaction q merchantID txID
  let now ← timeNow
  let entry ← ask q (.updateTransaction
    (params.toRepo merchantID txID now (tx.metaData.merge params.metaData)))
  succeed (s.toTransaction entry)

def receive (merchantID txID : Int) (params : ReceiveTransaction) : Call Transaction := do
  succeed params.validate
  runTx (s.receiveOn .tx merchantID txID params)

structure ConfirmTransaction where
  status : Transaction.Status
  senderAddress : String
  transactionHash : String
  factAmount : Money
  networkFee : Money
  metaData : MetaData
  allowZeroNetworkFee : Bool

def ConfirmTransaction.validate (c : ConfirmTransaction) : Except Err Unit :=
  if c.status ≠ .completed ∧ c.status ≠ .completedInvalid then
    invalidUpdate "unsupported update status"
  else if c.senderAddress = "" then invalidUpdate "senderAddress is empty"
  else if c.transactionHash = "" then invalidUpdate "transactionHash is empty"
  else if c.factAmount.isZero then invalidUpdate "factAmount is empty"
  else if c.networkFee.isZero && !c.allowZeroNetworkFee then invalidUpdate "networkFee is empty"
  else .ok ()

def ConfirmTransaction.toRepo (c : ConfirmTransaction) (merchantID txID now : Int)
    (metaData : MetaData) : UpdateTransactionParams where
  merchantID := merchantID
  id := txID
  status := c.status
  updatedAt := now
  senderAddress := stringToNullable c.senderAddress
  factAmount := some c.factAmount.value
  transactionHash := stringToNullable c.transactionHash
  networkFee := some c.networkFee.value
  metadata := metaData.toJSONB
  removeServiceFee := c.status = .completedInvalid

/-- The metadata of every ledger change made for a transaction. -/
def ledgerMetaData (tx : Transaction) : MetaData :=
  [(Transaction.metaMerchantID, toString tx.merchantID),
    (Transaction.metaTransactionID, toString tx.id)]

def recipientMetaData (tx : Transaction) : MetaData :=
  match tx.recipientWalletID with
  | none => ledgerMetaData tx
  | some id => (ledgerMetaData tx).set Transaction.metaRecipientWalletID (toString id)

/-- A collector or derived address has no wallet balance to increment. -/
def incrementRecipientBalance (q : Conn) (tx : Transaction) (factAmount : Money)
    (comment : String) : Call Unit :=
  match tx.recipientWalletID with
  | none => pure ()
  | some id => do
      let _ ← (updateBalance q {
        entityID := id
        entityType := .wallet
        operation := .increment
        currency := tx.currency
        amount := factAmount
        comment := comment
        metaData := recipientMetaData tx
        isTest := tx.isTest }).mapError (Err.wrap "unable to update wallet balance")
      pure ()

def networkCurrency (tx : Transaction) : Except Err CryptoCurrency :=
  if tx.currency.type = .token then
    wrapErr "unable to get currency for fees" (s.currencies.getNativeCoin tx.currency.blockchain)
  else .ok tx.currency

def updateMerchantBalance (q : Conn) (tx : Transaction) (amount : Money) (comment : String)
    (metaData : MetaData) : Call Unit := do
  let _ ← (updateBalance q {
    entityID := tx.merchantID
    entityType := .merchant
    operation := .increment
    currency := tx.currency
    amount := amount
    comment := comment
    metaData := metaData
    isTest := tx.isTest }).mapError (Err.wrap "unable to update merchant balance")
  pure ()

def decrementNetworkFee (q : Conn) (tx : Transaction) (senderWalletID : Int) (fee : Money)
    (comment : String) (metaData : MetaData) : Call Unit := do
  let currency ← succeed (s.networkCurrency tx)
  let _ ← (updateBalance q {
    entityID := senderWalletID
    entityType := .wallet
    operation := .decrement
    currency := currency
    amount := fee
    comment := comment
    metaData := metaData
    isTest := tx.isTest }).mapError (Err.wrap "unable to decrement balance by network fee")
  pure ()

/-- What the merchant gains: never more than was asked for. -/
def gainedAmount (tx : Transaction) (factAmount : Money) : Money :=
  if factAmount.greaterThan tx.amount then tx.amount else factAmount

def creditIncoming (q : Conn) (tx : Transaction) (factAmount : Money)
    (params : ConfirmTransaction) : Call Unit := do
  incrementRecipientBalance q tx factAmount ("incoming tx " ++ params.transactionHash)
  -- an underpayment waits for the merchant, an unexpected transaction has none
  if tx.status = .completedInvalid then pure ()
  else if tx.merchantID = Transaction.systemMerchantID then pure ()
  else do
    let gained ← succeed (wrapErr "unable to subtract serviceFee"
      ((gainedAmount tx factAmount).sub tx.serviceFee))
    updateMerchantBalance q tx gained ("incoming tx " ++ params.transactionHash)
      (recipientMetaData tx)

def updateBalancesAfterTxConfirmation (q : Conn) (tx : Transaction)
    (params : ConfirmTransaction) : Call Unit :=
  match tx.factAmount with
  | none => .fail (Err.new "factAmount is nil")
  | some factAmount =>
    if factAmount.isZero then .fail (Err.new "factAmount is zero")
    else if factAmount.isNegative then .fail (Err.new "factAmount is negative")
    else match tx.type with
      | .incoming => creditIncoming q tx factAmount params
      | .internal =>
          match tx.senderWalletID with
          | none => .fail (Err.new "sender wallet id is nil")
          | some sender => do
              incrementRecipientBalance q tx factAmount
                ("incoming tx " ++ params.transactionHash)
              s.decrementNetworkFee q tx sender params.networkFee
                ("decrementing balance as a fee to internal tx " ++ params.transactionHash ++
                  " (" ++ tx.currency.ticker ++ ")") (recipientMetaData tx)
      | .withdrawal =>
          match tx.senderWalletID with
          | none => .fail (Err.new "sender wallet id is nil")
          | some sender =>
              s.decrementNetworkFee q tx sender params.networkFee
                ("decrementing balance as a fee to withdrawal tx " ++ params.transactionHash ++
                  " (" ++ tx.currency.ticker ++ ")") (ledgerMetaData tx)
      | .virtual =>
          if tx.status ≠ .completed ∨ tx.merchantID = 0 then
            .fail (Err.new "invalid tx data for type=virtual")
          else updateMerchantBalance q tx factAmount "virtual system topup" (ledgerMetaData tx)

/-- The unexported `confirm`. -/
def confirmOn (q : Conn) (merchantID txID : Int) (params : ConfirmTransaction) :
    Call Transaction := do
  let tx ← s.getTransaction q merchantID txID
  if tx.status = params.status then .fail (Err.of .errSameStatus)
  else do
    let now ← timeNow
    let entry ← ask q (.updateTransaction
      (params.toRepo merchantID txID now (tx.metaData.merge params.metaData)))
    let updated ← succeed (s.toTransaction entry)
    (s.updateBalancesAfterTxConfirmation q updated params).mapError
      (Err.wrap "unable to update balances")
    pure updated

def confirm (merchantID txID : Int) (params : ConfirmTransaction) : Call Transaction := do
  succeed params.validate
  runTx (s.confirmOn .tx merchantID txID params)

/-- `Cancel` without a network fee, as every caller of the payment flow uses
it. The statement runs on the pool, not on the transaction around it. -/
def cancel (tx : Transaction) (status : Transaction.Status) (reason : String) : Call Unit :=
  runTx do
    let now ← timeNow
    let done ← ask .pool (.cancelTransaction {
      id := tx.id
      status := status
      updatedAt := now
      metadata := MetaData.toJSONB [(Transaction.metaComment, reason)]
      networkFee := none
      setNetworkFee := false })
    succeed (wrapErr "unable to cancel transaction" done)

structure Fill where
  id : FillKey
  amount : Money
  senderAddress : Option String
  blockNumber : Option Int
  confirmations : Int
  status : FillStatus
  observedAt : Int
  confirmedAt : Option Int
  deriving DecidableEq, Repr

/-- `numericToCryptoSameDecimals` -/
def numericToCrypto (num : Int) (ref : Money) : Money := Money.crypto ref.ticker num ref.decimals

def fillFromRepo (parentTx : Transaction) (r : FillRow) : Fill where
  id := r.key
  amount := numericToCrypto r.amount parentTx.amount
  senderAddress := r.senderAddress
  blockNumber := r.blockNumber
  confirmations := r.confirmations
  status := r.status
  observedAt := r.observedAt
  confirmedAt := r.confirmedAt

def recordFill (parentTx : Transaction) (networkID txHash : String) (voutOrLogIdx : Int)
    (amount : Money) (senderAddress : String) (blockNumber confirmations : Int)
    (status : FillStatus) : Call Fill := do
  if parentTx.amount.compatibleTo amount then do
    let now ← timeNow
    let r ← ask .pool (.insertTransactionFill {
      key := ⟨parentTx.id, networkID, txHash, voutOrLogIdx⟩
      amount := amount.value
      senderAddress := stringToNullable senderAddress
      blockNumber := if 0 < blockNumber then some blockNumber else none
      confirmations := confirmations
      status := status
      observedAt := now })
    let row ← succeed (wrapErr "unable to insert transaction fill" r)
    pure (fillFromRepo parentTx row)
  else .fail (Err.new "fill amount currency mismatch with parent transaction")

def sumConfirmedFills (parentTx : Transaction) : Call Money := do
  let r ← ask .pool (.sumConfirmedFillsForTx parentTx.id)
  let num ← succeed (wrapErr "unable to sum confirmed fills" r)
  pure (numericToCrypto num parentTx.amount)

def listFills (parentTx : Transaction) : Call (List Fill) := do
  let r ← ask .pool (.listTransactionFills parentTx.id)
  let rows ← succeed (wrapErr "unable to list fills" r)
  pure (rows.map (fillFromRepo parentTx))

def fillExistsByHashAndRecipient (networkID txHash recipient : String) : Call Bool := do
  let r ← ask .pool (.fillExistsByHashAndRecipient networkID txHash recipient)
  succeed r

def markFillReorged (fillID : FillKey) : Call Unit := do
  let r ← ask .pool (.markFillReorged fillID)
  succeed r

def listPartialPaymentTxIDs : Call (List Int) := do
  let r ← ask .pool .listPartialPaymentTxIDs
  succeed r

end Service

end CryptoLink
