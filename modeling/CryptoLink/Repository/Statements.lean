import CryptoLink.Repository.Rows
import CryptoLink.Library.Interleaving
import Mathlib.Data.List.Sort

/-!
# The statements

One definition per query of the repository, under the query's name, as a
function of the tables it runs on. `World.answer` and `World.effect` put them
together; a statement can also be refused, or run and go unanswered.
-/

namespace CryptoLink

open KeyedTables ReadCommitted StatementPrograms

structure GetTransactionsByFilterParams where
  recipientWalletID : Option Int
  networkID : Option String
  currency : Option String
  types : Option (List Transaction.Kind)
  statuses : Option (List Transaction.Status)
  filterEmptyHash : Bool
  recipientAddress : Option String
  limit : ℕ
  deriving DecidableEq, Repr

structure CreateTransactionParams where
  merchantID : Int
  createdAt : Int
  updatedAt : Int
  status : Transaction.Status
  type : Transaction.Kind
  entityID : Option Int
  senderWalletID : Option Int
  senderAddress : Option String
  recipientWalletID : Option Int
  recipientAddress : String
  transactionHash : Option String
  blockchain : String
  networkID : Option String
  currencyType : CryptoCurrencyType
  currency : String
  decimals : Int
  networkDecimals : Int
  amount : Int
  factAmount : Option Int
  networkFee : Option Int
  serviceFee : Int
  usdAmount : Int
  metadata : Option MetaData
  isTest : Bool
  deriving DecidableEq, Repr

structure UpdateTransactionParams where
  merchantID : Int
  id : Int
  status : Transaction.Status
  updatedAt : Int
  senderAddress : Option String
  factAmount : Option Int
  transactionHash : Option String
  networkFee : Option Int
  metadata : Option MetaData
  removeServiceFee : Bool
  deriving DecidableEq, Repr

structure CancelTransactionParams where
  id : Int
  status : Transaction.Status
  updatedAt : Int
  metadata : Option MetaData
  networkFee : Option Int
  setNetworkFee : Bool
  deriving DecidableEq, Repr

structure InsertTransactionFillParams where
  key : FillKey
  amount : Int
  senderAddress : Option String
  blockNumber : Option Int
  confirmations : Int
  status : FillStatus
  observedAt : Int
  deriving DecidableEq, Repr

/-- No payment that is created here has an expiry yet. -/
structure CreatePaymentParams where
  createdAt : Int
  updatedAt : Int
  type : Payment.Kind
  status : Payment.Status
  merchantID : Int
  price : Int
  decimals : Int
  currency : String
  isTest : Bool
  metadata : Option MetaData
  deriving DecidableEq, Repr

structure UpdatePaymentParams where
  id : Int
  merchantID : Int
  status : Payment.Status
  updatedAt : Int
  expiresAt : Option Int
  setExpiresAt : Bool
  deriving DecidableEq, Repr

structure ExtendPaymentExpiryParams where
  id : Int
  merchantID : Int
  status : Payment.Status
  updatedAt : Int
  requestedExpiresAt : Int
  deriving DecidableEq, Repr

structure BalanceFilter where
  entityID : Int
  entityType : EntityType
  networkID : String
  currency : String
  deriving DecidableEq, Repr

structure CreateBalanceParams where
  key : BalanceKey
  createdAt : Int
  updatedAt : Int
  currencyType : CryptoCurrencyType
  decimals : Int
  amount : Int
  deriving DecidableEq, Repr

structure UpdateBalanceByIDParams where
  key : BalanceKey
  updatedAt : Int
  amount : Int
  deriving DecidableEq, Repr

/-- Queries on the connection pool or inside a transaction, and the calls that
leave the process: clocks, price feeds, nodes, the event bus. -/
inductive Stmt where
  | getTransactionByID (id merchantID : Int) (filterByMerchantID : Bool)
  | getLatestTransactionByPaymentID (entityID : Int)
  | getTransactionByHashNetworkAndRecipient (transactionHash networkID : Option String)
      (recipientAddress : String)
  | getTransactionsByFilter (p : GetTransactionsByFilterParams)
  | createTransaction (p : CreateTransactionParams)
  | updateTransaction (p : UpdateTransactionParams)
  | cancelTransaction (p : CancelTransactionParams)
  | insertTransactionFill (p : InsertTransactionFillParams)
  | sumConfirmedFillsForTx (transactionID : Int)
  | listTransactionFills (transactionID : Int)
  | markFillReorged (id : FillKey)
  | listPartialPaymentTxIDs
  | fillExistsByHashAndRecipient (networkID transactionHash recipient : String)
  | getPaymentByID (id merchantID : Int) (filterByMerchantID : Bool)
  | getPaymentByMerchantIDAndOrderUUID (merchantID : Int)
  | createPayment (p : CreatePaymentParams)
  | updatePayment (p : UpdatePaymentParams)
  | extendPaymentExpiry (p : ExtendPaymentExpiryParams)
  | getBalanceByFilter (p : BalanceFilter)
  | getBalanceByFilterWithLock (p : BalanceFilter)
  | getBalanceByIDWithLock (id : BalanceKey)
  | listAllBalancesByType (entityType : EntityType) (hideEmpty : Bool)
  | createBalance (p : CreateBalanceParams)
  | updateBalanceByID (p : UpdateBalanceByIDParams)
  | insertBalanceAuditLog (row : AuditRow)
  | getCollectorByUUID (uuid : String)
  | getCollectorByMerchantAndBlockchain (merchantID : Int) (blockchain : String)
  | getDerivedAddressByUUID (uuid : String)
  | advisoryTxLock (table : String) (id : Int)
  | getMerchantByID (id : Int)
  | getCustomerByID (merchantID id : Int)
  | listSupportedCurrencies (merchantID : Int)
  | listXpubWallets (merchantID : Int)
  | getNextUnusedAddress (merchantID : Int) (blockchain : String)
  | markAddressAsUsed (address : String) (paymentID : Int)
  | timeNow
  | randomDust
  | multiplyFloat64 (amount : Money)
  | fiatToCrypto (amount : Money) (target : CryptoCurrency)
  | fiatToFiat (amount : Money) (target : String)
  | cryptoToFiat (amount : Money) (target : String)
  | fetchTransaction (blockchain : Blockchain) (transactionID : String) (isTest : Bool)
  | publishPaymentStatusUpdate (merchantID paymentID : Int)
  | incrementPaymentUsage (merchantID : Int) (volume : Int)

@[reducible] def Reply : Stmt → Type
  | .getTransactionByID .. => Except Err TransactionRow
  | .getLatestTransactionByPaymentID _ => Except Err TransactionRow
  | .getTransactionByHashNetworkAndRecipient .. => Except Err TransactionRow
  | .getTransactionsByFilter _ => Except Err (List TransactionRow)
  | .createTransaction _ => Except Err TransactionRow
  | .updateTransaction _ => Except Err TransactionRow
  | .cancelTransaction _ => Except Err Unit
  | .insertTransactionFill _ => Except Err FillRow
  | .sumConfirmedFillsForTx _ => Except Err Int
  | .listTransactionFills _ => Except Err (List FillRow)
  | .markFillReorged _ => Except Err Unit
  | .listPartialPaymentTxIDs => Except Err (List Int)
  | .fillExistsByHashAndRecipient .. => Except Err Bool
  | .getPaymentByID .. => Except Err PaymentRow
  | .getPaymentByMerchantIDAndOrderUUID _ => Except Err PaymentRow
  | .createPayment _ => Except Err PaymentRow
  | .updatePayment _ => Except Err PaymentRow
  | .extendPaymentExpiry _ => Except Err PaymentRow
  | .getBalanceByFilter _ => Except Err BalanceRow
  | .getBalanceByFilterWithLock _ => Except Err BalanceRow
  | .getBalanceByIDWithLock _ => Except Err BalanceRow
  | .listAllBalancesByType .. => Except Err (List BalanceRow)
  | .createBalance _ => Except Err BalanceRow
  | .updateBalanceByID _ => Except Err BalanceRow
  | .insertBalanceAuditLog _ => Except Err Unit
  | .getCollectorByUUID _ => Except Err CollectorRow
  | .getCollectorByMerchantAndBlockchain .. => Except Err CollectorRow
  | .getDerivedAddressByUUID _ => Except Err DerivedAddressRow
  | .advisoryTxLock .. => Except Err Unit
  | .getMerchantByID _ => Except Err Bool
  | .getCustomerByID .. => Except Err Unit
  | .listSupportedCurrencies _ => Except Err (List String)
  | .listXpubWallets _ => Except Err (List String)
  | .getNextUnusedAddress .. => Except Err String
  | .markAddressAsUsed .. => Except Err Unit
  | .timeNow => Int
  | .randomDust => Except Err Int
  | .multiplyFloat64 _ => Except Err Money
  | .fiatToCrypto .. => Except Err Money
  | .fiatToFiat .. => Except Err Money
  | .cryptoToFiat .. => Except Err Money
  | .fetchTransaction .. => Except Err ChainTx
  | .publishPaymentStatusUpdate .. => Except Err Unit
  | .incrementPaymentUsage .. => Except Err Unit

/-- What the surroundings decide at one step. `number` and `strings` are what a
price feed, a random source or another table answers. -/
structure Env where
  fate : Fate := .done
  clock : Int := 0
  number : Int := 0
  strings : List String := []
  deriving DecidableEq, Repr

/-- An insert or update that breaks no constraint answers its row. -/
def fitting {α : Type} (fits : Bool) (a : α) : Except Err α :=
  if fits then .ok a else .error .database

def noRows {α : Type} (x : Option α) : Except Err α :=
  match x with
  | some a => .ok a
  | none => .error (Err.of .noRows)

/-- Goes on with a value, or fails with an error. -/
def succeed {C : Type} {A : C → Type} {α : Type} (x : Except Err α) : Prog C A Err α :=
  Prog.ofExcept x

def varchar (n : ℕ) (s : String) : Bool := s.length ≤ n

def varcharNull (n : ℕ) (s : Option String) : Bool :=
  match s with
  | none => true
  | some s => varchar n s

namespace World

variable (w : World)

/-- `order by id desc` -/
def newestFirst (rows : List TransactionRow) : List TransactionRow :=
  rows.insertionSort fun a b => b.id ≤ a.id

def getTransactionByID (id merchantID : Int) (filterByMerchantID : Bool) : Option TransactionRow :=
  (w.transactions.get id).filter fun r => !filterByMerchantID || r.merchantID = merchantID

def getLatestTransactionByPaymentID (entityID : Int) : Option TransactionRow :=
  (newestFirst (w.transactions.rows.filter fun r => r.entityID = some entityID)).head?

/-- `limit 1` without an order: the first row found. -/
def getTransactionByHashNetworkAndRecipient (transactionHash networkID : Option String)
    (recipientAddress : String) : Option TransactionRow :=
  w.transactions.rows.find? fun r =>
    transactionHash.isSome && r.transactionHash = transactionHash &&
      networkID.isSome && r.networkID = networkID &&
      lower r.recipientAddress = lower recipientAddress

def getTransactionsByFilter (p : GetTransactionsByFilterParams) : List TransactionRow :=
  (newestFirst (w.transactions.rows.filter fun r =>
    (p.recipientWalletID.isNone || r.recipientWalletID = p.recipientWalletID) &&
      (p.networkID.isNone || r.networkID = p.networkID) &&
      (p.currency.isNone || some r.currency = p.currency) &&
      (match p.types with | none => true | some ts => ts.contains r.type) &&
      (match p.statuses with | none => true | some ss => ss.contains r.status) &&
      (!p.filterEmptyHash || r.transactionHash.isNone) &&
      (p.recipientAddress.isNone || some r.recipientAddress = p.recipientAddress))).take p.limit

def newTransaction (p : CreateTransactionParams) : TransactionRow where
  id := w.nextTransactionID
  createdAt := p.createdAt
  updatedAt := p.updatedAt
  merchantID := p.merchantID
  status := p.status
  type := p.type
  entityID := p.entityID
  recipientWalletID := p.recipientWalletID
  senderAddress := p.senderAddress
  recipientAddress := p.recipientAddress
  transactionHash := p.transactionHash
  blockchain := p.blockchain
  currencyType := p.currencyType
  currency := p.currency
  decimals := p.decimals
  networkDecimals := p.networkDecimals
  amount := p.amount
  factAmount := p.factAmount
  networkFee := p.networkFee
  serviceFee := p.serviceFee
  usdAmount := p.usdAmount
  metadata := p.metadata
  networkID := p.networkID
  isTest := p.isTest
  senderWalletID := p.senderWalletID

/-- The column widths of `transactions`. -/
def transactionFits (p : CreateTransactionParams) : Bool :=
  varchar 6 p.blockchain && varcharNull 16 p.networkID && varchar 16 p.currency &&
    varcharNull 128 p.senderAddress && varchar 128 p.recipientAddress &&
    varcharNull 128 p.transactionHash

/-- A sequence that fell behind its table runs into the primary key. -/
def createFits (p : CreateTransactionParams) : Bool :=
  transactionFits p && (w.transactions.get w.nextTransactionID).isNone

def updatedTransaction (p : UpdateTransactionParams) (r : TransactionRow) : TransactionRow :=
  { r with
    status := p.status
    updatedAt := p.updatedAt
    senderAddress := p.senderAddress
    factAmount := p.factAmount
    transactionHash := p.transactionHash
    networkFee := p.networkFee
    serviceFee := if p.removeServiceFee then 0 else r.serviceFee
    metadata := p.metadata }

def updateFits (p : UpdateTransactionParams) : Bool :=
  varcharNull 128 p.senderAddress && varcharNull 128 p.transactionHash

/-- The row `where merchant_id = $1 and id = $2` selects. -/
def updateTarget (p : UpdateTransactionParams) : Option TransactionRow :=
  if updateFits p then (w.transactions.get p.id).filter fun r => r.merchantID = p.merchantID
  else none

def cancelledTransaction (p : CancelTransactionParams) (r : TransactionRow) : TransactionRow :=
  { r with
    status := p.status
    updatedAt := p.updatedAt
    metadata := p.metadata
    networkFee := if p.setNetworkFee then p.networkFee else r.networkFee }

def newFill (p : InsertTransactionFillParams) : FillRow where
  key := p.key
  amount := p.amount
  senderAddress := p.senderAddress
  blockNumber := p.blockNumber
  confirmations := p.confirmations
  status := p.status
  observedAt := p.observedAt
  confirmedAt := none

/-- `on conflict … do update`: amount, sender and times of the first insert
stay. -/
def conflictingFill (p : InsertTransactionFillParams) (now : Int) (r : FillRow) : FillRow :=
  { r with
    confirmations := max r.confirmations p.confirmations
    status := if r.confirmations ≤ p.confirmations ∧ p.status = .confirmed then .confirmed
      else r.status
    confirmedAt := if r.confirmedAt = none ∧ p.status = .confirmed then some now
      else r.confirmedAt }

/-- The parent row must exist and the columns must fit. -/
def fillFits (p : InsertTransactionFillParams) : Bool :=
  (w.transactions.get p.key.transactionID).isSome && varchar 16 p.key.networkID &&
    varchar 128 p.key.transactionHash && varcharNull 128 p.senderAddress

def insertedFill (p : InsertTransactionFillParams) (now : Int) : FillRow :=
  match w.fills.get p.key with
  | none => newFill p
  | some r => conflictingFill p now r

def fillsOf (transactionID : Int) : List FillRow :=
  w.fills.rows.filter fun f => f.key.transactionID = transactionID

def sumConfirmedFillsForTx (transactionID : Int) : Int :=
  (((w.fillsOf transactionID).filter fun f => f.status = .confirmed).map FillRow.amount).sum

/-- `order by observed_at asc` -/
def listTransactionFills (transactionID : Int) : List FillRow :=
  (w.fillsOf transactionID).insertionSort fun a b => a.observedAt ≤ b.observedAt

def listPartialPaymentTxIDs : List Int :=
  (w.transactions.rows.filter fun t =>
    t.type = .incoming && w.payments.rows.any fun p =>
      some p.id = t.entityID && p.status = .partialPaid).map TransactionRow.id

def fillExistsByHashAndRecipient (networkID transactionHash recipient : String) : Bool :=
  w.fills.rows.any fun f =>
    f.key.networkID = networkID && f.key.transactionHash = transactionHash &&
      match w.transactions.get f.key.transactionID with
      | none => false
      | some t => lower t.recipientAddress = lower recipient

def getPaymentByID (id merchantID : Int) (filterByMerchantID : Bool) : Option PaymentRow :=
  (w.payments.get id).filter fun r => !filterByMerchantID || r.merchantID = merchantID

/-- Above every id there is. -/
def nextPaymentID : Int := (w.payments.rows.map PaymentRow.id).foldl max 0 + 1

def newPayment (p : CreatePaymentParams) : PaymentRow where
  id := w.nextPaymentID
  createdAt := p.createdAt
  updatedAt := p.updatedAt
  type := p.type
  status := p.status
  merchantID := p.merchantID
  expiresAt := none
  originalExpiresAt := none
  price := p.price
  decimals := p.decimals
  currency := p.currency
  customerID := none
  isTest := p.isTest
  metadata := p.metadata

/-- The width of the currency column. -/
def paymentFits (p : CreatePaymentParams) : Bool := varchar 16 p.currency

def updatedPayment (p : UpdatePaymentParams) (r : PaymentRow) : PaymentRow :=
  { r with
    status := p.status
    updatedAt := p.updatedAt
    expiresAt := if p.setExpiresAt then p.expiresAt else r.expiresAt }

def hour : Int := 3600 * 10 ^ 9

/-- `least` skips NULL. -/
def extendedPayment (p : ExtendPaymentExpiryParams) (r : PaymentRow) : PaymentRow :=
  { r with
    status := p.status
    updatedAt := p.updatedAt
    expiresAt := match r.originalExpiresAt.orElse fun _ => r.expiresAt with
      | none => some p.requestedExpiresAt
      | some t => some (min p.requestedExpiresAt (t + 24 * hour)) }

def paymentTarget (id merchantID : Int) : Option PaymentRow :=
  (w.payments.get id).filter fun r => r.merchantID = merchantID

def getBalanceByFilter (p : BalanceFilter) : Option BalanceRow :=
  w.balances.rows.find? fun b =>
    b.key.entityID = p.entityID && b.key.entityType = p.entityType &&
      b.key.networkID = p.networkID && b.key.currency = p.currency

/-- `order by id desc` -/
def listAllBalancesByType (entityType : EntityType) (hideEmpty : Bool) : List BalanceRow :=
  (w.balances.rows.filter fun b =>
    b.key.entityType = entityType && (!hideEmpty || 0 < b.amount)).reverse

def newBalance (p : CreateBalanceParams) : BalanceRow where
  key := p.key
  createdAt := p.createdAt
  updatedAt := p.updatedAt
  currencyType := p.currencyType
  decimals := p.decimals
  amount := p.amount

/-- The unique constraint, `amount >= 0` and the column widths. -/
def balanceFits (p : CreateBalanceParams) : Bool :=
  (w.balances.get p.key).isNone && 0 ≤ p.amount && varchar 6 p.key.network &&
    varchar 16 p.key.networkID && varchar 16 p.key.currency

def updatedBalance (p : UpdateBalanceByIDParams) (r : BalanceRow) : BalanceRow :=
  { r with updatedAt := p.updatedAt, amount := r.amount + p.amount }

/-- What `check (amount >= 0)` lets through. -/
def balanceTarget (p : UpdateBalanceByIDParams) : Option BalanceRow :=
  (w.balances.get p.key).filter fun r => 0 ≤ r.amount + p.amount

def findChainTx (blockchain : Blockchain) (transactionID : String) (isTest : Bool) :
    Option ChainTx :=
  w.chain.find? fun c =>
    c.blockchain = blockchain && c.isTest = isTest && lower c.hash = lower transactionID

end World

namespace World

/-- What a statement answers on the tables it sees. -/
def answer (env : Env) (w : World) : (s : Stmt) → Reply s
  | .getTransactionByID id m f => answered env.fate .database (noRows (w.getTransactionByID id m f))
  | .getLatestTransactionByPaymentID id =>
      answered env.fate .database (noRows (w.getLatestTransactionByPaymentID id))
  | .getTransactionByHashNetworkAndRecipient h n a =>
      answered env.fate .database (noRows (w.getTransactionByHashNetworkAndRecipient h n a))
  | .getTransactionsByFilter p => answered env.fate .database (.ok (w.getTransactionsByFilter p))
  | .createTransaction p => answered env.fate .database
      (if w.createFits p then .ok (w.newTransaction p) else .error (Err.of .database))
  | .updateTransaction p => answered env.fate .database
      (if updateFits p then noRows ((w.updateTarget p).map (updatedTransaction p))
        else .error (Err.of .database))
  | .cancelTransaction _ => answered env.fate .database (.ok ())
  | .insertTransactionFill p => answered env.fate .database
      (if w.fillFits p then .ok (w.insertedFill p env.clock) else .error (Err.of .database))
  | .sumConfirmedFillsForTx id => answered env.fate .database (.ok (w.sumConfirmedFillsForTx id))
  | .listTransactionFills id => answered env.fate .database (.ok (w.listTransactionFills id))
  | .markFillReorged _ => answered env.fate .database (.ok ())
  | .listPartialPaymentTxIDs => answered env.fate .database (.ok w.listPartialPaymentTxIDs)
  | .fillExistsByHashAndRecipient n h a =>
      answered env.fate .database (.ok (w.fillExistsByHashAndRecipient n h a))
  | .getPaymentByID id m f => answered env.fate .database (noRows (w.getPaymentByID id m f))
  -- the order UUID was made for the payment that is about to be created
  | .getPaymentByMerchantIDAndOrderUUID _ => answered env.fate .database (noRows none)
  | .createPayment p => answered env.fate .database
      (if paymentFits p then .ok (w.newPayment p) else .error (Err.of .database))
  | .updatePayment p => answered env.fate .database
      (noRows ((w.paymentTarget p.id p.merchantID).map (updatedPayment p)))
  | .extendPaymentExpiry p => answered env.fate .database
      (noRows ((w.paymentTarget p.id p.merchantID).map (extendedPayment p)))
  | .getBalanceByFilter p => answered env.fate .database (noRows (w.getBalanceByFilter p))
  | .getBalanceByFilterWithLock p => answered env.fate .database (noRows (w.getBalanceByFilter p))
  | .getBalanceByIDWithLock id => answered env.fate .database (noRows (w.balances.get id))
  | .listAllBalancesByType t hide =>
      answered env.fate .database (.ok (w.listAllBalancesByType t hide))
  | .createBalance p => answered env.fate .database
      (if w.balanceFits p then .ok (newBalance p) else .error (Err.of .database))
  | .updateBalanceByID p => answered env.fate .database
      (match w.balances.get p.key with
        | none => .error (Err.of .noRows)
        | some r => if 0 ≤ r.amount + p.amount then .ok (updatedBalance p r)
            else .error (Err.of .database))
  | .insertBalanceAuditLog _ => answered env.fate .database (.ok ())
  | .getCollectorByUUID id => answered env.fate .database
      (noRows (w.collectors.find? fun c => c.uuid = id && c.isActive))
  | .getCollectorByMerchantAndBlockchain m b => answered env.fate .database
      (noRows (w.collectors.find? fun c => c.merchantID = m && c.blockchain = b && c.isActive))
  | .getDerivedAddressByUUID id => answered env.fate .database
      (noRows (w.derivedAddresses.find? fun a => a.uuid = id))
  | .advisoryTxLock .. => answered env.fate .database (.ok ())
  -- whether the merchant has a positive fee percentage
  | .getMerchantByID _ => answered env.fate .database (.ok (decide (env.number ≠ 0)))
  | .getCustomerByID .. => answered env.fate .database (.ok ())
  | .listSupportedCurrencies _ => answered env.fate .database (.ok env.strings)
  -- the blockchains of the merchant's active wallets
  | .listXpubWallets _ => answered env.fate .database (.ok env.strings)
  | .getNextUnusedAddress .. => answered env.fate .database (noRows env.strings.head?)
  | .markAddressAsUsed .. => answered env.fate .database (.ok ())
  | .timeNow => env.clock
  | .randomDust => answered env.fate .remote (.ok (env.number % 999 + 1))
  | .multiplyFloat64 m => answered env.fate .remote
      (.ok ⟨m.moneyType, m.ticker, env.number, m.decimals⟩)
  | .fiatToCrypto m c => answered env.fate .remote
      (if m.moneyType = .fiat ∧ m.value ≠ 0 then .ok (Money.crypto c.ticker env.number c.decimals)
        else .error (Err.of .errValidation))
  | .fiatToFiat m t => answered env.fate .remote
      (if m.moneyType = .fiat then .ok ⟨.fiat, t, env.number, 2⟩
        else .error (Err.of .errValidation))
  | .cryptoToFiat m t => answered env.fate .remote
      (if m.moneyType = .crypto then .ok ⟨.fiat, t, env.number, 2⟩
        else .error (Err.of .errValidation))
  | .fetchTransaction b h t => answered env.fate .remote
      (match w.findChainTx b h t with
        | none => .error (Err.of .remote)
        | some c => .ok c)
  | .publishPaymentStatusUpdate .. => answered env.fate .remote (.ok ())
  | .incrementPaymentUsage .. => answered env.fate .database (.ok ())

def reorgedFill (r : FillRow) : FillRow := { r with status := .reorged }

-- an update leaves the key of its row alone

theorem updatedTransaction_id (p : UpdateTransactionParams) (r : TransactionRow) :
    (updatedTransaction p r).id = r.id := rfl

theorem cancelledTransaction_id (p : CancelTransactionParams) (r : TransactionRow) :
    (cancelledTransaction p r).id = r.id := rfl

theorem conflictingFill_key (p : InsertTransactionFillParams) (now : Int) (r : FillRow) :
    (conflictingFill p now r).key = r.key := rfl

theorem reorgedFill_key (r : FillRow) : (reorgedFill r).key = r.key := rfl

theorem updatedPayment_id (p : UpdatePaymentParams) (r : PaymentRow) :
    (updatedPayment p r).id = r.id := rfl

theorem extendedPayment_id (p : ExtendPaymentExpiryParams) (r : PaymentRow) :
    (extendedPayment p r).id = r.id := rfl

theorem updatedBalance_key (p : UpdateBalanceByIDParams) (r : BalanceRow) :
    (updatedBalance p r).key = r.key := rfl

/-- What a statement that saw `seen` does to the tables it is replayed into:
the row it selected is decided by what it saw. -/
def effect (s : Stmt) (env : Env) (seen w : World) : World :=
  match s with
  | .createTransaction p =>
      if seen.createFits p then
        { w with transactions := w.transactions.insert (seen.newTransaction p) }
      else w
  | .updateTransaction p =>
      match seen.updateTarget p with
      | none => w
      | some _ =>
          { w with
            transactions := w.transactions.modify p.id (updatedTransaction p)
              (updatedTransaction_id p) }
  | .cancelTransaction p =>
      match seen.transactions.get p.id with
      | none => w
      | some _ =>
          { w with
            transactions := w.transactions.modify p.id (cancelledTransaction p)
              (cancelledTransaction_id p) }
  | .insertTransactionFill p =>
      if seen.fillFits p then
        match w.fills.get p.key with
        | none => { w with fills := w.fills.insert (newFill p) }
        | some _ =>
            { w with
              fills := w.fills.modify p.key (conflictingFill p env.clock)
                (conflictingFill_key p env.clock) }
      else w
  | .markFillReorged id =>
      match seen.fills.get id with
      | none => w
      | some _ => { w with fills := w.fills.modify id reorgedFill reorgedFill_key }
  | .createPayment p =>
      if paymentFits p then { w with payments := w.payments.insert (seen.newPayment p) } else w
  | .updatePayment p =>
      match seen.paymentTarget p.id p.merchantID with
      | none => w
      | some _ =>
          { w with payments := w.payments.modify p.id (updatedPayment p) (updatedPayment_id p) }
  | .extendPaymentExpiry p =>
      match seen.paymentTarget p.id p.merchantID with
      | none => w
      | some _ =>
          { w with payments := w.payments.modify p.id (extendedPayment p) (extendedPayment_id p) }
  | .createBalance p =>
      if seen.balanceFits p then { w with balances := w.balances.insert (newBalance p) } else w
  | .updateBalanceByID p =>
      match seen.balanceTarget p with
      | none => w
      | some _ =>
          { w with balances := w.balances.modify p.key (updatedBalance p) (updatedBalance_key p) }
  | .insertBalanceAuditLog row => { w with auditLog := w.auditLog ++ [row] }
  | _ => w

/-- A sequence value is spent even if the insert is rolled back. -/
def lasting (s : Stmt) (w : World) : World :=
  match s with
  | .createTransaction _ => { w with nextTransactionID := w.nextTransactionID + 1 }
  | _ => w

end World

inductive LockKey where
  | transaction (id : Int)
  | fill (key : FillKey)
  | payment (id : Int)
  | balance (key : BalanceKey)
  | advisory (table : String) (id : Int)
  deriving DecidableEq, Repr

namespace World

/-- The rows a statement locks: those it changes and those it reads
`for no key update`. An inserted row is out of reach of everyone else until
its transaction ends, as a row locked by its inserter is. -/
def locks (w : World) : Stmt → List LockKey
  | .createTransaction p => if w.createFits p then [.transaction w.nextTransactionID] else []
  | .updateTransaction p => if (w.updateTarget p).isSome then [.transaction p.id] else []
  | .cancelTransaction p => if (w.transactions.get p.id).isSome then [.transaction p.id] else []
  | .insertTransactionFill p => if w.fillFits p then [.fill p.key] else []
  | .markFillReorged id => if (w.fills.get id).isSome then [.fill id] else []
  | .createPayment p => if paymentFits p then [.payment w.nextPaymentID] else []
  | .updatePayment p => if (w.paymentTarget p.id p.merchantID).isSome then [.payment p.id] else []
  | .extendPaymentExpiry p =>
      if (w.paymentTarget p.id p.merchantID).isSome then [.payment p.id] else []
  | .getBalanceByFilterWithLock p =>
      ((w.getBalanceByFilter p).map fun r => LockKey.balance r.key).toList
  | .getBalanceByIDWithLock id => if (w.balances.get id).isSome then [.balance id] else []
  | .createBalance p => if w.balanceFits p then [.balance p.key] else []
  | .updateBalanceByID p => if (w.balanceTarget p).isSome then [.balance p.key] else []
  | .advisoryTxLock table id => [.advisory table id]
  | _ => []

end World

def engine : Engine Stmt Reply Env World LockKey where
  reply s env w := w.answer env s
  effect s env seen w := if env.fate = .refused then w else World.effect s env seen w
  lasting s env w := if env.fate = .refused then w else World.lasting s w
  locks s env w := if env.fate = .refused then [] else w.locks s
  opens env := env.fate = .done
  lands env := env.fate ≠ .refused
  acknowledged env := env.fate = .done

end CryptoLink
