import CryptoLink.Subscriptions.Service
import Mathlib.Data.String.Basic

/-!
# What merchants own

The tables a merchant's requests read and write: merchants and their settings,
API tokens, payments, payment links, customers, extended public keys with the
addresses derived from them, and collector contracts. One definition per query,
with the conditions of its `where` clause. Other tables answer through
`outside`.
-/

namespace CryptoLink

namespace MerchantAPI

open KeyedTables ReadCommitted StatementPrograms RankedListings

structure User where
  id : Int
  isSuperAdmin : Option Bool
  deriving DecidableEq, Repr

structure Merchant where
  id : Int
  uuid : String
  updatedAt : Int
  deletedAt : Option Int
  name : String
  website : String
  creatorID : Int
  settings : MetaData
  deriving DecidableEq, Repr

inductive TokenType where
  | user
  | merchant
  deriving DecidableEq, Repr

structure APIToken where
  id : Int
  entityType : TokenType
  entityID : Int
  createdAt : Int
  token : String
  name : String
  uuid : String
  deriving DecidableEq, Repr

/-- A row of `payments` with the columns that merchants see. -/
structure PaymentEntry extends PaymentRow where
  publicID : String
  merchantOrderUUID : String
  merchantOrderID : Option String
  description : Option String
  redirectURL : String
  deriving DecidableEq, Repr

structure PaymentLink where
  id : Int
  uuid : String
  slug : String
  createdAt : Int
  updatedAt : Int
  merchantID : Int
  name : String
  description : String
  price : Int
  decimals : Int
  currency : String
  successAction : String
  redirectURL : Option String
  successMessage : Option String
  isTest : Bool
  deriving DecidableEq, Repr

structure Customer where
  id : Int
  uuid : String
  createdAt : Int
  updatedAt : Int
  email : String
  merchantID : Int
  deriving DecidableEq, Repr

structure XpubWallet where
  id : Int
  uuid : String
  merchantID : Int
  blockchain : String
  xpub : String
  derivationPath : String
  createdAt : Int
  updatedAt : Int
  lastDerivedIndex : Option Int
  isActive : Bool
  deriving DecidableEq, Repr

structure DerivedAddress where
  id : Int
  uuid : String
  xpubWalletID : Int
  merchantID : Int
  blockchain : String
  address : String
  derivationPath : String
  derivationIndex : Int
  publicKey : String
  isUsed : Bool
  paymentID : Option Int
  createdAt : Int
  updatedAt : Int
  deriving DecidableEq, Repr

structure Collector where
  id : Int
  uuid : String
  merchantID : Int
  blockchain : String
  chainID : Int
  contractAddress : String
  ownerAddress : String
  factoryAddress : String
  isActive : Bool
  createdAt : Int
  updatedAt : Int
  deriving DecidableEq, Repr

structure World where
  users : Table Int User User.id
  merchants : Table Int Merchant Merchant.id
  tokens : Table Int APIToken APIToken.id
  payments : Table Int PaymentEntry fun p => p.id
  links : Table Int PaymentLink PaymentLink.id
  customers : Table Int Customer Customer.id
  xpubWallets : Table Int XpubWallet XpubWallet.id
  derivedAddresses : Table Int DerivedAddress DerivedAddress.id
  collectors : Table Int Collector Collector.id

def World.empty : World :=
  ⟨.empty, .empty, .empty, .empty, .empty, .empty, .empty, .empty, .empty⟩

/-- The settings of a merchant are a column of its own row. -/
def Merchant.owner (m : Merchant) : Option Int := some m.id

def APIToken.owner (t : APIToken) : Option Int :=
  if t.entityType = .merchant then some t.entityID else none

def PaymentEntry.owner (p : PaymentEntry) : Option Int := some p.merchantID

def PaymentLink.owner (l : PaymentLink) : Option Int := some l.merchantID

def Customer.owner (c : Customer) : Option Int := some c.merchantID

def XpubWallet.owner (x : XpubWallet) : Option Int := some x.merchantID

def DerivedAddress.owner (a : DerivedAddress) : Option Int := some a.merchantID

def Collector.owner (c : Collector) : Option Int := some c.merchantID

/-- Rows of all the tables that have owners. -/
@[ext] structure Holdings where
  merchants : List Merchant
  tokens : List APIToken
  payments : List PaymentEntry
  links : List PaymentLink
  customers : List Customer
  xpubWallets : List XpubWallet
  derivedAddresses : List DerivedAddress
  collectors : List Collector
  deriving DecidableEq

def Holdings.filter (q : Option Int → Bool) (h : Holdings) : Holdings where
  merchants := h.merchants.filter fun r => q r.owner
  tokens := h.tokens.filter fun r => q r.owner
  payments := h.payments.filter fun r => q r.owner
  links := h.links.filter fun r => q r.owner
  customers := h.customers.filter fun r => q r.owner
  xpubWallets := h.xpubWallets.filter fun r => q r.owner
  derivedAddresses := h.derivedAddresses.filter fun r => q r.owner
  collectors := h.collectors.filter fun r => q r.owner

def World.holdings (w : World) : Holdings where
  merchants := w.merchants.rows
  tokens := w.tokens.rows
  payments := w.payments.rows
  links := w.links.rows
  customers := w.customers.rows
  xpubWallets := w.xpubWallets.rows
  derivedAddresses := w.derivedAddresses.rows
  collectors := w.collectors.rows

/-- Everything a merchant owns. -/
def World.rowsOf (w : World) (merchantID : Int) : Holdings :=
  w.holdings.filter fun o => o = some merchantID

structure CreateTokenParams where
  entityType : TokenType
  entityID : Int
  createdAt : Int
  token : String
  uuid : String
  name : String
  deriving DecidableEq, Repr

structure CreateOrderParams where
  publicID : String
  createdAt : Int
  updatedAt : Int
  type : Payment.Kind
  status : Payment.Status
  merchantID : Int
  merchantOrderUUID : String
  merchantOrderID : Option String
  price : Int
  decimals : Int
  currency : String
  redirectURL : String
  description : Option String
  isTest : Bool
  metadata : Option MetaData
  deriving DecidableEq, Repr

structure CreatePaymentLinkParams where
  uuid : String
  slug : String
  createdAt : Int
  updatedAt : Int
  merchantID : Int
  name : String
  description : String
  price : Int
  decimals : Int
  currency : String
  successAction : String
  redirectURL : Option String
  successMessage : Option String
  isTest : Bool
  deriving DecidableEq, Repr

structure CreateXpubWalletParams where
  uuid : String
  merchantID : Int
  blockchain : String
  xpub : String
  derivationPath : String
  createdAt : Int
  updatedAt : Int
  lastDerivedIndex : Option Int
  isActive : Bool
  deriving DecidableEq, Repr

structure CreateDerivedAddressParams where
  uuid : String
  xpubWalletID : Int
  merchantID : Int
  blockchain : String
  address : String
  derivationPath : String
  derivationIndex : Int
  publicKey : String
  isUsed : Bool
  createdAt : Int
  updatedAt : Int
  deriving DecidableEq, Repr

structure UpsertCollectorParams where
  uuid : String
  merchantID : Int
  blockchain : String
  chainID : Int
  contractAddress : String
  ownerAddress : String
  factoryAddress : String
  now : Int
  deriving DecidableEq, Repr

/-- What is asked of tables and services that hold none of the rows above. -/
inductive Outside where
  | eagerLoadTransactions (merchantID : Int) (paymentIDs : List Int)
  | listBalances (merchantID : Int)
  | creditResolved (merchantID paymentID : Int)
  | publishPaymentStatusUpdate (merchantID paymentID : Int)
  | publishForm (topic message : String) (userID : Int)
  | convert (fromTicker toTicker amount : String)
  | getFactoryByBlockchain (blockchain : String)
  | fetchBalance (blockchain contractAddress : String)
  | checkPaymentLimit (merchantID : Int)
  | checkVolumeLimit (merchantID additionalVolumeUSD : Int)
  | getActiveSubscription (merchantID : Int)
  | getCurrentUsage (merchantID : Int)
  | getUsageHistory (merchantID : Int)
  | createSubscription (merchantID : Int) (planID : String) (periodStart periodEnd : Int)
  | cancelSubscription (merchantID : Int)
  deriving DecidableEq, Repr

inductive Stmt where
  | getUserByID (id : Int)
  | getAPIToken (entityType : TokenType) (token : String)
  | getMerchantByID (id : Int)
  | getMerchantByUUIDAndCreatorID (uuid : String) (creatorID : Int)
  | updateMerchant (id updatedAt : Int) (name website : String)
  | updateMerchantSettings (id updatedAt : Int) (settings : MetaData)
  | softDeleteMerchantByUUID (uuid : String)
  | listAPITokensByEntity (entityID : Int) (entityType : TokenType)
  | createAPIToken (p : CreateTokenParams)
  | getAPITokenByUUID (uuid : String)
  | deleteAPITokenByID (id : Int)
  | getXpubWalletByMerchantAndBlockchain (merchantID : Int) (blockchain : String)
  | createXpubWallet (p : CreateXpubWalletParams)
  | listXpubWalletsByMerchantID (merchantID : Int)
  | getXpubWalletByUUID (uuid : String)
  | getXpubWalletByID (id : Int)
  | getMaxDerivedIndexForXpub (xpub blockchain : String)
  | createDerivedAddress (p : CreateDerivedAddressParams)
  | updateXpubWalletLastIndex (id lastDerivedIndex updatedAt : Int)
  | getNextUnusedAddress (xpubWalletID : Int)
  | markAddressAsUsed (id paymentID updatedAt : Int)
  | listDerivedAddressesByWalletID (xpubWalletID : Int)
  | deleteDerivedAddressesByWalletID (xpubWalletID : Int)
  | hardDeleteXpubWallet (id : Int)
  | listCollectors (merchantID : Int)
  | getCollector (merchantID : Int) (blockchain : String)
  | upsertCollector (p : UpsertCollectorParams)
  | deactivateCollector (merchantID : Int) (blockchain : String) (updatedAt : Int)
  | paginatePaymentsAsc (merchantID fromID : Int) (limit : ℕ) (types : List Payment.Kind)
  | paginatePaymentsDesc (merchantID fromID : Int) (limit : ℕ) (types : List Payment.Kind)
  | getPaymentByMerchantIDAndOrderUUID (merchantID : Int) (orderUUID : String)
  | getPaymentByID (id merchantID : Int) (filterByMerchantID : Bool)
  | createPayment (p : CreateOrderParams)
  | updatePayment (p : UpdatePaymentParams)
  | listPaymentLinks (merchantID : Int) (limit : ℕ)
  | getPaymentLinkByPublicID (merchantID : Int) (uuid : String)
  | createPaymentLink (p : CreatePaymentLinkParams)
  | deletePaymentLinkByPublicID (merchantID : Int) (uuid : String)
  | paginateCustomersAsc (merchantID fromID : Int) (limit : ℕ)
  | paginateCustomersDesc (merchantID fromID : Int) (limit : ℕ)
  | getCustomerByUUID (merchantID : Int) (uuid : String)
  | getBatchCustomers (merchantID : Int) (ids : List Int)
  | calculateCustomerPayments (merchantID customerID : Int) (status : Payment.Status)
  | getRecentCustomerPayments (merchantID customerID : Int) (limit : ℕ)
  | getPlan (planID : String)
  | outside (what : Outside)
  | timeNow
  | newUUID
  | random
  | keysOf (tickers : List String)

@[reducible] def Reply : Stmt → Type
  | .getUserByID _ => Except Err User
  | .getAPIToken .. => Except Err APIToken
  | .getMerchantByID _ => Except Err Merchant
  | .getMerchantByUUIDAndCreatorID .. => Except Err Merchant
  | .updateMerchant .. => Except Err Merchant
  | .updateMerchantSettings .. => Except Err Unit
  | .softDeleteMerchantByUUID _ => Except Err Unit
  | .listAPITokensByEntity .. => Except Err (List APIToken)
  | .createAPIToken _ => Except Err APIToken
  | .getAPITokenByUUID _ => Except Err APIToken
  | .deleteAPITokenByID _ => Except Err Unit
  | .getXpubWalletByMerchantAndBlockchain .. => Except Err XpubWallet
  | .createXpubWallet _ => Except Err XpubWallet
  | .listXpubWalletsByMerchantID _ => Except Err (List XpubWallet)
  | .getXpubWalletByUUID _ => Except Err XpubWallet
  | .getXpubWalletByID _ => Except Err XpubWallet
  | .getMaxDerivedIndexForXpub .. => Except Err Int
  | .createDerivedAddress _ => Except Err DerivedAddress
  | .updateXpubWalletLastIndex .. => Except Err XpubWallet
  | .getNextUnusedAddress _ => Except Err DerivedAddress
  | .markAddressAsUsed .. => Except Err DerivedAddress
  | .listDerivedAddressesByWalletID _ => Except Err (List DerivedAddress)
  | .deleteDerivedAddressesByWalletID _ => Except Err Unit
  | .hardDeleteXpubWallet _ => Except Err Unit
  | .listCollectors _ => Except Err (List Collector)
  | .getCollector .. => Except Err Collector
  | .upsertCollector _ => Except Err Unit
  | .deactivateCollector .. => Except Err ℕ
  | .paginatePaymentsAsc .. => Except Err (List PaymentEntry)
  | .paginatePaymentsDesc .. => Except Err (List PaymentEntry)
  | .getPaymentByMerchantIDAndOrderUUID .. => Except Err PaymentEntry
  | .getPaymentByID .. => Except Err PaymentEntry
  | .createPayment _ => Except Err PaymentEntry
  | .updatePayment _ => Except Err PaymentEntry
  | .listPaymentLinks .. => Except Err (List PaymentLink)
  | .getPaymentLinkByPublicID .. => Except Err PaymentLink
  | .createPaymentLink _ => Except Err PaymentLink
  | .deletePaymentLinkByPublicID .. => Except Err Unit
  | .paginateCustomersAsc .. => Except Err (List Customer)
  | .paginateCustomersDesc .. => Except Err (List Customer)
  | .getCustomerByUUID .. => Except Err Customer
  | .getBatchCustomers .. => Except Err (List Customer)
  | .calculateCustomerPayments .. => Except Err ℕ
  | .getRecentCustomerPayments .. => Except Err (List PaymentEntry)
  | .getPlan _ => Except Err SubscriptionPlan
  | .outside _ => Except Err Unit
  | .timeNow => Int
  | .newUUID => String
  | .random => String
  | .keysOf _ => List String

/-- What the surroundings decide at one step: what becomes of the statement,
the clock, the next value of a sequence, what a random source draws, and what
other tables and services answer. -/
structure Env where
  fate : Fate := .done
  now : Int := 0
  id : Int := 0
  text : String := ""
  keys : List String := []
  plan : Except Err SubscriptionPlan := .error (Err.of .noRows)
  outcome : Except Err Unit := .ok ()

namespace World

variable (w : World)

/-- `deleted_at is null`, unless trashed merchants are asked for as well. -/
def getMerchantByID (id : Int) : Option Merchant :=
  (w.merchants.get id).filter fun m => m.deletedAt.isNone

def getMerchantByUUIDAndCreatorID (uuid : String) (creatorID : Int) : Option Merchant :=
  w.merchants.rows.find? fun m =>
    m.uuid = uuid && m.creatorID = creatorID && m.deletedAt.isNone

def renamedMerchant (updatedAt : Int) (name website : String) (m : Merchant) : Merchant :=
  { m with updatedAt := updatedAt, name := name, website := website }

def settledMerchant (updatedAt : Int) (settings : MetaData) (m : Merchant) : Merchant :=
  { m with updatedAt := updatedAt, settings := settings }

def trashedMerchant (now : Int) (m : Merchant) : Merchant := { m with deletedAt := some now }

def getAPIToken (entityType : TokenType) (token : String) : Option APIToken :=
  w.tokens.rows.find? fun t => t.entityType = entityType && t.token = token

def getAPITokenByUUID (uuid : String) : Option APIToken :=
  w.tokens.rows.find? fun t => t.uuid = uuid

/-- `order by id desc` -/
def listAPITokensByEntity (entityID : Int) (entityType : TokenType) : List APIToken :=
  ranked APIToken.id
    (w.tokens.rows.filter fun t => t.entityID = entityID && t.entityType = entityType)

def tokenFits (id : Int) (p : CreateTokenParams) : Bool :=
  (w.tokens.get id).isNone && w.tokens.rows.all fun t => t.token != p.token && t.uuid != p.uuid

def newToken (id : Int) (p : CreateTokenParams) : APIToken :=
  ⟨id, p.entityType, p.entityID, p.createdAt, p.token, p.name, p.uuid⟩

def getXpubWalletByMerchantAndBlockchain (merchantID : Int) (blockchain : String) :
    Option XpubWallet :=
  w.xpubWallets.rows.find? fun x =>
    x.merchantID = merchantID && x.blockchain = blockchain && x.isActive

/-- `order by created_at desc` -/
def listXpubWalletsByMerchantID (merchantID : Int) : List XpubWallet :=
  ranked XpubWallet.createdAt
    (w.xpubWallets.rows.filter fun x => x.merchantID = merchantID && x.isActive)

def getXpubWalletByUUID (uuid : String) : Option XpubWallet :=
  w.xpubWallets.rows.find? fun x => x.uuid = uuid

/-- Inactive wallets take part in the constraint of merchant and blockchain. -/
def xpubWalletFits (id : Int) (p : CreateXpubWalletParams) : Bool :=
  (w.xpubWallets.get id).isNone && (w.merchants.get p.merchantID).isSome &&
    w.xpubWallets.rows.all fun x =>
      x.uuid != p.uuid && !(x.merchantID = p.merchantID && x.blockchain = p.blockchain)

def newXpubWallet (id : Int) (p : CreateXpubWalletParams) : XpubWallet :=
  ⟨id, p.uuid, p.merchantID, p.blockchain, p.xpub, p.derivationPath, p.createdAt, p.updatedAt,
    p.lastDerivedIndex, p.isActive⟩

def advancedWallet (lastDerivedIndex updatedAt : Int) (x : XpubWallet) : XpubWallet :=
  { x with lastDerivedIndex := some lastDerivedIndex, updatedAt := updatedAt }

/-- `coalesce(max(derivation_index), -1)` over every wallet with the key. -/
def getMaxDerivedIndexForXpub (xpub blockchain : String) : Int :=
  ((w.derivedAddresses.rows.filter fun a =>
    match w.xpubWallets.get a.xpubWalletID with
    | none => false
    | some x => x.xpub = xpub && x.blockchain = blockchain).map
      DerivedAddress.derivationIndex).foldl max (-1)

/-- `is_used = false order by derivation_index asc` -/
def getNextUnusedAddress (xpubWalletID : Int) : Option DerivedAddress :=
  (ranked DerivedAddress.derivationIndex
    (w.derivedAddresses.rows.filter fun a =>
      a.xpubWalletID = xpubWalletID && !a.isUsed)).reverse.head?

def usedAddress (paymentID updatedAt : Int) (a : DerivedAddress) : DerivedAddress :=
  { a with isUsed := true, paymentID := some paymentID, updatedAt := updatedAt }

def listDerivedAddressesByWalletID (xpubWalletID : Int) : List DerivedAddress :=
  (ranked DerivedAddress.derivationIndex
    (w.derivedAddresses.rows.filter fun a => a.xpubWalletID = xpubWalletID)).reverse

/-- The two constraints whose violation means that an index is taken. -/
def indexTaken (p : CreateDerivedAddressParams) : Bool :=
  w.derivedAddresses.rows.any fun a =>
    a.xpubWalletID = p.xpubWalletID && a.derivationIndex = p.derivationIndex ||
      a.blockchain = p.blockchain && a.address = p.address

def derivedAddressFits (id : Int) (p : CreateDerivedAddressParams) : Bool :=
  (w.derivedAddresses.get id).isNone && (w.merchants.get p.merchantID).isSome &&
    (w.xpubWallets.get p.xpubWalletID).isSome &&
    (w.derivedAddresses.rows.all fun a => a.uuid != p.uuid) && !w.indexTaken p

def newDerivedAddress (id : Int) (p : CreateDerivedAddressParams) : DerivedAddress :=
  ⟨id, p.uuid, p.xpubWalletID, p.merchantID, p.blockchain, p.address, p.derivationPath,
    p.derivationIndex, p.publicKey, p.isUsed, none, p.createdAt, p.updatedAt⟩

/-- SQLSTATE 23505 on one of those two constraints. -/
def errIndexTaken : Cause := .text "duplicate key value violates unique constraint"

def createDerivedAddress (id : Int) (p : CreateDerivedAddressParams) :
    Except Err DerivedAddress :=
  if w.indexTaken p then .error (Err.of errIndexTaken)
  else fitting (w.derivedAddressFits id p) (newDerivedAddress id p)

/-- No derived address refers to the wallet. -/
def walletUnreferenced (id : Int) : Bool :=
  w.derivedAddresses.rows.all fun a => a.xpubWalletID ≠ id

/-- `order by blockchain` -/
def listCollectors (merchantID : Int) : List Collector :=
  (ranked Collector.blockchain
    (w.collectors.rows.filter fun c => c.merchantID = merchantID && c.isActive)).reverse

def getCollector (merchantID : Int) (blockchain : String) : Option Collector :=
  w.collectors.rows.find? fun c =>
    c.merchantID = merchantID && c.blockchain = blockchain && c.isActive

/-- The row that `on conflict (merchant_id, blockchain)` is about. -/
def isCollectorOf (merchantID : Int) (blockchain : String) (c : Collector) : Bool :=
  c.merchantID = merchantID && c.blockchain = blockchain

def collectorConflicts (p : UpsertCollectorParams) : Bool :=
  w.collectors.rows.any (isCollectorOf p.merchantID p.blockchain)

def collectorFits (id : Int) (p : UpsertCollectorParams) : Bool :=
  (w.merchants.get p.merchantID).isSome &&
    (w.collectorConflicts p ||
      (w.collectors.get id).isNone && w.collectors.rows.all fun c => c.uuid != p.uuid)

def newCollector (id : Int) (p : UpsertCollectorParams) : Collector :=
  ⟨id, p.uuid, p.merchantID, p.blockchain, p.chainID, p.contractAddress, p.ownerAddress,
    p.factoryAddress, true, p.now, p.now⟩

def replacedCollector (p : UpsertCollectorParams) (c : Collector) : Collector :=
  { c with
    contractAddress := p.contractAddress
    ownerAddress := p.ownerAddress
    factoryAddress := p.factoryAddress
    chainID := p.chainID
    isActive := true
    updatedAt := p.now }

def deactivatedCollector (updatedAt : Int) (c : Collector) : Collector :=
  { c with isActive := false, updatedAt := updatedAt }

def isListed (types : List Payment.Kind) (merchantID : Int) (p : PaymentEntry) : Bool :=
  p.merchantID = merchantID && (types.isEmpty || p.type ∈ types)

def paginatePaymentsAsc (merchantID fromID : Int) (limit : ℕ) (types : List Payment.Kind) :
    List PaymentEntry :=
  ((ranked (fun p : PaymentEntry => p.id) (w.payments.rows.filter fun p =>
    isListed types merchantID p && fromID ≤ p.id)).reverse).take limit

def paginatePaymentsDesc (merchantID fromID : Int) (limit : ℕ) (types : List Payment.Kind) :
    List PaymentEntry :=
  (ranked (fun p : PaymentEntry => p.id) (w.payments.rows.filter fun p =>
    isListed types merchantID p && p.id ≤ fromID)).take limit

def getPaymentByMerchantIDAndOrderUUID (merchantID : Int) (orderUUID : String) :
    Option PaymentEntry :=
  w.payments.rows.find? fun p => p.merchantID = merchantID && p.merchantOrderUUID = orderUUID

def getPaymentByID (id merchantID : Int) (filterByMerchantID : Bool) : Option PaymentEntry :=
  (w.payments.get id).filter fun p => !filterByMerchantID || p.merchantID = merchantID

def paymentFits (id : Int) (p : CreateOrderParams) : Bool :=
  (w.payments.get id).isNone &&
    (w.getPaymentByMerchantIDAndOrderUUID p.merchantID p.merchantOrderUUID).isNone

def newPayment (id : Int) (p : CreateOrderParams) : PaymentEntry where
  id := id
  createdAt := p.createdAt
  updatedAt := p.updatedAt
  type := p.type
  status := p.status
  merchantID := p.merchantID
  expiresAt := none
  originalExpiresAt := none
  price := p.price
  decimals := p.decimals
  currency := p.currency
  customerID := none
  isTest := p.isTest
  metadata := p.metadata
  publicID := p.publicID
  merchantOrderUUID := p.merchantOrderUUID
  merchantOrderID := p.merchantOrderID
  description := p.description
  redirectURL := p.redirectURL

def isPaymentOf (id merchantID : Int) (p : PaymentEntry) : Bool :=
  p.id = id && p.merchantID = merchantID

def updatedPayment (u : UpdatePaymentParams) (p : PaymentEntry) : PaymentEntry :=
  { p with
    status := u.status
    updatedAt := u.updatedAt
    expiresAt := if u.setExpiresAt then u.expiresAt else p.expiresAt }

/-- `order by id desc limit $2` -/
def listPaymentLinks (merchantID : Int) (limit : ℕ) : List PaymentLink :=
  (ranked PaymentLink.id (w.links.rows.filter fun l => l.merchantID = merchantID)).take limit

def isLinkOf (merchantID : Int) (uuid : String) (l : PaymentLink) : Bool :=
  l.merchantID = merchantID && l.uuid = uuid

def getPaymentLinkByPublicID (merchantID : Int) (uuid : String) : Option PaymentLink :=
  w.links.rows.find? (isLinkOf merchantID uuid)

def linkFits (id : Int) (p : CreatePaymentLinkParams) : Bool :=
  (w.links.get id).isNone && w.links.rows.all fun l => l.slug != p.slug

def newLink (id : Int) (p : CreatePaymentLinkParams) : PaymentLink :=
  ⟨id, p.uuid, p.slug, p.createdAt, p.updatedAt, p.merchantID, p.name, p.description, p.price,
    p.decimals, p.currency, p.successAction, p.redirectURL, p.successMessage, p.isTest⟩

def paginateCustomersAsc (merchantID fromID : Int) (limit : ℕ) : List Customer :=
  ((ranked Customer.id (w.customers.rows.filter fun c =>
    c.merchantID = merchantID && fromID ≤ c.id)).reverse).take limit

def paginateCustomersDesc (merchantID fromID : Int) (limit : ℕ) : List Customer :=
  (ranked Customer.id (w.customers.rows.filter fun c =>
    c.merchantID = merchantID && c.id ≤ fromID)).take limit

def getCustomerByUUID (merchantID : Int) (uuid : String) : Option Customer :=
  w.customers.rows.find? fun c => c.uuid = uuid && c.merchantID = merchantID

def getBatchCustomers (merchantID : Int) (ids : List Int) : List Customer :=
  w.customers.rows.filter fun c => c.merchantID = merchantID && c.id ∈ ids

def paymentsOfCustomer (merchantID customerID : Int) : List PaymentEntry :=
  w.payments.rows.filter fun p => p.merchantID = merchantID && p.customerID = some customerID

/-- A group without rows is no row of the answer. -/
def calculateCustomerPayments (merchantID customerID : Int) (status : Payment.Status) :
    Option ℕ :=
  let counted := (w.paymentsOfCustomer merchantID customerID).filter fun p => p.status = status
  if counted.isEmpty then none else some counted.length

def getRecentCustomerPayments (merchantID customerID : Int) (limit : ℕ) : List PaymentEntry :=
  (ranked (fun p : PaymentEntry => p.id) (w.paymentsOfCustomer merchantID customerID)).take limit

/-- What a statement answers on the tables it sees. -/
def answer (env : Env) (w : World) : (s : Stmt) → Reply s
  | .getUserByID id => answered env.fate .database (noRows (w.users.get id))
  | .getAPIToken entityType token =>
    answered env.fate .database (noRows (w.getAPIToken entityType token))
  | .getMerchantByID id => answered env.fate .database (noRows (w.getMerchantByID id))
  | .getMerchantByUUIDAndCreatorID uuid creatorID =>
      answered env.fate .database (noRows (w.getMerchantByUUIDAndCreatorID uuid creatorID))
  | .updateMerchant id updatedAt name website => answered env.fate .database
      (noRows ((w.merchants.get id).map (renamedMerchant updatedAt name website)))
  | .updateMerchantSettings .. => answered env.fate .database (.ok ())
  | .softDeleteMerchantByUUID _ => answered env.fate .database (.ok ())
  | .listAPITokensByEntity entityID entityType =>
      answered env.fate .database (.ok (w.listAPITokensByEntity entityID entityType))
  | .createAPIToken p =>
    answered env.fate .database (fitting (w.tokenFits env.id p) (newToken env.id p))
  | .getAPITokenByUUID uuid => answered env.fate .database (noRows (w.getAPITokenByUUID uuid))
  | .deleteAPITokenByID _ => answered env.fate .database (.ok ())
  | .getXpubWalletByMerchantAndBlockchain m blockchain =>
      answered env.fate .database (noRows (w.getXpubWalletByMerchantAndBlockchain m blockchain))
  | .createXpubWallet p =>
      answered env.fate .database (fitting (w.xpubWalletFits env.id p) (newXpubWallet env.id p))
  | .listXpubWalletsByMerchantID m =>
    answered env.fate .database (.ok (w.listXpubWalletsByMerchantID m))
  | .getXpubWalletByUUID uuid => answered env.fate .database (noRows (w.getXpubWalletByUUID uuid))
  | .getXpubWalletByID id => answered env.fate .database (noRows (w.xpubWallets.get id))
  | .getMaxDerivedIndexForXpub xpub blockchain =>
      answered env.fate .database (.ok (w.getMaxDerivedIndexForXpub xpub blockchain))
  | .createDerivedAddress p => answered env.fate .database (w.createDerivedAddress env.id p)
  | .updateXpubWalletLastIndex id lastDerivedIndex updatedAt => answered env.fate .database
      (noRows ((w.xpubWallets.get id).map (advancedWallet lastDerivedIndex updatedAt)))
  | .getNextUnusedAddress id => answered env.fate .database (noRows (w.getNextUnusedAddress id))
  | .markAddressAsUsed id paymentID updatedAt => answered env.fate .database
      (noRows ((w.derivedAddresses.get id).map (usedAddress paymentID updatedAt)))
  | .listDerivedAddressesByWalletID id =>
    answered env.fate .database (.ok (w.listDerivedAddressesByWalletID id))
  | .deleteDerivedAddressesByWalletID _ => answered env.fate .database (.ok ())
  | .hardDeleteXpubWallet id => answered env.fate .database (fitting (w.walletUnreferenced id) ())
  | .listCollectors m => answered env.fate .database (.ok (w.listCollectors m))
  | .getCollector m blockchain => answered env.fate .database (noRows (w.getCollector m blockchain))
  | .upsertCollector p => answered env.fate .database (fitting (w.collectorFits env.id p) ())
  | .deactivateCollector m blockchain _ =>
      answered env.fate .database (.ok (w.collectors.rows.countP (isCollectorOf m blockchain)))
  | .paginatePaymentsAsc m fromID limit types =>
      answered env.fate .database (.ok (w.paginatePaymentsAsc m fromID limit types))
  | .paginatePaymentsDesc m fromID limit types =>
      answered env.fate .database (.ok (w.paginatePaymentsDesc m fromID limit types))
  | .getPaymentByMerchantIDAndOrderUUID m orderUUID =>
      answered env.fate .database (noRows (w.getPaymentByMerchantIDAndOrderUUID m orderUUID))
  | .getPaymentByID id m filterByMerchantID =>
      answered env.fate .database (noRows (w.getPaymentByID id m filterByMerchantID))
  | .createPayment p =>
    answered env.fate .database (fitting (w.paymentFits env.id p) (newPayment env.id p))
  | .updatePayment p => answered env.fate .database
      (noRows ((w.getPaymentByID p.id p.merchantID true).map (updatedPayment p)))
  | .listPaymentLinks m limit => answered env.fate .database (.ok (w.listPaymentLinks m limit))
  | .getPaymentLinkByPublicID m uuid =>
    answered env.fate .database (noRows (w.getPaymentLinkByPublicID m uuid))
  | .createPaymentLink p =>
    answered env.fate .database (fitting (w.linkFits env.id p) (newLink env.id p))
  | .deletePaymentLinkByPublicID .. => answered env.fate .database (.ok ())
  | .paginateCustomersAsc m fromID limit =>
      answered env.fate .database (.ok (w.paginateCustomersAsc m fromID limit))
  | .paginateCustomersDesc m fromID limit =>
      answered env.fate .database (.ok (w.paginateCustomersDesc m fromID limit))
  | .getCustomerByUUID m uuid => answered env.fate .database (noRows (w.getCustomerByUUID m uuid))
  | .getBatchCustomers m ids => answered env.fate .database (.ok (w.getBatchCustomers m ids))
  | .calculateCustomerPayments m customerID status =>
      answered env.fate .database (noRows (w.calculateCustomerPayments m customerID status))
  | .getRecentCustomerPayments m customerID limit =>
      answered env.fate .database (.ok (w.getRecentCustomerPayments m customerID limit))
  | .getPlan _ => answered env.fate .database env.plan
  | .outside _ => answered env.fate .database env.outcome
  | .timeNow => env.now
  | .newUUID => env.text
  | .random => env.text
  | .keysOf tickers => if env.keys.isPerm tickers then env.keys else tickers

-- an update leaves the key of its row alone

theorem renamedMerchant_id (updatedAt : Int) (name website : String) (m : Merchant) :
    (renamedMerchant updatedAt name website m).id = m.id := rfl

theorem settledMerchant_id (updatedAt : Int) (settings : MetaData) (m : Merchant) :
    (settledMerchant updatedAt settings m).id = m.id := rfl

theorem trashedMerchant_id (now : Int) (m : Merchant) : (trashedMerchant now m).id = m.id := rfl

theorem advancedWallet_id (lastDerivedIndex updatedAt : Int) (x : XpubWallet) :
    (advancedWallet lastDerivedIndex updatedAt x).id = x.id := rfl

theorem usedAddress_id (paymentID updatedAt : Int) (a : DerivedAddress) :
    (usedAddress paymentID updatedAt a).id = a.id := rfl

theorem replacedCollector_id (p : UpsertCollectorParams) (c : Collector) :
    (replacedCollector p c).id = c.id := rfl

theorem deactivatedCollector_id (updatedAt : Int) (c : Collector) :
    (deactivatedCollector updatedAt c).id = c.id := rfl

theorem updatedPayment_id (u : UpdatePaymentParams) (p : PaymentEntry) :
    (updatedPayment u p).id = p.id := rfl

/-- What a statement does to the tables. -/
def effect (s : Stmt) (env : Env) (w : World) : World :=
  match s with
  | .updateMerchant id updatedAt name website =>
      { w with
        merchants := w.merchants.updateWhere (fun m => m.id = id)
          (renamedMerchant updatedAt name website) (renamedMerchant_id updatedAt name website) }
  | .updateMerchantSettings id updatedAt settings =>
      { w with
        merchants := w.merchants.updateWhere (fun m => m.id = id)
          (settledMerchant updatedAt settings) (settledMerchant_id updatedAt settings) }
  | .softDeleteMerchantByUUID uuid =>
      { w with
        merchants := w.merchants.updateWhere (fun m => m.uuid = uuid) (trashedMerchant env.now)
          (trashedMerchant_id env.now) }
  | .createAPIToken p =>
      if w.tokenFits env.id p then { w with tokens := w.tokens.insert (newToken env.id p) } else w
  | .deleteAPITokenByID id => { w with tokens := w.tokens.deleteWhere fun t => t.id = id }
  | .createXpubWallet p =>
      if w.xpubWalletFits env.id p then
        { w with xpubWallets := w.xpubWallets.insert (newXpubWallet env.id p) }
      else w
  | .createDerivedAddress p =>
      if w.derivedAddressFits env.id p then
        { w with derivedAddresses := w.derivedAddresses.insert (newDerivedAddress env.id p) }
      else w
  | .updateXpubWalletLastIndex id lastDerivedIndex updatedAt =>
      { w with
        xpubWallets := w.xpubWallets.updateWhere (fun x => x.id = id)
          (advancedWallet lastDerivedIndex updatedAt)
          (advancedWallet_id lastDerivedIndex updatedAt) }
  | .markAddressAsUsed id paymentID updatedAt =>
      { w with
        derivedAddresses := w.derivedAddresses.updateWhere (fun a => a.id = id)
          (usedAddress paymentID updatedAt) (usedAddress_id paymentID updatedAt) }
  | .deleteDerivedAddressesByWalletID id =>
      { w with derivedAddresses := w.derivedAddresses.deleteWhere fun a => a.xpubWalletID = id }
  | .hardDeleteXpubWallet id =>
      if w.walletUnreferenced id then
        { w with xpubWallets := w.xpubWallets.deleteWhere fun x => x.id = id }
      else w
  | .upsertCollector p =>
      if w.collectorFits env.id p then
        if w.collectorConflicts p then
          { w with
            collectors := w.collectors.updateWhere (isCollectorOf p.merchantID p.blockchain)
              (replacedCollector p) (replacedCollector_id p) }
        else { w with collectors := w.collectors.insert (newCollector env.id p) }
      else w
  | .deactivateCollector m blockchain updatedAt =>
      { w with
        collectors := w.collectors.updateWhere (isCollectorOf m blockchain)
          (deactivatedCollector updatedAt) (deactivatedCollector_id updatedAt) }
  | .createPayment p =>
      if w.paymentFits env.id p then
        { w with payments := w.payments.insert (newPayment env.id p) }
      else w
  | .updatePayment p =>
      { w with
        payments := w.payments.updateWhere (isPaymentOf p.id p.merchantID) (updatedPayment p)
          (updatedPayment_id p) }
  | .createPaymentLink p =>
      if w.linkFits env.id p then { w with links := w.links.insert (newLink env.id p) } else w
  | .deletePaymentLinkByPublicID m uuid =>
      { w with links := w.links.deleteWhere (isLinkOf m uuid) }
  | _ => w

end World

/-- Every statement commits by itself. -/
def engine : Engine Stmt Reply Env World Empty where
  reply s env w := w.answer env s
  effect s env _ w := if env.fate = .refused then w else World.effect s env w
  lasting _ _ w := w
  locks _ _ _ := []
  opens env := env.fate = .done
  lands env := env.fate ≠ .refused
  acknowledged env := env.fate = .done

theorem autocommit_eq (s : Stmt) (env : Env) (w : World) :
    engine.autocommit s env w = if env.fate = .refused then w else World.effect s env w := rfl

abbrev TenantCall (α : Type) := Prog (Cmd Stmt) (Answer Reply) Err α

abbrev query := @onPool Stmt Reply Err

/-- A read answers from the tables and leaves them. -/
theorem alone_read (envs : ℕ → Env) {st : Stmt} (hreads : World.effect st = fun _ w => w) (n : ℕ)
    (w : World) :
    engine.alone envs (query st) n ⟨w, .idle⟩ =
      (.ok (w.answer (envs n) st), n + 1, ⟨w, .idle⟩) := by
  have hsame : engine.autocommit st (envs n) w = w := by
    rw [autocommit_eq, hreads]
    exact ite_self w
  rw [Engine.alone_onPool, hsame]
  rfl

end MerchantAPI

end CryptoLink
