import CryptoLink.Merchants.Xpub

/-!
# The services behind the merchant API

Each function carries the merchant it works for down to its queries, or does
not: the wallet functions that take a UUID or an id alone find the wallets of
everybody.
-/

namespace CryptoLink

namespace MerchantAPI

open ReadCommitted StatementPrograms

/-- What the server is set up with, and the libraries it calls. -/
structure Server extends KeyLibraries where
  parseUUID : String → Option String
  isUUID : String → Bool
  parseRequestURI : String → Bool
  validURL : String → Bool
  toUpper : String → String
  toLower : String → String
  chains : String → Option (Int × String)
  tickers : List String
  limitsEnforced : Bool
  adminMerchantID : Int

def errMerchantNotFound : Cause := .text "merchant not found"

def errTokenNotFound : Cause := .text "token not found"

def errAlreadyExists : Cause := .text "payment already exists"

def errLinkValidation : Cause := .text "payment link is invalid"

def errInvalidLimit : Cause := .text "invalid limit"

def errCollectorNotFound : Cause := .text "evm collector not found"

def getMerchantByID (id : Int) : TenantCall Merchant := do
  let entry ← query (.getMerchantByID id)
  succeed (orNotFound errMerchantNotFound entry)

def getByUUIDAndCreatorID (uuid : String) (creatorID : Int) : TenantCall Merchant := do
  let entry ← query (.getMerchantByUUIDAndCreatorID uuid creatorID)
  succeed (orNotFound errMerchantNotFound entry)

def updateMerchant (id : Int) (name website : String) : TenantCall Merchant := do
  let _ ← getMerchantByID id
  let now ← query .timeNow
  let entry ← query (.updateMerchant id now name website)
  succeed (orNotFound errMerchantNotFound entry)

def upsertSettings (mt : Merchant) (settings : MetaData) : TenantCall Unit := do
  let now ← query .timeNow
  let done ← query (.updateMerchantSettings mt.id now (mt.settings.merge settings))
  succeed done

/-- The keys of a map are stored in whatever order they come. -/
def Server.updateSupportedMethods (s : Server) (mt : Merchant) (tickers : List String) :
    TenantCall Unit :=
  if tickers.isEmpty then .fail (Err.new "tickers are empty")
  else if tickers.all (· ∈ s.tickers) then do
    let keys ← query (.keysOf tickers)
    upsertSettings mt [("payment.methods", String.intercalate "," keys)]
  else .fail (Err.new "ticker doesn't exist")

def deleteByUUID (uuid : String) : TenantCall Unit := do
  let done ← query (.softDeleteMerchantByUUID uuid)
  succeed done

def getToken (tokenType : TokenType) (token : String) : TenantCall APIToken := do
  let entry ← query (.getAPIToken tokenType token)
  succeed entry

def getTokenByUUID (uuid : String) : TenantCall APIToken := do
  let entry ← query (.getAPITokenByUUID uuid)
  succeed (orNotFound errTokenNotFound entry)

def getMerchantTokenByUUID (merchantID : Int) (uuid : String) : TenantCall APIToken := do
  let token ← getTokenByUUID uuid
  if token.entityType ≠ .merchant ∨ token.entityID ≠ merchantID then
    .fail (Err.of errTokenNotFound)
  else pure token

def createMerchantToken (merchantID : Int) (name : String) : TenantCall APIToken := do
  let token ← query .random
  let now ← query .timeNow
  let uuid ← query .newUUID
  let entry ← query (.createAPIToken ⟨.merchant, merchantID, now, token, uuid, name⟩)
  succeed entry

def listByEntityType (tokenType : TokenType) (entityID : Int) : TenantCall (List APIToken) := do
  let entries ← query (.listAPITokensByEntity entityID tokenType)
  succeed entries

def deleteToken (id : Int) : TenantCall Unit := do
  let done ← query (.deleteAPITokenByID id)
  succeed done

namespace Server

variable (s : Server)

def getCollector (merchantID : Int) (blockchain : String) : TenantCall Collector := do
  let row ← query (.getCollector merchantID (s.toUpper blockchain))
  succeed (orNotFound errCollectorNotFound row)

def registerCollector (merchantID : Int) (blockchain : String) (chainID : Int)
    (contractAddress ownerAddress factoryAddress : String) : TenantCall Collector := do
  let blockchain := s.toUpper blockchain
  let fold := if blockchain ≠ "TRON" then s.toLower else id
  let now ← query .timeNow
  let uuid ← query .newUUID
  let done ← query (.upsertCollector {
    uuid := uuid
    merchantID := merchantID
    blockchain := blockchain
    chainID := chainID
    contractAddress := fold contractAddress
    ownerAddress := fold ownerAddress
    factoryAddress := factoryAddress
    now := now })
  succeed (wrapErr "unable to upsert evm collector" done)
  s.getCollector merchantID blockchain

def deleteCollector (merchantID : Int) (blockchain : String) : TenantCall Unit := do
  let now ← query .timeNow
  let affected ← query (.deactivateCollector merchantID (s.toUpper blockchain) now)
  let rows ← succeed (wrapErr "unable to delete evm collector" affected)
  if rows = 0 then .fail (Err.of errCollectorNotFound) else pure ()

def getChainConfig (blockchain : String) : Option (Int × String) := s.chains (s.toUpper blockchain)

end Server

def listCollectors (merchantID : Int) : TenantCall (List Collector) := do
  let rows ← query (.listCollectors merchantID)
  succeed (wrapErr "unable to list evm collectors" rows)

/-- The row, once its price and metadata can be read. -/
def readPayment (p : PaymentEntry) : Except Err PaymentEntry :=
  (entryToPayment p.toPaymentRow).map fun _ => p

def readPayments (ps : List PaymentEntry) : Except Err (List PaymentEntry) :=
  (ps.mapM readPayment).map fun _ => ps

def getPaymentByID (merchantID id : Int) : TenantCall PaymentEntry := do
  let p ← query (.getPaymentByID id merchantID
    (decide (merchantID ≠ Transaction.merchantIDWildcard)))
  succeed ((orNotFound .errPaymentNotFound p).bind readPayment)

def getByMerchantOrderID (merchantID : Int) (orderUUID : String) : TenantCall PaymentEntry := do
  let p ← query (.getPaymentByMerchantIDAndOrderUUID merchantID orderUUID)
  succeed ((orNotFound .errPaymentNotFound p).bind readPayment)

structure ListOptions where
  limit : ℕ
  cursor : String
  reverseOrder : Bool
  filterByType : List Payment.Kind
  deriving DecidableEq, Repr

def limitDefault : ℕ := 50

def limitMax : ℕ := 100

def maxInt64 : Int := 2 ^ 63 - 1

/-- The last of `limit + 1` entries is the next cursor and no result. -/
def nextCursor {α : Type} (name : α → String) (limit : ℕ) (entries : List α) : String :=
  if limit < entries.length then (entries.getLast?.map name).getD "" else ""

def Server.cursorPayment (s : Server) (merchantID : Int) (cursor : String) :
    TenantCall (Option PaymentEntry) :=
  if cursor = "" then pure none
  else
    match s.parseUUID cursor with
    | none => .fail ((Err.of .errValidation).wrap "invalid cursor")
    | some uuid => do
        let p ← (getByMerchantOrderID merchantID uuid).mapError
          (Err.wrap "unable to get fromID payment")
        pure (some p)

def Server.list (s : Server) (merchantID : Int) (opts : ListOptions) :
    TenantCall (List PaymentEntry × String) :=
  let limit := if opts.limit = 0 then limitDefault else opts.limit
  if limitMax < limit then .fail (Err.of errInvalidLimit)
  else do
    let cursor ← s.cursorPayment merchantID opts.cursor
    let results ←
      if opts.reverseOrder then
        query (.paginatePaymentsDesc merchantID ((cursor.map fun p => p.id).getD maxInt64)
          (limit + 1) opts.filterByType)
      else
        query (.paginatePaymentsAsc merchantID ((cursor.map fun p => p.id).getD 0)
          (limit + 1) opts.filterByType)
    let entries ← succeed (wrapErr "unable to paginate payments" results)
    let payments ← succeed (wrapErr "unable to map payments" (readPayments entries))
    pure (payments.take limit, nextCursor PaymentEntry.merchantOrderUUID limit payments)

structure PaymentWithRelations where
  payment : PaymentEntry
  customer : Option Customer
  deriving DecidableEq, Repr

/-- The conversion `int32(i)`. -/
def int32 (i : Int) : Int := (i + 2 ^ 31) % 2 ^ 32 - 2 ^ 31

def eagerLoadCustomers (merchantID : Int) (payments : List PaymentEntry) :
    TenantCall (List PaymentWithRelations) := do
  let ids := payments.map fun p => p.customerID.getD 0
  let found ← query (.getBatchCustomers merchantID (ids.map int32))
  let customers ← succeed found
  pure (payments.map fun p =>
    ⟨p, p.customerID.bind fun id => customers.find? fun c => c.id = id⟩)

def eagerLoadRelations (merchantID : Int) (payments : List PaymentEntry) :
    TenantCall (List PaymentWithRelations) := do
  let txs ← query (.outside (.eagerLoadTransactions merchantID (payments.map fun p => p.id)))
  succeed (wrapErr "unable to eager load transactions" txs)
  let loaded ← (eagerLoadCustomers merchantID payments).mapError
    (Err.wrap "unable to eager load customers")
  let balances ← query (.outside (.listBalances merchantID))
  succeed (wrapErr "unable to eager load balances" balances)
  pure loaded

def Server.listWithRelations (s : Server) (merchantID : Int) (opts : ListOptions) :
    TenantCall (List PaymentWithRelations × String) := do
  let (payments, cursor) ← (s.list merchantID opts).mapError (Err.wrap "unable to list payments")
  let loaded ← eagerLoadRelations merchantID payments
  pure (loaded, cursor)

def getByMerchantOrderIDWithRelations (merchantID : Int) (orderUUID : String) :
    TenantCall (List PaymentWithRelations) := do
  let pt ← getByMerchantOrderID merchantID orderUUID
  eagerLoadRelations merchantID [pt]

structure CreatePaymentProps where
  merchantOrderUUID : String
  merchantOrderID : Option String
  money : Money
  redirectURL : Option String
  description : Option String
  isTest : Bool
  deriving DecidableEq, Repr

def nilUUID : String := "00000000-0000-0000-0000-000000000000"

namespace Server

variable (s : Server)

/-- No request of the merchant API carries the options of a payment link. -/
def validate (p : CreatePaymentProps) : Except Err Unit :=
  if p.merchantOrderUUID = nilUUID then
    .error ((Err.of .errValidation).wrap "merchant order uuid is not set")
  else if p.money.moneyType ≠ .fiat then .error ((Err.of .errValidation).wrap "invalid currency")
  else if p.money.value ≤ 0 then
    .error ((Err.of .errValidation).wrap "price can't be zero or negative")
  else if (p.redirectURL.map s.validURL).getD true = false then
    .error ((Err.of .errValidation).wrap "invalid redirect url")
  else .ok ()

def createPayment (merchantID : Int) (props : CreatePaymentProps) : TenantCall PaymentEntry := do
  succeed (s.validate props)
  let mt ← getMerchantByID merchantID
  let known ← (getByMerchantOrderID merchantID props.merchantOrderUUID).attempt
  match known with
  | .ok _ => .fail (Err.of errAlreadyExists)
  | .error _ => do
      let now ← query .timeNow
      let publicID ← query .newUUID
      let p ← query (.createPayment {
        publicID := publicID
        createdAt := now
        updatedAt := now
        type := .payment
        status := .pending
        merchantID := merchantID
        merchantOrderUUID := props.merchantOrderUUID
        merchantOrderID := props.merchantOrderID
        price := props.money.value
        decimals := props.money.decimals
        currency := props.money.ticker
        redirectURL := props.redirectURL.getD mt.website
        description := props.description
        isTest := props.isTest
        metadata := none })
      succeed (p.bind readPayment)

end Server

/-- `payment.Service.Update` -/
def updatePayment (merchantID id : Int) (status : Payment.Status) : TenantCall PaymentEntry := do
  let now ← query .timeNow
  let later ← query .timeNow
  let r ← query (.updatePayment {
    id := id
    merchantID := merchantID
    status := status
    updatedAt := now
    expiresAt := if status = .locked then some (later + expirationPeriodForLocked) else none
    setExpiresAt := decide (status = .locked) })
  let pt ← succeed (orNotFound .errPaymentNotFound r)
  if pt.merchantID ≠ 0 then do
    let published ← query (.outside (.publishPaymentStatusUpdate pt.merchantID pt.id))
    succeed (wrapErr "unable to publish event" published)
    succeed (readPayment pt)
  else succeed (readPayment pt)

def resolvePayment (merchantID paymentID : Int) : TenantCall PaymentEntry := do
  let pt ← getPaymentByID merchantID paymentID
  if pt.status ≠ .failed ∧ pt.status ≠ .underpaid then
    .fail ((Err.of .errValidation).wrap "only failed or underpaid payments can be resolved")
  else do
    let resolved ← (updatePayment merchantID pt.id .success).mapError
      (Err.wrap "unable to resolve payment")
    if pt.status = .underpaid then do
      -- no failure of the credit reaches the caller
      let _ ← query (.outside (.creditResolved merchantID resolved.id))
      pure resolved
    else pure resolved

def declinePayment (merchantID paymentID : Int) : TenantCall PaymentEntry := do
  let pt ← getPaymentByID merchantID paymentID
  if pt.status ≠ .underpaid then
    .fail ((Err.of .errValidation).wrap "only underpaid payments can be declined")
  else (updatePayment merchantID pt.id .failed).mapError (Err.wrap "unable to decline payment")

structure CreateLinkProps where
  name : String
  price : Money
  description : Option String
  successAction : String
  redirectURL : Option String
  successMessage : Option String
  isTest : Bool
  deriving DecidableEq, Repr

/-- The row, once its price can be read. -/
def readLink (l : PaymentLink) : Except Err PaymentLink :=
  (makeFiatCurrency l.currency).map fun _ => l

def readLinks (ls : List PaymentLink) : Except Err (List PaymentLink) :=
  (ls.mapM readLink).map fun _ => ls

def invalidLink (message : String) : Except Err Unit :=
  .error ((Err.of errLinkValidation).wrap message)

namespace Server

variable (s : Server)

def validateLink (p : CreateLinkProps) : Except Err Unit :=
  if p.name = "" then invalidLink "name required"
  else if p.price.moneyType ≠ .fiat then invalidLink "invalid currency"
  else if p.price.value ≤ 0 then invalidLink "price can't be zero or negative"
  else if p.successAction = "redirect" then
    match p.redirectURL with
    | none => invalidLink "redirectUrl required"
    | some url =>
      if s.validURL url = false then invalidLink "invalid redirect url"
      else if p.successMessage.isSome then invalidLink "successMessage should not be present"
      else .ok ()
  else if p.successAction = "showMessage" then
    if p.successMessage.getD "" = "" then invalidLink "successMessage required"
    else if p.redirectURL.isSome then invalidLink "redirectUrl should not be present"
    else .ok ()
  else invalidLink "invalid successAction"

def createPaymentLink (merchantID : Int) (props : CreateLinkProps) : TenantCall PaymentLink := do
  succeed (s.validateLink props)
  let _ ← getMerchantByID merchantID
  let uuid ← query .newUUID
  let slug ← query .random
  let createdAt ← query .timeNow
  let updatedAt ← query .timeNow
  let link ← query (.createPaymentLink {
    uuid := uuid
    slug := slug
    createdAt := createdAt
    updatedAt := updatedAt
    merchantID := merchantID
    name := props.name
    description := props.description.getD ""
    price := props.price.value
    decimals := props.price.decimals
    currency := props.price.ticker
    successAction := props.successAction
    redirectURL := props.redirectURL
    successMessage := props.successMessage
    isTest := props.isTest })
  succeed (link.bind readLink)

end Server

def listPaymentLinks (merchantID : Int) : TenantCall (List PaymentLink) := do
  let entries ← query (.listPaymentLinks merchantID 100)
  succeed (entries.bind readLinks)

def getPaymentLinkByPublicID (merchantID : Int) (uuid : String) : TenantCall PaymentLink := do
  let link ← query (.getPaymentLinkByPublicID merchantID uuid)
  succeed ((orNotFound .errPaymentNotFound link).bind readLink)

def deletePaymentLinkByPublicID (merchantID : Int) (uuid : String) : TenantCall Unit := do
  let _ ← getPaymentLinkByPublicID merchantID uuid
  let done ← query (.deletePaymentLinkByPublicID merchantID uuid)
  succeed done

def getCustomerByUUID (merchantID : Int) (uuid : String) : TenantCall Customer := do
  let c ← query (.getCustomerByUUID merchantID uuid)
  succeed (orNotFound .errPaymentNotFound c)

structure CustomerDetails where
  customer : Customer
  successfulPayments : ℕ
  recentPayments : List PaymentEntry
  deriving DecidableEq, Repr

def getCustomerDetailsByUUID (merchantID : Int) (uuid : String) :
    TenantCall CustomerDetails := do
  let c ← getCustomerByUUID merchantID uuid
  -- a failed count reads as none
  let counted ← query (.calculateCustomerPayments merchantID c.id .success)
  let recent ← query (.getRecentCustomerPayments merchantID c.id 10)
  let entries ← succeed (wrapErr "unable to list recent customer payments" recent)
  let payments ← succeed (wrapErr "unable to get payments" (readPayments entries))
  pure ⟨c, counted.toOption.getD 0, payments⟩

def Server.cursorCustomer (s : Server) (merchantID : Int) (cursor : String) :
    TenantCall (Option Customer) :=
  if cursor = "" then pure none
  else
    match s.parseUUID cursor with
    | none => .fail ((Err.of .errValidation).wrap "invalid cursor")
    | some uuid => do
        let c ← (getCustomerByUUID merchantID uuid).mapError
          (Err.wrap "unable to get fromID customer")
        pure (some c)

def Server.listCustomers (s : Server) (merchantID : Int) (opts : ListOptions) :
    TenantCall (List Customer × String) :=
  let limit := if opts.limit = 0 then limitDefault else opts.limit
  if limitMax < limit then .fail (Err.of errInvalidLimit)
  else do
    let cursor ← s.cursorCustomer merchantID opts.cursor
    let results ←
      if opts.reverseOrder then
        query (.paginateCustomersDesc merchantID ((cursor.map Customer.id).getD maxInt64)
          (limit + 1))
      else
        query (.paginateCustomersAsc merchantID ((cursor.map Customer.id).getD 0) (limit + 1))
    let customers ← succeed (wrapErr "unable to paginate customers" results)
    pure (customers.take limit, nextCursor Customer.uuid limit customers)

/-- `PaymentServiceAdapter.CreatePayment` for the operator's own merchant. -/
def Server.adapterCreatePayment (s : Server) (amountUSD : Int) (description redirectURL : String) :
    TenantCall PaymentEntry := do
  let amount ← succeed (wrapErr "failed to create money amount"
    (Money.new .fiat "USD" (Subscription.decimalString amountUSD) 2))
  let orderUUID ← query .newUUID
  (s.createPayment s.adminMerchantID {
    merchantOrderUUID := orderUUID
    merchantOrderID := none
    money := amount
    redirectURL := some redirectURL
    description := some description
    isTest := false }).mapError (Err.wrap "failed to create payment")

/-- The payment that is due, unless the plan is free. -/
def Server.createSubscriptionPayment (s : Server) (merchantID : Int)
    (planID redirectURL : String) : TenantCall (Option PaymentEntry) := do
  let found ← query (.getPlan planID)
  let plan ← succeed (wrapErr "failed to get subscription plan" found)
  let periodStart ← query .timeNow
  let periodEnd :=
    if plan.priceUSD = 0 then Calendar.addDate periodStart 1 0
    else Subscription.Service.periodEndOf plan.billingPeriod periodStart
  let created ← query (.outside (.createSubscription merchantID planID periodStart periodEnd))
  succeed (wrapErr "failed to create subscription" created)
  if plan.priceUSD = 0 then pure none
  else do
    let payment ← (s.adapterCreatePayment plan.priceUSD
      ("Cryptolink " ++ plan.name ++ " Subscription - " ++ plan.billingPeriod)
      redirectURL).mapError (Err.wrap "failed to create subscription payment")
    pure (some payment)

end MerchantAPI

end CryptoLink
