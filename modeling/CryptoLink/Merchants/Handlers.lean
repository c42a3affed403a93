import CryptoLink.FiatPrices
import CryptoLink.Merchants.Services

/-!
# The merchant API

Two groups of routes lead to the handlers: the dashboard's, for a session or a
user token, and the smaller one for merchant tokens. The middleware finds the
merchant of the path among those the caller may act for; what else the path or
the body names is up to the handler.
-/

namespace CryptoLink

namespace MerchantAPI

open ReadCommitted StatementPrograms

/-- A row as a response shows it. -/
inductive Rendered where
  | merchant (m : Merchant)
  | token (t : APIToken)
  | payment (p : PaymentEntry)
  | link (l : PaymentLink)
  | customer (c : Customer)
  | xpubWallet (x : XpubWallet)
  | derivedAddress (a : DerivedAddress)
  | collector (c : Collector)
  deriving DecidableEq, Repr

def Rendered.owner : Rendered → Option Int
  | merchant m => m.owner
  | token t => t.owner
  | payment p => p.owner
  | link l => l.owner
  | customer c => c.owner
  | xpubWallet x => x.owner
  | derivedAddress a => a.owner
  | collector c => c.owner

structure ErrorItem where
  field : String
  message : String
  deriving DecidableEq, Repr

inductive Body where
  | noContent
  | error (message status : String) (errors : List ErrorItem)
  | rows (rows : List Rendered) (cursor : String)
  | other
  deriving DecidableEq, Repr

structure Response where
  code : ℕ
  body : Body
  deriving DecidableEq, Repr

/-- The rows of the tables that a response shows. -/
def Response.rendered (r : Response) : List Rendered :=
  match r.body with
  | .rows rows _ => rows
  | _ => []

def noContent (code : ℕ) : Response := ⟨code, .noContent⟩

def json (code : ℕ) (rows : List Rendered) : Response := ⟨code, .rows rows ""⟩

def page (rows : List Rendered) (cursor : String) : Response := ⟨200, .rows rows cursor⟩

def validationErrorResponse (message : String) : Response :=
  ⟨400, .error "Bad request" "validation_error" [⟨"", message⟩]⟩

def validationErrorItemResponse (field message : String) : Response :=
  ⟨400, .error "Bad request" "validation_error" [⟨field, message⟩]⟩

/-- The items are the texts of the validation library. -/
def invalidRequest : Response := ⟨400, .error "Bad request" "validation_error" []⟩

def notFoundResponse (message : String) : Response := ⟨404, .error message "not_found" []⟩

def errorResponse (status : String) : Response := ⟨500, .error "Server error" status []⟩

def plainError (code : ℕ) (message status : String) : Response := ⟨code, .error message status []⟩

/-- The text of a sentinel. -/
def Cause.message : Cause → String
  | .text message => message
  | .panic message => message
  | .errValidation => "payment is invalid"
  | .errInvalidFiatCurrency => "invalid fiat currency"
  | .errLimitExceeded => "subscription limit exceeded"
  | _ => "error"

def errorText (e : Err) : String := String.intercalate ": " (e.context ++ [Cause.message e.cause])

structure ListQuery where
  limit : String
  cursor : String
  reverseOrder : String
  type : String
  deriving DecidableEq, Repr

structure UpdateMerchantRequest where
  name : String
  website : String
  deriving DecidableEq, Repr

structure WebhookSettings where
  secret : String
  url : String
  deriving DecidableEq, Repr

structure XpubWalletRequest where
  blockchain : String
  xpub : String
  derivationPath : String
  deriving DecidableEq, Repr

structure SetupCollectorRequest where
  blockchain : String
  chainID : Int
  ownerAddress : String
  contractAddress : String
  factoryAddress : String
  deriving DecidableEq, Repr

structure FormRequest where
  message : Option String
  topic : Option String
  deriving DecidableEq, Repr

structure FeeSettingsRequest where
  preferredCurrency : String
  globalFeePercentage : String
  deriving DecidableEq, Repr

structure UpgradeRequest where
  planID : String
  redirectURL : String
  deriving DecidableEq, Repr

structure CreatePaymentRequest where
  currency : String
  description : Option String
  id : String
  isTest : Bool
  orderID : Option String
  price : ℚ
  redirectURL : Option String
  deriving DecidableEq

structure CreatePaymentLinkRequest where
  currency : String
  description : Option String
  name : String
  price : ℚ
  redirectURL : Option String
  successAction : String
  successMessage : Option String
  deriving DecidableEq

/-- The routes of a merchant with what their path, query and body carry; a body
that does not parse is `none`. -/
inductive Route where
  | getMerchant
  | updateMerchant (req : Option UpdateMerchantRequest)
  | deleteMerchant
  | updateMerchantWebhook (req : Option WebhookSettings)
  | updateMerchantSupportedMethods (req : Option (List String))
  | listMerchantTokens
  | createMerchantToken (req : Option String)
  | deleteMerchantTokens (tokenId : String)
  | listXpubWallets
  | createXpubWallet (req : Option XpubWalletRequest)
  | getXpubWallet (walletId : String)
  | deleteXpubWallet (walletId : String)
  | deriveAddress (walletId : String)
  | getNextAddress (walletId : String)
  | listDerivedAddresses (walletId : String)
  | listEvmCollectors
  | setupEvmCollector (req : Option SetupCollectorRequest)
  | getEvmCollector (blockchain : String)
  | deleteEvmCollector (blockchain : String)
  | getEvmCollectorBalance (blockchain : String)
  | getMerchantCollectorFactory (blockchain : String)
  | createFormSubmission (req : Option FormRequest)
  | getCurrencyConvert (fromTicker toTicker amount : String)
  | getFeeSettings
  | updateFeeSettings (req : Option FeeSettingsRequest)
  | getCurrentSubscription
  | upgradePlan (req : Option UpgradeRequest)
  | cancelSubscription
  | getUsageHistory
  | listPayments (q : ListQuery)
  | getPayment (paymentId : String)
  | createPayment (req : Option CreatePaymentRequest)
  | resolvePayment (paymentId : String) (parses : Bool)
  | declinePayment (paymentId : String) (parses : Bool)
  | listPaymentLinks
  | getPaymentLink (paymentLinkId : String)
  | deletePaymentLink (paymentLinkId : String)
  | createPaymentLink (req : Option CreatePaymentLinkRequest)
  | listBalances
  | listCustomers (q : ListQuery)
  | getCustomerDetails (customerId : String)

/-- `setupCommonMerchantRoutes`: what a merchant token reaches as well. -/
def Route.common : Route → Bool
  | .listPayments _ | .getPayment _ | .createPayment _ | .resolvePayment .. | .declinePayment ..
  | .listPaymentLinks | .getPaymentLink _ | .deletePaymentLink _ | .createPaymentLink _
  | .listBalances | .listCustomers _ | .getCustomerDetails _ => true
  | _ => false

/-- The session's user, if any, and the token header; or the header alone. -/
inductive Credentials where
  | dashboard (session : Option Int) (token : String)
  | merchantToken (token : String)
  deriving DecidableEq, Repr

structure Request where
  credentials : Credentials
  merchantId : String
  route : Route

/-- What the middleware attaches to a request, or the response it ends with. -/
structure Context where
  merchant : Merchant
  userID : Int
  deriving DecidableEq, Repr

abbrev Admission := Except Response Context

def userByID (id : Int) : TenantCall (Option User) := do
  let found ← query (.getUserByID id)
  pure (match found with
    | .ok u => if u.id = 0 then none else some u
    | .error _ => none)

/-- `ResolvesUserBySession` -/
def userBySession : Option Int → TenantCall (Option User)
  | none => pure none
  | some id => userByID id

/-- `ResolvesUserByToken`, when the session gave no user. -/
def userByToken (token : String) : TenantCall (Except Response (Option User)) :=
  if token = "" then pure (.ok none)
  else do
    let found ← (getToken .user token).attempt
    match found with
    | .error _ => pure (.error (plainError 401 "Invalid api token" "token_error"))
    | .ok t => do
        let user ← userByID t.entityID
        pure (.ok user)

/-- `GuardsMerchants` -/
def guardsMerchants (merchantId : String) (userID : Int) : Option Merchant → Admission
  | none => .error (plainError 400 "Merchant not found" "not_found")
  | some mt =>
    if mt.id = 0 then .error (plainError 400 "Merchant not found" "not_found")
    else if merchantId ≠ "" ∧ merchantId ≠ mt.uuid then
      .error (plainError 400 "Invalid merchant" "invalid_merchant")
    else .ok ⟨mt, userID⟩

/-- `ResolvesMerchantByUUID` and the guard behind it. -/
def Server.merchantOfUser (s : Server) (merchantId : String) (user : User) :
    TenantCall Admission :=
  match s.parseUUID merchantId with
  | none => pure (guardsMerchants merchantId user.id none)
  | some uuid => do
      let found ← (getByUUIDAndCreatorID uuid user.id).attempt
      pure (guardsMerchants merchantId user.id found.toOption)

def unauthorized : Response := plainError 401 "Authentication required" "unauthorized"

def Server.admitUser (s : Server) (merchantId : String) : Option User → TenantCall Admission
  | none => pure (.error unauthorized)
  | some user => s.merchantOfUser merchantId user

/-- `ResolvesMerchantByToken` and the guard behind it. -/
def admitToken (merchantId token : String) : TenantCall Admission :=
  if token = "" then pure (.error (plainError 401 "Unauthorized" "token_error"))
  else do
    let found ← (getToken .merchant token).attempt
    match found with
    | .error _ => pure (.error (plainError 401 "Invalid api token" "token_error"))
    | .ok t => do
        let mt ← (getMerchantByID t.entityID).attempt
        pure (guardsMerchants merchantId 0 mt.toOption)

def Server.admitted (s : Server) (req : Request) : TenantCall Admission :=
  match req.credentials with
  | .merchantToken token =>
      if req.route.common then admitToken req.merchantId token
      else pure (.error (plainError 404 "Not Found" ""))
  | .dashboard session token => do
      let known ← userBySession session
      match known with
      | some user => s.admitUser req.merchantId (some user)
      | none => do
          let byToken ← userByToken token
          match byToken with
          | .error refused => pure (.error refused)
          | .ok user => s.admitUser req.merchantId user

abbrev Handling := TenantCall Response

/-- A call whose failure the handler looks at. -/
def rescue {α : Type} (p : TenantCall α) (refuse : Err → Handling) (k : α → Handling) :
    Handling :=
  p.attempt.bind fun outcome =>
    match outcome with
    | .ok a => k a
    | .error e => refuse e

/-- One sentinel has a response of its own; other errors are returned. -/
def whenIs (c : Cause) (r : Response) (e : Err) : Handling :=
  if e.is c then pure r else .fail e

/-- `BindAndValidateRequest` -/
def bindAndValidate {α : Type} (req : Option α) (valid : α → Bool) (k : α → Handling) :
    Handling :=
  match req with
  | none => pure (validationErrorResponse "Invalid JSON")
  | some r => if valid r then k r else pure invalidRequest

/-- `c.Bind` with a message of the handler's own. -/
def bindBody {α : Type} (req : Option α) (k : α → Handling) : Handling :=
  match req with
  | none => pure (validationErrorResponse "invalid request body")
  | some r => k r

/-- A path parameter that has to be a UUID. -/
def Server.withUUID (s : Server) (value : String) (refused : Response) (k : String → Handling) :
    Handling :=
  match s.parseUUID value with
  | none => pure refused
  | some uuid => k uuid

def lengthWithin (low high : ℕ) (text : String) : Bool :=
  low ≤ text.length && text.length ≤ high

def handleGetMerchant (mt : Merchant) : Handling := pure (json 200 [.merchant mt])

def UpdateMerchantRequest.valid (r : UpdateMerchantRequest) : Bool :=
  lengthWithin 2 128 r.name && lengthWithin 2 255 r.website

def Server.handleUpdateMerchant (s : Server) (mt : Merchant)
    (req : Option UpdateMerchantRequest) : Handling :=
  bindAndValidate req UpdateMerchantRequest.valid fun r =>
    if s.parseRequestURI r.website = false then
      pure (validationErrorItemResponse "website"
        "website should be a valid URL (e.g. https://o2pay.co)")
    else
      rescue (updateMerchant mt.id r.name r.website)
        (fun _ => pure (errorResponse "internal_error")) fun _ => pure (noContent 204)

def handleDeleteMerchant (mt : Merchant) : Handling :=
  rescue (deleteByUUID mt.uuid) (fun _ => pure (errorResponse "internal_error"))
    fun _ => pure (noContent 204)

def WebhookSettings.valid (r : WebhookSettings) : Bool :=
  r.secret.length ≤ 128 && r.url != ""

def Server.handleUpdateMerchantWebhook (s : Server) (mt : Merchant)
    (req : Option WebhookSettings) : Handling :=
  bindAndValidate req WebhookSettings.valid fun r =>
    if s.parseRequestURI r.url = false then pure (validationErrorResponse "url is invalid")
    else do
      upsertSettings mt [("webhook.url", r.url), ("webhook.secret", r.secret)]
      pure (noContent 204)

def Server.handleUpdateSupportedMethods (s : Server) (mt : Merchant)
    (req : Option (List String)) : Handling :=
  bindAndValidate req (fun tickers => !tickers.isEmpty) fun tickers =>
    if ¬ tickers.Nodup then pure (validationErrorResponse "duplicate tickers")
    else do
      s.updateSupportedMethods mt tickers
      pure (noContent 204)

def handleGetFeeSettings (mt : Merchant) : Handling := pure (json 200 [.merchant mt])

/-- An empty percentage is stored as such. -/
def handleUpdateFeeSettings (mt : Merchant) (req : Option FeeSettingsRequest) : Handling :=
  bindBody req fun r =>
    if r.preferredCurrency ≠ "" ∧ r.preferredCurrency ∉ fiatCurrencies then
      pure (validationErrorItemResponse "preferredCurrency"
        ("unsupported fiat currency: " ++ r.preferredCurrency))
    else
      let currency := if r.preferredCurrency ≠ "" then [("fiat.currency", r.preferredCurrency)]
        else []
      rescue (upsertSettings mt (currency ++ [("fee.global", r.globalFeePercentage)]))
        (fun _ => pure (errorResponse "internal_error")) fun _ => pure (noContent 204)

def handleListMerchantTokens (mt : Merchant) : Handling :=
  rescue (listByEntityType .merchant mt.id) (fun _ => pure (errorResponse "internal_error"))
    fun tokens => pure (json 200 (tokens.map .token))

def handleCreateMerchantToken (mt : Merchant) (req : Option String) : Handling :=
  bindAndValidate req (lengthWithin 2 128) fun name => do
    let token ← createMerchantToken mt.id name
    pure (json 201 [.token token])

def invalidParam (param : String) : Response :=
  validationErrorResponse ("invalid UUID '" ++ param ++ "'")

def Server.handleDeleteMerchantTokens (s : Server) (mt : Merchant) (tokenId : String) :
    Handling :=
  s.withUUID tokenId (invalidParam "tokenId") fun id =>
    rescue (getMerchantTokenByUUID mt.id id)
      (whenIs errTokenNotFound (notFoundResponse "token not found")) fun token => do
        deleteToken token.id
        pure (noContent 204)

def handleListXpubWallets (mt : Merchant) : Handling := do
  let wallets ← listXpubWallets mt.id
  pure (json 200 (wallets.map .xpubWallet))

def Server.handleCreateXpubWallet (s : Server) (mt : Merchant) (req : Option XpubWalletRequest) :
    Handling :=
  match req with
  | none => pure (plainError 400 "Invalid request" "")
  | some r =>
    if r.blockchain = "" ∨ r.xpub = "" then
      pure (plainError 400 "blockchain and extended public key are required" "")
    else
      rescue (s.createXpubWallet mt.id r.blockchain r.xpub r.derivationPath)
        (fun e =>
          if e.is errXpubAlreadyExists then
            pure (validationErrorItemResponse "blockchain"
              "Xpub wallet already exists for this blockchain")
          else
            whenIs errInvalidXpub (validationErrorItemResponse "xpub"
              "Invalid extended key format. Accepted: xpub, ypub, zpub") e)
        fun wallet => pure (json 201 [.xpubWallet wallet])

def invalidWallet : Response := validationErrorItemResponse "walletId" "Invalid wallet UUID"

/-- The wallet of a path, whoever owns it. -/
def Server.withWallet (s : Server) (walletId : String) (k : XpubWallet → Handling) : Handling :=
  s.withUUID walletId invalidWallet fun uuid =>
    rescue (getXpubWalletByUUID uuid)
      (whenIs errXpubNotFound (errorResponse "Xpub wallet not found")) k

def Server.handleGetXpubWallet (s : Server) (walletId : String) : Handling :=
  s.withWallet walletId fun wallet => pure (json 200 [.xpubWallet wallet])

def Server.handleDeleteXpubWallet (s : Server) (mt : Merchant) (walletId : String) : Handling :=
  s.withUUID walletId invalidWallet fun uuid =>
    rescue (deactivateWallet uuid mt.id)
      (whenIs errXpubNotFound (errorResponse "Xpub wallet not found"))
      fun _ => pure (noContent 204)

def Server.handleDeriveAddress (s : Server) (walletId : String) : Handling :=
  s.withWallet walletId fun wallet => do
    let address ← s.deriveAddress wallet.id
    pure (json 201 [.derivedAddress address])

def Server.handleGetNextAddress (s : Server) (walletId : String) : Handling :=
  s.withWallet walletId fun wallet => do
    let address ← s.getNextUnusedAddress wallet.id
    pure (json 200 [.derivedAddress address])

def Server.handleListDerivedAddresses (s : Server) (walletId : String) : Handling :=
  s.withWallet walletId fun wallet => do
    let addresses ← listDerivedAddresses wallet.id
    pure (json 200 (addresses.map .derivedAddress))

def handleListEvmCollectors (mt : Merchant) : Handling := do
  let collectors ← listCollectors mt.id
  pure (json 200 (collectors.map .collector))

def noCollector : Response := notFoundResponse "evm collector not found"

def Server.handleGetEvmCollector (s : Server) (mt : Merchant) (blockchain : String) : Handling :=
  rescue (s.getCollector mt.id (s.toUpper blockchain)) (whenIs errCollectorNotFound noCollector)
    fun c => pure (json 200 [.collector c])

/-- What the configuration says of a chain goes before what the request says. -/
def chainConfig (configured : Option (Int × String)) (chainID : Int) (factoryAddress : String) :
    Int × String :=
  match configured with
  | none => (chainID, factoryAddress)
  | some (id, factory) =>
      (if id ≠ 0 then id else chainID, if factory ≠ "" then factory else factoryAddress)

def Server.handleSetupEvmCollector (s : Server) (mt : Merchant)
    (req : Option SetupCollectorRequest) : Handling :=
  bindBody req fun r =>
    if r.blockchain = "" then
      pure (validationErrorItemResponse "blockchain" "blockchain is required")
    else if r.ownerAddress = "" then
      pure (validationErrorItemResponse "owner_address" "owner_address is required")
    else if r.contractAddress = "" then
      pure (validationErrorItemResponse "contract_address" "contract_address is required")
    else do
      let config := chainConfig (s.getChainConfig r.blockchain) r.chainID r.factoryAddress
      let c ← s.registerCollector mt.id r.blockchain config.1 r.contractAddress r.ownerAddress
        config.2
      pure (json 201 [.collector c])

def Server.handleDeleteEvmCollector (s : Server) (mt : Merchant) (blockchain : String) :
    Handling :=
  rescue (s.deleteCollector mt.id (s.toUpper blockchain)) (whenIs errCollectorNotFound noCollector)
    fun _ => pure ⟨200, .other⟩

/-- A balance that cannot be fetched is shown as zeros. -/
def Server.handleGetEvmCollectorBalance (s : Server) (mt : Merchant) (blockchain : String) :
    Handling :=
  rescue (s.getCollector mt.id (s.toUpper blockchain)) (whenIs errCollectorNotFound noCollector)
    fun c => do
      let _ ← query (.outside (.fetchBalance c.blockchain c.contractAddress))
      pure ⟨200, .other⟩

/-- An answer from elsewhere, or the response to its failure. -/
def handleOutside (what : Outside) (code : ℕ) (refuse : Err → Handling) : Handling := do
  let done ← query (.outside what)
  match done with
  | .ok () => pure ⟨code, .other⟩
  | .error e => refuse e

def Server.handleCollectorFactory (s : Server) (blockchain : String) : Handling :=
  let blockchain := s.toUpper blockchain
  handleOutside (.getFactoryByBlockchain blockchain) 200
    (whenIs .noRows (notFoundResponse ("no collector factory configured for " ++ blockchain)))

def FormRequest.valid (r : FormRequest) : Bool :=
  1 ≤ (r.message.getD "").length && 4 ≤ (r.topic.getD "").length

def handleCreateFormSubmission (userID : Int) (req : Option FormRequest) : Handling :=
  bindAndValidate req FormRequest.valid fun r =>
    if userID = 0 then .fail (Err.new "unable to resolve user")
    else do
      let done ← query (.outside
        (.publishForm (r.topic.getD "") (r.message.getD "") userID))
      succeed done
      pure (noContent 201)

def handleCurrencyConvert (fromTicker toTicker amount : String) : Handling :=
  handleOutside (.convert fromTicker toTicker amount) 200 fun e =>
    if e.is .errValidation then pure (validationErrorResponse (errorText e))
    else whenIs .errCurrencyNotFound (validationErrorResponse "unsupported currency") e

def handleListBalances (mt : Merchant) : Handling :=
  handleOutside (.listBalances mt.id) 200 fun e => .fail e

def queryLimitDefault : Int := 30

def queryLimitMax : Int := 100

/-- `strconv.Atoi` -/
def atoi (text : String) : Option Int :=
  (Money.setString text).filter fun n => decide (-(2 ^ 63) ≤ n) && decide (n < 2 ^ 63)

/-- `strconv.ParseBool` -/
def parseBool (text : String) : Option Bool :=
  if text ∈ ["1", "t", "T", "TRUE", "true", "True"] then some true
  else if text ∈ ["0", "f", "F", "FALSE", "false", "False"] then some false
  else none

def queryLimit (raw : String) : Option ℕ :=
  if raw = "" then some queryLimitDefault.toNat
  else
    match atoi raw with
    | none => none
    | some i =>
      let limit := if i = 0 then queryLimitDefault else i
      if limit < 1 ∨ queryLimitMax < limit then none else some limit.toNat

def queryReverseOrder (raw : String) : Option Bool := if raw = "" then some false else parseBool raw

def withPagination (q : ListQuery) (k : ℕ → Bool → Handling) : Handling :=
  match queryLimit q.limit with
  | none => pure (validationErrorResponse "invalid limit")
  | some limit =>
    match queryReverseOrder q.reverseOrder with
    | none => pure (validationErrorResponse "invalid reverseOrder")
    | some reverseOrder => k limit reverseOrder

def PaymentWithRelations.rendered (p : PaymentWithRelations) : List Rendered :=
  .payment p.payment :: (p.customer.map Rendered.customer).toList

def filterByType (type : String) : Option (List Payment.Kind) :=
  if type = "" then some []
  else if type = "payment" then some [.payment]
  else if type = "withdrawal" then some [.withdrawal]
  else none

def Server.handleListPayments (s : Server) (mt : Merchant) (q : ListQuery) : Handling :=
  withPagination q fun limit reverseOrder =>
    match filterByType q.type with
    | none => pure (validationErrorItemResponse "type" ("unknown type \"" ++ q.type ++ "\""))
    | some types =>
      rescue (s.listWithRelations mt.id ⟨limit, q.cursor, reverseOrder, types⟩)
        (whenIs .errValidation (validationErrorResponse "invalid query"))
        fun (payments, cursor) =>
          pure (page (payments.flatMap PaymentWithRelations.rendered) cursor)

def invalidPaymentID : Response := validationErrorResponse "invalid payment id"

def noPayment : Response := notFoundResponse "payment not found"

def Server.handleGetPayment (s : Server) (mt : Merchant) (paymentId : String) : Handling :=
  s.withUUID paymentId invalidPaymentID fun id =>
    rescue (getByMerchantOrderIDWithRelations mt.id id) (whenIs .errPaymentNotFound noPayment)
      fun payments => pure (json 200 (payments.flatMap PaymentWithRelations.rendered))

def Server.validPayment (s : Server) (r : CreatePaymentRequest) : Bool :=
  decide (r.currency ∈ fiatCurrencies) && (r.description.getD "").length ≤ 128 &&
    (r.id != "" && s.isUUID r.id) && decide (1 / 100 ≤ r.price)

def limitExceeded (e : Err) : Response := plainError 402 (errorText e) "limit_exceeded"

/-- A limit that cannot be checked lets the payment through. -/
def withinLimit (check : Outside) (k : Handling) : Handling := do
  let done ← query (.outside check)
  match done with
  | .ok () => k
  | .error e => if e.is .errLimitExceeded then pure (limitExceeded e) else k

def Server.withinLimits (s : Server) (merchantID : Int) (price : ℚ) (k : Handling) : Handling :=
  if s.limitsEnforced then
    withinLimit (.checkPaymentLimit merchantID)
      (withinLimit (.checkVolumeLimit merchantID (Subscription.roundCents price)) k)
  else k

def priceOutOfRange : Response :=
  validationErrorItemResponse "price" "price should be between 0.01 and 10000000"

def Server.handleCreatePayment (s : Server) (mt : Merchant) (req : Option CreatePaymentRequest) :
    Handling :=
  bindAndValidate req s.validPayment fun r =>
    s.withUUID r.id (validationErrorResponse "order id is invalid") fun orderUUID =>
      match makeFiatCurrency r.currency with
      | .error e => pure (validationErrorResponse (errorText e))
      | .ok currency =>
        if r.price ≤ 0 then pure (validationErrorResponse "price should be positive")
        else
          match Money.fiatFromFloat64 currency r.price with
          | .error _ => pure priceOutOfRange
          | .ok price =>
            s.withinLimits mt.id r.price
              (rescue (s.createPayment mt.id {
                  merchantOrderUUID := orderUUID
                  merchantOrderID := r.orderID
                  money := price
                  redirectURL := r.redirectURL
                  description := r.description
                  isTest := r.isTest })
                (fun e =>
                  if e.is .errValidation ∨ e.is errAlreadyExists then
                    pure (validationErrorResponse (errorText e))
                  else pure (errorResponse "internal_error"))
                fun p => pure (json 201 [.payment p]))

/-- Resolving and declining differ in the service they call. -/
def Server.handleVerdict (s : Server) (mt : Merchant) (paymentId : String) (parses : Bool)
    (verdict : Int → Int → TenantCall PaymentEntry) : Handling :=
  s.withUUID paymentId invalidPaymentID fun id =>
    if parses = false then pure (validationErrorResponse "invalid request body")
    else
      rescue (getByMerchantOrderID mt.id id) (whenIs .errPaymentNotFound noPayment) fun pt =>
        rescue (verdict mt.id pt.id)
          (fun e =>
            if e.is .errValidation then pure (validationErrorResponse (errorText e))
            else pure (errorResponse "internal_error"))
          fun p => pure (json 200 [.payment p])

def Server.handleResolvePayment (s : Server) (mt : Merchant) (paymentId : String)
    (parses : Bool) : Handling :=
  s.handleVerdict mt paymentId parses MerchantAPI.resolvePayment

def Server.handleDeclinePayment (s : Server) (mt : Merchant) (paymentId : String)
    (parses : Bool) : Handling :=
  s.handleVerdict mt paymentId parses MerchantAPI.declinePayment

def handleListPaymentLinks (mt : Merchant) : Handling := do
  let links ← listPaymentLinks mt.id
  pure (json 200 (links.map .link))

def noLink : Response := notFoundResponse "payment link not found"

def Server.handleGetPaymentLink (s : Server) (mt : Merchant) (paymentLinkId : String) :
    Handling :=
  s.withUUID paymentLinkId (invalidParam "paymentLinkId") fun id =>
    rescue (getPaymentLinkByPublicID mt.id id) (whenIs .errPaymentNotFound noLink)
      fun l => pure (json 200 [.link l])

def Server.handleDeletePaymentLink (s : Server) (mt : Merchant) (paymentLinkId : String) :
    Handling :=
  s.withUUID paymentLinkId (invalidParam "paymentLinkId") fun id =>
    rescue (deletePaymentLinkByPublicID mt.id id) (whenIs .errPaymentNotFound noLink)
      fun _ => pure (noContent 204)

def CreatePaymentLinkRequest.valid (r : CreatePaymentLinkRequest) : Bool :=
  decide (r.currency ∈ fiatCurrencies) && lengthWithin 4 64 r.name &&
    decide (1 / 100 ≤ r.price) && decide (r.successAction ∈ ["redirect", "showMessage"]) &&
    (r.successMessage.map (lengthWithin 4 250)).getD true

def Server.handleCreatePaymentLink (s : Server) (mt : Merchant)
    (req : Option CreatePaymentLinkRequest) : Handling :=
  bindAndValidate req CreatePaymentLinkRequest.valid fun r =>
    match makeFiatCurrency r.currency with
    | .error _ => pure (validationErrorItemResponse "currency" "invalid currency")
    | .ok currency =>
      match Money.fiatFromFloat64 currency r.price with
      | .error _ => pure priceOutOfRange
      | .ok price =>
        rescue (s.createPaymentLink mt.id {
            name := r.name
            price := price
            description := r.description
            successAction := r.successAction
            redirectURL := r.redirectURL
            successMessage := r.successMessage
            isTest := false })
          (fun e => whenIs errLinkValidation (validationErrorResponse (errorText e)) e)
          fun l => pure (json 201 [.link l])

def Server.handleListCustomers (s : Server) (mt : Merchant) (q : ListQuery) : Handling :=
  withPagination q fun limit reverseOrder =>
    rescue (s.listCustomers mt.id ⟨limit, q.cursor, reverseOrder, []⟩)
      (whenIs .errValidation (validationErrorResponse "invalid query"))
      fun (customers, cursor) => pure (page (customers.map .customer) cursor)

def Server.handleGetCustomerDetails (s : Server) (mt : Merchant) (customerId : String) :
    Handling :=
  s.withUUID customerId (invalidParam "customerId") fun id =>
    rescue (getCustomerDetailsByUUID mt.id id)
      (whenIs .errPaymentNotFound (notFoundResponse "customer not found"))
      fun d => pure (json 200 (.customer d.customer :: d.recentPayments.map .payment))

def internalError (message : String) : Response := plainError 500 message "internal_error"

def noSubscription (e : Err) : Response :=
  if e.is .errSubscriptionNotFound then notFoundResponse "subscription not found"
  else internalError "unable to get subscription"

/-- Usage that cannot be read is left out. -/
def handleGetCurrentSubscription (mt : Merchant) : Handling := do
  let sub ← query (.outside (.getActiveSubscription mt.id))
  match sub with
  | .error e => pure (noSubscription e)
  | .ok () => do
      let _ ← query (.outside (.getCurrentUsage mt.id))
      pure ⟨200, .other⟩

def Server.handleUpgradePlan (s : Server) (mt : Merchant) (req : Option UpgradeRequest) :
    Handling :=
  bindBody req fun r =>
    if r.planID = "" then pure (validationErrorResponse "plan_id is required")
    else if s.adminMerchantID = 0 then pure (internalError "subscription system not configured")
    else
      rescue (s.createSubscriptionPayment mt.id r.planID r.redirectURL)
        (fun _ => pure (internalError "unable to create subscription payment"))
        fun payment => pure (json 200 (payment.map Rendered.payment).toList)

def handleCancelSubscription (mt : Merchant) : Handling := do
  let sub ← query (.outside (.getActiveSubscription mt.id))
  match sub with
  | .error e => pure (noSubscription e)
  | .ok () =>
      handleOutside (.cancelSubscription mt.id) 200
        fun _ => pure (internalError "unable to cancel subscription")

def handleGetUsageHistory (mt : Merchant) : Handling :=
  handleOutside (.getUsageHistory mt.id) 200
    fun _ => pure (internalError "unable to get usage history")

def Server.handle (s : Server) (c : Context) : Route → Handling
  | .getMerchant => handleGetMerchant c.merchant
  | .updateMerchant req => s.handleUpdateMerchant c.merchant req
  | .deleteMerchant => handleDeleteMerchant c.merchant
  | .updateMerchantWebhook req => s.handleUpdateMerchantWebhook c.merchant req
  | .updateMerchantSupportedMethods req => s.handleUpdateSupportedMethods c.merchant req
  | .listMerchantTokens => handleListMerchantTokens c.merchant
  | .createMerchantToken req => handleCreateMerchantToken c.merchant req
  | .deleteMerchantTokens tokenId => s.handleDeleteMerchantTokens c.merchant tokenId
  | .listXpubWallets => handleListXpubWallets c.merchant
  | .createXpubWallet req => s.handleCreateXpubWallet c.merchant req
  | .getXpubWallet walletId => s.handleGetXpubWallet walletId
  | .deleteXpubWallet walletId => s.handleDeleteXpubWallet c.merchant walletId
  | .deriveAddress walletId => s.handleDeriveAddress walletId
  | .getNextAddress walletId => s.handleGetNextAddress walletId
  | .listDerivedAddresses walletId => s.handleListDerivedAddresses walletId
  | .listEvmCollectors => handleListEvmCollectors c.merchant
  | .setupEvmCollector req => s.handleSetupEvmCollector c.merchant req
  | .getEvmCollector blockchain => s.handleGetEvmCollector c.merchant blockchain
  | .deleteEvmCollector blockchain => s.handleDeleteEvmCollector c.merchant blockchain
  | .getEvmCollectorBalance blockchain => s.handleGetEvmCollectorBalance c.merchant blockchain
  | .getMerchantCollectorFactory blockchain => s.handleCollectorFactory blockchain
  | .createFormSubmission req => handleCreateFormSubmission c.userID req
  | .getCurrencyConvert fromTicker toTicker amount =>
      handleCurrencyConvert fromTicker toTicker amount
  | .getFeeSettings => handleGetFeeSettings c.merchant
  | .updateFeeSettings req => handleUpdateFeeSettings c.merchant req
  | .getCurrentSubscription => handleGetCurrentSubscription c.merchant
  | .upgradePlan req => s.handleUpgradePlan c.merchant req
  | .cancelSubscription => handleCancelSubscription c.merchant
  | .getUsageHistory => handleGetUsageHistory c.merchant
  | .listPayments q => s.handleListPayments c.merchant q
  | .getPayment paymentId => s.handleGetPayment c.merchant paymentId
  | .createPayment req => s.handleCreatePayment c.merchant req
  | .resolvePayment paymentId parses => s.handleResolvePayment c.merchant paymentId parses
  | .declinePayment paymentId parses => s.handleDeclinePayment c.merchant paymentId parses
  | .listPaymentLinks => handleListPaymentLinks c.merchant
  | .getPaymentLink paymentLinkId => s.handleGetPaymentLink c.merchant paymentLinkId
  | .deletePaymentLink paymentLinkId => s.handleDeletePaymentLink c.merchant paymentLinkId
  | .createPaymentLink req => s.handleCreatePaymentLink c.merchant req
  | .listBalances => handleListBalances c.merchant
  | .listCustomers q => s.handleListCustomers c.merchant q
  | .getCustomerDetails customerId => s.handleGetCustomerDetails c.merchant customerId

/-- The middleware, and the handler unless the request ended there. -/
def Server.serve (s : Server) (req : Request) : Handling :=
  (s.admitted req).bind fun admission =>
    match admission with
    | .error refused => pure refused
    | .ok c => s.handle c req.route

end MerchantAPI

end CryptoLink
