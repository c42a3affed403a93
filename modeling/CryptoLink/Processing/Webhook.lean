import CryptoLink.Processing.Incoming

/-!
# Webhooks

The public receive endpoint. Nothing about a body is verified: its amount, its
hash and its sender go straight into an input.
-/

namespace CryptoLink

open ReadCommitted StatementPrograms

structure IncomingWebhook where
  transactionID : String
  sender : String
  asset : String
  amount : String
  type : String
  mempool : Bool
  deriving DecidableEq, Repr

def IncomingWebhook.currencyType (wh : IncomingWebhook) : CryptoCurrencyType :=
  if wh.type = "native" then .coin else .token

/-- The two kinds of recipient a webhook can name. -/
inductive WebhookTarget where
  | xpub
  | collector
  deriving DecidableEq, Repr

def WebhookTarget.string : WebhookTarget → String
  | xpub => "xpub"
  | collector => "collector"

namespace Service

variable (s : Service)

/-- `ValidateWebhookSignature` is a stub. -/
def validateWebhookSignature (_body _signature : String) : Except Err Unit := .ok ()

def resolveCurrencyFromWebhook (bc : Blockchain) (networkID : String) (wh : IncomingWebhook) :
    Except Err CryptoCurrency := do
  let currency ← match wh.currencyType with
    | .coin => s.currencies.getNativeCoin bc
    | .token => s.currencies.getCurrencyByBlockchainAndContract bc networkID wh.asset
  if currency.networkID ≠ networkID ∧ currency.testNetworkID ≠ networkID then
    .error (Err.new ("unknown " ++ currency.blockchain ++ " network id \"" ++ networkID ++
      "\", expected one of [" ++ currency.networkID ++ ", " ++ currency.testNetworkID ++ "]"))
  else .ok currency

/-- The pending invoices a webhook or a scanner may still fill. -/
def pendingFilter (recipientAddress networkID ticker : String) : Filter where
  recipientAddress := recipientAddress
  networkID := networkID
  currency := ticker
  statuses := [.pending]
  types := [.incoming]
  hashIsEmpty := true

/-- `processXpubWebhook` and `processCollectorWebhook`: the newest pending
invoice of the currency at the address takes the transfer. -/
def processWebhookAt (target : WebhookTarget) (bc : Blockchain) (networkID recipient : String)
    (wh : IncomingWebhook) : Call Unit := do
  let currency ← succeed (wrapErr
    ("unable to resolve currency from " ++ target.string ++ " webhook")
    (s.resolveCurrencyFromWebhook bc networkID wh))
  let amount ← succeed (wrapErr
    ("unable to make crypto amount from " ++ target.string ++ " webhook data")
    (Money.cryptoFromStringFloat currency.ticker wh.amount currency.decimals))
  let found ← (s.getByFilter (pendingFilter recipient networkID currency.ticker)).attempt
  match found with
  | .error e =>
      if e.is .errTransactionNotFound then pure ()
      else .fail (e.wrap ("unable to find " ++ target.string ++ " transaction"))
  | .ok tx =>
      (s.processInboundTransaction tx {
        currency := currency
        amount := amount
        senderAddress := wh.sender
        transactionID := wh.transactionID
        networkID := networkID }).mapError
          (Err.wrap ("unable to process " ++ target.string ++ " incoming transaction"))

/-- What `processWebhookAt` decides before anything is written: the invoice and
the input it hands to `ProcessInboundTransaction`, or none. -/
def webhookSelection (target : WebhookTarget) (bc : Blockchain) (networkID recipient : String)
    (wh : IncomingWebhook) : Call (Option (Transaction × Input)) := do
  let currency ← succeed (wrapErr
    ("unable to resolve currency from " ++ target.string ++ " webhook")
    (s.resolveCurrencyFromWebhook bc networkID wh))
  let amount ← succeed (wrapErr
    ("unable to make crypto amount from " ++ target.string ++ " webhook data")
    (Money.cryptoFromStringFloat currency.ticker wh.amount currency.decimals))
  let found ← (s.getByFilter (pendingFilter recipient networkID currency.ticker)).attempt
  match found with
  | .error e =>
      if e.is .errTransactionNotFound then pure none
      else .fail (e.wrap ("unable to find " ++ target.string ++ " transaction"))
  | .ok tx =>
      pure (some (tx, {
        currency := currency
        amount := amount
        senderAddress := wh.sender
        transactionID := wh.transactionID
        networkID := networkID }))

/-- A webhook selects first and processes what it selected. -/
theorem processWebhookAt_eq (target : WebhookTarget) (bc : Blockchain)
    (networkID recipient : String) (wh : IncomingWebhook) :
    s.processWebhookAt target bc networkID recipient wh =
      (s.webhookSelection target bc networkID recipient wh).bind fun selected =>
        match selected with
        | none => pure ()
        | some (tx, input) => (s.processInboundTransaction tx input).mapError
            (Err.wrap ("unable to process " ++ target.string ++ " incoming transaction")) := by
  unfold processWebhookAt webhookSelection
  simp only [Prog.bind_eq, Prog.bind_assoc]
  congr 1
  funext currency
  congr 1
  funext amount
  congr 1
  funext found
  cases found with
  | ok tx => rfl
  | error e =>
    simp only
    split
    · rfl
    · rfl

def processXpubWebhook (addr : DerivedAddressRow) (networkID : String) (wh : IncomingWebhook) :
    Call Unit :=
  s.processWebhookAt .xpub addr.blockchain networkID addr.address wh

/-- The chain id stored on the collector wins over the one in the URL. -/
def effectiveNetworkID (collector : CollectorRow) (networkID : String) : String :=
  if collector.chainID ≠ 0 then toString collector.chainID else networkID

def processCollectorWebhook (collector : CollectorRow) (networkID : String)
    (wh : IncomingWebhook) : Call Unit :=
  s.processWebhookAt .collector collector.blockchain (effectiveNetworkID collector networkID)
    collector.contractAddress wh

/-- A hot wallet is never found: `GetByUUID` of the wallet service always
answers `ErrNotFound`. -/
def processIncomingWebhook (walletID networkID : String) (wh : IncomingWebhook) : Call Unit :=
  if wh.mempool then pure ()
  else if wh.type = "fee" then pure ()
  else do
    let derived ← ask .pool (.getDerivedAddressByUUID walletID)
    match derived with
    | .ok addr => s.processXpubWebhook addr networkID wh
    | .error _ =>
      if s.evmCollector then do
        let found ← ask .pool (.getCollectorByUUID walletID)
        match found with
        | .ok collector => s.processCollectorWebhook collector networkID wh
        | .error _ => .fail unresolved
      else .fail unresolved
where
  unresolved : Err := (Err.of .errWalletNotFound).wrap "unable to get wallet by uuid"

/-- `Handler.ReceiveWebhook`, from the parsed body on. -/
def receiveWebhook (networkID walletID body signature : String) (wh : IncomingWebhook) :
    Call Unit := do
  succeed (validateWebhookSignature body signature)
  s.processIncomingWebhook walletID networkID wh

end Service

end CryptoLink
