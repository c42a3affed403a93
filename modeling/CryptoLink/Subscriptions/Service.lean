import CryptoLink.FiatPrices
import CryptoLink.Subscriptions.Tables

/-!
# The subscription service

Plans are bought with a payment to the operator's own merchant. The payment is
created through an adapter, and the subscription is activated at the end of the
handler that tells a merchant about a payment.
-/

namespace CryptoLink

open ReadCommitted StatementPrograms

abbrev SubscriptionCall (α : Type) :=
  Prog (Cmd SubscriptionStmt) (Answer SubscriptionReply) Err α

namespace Subscription

/-- What the processes are set up with; `validURL` and `parseUUID` are the
parsers of the libraries. -/
structure Service where
  adminMerchantID : Int
  validURL : String → Bool
  parseUUID : String → Option String

abbrev query := @onPool SubscriptionStmt SubscriptionReply Err

/-- Missing rows have an error of their own, everything else is wrapped. -/
def orMissing {α : Type} (c : Cause) (message : String) : Except Err α → Except Err α
  | .ok a => .ok a
  | .error e => .error (if e.is .noRows then Err.of c else e.wrap message)

theorem orMissing_eq_ok {α : Type} {c : Cause} {message : String} {x : Except Err α} {a : α}
    (h : orMissing c message x = .ok a) : x = .ok a := by
  cases x with
  | ok b => exact h
  | error e => cases h

/-- `decimal.Decimal.String` of a number of hundredths. -/
def decimalString (x : Int) : String :=
  let whole := toString (x.natAbs / 100)
  let fraction := x.natAbs % 100
  let digits :=
    if fraction = 0 then whole
    else if fraction % 10 = 0 then whole ++ "." ++ toString (fraction / 10)
    else whole ++ "." ++ toString (fraction / 10) ++ toString (fraction % 10)
  if x < 0 then "-" ++ digits else digits

/-- `decimal.Decimal.StringFixed(2)` -/
def stringFixed (x : Int) : String :=
  let digits := toString (x.natAbs / 100) ++ "." ++ toString (x.natAbs % 100 / 10) ++
    toString (x.natAbs % 10)
  if x < 0 then "-" ++ digits else digits

/-- `fmt.Sprintf("%.2f", …)` in hundredths: to the nearest, ties to even. -/
def roundCents (x : ℚ) : Int :=
  let down := (x * 100).floor
  let rest := x * 100 - down
  if rest < 1 / 2 then down
  else if 1 / 2 < rest then down + 1
  else if down % 2 = 0 then down
  else down + 1

/-- `decimal.Decimal.Div`: sixteen places, ties away from zero. -/
def decimalDiv (x y : ℚ) : ℚ :=
  let scaled := x / y * 10 ^ 16
  (if 0 ≤ scaled then ⌊scaled + 1 / 2⌋ else -⌊1 / 2 - scaled⌋) / 10 ^ 16

def getPlan (planID : String) : SubscriptionCall SubscriptionPlan := do
  let plan ← query (.getPlan planID)
  succeed (orMissing .errPlanNotFound "failed to get subscription plan" plan)

def getPlanByID (planID : String) : SubscriptionCall SubscriptionPlan := do
  let plan ← query (.getPlanByID planID)
  succeed (wrapErr "failed to get plan" plan)

def createPlan (plan : SubscriptionPlan) : SubscriptionCall SubscriptionPlan := do
  -- both timestamps of the row, which nothing reads
  let _ ← query .timeNow
  let created ← query (.createPlan plan)
  succeed (wrapErr "failed to create plan" created)

def updatePlan (planID : String) (plan : SubscriptionPlan) : SubscriptionCall SubscriptionPlan := do
  let _ ← query .timeNow
  let updated ← query (.updatePlan planID plan)
  succeed (wrapErr "failed to update plan" updated)

/-- The row and its plan; a plan that cannot be loaded is left nil. -/
def getActiveSubscription (merchantID : Int) :
    SubscriptionCall (MerchantSubscription × Option SubscriptionPlan) := do
  let found ← query (.getActiveSubscription merchantID)
  let sub ← succeed (orMissing .errSubscriptionNotFound "failed to get active subscription" found)
  let plan ← (getPlan sub.planID).attempt
  pure (sub, plan.toOption)

def createSubscription (merchantID : Int) (planID : String) (periodStart periodEnd : Int) :
    SubscriptionCall MerchantSubscription := do
  let plan ← getPlan planID
  let status := if 0 < plan.priceUSD then .pendingPayment else .active
  let uuid ← query .newUUID
  let createdAt ← query .timeNow
  let updatedAt ← query .timeNow
  let sub ← query (.createSubscription {
    uuid := uuid
    merchantID := merchantID
    planID := planID
    status := status
    currentPeriodStart := periodStart
    currentPeriodEnd := periodEnd
    autoRenew := true
    createdAt := createdAt
    updatedAt := updatedAt })
  succeed (wrapErr "failed to create subscription" sub)

def activateSubscription (subscriptionID paymentID : Int) : SubscriptionCall Unit := do
  let now ← query .timeNow
  let done ← query (.activateSubscription subscriptionID paymentID now)
  succeed (wrapErr "failed to activate subscription" done)

def cancelSubscription (subscriptionID : Int) : SubscriptionCall Unit := do
  let cancelledAt ← query .timeNow
  let updatedAt ← query .timeNow
  let done ← query (.cancelSubscription subscriptionID cancelledAt updatedAt)
  succeed (wrapErr "failed to cancel subscription" done)

def createUsagePeriod (merchantID : Int) : SubscriptionCall UsageTracking := do
  let now ← query .timeNow
  let periodStart := Calendar.monthStart now
  let periodEnd := Calendar.addDate periodStart 0 1 - Calendar.second
  let usage ← query (.createUsagePeriod merchantID periodStart periodEnd now now)
  succeed (wrapErr "failed to create usage period" usage)

def getCurrentUsage (merchantID : Int) : SubscriptionCall UsageTracking := do
  let now ← query .timeNow
  let usage ← query (.getCurrentUsage merchantID now)
  match usage with
  | .ok u => pure u
  | .error e =>
      if e.is .noRows then createUsagePeriod merchantID
      else .fail (e.wrap "failed to get current usage")

def incrementPaymentUsage (merchantID volumeUSD : Int) : SubscriptionCall Unit := do
  let now ← query .timeNow
  let affected ← query (.incrementPaymentUsage merchantID volumeUSD now)
  let rows ← succeed (wrapErr "failed to increment payment usage" affected)
  if rows = 0 then do
    let _ ← createUsagePeriod merchantID
    let later ← query .timeNow
    let again ← query (.incrementPaymentUsage merchantID volumeUSD later)
    let _ ← succeed again
    pure ()
  else pure ()

/-- What a confirmed transaction adds: `decimal.NewFromString` of the raw
digits of its amount. -/
def confirmedVolume (tx : Transaction) : Int :=
  match Money.setString tx.usdAmount.stringRaw with
  | none => 0
  | some units => 100 * units

/-- The usage part of `confirmIncomingTransaction`, after the payment's status
is set. -/
def countConfirmed (tx : Transaction) (status : Payment.Status) : SubscriptionCall Unit :=
  if status = .success then do
    -- a failed increment is only logged
    let _ ← (incrementPaymentUsage tx.merchantID (confirmedVolume tx)).attempt
    pure ()
  else pure ()

def limitReached (what : String) : Err :=
  (Err.of .errLimitExceeded).wrap
    (what ++ ". Please upgrade your plan at /merchants/subscription")

def nilPlan : Err := Err.of (.panic "nil pointer dereference")

def checkPaymentLimit (merchantID : Int) : SubscriptionCall Unit := do
  let (_, plan) ← getActiveSubscription merchantID
  match plan with
  | none => .fail nilPlan
  | some plan =>
    match plan.maxPaymentsMonthly with
    | none => pure ()
    | some limit =>
      if limit = -1 then pure ()
      else do
        let usage ← getCurrentUsage merchantID
        if limit ≤ usage.paymentCount then
          .fail (limitReached ("Monthly payment limit reached (" ++ toString usage.paymentCount ++
            "/" ++ toString limit ++ ")"))
        else pure ()

def checkAPILimit (merchantID : Int) : SubscriptionCall Unit := do
  let (_, plan) ← getActiveSubscription merchantID
  match plan with
  | none => .fail nilPlan
  | some plan =>
    match plan.maxAPICallsMonthly with
    | none => pure ()
    | some limit =>
      if limit = -1 then pure ()
      else do
        let usage ← getCurrentUsage merchantID
        if limit ≤ usage.apiCallsCount then
          .fail (limitReached ("Monthly API call limit reached (" ++ toString usage.apiCallsCount ++
            "/" ++ toString limit ++ ")"))
        else pure ()

def checkVolumeLimit (merchantID additionalVolumeUSD : Int) : SubscriptionCall Unit := do
  let (_, plan) ← getActiveSubscription merchantID
  match plan with
  | none => .fail nilPlan
  | some plan =>
    match plan.maxVolumeMonthlyUSD with
    | none => pure ()
    | some limit => do
        let usage ← getCurrentUsage merchantID
        if limit < usage.paymentVolumeUSD + additionalVolumeUSD then
          .fail (limitReached ("Monthly volume limit reached ($" ++
            stringFixed usage.paymentVolumeUSD ++ "/$" ++ stringFixed limit ++ ")"))
        else pure ()

/-- The percentage as a 64-bit float. -/
def getVolumePercentage (merchantID : Int) : SubscriptionCall ℚ := do
  let (_, plan) ← getActiveSubscription merchantID
  match plan with
  | none => .fail nilPlan
  | some plan =>
    match plan.maxVolumeMonthlyUSD with
    | none => pure 0
    | some limit =>
      if limit = 0 then pure 0
      else do
        let usage ← getCurrentUsage merchantID
        pure (binary64 (decimalDiv usage.paymentVolumeUSD limit * 100))

/-- The limits `CreatePayment` of the merchant API enforces. Every other
failure of a check lets the payment through, a panic apart. -/
def enforceLimits (merchantID : Int) (price : ℚ) : SubscriptionCall Unit := do
  let _ ← enforced (checkPaymentLimit merchantID)
  enforced (checkVolumeLimit merchantID (roundCents price))
where
  enforced (check : SubscriptionCall Unit) : SubscriptionCall Unit := do
    let outcome ← check.attempt
    match outcome with
    | .ok () => pure ()
    | .error e => if e.is .errLimitExceeded ∨ e = nilPlan then .fail e else pure ()

structure PaymentLinkProps where
  linkID : Int
  successAction : String
  successMessage : Option String
  deriving DecidableEq, Repr

structure CreatePaymentProps where
  money : Money
  redirectURL : Option String
  isTest : Bool
  link : Option PaymentLinkProps
  deriving DecidableEq, Repr

/-- `fillPaymentMetaWithLink` -/
def fillPaymentMetaWithLink (l : PaymentLinkProps) : MetaData :=
  let filled := [("linkID", toString l.linkID), ("linkSuccessAction", l.successAction)]
  match l.successMessage with
  | none => filled
  | some message => filled ++ [("linkSuccessMessage", message)]

namespace Service

variable (s : Service)

def validateLink (p : CreatePaymentProps) (l : PaymentLinkProps) : Except Err Unit :=
  if l.linkID < 1 then .error ((Err.of .errValidation).wrap "link reference required")
  else if l.successAction = "redirect" then
    if p.redirectURL.isNone then .error ((Err.of .errValidation).wrap "redirectUrl required")
    else .ok ()
  else if l.successAction = "showMessage" then
    if l.successMessage.isNone then
      .error ((Err.of .errValidation).wrap "successMessage required")
    else .ok ()
  else .error ((Err.of .errValidation).wrap
    ("unknown successAction \"" ++ l.successAction ++ "\""))

def validate (p : CreatePaymentProps) : Except Err Unit :=
  if p.money.moneyType ≠ .fiat then .error ((Err.of .errValidation).wrap "invalid currency")
  else if p.money.value ≤ 0 then
    .error ((Err.of .errValidation).wrap "price can't be zero or negative")
  else if (p.redirectURL.map s.validURL).getD true = false then
    .error ((Err.of .errValidation).wrap "invalid redirect url")
  else
    match p.link with
    | none => .ok ()
    | some l => validateLink p l

/-- `payment.Service.CreatePayment`. Its order UUID is drawn by the caller, so
no payment has it yet. -/
def createPayment (merchantID : Int) (props : CreatePaymentProps) :
    SubscriptionCall PaymentRow := do
  succeed (s.validate props)
  let mt ← query (.getMerchantByID merchantID)
  let _ ← succeed mt
  let now ← query .timeNow
  let metadata := match props.link with
    | none => []
    | some l => fillPaymentMetaWithLink l
  let p ← query (.createPayment {
    createdAt := now
    updatedAt := now
    type := .payment
    status := .pending
    merchantID := merchantID
    price := props.money.value
    decimals := props.money.decimals
    currency := props.money.ticker
    isTest := props.isTest
    metadata := MetaData.toJSONB metadata })
  let row ← succeed p
  let _ ← succeed (entryToPayment row)
  pure row

structure PaymentParams where
  merchantID : Int
  amount : Int
  currency : String
  description : String
  redirectURL : String
  metadata : MetaData
  deriving DecidableEq, Repr

/-- `PaymentServiceAdapter.CreatePayment`: the amount is read as raw digits, and
the metadata goes nowhere. -/
def adapterCreatePayment (params : PaymentParams) : SubscriptionCall PaymentRow := do
  let amount ← succeed (wrapErr "failed to create money amount"
    (Money.new .fiat "USD" (decimalString params.amount) 2))
  (s.createPayment params.merchantID {
    money := amount
    redirectURL := some params.redirectURL
    isTest := false
    link := none }).mapError (Err.wrap "failed to create payment")

structure SubscriptionPaymentResponse where
  subscriptionUUID : String
  paymentID : Option Int
  amountDue : Int
  currency : String
  expiresAt : Int
  deriving DecidableEq, Repr

def periodEndOf (billingPeriod : String) (periodStart : Int) : Int :=
  if billingPeriod = "monthly" then Calendar.addDate periodStart 0 1
  else if billingPeriod = "yearly" then Calendar.addDate periodStart 1 0
  else Calendar.addDate periodStart 0 1

def paymentParams (plan : SubscriptionPlan) (sub : MerchantSubscription) (merchantID : Int)
    (redirectURL : String) : PaymentParams where
  merchantID := s.adminMerchantID
  amount := plan.priceUSD
  currency := "USD"
  description := "Cryptolink " ++ plan.name ++ " Subscription - " ++ plan.billingPeriod
  redirectURL := redirectURL
  metadata := [("subscription_id", sub.uuid), ("subscription_plan", plan.id),
    ("billing_period", plan.billingPeriod), ("merchant_id", toString merchantID)]

def createSubscriptionPayment (merchantID : Int) (planID redirectURL : String) :
    SubscriptionCall SubscriptionPaymentResponse := do
  let plan ← (getPlan planID).mapError (Err.wrap "failed to get subscription plan")
  if plan.priceUSD = 0 then do
    let periodStart ← query .timeNow
    let periodEnd := Calendar.addDate periodStart 1 0
    let sub ← createSubscription merchantID planID periodStart periodEnd
    pure ⟨sub.uuid, none, 0, "USD", periodEnd⟩
  else do
    let periodStart ← query .timeNow
    let periodEnd := periodEndOf plan.billingPeriod periodStart
    let sub ← (createSubscription merchantID planID periodStart periodEnd).mapError
      (Err.wrap "failed to create subscription")
    let payment ← (s.adapterCreatePayment
      (s.paymentParams plan sub merchantID redirectURL)).mapError
        (Err.wrap "failed to create subscription payment")
    pure ⟨sub.uuid, some payment.id, plan.priceUSD, "USD", periodEnd⟩

/-- `Handler.UpgradePlan` -/
def upgradePlan (merchantID : Int) (planID redirectURL : String) :
    SubscriptionCall SubscriptionPaymentResponse :=
  if planID = "" then .fail (Err.new "plan_id is required")
  else if s.adminMerchantID = 0 then .fail (Err.new "subscription system not configured")
  else s.createSubscriptionPayment merchantID planID redirectURL

/-- `HandlePaymentWebhook` with the metadata taken from the database. -/
def handlePaymentWebhook (paymentID : Int) : SubscriptionCall Unit := do
  let fetched ← query (.getPaymentMetadata paymentID)
  let metadata ← succeed (wrapErr "failed to fetch payment metadata" fetched)
  match metadata.bind fun m => m.find "subscription_id" with
  | none => pure ()
  | some subscriptionID =>
    if subscriptionID = "" then pure ()
    else
      match s.parseUUID subscriptionID with
      | none => .fail (Err.new "invalid subscription UUID in payment metadata")
      | some uuid => do
          let found ← query (.getSubscriptionByUUID uuid)
          let (id, status) ← succeed (wrapErr "failed to find subscription" found)
          if status ≠ .pendingPayment then pure ()
          else
            (activateSubscription id paymentID).mapError
              (Err.wrap "failed to activate subscription")

/-- `ProcessPaymentStatusUpdate`. Without a webhook URL, and when the merchant
does not take the webhook, the handler ends before the subscription. -/
def processPaymentStatusUpdate (merchantID paymentID : Int) : SubscriptionCall Unit := do
  let found ← query (.getMerchantByID merchantID)
  let mt ← succeed (wrapErr "unable to get merchant" found)
  if mt.webhookURL = "" then pure ()
  else do
    let detailed ← query (.getDetailedPayment merchantID paymentID)
    let p ← succeed (wrapErr "unable to get detailed payment" detailed)
    if p.status = .locked then pure ()
    else do
      let sent ← query (.sendWebhook mt.webhookURL)
      match sent with
      | .error _ => pure ()
      | .ok () => do
          let now ← query .timeNow
          let stamped ← query (.setWebhookTimestamp merchantID paymentID now)
          succeed (wrapErr "unable to set webhook timestamp" stamped)
          if p.status = .success then do
            -- a failed activation is only logged
            let _ ← (s.handlePaymentWebhook p.id).attempt
            pure ()
          else pure ()

end Service

/-- `Handler.CancelSubscription` -/
def cancelPlan (merchantID : Int) : SubscriptionCall Unit := do
  let (sub, _) ← getActiveSubscription merchantID
  cancelSubscription sub.id

def assignMerchantPlan (merchantID : Int) (planID : String) : SubscriptionCall Unit := do
  let _ ← (getPlanByID planID).mapError (Err.wrap "invalid plan")
  let found ← query (.merchantExists merchantID)
  match found with
  | .ok true => do
      let deactivated ← query (.deactivateSubscriptions merchantID)
      succeed (wrapErr "failed to deactivate existing subscription" deactivated)
      let now ← query .timeNow
      let periodEnd := Calendar.addDate now 0 1
      let uuid ← query .newUUID
      let assigned ← query (.insertAssigned {
        uuid := uuid
        merchantID := merchantID
        planID := planID
        status := .active
        currentPeriodStart := now
        currentPeriodEnd := periodEnd
        autoRenew := true
        createdAt := now
        updatedAt := now })
      succeed (wrapErr "failed to create subscription" assigned)
  | _ => .fail (Err.new "merchant not found")

/-- The calls that can be started. -/
inductive Operation where
  | upgradePlan (merchantID : Int) (planID redirectURL : String)
  | cancelPlan (merchantID : Int)
  | assignMerchantPlan (merchantID : Int) (planID : String)
  | paymentStatusUpdate (merchantID paymentID : Int)
  | createPayment (merchantID : Int) (props : CreatePaymentProps)
  | enforceLimits (merchantID : Int) (price : ℚ)
  | countConfirmed (tx : Transaction) (status : Payment.Status)

/-- A payment takes another status, a merchant another webhook URL, and time
passes. -/
inductive Move where
  | paymentStatus (id : Int) (status : Payment.Status)
  | webhookURL (merchantID : Int) (url : String)
  | tick (elapsed : ℕ)

/-- A payment takes another status. -/
def withStatus (status : Payment.Status) (p : PaymentRow) : PaymentRow :=
    { p with status := status }

theorem withStatus_id (status : Payment.Status) (p : PaymentRow) :
    (withStatus status p).id = p.id := rfl

def withWebhookURL (url : String) (m : MerchantRow) : MerchantRow := { m with webhookURL := url }

theorem withWebhookURL_id (url : String) (m : MerchantRow) :
    (withWebhookURL url m).id = m.id := rfl

def Move.apply (m : Move) (w : SubscriptionWorld) : SubscriptionWorld :=
  match m with
  | .paymentStatus id status =>
      { w with payments := w.payments.modify id (withStatus status) (withStatus_id status) }
  | .webhookURL id url =>
      { w with merchants := w.merchants.modify id (withWebhookURL url) (withWebhookURL_id url) }
  | .tick elapsed => { w with clock := w.clock + elapsed }

namespace Service

def ended {α : Type} (p : SubscriptionCall α) : SubscriptionCall Unit := p.bind fun _ => .ret ()

def program (s : Service) : Operation → SubscriptionCall Unit
  | .upgradePlan m planID redirectURL => ended (s.upgradePlan m planID redirectURL)
  | .cancelPlan m => cancelPlan m
  | .assignMerchantPlan m planID => assignMerchantPlan m planID
  | .paymentStatusUpdate m id => s.processPaymentStatusUpdate m id
  | .createPayment m props => ended (s.createPayment m props)
  | .enforceLimits m price => enforceLimits m price
  | .countConfirmed tx status => countConfirmed tx status

def system (s : Service) :
    System SubscriptionStmt SubscriptionReply SubscriptionEnv SubscriptionWorld Empty Err
      Operation Move where
  engine := subscriptionEngine
  program := s.program
  move := Move.apply

end Service

abbrev SubscriptionConfig :=
  Config SubscriptionStmt SubscriptionReply SubscriptionEnv SubscriptionWorld Empty Err Operation

abbrev SubscriptionEvent := Event SubscriptionEnv Move Operation

end Subscription

end CryptoLink
