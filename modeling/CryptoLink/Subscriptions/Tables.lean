import CryptoLink.Services.Payments
import CryptoLink.Library.RankedListings

/-!
# Plans, subscriptions and usage

The tables of the subscription service and its statements, one definition per
query. Every statement runs on the pool and commits by itself. Columns of two
decimals are held in hundredths; times are the clock on the wall, in
nanoseconds.
-/

namespace CryptoLink

open KeyedTables ReadCommitted StatementPrograms RankedListings

namespace Calendar

def second : Int := 10 ^ 9

def day : Int := 24 * 60 * 60 * second

/-- Days from 1970-01-01 to a date of the proleptic Gregorian calendar. Years
are counted from March, so that a leap day is the last of its year. -/
def daysFromCivil (year month dayOfMonth : Int) : Int :=
  let y := if month ≤ 2 then year - 1 else year
  let era := y / 400
  let yearOfEra := y - era * 400
  let dayOfYear := (153 * ((month + 9) % 12) + 2) / 5 + dayOfMonth - 1
  era * 146097 + (yearOfEra * 365 + yearOfEra / 4 - yearOfEra / 100 + dayOfYear) - 719468

def civilFromDays (days : Int) : Int × Int × Int :=
  let z := days + 719468
  let era := z / 146097
  let dayOfEra := z - era * 146097
  let yearOfEra :=
    (dayOfEra - dayOfEra / 1460 + dayOfEra / 36524 - dayOfEra / 146096) / 365
  let dayOfYear := dayOfEra - (365 * yearOfEra + yearOfEra / 4 - yearOfEra / 100)
  let mp := (5 * dayOfYear + 2) / 153
  let month := if mp < 10 then mp + 3 else mp - 9
  let year := yearOfEra + era * 400
  (if month ≤ 2 then year + 1 else year, month, dayOfYear - (153 * mp + 2) / 5 + 1)

/-- `time.Time.AddDate`: days past the end of the month run into the next. -/
def addDate (t years months : Int) : Int :=
  let (year, month, dayOfMonth) := civilFromDays (t / day)
  let m := month - 1 + months
  (daysFromCivil (year + years + m / 12) (m % 12 + 1) 1 + (dayOfMonth - 1)) * day + t % day

/-- The first instant of the month. -/
def monthStart (t : Int) : Int :=
  let (year, month, _) := civilFromDays (t / day)
  daysFromCivil year month 1 * day

example : civilFromDays (daysFromCivil 2024 2 29) = (2024, 2, 29) := by decide
example : addDate (daysFromCivil 2023 1 31 * day) 0 1 = daysFromCivil 2023 3 3 * day := by decide

end Calendar

structure SubscriptionPlan where
  id : String
  name : String
  priceUSD : Int
  billingPeriod : String
  maxPaymentsMonthly : Option Int
  maxAPICallsMonthly : Option Int
  maxVolumeMonthlyUSD : Option Int
  isActive : Bool
  deriving DecidableEq, Repr

inductive SubscriptionStatus where
  | active
  | pendingPayment
  | expired
  | cancelled
  deriving DecidableEq, Repr

/-- The statuses the partial unique index of the table is about. -/
def SubscriptionStatus.isOpen (s : SubscriptionStatus) : Bool := s = .active || s = .pendingPayment

structure MerchantSubscription where
  id : Int
  uuid : String
  merchantID : Int
  planID : String
  status : SubscriptionStatus
  currentPeriodStart : Int
  currentPeriodEnd : Int
  paymentID : Option Int
  autoRenew : Bool
  createdAt : Int
  updatedAt : Int
  cancelledAt : Option Int
  deriving DecidableEq, Repr

/-- The unique constraint of `usage_tracking`. -/
structure UsageKey where
  merchantID : Int
  periodStart : Int
  deriving DecidableEq, Repr

structure UsageTracking where
  key : UsageKey
  periodEnd : Int
  paymentCount : Int
  paymentVolumeUSD : Int
  apiCallsCount : Int
  createdAt : Int
  updatedAt : Int
  deriving DecidableEq, Repr

structure MerchantRow where
  id : Int
  webhookURL : String
  deriving DecidableEq, Repr

structure SubscriptionWorld where
  plans : Table String SubscriptionPlan SubscriptionPlan.id
  merchants : Table Int MerchantRow MerchantRow.id
  subscriptions : Table Int MerchantSubscription MerchantSubscription.id
  nextSubscriptionID : Int
  usage : Table UsageKey UsageTracking UsageTracking.key
  payments : Table Int PaymentRow PaymentRow.id
  nextPaymentID : Int
  clock : Int

structure CreateSubscriptionParams where
  uuid : String
  merchantID : Int
  planID : String
  status : SubscriptionStatus
  currentPeriodStart : Int
  currentPeriodEnd : Int
  autoRenew : Bool
  createdAt : Int
  updatedAt : Int
  deriving DecidableEq, Repr

/-- The queries of the subscription service and of the payments it makes, and
the calls that leave the process. -/
inductive SubscriptionStmt where
  | getPlan (planID : String)
  | getPlanByID (planID : String)
  | createPlan (plan : SubscriptionPlan)
  | updatePlan (planID : String) (plan : SubscriptionPlan)
  | getActiveSubscription (merchantID : Int)
  | createSubscription (p : CreateSubscriptionParams)
  | activateSubscription (subscriptionID paymentID updatedAt : Int)
  | cancelSubscription (subscriptionID cancelledAt updatedAt : Int)
  | getCurrentUsage (merchantID now : Int)
  | createUsagePeriod (merchantID periodStart periodEnd createdAt updatedAt : Int)
  | incrementPaymentUsage (merchantID volumeUSD now : Int)
  | merchantExists (merchantID : Int)
  | deactivateSubscriptions (merchantID : Int)
  | insertAssigned (p : CreateSubscriptionParams)
  | getSubscriptionByUUID (uuid : String)
  | getPaymentMetadata (paymentID : Int)
  | getMerchantByID (merchantID : Int)
  | createPayment (p : CreatePaymentParams)
  | getDetailedPayment (merchantID paymentID : Int)
  | setWebhookTimestamp (merchantID paymentID updatedAt : Int)
  | sendWebhook (url : String)
  | newUUID
  | timeNow

@[reducible] def SubscriptionReply : SubscriptionStmt → Type
  | .getPlan _ => Except Err SubscriptionPlan
  | .getPlanByID _ => Except Err SubscriptionPlan
  | .createPlan _ => Except Err SubscriptionPlan
  | .updatePlan .. => Except Err SubscriptionPlan
  | .getActiveSubscription _ => Except Err MerchantSubscription
  | .createSubscription _ => Except Err MerchantSubscription
  | .activateSubscription .. => Except Err Unit
  | .cancelSubscription .. => Except Err Unit
  | .getCurrentUsage .. => Except Err UsageTracking
  | .createUsagePeriod .. => Except Err UsageTracking
  | .incrementPaymentUsage .. => Except Err ℕ
  | .merchantExists _ => Except Err Bool
  | .deactivateSubscriptions _ => Except Err Unit
  | .insertAssigned _ => Except Err Unit
  | .getSubscriptionByUUID _ => Except Err (Int × SubscriptionStatus)
  | .getPaymentMetadata _ => Except Err (Option MetaData)
  | .getMerchantByID _ => Except Err MerchantRow
  | .createPayment _ => Except Err PaymentRow
  | .getDetailedPayment .. => Except Err PaymentRow
  | .setWebhookTimestamp .. => Except Err Unit
  | .sendWebhook _ => Except Err Unit
  | .newUUID => String
  | .timeNow => Int

/-- What the surroundings decide at one step: what becomes of the statement,
how much time has passed when the clock is read, which UUID is drawn. -/
structure SubscriptionEnv where
  fate : Fate := .done
  elapsed : ℕ := 0
  uuid : String := ""
  deriving DecidableEq, Repr

namespace SubscriptionWorld

variable (w : SubscriptionWorld)

def getPlanByID (planID : String) : Option SubscriptionPlan := w.plans.get planID

/-- `where id = $1 and is_active = true` -/
def getPlan (planID : String) : Option SubscriptionPlan :=
  (w.plans.get planID).filter fun p => p.isActive

/-- An update writes every column but the key. -/
def updatedPlan (plan old : SubscriptionPlan) : SubscriptionPlan := { plan with id := old.id }

def openSubscriptions (merchantID : Int) : List MerchantSubscription :=
  w.subscriptions.rows.filter fun r => r.merchantID = merchantID && r.status.isOpen

/-- `status in ('active', 'pending_payment') order by id desc limit 1` -/
def getActiveSubscription (merchantID : Int) : Option MerchantSubscription :=
  (ranked MerchantSubscription.id (w.openSubscriptions merchantID)).head?

/-- Foreign keys, the unique UUID, the primary key, and the index that lets a
merchant have one open subscription. -/
def subscriptionFits (p : CreateSubscriptionParams) : Bool :=
  (w.merchants.get p.merchantID).isSome && (w.plans.get p.planID).isSome &&
    w.subscriptions.rows.all (fun r => r.uuid != p.uuid) &&
    (w.subscriptions.get w.nextSubscriptionID).isNone &&
    (!p.status.isOpen || (w.openSubscriptions p.merchantID).isEmpty)

def newSubscription (p : CreateSubscriptionParams) : MerchantSubscription where
  id := w.nextSubscriptionID
  uuid := p.uuid
  merchantID := p.merchantID
  planID := p.planID
  status := p.status
  currentPeriodStart := p.currentPeriodStart
  currentPeriodEnd := p.currentPeriodEnd
  paymentID := none
  autoRenew := p.autoRenew
  createdAt := p.createdAt
  updatedAt := p.updatedAt
  cancelledAt := none

/-- The payment exists, and no other subscription of the merchant is open. -/
def activationFits (r : MerchantSubscription) (paymentID : Int) : Bool :=
  (w.payments.get paymentID).isSome &&
    (w.openSubscriptions r.merchantID).all fun r' => r'.id = r.id

def activatedSubscription (paymentID updatedAt : Int) (r : MerchantSubscription) :
    MerchantSubscription :=
  { r with status := .active, paymentID := some paymentID, updatedAt := updatedAt }

def cancelledSubscription (cancelledAt updatedAt : Int) (r : MerchantSubscription) :
    MerchantSubscription :=
  { r with autoRenew := false, cancelledAt := some cancelledAt, updatedAt := updatedAt }

def deactivatedSubscription (r : MerchantSubscription) : MerchantSubscription :=
  { r with status := .cancelled }

/-- `merchant_id = $1 and period_start <= now and period_end >= now` -/
def isCurrentUsage (merchantID now : Int) (u : UsageTracking) : Bool :=
  u.key.merchantID = merchantID && u.key.periodStart ≤ now && now ≤ u.periodEnd

def currentUsage (merchantID now : Int) : List UsageTracking :=
  w.usage.rows.filter (isCurrentUsage merchantID now)

/-- `order by period_start desc limit 1` -/
def getCurrentUsage (merchantID now : Int) : Option UsageTracking :=
  (ranked (fun u => u.key.periodStart) (w.currentUsage merchantID now)).head?

def usageFits (key : UsageKey) : Bool :=
  (w.merchants.get key.merchantID).isSome && (w.usage.get key).isNone

def newUsage (key : UsageKey) (periodEnd createdAt updatedAt : Int) : UsageTracking :=
  ⟨key, periodEnd, 0, 0, 0, createdAt, updatedAt⟩

def incrementedUsage (volumeUSD now : Int) (u : UsageTracking) : UsageTracking :=
  { u with
    paymentCount := u.paymentCount + 1
    paymentVolumeUSD := u.paymentVolumeUSD + volumeUSD
    updatedAt := now }

/-- `integer` and `decimal(20,2)` hold what comes out. -/
def incrementFits (merchantID volumeUSD now : Int) : Bool :=
  (w.currentUsage merchantID now).all fun u =>
    u.paymentCount + 1 < 2 ^ 31 && (u.paymentVolumeUSD + volumeUSD).natAbs < 10 ^ 20

def getSubscriptionByUUID (uuid : String) : Option (Int × SubscriptionStatus) :=
  (w.subscriptions.rows.find? fun r => r.uuid = uuid).map fun r => (r.id, r.status)

def getPayment (merchantID paymentID : Int) : Option PaymentRow :=
  (w.payments.get paymentID).filter fun p => p.merchantID = merchantID

def paymentFits (p : CreatePaymentParams) : Bool :=
  (w.merchants.get p.merchantID).isSome && (w.payments.get w.nextPaymentID).isNone

def newPayment (p : CreatePaymentParams) : PaymentRow where
  id := w.nextPaymentID
  createdAt := p.createdAt
  updatedAt := p.updatedAt
  type := p.type
  status := p.status
  merchantID := p.merchantID
  expiresAt := none
  originalExpiresAt := none
  price := p.price
  decimals := p.decimals
  currency := p.currency
  customerID := none
  isTest := p.isTest
  metadata := p.metadata

def touchedPayment (updatedAt : Int) (p : PaymentRow) : PaymentRow :=
  { p with updatedAt := updatedAt }

/-- What a statement answers on the tables it sees. -/
def answer (env : SubscriptionEnv) (w : SubscriptionWorld) :
    (s : SubscriptionStmt) → SubscriptionReply s
  | .getPlan planID => answered env.fate .database (noRows (w.getPlan planID))
  | .getPlanByID planID => answered env.fate .database (noRows (w.getPlanByID planID))
  | .createPlan plan => answered env.fate .database
      (if (w.plans.get plan.id).isNone then .ok plan else .error (Err.of .database))
  | .updatePlan planID plan => answered env.fate .database
      (noRows ((w.plans.get planID).map (updatedPlan plan)))
  | .getActiveSubscription m => answered env.fate .database (noRows (w.getActiveSubscription m))
  | .createSubscription p => answered env.fate .database
      (if w.subscriptionFits p then .ok (w.newSubscription p) else .error (Err.of .database))
  | .activateSubscription id paymentID _ => answered env.fate .database
      (match w.subscriptions.get id with
        | none => .ok ()
        | some r => if w.activationFits r paymentID then .ok () else .error (Err.of .database))
  | .cancelSubscription .. => answered env.fate .database (.ok ())
  | .getCurrentUsage m now => answered env.fate .database (noRows (w.getCurrentUsage m now))
  | .createUsagePeriod m periodStart periodEnd createdAt updatedAt => answered env.fate .database
      (if w.usageFits ⟨m, periodStart⟩ then
        .ok (newUsage ⟨m, periodStart⟩ periodEnd createdAt updatedAt)
      else .error (Err.of .database))
  | .incrementPaymentUsage m volumeUSD now => answered env.fate .database
      (if w.incrementFits m volumeUSD now then .ok (w.currentUsage m now).length
      else .error (Err.of .database))
  | .merchantExists m => answered env.fate .database (.ok (w.merchants.get m).isSome)
  | .deactivateSubscriptions _ => answered env.fate .database (.ok ())
  | .insertAssigned p => answered env.fate .database
      (if w.subscriptionFits p then .ok () else .error (Err.of .database))
  | .getSubscriptionByUUID uuid =>
    answered env.fate .database (noRows (w.getSubscriptionByUUID uuid))
  | .getPaymentMetadata id =>
    answered env.fate .database (noRows ((w.payments.get id).map PaymentRow.metadata))
  | .getMerchantByID m => answered env.fate .database (noRows (w.merchants.get m))
  | .createPayment p => answered env.fate .database
      (if w.paymentFits p then .ok (w.newPayment p) else .error (Err.of .database))
  | .getDetailedPayment m id => answered env.fate .database (noRows (w.getPayment m id))
  | .setWebhookTimestamp .. => answered env.fate .database (.ok ())
  | .sendWebhook _ => answered env.fate .database (.ok ())
  | .newUUID => env.uuid
  | .timeNow => if env.fate = .refused then w.clock else w.clock + env.elapsed

-- an update leaves the key of its row alone

theorem updatedPlan_id (plan old : SubscriptionPlan) : (updatedPlan plan old).id = old.id := rfl

theorem activatedSubscription_id (paymentID updatedAt : Int) (r : MerchantSubscription) :
    (activatedSubscription paymentID updatedAt r).id = r.id := rfl

theorem cancelledSubscription_id (cancelledAt updatedAt : Int) (r : MerchantSubscription) :
    (cancelledSubscription cancelledAt updatedAt r).id = r.id := rfl

theorem deactivatedSubscription_id (r : MerchantSubscription) :
    (deactivatedSubscription r).id = r.id := rfl

theorem incrementedUsage_key (volumeUSD now : Int) (u : UsageTracking) :
    (incrementedUsage volumeUSD now u).key = u.key := rfl

theorem touchedPayment_id (updatedAt : Int) (p : PaymentRow) :
    (touchedPayment updatedAt p).id = p.id := rfl

/-- What a statement does to the tables. -/
def effect (s : SubscriptionStmt) (env : SubscriptionEnv) (seen w : SubscriptionWorld) :
    SubscriptionWorld :=
  match s with
  | .createPlan plan => { w with plans := w.plans.insert plan }
  | .updatePlan planID plan =>
      { w with plans := w.plans.modify planID (updatedPlan plan) (updatedPlan_id plan) }
  | .createSubscription p =>
      if seen.subscriptionFits p then
        { w with subscriptions := w.subscriptions.insert (seen.newSubscription p) }
      else w
  | .insertAssigned p =>
      if seen.subscriptionFits p then
        { w with subscriptions := w.subscriptions.insert (seen.newSubscription p) }
      else w
  | .activateSubscription id paymentID updatedAt =>
      match seen.subscriptions.get id with
      | none => w
      | some r =>
          if seen.activationFits r paymentID then
            { w with
              subscriptions := w.subscriptions.modify id
                (activatedSubscription paymentID updatedAt)
                (activatedSubscription_id paymentID updatedAt) }
          else w
  | .cancelSubscription id cancelledAt updatedAt =>
      { w with
        subscriptions := w.subscriptions.modify id (cancelledSubscription cancelledAt updatedAt)
          (cancelledSubscription_id cancelledAt updatedAt) }
  | .deactivateSubscriptions m =>
      { w with
        subscriptions := w.subscriptions.updateWhere
          (fun r => r.merchantID = m && r.status.isOpen) deactivatedSubscription
          deactivatedSubscription_id }
  | .createUsagePeriod m periodStart periodEnd createdAt updatedAt =>
      if seen.usageFits ⟨m, periodStart⟩ then
        { w with
          usage := w.usage.insert (newUsage ⟨m, periodStart⟩ periodEnd createdAt updatedAt) }
      else w
  | .incrementPaymentUsage m volumeUSD now =>
      if seen.incrementFits m volumeUSD now then
        { w with
          usage := w.usage.updateWhere (isCurrentUsage m now) (incrementedUsage volumeUSD now)
            (incrementedUsage_key volumeUSD now) }
      else w
  | .createPayment p =>
      if seen.paymentFits p then
        { w with payments := w.payments.insert (seen.newPayment p) }
      else w
  | .setWebhookTimestamp m id updatedAt =>
      match seen.getPayment m id with
      | none => w
      | some _ =>
          { w with
            payments := w.payments.modify id (touchedPayment updatedAt)
              (touchedPayment_id updatedAt) }
  | .timeNow => { w with clock := w.clock + env.elapsed }
  | _ => w

/-- Sequence values are spent whatever becomes of the insert. -/
def lasting (s : SubscriptionStmt) (w : SubscriptionWorld) : SubscriptionWorld :=
  match s with
  | .createSubscription _ => { w with nextSubscriptionID := w.nextSubscriptionID + 1 }
  | .insertAssigned _ => { w with nextSubscriptionID := w.nextSubscriptionID + 1 }
  | .createPayment _ => { w with nextPaymentID := w.nextPaymentID + 1 }
  | _ => w

end SubscriptionWorld

/-- No transaction is ever open here, so no lock outlives its statement. -/
def subscriptionEngine :
    Engine SubscriptionStmt SubscriptionReply SubscriptionEnv SubscriptionWorld Empty where
  reply s env w := w.answer env s
  effect s env seen w :=
    if env.fate = .refused then w else SubscriptionWorld.effect s env seen w
  lasting s env w := if env.fate = .refused then w else SubscriptionWorld.lasting s w
  locks _ _ _ := []
  opens env := env.fate = .done
  lands env := env.fate ≠ .refused
  acknowledged env := env.fate = .done

theorem autocommit_refused {st : SubscriptionStmt} {env : SubscriptionEnv} {w : SubscriptionWorld}
    (h : env.fate = .refused) : subscriptionEngine.autocommit st env w = w := by
  simp [Engine.autocommit, subscriptionEngine, h]

theorem autocommit_landed {st : SubscriptionStmt} {env : SubscriptionEnv} {w : SubscriptionWorld}
    (h : env.fate ≠ .refused) : subscriptionEngine.autocommit st env w =
      SubscriptionWorld.effect st env w (SubscriptionWorld.lasting st w) := by
  simp [Engine.autocommit, subscriptionEngine, h]

end CryptoLink
