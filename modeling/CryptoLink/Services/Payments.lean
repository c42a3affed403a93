import CryptoLink.Services.Transactions

/-!
# Payments

`Update` writes any status over any other; what keeps a payment on its course
are the checks its callers make on the row they read before.
-/

namespace CryptoLink

open ReadCommitted StatementPrograms

structure Payment where
  id : Int
  createdAt : Int
  updatedAt : Int
  expiresAt : Option Int
  type : Payment.Kind
  status : Payment.Status
  merchantID : Int
  price : Money
  isTest : Bool
  customerID : Option Int
  metadata : MetaData
  deriving DecidableEq, Repr

namespace Payment

def isEditable (p : Payment) : Bool := p.status = .pending

def metaInternalPayment : String := "internalPayment"

end Payment

def fiatCurrencies : List String :=
  ["USD", "EUR", "GBP", "CAD", "AUD", "CHF", "JPY", "CNY", "INR", "BRL", "MXN", "KRW", "SGD",
    "HKD", "SEK", "NOK", "DKK", "PLN", "CZK", "TRY", "ZAR", "NZD", "THB", "AED", "SAR", "RUB"]

def makeFiatCurrency (c : String) : Except Err String :=
  if c ∈ fiatCurrencies then .ok c else .error ((Err.of .errInvalidFiatCurrency).wrap c)

def paymentPrice (p : PaymentRow) (metadata : MetaData) : Except Err Money :=
  let isInternal := (metadata.find Payment.metaInternalPayment).isSome
  if p.type = .withdrawal ∨ isInternal then .ok (Money.crypto p.currency p.price p.decimals)
  else do
    let currency ← makeFiatCurrency p.currency
    .ok ⟨.fiat, currency, p.price, p.decimals⟩

def entryToPayment (p : PaymentRow) : Except Err Payment := do
  let metadata := p.metadata.getD []
  let price ← paymentPrice p metadata
  .ok {
    id := p.id
    createdAt := p.createdAt
    updatedAt := p.updatedAt
    expiresAt := p.expiresAt
    type := p.type
    status := p.status
    merchantID := p.merchantID
    price := price
    isTest := p.isTest
    customerID := p.customerID
    metadata := metadata }

def toPayment (x : Except Err PaymentRow) : Except Err Payment :=
  (orNotFound .errPaymentNotFound x).bind entryToPayment

def minute : Int := 60 * 10 ^ 9

/-- `ExpirationPeriodForLocked` -/
def expirationPeriodForLocked : Int := 20 * minute

/-- `PartialExtensionPerFill` -/
def partialExtensionPerFill : Int := 30 * minute

namespace Service

variable (s : Service)

def getPaymentByID (merchantID id : Int) : Call Payment := do
  let r ← ask .pool (.getPaymentByID id merchantID
    (decide (merchantID ≠ Transaction.merchantIDWildcard)))
  succeed (toPayment r)

/-- Only locking a payment sets its expiration. -/
def lockedUntil (status : Payment.Status) : Call (Option Int) :=
  if status = .locked then do
    let t ← timeNow
    pure (some (t + expirationPeriodForLocked))
  else pure none

/-- `payment.Service.Update` -/
def updatePayment (merchantID id : Int) (status : Payment.Status) : Call Payment := do
  let now ← timeNow
  let expiresAt ← lockedUntil status
  let r ← ask .pool (.updatePayment {
    id := id
    merchantID := merchantID
    status := status
    updatedAt := now
    expiresAt := expiresAt
    setExpiresAt := decide (status = .locked) })
  let pt ← succeed (orNotFound .errPaymentNotFound r)
  if pt.merchantID ≠ 0 then do
    let published ← ask .pool (.publishPaymentStatusUpdate pt.merchantID pt.id)
    succeed (wrapErr "unable to publish event" published)
    succeed (entryToPayment pt)
  else succeed (entryToPayment pt)

/-- `payment.Service.Fail` -/
def failPayment (pt : Payment) : Call Unit := do
  let _ ← updatePayment pt.merchantID pt.id .failed
  pure ()

def markPartial (merchantID paymentID : Int) : Call Payment := do
  let requested ← timeNow
  let now ← timeNow
  let r ← ask .pool (.extendPaymentExpiry {
    id := paymentID
    merchantID := merchantID
    status := .partialPaid
    updatedAt := now
    requestedExpiresAt := requested + partialExtensionPerFill })
  let row ← succeed (wrapErr "unable to extend partial payment expiry" r)
  let pt ← getPaymentByID merchantID row.id
  -- a failed publish is only logged
  let _ ← ask .pool (.publishPaymentStatusUpdate merchantID pt.id)
  pure pt

def resolveComment (paymentID : Int) : String :=
  "resolved underpaid payment #" ++ toString paymentID

/-- The credit that follows a resolved underpayment. None of its failures
reach the caller. -/
def creditResolved (merchantID paymentID : Int) : Call Unit := do
  let found ← (s.getLatestByPaymentID paymentID).attempt
  match found with
  | .error _ => pure ()
  | .ok tx =>
    match tx.factAmount with
    | none => pure ()
    | some factAmount =>
      if factAmount.isZero then pure ()
      else do
        let ensured ← (ensureBalance .merchant merchantID tx.currency tx.isTest).attempt
        match ensured with
        | .error _ => pure ()
        | .ok balance => do
            let _ ← (updateBalanceByID balance.id {
              operation := .increment
              amount := factAmount
              comment := resolveComment paymentID
              metaData := [] }).attempt
            pure ()

def resolvePayment (merchantID paymentID : Int) : Call Payment := do
  let pt ← getPaymentByID merchantID paymentID
  if pt.status ≠ .failed ∧ pt.status ≠ .underpaid then
    .fail ((Err.of .errValidation).wrap "only failed or underpaid payments can be resolved")
  else do
    let resolved ← (updatePayment merchantID pt.id .success).mapError
      (Err.wrap "unable to resolve payment")
    if pt.status = .underpaid then do
      s.creditResolved merchantID resolved.id
      pure resolved
    else pure resolved

def declinePayment (merchantID paymentID : Int) : Call Payment := do
  let pt ← getPaymentByID merchantID paymentID
  if pt.status ≠ .underpaid then
    .fail ((Err.of .errValidation).wrap "only underpaid payments can be declined")
  else (updatePayment merchantID pt.id .failed).mapError (Err.wrap "unable to decline payment")

end Service

end CryptoLink
