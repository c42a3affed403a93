import Mathlib.Data.List.Basic

/-!
# Errors

An error is the sentinel it was made from and the messages wrapped around it,
outermost first. `errors.Is` compares the sentinel only. A Go panic is carried
as an error of its own kind.
-/

namespace CryptoLink

inductive Cause where
  | text (message : String)
  | panic (message : String)
  | noRows
  | database
  | remote
  | errIncompatibleMoney
  | errNegative
  | errParse
  | errInvalidFiatCurrency
  | errCurrencyNotFound
  | errBalanceNotFound
  | errWalletNotFound
  | errTransactionNotFound
  | errSameStatus
  | errInvalidUpdateParams
  | errPaymentNotFound
  | errValidation
  | errPaymentMethodNotSet
  | errStatusInvalid
  | errPaymentOptionsMissing
  | errInvalidInput
  | errSkippedProcessor
  | errPlanNotFound
  | errSubscriptionNotFound
  | errLimitExceeded
  deriving DecidableEq, Repr

structure Err where
  cause : Cause
  context : List String
  deriving DecidableEq, Repr

namespace Err

def of (c : Cause) : Err := ⟨c, []⟩

/-- A statement that failed, for whatever reason. -/
abbrev database : Err := of .database

/-- A call to another process that failed. -/
abbrev remote : Err := of .remote

/-- `errors.New` -/
def new (message : String) : Err := ⟨.text message, []⟩

def wrap (message : String) (e : Err) : Err := ⟨e.cause, message :: e.context⟩

/-- `errors.Is` -/
def is (e : Err) (c : Cause) : Bool := decide (e.cause = c)

@[simp] theorem is_wrap (message : String) (e : Err) (c : Cause) :
    (e.wrap message).is c = e.is c := rfl

end Err

end CryptoLink
