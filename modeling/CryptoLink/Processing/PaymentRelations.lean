import CryptoLink.Library.DistinctRows
import CryptoLink.Merchants.Services
import CryptoLink.Services.Transactions

/-!
# Payments with their relations

A page of payments is shown with the transaction of each. The transactions of
the page are read in one query and joined by payment id.
-/

namespace CryptoLink

open RankedListings

structure PaymentWithRelations where
  payment : PaymentRow
  transaction : Option Transaction
  customer : Option MerchantAPI.Customer
  balance : Option Balance
  deriving DecidableEq, Repr

/-- `EagerLoadTransactionsByPaymentID` -/
def World.eagerLoadTransactionsByPaymentID (w : World) (merchantID : Int) (entityIDs : List Int)
    (types : List Transaction.Kind) : List TransactionRow :=
  distinctOn (fun r => r.entityID.getD 0) TransactionRow.id (w.transactions.rows.filter fun r =>
    r.merchantID = merchantID && r.entityID.any (· ∈ entityIDs) && decide (r.type ∈ types))

/-- What `eagerLoadCustomers` and `eagerLoadBalances` find for each payment. -/
structure OtherRelations where
  customers : Except Err (PaymentRow → Option MerchantAPI.Customer)
  balances : Except Err (PaymentRow → Option Balance)

namespace Service

variable (s : Service)

/-- The ids go to the query as 32-bit integers. -/
def eagerLoadByPaymentIDs (w : World) (merchantID : Int) (paymentIDs : List Int) :
    Except Err (List Transaction) :=
  (w.eagerLoadTransactionsByPaymentID merchantID (paymentIDs.map MerchantAPI.int32)
    [.incoming, .withdrawal]).mapM s.entryToTransaction

def eagerLoadTransactions (w : World) (merchantID : Int) (pagination : List PaymentWithRelations) :
    Except Err (List PaymentWithRelations) := do
  let paymentIDs := pagination.map fun p => p.payment.id
  let txs ← s.eagerLoadByPaymentIDs w merchantID paymentIDs
  let txMap := keyed Transaction.entityID txs
  pure (pagination.map fun p =>
    match txMap p.payment.id with
    | some tx => { p with transaction := some tx }
    | none => p)

def eagerLoadRelations (w : World) (others : OtherRelations) (merchantID : Int)
    (payments : List PaymentWithRelations) : Except Err (List PaymentWithRelations) := do
  let payments ← wrapErr "unable to eager load transactions"
    (s.eagerLoadTransactions w merchantID payments)
  let customerOf ← wrapErr "unable to eager load customers" others.customers
  let payments := payments.map fun p => { p with customer := customerOf p.payment }
  let balanceOf ← wrapErr "unable to eager load balances" others.balances
  pure (payments.map fun p => { p with balance := balanceOf p.payment })

/-- `ListWithRelations` of the page that `List` gave. -/
def listWithRelations (w : World) (others : OtherRelations) (merchantID : Int)
    (page : Except Err (List PaymentRow × String)) :
    Except Err (List PaymentWithRelations × String) := do
  let (payments, cursor) ← wrapErr "unable to list payments" page
  let pagination := payments.map fun pt => (⟨pt, none, none, none⟩ : PaymentWithRelations)
  let pagination ← s.eagerLoadRelations w others merchantID pagination
  pure (pagination, cursor)

end Service

end CryptoLink
