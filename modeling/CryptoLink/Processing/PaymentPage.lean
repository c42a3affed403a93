import CryptoLink.Processing.Options

/-!
# The payment page

What a customer is shown of a payment whose options are set: its amounts,
rounded down to what is displayed, and the links a wallet opens.
-/

namespace CryptoLink

def bitcoinPaymentLink (addr : String) (amount : Money) : String :=
  "bitcoin:" ++ addr ++ "?amount=" ++ amount.string

/-- A coin is sent to the address, a token by a call of its contract. -/
def ethPaymentLink (addr : String) (currency : CryptoCurrency) (amount : Money) (isTest : Bool) :
    String :=
  match currency.type with
  | .coin =>
      "ethereum:" ++ addr ++ "@" ++ currency.chooseNetwork isTest ++ "?value=" ++ amount.stringRaw
  | .token =>
      "ethereum:" ++ currency.chooseContractAddress isTest ++ "@" ++
        currency.chooseNetwork isTest ++
        "/transfer?address=" ++ addr ++ "&uint256=" ++ amount.stringRaw

def tronPaymentLink (addr : String) (amount : Money) : String :=
  "tron:" ++ addr ++ "?amount=" ++ amount.string

def ethLinked : List Blockchain := ["ETH", "MATIC", "BSC", "ARBITRUM", "AVAX"]

def createPaymentLink (addr : String) (currency : CryptoCurrency) (amount : Money)
    (isTest : Bool) : Except Err String :=
  if currency.blockchain = "BTC" then .ok (bitcoinPaymentLink addr amount)
  else if currency.blockchain ∈ ethLinked then .ok (ethPaymentLink addr currency amount isTest)
  else if currency.blockchain = "TRON" then .ok (tronPaymentLink addr amount)
  else .error (Err.new ("unable to create payment link for " ++ currency.blockchain))

def Transaction.paymentLink (tx : Transaction) : Except Err String :=
  createPaymentLink tx.recipientAddress tx.currency tx.amount tx.isTest

/-- `SumAllFillsForTx`: everything but the reorged. -/
def World.sumAllFillsForTx (w : World) (transactionID : Int) : Int :=
  (((w.fillsOf transactionID).filter fun f => f.status ≠ .reorged).map FillRow.amount).sum

namespace Service

/-- `SumAllFills`, from the database's answer. -/
def sumAllFills (parentTx : Transaction) (answer : Except Err Int) : Except Err Money := do
  let num ← wrapErr "unable to sum fills" answer
  .ok (numericToCrypto num parentTx.amount)

/-- `PublicStatus`: a locked payment is still pending to its customer. -/
def publicStatus (p : Payment) : Payment.Status :=
  if p.status = .locked then .pending else p.status

structure PaymentInfo where
  status : Payment.Status
  paymentLink : String
  recipientAddress : String
  amount : String
  amountFormatted : String
  factAmountFormatted : String
  receivedAmount : String
  remainingAmount : String
  remainingPaymentLink : String
  deriving DecidableEq, Repr

def displayAmount (tx : Transaction) (m : Money) : String :=
  (m.truncateDecimals tx.currency.maxDisplayDecimals).string

/-- The received amount, the remaining one and its link. -/
def remainingInfo (pt : Payment) (tx : Transaction) (allFills : Except Err Int) :
    Except Err (String × String × String) :=
  if pt.status = .partialPaid ∨ pt.status = .underpaid then do
    let receivedSum ← wrapErr "unable to sum fills for partial payment" (sumAllFills tx allFills)
    let receivedFormatted := displayAmount tx receivedSum
    match tx.amount.subNegative receivedSum with
    | .error _ => .ok (receivedFormatted, "", "")
    | .ok remaining =>
        let truncatedRemaining := remaining.truncateDecimals tx.currency.maxDisplayDecimals
        let remainingLink := match createPaymentLink tx.recipientAddress tx.currency
            truncatedRemaining tx.isTest with
          | .ok link => link
          | .error _ => ""
        .ok (receivedFormatted, truncatedRemaining.string, remainingLink)
  else .ok ("", "", "")

/-- The last part of `GetDetailedPayment`: nothing is shown of a payment that
can still be edited. -/
def paymentInfo (details : DetailedPayment) (allFills : Except Err Int) :
    Except Err (Option PaymentInfo) :=
  match details.paymentMethod with
  | none => .ok none
  | some tx =>
    if details.payment.isEditable then .ok none
    else do
      let paymentLink ← tx.paymentLink
      let remaining ← remainingInfo details.payment tx allFills
      .ok (some {
        status := publicStatus details.payment
        paymentLink := paymentLink
        recipientAddress := tx.recipientAddress
        amount := tx.amount.stringRaw
        amountFormatted := displayAmount tx tx.amount
        factAmountFormatted := match tx.factAmount with
          | none => ""
          | some factAmount => displayAmount tx factAmount
        receivedAmount := remaining.1
        remainingAmount := remaining.2.1
        remainingPaymentLink := remaining.2.2 })

end Service

end CryptoLink
