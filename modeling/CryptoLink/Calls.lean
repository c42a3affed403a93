import CryptoLink.Processing.Options
import CryptoLink.Watcher.Detection
import CryptoLink.Library.Protocols

/-!
# Every call of the payment flow, side by side

The schedulers, the HTTP handlers and the watcher run these calls concurrently
over one database. Chains and registries change by themselves.
-/

namespace CryptoLink

open ReadCommitted StatementPrograms

/-- The calls that can be started, with the arguments they are started with.
A transaction argument was read at some earlier time. -/
inductive Operation where
  | receive (merchantID txID : Int) (params : Service.ReceiveTransaction)
  | confirm (merchantID txID : Int) (params : Service.ConfirmTransaction)
  | cancel (tx : Transaction) (status : Transaction.Status) (reason : String)
  | processInbound (tx : Transaction) (input : Input)
  | adminReconcileFill (paymentID : Int) (txHash rawAmount senderAddress : String)
  | checkIncoming (txID : Int)
  | expirePayment (paymentID : Int)
  | recheckPartialFills
  | lockPaymentOptions (merchantID paymentID : Int)
  | setPaymentMethod (p : Payment) (ticker : String)
  | changePaymentMethod (p : Payment) (feePositive : Bool) (tx : Transaction)
      (currency : CryptoCurrency)
  | resolvePayment (merchantID paymentID : Int)
  | declinePayment (merchantID paymentID : Int)
  | receiveWebhook (networkID walletID body signature : String) (wh : IncomingWebhook)
  | detected (d : DetectedTransfer)
  | autoAcceptCrossCurrency (inv : Transaction) (currency : CryptoCurrency) (amount : Money)
      (networkID : String) (p : UnmatchedCollectorPayment)

inductive Move where
  | chain (c : List ChainTx)
  | collectors (c : List CollectorRow)
  | derivedAddresses (a : List DerivedAddressRow)

def Move.apply (m : Move) (w : World) : World :=
  match m with
  | .chain c => { w with chain := c }
  | .collectors c => { w with collectors := c }
  | .derivedAddresses a => { w with derivedAddresses := a }

def discard {α : Type} (p : Call α) : Call Unit := p.bind fun _ => .ret ()

namespace Service

variable (s : Service)

def program : Operation → Call Unit
  | .receive m id params => discard (s.receive m id params)
  | .confirm m id params => discard (s.confirm m id params)
  | .cancel tx status reason => cancel tx status reason
  | .processInbound tx input => s.processInboundTransaction tx input
  | .adminReconcileFill id hash raw sender => s.adminReconcileFill id hash raw sender
  | .checkIncoming id => s.checkIncomingTransaction id
  | .expirePayment id => s.expirePayment id
  | .recheckPartialFills => s.recheckPartialFills
  | .lockPaymentOptions m id => s.lockPaymentOptions m id
  | .setPaymentMethod p ticker => discard (s.setPaymentMethod p ticker)
  | .changePaymentMethod p fee tx currency => discard (s.changePaymentMethod p fee tx currency)
  | .resolvePayment m id => discard (s.resolvePayment m id)
  | .declinePayment m id => discard (declinePayment m id)
  | .receiveWebhook network wallet body signature wh =>
      s.receiveWebhook network wallet body signature wh
  | .detected d => s.dedupOnDetected d
  | .autoAcceptCrossCurrency inv currency amount network p =>
      s.autoAcceptCrossCurrency inv currency amount network p

/-- The running processes as one transition system. -/
def system : System Stmt Reply Env World LockKey Err Operation Move where
  engine := engine
  program := s.program
  move := Move.apply

end Service

abbrev Run := List (Event Env Move Operation)

abbrev State := Config Stmt Reply Env World LockKey Err Operation

/-- No move touches the tables the payment flow writes. -/
theorem Move.apply_transactions (m : Move) (w : World) :
    (m.apply w).transactions = w.transactions := by
  cases m <;> rfl

theorem Move.apply_fills (m : Move) (w : World) : (m.apply w).fills = w.fills := by
  cases m <;> rfl

theorem Move.apply_payments (m : Move) (w : World) : (m.apply w).payments = w.payments := by
  cases m <;> rfl

theorem Move.apply_balances (m : Move) (w : World) : (m.apply w).balances = w.balances := by
  cases m <;> rfl

theorem Move.apply_auditLog (m : Move) (w : World) : (m.apply w).auditLog = w.auditLog := by
  cases m <;> rfl

-- One coin, one merchant, one payment: what concrete runs are evaluated on.
namespace Sample

def ether : CryptoCurrency where
  blockchain := "ETH"
  networkID := "1"
  testNetworkID := "5"
  type := .coin
  ticker := "ETH"
  name := "Ethereum"
  decimals := 0
  tokenContractAddress := ""
  testTokenContractAddress := ""
  aliases := []
  deprecated := false

def service : Service where
  currencies := ⟨[ether], by decide⟩
  evmCollector := true
  subscriptions := false
  defaultServiceFee := false

/-- Transaction 1 of payment 3: 100 ether to the collector of merchant 7. -/
def invoice (status : Transaction.Status) (hash sender : Option String)
    (factAmount : Option Int) : TransactionRow where
  id := 1
  createdAt := 0
  updatedAt := 0
  merchantID := 7
  status := status
  type := .incoming
  entityID := some 3
  recipientWalletID := none
  senderAddress := sender
  recipientAddress := "collector"
  transactionHash := hash
  blockchain := "ETH"
  currencyType := .coin
  currency := "ETH"
  decimals := 0
  networkDecimals := 0
  amount := 100
  factAmount := factAmount
  networkFee := none
  serviceFee := 0
  usdAmount := 5000
  metadata := none
  networkID := some "1"
  isTest := false
  senderWalletID := none

def purchase (status : Payment.Status) : PaymentRow where
  id := 3
  createdAt := 0
  updatedAt := 0
  type := .payment
  status := status
  merchantID := 7
  expiresAt := none
  originalExpiresAt := none
  price := 5000
  decimals := 2
  currency := "USD"
  customerID := none
  isTest := false
  metadata := none

def fill (hash : String) (amount observedAt : Int) (status : FillStatus) : FillRow where
  key := ⟨1, "1", hash, 0⟩
  amount := amount
  senderAddress := some "payer"
  blockNumber := none
  confirmations := 1
  status := status
  observedAt := observedAt
  confirmedAt := none

/-- A mined transfer of ether to the collector, twelve blocks deep. -/
def mined (hash : String) (amount : Int) (success : Bool) : ChainTx where
  blockchain := "ETH"
  isTest := false
  hash := hash
  sender := "payer"
  success := success
  confirmations := 12
  networkFee := 1
  transfers := [⟨"collector", "ETH", amount⟩]

def noMoney : World where
  transactions := KeyedTables.Table.empty
  nextTransactionID := 2
  fills := KeyedTables.Table.empty
  payments := KeyedTables.Table.empty
  balances := KeyedTables.Table.empty
  auditLog := []
  collectors := []
  derivedAddresses := []
  chain := []

/-- The payment with its transaction, the fills on it, and the chain. -/
def world (tx : TransactionRow) (payment : Payment.Status) (fills : List FillRow)
    (chain : List ChainTx) : World :=
  { noMoney with
    transactions := noMoney.transactions.insert tx
    payments := noMoney.payments.insert (purchase payment)
    fills := fills.foldl KeyedTables.Table.insert noMoney.fills
    chain := chain }

/-- Thread `i` performs its next `n` calls, all of them answered. -/
def steps (i n : ℕ) : Run := List.replicate n (.exec i {})

end Sample

end CryptoLink
