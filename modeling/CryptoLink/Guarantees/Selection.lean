import CryptoLink.Guarantees.Duplicates
import CryptoLink.Guarantees.Cycles
import CryptoLink.Guarantees.OtherCurrencies
import CryptoLink.Library.LeftmostMin
import CryptoLink.Registry

/-!
# Webhook and watcher

A webhook hands a transfer to the newest open invoice of its currency at the
collector. The watcher hands it to the invoice with the best score, unless the
transfer is bound already or too small; where no invoice of its currency waits it
may replace an invoice in another one.
-/

namespace CryptoLink

open ReadCommitted StatementPrograms KeyedTables RankedListings LeftmostMin Evm

/-- A transfer of a currency to a collector. On TRON an address is its own
rendering. -/
structure CollectorTransfer (A : Type) where
  currency : CryptoCurrency
  isTest : Bool
  block : Int
  timestamp : Int
  sender : A
  recipient : A
  amount : Int
  txHash : String

namespace CollectorTransfer

variable {A σ : Type} [DecidableEq A] (fmt : AddressFormat A) (t : CollectorTransfer A)

def networkID : String := t.currency.chooseNetwork t.isTest

def contractAddress : String := t.currency.chooseContractAddress t.isTest

def onTron : Bool := poller t.currency.blockchain = some .tron

/-- The event the node shows. -/
def log : LogEntry A :=
  match t.currency.type with
  | .coin => ⟨t.block, t.recipient, [t.sender], t.amount, t.txHash⟩
  | .token => ⟨t.block, fmt.hexToAddress t.contractAddress, [t.sender, t.recipient], t.amount,
      t.txHash⟩

/-- The transfer as TronGrid lists it. -/
def listed : AccountTransaction where
  txID := t.txHash
  sender := fmt.hex t.sender
  recipient := fmt.hex t.recipient
  amount := t.amount
  success := true
  timestamp := t.timestamp
  type := "TransferContract"
  tokenAddress := t.contractAddress
  tokenAmount := toString t.amount

/-- The listings of the transfer, and of nothing else. -/
def tronGrid : Tron.Client where
  accountTransactions _ := .ok [t.listed fmt]
  trc20Transactions _ := .ok [t.listed fmt]

/-- Whether the transfer goes to this address. -/
def reaches (address : String) : Bool :=
  if t.onTron then address = fmt.hex t.recipient else fmt.hexToAddress address = t.recipient

/-- Whether a token has the contract of the transfer. -/
def sameContract (x : CryptoCurrency) (isTest : Bool) : Bool :=
  if t.onTron then Tron.equalFold (x.chooseContractAddress isTest) t.contractAddress
  else fmt.hexToAddress (x.chooseContractAddress isTest) = fmt.hexToAddress t.contractAddress

/-- Whether an invoice takes a slot the transfer is matched against. -/
def waits (tx : Transaction) : Bool :=
  tx.recipientAddress ≠ "" && t.reaches fmt tx.recipientAddress &&
    decide (tx.currency.type = t.currency.type) &&
    match t.currency.type with
    | .coin => t.onTron || tx.recipientWalletID.isNone
    | .token => (t.onTron || tx.currency.tokenContractAddress ≠ "") &&
        t.sameContract fmt tx.currency tx.isTest

/-- Whether its amount alone keeps the transfer from being matched. -/
def skipped : Bool :=
  if t.onTron then t.amount ≤ 0 else t.amount = 0 && t.currency.type = .coin

/-- The detection of the transfer once it is matched. -/
def detection (info : PendingInfo) : DetectedTransfer :=
  invoiceDetection t.isTest info t.txHash (fmt.hex t.sender) (fmt.hex t.recipient) t.amount

/-- The contract a scan of the events names. -/
def scannedContract : String :=
  match t.currency.type with
  | .coin => ""
  | .token => fmt.hex (fmt.hexToAddress t.contractAddress)

/-- The detection of the transfer where no invoice of its currency waits. -/
def unmatched : DetectedTransfer where
  txHash := t.txHash
  senderAddress := fmt.hex t.sender
  recipientAddress := fmt.hex t.recipient
  target := .unmatched t.currency.blockchain t.isTest (decide (t.currency.type = .coin))
    (t.scannedContract fmt) (toString t.amount)

def unmatchedPayment : UnmatchedCollectorPayment where
  collectorAddress := fmt.hex t.recipient
  blockchain := t.currency.blockchain
  isTest := t.isTest
  isNative := decide (t.currency.type = .coin)
  tokenContract := t.scannedContract fmt
  rawAmount := toString t.amount
  txHash := t.txHash
  senderAddress := fmt.hex t.sender

/-- Whether the transfer is looked at although no invoice of its currency waits:
some invoice has its collector at the recipient, and a token is listed. -/
def broadened (chainTokens : List CryptoCurrency) (txs : List Transaction) : Bool :=
  !t.onTron && txs.any (collectsAt fmt t.recipient) &&
    match t.currency.type with
    | .coin => true
    | .token => chainTokens.any (isTokenAt fmt t.isTest (fmt.hexToAddress t.contractAddress))

/-- The slots the event is matched against. -/
def slots (w : Watched A) : Slots A :=
  match t.currency.type with
  | .coin => w.nativeAddressesContract
  | .token => (w.tokenAddresses.lookup (fmt.hexToAddress t.contractAddress)).getD []

/-- The scan of the event by `pollEVMTransactions`. -/
def scanLog (c : Scanned A σ) (w : Watched A) (state : σ) : LogScan A σ :=
  match t.currency.type with
  | .coin => c.nativeLog ⟨w.nativeAddressesContract, 0, [], state⟩ (t.log c.fmt)
  | .token => c.tokenLog (c.fmt.hexToAddress t.contractAddress)
      ⟨(w.tokenAddresses.lookup (c.fmt.hexToAddress t.contractAddress)).getD [], 0, [], state⟩
      (t.log c.fmt)

def groupKey : String × Bool := (fmt.hex t.recipient, decide (t.currency.type = .coin))

/-- The poll of the recipient by `pollTRONTransactions`. -/
def pollRecipient (onDetected : OnDetected σ) (groups : Tron.Groups) (state : σ) : Scan σ :=
  Tron.pollGroup t.isTest (t.tronGrid fmt) onDetected (.start [] state)
    (t.groupKey fmt, (groups.lookup (t.groupKey fmt)).getD [])

end CollectorTransfer

namespace Service

variable {A : Type} [DecidableEq A] (s : Service)

/-- The invoices a selection hands a transfer to. -/
def handedTo (selected : Except Err (Option (Transaction × Input))) : List Int :=
  match selected with
  | .ok (some (tx, _)) => [tx.id]
  | _ => []

/-- What `processCollectorWebhook` hands to `ProcessInboundTransaction`. -/
def handedByWebhook (c : CollectorRow) (networkID : String) (wh : IncomingWebhook)
    (envs : ℕ → Env) (w : World) : List Int :=
  handedTo (outcome (s.webhookSelection .collector c.blockchain (effectiveNetworkID c networkID)
    c.contractAddress wh) envs w)

/-- The deduplicating callback, which notes what it hands on. -/
def notingSelection (envs : ℕ → Env) (w : World) : OnDetected (List Int) := fun d seen =>
  ((outcome (s.detectedSelection d) envs w).isOk,
    seen ++ handedTo (outcome (s.detectedSelection d) envs w))

/-- The rows a cycle reads on the transfer's chain. -/
def cycleTransactions (t : CollectorTransfer A) (w : World) : List Transaction :=
  chainTransactions t.currency.blockchain t.isTest ((s.pendingTransactions w).toOption.getD [])

/-- What a cycle that comes across the transfer hands to
`ProcessInboundTransaction`. -/
def handedByWatcher (fmt : AddressFormat A) (chainTokens : List CryptoCurrency)
    (t : CollectorTransfer A) (envs : ℕ → Env) (w : World) : List Int :=
  if t.onTron then
    (t.pollRecipient fmt (s.notingSelection envs w)
      ((s.cycleTransactions t w).foldl (Tron.group (confirmedFillSums w)) []) []).state
  else
    (t.scanLog ⟨fmt, t.currency.blockchain, t.isTest, s.notingSelection envs w⟩
      (watch fmt t.isTest (confirmedFillSums w) chainTokens (s.cycleTransactions t w)) []).state

/-- The open invoices a webhook looks among, newest first; none if its network
has no such currency. -/
def webhookInvoices (c : CollectorRow) (networkID : String) (wh : IncomingWebhook)
    (t : CollectorTransfer A) (w : World) : List TransactionRow :=
  let networkID := effectiveNetworkID c networkID
  if (s.resolveCurrencyFromWebhook c.blockchain networkID wh).isOk then
    ranked TransactionRow.id (w.transactions.rows.filter fun row =>
      Books.isOpen row && row.recipientAddress = c.contractAddress &&
        row.currency = t.currency.ticker && row.networkID = some networkID)
  else []

/-- The open invoices the watcher looks among, newest first: those of the two
hundred newest rows it reads that wait for the transfer. -/
def watcherInvoices (fmt : AddressFormat A) (t : CollectorTransfer A) (w : World) :
    List PendingInfo :=
  ((s.cycleTransactions t w).filter (t.waits fmt)).map (pendingInfo (confirmedFillSums w))

/-- The transfer goes to the newest invoice: it is new, it is not dust, and no
other invoice fits better. -/
structure SuitsNewest (fmt : AddressFormat A) (t : CollectorTransfer A) (w : World)
    (newest : PendingInfo) (others : List PendingInfo) : Prop where
  seen : t.skipped = false
  unbound : s.alreadyBound w (t.detection fmt newest) = false
  substantial : isDust t.amount newest.effectiveExpected = false
  best : ∀ p ∈ others, ∀ v, matchScore t.amount p = some v →
    toBeat (matchScore t.amount) newest (2 ^ 62 - 1) ≤ v

/-- No invoice takes the transfer: nothing waits for it, its amount is no
payment, or it is bound already or dust to the invoice it fits best. -/
def Refuses (fmt : AddressFormat A) (t : CollectorTransfer A) (w : World)
    (invoices : List PendingInfo) : Prop :=
  t.skipped = true ∨ ∀ p, Chosen t.amount invoices p →
    isDust t.amount p.effectiveExpected = true ∨ s.alreadyBound w (t.detection fmt p) = true

/-- No invoice of its currency waits for the transfer, and it is new and pays an
open invoice in another currency. -/
def PaysElsewhere (fmt : AddressFormat A) (chainTokens : List CryptoCurrency)
    (t : CollectorTransfer A) (envs : ℕ → Env) (w : World) : Prop :=
  s.watcherInvoices fmt t w = [] ∧ t.amount ≠ 0 ∧
    t.broadened fmt chainTokens (s.cycleTransactions t w) = true ∧
      s.alreadyBound w (t.unmatched fmt) = false ∧
        s.PaysInvoice (t.unmatchedPayment fmt) envs w

/-- Either the webhook finds no open invoice and the transfer is refused, or it
looks on the right network and the newest invoice, which the cycle reads, is the
best one. -/
def NewestOrNone (fmt : AddressFormat A) (c : CollectorRow) (networkID : String)
    (wh : IncomingWebhook) (t : CollectorTransfer A) (w : World) : Prop :=
  s.webhookInvoices c networkID wh t w = [] ∧ s.Refuses fmt t w (s.watcherInvoices fmt t w) ∨
    effectiveNetworkID c networkID = t.networkID ∧
      ∃ newest others, s.watcherInvoices fmt t w = newest :: others ∧
        s.SuitsNewest fmt t w newest others

/-- The currency of the transfer is in the registry, on a chain collectors are
watched on, under networks of its own and as the only one of its kind at its
contract. -/
structure Registered (fmt : AddressFormat A) (t : CollectorTransfer A) : Prop where
  chain : poller t.currency.blockchain = some .evm ∨ poller t.currency.blockchain = some .tron
  listed : t.currency ∈ s.currencies.list
  named : t.currency.ticker ≠ "" ∧ t.currency.networkID ≠ "" ∧ t.currency.testNetworkID ≠ ""
  networks : t.currency.networkID ≠ t.currency.testNetworkID
  contract : t.currency.type = .token → t.currency.tokenContractAddress ≠ ""
  alone : ∀ x ∈ s.currencies.list, x.blockchain = t.currency.blockchain →
    x.type = t.currency.type → (x.type = .token → t.sameContract fmt x t.isTest = true) →
      x = t.currency

/-- The open invoices are as `createTransactionWithCollectorAddress` leaves
them: each resolves to its currency, and those at the collector carry its
address, no wallet, and the network of their currency. -/
structure AsCreated (fmt : AddressFormat A) (c : CollectorRow) (t : CollectorTransfer A)
    (w : World) : Prop where
  address : c.contractAddress ≠ "" ∧ t.reaches fmt c.contractAddress = true
  resolved : ∀ row ∈ w.transactions.rows, Books.isOpen row = true →
    ∃ tx, s.entryToTransaction row = .ok tx
  columns : ∀ row ∈ w.transactions.rows, Books.isOpen row = true →
    row.recipientAddress ≠ "" → t.reaches fmt row.recipientAddress = true →
      ∀ tx, s.entryToTransaction row = .ok tx → row.recipientAddress = c.contractAddress ∧
        row.recipientWalletID = none ∧ row.currency = tx.currency.ticker ∧
          row.networkID = some (tx.currency.chooseNetwork row.isTest)

/-- The webhook reports this transfer: its hash, its amount, and its currency
as far as the network has it. -/
structure Reports (c : CollectorRow) (networkID : String) (wh : IncomingWebhook)
    (t : CollectorTransfer A) : Prop where
  hash : wh.transactionID = t.txHash
  currency : ∀ x, s.resolveCurrencyFromWebhook c.blockchain (effectiveNetworkID c networkID) wh =
    .ok x → x = t.currency
  known : effectiveNetworkID c networkID = t.networkID →
    s.resolveCurrencyFromWebhook c.blockchain t.networkID wh = .ok t.currency
  amount : Money.cryptoFromStringFloat t.currency.ticker wh.amount t.currency.decimals =
    .ok (Money.crypto t.currency.ticker t.amount t.currency.decimals)

section

variable {s} {fmt : AddressFormat A} {c : CollectorRow} {t : CollectorTransfer A} {w : World}
  {envs : ℕ → Env}

omit [DecidableEq A] in
theorem outcome_detectedSelection (hdone : ∀ n, (envs n).fate = .done) (info : PendingInfo) :
    handedTo (outcome (s.detectedSelection (t.detection fmt info)) envs w) =
      if s.alreadyBound w (t.detection fmt info) then [] else [info.tx.id] := by
  generalize hd : t.detection fmt info = d
  have htarget : ∃ amount currency networkID,
    d.target = .invoice info.tx amount currency networkID :=
    ⟨_, _, _, by rw [← hd]; rfl⟩
  obtain ⟨amount, currency, networkID, htarget⟩ := htarget
  have hfirst := alone_getByHashAndRecipient (s := s) hdone d.networkID d.txHash d.recipient 0 w
    (.idle : Session Stmt Env World LockKey)
  have hsecond := alone_fillExistsByHashAndRecipient hdone d.networkID d.txHash d.recipient 1 w
    (.idle : Session Stmt Env World LockKey)
  rw [alreadyBound_eq]
  unfold outcome detectedSelection
  simp only [Prog.bind_eq, Engine.alone_bind, Engine.alone_attempt, hfirst]
  cases s.toTransaction (noRows (w.getTransactionByHashNetworkAndRecipient
      (stringToNullable d.txHash) (stringToNullable d.networkID) d.recipient)) with
  | ok tx => rfl
  | error e =>
    simp only [Engine.alone_bind, Engine.alone_attempt, hsecond]
    cases w.fillExistsByHashAndRecipient d.networkID d.txHash d.recipient with
    | true => rfl
    | false =>
      simp only [htarget]
      rfl

omit [DecidableEq A] in
/-- A transfer no invoice of its currency waits for. -/
theorem outcome_detectedSelection_unmatched (hdone : ∀ n, (envs n).fate = .done) :
    handedTo (outcome (s.detectedSelection (t.unmatched fmt)) envs w) =
      if s.alreadyBound w (t.unmatched fmt) then []
      else handedTo (engine.alone envs (s.unmatchedSelection (t.unmatchedPayment fmt)) 2
        ⟨w, .idle⟩).1 := by
  generalize hd : t.unmatched fmt = d
  have hfirst := alone_getByHashAndRecipient (s := s) hdone d.networkID d.txHash d.recipient 0 w
    (.idle : Session Stmt Env World LockKey)
  have hsecond := alone_fillExistsByHashAndRecipient hdone d.networkID d.txHash d.recipient 1 w
    (.idle : Session Stmt Env World LockKey)
  rw [alreadyBound_eq]
  unfold outcome detectedSelection
  simp only [Prog.bind_eq, Engine.alone_bind, Engine.alone_attempt, hfirst]
  cases s.toTransaction (noRows (w.getTransactionByHashNetworkAndRecipient
      (stringToNullable d.txHash) (stringToNullable d.networkID) d.recipient)) with
  | ok tx => rfl
  | error e =>
    simp only [Engine.alone_bind, Engine.alone_attempt, hsecond]
    cases w.fillExistsByHashAndRecipient d.networkID d.txHash d.recipient with
    | true => rfl
    | false =>
      subst hd
      rfl

/-- The invoice the watcher picks for a transfer, if any. -/
def picked (s : Service) (fmt : AddressFormat A) (t : CollectorTransfer A) (w : World)
    (pending : List PendingInfo) : List Int :=
  if t.skipped then []
  else match bestMatchByAmount pending t.amount with
    | some (_, info, true) => if s.alreadyBound w (t.detection fmt info) then [] else [info.tx.id]
    | _ => []

omit [DecidableEq A] in
theorem picked_nil : picked s fmt t w [] = [] := by
  unfold picked
  split
  · rfl
  · rfl

/-- The event of the transfer in the slots of its currency. -/
def scanned (s : Service) (fmt : AddressFormat A) (t : CollectorTransfer A) (envs : ℕ → Env)
    (w : World) (slots : Slots A) : List Int :=
  (Scanned.logTransfer ⟨fmt, t.currency.blockchain, t.isTest, s.notingSelection envs w⟩
    (decide (t.currency.type = .coin)) (t.scannedContract fmt) t.sender t.recipient (t.log fmt)
    ⟨slots, 0, [], []⟩).state

omit [DecidableEq A] in
theorem log_eq (fmt : AddressFormat A) (t : CollectorTransfer A) :
    (t.log fmt).data = t.amount ∧ (t.log fmt).txHash = t.txHash := by
  unfold CollectorTransfer.log
  cases t.currency.type with
  | coin => exact ⟨rfl, rfl⟩
  | token => exact ⟨rfl, rfl⟩

/-- Where invoices wait, the best one is picked. -/
theorem scanned_waiting (hdone : ∀ n, (envs n).fate = .done) (htron : t.onTron = false)
    {slots : Slots A} {pending : List PendingInfo} (hslot : slots.lookup t.recipient = some pending)
    (hpending : pending ≠ []) : scanned s fmt t envs w slots = picked s fmt t w pending := by
  obtain ⟨hdata, hhash⟩ := log_eq fmt t
  have hempty : pending.isEmpty = false := by simpa using hpending
  have hskip : (decide (t.amount = 0) && (decide (t.currency.type = .coin) || pending.isEmpty)) =
      t.skipped := by
    simp [CollectorTransfer.skipped, htron, hempty]
  unfold scanned Scanned.logTransfer picked
  simp only [hslot, hdata]
  rw [hskip]
  simp only [hempty]
  split
  · rfl
  · -- the best invoice, and whether the transfer is no dust for it
    cases hbest : bestMatchByAmount pending t.amount with
    | none => rfl
    | some best =>
      obtain ⟨bestIdx, info, fits⟩ := best
      cases fits with
      | false => rfl
      | true =>
        show ((LogScan.slotScan _ pending).handOn (s.notingSelection envs w) bestIdx info
          _).state = _
        rw [Scan.state_handOn, hhash]
        exact outcome_detectedSelection hdone info

/-- Where none waits, the transfer goes to the other currencies. -/
theorem scanned_empty {slots : Slots A} (hslot : slots.lookup t.recipient = some []) :
    scanned s fmt t envs w slots = if t.amount = 0 then []
      else handedTo (outcome (s.detectedSelection (t.unmatched fmt)) envs w) := by
  obtain ⟨hdata, hhash⟩ := log_eq fmt t
  unfold scanned Scanned.logTransfer
  simp only [hslot, hdata, List.isEmpty_nil, Bool.or_true, Bool.and_true, decide_eq_true_eq]
  split
  · rfl
  · rw [hhash]
    rfl

theorem scanned_none {slots : Slots A} (hslot : slots.lookup t.recipient = none) :
    scanned s fmt t envs w slots = [] := by
  unfold scanned Scanned.logTransfer
  simp only [hslot]

/-- The slots of the coin of a chain, or of a token on it. -/
theorem waits_evm (htron : t.onTron = false) :
    t.waits fmt = match t.currency.type with
      | .coin => waitsNative fmt t.recipient
      | .token => waitsToken fmt (fmt.hexToAddress t.contractAddress) t.recipient := by
  funext tx
  unfold CollectorTransfer.waits CollectorTransfer.reaches CollectorTransfer.sameContract
  cases htype : t.currency.type with
  | coin => simp [waitsNative, htron]
  | token => simp [waitsToken, htron, Bool.and_assoc]

/-- The scan of the event looks in the slots of the currency. -/
theorem handedByWatcher_evm (htron : t.onTron = false) (chainTokens : List CryptoCurrency) :
    s.handedByWatcher fmt chainTokens t envs w = scanned s fmt t envs w (t.slots fmt
      (watch fmt t.isTest (confirmedFillSums w) chainTokens (s.cycleTransactions t w))) := by
  unfold handedByWatcher scanned CollectorTransfer.scanLog CollectorTransfer.slots
    CollectorTransfer.scannedContract
  rw [htron]
  simp only [Bool.false_eq_true, if_false]
  cases htype : t.currency.type with
  | coin =>
    simp only [Scanned.nativeLog, CollectorTransfer.log, htype]
    rfl
  | token =>
    simp only [Scanned.tokenLog, CollectorTransfer.log, htype]
    rfl

variable (s fmt w) in
/-- The invoices in the slot of the recipient, and whether there is a slot. -/
theorem slots_watch (htron : t.onTron = false) (chainTokens : List CryptoCurrency) :
    ((t.slots fmt (watch fmt t.isTest (confirmedFillSums w) chainTokens
        (s.cycleTransactions t w))).lookup t.recipient).getD [] = s.watcherInvoices fmt t w ∧
      (s.watcherInvoices fmt t w = [] →
        ((t.slots fmt (watch fmt t.isTest (confirmedFillSums w) chainTokens
          (s.cycleTransactions t w))).lookup t.recipient).isSome =
            t.broadened fmt chainTokens (s.cycleTransactions t w)) := by
  unfold watcherInvoices CollectorTransfer.slots CollectorTransfer.broadened
  rw [waits_evm htron, htron]
  cases htype : t.currency.type with
  | coin =>
    refine ⟨nativeSlots_watch fmt (confirmedFillSums w) t.isTest chainTokens
      (s.cycleTransactions t w) t.recipient, fun _ => ?_⟩
    have hopens := opensNative_watch fmt (confirmedFillSums w) t.isTest chainTokens
      (s.cycleTransactions t w) t.recipient
    simpa [opensNative] using hopens
  | token =>
    refine ⟨tokenSlots_watch fmt (confirmedFillSums w) t.isTest chainTokens
      (s.cycleTransactions t w) (fmt.hexToAddress t.contractAddress) t.recipient, fun hnone => ?_⟩
    have hopens := opensToken_watch fmt (confirmedFillSums w) t.isTest chainTokens
      (s.cycleTransactions t w) (fmt.hexToAddress t.contractAddress) t.recipient
    have hwaits : (s.cycleTransactions t w).any
        (waitsToken fmt (fmt.hexToAddress t.contractAddress) t.recipient) = false := by
      rw [List.map_eq_nil_iff, List.filter_eq_nil_iff] at hnone
      simpa using hnone
    rw [hwaits, Bool.false_or] at hopens
    simpa [opensToken] using hopens

omit [DecidableEq A] in
/-- What a listing of the transfer binds, given how the poll matches it. -/
theorem state_listed (hdone : ∀ n, (envs n).fate = .done) (htron : t.onTron = true)
    {found : List PendingInfo → AccountTransaction → Option (ℕ × PendingInfo × Int)}
    (hnone : found [] (t.listed fmt) = none) {slots pending : List PendingInfo}
    (hfound : (found slots (t.listed fmt)).map Prod.snd =
      if t.amount ≤ 0 then none
      else match bestMatchByAmount pending t.amount with
        | some (_, info, true) => some (info, t.amount)
        | _ => none) :
    (Tron.pollTransfers t.isTest (fmt.hex t.recipient) found (s.notingSelection envs w)
      [t.listed fmt] ⟨slots, 0, [], []⟩).state = picked s fmt t w pending := by
  rw [Tron.state_pollTransfers_single hnone]
  simp only [hfound]
  unfold picked CollectorTransfer.skipped
  rw [htron]
  simp only [if_true, decide_eq_true_eq]
  by_cases hamount : t.amount ≤ 0
  · simp only [if_pos hamount]
  · simp only [if_neg hamount]
    cases hbest : bestMatchByAmount pending t.amount with
    | none => rfl
    | some best =>
      obtain ⟨bestIdx, info, fits⟩ := best
      cases fits with
      | false => rfl
      | true => exact outcome_detectedSelection hdone info

/-- The invoices of the transfer's own chain in its group. -/
theorem waits_tron (htron : t.onTron = true) {tx : Transaction} (htest : tx.isTest = t.isTest) :
    t.waits fmt tx = (Tron.waits (fmt.hex t.recipient) (decide (t.currency.type = .coin)) tx &&
      match t.currency.type with
      | .coin => true
      | .token => Tron.equalFold (tx.currency.chooseContractAddress t.isTest)
          t.contractAddress) := by
  unfold CollectorTransfer.waits CollectorTransfer.reaches CollectorTransfer.sameContract Tron.waits
  cases htype : t.currency.type with
  | coin => simp [htron]
  | token =>
    have hkind : decide (tx.currency.type = .token) = !decide (tx.currency.type = .coin) := by
      cases tx.currency.type with
      | coin => rfl
      | token => rfl
    simp [htron, htest, hkind]

theorem handedByWatcher_tron (hdone : ∀ n, (envs n).fate = .done) (htron : t.onTron = true)
    (chainTokens : List CryptoCurrency) :
    s.handedByWatcher fmt chainTokens t envs w =
      picked s fmt t w (s.watcherInvoices fmt t w) := by
  have htests : ∀ tx ∈ s.cycleTransactions t w, tx.isTest = t.isTest := by
    intro tx htx
    have hkept := (List.mem_filter.mp htx).2
    simp only [Bool.and_eq_true, decide_eq_true_eq] at hkept
    exact hkept.2
  have hgroup := Tron.lookup_grouped (confirmedFillSums w) (s.cycleTransactions t w) []
    (fmt.hex t.recipient) (decide (t.currency.type = .coin))
  rw [List.lookup_nil, Option.getD_none, List.nil_append] at hgroup
  have hinvoices : s.watcherInvoices fmt t w = (((s.cycleTransactions t w).filter
      (Tron.waits (fmt.hex t.recipient) (decide (t.currency.type = .coin)))).map
        (pendingInfo (confirmedFillSums w))).filter fun p =>
          match t.currency.type with
          | .coin => true
          | .token => Tron.equalFold (p.tx.currency.chooseContractAddress t.isTest)
              t.contractAddress := by
    unfold watcherInvoices
    rw [List.filter_map, List.filter_filter]
    congr 1
    refine List.filter_congr fun tx htx => ?_
    rw [waits_tron htron (htests tx htx), Bool.and_comm]
    rfl
  unfold handedByWatcher CollectorTransfer.pollRecipient CollectorTransfer.groupKey
  rw [htron, if_pos rfl, hgroup, hinvoices]
  generalize ((s.cycleTransactions t w).filter
    (Tron.waits (fmt.hex t.recipient) (decide (t.currency.type = .coin)))).map
      (pendingInfo (confirmedFillSums w)) = slots
  cases htype : t.currency.type with
  | coin =>
    refine state_listed hdone htron ?_ ?_
    · unfold Tron.nativeMatch
      split
      · rfl
      · rfl
    · rw [List.filter_true]
      unfold Tron.nativeMatch CollectorTransfer.listed
      simp only [Bool.not_true, Bool.false_or, ne_eq, not_true_eq_false, decide_false,
        decide_eq_true_eq, if_false]
      split
      · rfl
      · cases bestMatchByAmount slots t.amount with
        | none => rfl
        | some best =>
          obtain ⟨bestIdx, info, fits⟩ := best
          cases fits with
          | false => rfl
          | true => rfl
  | token =>
    refine state_listed hdone htron ?_ ?_
    · unfold Tron.tokenMatch
      split
      · rfl
      · rfl
    · exact Tron.tokenMatch_eq rfl (Money.setString_toString t.amount)

/-- What the scan of the event hands on: the invoice picked, or a new transaction
in place of an invoice in another currency. -/
theorem handedByWatcher_evm_cases (hdone : ∀ n, (envs n).fate = .done) (htron : t.onTron = false)
    (chainTokens : List CryptoCurrency) :
    (¬ s.PaysElsewhere fmt chainTokens t envs w ∧ s.handedByWatcher fmt chainTokens t envs w =
        picked s fmt t w (s.watcherInvoices fmt t w)) ∨
      (s.PaysElsewhere fmt chainTokens t envs w ∧ ∃ id,
        s.handedByWatcher fmt chainTokens t envs w = [id] ∧ w.transactions.get id = none) := by
  rw [handedByWatcher_evm htron]
  obtain ⟨hpending, hopen⟩ := slots_watch s fmt w htron chainTokens
  generalize t.slots fmt (watch fmt t.isTest (confirmedFillSums w) chainTokens
    (s.cycleTransactions t w)) = slots at hpending hopen ⊢
  by_cases hnone : s.watcherInvoices fmt t w = []
  · rw [hnone, picked_nil]
    rw [hnone] at hpending
    specialize hopen hnone
    cases hslot : slots.lookup t.recipient with
    | none =>
      refine .inl ⟨?_, scanned_none hslot⟩
      rintro ⟨-, -, hbroadened, -⟩
      rw [hslot, hbroadened] at hopen
      cases hopen
    | some pending =>
      rw [hslot] at hpending hopen
      obtain rfl : pending = [] := hpending
      rw [scanned_empty hslot]
      by_cases hamount : t.amount = 0
      · exact .inl ⟨fun h => h.2.1 hamount, if_pos hamount⟩
      · rw [if_neg hamount, outcome_detectedSelection_unmatched hdone]
        by_cases hbound : s.alreadyBound w (t.unmatched fmt) = true
        · refine .inl ⟨?_, if_pos hbound⟩
          rintro ⟨-, -, -, hunbound, -⟩
          rw [hbound] at hunbound
          cases hunbound
        · rw [if_neg hbound]
          have hpays := unmatchedSelection_iff (s := s) (w := w) hdone (t.unmatchedPayment fmt)
          by_cases helsewhere : s.PaysInvoice (t.unmatchedPayment fmt) envs w
          · obtain ⟨⟨newTx, input⟩, hselected⟩ := hpays.mpr helsewhere
            refine .inr ⟨⟨hnone, hamount, hopen.symm, by simpa using hbound, helsewhere⟩,
              newTx.id, ?_, unmatchedSelection_fresh hdone hselected⟩
            rw [hselected]
            rfl
          · refine .inl ⟨fun h => helsewhere h.2.2.2.2, ?_⟩
            generalize hselected : (engine.alone envs (s.unmatchedSelection _) 2 _).1 = selected
            rcases selected with e | _ | relocked
            · rfl
            · rfl
            · exact absurd (hpays.mp ⟨relocked, hselected⟩) helsewhere
  · refine .inl ⟨fun h => hnone h.1, ?_⟩
    cases hslot : slots.lookup t.recipient with
    | none =>
      rw [hslot] at hpending
      exact absurd hpending.symm hnone
    | some pending =>
      rw [hslot] at hpending
      obtain rfl : pending = s.watcherInvoices fmt t w := hpending
      exact scanned_waiting hdone htron hslot hnone

variable (s fmt t w) in
theorem handedByWatcher_cases (hdone : ∀ n, (envs n).fate = .done)
    (chainTokens : List CryptoCurrency) :
    (¬ s.PaysElsewhere fmt chainTokens t envs w ∧ s.handedByWatcher fmt chainTokens t envs w =
        picked s fmt t w (s.watcherInvoices fmt t w)) ∨
      (s.PaysElsewhere fmt chainTokens t envs w ∧ ∃ id,
        s.handedByWatcher fmt chainTokens t envs w = [id] ∧ w.transactions.get id = none) := by
  by_cases htron : t.onTron = true
  · refine .inl ⟨?_, handedByWatcher_tron hdone htron chainTokens⟩
    rintro ⟨-, -, hbroadened, -⟩
    simp [CollectorTransfer.broadened, htron] at hbroadened
  · exact handedByWatcher_evm_cases hdone (by simpa using htron) chainTokens

omit [DecidableEq A] in
/-- The watcher picks one of its invoices. -/
theorem mem_of_mem_picked {pending : List PendingInfo} {id : Int}
    (h : id ∈ picked s fmt t w pending) : id ∈ pending.map fun info => info.tx.id := by
  unfold picked at h
  split at h
  · cases h
  · split at h
    · rename_i i info hbest
      split at h
      · cases h
      · obtain rfl := List.mem_singleton.mp h
        exact List.mem_map_of_mem (bestMatchByAmount_mem hbest)
    · cases h

omit [DecidableEq A] in
theorem picked_eq_nil_iff {pending : List PendingInfo} :
    picked s fmt t w pending = [] ↔ s.Refuses fmt t w pending := by
  unfold picked Refuses
  by_cases hskipped : t.skipped = true
  · simp [hskipped]
  · simp only [hskipped, Bool.false_eq_true, if_false, false_or]
    constructor
    · intro hnil p hchosen
      obtain ⟨i, hbest⟩ := hchosen.bestMatchByAmount
      rw [hbest] at hnil
      by_cases hdust : isDust t.amount p.effectiveExpected = true
      · exact .inl hdust
      · right
        simp only [hdust, Bool.not_false] at hnil
        by_contra hbound
        simp [hbound] at hnil
    · intro hrefused
      split
      · rename_i i info hbest
        have hchosen := chosen_of_bestMatchByAmount hbest
        obtain ⟨-, -, hfits⟩ := bestMatchByAmount_eq_some hbest
        rcases hrefused info hchosen with hdust | hbound
        · simp [hdust] at hfits
        · simp [hbound]
      · rfl

/-- The columns a webhook on the transfer's network compares. -/
def reported (c : CollectorRow) (t : CollectorTransfer A) (row : TransactionRow) : Bool :=
  row.recipientAddress = c.contractAddress && row.currency = t.currency.ticker &&
    row.networkID = some t.networkID

/-- What the watcher looks at in the transaction of a row. -/
def watched (fmt : AddressFormat A) (t : CollectorTransfer A) (tx : Transaction) : Bool :=
  (tx.currency.blockchain = t.currency.blockchain && tx.isTest = t.isTest) && t.waits fmt tx

theorem currency_of_ticker {x y : CryptoCurrency} (hx : x ∈ s.currencies.list)
    (hy : y ∈ s.currencies.list) (h : x.ticker = y.ticker) : x = y :=
  List.inj_on_of_nodup_map s.currencies.tickers hx hy h

theorem mem_of_getCurrencyByTicker {ticker : String} {x : CryptoCurrency}
    (h : s.currencies.getCurrencyByTicker ticker = .ok x) : x ∈ s.currencies.list := by
  unfold Currencies.getCurrencyByTicker at h
  split at h
  · rename_i c hc
    obtain rfl := Except.ok.inj h
    exact List.mem_of_find?_eq_some hc
  · cases h

/-- A currency is found under one of its networks only. -/
theorem network_ne_empty_of_resolved {bc : Blockchain} {networkID : String} {wh : IncomingWebhook}
    {x : CryptoCurrency} (h : s.resolveCurrencyFromWebhook bc networkID wh = .ok x)
    (hx : x.networkID ≠ "" ∧ x.testNetworkID ≠ "") : networkID ≠ "" := by
  rintro rfl
  unfold resolveCurrencyFromWebhook at h
  have hcheck : ∀ (found : Except Err CryptoCurrency) (e : CryptoCurrency → Err),
      (found.bind fun currency =>
        if currency.networkID ≠ "" ∧ currency.testNetworkID ≠ "" then .error (e currency)
        else .ok currency) ≠ .ok x := by
    intro found e h
    cases found with
    | error e => cases h
    | ok currency =>
      simp only [Except.bind] at h
      split at h
      · cases h
      · rename_i hknown
        obtain rfl := Except.ok.inj h
        exact hknown hx
  split at h
  · exact hcheck _ _ h
  · exact hcheck _ _ h

/-- A currency has one network for tests and another one. -/
theorem isTest_of_network (ht : s.Registered fmt t) {isTest : Bool}
    (h : t.currency.chooseNetwork isTest = t.networkID) : isTest = t.isTest := by
  have hne := ht.networks
  unfold CollectorTransfer.networkID CryptoCurrency.chooseNetwork at h
  cases isTest with
  | false =>
    cases htest : t.isTest with
    | false => rfl
    | true =>
      rw [htest] at h
      exact absurd h hne
  | true =>
    cases htest : t.isTest with
    | true => rfl
    | false =>
      rw [htest] at h
      exact absurd h.symm hne

/-- Both paths look at the same rows. -/
theorem reported_eq_watched (ht : s.Registered fmt t) (hb : s.AsCreated fmt c t w)
    {row : TransactionRow} (hrow : row ∈ w.transactions.rows) (hopen : Books.isOpen row = true)
    {tx : Transaction} (htx : s.entryToTransaction row = .ok tx) :
    reported c t row = watched fmt t tx := by
  obtain ⟨currency, fee, hcurrency, -, rfl⟩ := s.entryToTransaction_eq_ok htx
  have hlisted := mem_of_getCurrencyByTicker hcurrency
  rw [Bool.eq_iff_iff]
  simp only [reported, watched, CollectorTransfer.waits, Bool.and_eq_true, decide_eq_true_eq]
  simp only [transactionOf]
  constructor
  · rintro ⟨⟨haddress, hticker⟩, hnetwork⟩
    have hne : row.recipientAddress ≠ "" := by
      rw [haddress]
      exact hb.address.1
    have hat : t.reaches fmt row.recipientAddress = true := by
      rw [haddress]
      exact hb.address.2
    obtain ⟨-, hwallet, hspelled, hnetwork'⟩ := hb.columns row hrow hopen hne hat _ htx
    obtain rfl : currency = t.currency :=
      currency_of_ticker hlisted ht.listed (hspelled.symm.trans hticker)
    have htest : row.isTest = t.isTest :=
      isTest_of_network ht (Option.some.inj (hnetwork'.symm.trans hnetwork))
    refine ⟨⟨rfl, htest⟩, ⟨⟨hne, hat⟩, rfl⟩, ?_⟩
    cases htype : t.currency.type with
    | coin => simp [hwallet]
    | token =>
      have hsame : t.sameContract fmt t.currency row.isTest = true := by
        rw [htest]
        unfold CollectorTransfer.sameContract CollectorTransfer.contractAddress
        split
        · simp [Tron.equalFold]
        · simp
      simp [ht.contract htype, hsame]
  · rintro ⟨⟨hchain, htest⟩, ⟨⟨hne, hat⟩, htype⟩, hkind⟩
    obtain ⟨haddress, -, hspelled, hnetwork⟩ := hb.columns row hrow hopen hne hat _ htx
    obtain rfl : currency = t.currency := by
      refine ht.alone currency hlisted hchain htype fun htoken => ?_
      rw [← htype, htoken] at hkind
      simp only [Bool.and_eq_true] at hkind
      rw [← htest]
      exact hkind.2
    refine ⟨⟨haddress, hspelled⟩, ?_⟩
    rw [hnetwork]
    show some (t.currency.chooseNetwork row.isTest) = _
    rw [htest]
    rfl

/-- What is selected of rows and of their transactions alike has the same ids. -/
theorem ids_filter_of_forall₂ {p : TransactionRow → Bool} {q : Transaction → Bool}
    {rows : List TransactionRow} {txs : List Transaction}
    (h : List.Forall₂ (fun row tx => s.entryToTransaction row = .ok tx) rows txs)
    (hpq : ∀ row ∈ rows, ∀ tx, s.entryToTransaction row = .ok tx → p row = q tx) :
    (txs.filter q).map Transaction.id = (rows.filter p).map TransactionRow.id := by
  induction h with
  | nil => rfl
  | @cons row tx rows txs hrow _ ih =>
    have hrest := ih fun r hr => hpq r (List.mem_cons_of_mem _ hr)
    have hhead := hpq row List.mem_cons_self tx hrow
    by_cases hp : p row = true
    · rw [List.filter_cons_of_pos (hhead ▸ hp), List.filter_cons_of_pos hp, List.map_cons,
        List.map_cons, hrest, entryToTransaction_id hrow]
    · rw [List.filter_cons_of_neg (hhead ▸ hp), List.filter_cons_of_neg hp, hrest]

/-- The watcher's invoices are the first of the webhook's: those among the two
hundred newest rows. -/
theorem ids_watcherInvoices (ht : s.Registered fmt t) (hb : s.AsCreated fmt c t w) :
    (s.watcherInvoices fmt t w).map (fun info => info.tx.id) =
      ((cycleRows w).filter (reported c t)).map TransactionRow.id := by
  have hmem : ∀ row ∈ cycleRows w, row ∈ w.transactions.rows ∧ Books.isOpen row = true :=
    fun row hrow => mem_cycleRows hrow
  obtain ⟨txs, htxs⟩ := mapM_of_forall fun row hrow =>
    hb.resolved row (hmem row hrow).1 (hmem row hrow).2
  have hcycle : s.cycleTransactions t w =
      txs.filter fun tx => tx.currency.blockchain = t.currency.blockchain &&
        tx.isTest = t.isTest := by
    unfold cycleTransactions
    rw [pendingTransactions_eq, htxs]
    rfl
  unfold watcherInvoices
  rw [hcycle, List.filter_filter, List.map_map]
  have hids := ids_filter_of_forall₂ (p := reported c t) (q := watched fmt t)
    (forall₂_of_mapM htxs) fun row hrow tx htx =>
      reported_eq_watched ht hb (hmem row hrow).1 (hmem row hrow).2 htx
  rw [← hids]
  have hsame : (fun tx => t.waits fmt tx &&
      (decide (tx.currency.blockchain = t.currency.blockchain) && decide (tx.isTest = t.isTest))) =
        watched fmt t := by
    funext tx
    rw [watched, Bool.and_comm]
  rw [hsame]
  rfl

omit [DecidableEq A] in
theorem mem_webhookInvoices {networkID : String} {wh : IncomingWebhook} {row : TransactionRow}
    (h : row ∈ s.webhookInvoices c networkID wh t w) :
    row ∈ w.transactions.rows ∧ Books.isOpen row = true ∧
      row.recipientAddress = c.contractAddress ∧
        row.networkID = some (effectiveNetworkID c networkID) := by
  unfold webhookInvoices at h
  simp only at h
  split at h
  · have hkept := List.mem_filter.mp (mem_ranked.mp h)
    simp only [Bool.and_eq_true, decide_eq_true_eq] at hkept
    exact ⟨hkept.1, hkept.2.1.1.1, hkept.2.1.1.2, hkept.2.2⟩
  · cases h

omit [DecidableEq A] in
/-- On the transfer's network the webhook finds the currency. -/
theorem webhookInvoices_eq {networkID : String} {wh : IncomingWebhook}
    (hr : s.Reports c networkID wh t) (hnetwork : effectiveNetworkID c networkID = t.networkID) :
    s.webhookInvoices c networkID wh t w =
      (ranked TransactionRow.id (w.transactions.rows.filter Books.isOpen)).filter
        (reported c t) := by
  unfold webhookInvoices
  simp only [hnetwork, hr.known hnetwork]
  rw [← ranked_filter _ (w.ids_filter_nodup _), List.filter_filter]
  refine Eq.trans (if_pos rfl) (congrArg _ (List.filter_congr fun row _ => ?_))
  cases hopen : Books.isOpen row with
  | true => simp [reported]
  | false => simp

/-- Behind the watcher's invoices come those it does not read. -/
theorem ids_webhookInvoices {networkID : String} {wh : IncomingWebhook}
    (hr : s.Reports c networkID wh t) (hnetwork : effectiveNetworkID c networkID = t.networkID)
    (ht : s.Registered fmt t) (hb : s.AsCreated fmt c t w) :
    ∃ unread, (s.webhookInvoices c networkID wh t w).map TransactionRow.id =
      (s.watcherInvoices fmt t w).map (fun info => info.tx.id) ++ unread := by
  refine ⟨(((ranked TransactionRow.id (w.transactions.rows.filter Books.isOpen)).drop
    pendingLimit).filter (reported c t)).map TransactionRow.id, ?_⟩
  rw [ids_watcherInvoices ht hb, webhookInvoices_eq hr hnetwork, cycleRows, ← List.map_append,
    ← List.filter_append, List.take_append_drop]

theorem ids_watcherInvoices_nodup (ht : s.Registered fmt t) (hb : s.AsCreated fmt c t w) :
    ((s.watcherInvoices fmt t w).map fun info => info.tx.id).Nodup := by
  rw [ids_watcherInvoices ht hb]
  have hall := nodup_ranked (w.ids_filter_nodup Books.isOpen)
  have hsub : ((cycleRows w).filter (reported c t)).Sublist
      (ranked TransactionRow.id (w.transactions.rows.filter Books.isOpen)) :=
    List.filter_sublist.trans (List.take_sublist _ _)
  exact hall.sublist (hsub.map _)

/-- On another network the webhook finds none of the watcher's invoices. -/
theorem not_watched_of_other_network {networkID : String} {wh : IncomingWebhook}
    (hnetwork : effectiveNetworkID c networkID ≠ t.networkID) (ht : s.Registered fmt t)
    (hb : s.AsCreated fmt c t w) {row : TransactionRow}
    (hrow : row ∈ s.webhookInvoices c networkID wh t w) :
    row.id ∉ (s.watcherInvoices fmt t w).map fun info => info.tx.id := by
  rw [ids_watcherInvoices ht hb]
  intro hid
  obtain ⟨row', hrow', hsame⟩ := List.mem_map.mp hid
  obtain ⟨hread, hreported⟩ := List.mem_filter.mp hrow'
  have hmem' := (List.mem_filter.mp (mem_ranked.mp (List.mem_of_mem_take hread))).1
  obtain ⟨hmem, -, -, hother⟩ := mem_webhookInvoices hrow
  obtain rfl := World.row_unique hmem' hmem hsame
  simp only [reported, Bool.and_eq_true, decide_eq_true_eq] at hreported
  exact hnetwork (Option.some.inj (hother.symm.trans hreported.2))

omit [DecidableEq A] in
/-- The webhook takes the newest of its invoices. -/
theorem handedByWebhook_eq (hdone : ∀ n, (envs n).fate = .done) {networkID : String}
    {wh : IncomingWebhook} (hr : s.Reports c networkID wh t)
    (hnamed : t.currency.ticker ≠ "" ∧ t.currency.networkID ≠ "" ∧ t.currency.testNetworkID ≠ "")
    (haddress : c.contractAddress ≠ "")
    (hresolved : ∀ row ∈ w.transactions.rows, Books.isOpen row = true →
      ∃ tx, s.entryToTransaction row = .ok tx) :
    s.handedByWebhook c networkID wh envs w =
      ((s.webhookInvoices c networkID wh t w).take 1).map TransactionRow.id := by
  cases hcurrency : s.resolveCurrencyFromWebhook c.blockchain (effectiveNetworkID c networkID)
      wh with
  | error e =>
    have hnone : s.webhookInvoices c networkID wh t w = [] := by
      unfold webhookInvoices
      simp only [hcurrency]
      rfl
    rw [hnone]
    unfold handedByWebhook outcome webhookSelection
    rw [hcurrency]
    rfl
  | ok x =>
    obtain rfl := hr.currency x hcurrency
    have hne := network_ne_empty_of_resolved hcurrency hnamed.2
    have hlisting : w.getTransactionsByFilter ((pendingFilter c.contractAddress
        (effectiveNetworkID c networkID) t.currency.ticker).toRepo 1) =
          (s.webhookInvoices c networkID wh t w).take 1 := by
      have hfilter : w.transactions.rows.filter (World.matchesFilter ((pendingFilter
          c.contractAddress (effectiveNetworkID c networkID) t.currency.ticker).toRepo 1)) =
            w.transactions.rows.filter fun row => Books.isOpen row &&
              row.recipientAddress = c.contractAddress && row.currency = t.currency.ticker &&
                row.networkID = some (effectiveNetworkID c networkID) := by
        refine List.filter_congr fun row _ => ?_
        rw [Bool.eq_iff_iff]
        simp only [World.matchesFilter, Filter.toRepo, pendingFilter, stringToNullable,
          haddress, hnamed.1, hne, Books.isOpen]
        simp
        tauto
      rw [World.getTransactionsByFilter_eq, hfilter]
      unfold webhookInvoices
      simp only [hcurrency]
      rfl
    have hfound := alone_getByFilter (s := s) hdone (pendingFilter c.contractAddress
      (effectiveNetworkID c networkID) t.currency.ticker) 0 w
      (.idle : Session Stmt Env World LockKey)
    rw [hlisting] at hfound
    unfold handedByWebhook outcome webhookSelection
    rw [hcurrency]
    simp only [wrapErr, Except.mapError, succeed, Prog.ofExcept_ok, Prog.bind_eq, Prog.ret_bind,
      hr.amount, Engine.alone_bind, Engine.alone_attempt, hfound]
    cases hinvoices : (s.webhookInvoices c networkID wh t w).take 1 with
    | nil => rfl
    | cons row rest =>
      have hmem : row ∈ s.webhookInvoices c networkID wh t w :=
        List.mem_of_mem_take (hinvoices ▸ List.mem_cons_self)
      obtain ⟨hrow, hopen, -, -⟩ := mem_webhookInvoices hmem
      obtain ⟨tx, htx⟩ := hresolved row hrow hopen
      have hnil : rest = [] := by
        have hlength := congrArg List.length hinvoices
        have hle : ((s.webhookInvoices c networkID wh t w).take 1).length ≤ 1 :=
          List.length_take_le _ _
        rw [hlength] at hle
        exact List.length_eq_zero_iff.mp (by simpa using hle)
      simp only [htx, hnil, List.map_cons, List.map_nil]
      exact congrArg (fun id => [id]) (entryToTransaction_id htx)

theorem bestMatch_head {p : PendingInfo} {rest : List PendingInfo} {amount : Int}
    (h : (scan (matchScore amount) (p :: rest) 0 (0, 2 ^ 62 - 1)).1 = 0) :
    bestMatchByAmount (p :: rest) amount = some (0, p, !isDust amount p.effectiveExpected) := by
  unfold bestMatchByAmount
  rw [h]
  rfl

omit [DecidableEq A] in
/-- The watcher picks the newest of its invoices exactly if the transfer suits
it. -/
theorem picked_newest_iff {newest : PendingInfo} {others : List PendingInfo}
    (hids : ((newest :: others).map fun info => info.tx.id).Nodup) :
    picked s fmt t w (newest :: others) = [newest.tx.id] ↔
      s.SuitsNewest fmt t w newest others := by
  unfold picked
  constructor
  · intro hpicked
    split at hpicked
    · cases hpicked
    · rename_i hseen
      split at hpicked
      · rename_i i info hbest
        split at hpicked
        · cases hpicked
        · rename_i hunbound
          have hid : info.tx.id = newest.tx.id := by simpa using hpicked
          obtain ⟨hscan, hget, hfits⟩ := bestMatchByAmount_eq_some hbest
          -- ids differ, so the pick is the head and the scan stopped there
          have hpick : ((newest :: others).map fun info => info.tx.id)[i]? =
              some newest.tx.id := by
            rw [List.getElem?_map, hget, Option.map_some, hid]
          have hsame : ((newest :: others).map fun info => info.tx.id)[0]? =
              ((newest :: others).map fun info => info.tx.id)[i]? := by
            rw [hpick]
            rfl
          have hlength : 0 < ((newest :: others).map fun info => info.tx.id).length := by simp
          obtain rfl : 0 = i := (List.getElem?_inj hlength hids).mp hsame
          obtain rfl : newest = info := Option.some.inj hget
          exact ⟨by simpa using hseen, by simpa using hunbound, by simpa using hfits.symm,
            scan_eq_zero_iff.mp hscan⟩
      · cases hpicked
  · rintro ⟨hseen, hunbound, hsubstantial, hall⟩
    rw [hseen, bestMatch_head (scan_eq_zero_iff.mpr hall), hsubstantial]
    simp [hunbound]

/-- On the transfer's network. -/
theorem agrees_on_network_iff {networkID : String} {wh : IncomingWebhook}
    (hr : s.Reports c networkID wh t) (hnetwork : effectiveNetworkID c networkID = t.networkID)
    (ht : s.Registered fmt t) (hb : s.AsCreated fmt c t w) :
    ((s.webhookInvoices c networkID wh t w).take 1).map TransactionRow.id =
        picked s fmt t w (s.watcherInvoices fmt t w) ↔
      s.NewestOrNone fmt c networkID wh t w := by
  obtain ⟨unread, hids⟩ := ids_webhookInvoices hr hnetwork ht hb
  have hnodup := ids_watcherInvoices_nodup ht hb
  unfold NewestOrNone
  generalize s.watcherInvoices fmt t w = invoices at hids hnodup ⊢
  cases hwebhook : s.webhookInvoices c networkID wh t w with
  | nil =>
    -- nothing is open, so nothing is read either
    rw [hwebhook] at hids
    obtain rfl : invoices = [] :=
      List.map_eq_nil_iff.mp (List.append_eq_nil_iff.mp hids.symm).1
    have hnone : s.Refuses fmt t w [] := picked_eq_nil_iff.mp picked_nil
    simp [picked_nil, hnone]
  | cons row rest =>
    rw [hwebhook] at hids
    cases invoices with
    | nil => simp [picked_nil]
    | cons newest others =>
      have hid : row.id = newest.tx.id := by
        simp only [List.map_cons, List.cons_append, List.cons.injEq] at hids
        exact hids.1
      have hpicked : picked s fmt t w (newest :: others) = [newest.tx.id] ↔
          s.SuitsNewest fmt t w newest others := picked_newest_iff hnodup
      constructor
      · intro hsame
        refine .inr ⟨hnetwork, newest, others, rfl, hpicked.mp ?_⟩
        rw [← hsame, List.take_succ_cons, List.take_zero, List.map_cons, List.map_nil, hid]
      · rintro (⟨hnil, -⟩ | ⟨-, newest', others', hcons, hsuits⟩)
        · cases hnil
        · obtain ⟨rfl, rfl⟩ := List.cons.inj hcons
          rw [hpicked.mpr hsuits, List.take_succ_cons, List.take_zero, List.map_cons,
            List.map_nil, hid]

/-- On any other network. -/
theorem agrees_off_network_iff {networkID : String} {wh : IncomingWebhook}
    (hnetwork : effectiveNetworkID c networkID ≠ t.networkID) (ht : s.Registered fmt t)
    (hb : s.AsCreated fmt c t w) :
    ((s.webhookInvoices c networkID wh t w).take 1).map TransactionRow.id =
        picked s fmt t w (s.watcherInvoices fmt t w) ↔
      s.NewestOrNone fmt c networkID wh t w := by
  unfold NewestOrNone
  rw [← picked_eq_nil_iff]
  cases hwebhook : s.webhookInvoices c networkID wh t w with
  | nil =>
    constructor
    · intro hsame
      exact .inl ⟨rfl, hsame.symm⟩
    · rintro (⟨-, hnone⟩ | ⟨hsame, -⟩)
      · exact hnone.symm
      · exact absurd hsame hnetwork
  | cons row rest =>
    have hmem : row ∈ s.webhookInvoices c networkID wh t w := by
      rw [hwebhook]
      exact List.mem_cons_self
    have hother := not_watched_of_other_network hnetwork ht hb hmem
    constructor
    · intro hsame
      have hpicked : row.id ∈ picked s fmt t w (s.watcherInvoices fmt t w) := by
        rw [← hsame]
        exact List.mem_cons_self
      exact absurd (mem_of_mem_picked hpicked) hother
    · rintro (⟨hnil, -⟩ | ⟨hsame, -⟩)
      · cases hnil
      · exact absurd hsame hnetwork

end

/-- For every set of open invoices at a collector and every transfer of a
registered currency: a webhook that reports the transfer and a cycle that comes
across it hand it to the same invoice, or both to none, exactly if the newest
invoice is the watcher's choice or neither has one, and the transfer pays no
invoice in another currency. -/
theorem webhook_agrees_with_watcher_iff (fmt : AddressFormat A) (c : CollectorRow)
    (networkID : String) (wh : IncomingWebhook) (t : CollectorTransfer A)
    (chainTokens : List CryptoCurrency) (envs : ℕ → Env) (w : World)
    (hdone : ∀ n, (envs n).fate = .done) (hr : s.Reports c networkID wh t)
    (ht : s.Registered fmt t) (hb : s.AsCreated fmt c t w) :
    s.handedByWebhook c networkID wh envs w = s.handedByWatcher fmt chainTokens t envs w ↔
      s.NewestOrNone fmt c networkID wh t w ∧ ¬ s.PaysElsewhere fmt chainTokens t envs w := by
  rw [handedByWebhook_eq hdone hr ht.named hb.address.1 hb.resolved]
  rcases handedByWatcher_cases s fmt t w hdone chainTokens with
    ⟨hnot, hpicked⟩ | ⟨hpays, id, hnew, hfresh⟩
  · rw [hpicked, and_iff_left hnot]
    by_cases hnetwork : effectiveNetworkID c networkID = t.networkID
    · exact agrees_on_network_iff hr hnetwork ht hb
    · exact agrees_off_network_iff hnetwork ht hb
  · rw [hnew]
    refine ⟨fun hsame => ?_, fun h => absurd hpays h.2⟩
    -- the webhook hands on an invoice there is
    have hmem : id ∈ ((s.webhookInvoices c networkID wh t w).take 1).map TransactionRow.id := by
      rw [hsame]
      exact List.mem_cons_self
    obtain ⟨row, hrow, rfl⟩ := List.mem_map.mp hmem
    have hstored := (mem_webhookInvoices (List.mem_of_mem_take hrow)).1
    rw [Table.get_of_mem hstored] at hfresh
    cases hfresh

end Service

/-- The default registry has all of them, as long as `HexToAddress` tells the
contracts of a chain apart. -/
theorem registered_default {A : Type} [DecidableEq A] {s : Service} {fmt : AddressFormat A}
    {t : CollectorTransfer A} (hs : s.currencies = Registry.defaultCurrencies)
    (hfmt : ∀ x ∈ Registry.defaultCurrencies.list, ∀ y ∈ Registry.defaultCurrencies.list,
      x.blockchain = y.blockchain →
        fmt.hexToAddress (x.chooseContractAddress t.isTest) =
            fmt.hexToAddress (y.chooseContractAddress t.isTest) →
          lower (x.chooseContractAddress t.isTest) = lower (y.chooseContractAddress t.isTest))
    (hlisted : t.currency ∈ Registry.defaultCurrencies.list)
      (hchain : t.currency.blockchain ≠ "BTC")
    (hcontract : t.currency.type = .token → t.contractAddress ≠ "") : s.Registered fmt t := by
  have hchains : ∀ x ∈ Registry.defaultCurrencies.list, x.blockchain ≠ "BTC" →
      poller x.blockchain = some .evm ∨ poller x.blockchain = some .tron := by decide
  have hnames : ∀ x ∈ Registry.defaultCurrencies.list,
      (x.ticker ≠ "" ∧ x.networkID ≠ "" ∧ x.testNetworkID ≠ "") ∧ x.networkID ≠ x.testNetworkID ∧
        (x.type = .token → x.tokenContractAddress ≠ "") := by decide
  have halone : ∀ isTest, ∀ x ∈ Registry.defaultCurrencies.list,
      ∀ y ∈ Registry.defaultCurrencies.list, x.blockchain = y.blockchain → x.type = y.type →
        (x.type = .token →
          lower (x.chooseContractAddress isTest) = lower (y.chooseContractAddress isTest)) →
        (y.type = .token → y.chooseContractAddress isTest ≠ "") → x = y := by decide +kernel
  obtain ⟨hnamed, hnetworks, htoken⟩ := hnames t.currency hlisted
  refine ⟨hchains t.currency hlisted hchain, hs ▸ hlisted, hnamed, hnetworks, htoken, ?_⟩
  intro x hx hblockchain htype hsame
  rw [hs] at hx
  refine halone t.isTest x hx t.currency hlisted hblockchain htype (fun hkind => ?_) hcontract
  have hcontract := hsame hkind
  unfold CollectorTransfer.sameContract at hcontract
  split at hcontract
  · exact of_decide_eq_true hcontract
  · exact hfmt x hx t.currency hlisted hblockchain (of_decide_eq_true hcontract)

open Sample

namespace Sample

def registryService : Service := { service with currencies := Registry.defaultCurrencies }

/-- An invoice of so many wei to the collector. -/
def weiInvoice (id amount : Int) : TransactionRow :=
  { invoice .pending none none none with
    id := id
    recipientAddress := plainAddress
    amount := amount }

def weiInvoices (rows : List TransactionRow) : World :=
  { noMoney with transactions := rows.foldl KeyedTables.Table.insert noMoney.transactions }

/-- A hundred wei to the collector. -/
def weiTransfer : CollectorTransfer String where
  currency := Registry.coin "ETH" "1" "5" "ETH" "ETH" 18
  isTest := false
  block := 1
  timestamp := 0
  sender := "payer"
  recipient := hexFormat.hexToAddress plainAddress
  amount := 100
  txHash := "0xa"

def weiWebhook : IncomingWebhook where
  transactionID := "0xa"
  sender := "payer"
  asset := "ETH"
  amount := "0.0000000000000001"
  type := "native"
  mempool := false

end Sample

theorem weiTransfer_registered : registryService.Registered hexFormat weiTransfer := by
  refine registered_default rfl ?_ (by decide) (by decide) (by decide)
  decide +kernel

theorem weiWebhook_reports :
    registryService.Reports (collectorAt plainAddress) "ETH" weiWebhook weiTransfer := by
  have hcurrency : registryService.resolveCurrencyFromWebhook "ETH" "1" weiWebhook =
      .ok weiTransfer.currency := by decide +kernel
  have hnetwork : Service.effectiveNetworkID (collectorAt plainAddress) "ETH" = "1" := by
    decide +kernel
  refine ⟨rfl, ?_, fun _ => hcurrency, by decide +kernel⟩
  intro x hx
  rw [hnetwork] at hx
  exact (Except.ok.inj (hcurrency.symm.trans hx)).symm

/-- Invoices of wei at the collector are as they are created. -/
theorem weiInvoices_asCreated {rows : List TransactionRow}
    (h : ∀ row ∈ (weiInvoices rows).transactions.rows, ∃ id amount, row = weiInvoice id amount) :
    registryService.AsCreated hexFormat (collectorAt plainAddress) weiTransfer
      (weiInvoices rows) := by
  have hticker : registryService.currencies.getCurrencyByTicker "ETH" =
      .ok weiTransfer.currency := by decide +kernel
  have hentry : ∀ id amount, registryService.entryToTransaction (weiInvoice id amount) =
      .ok (Service.transactionOf (weiInvoice id amount) weiTransfer.currency none) := by
    intro id amount
    unfold Service.entryToTransaction
    rw [show (weiInvoice id amount).currency = "ETH" from rfl, hticker]
    rfl
  refine ⟨by decide +kernel, ?_, ?_⟩
  · intro row hrow _
    obtain ⟨id, amount, rfl⟩ := h row hrow
    exact ⟨_, hentry id amount⟩
  · intro row hrow _ _ _ tx htx
    obtain ⟨id, amount, rfl⟩ := h row hrow
    obtain rfl := Except.ok.inj ((hentry id amount).symm.trans htx)
    have hlower : plainAddress = lower plainAddress := by decide +kernel
    exact ⟨hlower, rfl, rfl, rfl⟩

/-- A single invoice takes the transfer on both paths. -/
theorem webhook_agrees_with_watcher_iff_sample :
    registryService.handedByWebhook (collectorAt plainAddress) "ETH" weiWebhook (fun _ => {})
        (weiInvoices [weiInvoice 1 100]) = [1] ∧
      (registryService.handedByWebhook (collectorAt plainAddress) "ETH" weiWebhook (fun _ => {})
          (weiInvoices [weiInvoice 1 100]) =
        registryService.handedByWatcher hexFormat [] weiTransfer (fun _ => {})
          (weiInvoices [weiInvoice 1 100]) ↔
      registryService.NewestOrNone hexFormat (collectorAt plainAddress) "ETH" weiWebhook weiTransfer
          (weiInvoices [weiInvoice 1 100]) ∧
        ¬ registryService.PaysElsewhere hexFormat [] weiTransfer (fun _ => {})
          (weiInvoices [weiInvoice 1 100])) := by
  refine ⟨by decide +kernel, registryService.webhook_agrees_with_watcher_iff hexFormat
    (collectorAt plainAddress) "ETH" weiWebhook weiTransfer [] (fun _ => {})
    (weiInvoices [weiInvoice 1 100]) (fun _ => rfl) weiWebhook_reports weiTransfer_registered
    (weiInvoices_asCreated ?_)⟩
  intro row hrow
  obtain rfl := List.mem_singleton.mp hrow
  exact ⟨1, 100, rfl⟩

/-- A payment of a hundred goes to the invoice of a hundred on the one path, and
to the newer one of a thousand on the other. -/
theorem webhook_takes_newest_invoice :
    ¬ ∀ (s : Service) (fmt : AddressFormat String) (c : CollectorRow) (networkID : String)
      (wh : IncomingWebhook) (t : CollectorTransfer String) (chainTokens : List CryptoCurrency)
      (envs : ℕ → Env) (w : World), (∀ n, (envs n).fate = .done) → s.Reports c networkID wh t →
      s.Registered fmt t → s.AsCreated fmt c t w →
        s.handedByWebhook c networkID wh envs w = s.handedByWatcher fmt chainTokens t envs w := by
  intro h
  have hsame := h registryService hexFormat (collectorAt plainAddress) "ETH" weiWebhook weiTransfer
    [] (fun _ => {}) (weiInvoices [weiInvoice 1 100, weiInvoice 2 1000]) (fun _ => rfl)
    weiWebhook_reports weiTransfer_registered (weiInvoices_asCreated ?_)
  · revert hsame
    decide +kernel
  · intro row hrow
    rcases List.mem_cons.mp hrow with rfl | hrow
    · exact ⟨1, 100, rfl⟩
    · obtain rfl := List.mem_singleton.mp hrow
      exact ⟨2, 1000, rfl⟩

end CryptoLink
