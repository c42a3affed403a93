import CryptoLink.Processing.Webhook

/-!
# Payments in another currency

A transfer to a collector that matches no pending invoice of its own currency
is valued in fiat and attributed to the closest open invoice. Fiat values are
exact rationals where the source has 64-bit floats.
-/

namespace CryptoLink

open ReadCommitted StatementPrograms

/-- `crossCurrencyFiatTolerance` -/
def crossCurrencyFiatTolerance : ℚ := 1 / 10

/-- `crossCurrencyDustFiat` -/
def crossCurrencyDustFiat : ℚ := 1 / 2

structure UnmatchedCollectorPayment where
  collectorAddress : String
  blockchain : Blockchain
  isTest : Bool
  isNative : Bool
  tokenContract : String
  rawAmount : String
  txHash : String
  senderAddress : String
  deriving DecidableEq, Repr

def crossCurrencyAmbiguityMargin (detFiat : ℚ) : ℚ :=
  if 1 < 2 / 100 * detFiat then 2 / 100 * detFiat else 1

/-- The position of the first value closest to `x`, the positions in `skip`
left out. -/
def closest (x : ℚ) (values : List ℚ) (skip : Option ℕ) : Option ℕ :=
  values.zipIdx.foldl (fun best p =>
    if some p.2 = skip then best
    else match best with
      | none => some p.2
      | some b => if |x - p.1| < |x - values.getD b 0| then some p.2 else some b) none

def chooseCrossCurrencyInvoice (detFiat : ℚ) (expected : List ℚ) : Option ℕ :=
  match closest detFiat expected none with
  | none => none
  | some bestIdx =>
    match closest detFiat expected (some bestIdx) with
    | none => some bestIdx
    | some secondIdx =>
      let gap := |detFiat - expected.getD secondIdx 0| - |detFiat - expected.getD bestIdx 0|
      if crossCurrencyAmbiguityMargin detFiat ≤ gap then some bestIdx else none

namespace Service

variable (s : Service)

def resolveUnmatchedCurrency (p : UnmatchedCollectorPayment) : Except Err CryptoCurrency := do
  let native ← s.currencies.getNativeCoin p.blockchain
  if p.isNative then .ok native
  else
    s.currencies.getCurrencyByBlockchainAndContract p.blockchain (native.chooseNetwork p.isTest)
      p.tokenContract

def cryptoToFiatFloat (amount : Money) (fiatCode : String) : Call ℚ := do
  let fiatCur ← succeed (wrapErr ("unknown fiat \"" ++ fiatCode ++ "\"")
    (makeFiatCurrency fiatCode))
  let conv ← ask .pool (.cryptoToFiat amount fiatCur)
  let converted ← succeed conv
  succeed converted.fiatToFloat64

/-- `usd_amount` falls back to the raw price. -/
def usdAmountOf (price : Money) : Call Money := do
  let conv ← ask .pool (.fiatToFiat price "USD")
  pure (match conv with | .ok m => m | .error _ => price)

def relockedTransaction (inv : Transaction) (currency : CryptoCurrency)
    (amount usdAmount : Money) (p : UnmatchedCollectorPayment) : CreateTransaction where
  type := .incoming
  entityID := inv.entityID
  recipientAddress := p.collectorAddress
  currency := currency
  amount := amount
  serviceFee := Money.crypto currency.ticker 0 currency.decimals
  usdAmount := usdAmount
  isTest := p.isTest

def autoAcceptCrossCurrency (inv : Transaction) (currency : CryptoCurrency) (amount : Money)
    (networkID : String) (p : UnmatchedCollectorPayment) : Call Unit := do
  let pt ← (getPaymentByID inv.merchantID inv.entityID).mapError
    (Err.wrap "cross-currency: unable to load payment for auto-accept")
  let usdAmount ← usdAmountOf pt.price
  let newTx ← (s.create inv.merchantID
    (relockedTransaction inv currency amount usdAmount p)).mapError
      (Err.wrap "cross-currency: unable to create re-locked transaction")
  -- a stale lock that cannot be cancelled is left to expire
  let _ ← (cancel inv .cancelled
    ("superseded by cross-currency payment in " ++ currency.ticker)).attempt
  s.processInboundTransaction newTx {
    currency := currency
    amount := amount
    senderAddress := if p.senderAddress = "" then "cross-currency-reconcile" else p.senderAddress
    transactionID := p.txHash
    networkID := networkID }

/-- The open invoices at a collector address, whatever their currency. -/
def openInvoices (collectorAddress : String) : Call (List Transaction) :=
  (s.listByFilter {
    recipientAddress := collectorAddress
    types := [.incoming]
    statuses := [.pending]
    hashIsEmpty := true } 50).mapError
      (Err.wrap "cross-currency: unable to list open collector invoices")

/-- The fiat price of every invoice and the fiat of the first. -/
def invoicePrices : List Transaction → Call (List ℚ × String)
  | [] => pure ([], "")
  | inv :: rest => do
      let pt ← (getPaymentByID inv.merchantID inv.entityID).mapError
        (Err.wrap "cross-currency: unable to load invoice payment")
      let prices ← invoicePrices rest
      pure (pt.price.fiatToFloat64.toOption.getD 0 :: prices.1,
        if pt.price.ticker = "" then prices.2 else pt.price.ticker)

def attributeUnmatched (p : UnmatchedCollectorPayment) (currency : CryptoCurrency)
    (amount : Money) (networkID : String) : Call Unit := do
  let invoices ← s.openInvoices p.collectorAddress
  let prices ← invoicePrices invoices
  let valued ← (cryptoToFiatFloat amount (if prices.2 = "" then "USD" else prices.2)).attempt
  match valued with
  | .error _ => pure ()
  | .ok detFiat =>
    if detFiat < crossCurrencyDustFiat then pure ()
    else match chooseCrossCurrencyInvoice detFiat prices.1 with
    | none => pure ()
    | some idx =>
      if detFiat + crossCurrencyFiatTolerance < prices.1.getD idx 0 then pure ()
      else match invoices[idx]? with
      | none => pure ()
      | some inv => s.autoAcceptCrossCurrency inv currency amount networkID p

/-- `ResolveUnmatchedCollectorPayment`. What the safety net alerts about is
only logged and mailed. -/
def resolveUnmatchedCollectorPayment (p : UnmatchedCollectorPayment) : Call Unit :=
  match s.resolveUnmatchedCurrency p with
  | .error _ => pure ()
  | .ok currency =>
    match Money.setString p.rawAmount with
    | none => pure ()
    | some amountInt =>
      if amountInt ≤ 0 then pure ()
      else do
        let existing ← (s.getByHashAndRecipient (currency.chooseNetwork p.isTest) p.txHash
          p.collectorAddress).attempt
        match existing with
        | .ok _ => pure ()
        | .error _ =>
            s.attributeUnmatched p currency (currency.makeAmountFromBigInt amountInt)
              (currency.chooseNetwork p.isTest)

/-- `autoAcceptCrossCurrency` up to `ProcessInboundTransaction`: the re-locked
transaction and its input. -/
def relock (inv : Transaction) (currency : CryptoCurrency) (amount : Money) (networkID : String)
    (p : UnmatchedCollectorPayment) : Call (Transaction × Input) := do
  let pt ← (getPaymentByID inv.merchantID inv.entityID).mapError
    (Err.wrap "cross-currency: unable to load payment for auto-accept")
  let usdAmount ← usdAmountOf pt.price
  let newTx ← (s.create inv.merchantID
    (relockedTransaction inv currency amount usdAmount p)).mapError
      (Err.wrap "cross-currency: unable to create re-locked transaction")
  let _ ← (cancel inv .cancelled
    ("superseded by cross-currency payment in " ++ currency.ticker)).attempt
  pure (newTx, {
    currency := currency
    amount := amount
    senderAddress := if p.senderAddress = "" then "cross-currency-reconcile" else p.senderAddress
    transactionID := p.txHash
    networkID := networkID })

def attributeSelection (p : UnmatchedCollectorPayment) (currency : CryptoCurrency)
    (amount : Money) (networkID : String) : Call (Option (Transaction × Input)) := do
  let invoices ← s.openInvoices p.collectorAddress
  let prices ← invoicePrices invoices
  let valued ← (cryptoToFiatFloat amount (if prices.2 = "" then "USD" else prices.2)).attempt
  match valued with
  | .error _ => pure none
  | .ok detFiat =>
    if detFiat < crossCurrencyDustFiat then pure none
    else match chooseCrossCurrencyInvoice detFiat prices.1 with
    | none => pure none
    | some idx =>
      if detFiat + crossCurrencyFiatTolerance < prices.1.getD idx 0 then pure none
      else match invoices[idx]? with
      | none => pure none
      | some inv => do
          let relocked ← s.relock inv currency amount networkID p
          pure (some relocked)

/-- What `ResolveUnmatchedCollectorPayment` hands to `ProcessInboundTransaction`,
or none. -/
def unmatchedSelection (p : UnmatchedCollectorPayment) : Call (Option (Transaction × Input)) :=
  match s.resolveUnmatchedCurrency p with
  | .error _ => pure none
  | .ok currency =>
    match Money.setString p.rawAmount with
    | none => pure none
    | some amountInt =>
      if amountInt ≤ 0 then pure none
      else do
        let existing ← (s.getByHashAndRecipient (currency.chooseNetwork p.isTest) p.txHash
          p.collectorAddress).attempt
        match existing with
        | .ok _ => pure none
        | .error _ =>
            s.attributeSelection p currency (currency.makeAmountFromBigInt amountInt)
              (currency.chooseNetwork p.isTest)

/-- What becomes of a selection. -/
def processSelected (selected : Option (Transaction × Input)) : Call Unit :=
  match selected with
  | none => pure ()
  | some (tx, input) => s.processInboundTransaction tx input

theorem autoAcceptCrossCurrency_eq (inv : Transaction) (currency : CryptoCurrency)
    (amount : Money) (networkID : String) (p : UnmatchedCollectorPayment) :
    s.autoAcceptCrossCurrency inv currency amount networkID p =
      (s.relock inv currency amount networkID p).bind fun relocked =>
        s.processSelected (some relocked) := by
  unfold autoAcceptCrossCurrency relock
  simp only [Prog.bind_eq, Prog.bind_assoc]
  rfl

theorem attributeUnmatched_eq (p : UnmatchedCollectorPayment) (currency : CryptoCurrency)
    (amount : Money) (networkID : String) :
    s.attributeUnmatched p currency amount networkID =
      (s.attributeSelection p currency amount networkID).bind s.processSelected := by
  unfold attributeUnmatched attributeSelection
  simp only [Prog.bind_eq, Prog.bind_assoc]
  congr 1
  funext invoices
  congr 1
  funext prices
  congr 1
  funext valued
  cases valued with
  | error e => rfl
  | ok detFiat =>
    simp only
    split
    · rfl
    · split
      · rfl
      · split
        · rfl
        · split
          · rfl
          · rw [autoAcceptCrossCurrency_eq, Prog.bind_assoc]
            rfl

/-- A transfer in another currency is attributed first and then processed. -/
theorem resolveUnmatchedCollectorPayment_eq (p : UnmatchedCollectorPayment) :
    s.resolveUnmatchedCollectorPayment p = (s.unmatchedSelection p).bind s.processSelected := by
  unfold resolveUnmatchedCollectorPayment unmatchedSelection
  split
  · rfl
  · split
    · rfl
    · split
      · rfl
      · simp only [Prog.bind_eq, Prog.bind_assoc]
        congr 1
        funext existing
        cases existing with
        | ok tx => rfl
        | error e => exact s.attributeUnmatched_eq p _ _ _

end Service

end CryptoLink
