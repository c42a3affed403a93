import CryptoLink.Processing.CrossCurrency
import CryptoLink.Alone
import Mathlib.Tactic.NormNum

/-!
# Transfers in another currency

When a transfer that matches no invoice of its own currency is credited to an
invoice in another one, by a call with nothing beside it. The transaction it is
credited to is a new one.
-/

namespace CryptoLink

open ReadCommitted StatementPrograms KeyedTables

namespace Service

/-- The open invoices at a collector address. -/
def collectorFilter (collectorAddress : String) : Filter where
  recipientAddress := collectorAddress
  types := [.incoming]
  statuses := [.pending]
  hashIsEmpty := true

/-- The payment behind an invoice. -/
def paymentOf (w : World) (inv : Transaction) : Except Err Payment :=
  toPayment (noRows (w.getPaymentByID inv.entityID inv.merchantID
    (decide (inv.merchantID ≠ Transaction.merchantIDWildcard))))

def fiatPrices (payments : List Payment) : List ℚ :=
  payments.map fun pt => pt.price.fiatToFloat64.toOption.getD 0

/-- The fiat of the first payment that has one. -/
def sharedFiat (payments : List Payment) : String :=
  ((payments.map fun pt => pt.price.ticker).find? fun ticker => ticker ≠ "").getD ""

variable (s : Service)

/-- A transaction like `c` can be created. -/
def Creatable (w : World) (merchantID now : Int) (c : CreateTransaction) : Prop :=
  c.validate = .ok () ∧ ∃ coin, s.currencies.getNativeCoin c.currency.blockchain = .ok coin ∧
    w.createFits (c.toRepo merchantID now coin) = true ∧
      ∃ tx, s.entryToTransaction (w.newTransaction (c.toRepo merchantID now coin)) = .ok tx

/-- The transfer is worth `detFiat`, of `invoices` at the collector it pays `inv`,
whose price is clearly the closest and covered, and the transaction that
replaces `inv` can be created. -/
structure PaysOf (p : UnmatchedCollectorPayment) (w : World) (currency : CryptoCurrency)
    (amount usdAmount : Money) (now : Int) (detFiat : ℚ) (invoices : List Transaction)
    (payments : List Payment) (inv : Transaction) (pt : Payment) : Prop where
  priced : List.Forall₂ (fun inv pt => paymentOf w inv = .ok pt) invoices payments
  known : (if sharedFiat payments = "" then "USD" else sharedFiat payments) ∈ fiatCurrencies
  substantial : crossCurrencyDustFiat ≤ detFiat
  closest : ∃ idx, chooseCrossCurrencyInvoice detFiat (fiatPrices payments) = some idx ∧
    (fiatPrices payments).getD idx 0 ≤ detFiat + crossCurrencyFiatTolerance ∧
      invoices[idx]? = some inv ∧ payments[idx]? = some pt
  fiat : pt.price.moneyType = .fiat
  creatable : s.Creatable w inv.merchantID now (relockedTransaction inv currency amount usdAmount p)

/-- An invoice at the collector is paid by the transfer, which no transaction has
recorded. The feed is asked once the two reads of the deduplication, the one of
the call, the listing and the payments are through, and then for dollars. -/
def PaysInvoice (p : UnmatchedCollectorPayment) (envs : ℕ → Env) (w : World) : Prop :=
  ∃ currency amount invoices payments inv pt,
    s.resolveUnmatchedCurrency p = .ok currency ∧
    Money.setString p.rawAmount = some amount ∧ 0 < amount ∧
    (∀ tx, s.toTransaction (noRows (w.getTransactionByHashNetworkAndRecipient
      (stringToNullable p.txHash) (stringToNullable (currency.chooseNetwork p.isTest))
        p.collectorAddress)) ≠ .ok tx) ∧
    (w.getTransactionsByFilter ((collectorFilter p.collectorAddress).toRepo 50)).mapM
      s.entryToTransaction = .ok invoices ∧
    s.PaysOf p w currency (currency.makeAmountFromBigInt amount)
      ⟨.fiat, "USD", (envs (6 + invoices.length)).number, 2⟩ (envs (7 + invoices.length)).clock
        ((envs (4 + invoices.length)).number / 100) invoices payments inv pt

section

variable {s} {envs : ℕ → Env} {w : World}

theorem alone_getPaymentByID (hdone : ∀ n, (envs n).fate = .done) (inv : Transaction) (n : ℕ) :
    engine.alone envs (getPaymentByID inv.merchantID inv.entityID) n ⟨w, .idle⟩ =
      (paymentOf w inv, n + 1, ⟨w, .idle⟩) := by
  have hreply : engine.reply (.getPaymentByID inv.entityID inv.merchantID
      (decide (inv.merchantID ≠ Transaction.merchantIDWildcard))) (envs n) w =
        noRows (w.getPaymentByID inv.entityID inv.merchantID
          (decide (inv.merchantID ≠ Transaction.merchantIDWildcard))) := by
    show answered (envs n).fate Err.database _ = _
    simp only [answered, hdone, if_true]
  unfold paymentOf
  rw [← hreply]
  exact alone_read_then (.getPaymentByID inv.entityID inv.merchantID
    (decide (inv.merchantID ≠ Transaction.merchantIDWildcard))) rfl toPayment envs n w _

theorem alone_openInvoices (hdone : ∀ n, (envs n).fate = .done) (collectorAddress : String)
    (n : ℕ) :
    engine.alone envs (s.openInvoices collectorAddress) n ⟨w, .idle⟩ =
      (((w.getTransactionsByFilter ((collectorFilter collectorAddress).toRepo 50)).mapM
        s.entryToTransaction).mapError
          (Err.wrap "cross-currency: unable to list open collector invoices"),
        n + 1, ⟨w, .idle⟩) := by
  have hreply : engine.reply (.getTransactionsByFilter
      ((collectorFilter collectorAddress).toRepo 50)) (envs n) w =
        .ok (w.getTransactionsByFilter ((collectorFilter collectorAddress).toRepo 50)) := by
    show answered (envs n).fate Err.database _ = _
    simp only [answered, hdone, if_true]
  have hlist := alone_listByFilter (s := s) (collectorFilter collectorAddress) 50 envs n w .idle
  rw [hreply] at hlist
  unfold openInvoices
  rw [Engine.alone_mapError]
  change ((engine.alone envs (s.listByFilter (collectorFilter collectorAddress) 50) n
    ⟨w, .idle⟩).1.mapError _, (engine.alone envs (s.listByFilter (collectorFilter collectorAddress)
      50) n ⟨w, .idle⟩).2) = _
  rw [hlist]
  rfl

theorem pricesOf_cons (pt : Payment) (payments : List Payment) :
    (fiatPrices (pt :: payments), sharedFiat (pt :: payments)) =
      (pt.price.fiatToFloat64.toOption.getD 0 :: fiatPrices payments,
        if pt.price.ticker = "" then sharedFiat payments else pt.price.ticker) := by
  unfold fiatPrices sharedFiat
  by_cases hticker : pt.price.ticker = ""
  · simp [hticker]
  · simp [hticker]

/-- The prices, once every payment is read. -/
theorem alone_invoicePrices (hdone : ∀ n, (envs n).fate = .done) {invoices : List Transaction}
    {payments : List Payment}
    (h : List.Forall₂ (fun inv pt => paymentOf w inv = .ok pt) invoices payments) (n : ℕ) :
    engine.alone envs (invoicePrices invoices) n ⟨w, .idle⟩ =
      (.ok (fiatPrices payments, sharedFiat payments), n + invoices.length, ⟨w, .idle⟩) := by
  induction h generalizing n with
  | nil => rfl
  | @cons inv pt invoices payments hpt _ ih =>
    have hread := alone_getPaymentByID (w := w) hdone inv n
    rw [hpt] at hread
    unfold invoicePrices
    simp only [Prog.bind_eq, Engine.alone_bind, Engine.alone_mapError, hread, Except.mapError,
      ih (n + 1), Prog.pure_eq, Engine.alone_ret]
    rw [pricesOf_cons, List.length_cons, Nat.add_assoc, Nat.add_comm 1]

/-- Prices are only returned if every payment was read. -/
theorem of_alone_invoicePrices (hdone : ∀ n, (envs n).fate = .done) {invoices : List Transaction}
    {n : ℕ} {prices : List ℚ × String}
    (h : (engine.alone envs (invoicePrices invoices) n ⟨w, .idle⟩).1 = .ok prices) :
    ∃ payments, List.Forall₂ (fun inv pt => paymentOf w inv = .ok pt) invoices payments := by
  induction invoices generalizing n prices with
  | nil => exact ⟨[], .nil⟩
  | cons inv rest ih =>
    obtain ⟨pt, n', v', hpt, hrest⟩ := engine.alone_bind_eq_ok h
    have hread := alone_getPaymentByID (w := w) hdone inv n
    rw [Engine.alone_mapError, hread] at hpt
    obtain ⟨hpt, hview⟩ := Prod.mk.inj hpt
    obtain ⟨rfl, rfl⟩ := Prod.mk.inj hview
    obtain ⟨prices', n', v', hprices, -⟩ := engine.alone_bind_eq_ok hrest
    obtain ⟨payments, hall⟩ := ih (congrArg Prod.fst hprices)
    cases hp : paymentOf w inv with
    | error e =>
      rw [hp] at hpt
      cases hpt
    | ok pt' => exact ⟨pt' :: payments, .cons hp hall⟩

/-- The feed values a crypto amount. -/
theorem alone_cryptoToFiatFloat (hdone : ∀ n, (envs n).fate = .done) {amount : Money}
    (hcrypto : amount.moneyType = .crypto) {fiatCode : String} (hfiat : fiatCode ∈ fiatCurrencies)
    (n : ℕ) :
    engine.alone envs (cryptoToFiatFloat amount fiatCode) n ⟨w, .idle⟩ =
      (.ok ((envs n).number / 100), n + 1, ⟨w, .idle⟩) := by
  have hreply : engine.reply (.cryptoToFiat amount fiatCode) (envs n) w =
      .ok ⟨.fiat, fiatCode, (envs n).number, 2⟩ := by
    show answered (envs n).fate Err.remote _ = _
    simp only [answered, hdone, hcrypto, if_true]
  have hvalue : (⟨.fiat, fiatCode, (envs n).number, 2⟩ : Money).fiatToFloat64 =
      .ok (((envs n).number : ℚ) / 100) := by
    show Except.ok (((envs n).number : ℚ) / 10 ^ 2) = _
    norm_num
  unfold cryptoToFiatFloat makeFiatCurrency
  simp only [if_pos hfiat, wrapErr_ok, succeed, Prog.bind_eq, Engine.alone_bind,
    Engine.alone_ofExcept, alone_read (.cryptoToFiat amount fiatCode) rfl, hreply, hvalue]

/-- A fiat that is none is not asked about. -/
theorem of_alone_cryptoToFiatFloat {amount : Money} {fiatCode : String} {n : ℕ} {x : ℚ}
    (h : (engine.alone envs (cryptoToFiatFloat amount fiatCode) n ⟨w, .idle⟩).1 = .ok x) :
    fiatCode ∈ fiatCurrencies := by
  by_contra hfiat
  obtain ⟨fiat, n', v', hread, -⟩ := engine.alone_bind_eq_ok h
  unfold makeFiatCurrency at hread
  rw [if_neg hfiat, wrapErr_error, succeed, Engine.alone_ofExcept] at hread
  cases congrArg Prod.fst hread

theorem alone_usdAmountOf (hdone : ∀ n, (envs n).fate = .done) (price : Money) (n : ℕ) :
    engine.alone envs (usdAmountOf price) n ⟨w, .idle⟩ =
      (.ok (if price.moneyType = .fiat then ⟨.fiat, "USD", (envs n).number, 2⟩ else price), n + 1,
        ⟨w, .idle⟩) := by
  have hreply : engine.reply (.fiatToFiat price "USD") (envs n) w =
      if price.moneyType = .fiat then .ok ⟨.fiat, "USD", (envs n).number, 2⟩
      else .error (Err.of .errValidation) := by
    show answered (envs n).fate Err.remote _ = _
    simp only [answered, hdone, if_true]
  unfold usdAmountOf
  simp only [Prog.bind_eq, Engine.alone_bind, alone_read (.fiatToFiat price "USD") rfl, hreply]
  by_cases hfiat : price.moneyType = .fiat
  · simp only [if_pos hfiat]
    rfl
  · simp only [if_neg hfiat]
    rfl

/-- The insert, in a database transaction of its own. -/
theorem alone_insertTransaction (hdone : ∀ n, (envs n).fate = .done)
    (p : CreateTransactionParams) (n : ℕ) :
    (engine.alone envs (runTx ((ask .tx (.createTransaction p)).bind succeed)) n ⟨w, .idle⟩).1 =
      if w.createFits p then .ok (w.newTransaction p) else .error (Err.of .database) := by
  have hopens : engine.opens (envs n) = true := by
    show decide ((envs n).fate = .done) = true
    rw [hdone]
    rfl
  have hreply : engine.reply (.createTransaction p) (envs (n + 1)) w =
      if w.createFits p then .ok (w.newTransaction p) else .error (Err.of .database) := by
    show answered (envs (n + 1)).fate Err.database _ = _
    simp only [answered, hdone, if_true]
  have hbody : engine.alone envs ((ask .tx (.createTransaction p)).bind succeed) (n + 1)
      ⟨w, ⟨some [], []⟩⟩ = (engine.reply (.createTransaction p) (envs (n + 1)) w, n + 2,
        ⟨engine.lasting (.createTransaction p) (envs (n + 1)) w,
          ⟨some [⟨.createTransaction p, envs (n + 1), w⟩], []⟩⟩) := by
    rw [Engine.alone_bind]
    exact Engine.alone_ofExcept _ _ _ _ _
  have hrun := engine.alone_runTransaction envs (Err.of .database) (Err.of .database)
    ((ask .tx (.createTransaction p)).bind succeed) n w []
  unfold runTx
  rw [show (Session.idle : Session Stmt Env World LockKey) = ⟨none, []⟩ from rfl, hrun,
    if_pos hopens, hbody, hreply]
  by_cases hfits : w.createFits p = true
  · simp only [if_pos hfits, Engine.perform]
    rw [if_pos (show engine.lands (envs (n + 2)) = true from ?_)]
    · exact if_pos (decide_eq_true (hdone _))
    · exact decide_eq_true (by simp [hdone])
  · simp only [if_neg hfits]

theorem alone_create (hdone : ∀ n, (envs n).fate = .done) (merchantID : Int)
    (c : CreateTransaction) (n : ℕ) :
    (engine.alone envs (s.create merchantID c) n ⟨w, .idle⟩).1 =
      c.validate.bind fun _ => (wrapErr "unable to get network currency"
        (s.currencies.getNativeCoin c.currency.blockchain)).bind fun coin =>
          if w.createFits (c.toRepo merchantID (envs n).clock coin) then
            s.entryToTransaction (w.newTransaction (c.toRepo merchantID (envs n).clock coin))
          else .error (Err.of .database) := by
  unfold create succeed
  simp only [Prog.bind_eq, Engine.alone_bind, Engine.alone_ofExcept]
  cases c.validate with
  | error e => rfl
  | ok u =>
    simp only [Except.bind]
    cases s.currencies.getNativeCoin c.currency.blockchain with
    | error e => rfl
    | ok coin =>
      have hclock : engine.alone envs timeNow n ⟨w, .idle⟩ =
          (.ok (envs n).clock, n + 1, ⟨w, .idle⟩) := alone_read .timeNow rfl envs n w .idle
      have hinsert := alone_insertTransaction (w := w) hdone
        (c.toRepo merchantID (envs n).clock coin) (n + 1)
      simp only [wrapErr_ok, hclock]
      generalize hrun : engine.alone envs (runTx _) (n + 1) ⟨w, .idle⟩ = run
      replace hinsert : run.1 = _ := (congrArg Prod.fst hrun).symm.trans hinsert
      obtain ⟨result, n', v'⟩ := run
      subst hinsert
      by_cases hfits : w.createFits (c.toRepo merchantID (envs n).clock coin) = true
      · simp only [if_pos hfits]
      · simp only [if_neg hfits]

/-- A created transaction is a new one. -/
theorem of_alone_create (hdone : ∀ n, (envs n).fate = .done) {merchantID : Int}
    {c : CreateTransaction} {n : ℕ} {tx : Transaction}
    (h : (engine.alone envs (s.create merchantID c) n ⟨w, .idle⟩).1 = .ok tx) :
    s.Creatable w merchantID (envs n).clock c ∧ w.transactions.get tx.id = none := by
  rw [alone_create hdone] at h
  unfold Creatable
  cases hvalid : c.validate with
  | error e =>
    rw [hvalid] at h
    cases h
  | ok u =>
    cases hcoin : s.currencies.getNativeCoin c.currency.blockchain with
    | error e =>
      rw [hvalid, hcoin] at h
      cases h
    | ok coin =>
      rw [hvalid, hcoin] at h
      simp only [wrapErr_ok, Except.bind] at h
      split at h
      · rename_i hfits
        refine ⟨⟨rfl, coin, rfl, hfits, tx, h⟩, ?_⟩
        rw [entryToTransaction_id h]
        simp only [World.createFits, Bool.and_eq_true, Option.isNone_iff_eq_none] at hfits
        exact hfits.2
      · cases h

theorem alone_create_of_creatable (hdone : ∀ n, (envs n).fate = .done) {merchantID : Int}
    {c : CreateTransaction} {n : ℕ} (h : s.Creatable w merchantID (envs n).clock c) :
    ∃ tx, (engine.alone envs (s.create merchantID c) n ⟨w, .idle⟩).1 = .ok tx := by
  obtain ⟨hvalid, coin, hcoin, hfits, tx, htx⟩ := h
  refine ⟨tx, ?_⟩
  rw [alone_create hdone, hvalid, hcoin]
  simp only [wrapErr_ok, Except.bind, if_pos hfits, htx]

/-- What is re-locked is a new transaction, for a payment in fiat. -/
theorem of_alone_relock (hdone : ∀ n, (envs n).fate = .done) {inv : Transaction}
    {currency : CryptoCurrency} {amount : Money} {networkID : String}
    {p : UnmatchedCollectorPayment} {n : ℕ} {pt : Payment} (hpt : paymentOf w inv = .ok pt)
    {relocked : Transaction × Input}
    (h : (engine.alone envs (s.relock inv currency amount networkID p) n ⟨w, .idle⟩).1 =
      .ok relocked) :
    w.transactions.get relocked.1.id = none ∧ pt.price.moneyType = .fiat ∧
      s.Creatable w inv.merchantID (envs (n + 2)).clock (relockedTransaction inv currency amount
        ⟨.fiat, "USD", (envs (n + 1)).number, 2⟩ p) := by
  obtain ⟨pt', n₁, v₁, hread, h⟩ := engine.alone_bind_eq_ok h
  rw [Engine.alone_mapError, alone_getPaymentByID hdone, hpt] at hread
  cases hread
  obtain ⟨usdAmount, n₂, v₂, husd, h⟩ := engine.alone_bind_eq_ok h
  rw [alone_usdAmountOf hdone] at husd
  cases husd
  obtain ⟨newTx, n₃, v₃, hcreate, h⟩ := engine.alone_bind_eq_ok h
  rw [Engine.alone_mapError] at hcreate
  have hcreated : (engine.alone envs (s.create inv.merchantID (relockedTransaction inv currency
      amount (if pt.price.moneyType = .fiat then ⟨.fiat, "USD", (envs (n + 1)).number, 2⟩
        else pt.price) p)) (n + 2) ⟨w, .idle⟩).1 = .ok newTx := by
    have hfirst := congrArg Prod.fst hcreate
    generalize (engine.alone envs (s.create _ _) (n + 2) ⟨w, .idle⟩).1 = result at hfirst
    cases result with
    | error e => cases hfirst
    | ok tx => exact hfirst
  obtain ⟨hcreatable, hfresh⟩ := of_alone_create hdone hcreated
  have hfiat : pt.price.moneyType = .fiat := by
    by_contra hcrypto
    -- the price itself is no amount of dollars then
    have hvalid := hcreatable.1
    rw [if_neg hcrypto] at hvalid
    unfold CreateTransaction.validate relockedTransaction at hvalid
    split at hvalid
    · cases hvalid
    · split at hvalid
      · cases hvalid
      · rw [if_pos (.inl hcrypto)] at hvalid
        cases hvalid
  rw [if_pos hfiat] at hcreatable
  refine ⟨?_, hfiat, hcreatable⟩
  obtain ⟨cancelled, n₄, v₄, -, h⟩ := engine.alone_bind_eq_ok h
  cases h
  exact hfresh

theorem alone_relock (hdone : ∀ n, (envs n).fate = .done) (networkID : String)
    {inv : Transaction} {currency : CryptoCurrency} {amount : Money}
    {p : UnmatchedCollectorPayment} {n : ℕ} {pt : Payment} (hpt : paymentOf w inv = .ok pt)
    (hfiat : pt.price.moneyType = .fiat)
    (hcreatable : s.Creatable w inv.merchantID (envs (n + 2)).clock (relockedTransaction inv
      currency amount ⟨.fiat, "USD", (envs (n + 1)).number, 2⟩ p)) :
    ∃ relocked, (engine.alone envs (s.relock inv currency amount networkID p) n ⟨w, .idle⟩).1 =
      .ok relocked := by
  obtain ⟨newTx, hcreate⟩ := alone_create_of_creatable hdone hcreatable
  generalize hrun : engine.alone envs (s.create inv.merchantID (relockedTransaction inv currency
    amount ⟨.fiat, "USD", (envs (n + 1)).number, 2⟩ p)) (n + 2) ⟨w, .idle⟩ = run at hcreate
  obtain ⟨result, n', v'⟩ := run
  obtain rfl : result = .ok newTx := hcreate
  unfold relock
  simp only [Prog.bind_eq, Engine.alone_bind, Engine.alone_mapError, alone_getPaymentByID hdone,
    hpt, Except.mapError, alone_usdAmountOf hdone, if_pos hfiat, hrun, Engine.alone_attempt]
  exact ⟨_, rfl⟩

theorem forall₂_getElem? {α β : Type} {R : α → β → Prop} {xs : List α} {ys : List β}
    (h : List.Forall₂ R xs ys) {i : ℕ} {x : α} (hx : xs[i]? = some x) :
    ∃ y, ys[i]? = some y ∧ R x y := by
  induction h generalizing i with
  | nil => cases hx
  | @cons a b xs ys hab _ ih =>
    cases i with
    | zero =>
      obtain rfl := Option.some.inj hx
      exact ⟨b, rfl, hab⟩
    | succ i => exact ih hx

theorem of_alone_attributeSelection (hdone : ∀ n, (envs n).fate = .done)
    {currency : CryptoCurrency} {amount : Money} {networkID : String}
    {p : UnmatchedCollectorPayment} {n : ℕ} (hcrypto : amount.moneyType = .crypto)
    {relocked : Transaction × Input}
    (h : (engine.alone envs (s.attributeSelection p currency amount networkID) n ⟨w, .idle⟩).1 =
      .ok (some relocked)) :
    w.transactions.get relocked.1.id = none ∧ ∃ invoices payments inv pt,
      (w.getTransactionsByFilter ((collectorFilter p.collectorAddress).toRepo 50)).mapM
        s.entryToTransaction = .ok invoices ∧
      s.PaysOf p w currency amount ⟨.fiat, "USD", (envs (n + 3 + invoices.length)).number, 2⟩
        (envs (n + 4 + invoices.length)).clock ((envs (n + 1 + invoices.length)).number / 100)
          invoices payments inv pt := by
  obtain ⟨invoices, n₁, v₁, hlist, h⟩ := engine.alone_bind_eq_ok h
  rw [alone_openInvoices hdone] at hlist
  have hstep := congrArg Prod.snd hlist
  cases hstep
  replace hlist := congrArg Prod.fst hlist
  have hinvoices : (w.getTransactionsByFilter ((collectorFilter p.collectorAddress).toRepo
      50)).mapM s.entryToTransaction = .ok invoices := by
    generalize (w.getTransactionsByFilter _).mapM s.entryToTransaction = result at hlist
    cases result with
    | error e => cases hlist
    | ok txs =>
      cases hlist
      rfl
  obtain ⟨prices, n₂, v₂, hprices, h⟩ := engine.alone_bind_eq_ok h
  obtain ⟨payments, hpayments⟩ := of_alone_invoicePrices hdone (congrArg Prod.fst hprices)
  rw [alone_invoicePrices hdone hpayments] at hprices
  cases hprices
  obtain ⟨valued, n₃, v₃, hvalued, h⟩ := engine.alone_bind_eq_ok h
  rw [Engine.alone_attempt] at hvalued
  by_cases hknown : (if sharedFiat payments = "" then "USD" else sharedFiat payments) ∈
    fiatCurrencies
  · rw [alone_cryptoToFiatFloat hdone hcrypto hknown] at hvalued
    cases hvalued
    simp only at h
    split at h
    · cases h
    · rename_i hdust
      split at h
      · cases h
      · rename_i idx hclosest
        split at h
        · cases h
        · rename_i hcovered
          split at h
          · cases h
          · rename_i inv hinv
            obtain ⟨pt, hpt, hpaid⟩ := forall₂_getElem? hpayments hinv
            obtain ⟨relocked', n₄, v₄, hrelock, h⟩ := engine.alone_bind_eq_ok h
            cases h
            obtain ⟨hfresh, hfiat, hcreatable⟩ := of_alone_relock hdone hpaid
              (congrArg Prod.fst hrelock)
            refine ⟨hfresh, invoices, payments, inv, pt, hinvoices, hpayments, hknown,
              not_lt.mp hdust, ⟨idx, hclosest, not_lt.mp hcovered, hinv, hpt⟩, hfiat, ?_⟩
            have husd : n + 1 + invoices.length + 1 + 1 = n + 3 + invoices.length := by omega
            have hclock : n + 1 + invoices.length + 1 + 2 = n + 4 + invoices.length := by omega
            rw [husd, hclock] at hcreatable
            exact hcreatable
  · -- without a fiat nothing is valued
    generalize hresult : engine.alone envs (cryptoToFiatFloat amount _) _ _ = run at hvalued
    obtain ⟨result, n', v'⟩ := run
    cases result with
    | ok x => exact absurd (of_alone_cryptoToFiatFloat (congrArg Prod.fst hresult)) hknown
    | error e =>
      cases hvalued
      cases h

theorem alone_attributeSelection (hdone : ∀ n, (envs n).fate = .done) (networkID : String)
    (n : ℕ) {currency : CryptoCurrency} {amount : Money} {p : UnmatchedCollectorPayment}
      (hcrypto : amount.moneyType = .crypto)
    {invoices : List Transaction} {payments : List Payment} {inv : Transaction} {pt : Payment}
    (hinvoices : (w.getTransactionsByFilter ((collectorFilter p.collectorAddress).toRepo 50)).mapM
      s.entryToTransaction = .ok invoices)
    (h : s.PaysOf p w currency amount ⟨.fiat, "USD", (envs (n + 3 + invoices.length)).number, 2⟩
      (envs (n + 4 + invoices.length)).clock ((envs (n + 1 + invoices.length)).number / 100)
        invoices payments inv pt) :
    ∃ relocked, (engine.alone envs (s.attributeSelection p currency amount networkID) n
      ⟨w, .idle⟩).1 = .ok (some relocked) := by
  obtain ⟨idx, hclosest, hcovered, hinv, hpt⟩ := h.closest
  have hpaid : paymentOf w inv = .ok pt := by
    obtain ⟨pt', hpt', hpaid⟩ := forall₂_getElem? h.priced hinv
    obtain rfl := Option.some.inj (hpt.symm.trans hpt')
    exact hpaid
  have hlist := alone_openInvoices (s := s) (w := w) hdone p.collectorAddress n
  rw [hinvoices] at hlist
  have hcreatable := h.creatable
  have husd : n + 3 + invoices.length = n + 1 + invoices.length + 1 + 1 := by omega
  have hclock : n + 4 + invoices.length = n + 1 + invoices.length + 1 + 2 := by omega
  rw [husd, hclock] at hcreatable
  obtain ⟨relocked, hrelock⟩ := alone_relock hdone networkID hpaid h.fiat hcreatable
  generalize hrun : engine.alone envs (s.relock inv currency amount networkID p)
    (n + 1 + invoices.length + 1) ⟨w, .idle⟩ = run at hrelock
  obtain ⟨result, n', v'⟩ := run
  obtain rfl : result = .ok relocked := hrelock
  refine ⟨relocked, ?_⟩
  unfold attributeSelection
  simp only [Prog.bind_eq, Engine.alone_bind, Engine.alone_attempt, hlist, Except.mapError,
    alone_invoicePrices hdone h.priced, alone_cryptoToFiatFloat hdone hcrypto h.known,
    if_neg (not_lt.mpr h.substantial), hclosest, if_neg (not_lt.mpr hcovered), hinv, hrun]
  rfl

/-- The whole call, after the two reads of the deduplication: it hands on exactly
if an invoice is paid. -/
theorem unmatchedSelection_iff (hdone : ∀ n, (envs n).fate = .done)
    (p : UnmatchedCollectorPayment) :
    (∃ relocked, (engine.alone envs (s.unmatchedSelection p) 2 ⟨w, .idle⟩).1 =
      .ok (some relocked)) ↔ s.PaysInvoice p envs w := by
  unfold unmatchedSelection
  constructor
  · rintro ⟨relocked, h⟩
    split at h
    · cases h
    · rename_i currency hcurrency
      split at h
      · cases h
      · rename_i amount hamount
        split at h
        · cases h
        · rename_i hpositive
          obtain ⟨existing, n', v', hread, h⟩ := engine.alone_bind_eq_ok h
          rw [Engine.alone_attempt, alone_getByHashAndRecipient hdone] at hread
          cases hread
          split at h
          · cases h
          · rename_i e hunbound
            obtain ⟨-, invoices, payments, inv, pt, hinvoices, hpays⟩ :=
              of_alone_attributeSelection hdone rfl h
            refine ⟨currency, amount, invoices, payments, inv, pt, hcurrency, hamount,
              not_le.mp hpositive, ?_, hinvoices, hpays⟩
            intro tx htx
            rw [htx] at hunbound
            cases hunbound
  · rintro ⟨currency, amount, invoices, payments, inv, pt, hcurrency, hamount, hpositive, hunbound,
      hinvoices, hpays⟩
    have hread := alone_getByHashAndRecipient (s := s) hdone (currency.chooseNetwork p.isTest)
      p.txHash p.collectorAddress 2 w .idle
    obtain ⟨relocked, hselected⟩ := alone_attributeSelection hdone
      (currency.chooseNetwork p.isTest) 3 rfl hinvoices hpays
    refine ⟨relocked, ?_⟩
    simp only [hcurrency, hamount, if_neg (not_le.mpr hpositive), Prog.bind_eq, Engine.alone_bind,
      Engine.alone_attempt, hread]
    split
    · rename_i hbound
      exact absurd hbound (hunbound _)
    · exact hselected

/-- What it hands on is no transaction there was. -/
theorem unmatchedSelection_fresh (hdone : ∀ n, (envs n).fate = .done)
    {p : UnmatchedCollectorPayment} {relocked : Transaction × Input}
    (h : (engine.alone envs (s.unmatchedSelection p) 2 ⟨w, .idle⟩).1 = .ok (some relocked)) :
    w.transactions.get relocked.1.id = none := by
  unfold unmatchedSelection at h
  split at h
  · cases h
  · split at h
    · cases h
    · split at h
      · cases h
      · obtain ⟨existing, n', v', hread, h⟩ := engine.alone_bind_eq_ok h
        rw [Engine.alone_attempt, alone_getByHashAndRecipient hdone] at hread
        cases hread
        split at h
        · cases h
        · exact (of_alone_attributeSelection hdone rfl h).1

end

end Service

end CryptoLink
