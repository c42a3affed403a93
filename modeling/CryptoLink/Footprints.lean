import CryptoLink.Calls
import CryptoLink.Repository.Frames

/-!
# What each call can write

A footprint bounds the statements of a call that change a table, whatever the
database and the nodes answer. One lemma for each piece of service code; every
invariant of a run starts from these.
-/

namespace CryptoLink

open ReadCommitted StatementPrograms

/-- Among the statements that change a table, only those in `Φ`. -/
def OnlyWrites {α : Type} (Φ : Conn → Stmt → Prop) (p : Call α) : Prop :=
  Issues (fun c => ∀ q st, c = Cmd.stmt q st → st.changes ≠ none → Φ q st) p

namespace OnlyWrites

variable {α β : Type} {Φ Ψ : Conn → Stmt → Prop}

theorem bind {p : Call α} {f : α → Call β} (hp : OnlyWrites Φ p)
    (hf : ∀ a, OnlyWrites Φ (f a)) : OnlyWrites Φ (p.bind f) :=
  Issues.bind hp hf

theorem ret (a : α) : OnlyWrites Φ (.ret a : Call α) := trivial

theorem fail (e : Err) : OnlyWrites Φ (.fail e : Call α) := trivial

theorem checked (x : Except Err α) : OnlyWrites Φ (succeed x) :=
  Issues.ofExcept x

theorem attempt {p : Call α} (hp : OnlyWrites Φ p) : OnlyWrites Φ p.attempt :=
  Issues.attempt hp

theorem mapError {p : Call α} (f : Err → Err) (hp : OnlyWrites Φ p) :
    OnlyWrites Φ (p.mapError f) :=
  Issues.mapError f hp

theorem each {γ : Type} {f : γ → Call Unit} (hf : ∀ x, OnlyWrites Φ (f x)) (xs : List γ) :
    OnlyWrites Φ (Prog.each f xs) :=
  Issues.each hf xs

theorem mono {p : Call α} (h : ∀ q st, Φ q st → Ψ q st) (hp : OnlyWrites Φ p) :
    OnlyWrites Ψ p :=
  Issues.mono (fun _ hc q st he hne => h q st (hc q st he hne)) hp

theorem read {q : Conn} {st : Stmt} (h : st.changes = none) : OnlyWrites Φ (ask q st) := by
  refine (Issues.ask_iff _).mpr ?_
  rintro q' st' he hne
  cases he
  exact absurd h hne

theorem write {q : Conn} {st : Stmt} (h : Φ q st) : OnlyWrites Φ (ask q st) := by
  refine (Issues.ask_iff _).mpr ?_
  rintro q' st' he -
  cases he
  exact h

theorem runTx {p : Call α} (hp : OnlyWrites Φ p) : OnlyWrites Φ (CryptoLink.runTx p) := by
  unfold CryptoLink.runTx runTransaction
  refine Issues.bind ((Issues.ask_iff _).mpr (by simp)) fun opened => ?_
  split
  · refine Issues.bind hp.attempt fun outcome => ?_
    cases outcome with
    | error e => exact Issues.bind ((Issues.ask_iff _).mpr (by simp)) fun _ => trivial
    | ok a =>
      refine Issues.bind ((Issues.ask_iff _).mpr (by simp)) fun committed => ?_
      split <;> exact trivial
  · exact trivial

theorem withLock {p : Call α} {e : Err} {st : Stmt} (hp : OnlyWrites Φ p) :
    OnlyWrites Φ (ReadCommitted.withLock e st p) := by
  unfold ReadCommitted.withLock
  refine Issues.bind ((Issues.ask_iff _).mpr (by simp)) fun kept => ?_
  split
  · refine Issues.bind hp.attempt fun outcome => ?_
    exact Issues.bind ((Issues.ask_iff _).mpr (by simp)) fun _ => Issues.ofExcept outcome
  · exact trivial

theorem discard {p : Call α} (hp : OnlyWrites Φ p) : OnlyWrites Φ (CryptoLink.discard p) :=
  hp.bind fun _ => trivial

end OnlyWrites

variable {Φ : Conn → Stmt → Prop}

theorem timeNow_writes : OnlyWrites Φ timeNow := .read rfl

/-- Every balance row may change. -/
structure AllowsBalances (Φ : Conn → Stmt → Prop) (q : Conn) : Prop where
  create : ∀ p, Φ q (.createBalance p)
  update : ∀ p, Φ q (.updateBalanceByID p)

theorem writeAuditLog_writes {q : Conn} {id : BalanceKey} {op : BalanceOperation} {m : Money}
    {comment : String} {metaData : MetaData}
    (h : ∀ now, Φ q (.insertBalanceAuditLog
      ⟨now, id, comment, (auditMetaData metaData op m).toJSONB⟩)) :
    OnlyWrites Φ (writeAuditLog q id op m comment metaData) := by
  refine .bind timeNow_writes fun now => .bind (.write (h now)) fun r => ?_
  exact .checked r

theorem upsertBalance_writes {q : Conn} {p : UpdateBalanceQuery} {now : Int}
    {found : Except Err BalanceRow} (hb : AllowsBalances Φ q) :
    OnlyWrites Φ (upsertBalance q p now found) := by
  cases found with
  | ok b => exact .write (hb.update _)
  | error e =>
    simp only [upsertBalance]
    split
    · exact .write (hb.create _)
    · exact .write (hb.update _)

theorem updateBalance_writes {q : Conn} {p : UpdateBalanceQuery} (hb : AllowsBalances Φ q)
    (ha : ∀ now id, Φ q (.insertBalanceAuditLog
      ⟨now, id, p.comment, (auditMetaData p.metaData p.operation p.amount).toJSONB⟩)) :
    OnlyWrites Φ (updateBalance q p) := by
  refine .bind (.checked _) fun _ => .bind (.read rfl) fun found => ?_
  refine .bind timeNow_writes fun now => .bind (upsertBalance_writes hb) fun changed => ?_
  refine .bind (.checked _) fun balance => ?_
  exact .bind (.mapError _ (writeAuditLog_writes fun now => ha now _)) fun _ => .ret _

theorem changeBalanceByID_writes {q : Conn} {id : BalanceKey} {p : UpdateBalanceByIDQuery}
    (hb : AllowsBalances Φ q)
    (ha : ∀ now id, Φ q (.insertBalanceAuditLog
      ⟨now, id, p.comment, (auditMetaData p.metaData p.operation p.amount).toJSONB⟩)) :
    OnlyWrites Φ (changeBalanceByID q id p) := by
  refine .bind (.checked _) fun _ => .bind (.read rfl) fun locked => ?_
  refine .bind (.checked _) fun b => ?_
  split
  · refine .bind timeNow_writes fun now => .bind (.write (hb.update _)) fun changed => ?_
    refine .bind (.checked _) fun balance => ?_
    exact .bind (.mapError _ (writeAuditLog_writes fun now => ha now _)) fun _ => .ret _
  · exact .ret _

theorem ensureBalance_writes {t : EntityType} {id : Int} {c : CryptoCurrency} {isTest : Bool}
    (hb : AllowsBalances Φ .pool) : OnlyWrites Φ (ensureBalance t id c isTest) := by
  refine .bind (.read rfl) fun found => ?_
  cases found with
  | ok b => exact .ret _
  | error e =>
    dsimp only
    split
    · refine .bind timeNow_writes fun now => .bind (.write (hb.create _)) fun created => ?_
      exact .bind (.checked _) fun b => .ret _
    · exact .fail _

namespace Service

variable {s : Service}

theorem getTransaction_writes {q : Conn} {m id : Int} : OnlyWrites Φ (s.getTransaction q m id) :=
  .bind (.read rfl) fun _ => .checked _

theorem getTransactionByID_writes {m id : Int} : OnlyWrites Φ (s.getTransactionByID m id) :=
  getTransaction_writes

theorem getLatestByPaymentID_writes {id : Int} : OnlyWrites Φ (s.getLatestByPaymentID id) :=
  .bind (.read rfl) fun _ => .checked _

theorem getByHashAndRecipient_writes {n h a : String} :
    OnlyWrites Φ (s.getByHashAndRecipient n h a) :=
  .bind (.read rfl) fun _ => .checked _

theorem listByFilter_writes {f : Filter} {limit : ℕ} : OnlyWrites Φ (s.listByFilter f limit) :=
  .bind (.read rfl) fun _ => .checked _

theorem getByFilter_writes {f : Filter} : OnlyWrites Φ (s.getByFilter f) :=
  .bind (.read rfl) fun _ => .checked _

theorem create_writes {m : Int} {c : CreateTransaction}
    (h : ∀ now coin, Φ .tx (.createTransaction (c.toRepo m now coin))) :
    OnlyWrites Φ (s.create m c) := by
  refine .bind (.checked _) fun _ => .bind (.checked _) fun coin => ?_
  refine .bind timeNow_writes fun now => .bind (.runTx ?_) fun entry => .checked _
  exact .bind (.write (h now coin)) fun created => .checked _

/-- What lies behind a check runs only if the check passes. -/
theorem onlyWrites_of_checked {α : Type} {x : Except Err Unit} {p : Call α}
    (h : x = .ok () → OnlyWrites Φ p) : OnlyWrites Φ ((succeed x).bind fun _ => p) := by
  cases x with
  | error e => exact .fail e
  | ok u => exact h rfl

theorem ReceiveTransaction.status_of_validate {u : ReceiveTransaction} (h : u.validate = .ok ()) :
    u.status = .inProgress ∨ u.status = .inProgressInvalid := by
  unfold validate at h
  split at h
  · cases h
  · rename_i hs
    by_cases hp : u.status = .inProgress
    · exact .inl hp
    · exact .inr (by simpa [hp] using hs)

theorem ConfirmTransaction.status_of_validate {c : ConfirmTransaction} (h : c.validate = .ok ()) :
    c.status = .completed ∨ c.status = .completedInvalid := by
  unfold validate at h
  split at h
  · cases h
  · rename_i hs
    by_cases hp : c.status = .completed
    · exact .inl hp
    · exact .inr (by simpa [hp] using hs)

theorem receive_writes {m id : Int} {params : ReceiveTransaction}
    (h : params.status = .inProgress ∨ params.status = .inProgressInvalid →
      ∀ now metaData, Φ .tx (.updateTransaction (params.toRepo m id now metaData))) :
    OnlyWrites Φ (s.receive m id params) := by
  refine onlyWrites_of_checked fun hv => .runTx (.bind getTransaction_writes fun tx => ?_)
  refine .bind timeNow_writes fun now => .bind (.write ?_) fun entry => .checked _
  exact h (ReceiveTransaction.status_of_validate hv) now _

/-- The metadata of the ledger changes made for `tx`. -/
def LedgerMetaData (tx : Transaction) (m : MetaData) : Prop :=
  m = ledgerMetaData tx ∨ m = recipientMetaData tx

/-- The ledger as the confirmation of `tx` may change it. -/
structure AllowsLedger (Φ : Conn → Stmt → Prop) (q : Conn) (tx : Transaction) : Prop
    extends AllowsBalances Φ q where
  audit : ∀ now key comment op amount m, LedgerMetaData tx m →
    Φ q (.insertBalanceAuditLog ⟨now, key, comment, (auditMetaData m op amount).toJSONB⟩)

theorem incrementRecipientBalance_writes {q : Conn} {tx : Transaction} {m : Money} {c : String}
    (h : AllowsLedger Φ q tx) : OnlyWrites Φ (incrementRecipientBalance q tx m c) := by
  unfold incrementRecipientBalance
  split
  · exact .ret _
  · refine .bind (.mapError _ (updateBalance_writes h.toAllowsBalances fun now key => ?_))
      fun _ => .ret _
    exact h.audit now key _ _ _ _ (.inr rfl)

theorem updateMerchantBalance_writes {q : Conn} {tx : Transaction} {m : Money} {c : String}
    {metaData : MetaData} (h : AllowsLedger Φ q tx) (hm : LedgerMetaData tx metaData) :
    OnlyWrites Φ (updateMerchantBalance q tx m c metaData) := by
  refine .bind (.mapError _ (updateBalance_writes h.toAllowsBalances fun now key => ?_))
    fun _ => .ret _
  exact h.audit now key _ _ _ _ hm

theorem decrementNetworkFee_writes {q : Conn} {tx : Transaction} {id : Int} {fee : Money}
    {c : String} {metaData : MetaData} (h : AllowsLedger Φ q tx) (hm : LedgerMetaData tx metaData) :
    OnlyWrites Φ (s.decrementNetworkFee q tx id fee c metaData) := by
  refine .bind (.checked _) fun currency => ?_
  refine .bind (.mapError _ (updateBalance_writes h.toAllowsBalances fun now key => ?_))
    fun _ => .ret _
  exact h.audit now key _ _ _ _ hm

theorem creditIncoming_writes {q : Conn} {tx : Transaction} {m : Money}
    {params : ConfirmTransaction} (h : AllowsLedger Φ q tx) :
    OnlyWrites Φ (creditIncoming q tx m params) := by
  refine .bind (incrementRecipientBalance_writes h) fun _ => ?_
  split
  · exact .ret _
  · split
    · exact .ret _
    · exact .bind (.checked _) fun gained => updateMerchantBalance_writes h (.inr rfl)

theorem updateBalancesAfterTxConfirmation_writes {q : Conn} {tx : Transaction}
    {params : ConfirmTransaction} (h : AllowsLedger Φ q tx) :
    OnlyWrites Φ (s.updateBalancesAfterTxConfirmation q tx params) := by
  unfold updateBalancesAfterTxConfirmation
  split
  · exact .fail _
  · split
    · exact .fail _
    · split
      · exact .fail _
      · split
        · exact creditIncoming_writes h
        · split
          · exact .fail _
          · refine .bind (incrementRecipientBalance_writes h) fun _ => ?_
            exact decrementNetworkFee_writes h (.inr rfl)
        · split
          · exact .fail _
          · exact decrementNetworkFee_writes h (.inl rfl)
        · split
          · exact .fail _
          · exact updateMerchantBalance_writes h (.inl rfl)

theorem confirm_writes {m id : Int} {params : ConfirmTransaction}
    (h : params.status = .completed ∨ params.status = .completedInvalid →
      ∀ now metaData, Φ .tx (.updateTransaction (params.toRepo m id now metaData)))
    (hl : ∀ tx, AllowsLedger Φ .tx tx) : OnlyWrites Φ (s.confirm m id params) := by
  refine onlyWrites_of_checked fun hv => .runTx (.bind getTransaction_writes fun tx => ?_)
  split
  · exact .fail _
  · have hstatus := ConfirmTransaction.status_of_validate hv
    refine .bind timeNow_writes fun now => .bind (.write (h hstatus now _)) fun entry => ?_
    refine .bind (.checked _) fun updated => ?_
    exact .bind (.mapError _ (updateBalancesAfterTxConfirmation_writes (hl _))) fun _ => .ret _

theorem cancel_writes {tx : Transaction} {status : Transaction.Status} {reason : String}
    (h : ∀ p, p.id = tx.id → p.status = status → Φ .pool (.cancelTransaction p)) :
    OnlyWrites Φ (cancel tx status reason) := by
  refine .runTx (.bind timeNow_writes fun now => ?_)
  exact .bind (.write (h _ rfl rfl)) fun done => .checked _

theorem recordInput_writes {tx : Transaction} {input : Input}
    (h : ∀ p, p.key = ⟨tx.id, input.networkID, input.transactionID, 0⟩ →
      p.amount = input.amount.value → p.status = .confirmed →
      Φ .pool (.insertTransactionFill p)) :
    OnlyWrites Φ (recordInput tx input) := by
  unfold recordInput recordFill
  split
  · refine .bind timeNow_writes fun now => .bind (.write (h _ rfl rfl rfl)) fun r => ?_
    exact .bind (.checked _) fun row => .ret _
  · exact .fail _

theorem sumConfirmedFills_writes {tx : Transaction} : OnlyWrites Φ (sumConfirmedFills tx) :=
  .bind (.read rfl) fun _ => .bind (.checked _) fun _ => .ret _

theorem listFills_writes {tx : Transaction} : OnlyWrites Φ (listFills tx) :=
  .bind (.read rfl) fun _ => .bind (.checked _) fun _ => .ret _

theorem fillExistsByHashAndRecipient_writes {n h a : String} :
    OnlyWrites Φ (fillExistsByHashAndRecipient n h a) :=
  .bind (.read rfl) fun _ => .checked _

theorem markFillReorged_writes {id : FillKey} (h : Φ .pool (.markFillReorged id)) :
    OnlyWrites Φ (markFillReorged id) :=
  .bind (.write h) fun _ => .checked _

theorem listPartialPaymentTxIDs_writes : OnlyWrites Φ listPartialPaymentTxIDs :=
  .bind (.read rfl) fun _ => .checked _

theorem getPaymentByID_writes {m id : Int} : OnlyWrites Φ (getPaymentByID m id) :=
  .bind (.read rfl) fun _ => .checked _

theorem lockedUntil_writes {status : Payment.Status} : OnlyWrites Φ (lockedUntil status) := by
  unfold lockedUntil
  split
  · exact .bind timeNow_writes fun _ => .ret _
  · exact .ret _

theorem updatePayment_writes {m id : Int} {status : Payment.Status}
    (h : ∀ p, p.id = id → p.merchantID = m → p.status = status → Φ .pool (.updatePayment p)) :
    OnlyWrites Φ (updatePayment m id status) := by
  refine .bind timeNow_writes fun now => .bind lockedUntil_writes fun expiresAt => ?_
  refine .bind (.write (h _ rfl rfl rfl)) fun r => .bind (.checked _) fun pt => ?_
  split
  · exact .bind (.read rfl) fun _ => .bind (.checked _) fun _ => .checked _
  · exact .checked _

theorem failPayment_writes {pt : Payment}
    (h : ∀ p, p.id = pt.id → p.merchantID = pt.merchantID → p.status = .failed →
      Φ .pool (.updatePayment p)) : OnlyWrites Φ (failPayment pt) :=
  .bind (updatePayment_writes h) fun _ => .ret _

theorem markPartial_writes {m id : Int}
    (h : ∀ p, p.id = id → p.merchantID = m → p.status = .partialPaid →
      Φ .pool (.extendPaymentExpiry p)) : OnlyWrites Φ (markPartial m id) := by
  refine .bind timeNow_writes fun requested => .bind timeNow_writes fun now => ?_
  refine .bind (.write (h _ rfl rfl rfl)) fun r => .bind (.checked _) fun row => ?_
  refine .bind getPaymentByID_writes fun pt => .bind (.read rfl) fun _ => ?_
  exact .ret _

theorem creditResolved_writes {m id : Int} (hb : AllowsBalances Φ .pool)
    (hl : AllowsBalances Φ .tx)
    (ha : ∀ now key amount, Φ .tx (.insertBalanceAuditLog
      ⟨now, key, resolveComment id, (auditMetaData [] .increment amount).toJSONB⟩)) :
    OnlyWrites Φ (s.creditResolved m id) := by
  refine .bind (.attempt getLatestByPaymentID_writes) fun found => ?_
  split
  · exact .ret _
  · split
    · exact .ret _
    · split
      · exact .ret _
      · refine .bind (.attempt (ensureBalance_writes hb)) fun ensured => ?_
        split
        · exact .ret _
        · refine .bind (.attempt (.bind (.checked _) fun _ => .runTx ?_)) fun _ => .ret _
          exact changeBalanceByID_writes hl fun now key => ha now key _

theorem resolvePayment_writes {m id : Int}
    (h : ∀ p, p.merchantID = m → p.status = .success → Φ .pool (.updatePayment p))
    (hb : AllowsBalances Φ .pool) (hl : AllowsBalances Φ .tx)
    (ha : ∀ now key payment amount, Φ .tx (.insertBalanceAuditLog
      ⟨now, key, resolveComment payment, (auditMetaData [] .increment amount).toJSONB⟩)) :
    OnlyWrites Φ (s.resolvePayment m id) := by
  refine .bind getPaymentByID_writes fun pt => ?_
  split
  · exact .fail _
  · refine .bind (.mapError _ (updatePayment_writes fun p _ hm hs => h p hm hs)) fun resolved => ?_
    split
    · refine .bind (creditResolved_writes hb hl fun now key amount => ?_) fun _ => .ret _
      exact ha now key _ amount
    · exact .ret _

theorem declinePayment_writes {m id : Int}
    (h : ∀ p, p.merchantID = m → p.status = .failed → Φ .pool (.updatePayment p)) :
    OnlyWrites Φ (declinePayment m id) := by
  refine .bind getPaymentByID_writes fun pt => ?_
  split
  · exact .fail _
  · exact .mapError _ (updatePayment_writes fun p _ hm hs => h p hm hs)

theorem crossesExpected_writes {tx : Transaction} {m : Money} :
    OnlyWrites Φ (crossesExpected tx m) := by
  unfold crossesExpected
  split
  · exact .ret _
  · exact .bind (.read rfl) fun _ => .bind (.checked _) fun _ => .bind (.checked _) fun _ => .ret _

theorem determineIncomingStatusFromCombined_writes {tx : Transaction} {m : Money} :
    OnlyWrites Φ (determineIncomingStatusFromCombined tx m) := by
  unfold determineIncomingStatusFromCombined
  split
  · exact .ret _
  · split
    · exact .ret _
    · refine .bind crossesExpected_writes fun crosses => ?_
      split <;> exact .ret _

/-- What one inbound transfer may write: its own fill, and then either the
extension of the payment or the promotion of the transaction. -/
def inboundWrites (tx : Transaction) (input : Input) (q : Conn) : Stmt → Prop
  | .insertTransactionFill p =>
      q = .pool ∧ p.key = ⟨tx.id, input.networkID, input.transactionID, 0⟩ ∧
        p.amount = input.amount.value ∧ p.status = .confirmed
  | .extendPaymentExpiry p =>
      q = .pool ∧ p.id = tx.entityID ∧ p.merchantID = tx.merchantID ∧ p.status = .partialPaid
  | .updateTransaction p =>
      q = .tx ∧ p.id = tx.id ∧ p.merchantID = tx.merchantID ∧
        (p.status = .inProgress ∨ p.status = .inProgressInvalid)
  | .updatePayment p => q = .pool ∧ p.status = .inProgress
  | _ => False

theorem recordPartialFill_writes {tx : Transaction} {input : Input} :
    OnlyWrites (inboundWrites tx input) (recordPartialFill tx input) := by
  refine .bind (.mapError _ (recordInput_writes fun p hk ha hs => ⟨rfl, hk, ha, hs⟩)) fun _ => ?_
  exact .bind (.mapError _ (markPartial_writes fun p hi hm hs => ⟨rfl, hi, hm, hs⟩)) fun _ => .ret _

theorem promoteFromPartial_writes {tx : Transaction} {input : Input} {combined : Money} :
    OnlyWrites (inboundWrites tx input) (s.promoteFromPartial tx input combined) := by
  refine .bind determineIncomingStatusFromCombined_writes fun determined => ?_
  refine .bind (.mapError _ (recordInput_writes fun p hk ha hs => ⟨rfl, hk, ha, hs⟩)) fun _ => ?_
  refine .bind (.mapError _ (receive_writes fun hs now md => ⟨rfl, rfl, rfl, hs⟩))
    fun received => ?_
  split
  · refine .bind (.mapError _ getPaymentByID_writes) fun pt => ?_
    exact .bind (.mapError _ (updatePayment_writes fun p _ _ hs => ⟨rfl, hs⟩)) fun _ => .ret _
  · exact .ret _

theorem processInboundTransaction_writes {tx : Transaction} {input : Input} :
    OnlyWrites (inboundWrites tx input) (s.processInboundTransaction tx input) := by
  refine .bind (.checked _) fun _ => .bind (.mapError _ sumConfirmedFills_writes) fun prev => ?_
  refine .bind (.checked _) fun combined => .bind (.mapError _ crossesExpected_writes) fun c => ?_
  split
  · exact promoteFromPartial_writes
  · exact recordPartialFill_writes

/-- What an inbound transfer on some transaction may write. -/
def anyInboundWrites (q : Conn) (st : Stmt) : Prop :=
  ∃ tx input, inboundWrites tx input q st

theorem processInboundTransaction_writes_any {tx : Transaction} {input : Input} :
    OnlyWrites anyInboundWrites (s.processInboundTransaction tx input) :=
  processInboundTransaction_writes.mono fun _ _ h => ⟨tx, input, h⟩

theorem adminReconcileFill_writes {id : Int} {hash raw sender : String} :
    OnlyWrites anyInboundWrites (s.adminReconcileFill id hash raw sender) := by
  refine .bind (.mapError _ getLatestByPaymentID_writes) fun tx => ?_
  split
  · exact .fail _
  · exact processInboundTransaction_writes_any

theorem getTransactionReceipt_writes {b : Blockchain} {hash : String} {isTest : Bool} :
    OnlyWrites Φ (s.getTransactionReceipt b hash isTest) := by
  refine .bind (.checked _) fun coin => ?_
  split
  · exact .fail _
  · exact .bind (.read rfl) fun _ => .bind (.checked _) fun _ => .ret _

/-- What a confirmation may write: the row, its ledger changes, the payment. -/
def confirmWrites (q : Conn) : Stmt → Prop
  | .updateTransaction p =>
      q = .tx ∧ (p.status = .completed ∨ p.status = .completedInvalid)
  | .createBalance _ => q = .tx
  | .updateBalanceByID _ => q = .tx
  | .insertBalanceAuditLog _ => q = .tx
  | .updatePayment p => q = .pool ∧ (p.status = .success ∨ p.status = .underpaid)
  | _ => False

/-- What one check of an incoming transaction may write: a confirmation, or the
cancellation. -/
def checkWrites (q : Conn) (st : Stmt) : Prop :=
  confirmWrites q st ∨ match st with
    | .cancelTransaction p => q = .pool ∧ p.status = .failed
    | .updatePayment p => q = .pool ∧ p.status = .failed
    | _ => False

theorem confirmWrites_ledger (tx : Transaction) : AllowsLedger confirmWrites .tx tx :=
  ⟨⟨fun _ => rfl, fun _ => rfl⟩, fun _ _ _ _ _ _ _ => rfl⟩

theorem confirmIncomingTransaction_writes {tx : Transaction} {sender hash : String}
    {receipt : TransactionReceipt} :
    OnlyWrites confirmWrites (s.confirmIncomingTransaction tx sender hash receipt) := by
  unfold confirmIncomingTransaction
  split
  · exact .fail _
  · have hconfirm : ∀ m, OnlyWrites confirmWrites (s.confirm tx.merchantID tx.id
        (confirmation tx sender hash m receipt)) :=
      fun m => confirm_writes (fun hs now md => ⟨rfl, hs⟩) confirmWrites_ledger
    have hpay : ∀ m id, OnlyWrites confirmWrites
        (updatePayment m id (settledPaymentStatus tx)) := by
      intro m id
      refine updatePayment_writes fun p _ _ hs => ⟨rfl, ?_⟩
      rw [hs]
      unfold settledPaymentStatus
      split
      · exact .inr rfl
      · exact .inl rfl
    refine .bind (.mapError _ (hconfirm _)) fun confirmed => ?_
    split
    · exact .ret _
    · refine .bind (.mapError _ getPaymentByID_writes) fun pt => ?_
      refine .bind (.mapError _ (hpay _ _)) fun _ => ?_
      split
      · exact .bind (.read rfl) fun _ => .ret _
      · exact .ret _

theorem cancelIncomingTransaction_writes {tx : Transaction} :
    OnlyWrites checkWrites (cancelIncomingTransaction tx) := by
  refine .bind (.mapError _ (cancel_writes fun p _ hs => .inr ⟨rfl, hs⟩)) fun _ => ?_
  split
  · exact .ret _
  · exact .bind (.mapError _ (updatePayment_writes fun p _ _ hs => .inr ⟨rfl, hs⟩)) fun _ => .ret _

theorem settle_writes {tx : Transaction} {sender hash : String}
    {receipt : Except Err TransactionReceipt} :
    OnlyWrites checkWrites (s.settle tx sender hash receipt) := by
  unfold settle
  split
  · refine .bind timeNow_writes fun now => ?_
    split
    · exact cancelIncomingTransaction_writes
    · exact .fail _
  · split
    · split
      · exact confirmIncomingTransaction_writes.mono fun _ _ h => .inl h
      · exact cancelIncomingTransaction_writes
    · refine .bind timeNow_writes fun now => ?_
      split
      · exact cancelIncomingTransaction_writes
      · exact .ret _

theorem checkIncomingTransaction_writes {id : Int} :
    OnlyWrites checkWrites (s.checkIncomingTransaction id) := by
  refine .bind (.mapError _ getTransactionByID_writes) fun tx => ?_
  split
  · exact .fail _
  · split
    · exact .fail _
    · split
      · exact .fail _
      · split
        · exact .fail _
        · split
          · exact .bind (.attempt getTransactionReceipt_writes) fun receipt => settle_writes
          · exact .ret _

/-- What one expiry may write. -/
def expiryWrites (q : Conn) : Stmt → Prop
  | .updateTransaction p => q = .tx ∧ p.status = .inProgressInvalid
  | .cancelTransaction p => q = .pool ∧ p.status = .cancelled
  | .updatePayment p => q = .pool ∧ (p.status = .underpaid ∨ p.status = .failed)
  | _ => False

theorem cancelUnlessCancelled_writes {tx : Option Transaction} {reason message : String} :
    OnlyWrites expiryWrites (cancelUnlessCancelled tx reason message) := by
  unfold cancelUnlessCancelled
  split
  · exact .ret _
  · split
    · exact .ret _
    · exact .mapError _ (cancel_writes fun p _ hs => ⟨rfl, hs⟩)

theorem failExpired_writes {pt : Payment} : OnlyWrites expiryWrites (failPayment pt) :=
  failPayment_writes fun _ _ _ hs => ⟨rfl, .inr hs⟩

theorem expireUnpaid_writes {pt : Payment} {tx : Option Transaction} :
    OnlyWrites expiryWrites (expireUnpaid pt tx) :=
  .bind cancelUnlessCancelled_writes fun _ => .mapError _ failExpired_writes

theorem markUnderpaidTransaction_writes {tx : Transaction} {m : Money}
    (h : ∀ p, p.status = .inProgressInvalid → Φ .tx (.updateTransaction p)) :
    OnlyWrites Φ (s.markUnderpaidTransaction tx m) := by
  refine .bind (.bind (.attempt listFills_writes) fun fills => ?_) fun sender => ?_
  · split <;> exact .ret _
  refine .bind (.bind (.attempt listFills_writes) fun fills => ?_) fun hash => ?_
  · split <;> exact .ret _
  exact .bind (.attempt (receive_writes fun _ now md => h _ rfl)) fun _ => .ret _

theorem expirePartial_writes {pt : Payment} {tx : Option Transaction} :
    OnlyWrites expiryWrites (s.expirePartial pt tx) := by
  cases tx with
  | none => exact expireUnpaid_writes
  | some tx =>
    refine .bind (.bind (.attempt sumConfirmedFills_writes) fun sum => ?_) fun total => ?_
    · split <;> exact .ret _
    · split
      · exact expireUnpaid_writes
      · refine .bind (markUnderpaidTransaction_writes fun p hs => ⟨rfl, hs⟩) fun _ => ?_
        refine .bind (.mapError _ (updatePayment_writes fun p _ _ hs => ⟨rfl, .inl hs⟩)) fun _ => ?_
        exact .ret _

theorem expirePayment_writes {id : Int} : OnlyWrites expiryWrites (s.expirePayment id) := by
  refine .bind (.mapError _ getPaymentByID_writes) fun pt => ?_
  split
  · exact .fail _
  · split
    · exact .fail _
    · refine .bind (.bind (.attempt getLatestByPaymentID_writes) fun found => ?_) fun tx => ?_
      · split
        · exact .ret _
        · split
          · exact .ret _
          · exact .fail _
      · refine .bind ?_ fun waiting => ?_
        · unfold inGracePeriod
          split
          · split
            · exact .bind timeNow_writes fun _ => .ret _
            · exact .ret _
          · exact .ret _
        · split
          · exact .ret _
          · split
            · exact expirePartial_writes
            · refine .bind cancelUnlessCancelled_writes fun _ => ?_
              exact .mapError _ failExpired_writes

def recheckWrites (q : Conn) : Stmt → Prop
  | .markFillReorged _ => q = .pool
  | _ => False

theorem recheckPartialFills_writes : OnlyWrites recheckWrites s.recheckPartialFills := by
  refine .bind (.mapError _ listPartialPaymentTxIDs_writes) fun ids => ?_
  split
  · exact .ret _
  · refine .bind timeNow_writes fun now => .each (fun id => ?_) _
    refine .bind (.attempt getTransactionByID_writes) fun found => ?_
    split
    · exact .ret _
    · refine .bind (.attempt listFills_writes) fun fills => ?_
      split
      · exact .ret _
      · refine .each (fun f => ?_) _
        unfold recheckFill
        split
        · exact .ret _
        · split
          · exact .ret _
          · refine .bind (.attempt getTransactionReceipt_writes) fun receipt => ?_
            split
            · exact .bind (.attempt (markFillReorged_writes rfl)) fun _ => .ret _
            · exact .ret _

/-- One pending transaction is created. -/
def creationWrites (q : Conn) : Stmt → Prop
  | .createTransaction p => q = .tx ∧ p.status = .pending ∧ p.transactionHash = none
  | _ => False

def optionWrites (q : Conn) : Stmt → Prop
  | .createTransaction p => q = .tx ∧ p.status = .pending ∧ p.transactionHash = none
  | .cancelTransaction p => q = .pool ∧ p.status = .cancelled
  | _ => False

theorem optionWrites_of_creation {q : Conn} {st : Stmt} (h : creationWrites q st) :
    optionWrites q st := by
  cases st with
  | createTransaction p => exact h
  | _ => cases h

theorem createPending_writes {m : Int} {pt : Payment} {c : CryptoCurrency} {a : String}
    {x y z : Money} : OnlyWrites creationWrites (s.create m (pendingTransaction pt c a x y z)) :=
  create_writes fun _ _ => ⟨rfl, rfl, rfl⟩

theorem createIncomingTransaction_writes {pt : Payment} {fee : Bool} {c : CryptoCurrency} :
    OnlyWrites creationWrites (s.createIncomingTransaction pt fee c) := by
  refine .bind (.read rfl) fun conv => .bind (.checked _) fun converted => ?_
  refine .bind ?_ fun markedUp => .bind ?_ fun serviceFee => ?_
  · unfold applyFeeMarkup
    split
    · exact .bind (.read rfl) fun _ => .ret _
    · exact .ret _
  · unfold serviceFeeOf
    split
    · exact .bind (.read rfl) fun _ => .checked _
    · exact .ret _
  refine .bind (.read rfl) fun usd => .bind (.checked _) fun usdAmount => .bind ?_ fun found => ?_
  · unfold collectorOf
    split
    · exact .bind (.read rfl) fun _ => .ret _
    · exact .ret _
  split
  · refine .bind (.attempt ?_) fun dust => .mapError _ createPending_writes
    exact .bind (.read rfl) fun _ => .bind (.checked _) fun _ => .ret _
  · refine .bind (.read rfl) fun wallets => ?_
    split
    · split
      · refine .bind (.read rfl) fun derived => .bind (.checked _) fun address => ?_
        refine .bind (.mapError _ createPending_writes) fun tx => ?_
        exact .bind (.read rfl) fun _ => .ret _
      · exact .fail _
    · exact .fail _

theorem changePaymentMethod_writes {pt : Payment} {fee : Bool} {tx : Transaction}
    {c : CryptoCurrency} : OnlyWrites optionWrites (s.changePaymentMethod pt fee tx c) := by
  unfold changePaymentMethod
  split
  · exact .fail _
  · refine .bind (.mapError _ (cancel_writes fun p _ hs => ⟨rfl, hs⟩)) fun _ => ?_
    exact createIncomingTransaction_writes.mono fun _ _ => optionWrites_of_creation

theorem setPaymentMethod_writes {p : Payment} {ticker : String} :
    OnlyWrites optionWrites (s.setPaymentMethod p ticker) := by
  unfold setPaymentMethod
  split
  · exact .fail _
  · refine .bind (.read rfl) fun mt => .bind (.checked _) fun fee => ?_
    refine .bind (.mapError _ ?_) fun currency => .bind (.attempt (.withLock (.attempt ?_)))
      fun outcome => ?_
    · refine .bind (.checked _) fun currency => .bind (.read rfl) fun supported => ?_
      refine .bind (.checked _) fun enabled => ?_
      split
      · exact .ret _
      · exact .fail _
    · refine .bind (.attempt getLatestByPaymentID_writes) fun found => ?_
      split
      · split
        · exact createIncomingTransaction_writes.mono fun _ _ => optionWrites_of_creation
        · exact .fail _
      · split
        · exact createIncomingTransaction_writes.mono fun _ _ => optionWrites_of_creation
        · split
          · exact .ret _
          · exact changePaymentMethod_writes
    · split
      · exact .ret _
      · exact .fail _
      · exact .ret _

theorem lockPaymentOptions_writes {m id : Int}
    (h : ∀ p, p.id = id → p.merchantID = m → p.status = .locked → Φ .pool (.updatePayment p)) :
    OnlyWrites Φ (s.lockPaymentOptions m id) := by
  refine .bind (.mapError _ ?_) fun details => ?_
  · refine .bind getPaymentByID_writes fun pt => .bind (.read rfl) fun mt => ?_
    refine .bind (.checked _) fun _ => .bind ?_ fun _ => .bind ?_ fun method => .ret _
    · cases pt.customerID with
      | none => exact .ret _
      | some id => exact .bind (.read rfl) fun _ => .checked _
    · refine .bind (.attempt getLatestByPaymentID_writes) fun found => ?_
      split
      · exact .bind (.checked _) fun _ => .ret _
      · split
        · exact .ret _
        · exact .fail _
  · split
    · exact .ret _
    · split
      · exact .fail _
      · exact .bind (.mapError _ (updatePayment_writes h)) fun _ => .ret _

theorem processWebhookAt_writes {target : WebhookTarget} {bc : Blockchain} {n a : String}
    {wh : IncomingWebhook} :
    OnlyWrites anyInboundWrites (s.processWebhookAt target bc n a wh) := by
  refine .bind (.checked _) fun currency => .bind (.checked _) fun amount => ?_
  refine .bind (.attempt getByFilter_writes) fun found => ?_
  split
  · split
    · exact .ret _
    · exact .fail _
  · exact .mapError _ processInboundTransaction_writes_any

theorem receiveWebhook_writes {n walletID body signature : String} {wh : IncomingWebhook} :
    OnlyWrites anyInboundWrites (s.receiveWebhook n walletID body signature wh) := by
  refine .bind (.checked _) fun _ => ?_
  unfold processIncomingWebhook
  split
  · exact .ret _
  · split
    · exact .ret _
    · refine .bind (.read rfl) fun derived => ?_
      split
      · exact processWebhookAt_writes
      · split
        · refine .bind (.read rfl) fun found => ?_
          split
          · exact processWebhookAt_writes
          · exact .fail _
        · exact .fail _

/-- A cross-currency payment replaces a transaction and fills the new one. -/
def crossCurrencyWrites (q : Conn) (st : Stmt) : Prop :=
  optionWrites q st ∨ anyInboundWrites q st

theorem autoAcceptCrossCurrency_writes {inv : Transaction} {c : CryptoCurrency} {m : Money}
    {n : String} {p : UnmatchedCollectorPayment} :
    OnlyWrites crossCurrencyWrites (s.autoAcceptCrossCurrency inv c m n p) := by
  refine .bind (.mapError _ getPaymentByID_writes) fun pt => .bind ?_ fun usdAmount => ?_
  · exact .bind (.read rfl) fun _ => .ret _
  refine .bind (.mapError _ (create_writes fun _ _ => .inl ⟨rfl, rfl, rfl⟩)) fun newTx => ?_
  refine .bind (.attempt (cancel_writes fun p _ hs => .inl ⟨rfl, hs⟩)) fun _ => ?_
  exact processInboundTransaction_writes_any.mono fun _ _ h => .inr h

theorem invoicePrices_writes {invoices : List Transaction} :
    OnlyWrites Φ (invoicePrices invoices) := by
  induction invoices with
  | nil => exact .ret _
  | cons inv rest ih =>
    exact .bind (.mapError _ getPaymentByID_writes) fun pt => .bind ih fun prices => .ret _

theorem resolveUnmatchedCollectorPayment_writes {p : UnmatchedCollectorPayment} :
    OnlyWrites crossCurrencyWrites (s.resolveUnmatchedCollectorPayment p) := by
  unfold resolveUnmatchedCollectorPayment
  split
  · exact .ret _
  · split
    · exact .ret _
    · split
      · exact .ret _
      · refine .bind (.attempt getByHashAndRecipient_writes) fun existing => ?_
        split
        · exact .ret _
        · refine .bind (.mapError _ listByFilter_writes) fun invoices => ?_
          refine .bind invoicePrices_writes fun prices => .bind (.attempt ?_) fun valued => ?_
          · refine .bind (.checked _) fun fiat => .bind (.read rfl) fun conv => ?_
            exact .bind (.checked _) fun _ => .checked _
          · split
            · exact .ret _
            · split
              · exact .ret _
              · split
                · exact .ret _
                · split
                  · exact .ret _
                  · split
                    · exact .ret _
                    · exact autoAcceptCrossCurrency_writes

/-- A transfer matched to an invoice writes for that invoice only. -/
theorem dedupOnDetected_writes_invoice {d : DetectedTransfer} {tx : Transaction} {amount : Money}
    {currency : CryptoCurrency} {networkID : String}
    (h : d.target = .invoice tx amount currency networkID) :
    OnlyWrites (inboundWrites tx ⟨currency, amount, d.senderAddress, d.txHash, networkID⟩)
      (s.dedupOnDetected d) := by
  refine .bind (.attempt getByHashAndRecipient_writes) fun existing => ?_
  split
  · exact .ret _
  · refine .bind (.attempt fillExistsByHashAndRecipient_writes) fun fillExists => ?_
    split
    · exact .ret _
    · unfold onDetected
      rw [h]
      exact processInboundTransaction_writes

theorem dedupOnDetected_writes {d : DetectedTransfer} :
    OnlyWrites crossCurrencyWrites (s.dedupOnDetected d) := by
  refine .bind (.attempt getByHashAndRecipient_writes) fun existing => ?_
  split
  · exact .ret _
  · refine .bind (.attempt fillExistsByHashAndRecipient_writes) fun fillExists => ?_
    split
    · exact .ret _
    · unfold onDetected
      split
      · exact processInboundTransaction_writes_any.mono fun _ _ h => .inr h
      · exact resolveUnmatchedCollectorPayment_writes

end Service

end CryptoLink
