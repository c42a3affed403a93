import CryptoLink.Calls
import CryptoLink.Library.LastingRows
import CryptoLink.Library.Landings
import CryptoLink.Repository.Frames

/-!
# The books last

Calls of the payment flow never remove a row and never rewrite what was agreed on:
the terms of an invoice, the price of a payment, what was seen of a transfer. The
audit log is only added to.
-/

namespace CryptoLink

open KeyedTables ReadCommitted System

/-- An invoice keeps its terms; its fee can only be waived. -/
structure TransactionRow.Later (r r' : TransactionRow) : Prop where
  terms : r' = { r with
    status := r'.status
    updatedAt := r'.updatedAt
    senderAddress := r'.senderAddress
    factAmount := r'.factAmount
    transactionHash := r'.transactionHash
    networkFee := r'.networkFee
    serviceFee := r'.serviceFee
    metadata := r'.metadata }
  fee : r'.serviceFee = r.serviceFee ∨ r'.serviceFee = 0

/-- A fill keeps what was seen, and the time it was first confirmed. -/
structure FillRow.Later (r r' : FillRow) : Prop where
  sighting : r' = { r with
    confirmations := r'.confirmations
    status := r'.status
    confirmedAt := r'.confirmedAt }
  deeper : r.confirmations ≤ r'.confirmations
  confirmed : r.confirmedAt ≠ none → r'.confirmedAt = r.confirmedAt

/-- A payment keeps its merchant and its price. -/
def PaymentRow.Later (r r' : PaymentRow) : Prop :=
  r' = { r with status := r'.status, updatedAt := r'.updatedAt, expiresAt := r'.expiresAt }

def BalanceRow.Later (r r' : BalanceRow) : Prop :=
  r' = { r with updatedAt := r'.updatedAt, amount := r'.amount }

namespace TransactionRow.Later

variable {r r' : TransactionRow}

theorem merchantID (h : r.Later r') : r'.merchantID = r.merchantID := by
  rw [h.terms]

theorem type (h : r.Later r') : r'.type = r.type := by
  rw [h.terms]

theorem entityID (h : r.Later r') : r'.entityID = r.entityID := by
  rw [h.terms]

end TransactionRow.Later

theorem TransactionRow.Later.refl (r : TransactionRow) : r.Later r := ⟨rfl, .inl rfl⟩

theorem TransactionRow.Later.trans {r r' r'' : TransactionRow} (h : r.Later r')
    (h' : r'.Later r'') : r.Later r'' := by
  obtain ⟨hterms, hfee⟩ := h
  obtain ⟨hterms', hfee'⟩ := h'
  constructor
  · rw [hterms', hterms]
  · rcases hfee' with hsame | hzero
    · rw [hsame]
      exact hfee
    · exact .inr hzero

theorem FillRow.Later.refl (r : FillRow) : r.Later r := ⟨rfl, le_refl _, fun _ => rfl⟩

theorem FillRow.Later.trans {r r' r'' : FillRow} (h : r.Later r') (h' : r'.Later r'') :
    r.Later r'' := by
  obtain ⟨hsighting, hdeeper, hconfirmed⟩ := h
  obtain ⟨hsighting', hdeeper', hconfirmed'⟩ := h'
  constructor
  · rw [hsighting', hsighting]
  · omega
  · intro hset
    have hfirst := hconfirmed hset
    rw [hconfirmed' (hfirst ▸ hset), hfirst]

theorem PaymentRow.Later.refl (r : PaymentRow) : r.Later r := rfl

theorem PaymentRow.Later.trans {r r' r'' : PaymentRow} (h : r.Later r') (h' : r'.Later r'') :
    r.Later r'' := by
  rw [PaymentRow.Later] at h h' ⊢
  rw [h', h]

theorem BalanceRow.Later.refl (r : BalanceRow) : r.Later r := rfl

theorem BalanceRow.Later.trans {r r' r'' : BalanceRow} (h : r.Later r') (h' : r'.Later r'') :
    r.Later r'' := by
  rw [BalanceRow.Later] at h h' ⊢
  rw [h', h]

theorem updatedTransaction_later (p : UpdateTransactionParams) (r : TransactionRow) :
    r.Later (World.updatedTransaction p r) := by
  constructor
  · rfl
  · show (if p.removeServiceFee then 0 else r.serviceFee) = _ ∨ _
    by_cases hremoved : p.removeServiceFee = true
    · rw [if_pos hremoved]
      exact .inr (if_pos hremoved)
    · exact .inl (if_neg hremoved)

theorem cancelledTransaction_later (p : CancelTransactionParams) (r : TransactionRow) :
    r.Later (World.cancelledTransaction p r) :=
  ⟨rfl, .inl rfl⟩

theorem conflictingFill_later (p : InsertTransactionFillParams) (now : Int) (r : FillRow) :
    r.Later (World.conflictingFill p now r) := by
  constructor
  · rfl
  · exact le_max_left r.confirmations p.confirmations
  · intro hset
    exact if_neg fun h => hset h.1

theorem reorgedFill_later (r : FillRow) : r.Later (World.reorgedFill r) :=
  ⟨rfl, le_refl _, fun _ => rfl⟩

structure Later (w w' : World) : Prop where
  transactions : w.transactions.Outlasts TransactionRow.Later w'.transactions
  fills : w.fills.Outlasts FillRow.Later w'.fills
  payments : w.payments.Outlasts PaymentRow.Later w'.payments
  balances : w.balances.Outlasts BalanceRow.Later w'.balances
  auditLog : w.auditLog <+: w'.auditLog

theorem Later.of_tables {w w' : World} (ht : w'.transactions = w.transactions)
    (hf : w'.fills = w.fills) (hp : w'.payments = w.payments) (hb : w'.balances = w.balances)
    (hl : w'.auditLog = w.auditLog) : Later w w' where
  transactions := .of_eq TransactionRow.Later.refl ht
  fills := .of_eq FillRow.Later.refl hf
  payments := .of_eq PaymentRow.Later.refl hp
  balances := .of_eq BalanceRow.Later.refl hb
  auditLog := hl ▸ List.prefix_refl w.auditLog

theorem Later.refl (w : World) : Later w w := .of_tables rfl rfl rfl rfl rfl

theorem Later.trans {u v w : World} (h : Later u v) (h' : Later v w) : Later u w where
  transactions := h.transactions.trans .trans h'.transactions
  fills := h.fills.trans .trans h'.fills
  payments := h.payments.trans .trans h'.payments
  balances := h.balances.trans .trans h'.balances
  auditLog := h.auditLog.trans h'.auditLog

theorem outlasting_transactions (st : Stmt) (env : Env) (seen w : World) :
    w.transactions.Outlasts TransactionRow.Later
      (World.effect st env seen w).transactions := by
  intro id r hr
  rcases World.transaction_effect_cases st env seen w id with hsame | ⟨p, -, -, -, hnew⟩ |
    ⟨p, -, -, -, hnew⟩ | ⟨p, -, -, -, hnone, -⟩
  · exact ⟨r, hsame.trans hr, .refl r⟩
  · exact ⟨_, hnew.trans (congrArg _ hr), updatedTransaction_later p r⟩
  · exact ⟨_, hnew.trans (congrArg _ hr), cancelledTransaction_later p r⟩
  · cases hnone.symm.trans hr

theorem outlasting_fills (st : Stmt) (env : Env) (seen w : World) :
    w.fills.Outlasts FillRow.Later (World.effect st env seen w).fills := by
  intro key r hr
  rcases World.fill_effect_cases st env seen w key with hsame | ⟨p, -, -, -, hnone, -⟩ |
    ⟨p, r', -, -, -, hold, hnew⟩ | ⟨-, -, hnew⟩
  · exact ⟨r, hsame.trans hr, .refl r⟩
  · cases hnone.symm.trans hr
  · obtain rfl := Option.some.inj (hold.symm.trans hr)
    exact ⟨_, hnew, conflictingFill_later p env.clock r'⟩
  · exact ⟨_, hnew.trans (congrArg _ hr), reorgedFill_later r⟩

theorem outlasting_payments (st : Stmt) (env : Env) (seen w : World) :
    w.payments.Outlasts PaymentRow.Later (World.effect st env seen w).payments := by
  intro id r hr
  rcases World.payment_effect_cases st env seen w id with hsame | ⟨p, -, -, -, hnew⟩ |
    ⟨p, -, -, -, hnew⟩ | ⟨p, -, -, -, hnone, -⟩
  · exact ⟨r, hsame.trans hr, rfl⟩
  · exact ⟨_, hnew.trans (congrArg _ hr), rfl⟩
  · exact ⟨_, hnew.trans (congrArg _ hr), rfl⟩
  · cases hnone.symm.trans hr

theorem outlasting_balances (st : Stmt) (env : Env) (seen w : World) :
    w.balances.Outlasts BalanceRow.Later (World.effect st env seen w).balances := by
  intro key r hr
  rw [World.effect_balance, hr]
  cases st <;> try exact ⟨r, rfl, rfl⟩
  case createBalance p =>
    rw [World.balanceAfter]
    split
    · exact ⟨r, rfl, rfl⟩
    · exact ⟨r, rfl, rfl⟩
  case updateBalanceByID p =>
    rw [World.balanceAfter]
    split
    · exact ⟨_, rfl, rfl⟩
    · exact ⟨r, rfl, rfl⟩

theorem outlasting_auditLog (st : Stmt) (env : Env) (seen w : World) :
    w.auditLog <+: (World.effect st env seen w).auditLog := by
  by_cases hst : st.changes = some .auditLog
  · cases st with
    | insertBalanceAuditLog p => exact List.prefix_append _ _
    | _ => cases hst
  · have hsame : (World.effect st env seen w).auditLog = w.auditLog := World.effect_auditLog hst
    exact hsame.symm ▸ List.prefix_refl w.auditLog

theorem later_effect (st : Stmt) (env : Env) (seen w : World) :
    Later w (engine.effect st env seen w) := by
  rw [engine_effect]
  split
  · exact .refl w
  · exact ⟨outlasting_transactions st env seen w, outlasting_fills st env seen w,
      outlasting_payments st env seen w, outlasting_balances st env seen w,
      outlasting_auditLog st env seen w⟩

theorem later_lasting (st : Stmt) (env : Env) (w : World) :
    Later w (engine.lasting st env w) := by
  rw [engine_lasting]
  split
  · exact .refl w
  · exact .of_tables (lasting_transactions st w) (lasting_fills st w) (lasting_payments st w)
      (lasting_balances st w) (lasting_auditLog st w)

theorem later_move (m : Move) (w : World) : Later w (m.apply w) :=
  .of_tables (m.apply_transactions w) (m.apply_fills w) (m.apply_payments w) (m.apply_balances w)
    (m.apply_auditLog w)

theorem later_replay (log : Log Stmt Env World) (w : World) : Later w (engine.replay log w) := by
  induction log generalizing w with
  | nil => exact .refl w
  | cons e log ih => exact (later_effect e.stmt e.env e.seen w).trans (ih _)

namespace Service

variable (s : Service)

theorem booksKeeper : Keeper s.system (fun _ => True) (fun _ _ => True) Later where
  refl := .refl
  trans := .trans
  program _ := StatementPrograms.Issues.always fun _ _ _ _ => trivial
  effect e w _ _ := later_effect e.stmt e.env e.seen w
  lasting st env w _ := later_lasting st env w
  move := later_move

/-- Whatever is in the books at one point of a run is in them, with the same terms, at every
later point. -/
theorem books_last (w : World) (es fs : Run) :
    Later (s.system.run ⟨w, []⟩ es).world (s.system.run ⟨w, []⟩ (es ++ fs)).world := by
  rw [run_append]
  exact (s.booksKeeper.run_always (issued_always _) fs).2

end Service

end CryptoLink
