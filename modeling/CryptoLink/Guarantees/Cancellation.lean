import CryptoLink.Alone
import CryptoLink.Repository.Replies

/-!
# One failing transfer of several

Once an invoice has left `pending`, a single stored hash stands for all its
transfers. A check that gives up on that hash fails the transaction and the
payment, whatever the other fills are worth on chain; and no other check does.
-/

namespace CryptoLink

open ReadCommitted StatementPrograms KeyedTables

/-- A fill other than the stored one is confirmed, and its transfer succeeded. -/
def anotherFillSucceeded (w : World) (row : TransactionRow) : Prop :=
  ∃ f ∈ w.fillsOf row.id, f.status = .confirmed ∧
    row.transactionHash ≠ some f.key.transactionHash ∧
    ∃ c ∈ w.findChainTx row.blockchain f.key.transactionHash row.isTest, c.success = true

/-- The row is failed only if it was, and so is its payment. -/
structure NotForfeited (row : TransactionRow) (before after : World) : Prop where
  transaction : ∀ r ∈ transactionRow row.id after, r.status = .failed → row.status = .failed
  payment : ∀ p ∈ paymentRow (row.entityID.getD 0) after, p.status = .failed →
    ∃ p₀ ∈ paymentRow (row.entityID.getD 0) before, p₀.status = .failed

namespace Service

variable {s : Service} {tx : Transaction} {envs : ℕ → Env} {w : World} {n : ℕ}

/-- What the poller asks a node about: an incoming transaction in progress with
a hash, a sender and a recipient. -/
structure Awaits (tx : Transaction) (hash sender : String) : Prop where
  incoming : tx.type = .incoming
  hash : tx.hashID = some hash
  sender : tx.senderAddress = some sender
  recipient : (tx.recipientWalletID.isNone && tx.recipientAddress = "") = false
  open_ : tx.isInProgress = true

/-- The node's answer and the step after it. -/
def lookup (s : Service) (envs : ℕ → Env) (w : World) (tx : Transaction) (hash : String) :
    Except Err TransactionReceipt × ℕ :=
  let run := engine.alone envs (s.getTransactionReceipt tx.currency.blockchain hash tx.isTest) 1
    ⟨w, .idle⟩
  (run.1, run.2.1)

/-- The step at which the cancellation starts: a confirmed failure at once, an
unknown or unconfirmed transfer after 24 hours. -/
def givesUpAt (envs : ℕ → Env) (updatedAt : Int) :
    Except Err TransactionReceipt × ℕ → Option ℕ
  | (.error _, n) =>
      if inProgressTimeout < (envs n).clock - updatedAt then some (n + 1) else none
  | (.ok r, n) =>
      if r.isConfirmed then if r.success then none else some n
      else if inProgressTimeout < (envs n).clock - updatedAt then some (n + 1) else none

/-- The check gives up on the stored hash, and its cancellation gets through. -/
def GivesUp (s : Service) (envs : ℕ → Env) (w : World) (row : TransactionRow) : Prop :=
  (envs 0).fate = .done ∧ ∃ tx hash sender k, s.entryToTransaction row = .ok tx ∧
    Awaits tx hash sender ∧ givesUpAt envs row.updatedAt (s.lookup envs w tx hash) = some k ∧
    (envs k).fate = .done ∧ (envs (k + 2)).fate ≠ .refused

def cancellation (tx : Transaction) (now : Int) : CancelTransactionParams where
  id := tx.id
  status := .failed
  updatedAt := now
  metadata := MetaData.toJSONB [(Transaction.metaComment, revertReason)]
  networkFee := none
  setNetworkFee := false

/-- The statement runs on the pool, so neither outcome of the transaction
around it takes it back. -/
theorem alone_cancel :
    engine.alone envs (cancel tx .failed revertReason) n ⟨w, .idle⟩ =
      if (envs n).fate = .done then
        (match engine.reply (.cancelTransaction (cancellation tx (envs (n + 1)).clock))
            (envs (n + 2)) w with
          | .error e => .error (e.wrap "unable to cancel transaction")
          | .ok u => if (envs (n + 3)).fate = .done then .ok u else .error (Err.of .database),
          n + 4, ⟨engine.autocommit (.cancelTransaction (cancellation tx (envs (n + 1)).clock))
            (envs (n + 2)) w, .idle⟩)
      else (.error (Err.of .database), n + 1, ⟨w, .idle⟩) := by
  let body : Call Unit := timeNow.bind fun now =>
    (ask .pool (.cancelTransaction (cancellation tx now))).bind fun done =>
      succeed (wrapErr "unable to cancel transaction" done)
  have hcancel : cancel tx .failed revertReason = runTx body := rfl
  have hclock : engine.autocommit .timeNow (envs (n + 1)) w = w := autocommit_of_read rfl _ _
  have hbody : engine.alone envs body (n + 1) ⟨w, some [], []⟩ = _ :=
    engine.alone_ofExcept envs (wrapErr "unable to cancel transaction"
      (engine.reply (.cancelTransaction (cancellation tx (envs (n + 1)).clock)) (envs (n + 2))
        (engine.autocommit .timeNow (envs (n + 1)) w))) (n + 3)
      ⟨engine.autocommit (.cancelTransaction (cancellation tx (envs (n + 1)).clock)) (envs (n + 2))
        (engine.autocommit .timeNow (envs (n + 1)) w), some [], []⟩
  rw [hcancel, runTx, show (⟨w, .idle⟩ : View Stmt Env World LockKey) = ⟨w, none, []⟩ from rfl,
    Engine.alone_runTransaction, hbody, hclock]
  by_cases hdone : (envs n).fate = .done
  · rw [if_pos (by simp [engine, hdone]), if_pos hdone]
    cases engine.reply (.cancelTransaction (cancellation tx (envs (n + 1)).clock))
        (envs (n + 2)) w with
    | error e => rfl
    | ok u =>
      -- the log is empty, so a commit that is lost changes nothing either
      cases hfate : (envs (n + 3)).fate <;>
        simp [Engine.perform, engine, hfate, Engine.replay] <;> rfl
  · rw [if_neg (by simp [engine, hdone]), if_neg hdone]

/-- A row in progress goes on to the settlement of what the node says. -/
theorem alone_check_of_awaits {id : Int} {row : TransactionRow} {hash sender : String}
    (hrow : transactionRow id w = some row) (hdone : (envs 0).fate = .done)
    (htx : s.entryToTransaction row = .ok tx) (hawaits : Awaits tx hash sender) :
    worldAfter (s.checkIncomingTransaction id) envs w =
      (engine.alone envs (s.settle tx sender hash (s.lookup envs w tx hash).1)
        (s.lookup envs w tx hash).2 ⟨w, .idle⟩).2.2.world := by
  obtain ⟨hincoming, hhash, hsender, hrecipient, hopen⟩ := hawaits
  have hreply : engine.reply (.getTransactionByID id Transaction.merchantIDWildcard false)
      (envs 0) w = .ok row := by
    have hget : w.transactions.get id = some row := hrow
    simp [engine, World.answer, answered, hdone, World.getTransactionByID, hget, noRows,
      Option.filter]
  have hfound : engine.alone envs (s.getTransactionByID Transaction.merchantIDWildcard id) 0
      ⟨w, .idle⟩ = (.ok tx, 1, ⟨w, .idle⟩) := by
    refine (alone_read_then (.getTransactionByID id Transaction.merchantIDWildcard false) rfl
      s.toTransaction envs 0 w .idle).trans ?_
    rw [hreply]
    exact congrArg (fun x => (x, 1, _)) htx
  have hnode : engine.alone envs (s.getTransactionReceipt tx.currency.blockchain hash tx.isTest) 1
      ⟨w, .idle⟩ = ((s.lookup envs w tx hash).1, (s.lookup envs w tx hash).2, ⟨w, .idle⟩) := by
    have hview : OnlyReads (s.getTransactionReceipt tx.currency.blockchain hash tx.isTest) :=
      getTransactionReceipt_reads
    exact Prod.ext rfl (Prod.ext rfl (hview.alone_view envs 1 ⟨w, .idle⟩))
  unfold worldAfter checkIncomingTransaction
  simp only [Prog.bind_eq, Engine.alone_bind, Engine.alone_mapError, hfound, Except.mapError,
    hincoming, hhash, hsender, hrecipient, hopen, ne_eq, not_true_eq_false, if_false, if_true]
  rw [if_neg Bool.false_ne_true, Engine.alone_bind, Engine.alone_attempt, hnode]

/-- Every other row is left alone. -/
theorem alone_check_of_not_awaits {id : Int}
    (h : ∀ row ∈ transactionRow id w, ∀ tx hash sender, (envs 0).fate = .done →
      s.entryToTransaction row = .ok tx → ¬ Awaits tx hash sender) :
    worldAfter (s.checkIncomingTransaction id) envs w = w := by
  have hrun := alone_read_then (.getTransactionByID id Transaction.merchantIDWildcard false)
    rfl s.toTransaction envs 0 w .idle
  have hfound : engine.alone envs (s.getTransactionByID Transaction.merchantIDWildcard id) 0
      ⟨w, .idle⟩ = _ := hrun
  unfold worldAfter checkIncomingTransaction
  rw [Prog.bind_eq, Engine.alone_bind, Engine.alone_mapError, hfound]
  cases htx : s.toTransaction (engine.reply
      (.getTransactionByID id Transaction.merchantIDWildcard false) (envs 0) w) with
  | error e => rfl
  | ok tx =>
    obtain ⟨row, hreply, hentry⟩ := toTransaction_eq_ok s htx
    have hrow : row ∈ transactionRow id w := reply_getTransactionByID hreply
    have hnot := fun hash sender => h row hrow tx hash sender (answered_eq_ok hreply).1 hentry
    simp only [Except.mapError]
    split
    · rfl
    · rename_i hincoming
      split
      · rfl
      · rename_i hash hhash
        split
        · rfl
        · rename_i sender hsender
          split
          · rfl
          · rename_i hrecipient
            split
            · rename_i hopen
              refine absurd ⟨?_, hhash, hsender, ?_, hopen⟩ (hnot hash sender)
              · simpa using hincoming
              · simpa using hrecipient
            · rfl

theorem notForfeited_effect {row : TransactionRow} {before : World} {q : Conn} {st : Stmt}
    {env : Env} {seen : World} (hst : confirmWrites q st) (h : NotForfeited row before w) :
    NotForfeited row before (World.effect st env seen w) := by
  constructor
  · intro r hr hfailed
    rcases World.transaction_effect_cases st env seen w row.id with hsame | ⟨p, rfl, -, -, hnew⟩ |
      ⟨p, rfl, -⟩ | ⟨p, rfl, -⟩
    · rw [transactionRow, hsame] at hr
      exact h.transaction r hr hfailed
    · rw [transactionRow, hnew] at hr
      obtain ⟨r', -, rfl⟩ := Option.map_eq_some_iff.mp hr
      obtain ⟨-, hstatus | hstatus⟩ := hst <;>
        simp [World.updatedTransaction, hstatus] at hfailed
    · exact hst.elim
    · exact hst.elim
  · intro p hp hfailed
    rcases World.payment_effect_cases st env seen w (row.entityID.getD 0) with hsame |
      ⟨u, rfl, -, -, hnew⟩ | ⟨u, rfl, -⟩ | ⟨u, rfl, -⟩
    · rw [paymentRow, hsame] at hp
      exact h.payment p hp hfailed
    · rw [paymentRow, hnew] at hp
      obtain ⟨p', -, rfl⟩ := Option.map_eq_some_iff.mp hp
      obtain ⟨-, hstatus | hstatus⟩ := hst <;> simp [World.updatedPayment, hstatus] at hfailed
    · exact hst.elim
    · exact hst.elim

theorem notForfeited_refl (row : TransactionRow) (h : transactionRow row.id w = some row) :
    NotForfeited row w w := by
  refine ⟨fun r hr hfailed => ?_, fun p hp hfailed => ⟨p, hp, hfailed⟩⟩
  obtain rfl : row = r := by simpa [h] using hr
  exact hfailed

theorem confirmIncomingTransaction_notForfeited {row : TransactionRow} {sender hash : String}
    {receipt : TransactionReceipt} (h : transactionRow row.id w = some row) :
    NotForfeited row w (engine.alone envs (s.confirmIncomingTransaction tx sender hash receipt) n
      ⟨w, .idle⟩).2.2.world := by
  refine (confirmIncomingTransaction_writes.alone_keeps (J := NotForfeited row w)
    (fun q st env seen w' hst hw' => notForfeited_effect hst hw') (fun q st w' _ hw' => ?_) envs
    (Engine.within_idle (notForfeited_refl row h))).world
  constructor
  · intro r hr
    rw [transactionRow, lasting_transactions] at hr
    exact hw'.transaction r hr
  · intro p hp
    rw [paymentRow, lasting_payments] at hp
    exact hw'.payment p hp

theorem alone_settle_of_givesUp {sender hash : String} {receipt : Except Err TransactionReceipt}
    {k : ℕ} (h : givesUpAt envs tx.updatedAt (receipt, n) = some k) :
    engine.alone envs (s.settle tx sender hash receipt) n ⟨w, .idle⟩ =
      engine.alone envs (cancelIncomingTransaction tx) k ⟨w, .idle⟩ := by
  cases receipt with
  | error e =>
    simp only [givesUpAt] at h
    split at h
    · rename_i hlate
      cases h
      simp only [settle, Prog.bind_eq, alone_timeNow, hlate, if_true]
    · cases h
  | ok r =>
    simp only [givesUpAt] at h
    by_cases hconfirmed : r.isConfirmed = true
    · by_cases hsuccess : r.success = true
      · simp [hconfirmed, hsuccess] at h
      · simp only [hconfirmed, hsuccess, if_true] at h
        cases h
        simp only [settle, hconfirmed, hsuccess, if_true]
        rfl
    · rw [if_neg hconfirmed] at h
      split at h
      · rename_i hlate
        cases h
        simp only [settle, if_neg hconfirmed, Prog.bind_eq, alone_timeNow, hlate, if_true]
      · cases h

theorem settle_notForfeited {row : TransactionRow} {sender hash : String}
    {receipt : Except Err TransactionReceipt} (hrow : transactionRow row.id w = some row)
    (h : givesUpAt envs tx.updatedAt (receipt, n) = none) :
    NotForfeited row w
      (engine.alone envs (s.settle tx sender hash receipt) n ⟨w, .idle⟩).2.2.world := by
  cases receipt with
  | error e =>
    simp only [givesUpAt] at h
    split at h
    · cases h
    · rename_i hearly
      simp only [settle, Prog.bind_eq, alone_timeNow, if_neg hearly, Engine.alone_fail]
      exact notForfeited_refl row hrow
  | ok r =>
    simp only [givesUpAt] at h
    by_cases hconfirmed : r.isConfirmed = true
    · by_cases hsuccess : r.success = true
      · simp only [settle, hconfirmed, hsuccess, if_true]
        exact confirmIncomingTransaction_notForfeited hrow
      · simp [hconfirmed, hsuccess] at h
    · rw [if_neg hconfirmed] at h
      split at h
      · cases h
      · rename_i hearly
        simp only [settle, if_neg hconfirmed, Prog.bind_eq, alone_timeNow, if_neg hearly,
          Prog.pure_eq, Engine.alone_ret]
        exact notForfeited_refl row hrow

/-- A cancellation that gets through fails the row. -/
theorem cancelIncomingTransaction_fails {row : TransactionRow}
    (hrow : transactionRow tx.id w = some row) (hdone : (envs n).fate = .done)
    (hlands : (envs (n + 2)).fate ≠ .refused) :
    ∃ r ∈ transactionRow tx.id
      (engine.alone envs (cancelIncomingTransaction tx) n ⟨w, .idle⟩).2.2.world,
      r.status = .failed := by
  let cancelled := engine.autocommit
    (.cancelTransaction (cancellation tx (envs (n + 1)).clock)) (envs (n + 2)) w
  have hcancelled : transactionRow tx.id cancelled =
      some (World.cancelledTransaction (cancellation tx (envs (n + 1)).clock) row) := by
    have hget : w.transactions.get tx.id = some row := hrow
    simp only [cancelled, Engine.autocommit, engine_effect, engine_lasting, hlands, if_false,
      World.lasting, World.effect, cancellation, hget, transactionRow]
    rw [Table.get_modify_self, hget]
    rfl
  -- the payment is updated afterwards or not; the row is not touched again
  have hrest : ∀ (m : Int) (id : Int) (k : ℕ), transactionRow tx.id (engine.alone envs
      ((updatePayment m id .failed).mapError (Err.wrap "unable to update payment")) k
        ⟨cancelled, .idle⟩).2.2.world = transactionRow tx.id cancelled := by
    intro m id k
    have hwrites : OnlyWrites (fun _ st => st.changes ≠ some .transactions)
        ((updatePayment m id .failed).mapError (Err.wrap "unable to update payment")) :=
      .mapError _ (updatePayment_writes fun _ _ _ _ => (fun h => by cases h))
    refine (hwrites.alone_keeps
      (J := fun w' => transactionRow tx.id w' = transactionRow tx.id cancelled)
      (fun q st env seen w' hst hw' => ?_) (fun q st w' _ hw' => ?_) envs
      (Engine.within_idle rfl)).world
    · rw [transactionRow, World.effect_transactions hst]
      exact hw'
    · rw [transactionRow, lasting_transactions]
      exact hw'
  have hafter : transactionRow tx.id
      (engine.alone envs (cancelIncomingTransaction tx) n ⟨w, .idle⟩).2.2.world =
        transactionRow tx.id cancelled := by
    obtain ⟨x, k, hrun⟩ : ∃ x k, engine.alone envs (cancel tx .failed revertReason) n
        ⟨w, .idle⟩ = (x, k, ⟨cancelled, .idle⟩) := by
      rw [alone_cancel, if_pos hdone]
      exact ⟨_, _, rfl⟩
    rw [cancelIncomingTransaction, Prog.bind_eq, Engine.alone_bind, Engine.alone_mapError, hrun]
    cases x with
    | error e => rfl
    | ok u =>
      simp only [Except.mapError]
      split
      · rfl
      · rw [Prog.bind_eq, Engine.alone_bind, ← hrest tx.merchantID tx.entityID k]
        rcases engine.alone envs ((updatePayment tx.merchantID tx.entityID .failed).mapError
          (Err.wrap "unable to update payment")) k ⟨cancelled, .idle⟩ with ⟨e | pt, k', v'⟩ <;> rfl
  exact ⟨_, hafter.trans hcancelled, rfl⟩

/-- One that does not get through changes nothing. -/
theorem cancelIncomingTransaction_refused
    (h : (envs n).fate ≠ .done ∨ (envs (n + 2)).fate = .refused) :
    (engine.alone envs (cancelIncomingTransaction tx) n ⟨w, .idle⟩).2.2.world = w := by
  obtain ⟨e, k, hrun⟩ : ∃ e k, engine.alone envs (cancel tx .failed revertReason) n
      ⟨w, .idle⟩ = (.error e, k, ⟨w, .idle⟩) := by
    rw [alone_cancel]
    by_cases hdone : (envs n).fate = .done
    · have hrefused := h.resolve_left (not_not.mpr hdone)
      rw [if_pos hdone]
      refine ⟨(Err.of .database).wrap "unable to cancel transaction", n + 4, ?_⟩
      simp [Engine.autocommit, engine, World.answer, answered, hrefused]
    · rw [if_neg hdone]
      exact ⟨_, _, rfl⟩
  rw [cancelIncomingTransaction, Prog.bind_eq, Engine.alone_bind, Engine.alone_mapError, hrun]
  rfl

/-- A check leaves an invoice with another successful transfer unforfeited
exactly if it does not give up on the stored one. -/
theorem one_failing_transfer_iff (s : Service) (id : Int) (envs : ℕ → Env) (w : World) :
    (∀ row ∈ transactionRow id w, anotherFillSucceeded w row →
        NotForfeited row w (worldAfter (s.checkIncomingTransaction id) envs w)) ↔
      ∀ row ∈ transactionRow id w, anotherFillSucceeded w row → ¬ s.GivesUp envs w row := by
  refine forall₂_congr fun row hrow => imp_congr_right fun _ => ?_
  have hid : row.id = id := (Table.get_eq_some hrow).2
  have hself : transactionRow row.id w = some row := hid ▸ hrow
  have fields : ∀ tx, s.entryToTransaction row = .ok tx →
      tx.id = row.id ∧ tx.status = row.status ∧ tx.updatedAt = row.updatedAt := by
    intro tx htx
    obtain ⟨currency, fee, -, -, rfl⟩ := entryToTransaction_eq_ok s htx
    exact ⟨rfl, rfl, rfl⟩
  constructor
  · rintro hkept ⟨hdone, tx, hash, sender, k, htx, hawaits, hgives, hopens, hlands⟩
    obtain ⟨hsame, hstatus, hupdated⟩ := fields tx htx
    have hafter := alone_check_of_awaits hrow hdone htx hawaits
    rw [alone_settle_of_givesUp (hupdated ▸ hgives)] at hafter
    obtain ⟨r, hr, hfailed⟩ := cancelIncomingTransaction_fails (hsame ▸ hself) hopens hlands
    rw [← hafter, hsame] at hr
    have hopen := hawaits.open_
    rw [Transaction.isInProgress, hstatus, hkept.transaction r hr hfailed] at hopen
    cases hopen
  · intro hnot
    by_cases hawaiting : ∃ tx hash sender, (envs 0).fate = .done ∧
        s.entryToTransaction row = .ok tx ∧ Awaits tx hash sender
    · obtain ⟨tx, hash, sender, hdone, htx, hawaits⟩ := hawaiting
      obtain ⟨-, -, hupdated⟩ := fields tx htx
      rw [alone_check_of_awaits hrow hdone htx hawaits]
      rcases hlookup : s.lookup envs w tx hash with ⟨receipt, n⟩
      cases hgives : givesUpAt envs tx.updatedAt (receipt, n) with
      | none => exact settle_notForfeited hself hgives
      | some k =>
        rw [alone_settle_of_givesUp hgives, cancelIncomingTransaction_refused]
        · exact notForfeited_refl row hself
        · by_contra hthrough
          push Not at hthrough
          have hrow_gives : givesUpAt envs row.updatedAt (s.lookup envs w tx hash) = some k := by
            rw [← hupdated, hlookup]
            exact hgives
          exact hnot ⟨hdone, tx, hash, sender, k, htx, hawaits, hrow_gives, hthrough.1, hthrough.2⟩
    · rw [alone_check_of_not_awaits]
      · exact notForfeited_refl row hself
      · rintro row' hrow' tx hash sender hdone htx hawaits
        obtain rfl : row = row' := Option.some.inj (hrow.symm.trans hrow')
        exact hawaiting ⟨tx, hash, sender, hdone, htx, hawaits⟩

end Service

open Sample

/-- Sixty confirmed on chain, fifty reverted, and the fifty's hash stored. -/
def oneOfTwoReverted : World :=
  Sample.world (invoice .inProgress (some "0xb") (some "payer") (some 110)) .inProgress
    [fill "0xa" 60 0 .confirmed, fill "0xb" 50 1 .confirmed]
    [mined "0xa" 60 true, mined "0xb" 50 false]

theorem one_failing_transfer_forfeits_all :
    ¬ ∀ (s : Service) (id : Int) (envs : ℕ → Env) (w : World), ∀ row ∈ transactionRow id w,
      anotherFillSucceeded w row →
        NotForfeited row w (worldAfter (s.checkIncomingTransaction id) envs w) := by
  intro h
  have hkept := h service 1 (fun _ => {}) oneOfTwoReverted
    (invoice .inProgress (some "0xb") (some "payer") (some 110)) (by decide +kernel)
    ⟨fill "0xa" 60 0 .confirmed, by decide +kernel, rfl, by decide, mined "0xa" 60 true,
      by decide +kernel, rfl⟩
  have hfailed := hkept.transaction
    { invoice .inProgress (some "0xb") (some "payer") (some 110) with
      status := .failed
      metadata := some [("comment", revertReason)] } (by decide +kernel) rfl
  cases hfailed

end CryptoLink
