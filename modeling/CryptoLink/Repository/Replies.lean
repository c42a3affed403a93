import CryptoLink.Repository.Frames

/-!
# What an answer tells

A statement that is answered without an error ran, and its answer is a fact
about the tables it saw.
-/

namespace CryptoLink

open KeyedTables ReadCommitted

theorem noRows_eq_ok {α : Type} {x : Option α} {a : α} (h : noRows x = .ok a) : x = some a := by
  cases x with
  | none => cases h
  | some b => cases h; rfl

theorem updateTarget_eq_some {w : World} {p : UpdateTransactionParams} {r : TransactionRow}
    (h : w.updateTarget p = some r) :
    World.updateFits p = true ∧ w.transactions.get p.id = some r ∧ r.merchantID = p.merchantID := by
  unfold World.updateTarget at h
  split at h
  · obtain ⟨hget, hm⟩ := Option.filter_eq_some_iff.mp h
    exact ⟨‹_›, hget, by simpa using hm⟩
  · cases h

theorem paymentTarget_eq_some {w : World} {id m : Int} {r : PaymentRow}
    (h : w.paymentTarget id m = some r) :
    w.payments.get id = some r ∧ r.merchantID = m := by
  obtain ⟨hget, hm⟩ := Option.filter_eq_some_iff.mp h
  exact ⟨hget, by simpa using hm⟩

theorem getTransactionByID_eq_some {w : World} {id m : Int} {f : Bool} {r : TransactionRow}
    (h : w.getTransactionByID id m f = some r) : w.transactions.get id = some r :=
  (Option.filter_eq_some_iff.mp h).1

theorem getPaymentByID_eq_some {w : World} {id m : Int} {f : Bool} {r : PaymentRow}
    (h : w.getPaymentByID id m f = some r) : w.payments.get id = some r :=
  (Option.filter_eq_some_iff.mp h).1

variable {env : Env} {w : World}

theorem reply_getTransactionByID {id m : Int} {f : Bool} {r : TransactionRow}
    (h : engine.reply (.getTransactionByID id m f) env w = .ok r) :
    w.transactions.get id = some r :=
  getTransactionByID_eq_some (noRows_eq_ok (answered_eq_ok h).2)

theorem reply_getTransactionsByFilter {p : GetTransactionsByFilterParams}
    {rows : List TransactionRow}
    (h : engine.reply (.getTransactionsByFilter p) env w = .ok rows) :
    rows = w.getTransactionsByFilter p :=
  (Except.ok.inj (answered_eq_ok h).2).symm

theorem reply_updateTransaction {p : UpdateTransactionParams} {row : TransactionRow}
    (h : engine.reply (.updateTransaction p) env w = .ok row) :
    env.fate = .done ∧ ∃ r, w.updateTarget p = some r ∧ row = World.updatedTransaction p r := by
  obtain ⟨hf, h⟩ := answered_eq_ok h
  refine ⟨hf, ?_⟩
  split at h
  · have hsome := noRows_eq_ok h
    cases htarget : w.updateTarget p with
    | none => simp [htarget] at hsome
    | some r =>
      simp only [htarget, Option.map_some, Option.some.injEq] at hsome
      exact ⟨r, rfl, hsome.symm⟩
  · cases h

theorem reply_createTransaction {p : CreateTransactionParams} {row : TransactionRow}
    (h : engine.reply (.createTransaction p) env w = .ok row) :
    env.fate = .done ∧ w.createFits p = true ∧ row = w.newTransaction p := by
  obtain ⟨hf, hanswer⟩ := answered_eq_ok h
  split at hanswer
  · exact ⟨hf, ‹_›, (Except.ok.inj hanswer).symm⟩
  · cases hanswer

theorem reply_listTransactionFills {id : Int} {rows : List FillRow} {f : FillRow}
    (h : engine.reply (.listTransactionFills id) env w = .ok rows) (hf : f ∈ rows) :
    f ∈ w.fills.rows ∧ f.key.transactionID = id := by
  obtain ⟨-, hrows⟩ := answered_eq_ok h
  obtain rfl : w.listTransactionFills id = rows := Except.ok.inj hrows
  unfold World.listTransactionFills World.fillsOf at hf
  simpa using hf

theorem reply_getPaymentByID {id m : Int} {f : Bool} {r : PaymentRow}
    (h : engine.reply (.getPaymentByID id m f) env w = .ok r) : w.payments.get id = some r :=
  getPaymentByID_eq_some (noRows_eq_ok (answered_eq_ok h).2)

theorem reply_getBalanceByFilterWithLock {p : BalanceFilter} {b : BalanceRow}
    (h : engine.reply (.getBalanceByFilterWithLock p) env w = .ok b) :
    b.key.entityType = p.entityType := by
  have hsome := noRows_eq_ok (answered_eq_ok h).2
  have := List.find?_some hsome
  simp only [Bool.and_eq_true, decide_eq_true_eq] at this
  exact this.1.1.2

theorem reply_updateBalanceByID {p : UpdateBalanceByIDParams} {b : BalanceRow}
    (h : engine.reply (.updateBalanceByID p) env w = .ok b) : b.key = p.key := by
  have hok := (answered_eq_ok h).2
  split at hok
  · cases hok
  · rename_i r hget
    split at hok
    · cases hok
      exact (Table.get_eq_some hget).2
    · cases hok

theorem reply_of_balanceTarget {p : UpdateBalanceByIDParams}
    (hdone : env.fate = .done) (htarget : (w.balanceTarget p).isSome = true) :
    ∃ b, engine.reply (.updateBalanceByID p) env w = .ok b := by
  obtain ⟨row, hrow⟩ := Option.isSome_iff_exists.mp htarget
  obtain ⟨hget, hpositive⟩ := Option.filter_eq_some_iff.mp hrow
  refine ⟨World.updatedBalance p row, (answered_done hdone _ _).trans ?_⟩
  simp only [hget]
  exact if_pos (by simpa using hpositive)

theorem reply_createBalance {p : CreateBalanceParams} {b : BalanceRow}
    (h : engine.reply (.createBalance p) env w = .ok b) : b.key = p.key := by
  have hok := (answered_eq_ok h).2
  split at hok
  · cases hok; rfl
  · cases hok

/-- Only the statements of its own table lock a transaction row. -/
theorem changes_of_transaction_lock {s : Stmt} {id : Int}
    (h : LockKey.transaction id ∈ engine.locks s env w) : s.changes = some .transactions := by
  simp only [engine_locks] at h
  split at h
  · cases h
  · cases s <;> simp only [World.locks] at h <;> first
      | rfl
      | (split at h <;> simp at h)
      | simp at h

end CryptoLink
