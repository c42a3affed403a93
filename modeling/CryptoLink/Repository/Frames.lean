import CryptoLink.Library.Landings
import CryptoLink.Library.LockedRows
import CryptoLink.Repository.Statements

/-!
# What a statement leaves alone

A statement changes at most one table, and in it only rows it locks. Every
invariant of a run is read off these facts, never off the statements.
-/

namespace CryptoLink

open KeyedTables ReadCommitted

inductive TableName where
  | transactions
  | fills
  | payments
  | balances
  | auditLog
  deriving DecidableEq, Repr

/-- The table a statement may change. -/
def Stmt.changes : Stmt → Option TableName
  | .createTransaction _ => some .transactions
  | .updateTransaction _ => some .transactions
  | .cancelTransaction _ => some .transactions
  | .insertTransactionFill _ => some .fills
  | .markFillReorged _ => some .fills
  | .createPayment _ => some .payments
  | .updatePayment _ => some .payments
  | .extendPaymentExpiry _ => some .payments
  | .createBalance _ => some .balances
  | .updateBalanceByID _ => some .balances
  | .insertBalanceAuditLog _ => some .auditLog
  | _ => none

def transactionRow (id : Int) (w : World) : Option TransactionRow := w.transactions.get id

def paymentRow (id : Int) (w : World) : Option PaymentRow := w.payments.get id

namespace World

variable {s : Stmt} {env : Env} {seen w : World}

theorem effect_transactions (h : s.changes ≠ some .transactions) :
    (effect s env seen w).transactions = w.transactions := by
  cases s <;> simp only [Stmt.changes, ne_eq, not_true_eq_false] at h <;>
    simp only [effect] <;> split <;> try rfl
  split <;> rfl

theorem effect_fills (h : s.changes ≠ some .fills) :
    (effect s env seen w).fills = w.fills := by
  cases s <;> simp only [Stmt.changes, ne_eq, not_true_eq_false] at h <;>
    simp only [effect] <;> split <;> rfl

theorem effect_payments (h : s.changes ≠ some .payments) :
    (effect s env seen w).payments = w.payments := by
  cases s <;> simp only [Stmt.changes, ne_eq, not_true_eq_false] at h <;>
    simp only [effect] <;> split <;> try rfl
  split <;> rfl

theorem effect_balances (h : s.changes ≠ some .balances) :
    (effect s env seen w).balances = w.balances := by
  cases s <;> simp only [Stmt.changes, ne_eq, not_true_eq_false] at h <;>
    simp only [effect] <;> split <;> try rfl
  split <;> rfl

theorem effect_auditLog (h : s.changes ≠ some .auditLog) :
    (effect s env seen w).auditLog = w.auditLog := by
  cases s <;> simp only [Stmt.changes, ne_eq, not_true_eq_false] at h <;>
    simp only [effect] <;> split <;> try rfl
  split <;> rfl

/-- No statement of the payment flow registers a collector. -/
theorem effect_collectors : (effect s env seen w).collectors = w.collectors := by
  cases s <;> simp only [effect] <;> split <;> try rfl
  split <;> rfl

/-- A read leaves everything alone. -/
theorem effect_of_read (h : s.changes = none) : effect s env seen w = w := by
  cases s <;> first | rfl | cases h

/-- Everything a statement can do to the row `id` of `transactions`. -/
theorem transaction_effect_cases (s : Stmt) (env : Env) (seen w : World) (id : Int) :
    (effect s env seen w).transactions.get id = w.transactions.get id ∨
    (∃ p, s = .updateTransaction p ∧ p.id = id ∧ (seen.updateTarget p).isSome ∧
      (effect s env seen w).transactions.get id =
        (w.transactions.get id).map (updatedTransaction p)) ∨
    (∃ p, s = .cancelTransaction p ∧ p.id = id ∧ (seen.transactions.get id).isSome ∧
      (effect s env seen w).transactions.get id =
        (w.transactions.get id).map (cancelledTransaction p)) ∨
    (∃ p, s = .createTransaction p ∧ seen.createFits p ∧ seen.nextTransactionID = id ∧
      w.transactions.get id = none ∧
      (effect s env seen w).transactions.get id = some (seen.newTransaction p)) := by
  by_cases hs : s.changes = some .transactions
  · cases s <;> simp only [Stmt.changes, Option.some.injEq, reduceCtorEq] at hs
    case createTransaction p =>
      by_cases hfit : seen.createFits p
      · by_cases hid : seen.nextTransactionID = id
        · have hkey : id = (seen.newTransaction p).id := hid.symm
          cases hget : w.transactions.get id with
          | none =>
            refine .inr (.inr (.inr ⟨p, rfl, hfit, hid, rfl, ?_⟩))
            simp only [effect, hfit, if_true]
            rw [hkey]
            exact Table.get_insert_self _ (hkey ▸ hget)
          | some r =>
            left
            simp only [effect, hfit, if_true]
            rw [Table.insert_of_taken _ (hkey ▸ hget), hget]
        · left
          simp only [effect, hfit, if_true]
          exact Table.get_insert_of_ne _ fun h => hid h.symm
      · left; simp [effect, hfit]
    case updateTransaction p =>
      cases htarget : seen.updateTarget p with
      | none => left; simp [effect, htarget]
      | some r =>
        by_cases hid : p.id = id
        · subst hid
          refine .inr (.inl ⟨p, rfl, rfl, by simp [htarget], ?_⟩)
          simp only [effect, htarget]
          exact Table.get_modify_self _ _ _ _
        · left
          simp only [effect, htarget]
          exact Table.get_modify_of_ne _ _ _ fun h => hid h.symm
    case cancelTransaction p =>
      cases htarget : seen.transactions.get p.id with
      | none => left; simp [effect, htarget]
      | some r =>
        by_cases hid : p.id = id
        · subst hid
          refine .inr (.inr (.inl ⟨p, rfl, rfl, by simp [htarget], ?_⟩))
          simp only [effect, htarget]
          exact Table.get_modify_self _ _ _ _
        · left
          simp only [effect, htarget]
          exact Table.get_modify_of_ne _ _ _ fun h => hid h.symm
  · left
    rw [effect_transactions hs]

/-- Everything a statement can do to the row `id` of `payments`. -/
theorem payment_effect_cases (s : Stmt) (env : Env) (seen w : World) (id : Int) :
    (effect s env seen w).payments.get id = w.payments.get id ∨
    (∃ p, s = .updatePayment p ∧ p.id = id ∧ (seen.paymentTarget p.id p.merchantID).isSome ∧
      (effect s env seen w).payments.get id = (w.payments.get id).map (updatedPayment p)) ∨
    (∃ p, s = .extendPaymentExpiry p ∧ p.id = id ∧
      (seen.paymentTarget p.id p.merchantID).isSome ∧
      (effect s env seen w).payments.get id = (w.payments.get id).map (extendedPayment p)) ∨
    (∃ p, s = .createPayment p ∧ paymentFits p ∧ seen.nextPaymentID = id ∧
      w.payments.get id = none ∧
      (effect s env seen w).payments.get id = some (seen.newPayment p)) := by
  by_cases hs : s.changes = some .payments
  · cases s <;> simp only [Stmt.changes, Option.some.injEq, reduceCtorEq] at hs
    case createPayment p =>
      by_cases hfit : paymentFits p
      · by_cases hid : seen.nextPaymentID = id
        · have hkey : id = (seen.newPayment p).id := hid.symm
          cases hget : w.payments.get id with
          | none =>
            refine .inr (.inr (.inr ⟨p, rfl, hfit, hid, rfl, ?_⟩))
            simp only [effect, hfit, if_true]
            rw [hkey]
            exact Table.get_insert_self _ (hkey ▸ hget)
          | some r =>
            left
            simp only [effect, hfit, if_true]
            rw [Table.insert_of_taken _ (hkey ▸ hget), hget]
        · left
          simp only [effect, hfit, if_true]
          exact Table.get_insert_of_ne _ fun h => hid h.symm
      · left; simp [effect, hfit]
    case updatePayment p =>
      cases htarget : seen.paymentTarget p.id p.merchantID with
      | none => left; simp [effect, htarget]
      | some r =>
        by_cases hid : p.id = id
        · subst hid
          refine .inr (.inl ⟨p, rfl, rfl, by simp [htarget], ?_⟩)
          simp only [effect, htarget]
          exact Table.get_modify_self _ _ _ _
        · left
          simp only [effect, htarget]
          exact Table.get_modify_of_ne _ _ _ fun h => hid h.symm
    case extendPaymentExpiry p =>
      cases htarget : seen.paymentTarget p.id p.merchantID with
      | none => left; simp [effect, htarget]
      | some r =>
        by_cases hid : p.id = id
        · subst hid
          refine .inr (.inr (.inl ⟨p, rfl, rfl, by simp [htarget], ?_⟩))
          simp only [effect, htarget]
          exact Table.get_modify_self _ _ _ _
        · left
          simp only [effect, htarget]
          exact Table.get_modify_of_ne _ _ _ fun h => hid h.symm
  · left
    rw [effect_payments hs]

/-- Everything a statement can do to the row `key` of `transaction_fills`. -/
theorem fill_effect_cases (s : Stmt) (env : Env) (seen w : World) (key : FillKey) :
    (effect s env seen w).fills.get key = w.fills.get key ∨
    (∃ p, s = .insertTransactionFill p ∧ p.key = key ∧ seen.fillFits p ∧
      w.fills.get key = none ∧ (effect s env seen w).fills.get key = some (newFill p)) ∨
    (∃ p r, s = .insertTransactionFill p ∧ p.key = key ∧ seen.fillFits p ∧
      w.fills.get key = some r ∧
      (effect s env seen w).fills.get key = some (conflictingFill p env.clock r)) ∨
    (s = .markFillReorged key ∧ (seen.fills.get key).isSome ∧
      (effect s env seen w).fills.get key =
        (w.fills.get key).map reorgedFill) := by
  by_cases hs : s.changes = some .fills
  · cases s <;> simp only [Stmt.changes, Option.some.injEq, reduceCtorEq] at hs
    case insertTransactionFill p =>
      by_cases hfit : seen.fillFits p
      · by_cases hid : p.key = key
        · subst hid
          cases hget : w.fills.get p.key with
          | none =>
            refine .inr (.inl ⟨p, rfl, rfl, hfit, rfl, ?_⟩)
            simp only [effect, hfit, if_true, hget]
            exact Table.get_insert_self (r := newFill p) _ hget
          | some r =>
            refine .inr (.inr (.inl ⟨p, r, rfl, rfl, hfit, rfl, ?_⟩))
            simp only [effect, hfit, if_true, hget]
            exact (Table.get_modify_self _ _ _ _).trans (by rw [hget]; rfl)
        · left
          cases hget : w.fills.get p.key with
          | none =>
            simp only [effect, hfit, if_true, hget]
            exact Table.get_insert_of_ne _ fun h => hid h.symm
          | some r =>
            simp only [effect, hfit, if_true, hget]
            exact Table.get_modify_of_ne _ _ _ fun h => hid h.symm
      · left; simp [effect, hfit]
    case markFillReorged id =>
      cases htarget : seen.fills.get id with
      | none => left; simp [effect, htarget]
      | some r =>
        by_cases hid : id = key
        · subst hid
          refine .inr (.inr (.inr ⟨rfl, by simp [htarget], ?_⟩))
          simp only [effect, htarget]
          exact Table.get_modify_self _ _ _ _
        · left
          simp only [effect, htarget]
          exact Table.get_modify_of_ne _ _ _ fun h => hid h.symm
  · left
    rw [effect_fills hs]

/-- What a statement makes of the row `key` of `balances`: a creation finds it
missing or does nothing. -/
def balanceAfter (s : Stmt) (seen : World) (key : BalanceKey) (row : Option BalanceRow) :
    Option BalanceRow :=
  match s with
  | .createBalance p =>
      if seen.balanceFits p = true ∧ p.key = key then row.orElse fun _ => some (newBalance p)
      else row
  | .updateBalanceByID p =>
      if (seen.balanceTarget p).isSome = true ∧ p.key = key then row.map (updatedBalance p)
      else row
  | _ => row

theorem effect_balance (s : Stmt) (env : Env) (seen w : World) (key : BalanceKey) :
    (effect s env seen w).balances.get key = balanceAfter s seen key (w.balances.get key) := by
  by_cases hs : s.changes = some .balances
  · cases s <;> simp only [Stmt.changes, Option.some.injEq, reduceCtorEq] at hs
    case createBalance p =>
      by_cases hfit : seen.balanceFits p = true
      · have heffect : (effect (.createBalance p) env seen w).balances =
            w.balances.insert (newBalance p) := by simp only [effect, hfit, if_true]
        rw [heffect, balanceAfter]
        by_cases hkey : p.key = key
        · subst hkey
          rw [if_pos ⟨hfit, rfl⟩]
          cases hget : w.balances.get p.key with
          | none => exact Table.get_insert_self (r := newBalance p) _ hget
          | some r =>
            rw [Table.insert_of_taken (r := newBalance p) _ hget, hget]
            rfl
        · rw [if_neg fun h => hkey h.2]
          exact Table.get_insert_of_ne _ fun h => hkey h.symm
      · rw [balanceAfter, if_neg fun h => hfit h.1]
        simp only [effect, hfit]
        rfl
    case updateBalanceByID p =>
      cases htarget : seen.balanceTarget p with
      | none => simp [effect, balanceAfter, htarget]
      | some r =>
        by_cases hkey : p.key = key
        · subst hkey
          rw [balanceAfter, if_pos ⟨by rw [htarget]; rfl, rfl⟩]
          simp only [effect, htarget]
          exact Table.get_modify_self _ _ _ _
        · rw [balanceAfter, if_neg fun h => hkey h.2]
          simp only [effect, htarget]
          exact Table.get_modify_of_ne _ _ _ fun h => hkey h.symm
  · rw [effect_balances hs]
    cases s <;> first | rfl | exact absurd rfl hs

end World

theorem lasting_transactions (s : Stmt) (w : World) :
    (World.lasting s w).transactions = w.transactions := by
  cases s <;> rfl

theorem lasting_fills (s : Stmt) (w : World) : (World.lasting s w).fills = w.fills := by
  cases s <;> rfl

theorem lasting_payments (s : Stmt) (w : World) : (World.lasting s w).payments = w.payments := by
  cases s <;> rfl

theorem lasting_balances (s : Stmt) (w : World) :
    (World.lasting s w).balances = w.balances := by
  cases s <;> rfl

theorem lasting_auditLog (s : Stmt) (w : World) : (World.lasting s w).auditLog = w.auditLog := by
  cases s <;> rfl

theorem lasting_collectors (s : Stmt) (w : World) :
    (World.lasting s w).collectors = w.collectors := by
  cases s <;> rfl

/-- A statement either never arrives or has its effect. -/
theorem engine_effect (s : Stmt) (env : Env) (seen w : World) :
    engine.effect s env seen w = if env.fate = .refused then w else World.effect s env seen w :=
  rfl

theorem engine_lasting (s : Stmt) (env : Env) (w : World) :
    engine.lasting s env w = if env.fate = .refused then w else World.lasting s w :=
  rfl

theorem engine_lasting_balances (st : Stmt) (env : Env) (w : World) :
    (engine.lasting st env w).balances = w.balances := by
  rw [engine_lasting]
  split
  · rfl
  · exact lasting_balances st w

theorem engine_locks (s : Stmt) (env : Env) (w : World) :
    engine.locks s env w = if env.fate = .refused then [] else w.locks s :=
  rfl

theorem lasting_of_read {s : Stmt} (h : s.changes = none) (w : World) :
    World.lasting s w = w := by
  cases s <;> first | rfl | cases h

theorem autocommit_of_read {s : Stmt} (h : s.changes = none) (env : Env) (w : World) :
    engine.autocommit s env w = w := by
  rw [Engine.autocommit, engine_effect, World.effect_of_read h, engine_lasting, lasting_of_read h,
    ite_self, ite_self]

/-- A statement on its own either never arrives or has its effect. -/
theorem engine_autocommit_refused {s : Stmt} {env : Env} {w : World}
    (h : env.fate = .refused) : engine.autocommit s env w = w := by
  rw [Engine.autocommit, engine_effect, engine_lasting, if_pos h, if_pos h]

theorem engine_autocommit_landed {s : Stmt} {env : Env} {w : World} (h : env.fate ≠ .refused) :
    engine.autocommit s env w = World.effect s env w (World.lasting s w) := by
  rw [Engine.autocommit, engine_effect, engine_lasting, if_neg h, if_neg h]

theorem autocommit_payments {s : Stmt} {env : Env} {w : World}
    (h : s.changes ≠ some .payments) :
    (engine.autocommit s env w).payments = w.payments := by
  by_cases hrefused : env.fate = .refused
  · rw [engine_autocommit_refused hrefused]
  · rw [engine_autocommit_landed hrefused, World.effect_payments h, lasting_payments]

theorem autocommit_transactions {s : Stmt} {env : Env} {w : World}
    (h : s.changes ≠ some .transactions) :
    (engine.autocommit s env w).transactions = w.transactions := by
  by_cases hrefused : env.fate = .refused
  · rw [engine_autocommit_refused hrefused]
  · rw [engine_autocommit_landed hrefused, World.effect_transactions h, lasting_transactions]

theorem autocommit_balances {s : Stmt} {env : Env} {w : World}
    (h : s.changes ≠ some .balances) :
    (engine.autocommit s env w).balances = w.balances := by
  by_cases hrefused : env.fate = .refused
  · rw [engine_autocommit_refused hrefused]
  · rw [engine_autocommit_landed hrefused, World.effect_balances h, lasting_balances]

/-- A log of reads shows the committed world. -/
theorem replay_of_reads {log : Log Stmt Env World} (h : ∀ e ∈ log, e.stmt.changes = none)
    (w : World) : engine.replay log w = w := by
  induction log generalizing w with
  | nil => rfl
  | cons e log ih =>
    have hfirst : engine.effect e.stmt e.env e.seen w = w := by
      rw [engine_effect, World.effect_of_read (h e List.mem_cons_self), ite_self]
    have hrest := ih (fun e' he' => h e' (List.mem_cons_of_mem _ he')) w
    calc engine.replay (e :: log) w
        = engine.replay log (engine.effect e.stmt e.env e.seen w) := rfl
      _ = w := by rw [hfirst, hrest]

theorem transaction_framed (id : Int) :
    Framed engine (fun w => w.transactions.get id) (.transaction id) where
  effect s env seen w hlock := by
    simp only [engine_effect, engine_locks] at hlock ⊢
    by_cases hf : env.fate = .refused
    · simp [hf]
    · simp only [hf, if_false] at hlock ⊢
      rcases World.transaction_effect_cases s env seen w id with h | ⟨p, rfl, rfl, ht, -⟩ |
        ⟨p, rfl, rfl, ht, -⟩ | ⟨p, rfl, hfit, rfl, -, -⟩
      · exact h
      · exact absurd (by simp [World.locks, ht]) hlock
      · exact absurd (by simp [World.locks, ht]) hlock
      · exact absurd (by simp [World.locks, hfit]) hlock
  lasting s env w := by
    simp only [engine_lasting]
    split
    · rfl
    · rw [lasting_transactions]

/-- A transaction that is there stays there. -/
theorem transaction_stays (id : Int) :
    engine.Steady (fun _ => True) (fun _ _ => True) (fun w w' =>
      (w.transactions.get id).isSome = true → (w'.transactions.get id).isSome = true) where
  refl _ h := h
  trans h h' hw := h' (h hw)
  effect e w _ _ hw := by
    rw [engine_effect]
    split
    · exact hw
    rcases World.transaction_effect_cases e.stmt e.env e.seen w id with hsame |
      ⟨p, -, -, -, hafter⟩ | ⟨p, -, -, -, hafter⟩ | ⟨p, -, -, -, -, hafter⟩
    · rw [hsame]
      exact hw
    · rw [hafter, Option.isSome_map]
      exact hw
    · rw [hafter, Option.isSome_map]
      exact hw
    · rw [hafter]
      rfl
  lasting st env w _ hw := by
    rw [engine_lasting]
    split
    · exact hw
    · rw [lasting_transactions]
      exact hw

/-- A payment that is there stays there. -/
theorem payment_stays (id : Int) :
    engine.Steady (fun _ => True) (fun _ _ => True) (fun w w' =>
      (w.payments.get id).isSome = true → (w'.payments.get id).isSome = true) where
  refl _ h := h
  trans h h' hw := h' (h hw)
  effect e w _ _ hw := by
    rw [engine_effect]
    split
    · exact hw
    rcases World.payment_effect_cases e.stmt e.env e.seen w id with hsame |
      ⟨p, -, -, -, hafter⟩ | ⟨p, -, -, -, hafter⟩ | ⟨p, -, -, -, -, hafter⟩
    · rw [hsame]
      exact hw
    · rw [hafter, Option.isSome_map]
      exact hw
    · rw [hafter, Option.isSome_map]
      exact hw
    · rw [hafter]
      rfl
  lasting st env w _ hw := by
    rw [engine_lasting]
    split
    · exact hw
    · rw [lasting_payments]
      exact hw

theorem engine_balance (s : Stmt) (env : Env) (seen w : World) (key : BalanceKey) :
    (engine.effect s env seen w).balances.get key =
      if env.fate = .refused then w.balances.get key
      else World.balanceAfter s seen key (w.balances.get key) := by
  rw [engine_effect]
  split
  · rfl
  · exact World.effect_balance s env seen w key

theorem balance_rows :
    Rows engine (fun (key : BalanceKey) (w : World) => w.balances.get key) LockKey.balance where
  framed key := {
    effect := by
      intro s env seen w hlock
      rw [engine_locks] at hlock
      rw [engine_balance]
      split
      · rfl
      · rename_i hf
        rw [if_neg hf] at hlock
        cases s <;> try rfl
        case createBalance p =>
          refine if_neg ?_
          rintro ⟨hfit, rfl⟩
          exact hlock (by simp [World.locks, hfit])
        case updateBalanceByID p =>
          refine if_neg ?_
          rintro ⟨htarget, rfl⟩
          exact hlock (by simp [World.locks, htarget])
    lasting := by
      intro s env w
      simp only [engine_lasting]
      split
      · rfl
      · rw [lasting_balances] }
  alone := by
    intro key s env seen w w' h
    rw [engine_balance, engine_balance, h]

end CryptoLink
