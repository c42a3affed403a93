import CryptoLink.Guarantees.TopupCalls
import CryptoLink.Guarantees.Gains

/-!
# Topups from the system balance

A topup is seven writes, each on its own. The merchant has the money exactly if
the payment is left in success with a completed transaction, as long as no write
after the completion goes wrong halfway: a credit whose answer is lost and an
audit row that is not written undo the payment and not the credit, a payment
that cannot be failed stays successful without one. That there is enough to take
from was read before, from a ledger that other topups change.
-/

namespace CryptoLink

open KeyedTables ReadCommitted StatementPrograms System

def HasPayment (id : Int) (w : World) : Prop := (w.payments.get id).isSome = true

def HasTransaction (id : Int) (w : World) : Prop := (w.transactions.get id).isSome = true

/-- One of the call's own statements brought it about. -/
def Made (P : World → Prop) (own : Deeds World) : Prop := ∃ d ∈ own, ¬ P d.1 ∧ P d.2

/-- A payment that is a success, with a completed transaction. -/
structure Pair (p t : Int) (w : World) : Prop where
  payment : ∃ row, w.payments.get p = some row ∧ row.status = .success
  transaction : ∃ row, w.transactions.get t = some row ∧ row.type = .virtual ∧
    row.entityID = some p ∧ row.status = .completed

/-- The call leaves its payment in success with a completed transaction. -/
def KeptPair (own : Deeds World) (w : World) : Prop :=
  ∃ p t, Made (HasPayment p) own ∧ Made (HasTransaction t) own ∧ Pair p t w

/-- A balance of the merchant in the currency of the topup. -/
structure TopupKey (s : Service) (l : TopupCall) (k : BalanceKey) : Prop where
  entityType : k.entityType = .merchant
  entityID : k.entityID = l.merchantID
  currency : ∃ c, s.currencies.getCurrencyByTicker l.input.currency.ticker = .ok c ∧
    k.networkID = c.chooseNetwork l.input.isTest ∧
    (k.currency = c.ticker ∨ k.currency = l.input.currency.ticker)

/-- One balance of the merchant has grown by the amount, and no other balance
has changed. -/
def Grown (s : Service) (l : TopupCall) (own : Deeds World) : Prop :=
  0 < l.input.amount.value ∧ ∃ k, TopupKey s l k ∧ gain k own = l.input.amount.value ∧
    ∀ k', k' ≠ k → gain k' own = 0

/-- The merchant has the money if the call leaves its payment in success with a
completed transaction, and otherwise nothing has changed. -/
structure Whole (s : Service) (l : TopupCall) (own : Deeds World) (w : World) : Prop where
  settled : KeptPair own w → Grown s l own
  otherwise : ¬ KeptPair own w → ∀ k, gain k own = 0

/-- The payment has a completed transaction. -/
def HasCompleted (p : Int) (w : World) : Prop :=
  ∃ t ∈ w.transactions.rows, t.type = .virtual ∧ t.entityID = some p ∧ t.status = .completed

/-- The credit is answered if it lands, the audit row is written, and the
payment of a completed transaction is failed if it has to be. -/
def GetsSettled (c : Cmd Stmt) (env : Env) (w : World) : Prop :=
  match c with
  | .stmt _ (.createBalance p) => w.balanceFits p = true → env.fate ≠ .unanswered
  | .stmt _ (.updateBalanceByID p) => (w.balanceTarget p).isSome = true → env.fate ≠ .unanswered
  | .stmt _ (.insertBalanceAuditLog _) => env.fate = .done
  | .stmt _ (.updatePayment p) => HasCompleted p.id w → env.fate ≠ .refused
  | _ => True

instance (p : Int) (w : World) : Decidable (HasCompleted p w) :=
  inferInstanceAs (Decidable (∃ t ∈ w.transactions.rows, t.type = .virtual ∧
    t.entityID = some p ∧ t.status = .completed))

instance (c : Cmd Stmt) (env : Env) (w : World) : Decidable (GetsSettled c env w) := by
  delta GetsSettled
  induction c using Cmd.casesOn with
  | stmt conn st => induction st using Stmt.casesOn <;> infer_instance
  | _ => infer_instance

/-- Nobody else touches the call's payment and transaction. Whether that can be
relied on is left open: before both are there, there is nothing to rely on. -/
def topupSurroundings (mine : Prop) (p t : Int) : Surroundings Stmt Env World LockKey where
  rel w w' := mine → (∀ row, w.payments.get p = some row → w'.payments.get p = some row) ∧
    ∀ row, w.transactions.get t = some row → w'.transactions.get t = some row
  refl _ _ := ⟨fun _ h => h, fun _ h => h⟩
  trans h h' hmine := ⟨fun row hrow => (h' hmine).1 row ((h hmine).1 row hrow),
    fun row hrow => (h' hmine).2 row ((h hmine).2 row hrow)⟩
  admits c env v := v.world.balances.get noBalance = none ∧ GetsSettled c env v.world

abbrev TopupAccounts (mine : Prop) (p t : Int) {α : Type}
    (Q : Except Err α → View Stmt Env World LockKey → Deeds World → Prop) (prog : Call α)
    (v : View Stmt Env World LockKey) (own : Deeds World) : Prop :=
  Accounts (topupSurroundings mine p t) engine Q prog v own

theorem made_append {P : World → Prop} {own : Deeds World} {w w' : World} :
    Made P (own ++ [(w, w')]) ↔ Made P own ∨ (¬ P w ∧ P w') := by
  constructor
  · rintro ⟨d, hd, hmade⟩
    rcases List.mem_append.mp hd with hold | hnew
    · exact .inl ⟨d, hold, hmade⟩
    · obtain rfl := List.mem_singleton.mp hnew
      exact .inr hmade
  · rintro (⟨d, hd, hmade⟩ | hmade)
    · exact ⟨d, List.mem_append_left _ hd, hmade⟩
    · exact ⟨(w, w'), List.mem_append_right _ (List.mem_singleton_self _), hmade⟩

/-- Which payment and which transaction the call has made. -/
structure CallBooks (payment transaction : Option Int) (own : Deeds World) : Prop where
  payment : ∀ id, Made (HasPayment id) own ↔ payment = some id
  transaction : ∀ id, Made (HasTransaction id) own ↔ transaction = some id

namespace CallBooks

variable {payment transaction : Option Int} {own : Deeds World} {w w' : World}

theorem nil : CallBooks none none [] := by
  constructor
  · intro id
    constructor
    · rintro ⟨d, hd, -⟩
      cases hd
    · intro h
      cases h
  · intro id
    constructor
    · rintro ⟨d, hd, -⟩
      cases hd
    · intro h
      cases h

/-- A step that makes neither. -/
theorem keep (h : CallBooks payment transaction own)
    (hpayments : ∀ id, HasPayment id w' → HasPayment id w)
    (htransactions : ∀ id, HasTransaction id w' → HasTransaction id w) :
    CallBooks payment transaction (own ++ [(w, w')]) := by
  constructor
  · intro id
    rw [made_append, h.payment]
    exact or_iff_left fun hnew => hnew.1 (hpayments id hnew.2)
  · intro id
    rw [made_append, h.transaction]
    exact or_iff_left fun hnew => hnew.1 (htransactions id hnew.2)

theorem pay {p : Int} (h : CallBooks none transaction own) (hnone : ¬ HasPayment p w)
    (hpayments : ∀ id, HasPayment id w' ↔ HasPayment id w ∨ id = p)
    (htransactions : ∀ id, HasTransaction id w' → HasTransaction id w) :
    CallBooks (some p) transaction (own ++ [(w, w')]) := by
  constructor
  · intro id
    rw [made_append, h.payment, hpayments]
    constructor
    · rintro (hfalse | ⟨hbefore, hafter | rfl⟩)
      · cases hfalse
      · exact absurd hafter hbefore
      · rfl
    · intro heq
      cases heq
      exact .inr ⟨hnone, .inr rfl⟩
  · intro id
    rw [made_append, h.transaction]
    exact or_iff_left fun hnew => hnew.1 (htransactions id hnew.2)

theorem transact {t : Int} (h : CallBooks payment none own) (hnone : ¬ HasTransaction t w)
    (hpayments : ∀ id, HasPayment id w' → HasPayment id w)
    (htransactions : ∀ id, HasTransaction id w' ↔ HasTransaction id w ∨ id = t) :
    CallBooks payment (some t) (own ++ [(w, w')]) := by
  constructor
  · intro id
    rw [made_append, h.payment]
    exact or_iff_left fun hnew => hnew.1 (hpayments id hnew.2)
  · intro id
    rw [made_append, h.transaction, htransactions]
    constructor
    · rintro (hfalse | ⟨hbefore, hafter | rfl⟩)
      · cases hfalse
      · exact absurd hafter hbefore
      · rfl
    · intro heq
      cases heq
      exact .inr ⟨hnone, .inr rfl⟩

end CallBooks

/-- More was done, but nothing changed. -/
structure Rests (own own' : Deeds World) : Prop where
  more : ∃ more, own' = own ++ more ∧ ∀ d ∈ more, d.2 = d.1

namespace Rests

variable {own own' own'' : Deeds World}

theorem refl (own : Deeds World) : Rests own own := by
  refine ⟨[], (List.append_nil own).symm, ?_⟩
  intro d hd
  cases hd

theorem then_read (h : Rests own own') (w : World) : Rests own (own' ++ [(w, w)]) := by
  obtain ⟨more, rfl, hmore⟩ := h.more
  refine ⟨more ++ [(w, w)], List.append_assoc _ _ _, ?_⟩
  intro d hd
  rcases List.mem_append.mp hd with hold | hnew
  · exact hmore d hold
  · obtain rfl := List.mem_singleton.mp hnew
    rfl

theorem gain (h : Rests own own') (k : BalanceKey) : gain k own' = CryptoLink.gain k own := by
  obtain ⟨more, rfl, hmore⟩ := h.more
  have hnothing : CryptoLink.gain k more = 0 := by
    apply gain_eq_zero
    intro d hd
    rw [hmore d hd]
  rw [gain_append, hnothing, Int.add_zero]

theorem made {P : World → Prop} (h : Rests own own') : Made P own' ↔ Made P own := by
  obtain ⟨more, rfl, hmore⟩ := h.more
  constructor
  · rintro ⟨d, hd, hbefore, hafter⟩
    rcases List.mem_append.mp hd with hold | hnew
    · exact ⟨d, hold, hbefore, hafter⟩
    · rw [hmore d hnew] at hafter
      exact absurd hafter hbefore
  · rintro ⟨d, hd, hmade⟩
    exact ⟨d, List.mem_append_left _ hd, hmade⟩

theorem books {payment transaction : Option Int} (h : Rests own own')
    (hbooks : CallBooks payment transaction own) : CallBooks payment transaction own' :=
  ⟨fun id => h.made.trans (hbooks.payment id), fun id => h.made.trans (hbooks.transaction id)⟩

end Rests

section Rules

variable {mine : Prop} {p t : Int} {α : Type} {own : Deeds World}
  {Q : Except Err α → View Stmt Env World LockKey → Deeds World → Prop}

/-- A part on the pool keeps what each of its statements keeps. -/
theorem keeps_of_onPool {Φ : Stmt → Prop} {J : World → Deeds World → Prop} {prog : Call α}
    {v : View Stmt Env World LockKey} (hprog : OnPool Φ prog)
    (hstable : ∀ w w' own, (topupSurroundings mine p t).rel w w' → J w own → J w' own)
    (hkeeps : ∀ st env w own, (st.changes ≠ none → Φ st) → w.balances.get noBalance = none →
      GetsSettled (.stmt .pool st) env w → J w own →
        J (engine.autocommit st env w) (own ++ [(w, engine.autocommit st env w)]))
    (hv : J v.world own) :
    TopupAccounts mine p t (fun _ v' own' => J v'.world own') prog v own := by
  refine Meets.of_issues (J := fun a : View Stmt Env World LockKey × Deeds World =>
    J a.1.world a.2) ?_ ?_ hprog hv
  · rintro ⟨v, own⟩ ⟨v', own'⟩ ⟨-, hrel, hown⟩ hJ
    obtain rfl : own' = own := hown
    exact hstable _ _ _ hrel hJ
  · rintro c ⟨v, own⟩ r ⟨v', own'⟩ ⟨st, rfl, hst⟩ hJ ⟨env, ⟨hstored, hsettled⟩, hdone, hown⟩
    refine ⟨trivial, ?_⟩
    have hkept := hkeeps st env v.world own hst hstored hsettled hJ
    have hworld : engine.autocommit st env v.world = v'.world :=
      congrArg (fun x : Reply st × View Stmt Env World LockKey => x.2.world) hdone
    dsimp only at hown ⊢
    rw [hown, ← hworld]
    exact hkept

/-- A part that only reads. -/
theorem only_reads {prog : Call α} (hprog : OnPool (fun _ => False) prog)
    {v : View Stmt Env World LockKey} :
    TopupAccounts mine p t (fun _ v' own' => (topupSurroundings mine p t).rel v.world v'.world ∧
      Rests own own') prog v own := by
  apply keeps_of_onPool (J := fun w' own' => (topupSurroundings mine p t).rel v.world w' ∧
    Rests own own') hprog
  · rintro w w' own' hrel ⟨hbefore, hrests⟩
    exact ⟨(topupSurroundings mine p t).trans hbefore hrel, hrests⟩
  · rintro st env w own' hst - - ⟨hbefore, hrests⟩
    have hread : st.changes = none := not_not.mp hst
    rw [autocommit_of_read hread]
    exact ⟨hbefore, hrests.then_read w⟩
  · exact ⟨(topupSurroundings mine p t).refl _, Rests.refl own⟩

/-- A read whose answer matters. -/
theorem asks {st : Stmt} {k : Reply st → Call α} {v : View Stmt Env World LockKey}
    (hst : st.changes = none)
    (h : ∀ w env own', (topupSurroundings mine p t).rel v.world w → Rests own own' →
      w.balances.get noBalance = none →
        TopupAccounts mine p t Q (k (engine.reply st env w)) ⟨w, v.session⟩ own') :
    TopupAccounts mine p t Q (.call (.stmt .pool st) k) v own := by
  apply Accounts.pool
  rintro w env hrel ⟨hstored, -⟩
  rw [autocommit_of_read hst]
  exact h w env _ hrel ((Rests.refl own).then_read w) hstored

end Rules

section Statements

variable {st : Stmt} {env : Env} {w : World} {id : Int}

/-- An id above all others is free. -/
theorem nextPaymentID_free (w : World) : ¬ HasPayment w.nextPaymentID w := by
  have hbound : ∀ (ids : List Int) (m : Int),
      m ≤ ids.foldl max m ∧ ∀ x ∈ ids, x ≤ ids.foldl max m := by
    intro ids
    induction ids with
    | nil => exact fun m => ⟨le_refl m, fun x hx => by cases hx⟩
    | cons y ids ih =>
      intro m
      obtain ⟨hm, hids⟩ := ih (max m y)
      constructor
      · exact le_trans (le_max_left m y) hm
      · intro x hx
        rcases List.mem_cons.mp hx with rfl | hx
        · exact le_trans (le_max_right m x) hm
        · exact hids x hx
  intro hhas
  obtain ⟨row, hrow⟩ := Option.isSome_iff_exists.mp hhas
  obtain ⟨hmem, hid⟩ := Table.get_eq_some hrow
  have hle := (hbound (w.payments.rows.map PaymentRow.id) 0).2 row.id
    (List.mem_map_of_mem hmem)
  have hnext : row.id = (w.payments.rows.map PaymentRow.id).foldl max 0 + 1 := hid
  omega

/-- A payment is there after a statement if it was before, or if this statement
has created it. -/
theorem hasPayment_autocommit (h : HasPayment id (engine.autocommit st env w)) :
    HasPayment id w ∨ ∃ p, st = .createPayment p ∧ World.paymentFits p ∧ w.nextPaymentID = id ∧
      env.fate ≠ .refused := by
  by_cases hrefused : env.fate = .refused
  · rw [engine_autocommit_refused hrefused] at h
    exact .inl h
  rw [engine_autocommit_landed hrefused, HasPayment] at h
  rcases World.payment_effect_cases st env w (World.lasting st w) id with hsame |
    ⟨p, rfl, hid, -, hafter⟩ | ⟨p, rfl, hid, -, hafter⟩ | ⟨p, rfl, hfits, hid, -, -⟩
  · rw [hsame, lasting_payments] at h
    exact .inl h
  · rw [hafter, Option.isSome_map, lasting_payments] at h
    exact .inl h
  · rw [hafter, Option.isSome_map, lasting_payments] at h
    exact .inl h
  · exact .inr ⟨p, rfl, hfits, hid, hrefused⟩

theorem hasTransaction_autocommit (h : HasTransaction id (engine.autocommit st env w)) :
    HasTransaction id w ∨ ∃ p, st = .createTransaction p ∧ w.createFits p = true ∧
      w.nextTransactionID = id ∧ env.fate ≠ .refused := by
  by_cases hrefused : env.fate = .refused
  · rw [engine_autocommit_refused hrefused] at h
    exact .inl h
  rw [engine_autocommit_landed hrefused, HasTransaction] at h
  rcases World.transaction_effect_cases st env w (World.lasting st w) id with hsame |
    ⟨p, rfl, hid, -, hafter⟩ | ⟨p, rfl, hid, -, hafter⟩ | ⟨p, rfl, hfits, hid, -, -⟩
  · rw [hsame, lasting_transactions] at h
    exact .inl h
  · rw [hafter, Option.isSome_map, lasting_transactions] at h
    exact .inl h
  · rw [hafter, Option.isSome_map, lasting_transactions] at h
    exact .inl h
  · exact .inr ⟨p, rfl, hfits, hid, hrefused⟩

/-- A payment that is created is new, and nothing else is. -/
theorem createPayment_lands {p : CreatePaymentParams} (hrefused : env.fate ≠ .refused)
    (hfits : World.paymentFits p = true) :
    (engine.autocommit (.createPayment p) env w).payments =
      w.payments.insert (w.newPayment p) := by
  rw [engine_autocommit_landed hrefused]
  simp only [World.effect, World.lasting, hfits, if_true]

theorem createTransaction_lands {p : CreateTransactionParams} (hrefused : env.fate ≠ .refused)
    (hfits : w.createFits p = true) :
    (engine.autocommit (.createTransaction p) env w).transactions =
      w.transactions.insert (w.newTransaction p) := by
  rw [engine_autocommit_landed hrefused]
  simp only [World.effect, World.lasting, hfits, if_true]

theorem createPayment_has {p : CreatePaymentParams} (hrefused : env.fate ≠ .refused)
    (hfits : World.paymentFits p = true) :
    (engine.autocommit (.createPayment p) env w).payments.get w.nextPaymentID =
      some (w.newPayment p) := by
  rw [createPayment_lands hrefused hfits]
  apply Table.get_insert_self (r := w.newPayment p)
  exact Option.not_isSome_iff_eq_none.mp (nextPaymentID_free w)

theorem createTransaction_has {p : CreateTransactionParams} (hrefused : env.fate ≠ .refused)
    (hfits : w.createFits p = true) :
    ¬ HasTransaction w.nextTransactionID w ∧
      (engine.autocommit (.createTransaction p) env w).transactions.get w.nextTransactionID =
        some (w.newTransaction p) := by
  have hfree : w.transactions.get w.nextTransactionID = none := by
    simp only [World.createFits, Bool.and_eq_true, Option.isNone_iff_eq_none] at hfits
    exact hfits.2
  constructor
  · rw [HasTransaction, hfree]
    exact Bool.false_ne_true
  · rw [createTransaction_lands hrefused hfits]
    exact Table.get_insert_self (r := w.newTransaction p) _ hfree

theorem balance_autocommit (hrefused : env.fate ≠ .refused) (k : BalanceKey) :
    (engine.autocommit st env w).balances.get k =
      World.balanceAfter st w k (w.balances.get k) := by
  rw [engine_autocommit_landed hrefused, World.effect_balance, lasting_balances]

/-- A row is added to, or nothing happens: the answer is not lost. -/
theorem update_credits {q : UpdateBalanceByIDParams}
    (hsettled : GetsSettled (.stmt .pool (.updateBalanceByID q)) env w) :
    (∃ e, engine.reply (.updateBalanceByID q) env w = .error e ∧
      engine.autocommit (.updateBalanceByID q) env w = w) ∨
    ∃ row, engine.reply (.updateBalanceByID q) env w = .ok row ∧
      ∀ k, (engine.autocommit (.updateBalanceByID q) env w).amountAt k =
        w.amountAt k + if k = q.key then q.amount else 0 := by
  by_cases hrefused : env.fate = .refused
  · left
    refine ⟨Err.of .database, if_neg (by rw [hrefused]; decide), engine_autocommit_refused hrefused⟩
  cases htarget : w.balanceTarget q with
  | none =>
    left
    have hreply : ∃ e, engine.reply (.updateBalanceByID q) env w = .error e := by
      cases hanswer : engine.reply (.updateBalanceByID q) env w with
      | error e => exact ⟨e, rfl⟩
      | ok row =>
        exfalso
        have hok := (answered_eq_ok hanswer).2
        split at hok
        · cases hok
        · rename_i r hget
          split at hok
          · rename_i hpositive
            rw [World.balanceTarget, hget, Option.filter_some,
              if_pos (decide_eq_true hpositive)] at htarget
            cases htarget
          · cases hok
    obtain ⟨e, he⟩ := hreply
    refine ⟨e, he, ?_⟩
    rw [engine_autocommit_landed hrefused]
    simp only [World.effect, htarget, World.lasting]
  | some old =>
    right
    have hsome : (w.balanceTarget q).isSome = true := by rw [htarget]; rfl
    have hdone : env.fate = .done := by
      cases hfate : env.fate with
      | done => rfl
      | refused => exact absurd hfate hrefused
      | unanswered => exact absurd hfate (hsettled hsome)
    obtain ⟨row, hrow⟩ := reply_of_balanceTarget hdone hsome
    refine ⟨row, hrow, ?_⟩
    intro k
    obtain ⟨hget, -⟩ := Option.filter_eq_some_iff.mp htarget
    rw [World.amountAt, World.amountAt, balance_autocommit hrefused, World.balanceAfter]
    by_cases hk : k = q.key
    · subst hk
      rw [if_pos ⟨hsome, rfl⟩, if_pos rfl, hget]
      rfl
    · rw [if_neg fun h => hk h.2.symm, if_neg hk, Int.add_zero]

/-- A row is opened with the amount, or nothing happens. -/
theorem create_credits {q : CreateBalanceParams}
    (hsettled : GetsSettled (.stmt .pool (.createBalance q)) env w) :
    (∃ e, engine.reply (.createBalance q) env w = .error e ∧
      engine.autocommit (.createBalance q) env w = w) ∨
    ∃ row, engine.reply (.createBalance q) env w = .ok row ∧
      ∀ k, (engine.autocommit (.createBalance q) env w).amountAt k =
        w.amountAt k + if k = q.key then q.amount else 0 := by
  by_cases hrefused : env.fate = .refused
  · left
    refine ⟨Err.of .database, if_neg (by rw [hrefused]; decide), engine_autocommit_refused hrefused⟩
  by_cases hfits : w.balanceFits q = true
  swap
  · left
    have hanswer : engine.reply (.createBalance q) env w =
        answered env.fate .database (if w.balanceFits q then .ok (World.newBalance q)
          else .error (Err.of .database)) := rfl
    refine ⟨Err.of .database, ?_, ?_⟩
    · rw [hanswer, if_neg hfits, answered, ite_self]
    · rw [engine_autocommit_landed hrefused]
      simp only [World.effect, World.lasting, if_neg hfits]
  · right
    have hdone : env.fate = .done := by
      cases hfate : env.fate with
      | done => rfl
      | refused => exact absurd hfate hrefused
      | unanswered => exact absurd hfate (hsettled hfits)
    refine ⟨World.newBalance q, (answered_done hdone _ _).trans (if_pos hfits), ?_⟩
    intro k
    have hfree : w.balances.get q.key = none := by
      simp only [World.balanceFits, Bool.and_eq_true, Option.isNone_iff_eq_none] at hfits
      exact hfits.1.1.1.1
    rw [World.amountAt, World.amountAt, balance_autocommit hrefused, World.balanceAfter]
    by_cases hk : k = q.key
    · subst hk
      rw [if_pos ⟨hfits, rfl⟩, if_pos rfl, hfree]
      exact (Int.zero_add q.amount).symm
    · rw [if_neg fun h => hk h.2.symm, if_neg hk, Int.add_zero]

end Statements

end CryptoLink
