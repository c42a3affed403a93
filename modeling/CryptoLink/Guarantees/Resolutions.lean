import CryptoLink.Guarantees.Gains
import CryptoLink.Guarantees.LockedPayments
import CryptoLink.Repository.Replies

/-!
# Resolved payments

A resolution marks the payment first and credits the merchant afterwards, and
nothing that goes wrong in between takes the mark back. It is all or nothing as
long as the mark finds the payment unresolved, nobody takes it back, and every
statement after it gets through.
-/

namespace CryptoLink

open ReadCommitted StatementPrograms System KeyedTables

/-- The call wrote no payment and no balance. -/
def Unwritten (own : Deeds World) : Prop :=
  ∀ d ∈ own, d.2.payments = d.1.payments ∧ d.2.balances = d.1.balances

/-- The world the call was first answered from. -/
def firstSeen (own : Deeds World) : Option World := own.head?.map Prod.fst

namespace Unwritten

variable {own own' : Deeds World}

theorem nil : Unwritten [] := fun _ h => by cases h

theorem append (h : Unwritten own) (h' : Unwritten own') : Unwritten (own ++ own') := by
  intro d hd
  rcases List.mem_append.mp hd with hd | hd
  · exact h d hd
  · exact h' d hd

theorem single {w w' : World} (hpayments : w'.payments = w.payments)
    (hbalances : w'.balances = w.balances) : Unwritten [(w, w')] := by
  intro d hd
  obtain rfl := List.mem_singleton.mp hd
  exact ⟨hpayments, hbalances⟩

theorem gain (h : Unwritten own) (k : BalanceKey) : gain k own = 0 :=
  gain_eq_zero fun d hd => amountAt_congr (h d hd).2 k

end Unwritten

/-- The payment keeps its price and, once resolved, its status; no balance
goes away or changes its unit. -/
structure Kept (id : Int) (w w' : World) : Prop where
  payment : ∀ row, w.payments.get id = some row → ∃ row', w'.payments.get id = some row' ∧
    row' = { row with
      status := row'.status
      updatedAt := row'.updatedAt
      expiresAt := row'.expiresAt } ∧
    (row.status = .success → row'.status = .success)
  balance : ∀ k b, w.balances.get k = some b → ∃ b', w'.balances.get k = some b' ∧
    b'.decimals = b.decimals

/-- A write to a resolved payment leaves it resolved. -/
def LeavesSuccess (id : Int) (e : Entry Stmt Env World) (w : World) : Prop :=
  match e.stmt with
  | .updatePayment p => p.id = id → p.status ≠ .success → paymentStatus id w ≠ some .success
  | .extendPaymentExpiry p => p.id = id → p.status ≠ .success → paymentStatus id w ≠ some .success
  | _ => True

namespace Kept

variable {id : Int} {u v w : World}

theorem of_eq (hpayment : w.payments.get id = v.payments.get id)
    (hbalances : w.balances = v.balances) : Kept id v w where
  payment row hrow := ⟨row, hpayment.trans hrow, rfl, fun h => h⟩
  balance k b hb := ⟨b, by rw [hbalances, hb], rfl⟩

theorem refl (id : Int) (w : World) : Kept id w w := of_eq rfl rfl

theorem trans (h : Kept id u v) (h' : Kept id v w) : Kept id u w := by
  constructor
  · intro row hrow
    obtain ⟨row', hrow', hsame, hsuccess⟩ := h.payment row hrow
    obtain ⟨row'', hrow'', hsame', hsuccess'⟩ := h'.payment row' hrow'
    refine ⟨row'', hrow'', ?_, fun hs => hsuccess' (hsuccess hs)⟩
    rw [hsame', hsame]
  · intro k b hb
    obtain ⟨b', hb', hdecimals⟩ := h.balance k b hb
    obtain ⟨b'', hb'', hdecimals'⟩ := h'.balance k b' hb'
    exact ⟨b'', hb'', hdecimals'.trans hdecimals⟩

theorem success (h : Kept id v w) (hv : paymentStatus id v = some .success) :
    paymentStatus id w = some .success := by
  obtain ⟨row, hrow, hstatus⟩ := Option.map_eq_some_iff.mp hv
  obtain ⟨row', hrow', -, hkept⟩ := h.payment row hrow
  exact Option.map_eq_some_iff.mpr ⟨row', hrow', hkept hstatus⟩

end Kept

theorem balance_kept (st : Stmt) (env : Env) (seen w : World) {k : BalanceKey} {b : BalanceRow}
    (hb : w.balances.get k = some b) :
    ∃ b', (World.effect st env seen w).balances.get k = some b' ∧ b'.decimals = b.decimals := by
  rw [World.effect_balance, hb]
  cases st <;> try exact ⟨b, rfl, rfl⟩
  case createBalance p =>
    simp only [World.balanceAfter]
    split
    · exact ⟨b, rfl, rfl⟩
    · exact ⟨b, rfl, rfl⟩
  case updateBalanceByID p =>
    simp only [World.balanceAfter]
    split
    · exact ⟨_, rfl, rfl⟩
    · exact ⟨b, rfl, rfl⟩

theorem kept_effect {id : Int} {e : Entry Stmt Env World} {w : World} (hok : LeavesSuccess id e w) :
    Kept id w (engine.effect e.stmt e.env e.seen w) := by
  obtain ⟨st, env, seen⟩ := e
  rw [engine_effect]
  split
  · exact .refl id w
  refine ⟨fun row hrow => ?_, fun k b hb => balance_kept st env seen w hb⟩
  have hstatus : paymentStatus id w = some row.status := by
    rw [paymentStatus, paymentRow, hrow]
    rfl
  rcases World.payment_effect_cases st env seen w id with hsame | ⟨p, rfl, hid, -, hafter⟩ |
    ⟨p, rfl, hid, -, hafter⟩ | ⟨p, -, -, -, hnone, -⟩
  · exact ⟨row, hsame.trans hrow, rfl, fun h => h⟩
  · refine ⟨World.updatedPayment p row, by rw [hafter, hrow]; rfl, rfl, fun hs => ?_⟩
    by_contra hother
    exact hok hid hother (hs ▸ hstatus)
  · refine ⟨World.extendedPayment p row, by rw [hafter, hrow]; rfl, rfl, fun hs => ?_⟩
    by_contra hother
    exact hok hid hother (hs ▸ hstatus)
  · rw [hnone] at hrow
    cases hrow

theorem kept_keeper (s : Service) (id : Int) :
    Keeper s.system (fun _ => True) (LeavesSuccess id) (Kept id) where
  refl := Kept.refl id
  trans := Kept.trans
  program l := Issues.always fun _ _ _ _ => trivial
  effect _ _ _ hok := kept_effect hok
  lasting st env w _ := by
    show Kept id w (engine.lasting st env w)
    rw [engine_lasting]
    split
    · exact .refl id w
    · exact .of_eq (by rw [lasting_payments]) (lasting_balances st w)
  move m w := .of_eq (by rw [show (s.system.move m w).payments = w.payments from
    m.apply_payments w]) (by cases m <;> rfl)

/-- Balances are counted in the unit of their registered currency. -/
def InUnits (s : Service) (b : BalanceRow) : Prop :=
  ∀ c, s.currencies.getCurrencyByTicker b.key.currency = .ok c → b.decimals = c.decimals

/-- The payment's latest transaction can be read, in the unit of its currency. -/
def LatestReadable (s : Service) (id : Int) (w : World) : Prop :=
  ∃ row tx, w.getLatestTransactionByPaymentID id = some row ∧ s.entryToTransaction row = .ok tx ∧
    tx.currency.ticker = row.currency ∧ tx.currency.decimals = row.decimals

/-- How the calls of a resolution have to be answered: the mark finds the
payment unresolved and is answered if it lands, and whatever follows it gets
through. Before the mark anything may fail. -/
def GetsThrough (s : Service) (c : Cmd Stmt) (env : Env) (v : View Stmt Env World LockKey) : Prop :=
  match c with
  | .stmt _ (.updatePayment p) =>
      env.fate ≠ .unanswered ∧ paymentStatus p.id v.world ≠ some .success
  | .stmt _ (.publishPaymentStatusUpdate _ _) => env.fate = .done
  | .stmt _ (.getLatestTransactionByPaymentID id) => env.fate = .done ∧ LatestReadable s id v.world
  | .stmt _ (.getBalanceByFilter f) =>
      env.fate = .done ∧ ∀ b ∈ v.world.getBalanceByFilter f, InUnits s b
  | .stmt _ (.createBalance p) => env.fate = .done ∧ v.world.balanceFits p = true
  | .beginTx => env.fate = .done
  | .stmt _ (.getBalanceByIDWithLock _) => env.fate = .done
  | .stmt _ (.updateBalanceByID p) =>
      env.fate = .done ∧ ((engine.inside v).balanceTarget p).isSome = true
  | .stmt _ (.insertBalanceAuditLog _) => env.fate = .done
  | .commitTx => env.fate ≠ .refused
  | _ => True

/-- What a resolution of the payment meets. -/
def resolutionSurroundings (s : Service) (id : Int) : Surroundings Stmt Env World LockKey where
  rel := Kept id
  refl := Kept.refl id
  trans := Kept.trans
  admits := GetsThrough s

abbrev ResolutionAccounts (s : Service) (id : Int) {α : Type}
    (Q : Except Err α → View Stmt Env World LockKey → Deeds World → Prop) (p : Call α)
    (v : View Stmt Env World LockKey) (own : Deeds World) : Prop :=
  Accounts (resolutionSurroundings s id) engine Q p v own

/-- More was done, but nothing written. -/
structure Idled (own own' : Deeds World) : Prop where
  more : ∃ more, own' = own ++ more ∧ Unwritten more

namespace Idled

variable {own own' own'' : Deeds World}

theorem trans (h : Idled own own') (h' : Idled own' own'') : Idled own own'' := by
  obtain ⟨more, rfl, hmore⟩ := h.more
  obtain ⟨more', rfl, hmore'⟩ := h'.more
  exact ⟨more ++ more', List.append_assoc _ _ _, hmore.append hmore'⟩

theorem single {w w' : World} (hpayments : w'.payments = w.payments)
    (hbalances : w'.balances = w.balances) : Idled own (own ++ [(w, w')]) :=
  ⟨_, rfl, .single hpayments hbalances⟩

theorem unwritten (h : Idled own own') (hown : Unwritten own) : Unwritten own' := by
  obtain ⟨more, rfl, hmore⟩ := h.more
  exact hown.append hmore

end Idled

section Rules

variable {s : Service} {id : Int} {α : Type} {u : World} {own : Deeds World}
  {Q : Except Err α → View Stmt Env World LockKey → Deeds World → Prop}

/-- A read on the pool. -/
theorem reads {st : Stmt} {k : Reply st → Call α} {x : Session Stmt Env World LockKey}
    (hst : st.changes = none)
    (h : ∀ w env r own', Kept id u w → GetsThrough s (.stmt .pool st) env ⟨w, x⟩ →
      r = engine.reply st env w → Idled own own' → ResolutionAccounts s id Q (k r) ⟨w, x⟩ own') :
    ResolutionAccounts s id Q (.call (.stmt .pool st) k) ⟨u, x⟩ own := by
  refine Accounts.pool fun w env hrel hadmits => ?_
  rw [autocommit_of_read hst]
  exact h w env _ _ hrel hadmits rfl (.single rfl rfl)

/-- A statement in the transaction is logged and writes nothing yet. -/
theorem logs {st : Stmt} {k : Reply st → Call α} {log : Log Stmt Env World}
    (h : ∀ w env r w' own', Kept id u w → GetsThrough s (.stmt .tx st) env ⟨w, some log, []⟩ →
      r = engine.reply st env (engine.replay log w) → w'.balances = w.balances → Idled own own' →
      ResolutionAccounts s id Q (k r)
        ⟨w', some (log ++ [⟨st, env, engine.replay log w⟩]), []⟩ own') :
    ResolutionAccounts s id Q (.call (.stmt .tx st) k) ⟨u, some log, []⟩ own := by
  refine Accounts.tx fun w env hrel hadmits => ?_
  have hbalances : (engine.lasting st env w).balances = w.balances := by
    rw [engine_lasting]
    split
    · rfl
    · exact lasting_balances st w
  have hpayments : (engine.lasting st env w).payments = w.payments := by
    rw [engine_lasting]
    split
    · rfl
    · exact lasting_payments st w
  exact h w env _ _ _ hrel hadmits rfl hbalances (.single hpayments hbalances)

end Rules

/-- The log of one ledger change: the row was locked, changed and audited. -/
structure LedgerLog (p : UpdateBalanceByIDParams) (log : Log Stmt Env World) : Prop where
  entries : ∃ lock update audit row, log = [lock, update, audit] ∧ lock.stmt.changes = none ∧
    update.stmt = .updateBalanceByID p ∧ update.env.fate = .done ∧
    (update.seen.balanceTarget p).isSome = true ∧ audit.stmt = .insertBalanceAuditLog row

theorem LedgerLog.replay {p : UpdateBalanceByIDParams} {log : Log Stmt Env World}
    (h : LedgerLog p log) {w : World} (hrow : (w.balances.get p.key).isSome = true) :
    (engine.replay log w).payments = w.payments ∧
      ∀ k, (engine.replay log w).amountAt k =
        w.amountAt k + if k = p.key then p.amount else 0 := by
  obtain ⟨lock, ⟨st, env, seen⟩, ⟨ast, aenv, aseen⟩, row, rfl, hlock, hupdate, hdone, htarget,
    haudit⟩ := h.entries
  obtain rfl : st = .updateBalanceByID p := hupdate
  obtain rfl : ast = .insertBalanceAuditLog row := haudit
  dsimp only at hdone htarget
  have hreplay : engine.replay [lock, ⟨.updateBalanceByID p, env, seen⟩,
      ⟨.insertBalanceAuditLog row, aenv, aseen⟩] w =
        engine.effect (.insertBalanceAuditLog row) aenv aseen
          (World.effect (.updateBalanceByID p) env seen w) := by
    have hread : engine.effect lock.stmt lock.env lock.seen w = w := by
      rw [engine_effect, World.effect_of_read hlock, ite_self]
    have hwrite : engine.effect (.updateBalanceByID p) env seen w =
        World.effect (.updateBalanceByID p) env seen w := by
      rw [engine_effect, hdone, if_neg (fun h => by cases h)]
    show engine.effect (.insertBalanceAuditLog row) aenv aseen
      (engine.effect (.updateBalanceByID p) env seen
        (engine.effect lock.stmt lock.env lock.seen w)) = _
    rw [hread, hwrite]
  have haudited : ∀ u : World,
      (engine.effect (.insertBalanceAuditLog row) aenv aseen u).balances = u.balances ∧
        (engine.effect (.insertBalanceAuditLog row) aenv aseen u).payments = u.payments := by
    intro u
    rw [engine_effect]
    split
    · exact ⟨rfl, rfl⟩
    · exact ⟨World.effect_balances (fun h => by cases h),
        World.effect_payments (fun h => by cases h)⟩
  rw [hreplay]
  refine ⟨(haudited _).2.trans (World.effect_payments (fun h => by cases h)), fun k => ?_⟩
  rw [amountAt_congr (haudited _).1, World.amountAt, World.amountAt, World.effect_balance,
    World.balanceAfter]
  by_cases hk : k = p.key
  · subst hk
    obtain ⟨b, hb⟩ := Option.isSome_iff_exists.mp hrow
    simp [htarget, hb, World.updatedBalance]
  · have hother : ¬ p.key = k := fun h => hk h.symm
    simp [hk, hother]

/-- The row is there, in the unit of the amount. -/
def Fits (k : BalanceKey) (amount : Money) (w : World) : Prop :=
  k.currency = amount.ticker ∧ ∃ b, w.balances.get k = some b ∧ b.decimals = amount.decimals

theorem Fits.kept {id : Int} {k : BalanceKey} {amount : Money} {w w' : World}
    (h : Fits k amount w) (hkept : Kept id w w') : Fits k amount w' := by
  obtain ⟨hcurrency, b, hb, hdecimals⟩ := h
  obtain ⟨b', hb', hsame⟩ := hkept.balance k b hb
  exact ⟨hcurrency, b', hb', hsame.trans hdecimals⟩

theorem Fits.congr {k : BalanceKey} {amount : Money} {w w' : World} (h : Fits k amount w)
    (hbalances : w'.balances = w.balances) : Fits k amount w' := by
  rw [Fits, hbalances]
  exact h

/-- Inside the transaction the change is logged, and nothing is written. -/
theorem changeBalanceByID_accounts {s : Service} {id : Int} {k : BalanceKey}
    {q : UpdateBalanceByIDQuery} {u : World} {own : Deeds World} (hfits : Fits k q.amount u)
    (hvalid : q.validate = .ok ()) :
    ResolutionAccounts s id
      (fun x v' own' => ∃ b log now, x = .ok (some b) ∧ v'.session = ⟨some log, []⟩ ∧
        LedgerLog ⟨k, now, q.operation.signed q.amount⟩ log ∧ Fits k q.amount v'.world ∧
        Idled own own')
      (changeBalanceByID .tx k q) ⟨u, ⟨some [], []⟩⟩ own := by
  unfold changeBalanceByID
  rw [hvalid]
  refine logs fun w env locked w₁ own₁ hrel hdone hlocked hsame hown => ?_
  replace hdone : env.fate = .done := hdone
  obtain ⟨hcurrency, b, hb, hdecimals⟩ := hfits.kept hrel
  obtain rfl : b.key = k := (Table.get_eq_some hb).2
  have hreply : locked = .ok b := by
    refine hlocked.trans ((answered_done hdone _ _).trans ?_)
    rw [Engine.replay_nil, hb]
    rfl
  have hunit : (entryToBalance b).amount.compatibleTo q.amount = true :=
    Money.compatibleTo_iff.mpr ⟨hcurrency, hdecimals⟩
  rw [hreply]
  simp only [wrapErr_ok, succeed, Prog.ofExcept_ok, Prog.ret_bind, hunit, if_true, Prog.bind_eq]
  have hstill : Fits b.key q.amount w₁ := Fits.congr ⟨hcurrency, b, hb, hdecimals⟩ hsame
  refine reads rfl fun w₂ env₂ now own₂ hrel₂ _ _ hown₂ => ?_
  refine logs fun w₃ env₃ updated w₄ own₄ hrel₃ hadmits₃ hupdated hsame₃ hown₄ => ?_
  obtain ⟨hdone₃, htarget⟩ := hadmits₃
  obtain ⟨changed, hchanged⟩ := reply_of_balanceTarget hdone₃ htarget
  obtain rfl : updated = .ok changed := hupdated.trans hchanged
  replace hstill := ((hstill.kept hrel₂).kept hrel₃).congr hsame₃
  refine reads rfl fun w₅ env₅ _ own₅ hrel₅ _ _ hown₅ => ?_
  refine logs fun w₆ env₆ audited w₇ own₇ hrel₆ hdone₆ haudited hsame₆ hown₇ => ?_
  obtain rfl : audited = .ok () := haudited.trans (answered_done hdone₆ _ _)
  refine Accounts.ret fun w₈ hrel₈ => ?_
  replace hstill := (((hstill.kept hrel₅).kept hrel₆).congr hsame₆).kept hrel₈
  refine ⟨entryToBalance changed, _, now, rfl, rfl,
    ⟨_, _, _, _, rfl, rfl, rfl, hdone₃, htarget, rfl⟩,
    hstill, ?_⟩
  exact (((hown.trans hown₂).trans hown₄).trans hown₅).trans hown₇

/-- More was done, and it added `x` to the balance `k` and nothing to any other. -/
structure Pays (k : BalanceKey) (x : Int) (own own' : Deeds World) : Prop where
  more : ∃ more, own' = own ++ more ∧ ∀ k', gain k' more = if k' = k then x else 0

theorem Idled.pays {k : BalanceKey} {x : Int} {own own' own'' : Deeds World}
    (h : Idled own own') (h' : Pays k x own' own'') : Pays k x own own'' := by
  obtain ⟨more, rfl, hmore⟩ := h.more
  obtain ⟨more', rfl, hpays⟩ := h'.more
  refine ⟨more ++ more', List.append_assoc _ _ _, fun k' => ?_⟩
  rw [gain_append, hmore.gain, Int.zero_add, hpays k']

theorem Pays.trans {k : BalanceKey} {x : Int} {own own' own'' : Deeds World}
    (h : Pays k 0 own own') (h' : Pays k x own' own'') : Pays k x own own'' := by
  obtain ⟨more, rfl, hmore⟩ := h.more
  obtain ⟨more', rfl, hpays⟩ := h'.more
  refine ⟨more ++ more', List.append_assoc _ _ _, fun k' => ?_⟩
  rw [gain_append, hmore k', ite_self, Int.zero_add, hpays k']

theorem Idled.pays_nothing {own own' : Deeds World} (h : Idled own own') (k : BalanceKey) :
    Pays k 0 own own' := by
  obtain ⟨more, rfl, hmore⟩ := h.more
  refine ⟨more, rfl, fun k' => ?_⟩
  rw [hmore.gain, ite_self]

/-- The change is committed as a whole, whether or not the commit is answered. -/
theorem updateBalanceByID_accounts {s : Service} {id : Int} {k : BalanceKey}
    {q : UpdateBalanceByIDQuery} {u : World} {own : Deeds World} (hfits : Fits k q.amount u)
    (hvalid : q.validate = .ok ()) :
    ResolutionAccounts s id
      (fun _ v' own' => v'.session = .idle ∧ Pays k (q.operation.signed q.amount) own own')
      (updateBalanceByID k q) ⟨u, .idle⟩ own := by
  unfold updateBalanceByID
  rw [hvalid]
  refine Accounts.call fun w env hrel hdone => ?_
  have hopens : engine.opens env = true := decide_eq_true hdone
  have hperform : engine.perform .beginTx env ⟨w, .idle⟩ = (true, ⟨w, some [], []⟩) := by
    simp [Engine.perform, hopens, Session.idle]
  rw [hperform]
  show ResolutionAccounts s id _ ((changeBalanceByID .tx k q).attempt.bind _) ⟨w, some [], []⟩ _
  refine Accounts.attempt_bind (changeBalanceByID_accounts (hfits.kept hrel) hvalid) ?_
  rintro x ⟨w₁, session⟩ own₁ ⟨b, log, now, rfl, hsession, hlog, hstill, hown⟩
  obtain rfl : session = ⟨some log, []⟩ := hsession
  refine Accounts.call fun w₂ env₂ hrel₂ hlands => ?_
  have hcommit : engine.perform .commitTx env₂ ⟨w₂, some log, []⟩ =
      (engine.acknowledged env₂, ⟨engine.replay log w₂, .idle⟩) := by
    have hlands' : engine.lands env₂ = true := decide_eq_true hlands
    simp [Engine.perform, hlands', Session.idle]
  rw [hcommit]
  obtain ⟨-, b', hb', -⟩ := hstill.kept hrel₂
  obtain ⟨-, hamount⟩ := hlog.replay (w := w₂) (by rw [hb']; rfl)
  have hpays : Pays k (q.operation.signed q.amount) own
      (own₁ ++ [(w₂, engine.replay log w₂)]) := by
    refine (Idled.single rfl rfl).pays (hown.pays ⟨_, rfl, fun k' => ?_⟩)
    rw [gain_single]
    dsimp only
    rw [hamount k', add_sub_cancel_left]
  show ResolutionAccounts s id _ (if engine.acknowledged env₂ = true then .ret (some b)
    else .fail _) ⟨engine.replay log w₂, .idle⟩ _
  split
  · exact Accounts.ret fun _ _ => ⟨rfl, hpays⟩
  · exact Accounts.fail fun _ _ => ⟨rfl, hpays⟩

/-- The merchant's balance in the currency of a transaction. -/
structure MerchantKey (merchantID : Int) (tx : Transaction) (k : BalanceKey) : Prop where
  entityType : k.entityType = .merchant
  entityID : k.entityID = merchantID
  networkID : k.networkID = tx.networkID
  currency : k.currency = tx.currency.ticker

theorem merchantKey_of_found {merchantID : Int} {tx : Transaction} {w : World} {b : BalanceRow}
    (h : w.getBalanceByFilter ⟨merchantID, .merchant, tx.networkID, tx.currency.ticker⟩ = some b) :
    MerchantKey merchantID tx b.key ∧ w.balances.get b.key = some b := by
  have hfound := List.find?_some h
  simp only [Bool.and_eq_true, decide_eq_true_eq] at hfound
  obtain ⟨⟨⟨hid, htype⟩, hnetwork⟩, hcurrency⟩ := hfound
  exact ⟨⟨htype, hid, hnetwork, hcurrency⟩, Table.get_of_mem (List.mem_of_find?_eq_some h)⟩

/-- Opening a balance adds nothing to it. -/
theorem createBalance_adds {p : CreateBalanceParams} {env : Env} {w : World}
    (hdone : env.fate = .done) (hfits : w.balanceFits p = true) (hzero : p.amount = 0) :
    (engine.autocommit (.createBalance p) env w).balances.get p.key = some (World.newBalance p) ∧
      ∀ k, (engine.autocommit (.createBalance p) env w).amountAt k = w.amountAt k := by
  have hafter : engine.autocommit (.createBalance p) env w =
      World.effect (.createBalance p) env w w := by
    simp only [Engine.autocommit, engine_effect, engine_lasting, hdone, reduceCtorEq, if_false,
      World.lasting]
  have hfree : w.balances.get p.key = none := by
    simp only [World.balanceFits, Bool.and_eq_true, Option.isNone_iff_eq_none] at hfits
    exact hfits.1.1.1.1
  rw [hafter, World.effect_balance, World.balanceAfter, if_pos ⟨hfits, rfl⟩, hfree]
  refine ⟨rfl, fun k => ?_⟩
  rw [World.amountAt, World.amountAt, World.effect_balance, World.balanceAfter]
  by_cases hk : p.key = k
  · subst hk
    rw [if_pos ⟨hfits, rfl⟩, hfree]
    exact hzero
  · rw [if_neg fun h => hk h.2]

/-- The balance is there afterwards, or was opened with nothing on it. -/
theorem ensureBalance_accounts {s : Service} {id merchantID : Int} {tx : Transaction} {u : World}
    (amount : Money) {own : Deeds World}
    (hcurrency : s.currencies.getCurrencyByTicker tx.currency.ticker = .ok tx.currency)
    (hticker : tx.currency.ticker = amount.ticker)
    (hdecimals : tx.currency.decimals = amount.decimals) :
    ResolutionAccounts s id
      (fun x v' own' => ∃ b, x = .ok b ∧ v'.session = .idle ∧ MerchantKey merchantID tx b.id ∧
        Fits b.id amount v'.world ∧ Pays b.id 0 own own')
      (ensureBalance .merchant merchantID tx.currency tx.isTest) ⟨u, .idle⟩ own := by
  refine reads rfl fun w env found own₁ _ hadmits hfound hown => ?_
  obtain ⟨hdone, hunits⟩ := hadmits
  replace hfound : found = noRows (w.getBalanceByFilter
      ⟨merchantID, .merchant, tx.networkID, tx.currency.ticker⟩) :=
    hfound.trans (answered_done hdone _ _)
  subst hfound
  cases hget : w.getBalanceByFilter ⟨merchantID, .merchant, tx.networkID, tx.currency.ticker⟩ with
  | some b =>
    obtain ⟨hkey, hrow⟩ := merchantKey_of_found hget
    have hunit : b.decimals = tx.currency.decimals :=
      hunits b hget tx.currency (hkey.currency ▸ hcurrency)
    have hfits : Fits b.key amount w :=
      ⟨hkey.currency.trans hticker, b, hrow, hunit.trans hdecimals⟩
    refine Accounts.ret fun w' hrel => ?_
    exact ⟨entryToBalance b, rfl, rfl, hkey, hfits.kept hrel, hown.pays_nothing _⟩
  | none =>
    refine reads rfl fun w₂ env₂ now own₂ _ _ _ hown₂ => ?_
    refine Accounts.pool fun w₃ env₃ _ hadmits₃ => ?_
    obtain ⟨hdone₃, hroom⟩ := hadmits₃
    obtain ⟨hrow, hamount⟩ := createBalance_adds hdone₃ hroom rfl
    let p : CreateBalanceParams := {
      key := ⟨.merchant, merchantID, tx.currency.blockchain, tx.networkID, tx.currency.ticker⟩
      createdAt := now
      updatedAt := now
      currencyType := tx.currency.type
      decimals := tx.currency.decimals
      amount := 0 }
    have hreply : engine.reply (.createBalance p) env₃ w₃ = .ok (World.newBalance p) :=
      (answered_done hdone₃ _ _).trans (if_pos hroom)
    have hfits : Fits p.key amount (engine.autocommit (.createBalance p) env₃ w₃) :=
      ⟨hticker, World.newBalance p, hrow, hdecimals⟩
    have hopened : Pays p.key 0 own
        (own₂ ++ [(w₃, engine.autocommit (.createBalance p) env₃ w₃)]) := by
      refine (hown.trans hown₂).pays ⟨_, rfl, fun k => ?_⟩
      have hsame : (engine.autocommit (.createBalance p) env₃ w₃).amountAt k = w₃.amountAt k :=
        hamount k
      rw [gain_single, hsame, ite_self, Int.sub_self]
    show ResolutionAccounts s id _ ((succeed (engine.reply (.createBalance p) env₃ w₃)).bind _)
      ⟨engine.autocommit (.createBalance p) env₃ w₃, .idle⟩
      (own₂ ++ [(w₃, engine.autocommit (.createBalance p) env₃ w₃)])
    rw [hreply]
    refine Accounts.ret fun w' hrel => ?_
    exact ⟨entryToBalance (World.newBalance p), rfl, rfl, ⟨rfl, rfl, rfl, rfl⟩, hfits.kept hrel,
      hopened⟩

/-- The call paid the merchant what a transaction of the payment had received. -/
structure Credit (s : Service) (merchantID id : Int) (own own' : Deeds World) : Prop where
  pays : ∃ w row tx k, (∃ d ∈ own', d.1 = w) ∧ w.getLatestTransactionByPaymentID id = some row ∧
    s.entryToTransaction row = .ok tx ∧ MerchantKey merchantID tx k ∧
    Pays k (row.factAmount.getD 0) own own'

theorem creditResolved_accounts {s : Service} {id merchantID : Int} {u : World}
    (own : Deeds World) :
    ResolutionAccounts s id (fun x _ own' => x = .ok () ∧ Credit s merchantID id own own')
      (s.creditResolved merchantID id) ⟨u, .idle⟩ own := by
  refine Accounts.pool fun w env _ hadmits => ?_
  obtain ⟨hdone, row, tx, hrow, htx, hticker, hdecimals⟩ := hadmits
  have hown : Idled own
      (own ++ [(w, engine.autocommit (.getLatestTransactionByPaymentID id) env w)]) := by
    rw [autocommit_of_read rfl]
    exact .single rfl rfl
  have hseen : (w, engine.autocommit (.getLatestTransactionByPaymentID id) env w) ∈
      own ++ [(w, engine.autocommit (.getLatestTransactionByPaymentID id) env w)] :=
    List.mem_append_right _ (List.mem_singleton.mpr rfl)
  rw [autocommit_of_read (s := .getLatestTransactionByPaymentID id) rfl] at hown hseen ⊢
  generalize own ++ [(w, w)] = own₁ at hown hseen ⊢
  have hreply : engine.reply (.getLatestTransactionByPaymentID id) env w = .ok row := by
    refine (answered_done hdone _ _).trans ?_
    rw [hrow]
    rfl
  have hloaded : s.toTransaction (engine.reply (.getLatestTransactionByPaymentID id) env w) =
      .ok tx := by
    rw [hreply]
    exact htx
  obtain ⟨currency, fee, hcurrency, -, rfl⟩ := s.entryToTransaction_eq_ok htx
  have hkey : s.currencies.getCurrencyByTicker currency.ticker = .ok currency := by
    have hsame : currency.ticker = row.currency := hticker
    rw [hsame]
    exact hcurrency
  show ResolutionAccounts s id _ ((succeed (s.toTransaction (engine.reply
    (.getLatestTransactionByPaymentID id) env w))).attempt.bind _) ⟨w, .idle⟩ own₁
  rw [hloaded]
  simp only [succeed, Prog.ofExcept_ok, Prog.attempt, Prog.ret_bind]
  have nothing : row.factAmount.getD 0 = 0 → ResolutionAccounts s id
      (fun x _ own' => x = .ok () ∧ Credit s merchantID id own own') (pure () : Call Unit)
      ⟨w, .idle⟩
        own₁ := by
    intro hzero
    refine Accounts.ret fun _ _ =>
      ⟨rfl, w, row, _, ⟨.merchant, merchantID, "", _, _⟩, ⟨_, hseen, rfl⟩,
      hrow, htx, ⟨rfl, rfl, rfl, rfl⟩, ?_⟩
    rw [hzero]
    exact hown.pays_nothing _
  have hreceived : (Service.transactionOf row currency fee).factAmount =
      row.factAmount.map fun x => Money.crypto row.currency x row.decimals := rfl
  rw [hreceived]
  cases hfact : row.factAmount with
  | none => exact nothing (by rw [hfact]; rfl)
  | some x =>
    dsimp only [Option.map_some]
    split
    · rename_i hzero
      refine nothing ?_
      rw [hfact]
      exact of_decide_eq_true hzero
    · rename_i hnonzero
      -- the amount received is paid on the balance that is there or was opened
      let factAmount := Money.crypto row.currency x row.decimals
      refine Accounts.attempt_bind (ensureBalance_accounts factAmount hkey hticker hdecimals) ?_
      rintro _ ⟨w₂, session⟩ own₂ ⟨b, rfl, hsession, hmerchant, hfits, hopened⟩
      obtain rfl : session = .idle := hsession
      have hvalid : (UpdateBalanceByIDQuery.mk .increment factAmount (Service.resolveComment id)
          []).validate = .ok () := if_neg hnonzero
      refine Accounts.attempt_bind (updateBalanceByID_accounts hfits hvalid) ?_
      rintro _ ⟨w₃, session⟩ own₃ ⟨-, hpays⟩
      refine Accounts.ret fun _ _ => ?_
      have hpaid : Pays b.id x own₁ own₃ := hopened.trans hpays
      have hmem : (w, w) ∈ own₃ := by
        obtain ⟨more, rfl, -⟩ := hpaid.more
        exact List.mem_append_left _ hseen
      refine ⟨rfl, w, row, _, b.id, ⟨_, hmem, rfl⟩, hrow, htx, hmerchant, ?_⟩
      rw [hfact]
      exact hown.pays hpaid

/-- The payment's row still has the price the call has read. -/
def Priced (id : Int) (w : World) : Prop :=
  ∃ row pt, w.payments.get id = some row ∧ entryToPayment row = .ok pt

theorem entryToPayment_of_updated {row : PaymentRow} {pt : Payment} (status : Payment.Status)
    (updatedAt : Int) (expiresAt : Option Int) (h : entryToPayment row = .ok pt) :
    ∃ pt', entryToPayment { row with
      status := status
      updatedAt := updatedAt
      expiresAt := expiresAt } = .ok pt' ∧ pt'.id = row.id ∧ pt'.merchantID = row.merchantID := by
  unfold entryToPayment at h ⊢
  cases hprice : paymentPrice row (row.metadata.getD []) with
  | error e => simp [hprice, bind, Except.bind] at h
  | ok price =>
    have hsame : paymentPrice { row with
        status := status
        updatedAt := updatedAt
        expiresAt := expiresAt } (row.metadata.getD []) = .ok price := hprice
    simp only [hsame, bind, Except.bind]
    exact ⟨_, rfl, rfl, rfl⟩

theorem Priced.kept {id : Int} {w w' : World} (h : Priced id w) (hkept : Kept id w w') :
    Priced id w' := by
  obtain ⟨row, pt, hrow, hpt⟩ := h
  obtain ⟨row', hrow', hsame, -⟩ := hkept.payment row hrow
  obtain ⟨pt', hpt', -⟩ := entryToPayment_of_updated row'.status row'.updatedAt
    row'.expiresAt hpt
  refine ⟨row', pt', hrow', ?_⟩
  rw [hsame]
  exact hpt'

/-- The call turned the payment to success, and wrote no balance. -/
structure Marks (id : Int) (own own' : Deeds World) : Prop where
  more : ∃ more, own' = own ++ more ∧ (∀ k, gain k more = 0) ∧
    ∃ d ∈ more, paymentStatus id d.1 ≠ some .success ∧ paymentStatus id d.2 = some .success

theorem Marks.idled {id : Int} {own own' own'' : Deeds World} (h : Idled own own')
    (h' : Marks id own' own'') : Marks id own own'' := by
  obtain ⟨more, rfl, hmore⟩ := h.more
  obtain ⟨more', rfl, hgain, d, hd, hturned⟩ := h'.more
  refine ⟨more ++ more', List.append_assoc _ _ _, fun k => ?_, d, List.mem_append_right _ hd,
    hturned⟩
  rw [gain_append, hmore.gain, hgain, Int.add_zero]

theorem Marks.then_idled {id : Int} {own own' own'' : Deeds World} (h : Marks id own own')
    (h' : Idled own' own'') : Marks id own own'' := by
  obtain ⟨more, rfl, hgain, d, hd, hturned⟩ := h.more
  obtain ⟨more', rfl, hmore⟩ := h'.more
  refine ⟨more ++ more', List.append_assoc _ _ _, fun k => ?_, d, List.mem_append_left _ hd,
    hturned⟩
  rw [gain_append, hmore.gain, hgain, Int.add_zero]

/-- What the database did with the mark, once its answer is not lost. -/
theorem mark_cases {p : UpdatePaymentParams} {env : Env} {w : World}
    (hanswered : env.fate ≠ .unanswered) :
    (∃ e, engine.reply (.updatePayment p) env w = .error e ∧
      engine.autocommit (.updatePayment p) env w = w) ∨
    ∃ row, w.payments.get p.id = some row ∧
      engine.reply (.updatePayment p) env w = .ok (World.updatedPayment p row) ∧
      (engine.autocommit (.updatePayment p) env w).balances = w.balances ∧
      (engine.autocommit (.updatePayment p) env w).payments.get p.id =
        some (World.updatedPayment p row) := by
  have hafter : env.fate = .done → engine.autocommit (.updatePayment p) env w =
      World.effect (.updatePayment p) env w w := by
    intro hdone
    simp only [Engine.autocommit, engine_effect, engine_lasting, hdone, reduceCtorEq, if_false,
      World.lasting]
  cases hfate : env.fate with
  | unanswered => exact absurd hfate hanswered
  | refused =>
    refine .inl ⟨Err.of .database, if_neg (by rw [hfate]; decide), ?_⟩
    simp [Engine.autocommit, engine_effect, engine_lasting, hfate]
  | done =>
    have hreply : engine.reply (.updatePayment p) env w =
        noRows ((w.paymentTarget p.id p.merchantID).map (World.updatedPayment p)) :=
      answered_done hfate _ _
    rw [hafter hfate]
    cases htarget : w.paymentTarget p.id p.merchantID with
    | none =>
      refine .inl ⟨Err.of .noRows, ?_, ?_⟩
      · rw [hreply, htarget]
        rfl
      · simp [World.effect, htarget]
    | some row =>
      obtain ⟨hget, -⟩ := paymentTarget_eq_some htarget
      refine .inr ⟨row, hget, ?_, World.effect_balances (fun h => by cases h), ?_⟩
      · rw [hreply, htarget]
        rfl
      · simp only [World.effect, htarget]
        rw [Table.get_modify_self, hget]
        rfl

/-- What the mark comes to: with an error nothing was written. -/
def MarkedOrNot (id : Int) (own own' : Deeds World) : Except Err Payment → Prop
  | .ok pt => pt.id = id ∧ Marks id own own'
  | .error _ => Idled own own'

/-- The mark and its announcement. -/
theorem updatePayment_accounts {s : Service} {id merchantID : Int} {u : World} {own : Deeds World}
    (hpriced : Priced id u) :
    ResolutionAccounts s id (fun x v' own' => v'.session = .idle ∧ MarkedOrNot id own own' x)
      (Service.updatePayment merchantID id .success) ⟨u, .idle⟩ own := by
  unfold Service.updatePayment
  refine reads rfl fun w₁ env₁ now own₁ hrel₁ _ _ hown₁ => ?_
  refine Accounts.pool fun w env hrel hadmits => ?_
  obtain ⟨hanswered, hunresolved⟩ := hadmits
  replace hpriced := (hpriced.kept hrel₁).kept hrel
  let p : UpdatePaymentParams := ⟨id, merchantID, .success, now, none, false⟩
  show ResolutionAccounts s id _ ((succeed (orNotFound .errPaymentNotFound
    (engine.reply (.updatePayment p) env w))).bind _)
    ⟨engine.autocommit (.updatePayment p) env w, .idle⟩
    (own₁ ++ [(w, engine.autocommit (.updatePayment p) env w)])
  rcases mark_cases (p := p) hanswered with ⟨e, hreply, hsame⟩ |
    ⟨row, hget, hreply, hbalances, hafter⟩
  · rw [hreply, hsame]
    exact Accounts.fail fun _ _ => ⟨rfl, hown₁.trans (.single rfl rfl)⟩
  · have hmarks : Marks id own (own₁ ++ [(w, engine.autocommit (.updatePayment p) env w)]) := by
      refine .idled hown₁ ⟨_, rfl, fun k => ?_, _, List.mem_singleton.mpr rfl, hunresolved, ?_⟩
      · rw [gain_single]
        dsimp only
        rw [amountAt_congr hbalances, Int.sub_self]
      · rw [paymentStatus, paymentRow, hafter]
        rfl
    obtain ⟨row', pt, hrow', hpt⟩ := hpriced
    obtain rfl : row' = row := Option.some.inj (hrow'.symm.trans hget)
    obtain ⟨pt', hpt', hid, -⟩ := entryToPayment_of_updated p.status p.updatedAt
      row'.expiresAt hpt
    have hloaded : entryToPayment (World.updatedPayment p row') = .ok pt' := hpt'
    rw [hreply]
    have hrow : row'.id = id := (Table.get_eq_some hget).2
    simp only [orNotFound, succeed, Prog.ofExcept_ok, Prog.ret_bind, hloaded]
    split
    · refine reads rfl fun w₂ env₂ published own₂ _ hdone hpublished hown₂ => ?_
      obtain rfl : published = .ok () := hpublished.trans (answered_done hdone _ _)
      exact Accounts.ret fun _ _ => ⟨rfl, hid.trans hrow, hmarks.then_idled hown₂⟩
    · exact Accounts.ret fun _ _ => ⟨rfl, hid.trans hrow, hmarks⟩

/-- The call marked the payment. If that was underpaid when the call looked, the
merchant's balance has grown by what the transaction had received, and no other
balance has changed. -/
structure Resolved (s : Service) (merchantID id : Int) (own : Deeds World) : Prop where
  success : ∃ d ∈ own, paymentStatus id d.1 ≠ some .success ∧
    paymentStatus id d.2 = some .success
  credited : (∃ w ∈ firstSeen own, paymentStatus id w = some .underpaid) →
    ∃ d ∈ own, ∃ row ∈ d.1.getLatestTransactionByPaymentID id, ∃ tx k,
      s.entryToTransaction row = .ok tx ∧ MerchantKey merchantID tx k ∧
      ∀ k', gain k' own = if k' = k then row.factAmount.getD 0 else 0
  failed : (∃ w ∈ firstSeen own, paymentStatus id w = some .failed) → ∀ k, gain k own = 0

/-- A call that returned without an error has resolved the payment, one that
failed has written nothing. -/
def AllOrNothing (s : Service) (merchantID id : Int) {α : Type} :
    Except Err α → Deeds World → Prop
  | .ok _, own => Resolved s merchantID id own
  | .error _, own => Unwritten own

theorem toPayment_eq_ok {x : Except Err PaymentRow} {pt : Payment} (h : toPayment x = .ok pt) :
    ∃ row, x = .ok row ∧ entryToPayment row = .ok pt := by
  cases x with
  | error e => cases h
  | ok row => exact ⟨row, rfl, h⟩

theorem entryToPayment_fields {row : PaymentRow} {pt : Payment} (h : entryToPayment row = .ok pt) :
    pt.id = row.id ∧ pt.status = row.status := by
  unfold entryToPayment at h
  cases hprice : paymentPrice row (row.metadata.getD []) with
  | error e => simp [hprice, bind, Except.bind] at h
  | ok price =>
    simp only [hprice, bind, Except.bind, Except.ok.injEq] at h
    subst h
    exact ⟨rfl, rfl⟩

section

variable {s : Service} {id merchantID : Int} {w : World} {own own' : Deeds World}
  {status : Payment.Status}

/-- A call that found the payment failed is done with the mark. -/
theorem resolved_of_marks (hseen : paymentStatus id w = some status)
    (hstatus : status ≠ .underpaid) (h : Marks id [(w, w)] own) :
    Resolved s merchantID id own := by
  obtain ⟨more, rfl, hgain, d, hd, hturned⟩ := h.more
  refine ⟨⟨d, List.mem_append_right _ hd, hturned⟩, ?_, fun _ k => ?_⟩
  · rintro ⟨w', hw', hunderpaid⟩
    obtain rfl : w = w' := Option.some.inj hw'
    rw [hseen] at hunderpaid
    exact absurd (Option.some.inj hunderpaid) hstatus
  · rw [gain_append, gain_single, hgain, Int.add_zero, Int.sub_self]

/-- A call that found it underpaid is done with the credit. -/
theorem resolved_of_credit (hseen : paymentStatus id w = some status)
    (hstatus : status = .underpaid) (h : Marks id [(w, w)] own)
    (h' : Credit s merchantID id own own') : Resolved s merchantID id own' := by
  obtain ⟨more, rfl, hgain, d, hd, hturned⟩ := h.more
  obtain ⟨u, row, tx, k, ⟨d', hd', rfl⟩, hrow, htx, hkey, hpays⟩ := h'.pays
  obtain ⟨more', rfl, hpaid⟩ := hpays.more
  refine ⟨⟨d, List.mem_append_left _ (List.mem_append_right _ hd), hturned⟩, fun _ => ?_, ?_⟩
  · refine ⟨d', hd', row, hrow, tx, k, htx, hkey, fun k' => ?_⟩
    rw [gain_append, gain_append, gain_single, hgain, hpaid k', Int.sub_self, Int.add_zero,
      Int.zero_add]
  · rintro ⟨w', hw', hfailed⟩
    obtain rfl : w = w' := Option.some.inj hw'
    rw [hseen, hstatus] at hfailed
    cases hfailed

end

theorem resolvePayment_accounts (s : Service) (id merchantID : Int) (w : World) :
    ResolutionAccounts s id (fun x _ own => AllOrNothing s merchantID id x own)
      (s.resolvePayment merchantID id) ⟨w, .idle⟩ [] := by
  refine Accounts.pool fun w₁ env₁ hrel₁ _ => ?_
  rw [autocommit_of_read (s := .getPaymentByID _ _ _) rfl]
  have hread : Unwritten [(w₁, w₁)] := .single rfl rfl
  generalize hreply : engine.reply (.getPaymentByID id merchantID
    (decide (merchantID ≠ Transaction.merchantIDWildcard))) env₁ w₁ = reply
  show ResolutionAccounts s id _ ((succeed (toPayment reply)).bind _) ⟨w₁, .idle⟩ [(w₁, w₁)]
  cases hpayment : toPayment reply with
  | error e => exact Accounts.fail fun _ _ => hread
  | ok pt =>
    obtain ⟨row, rfl, hload⟩ := toPayment_eq_ok hpayment
    have hget := reply_getPaymentByID hreply
    obtain ⟨hid, hstatus⟩ := entryToPayment_fields hload
    replace hid : pt.id = id := hid.trans (Table.get_eq_some hget).2
    have hseen : paymentStatus id w₁ = some pt.status := by
      rw [paymentStatus, paymentRow, hget, hstatus]
      rfl
    simp only [succeed, Prog.ofExcept_ok, Prog.ret_bind]
    split
    · exact Accounts.fail fun _ _ => hread
    · rename_i hresolvable
      rw [hid, Prog.bind_eq]
      refine Accounts.bind (Accounts.mapError (updatePayment_accounts ⟨row, pt, hget, hload⟩)
        (Q := fun x v' own' => v'.session = .idle ∧ MarkedOrNot id [(w₁, w₁)] own' x) ?_) ?_ ?_
      · rintro x v' own' ⟨hsession, hmarked⟩
        refine ⟨hsession, ?_⟩
        cases x with
        | error e => exact hmarked
        | ok pt' => exact hmarked
      · rintro pt' ⟨w', session⟩ own' ⟨hsession, hid', hmarks⟩
        obtain rfl : session = .idle := hsession
        rw [hid']
        split
        · rename_i hunderpaid
          refine Accounts.bind (creditResolved_accounts own') ?_ ?_
          · rintro u v'' own'' ⟨-, hcredit⟩
            exact Accounts.ret fun _ _ => resolved_of_credit hseen hunderpaid hmarks hcredit
          · rintro e v'' own'' ⟨hok, -⟩
            cases hok
        · rename_i hpaid
          exact Accounts.ret fun _ _ => resolved_of_marks hseen hpaid hmarks
      · rintro e v' own' ⟨-, hidle⟩
        exact hidle.unwritten hread

/-- The call resolves this payment, for whichever merchant. -/
def Operation.resolves (id : Int) : Operation → Bool
  | .resolvePayment _ id' => id' = id
  | _ => false

/-- No statement takes the payment back from success, and the statements of its
resolutions get through. -/
def Undisturbed (s : Service) (id : Int) (cfg : State) (e : Event Env Move Operation) : Prop :=
  s.system.Landing (LeavesSuccess id) cfg e ∧
    ∀ a ∈ s.system.executing cfg e, a.thread.label.resolves id = true →
      GetsThrough s a.cmd a.env (a.thread.view cfg.world)

theorem along_kept {s : Service} {id : Int} {cfg : State} {es : Run}
    (h : s.system.Along (Undisturbed s id) cfg es) :
    s.system.Along (fun cfg e => Kept id cfg.world (s.system.step cfg e).world) cfg es := by
  induction es generalizing cfg with
  | nil => exact trivial
  | cons e es ih => exact ⟨(kept_keeper s id).step (issued_always cfg) h.1.1, ih h.2⟩

/-- What a resolution of the payment comes to. -/
abbrev Outcome (s : Service) (merchantID id : Int) (x : Except Err Unit)
    (_ : View Stmt Env World LockKey) (own : Deeds World) : Prop :=
  AllOrNothing s merchantID id x own

theorem along_around {s : Service} {id : Int} (merchantID : Int) {cfg : State} {es : Run} {i : ℕ}
    (h : s.system.Along (Undisturbed s id) cfg es) (hcrash : Event.crash i ∉ es) :
    s.system.Along (Around s.system (resolutionSurroundings s id) (.resolvePayment merchantID id)
      (Outcome s merchantID id) i) cfg es := by
  induction es generalizing cfg with
  | nil => exact trivial
  | cons e es ih =>
    refine ⟨⟨fun _ => (kept_keeper s id).step (issued_always cfg) h.1.1, fun a ha _ hl => ?_, ?_⟩,
      ih h.2 fun he => hcrash (List.mem_cons_of_mem _ he)⟩
    · refine h.1.2 a ha ?_
      rw [hl]
      exact decide_eq_true rfl
    · rintro rfl
      exact absurd List.mem_cons_self hcrash

/-- A resolution of the payment that was not cut off has come to its end. -/
def Ended (s : Service) (w : World) (es : Run) (i : ℕ) (merchantID id : Int)
    (x : Except Err Unit) : Prop :=
  Event.crash i ∉ es ∧ ∃ th ∈ (s.system.run ⟨w, []⟩ es).threads[i]?,
    th.label = .resolvePayment merchantID id ∧ th.prog = Prog.ofExcept x

theorem ended_allOrNothing {s : Service} {w : World} {es : Run} {i : ℕ} {merchantID id : Int}
    {x : Except Err Unit} (hrun : s.system.Along (Undisturbed s id) ⟨w, []⟩ es)
    (hended : Ended s w es i merchantID id x) :
    AllOrNothing s merchantID id x (s.system.deeds i ⟨w, []⟩ es) := by
  obtain ⟨hcrash, th, hth, hlabel, hprog⟩ := hended
  have hnew : Accountable s.system (resolutionSurroundings s id) (.resolvePayment merchantID id)
      (Outcome s merchantID id) i ⟨w, []⟩ [] := by
    refine ⟨rfl, fun w' => ?_⟩
    refine Accounts.bind (resolvePayment_accounts s id merchantID w') ?_ ?_
    · intro pt v' own' hown
      exact Accounts.ret fun _ _ => hown
    · intro e v' own' hown
      exact hown
  have hdone := hnew.run (along_around merchantID hrun hcrash)
  unfold Accountable at hdone
  rw [Option.mem_def.mp hth, List.nil_append] at hdone
  have haccounts := hdone hlabel
  rw [hprog] at haccounts
  exact haccounts.outcome

/-- Every resolution of the payment in the run is all or nothing, and at most one
of them succeeds. -/
structure ResolutionsAtomic (s : Service) (id : Int) (w : World) (es : Run) : Prop where
  returned : ∀ i merchantID, Ended s w es i merchantID id (.ok ()) →
    Resolved s merchantID id (s.system.deeds i ⟨w, []⟩ es) ∧
      paymentStatus id (s.system.run ⟨w, []⟩ es).world = some .success
  failed : ∀ i merchantID e, Ended s w es i merchantID id (.error e) →
    Unwritten (s.system.deeds i ⟨w, []⟩ es)
  once : ∀ i j merchantID merchantID', Ended s w es i merchantID id (.ok ()) →
    Ended s w es j merchantID' id (.ok ()) → i = j

/-- So it is in every run in which no statement takes the payment back from
success and the statements of its resolutions get through. -/
theorem resolution_all_or_nothing (s : Service) (id : Int) (w : World) (es : Run)
    (hrun : s.system.Along (Undisturbed s id) ⟨w, []⟩ es) : ResolutionsAtomic s id w es := by
  have hkept := along_kept hrun
  refine ⟨fun i merchantID hended => ?_, fun i merchantID e hended => ?_,
    fun i j m m' hended hended' => ?_⟩
  · have hresolved : Resolved s merchantID id (s.system.deeds i ⟨w, []⟩ es) :=
      ended_allOrNothing hrun hended
    obtain ⟨d, hd, -, hsuccess⟩ := hresolved.success
    exact ⟨hresolved, (rel_deeds (Kept id) (Kept.refl id) Kept.trans hkept hd).2.success hsuccess⟩
  · exact ended_allOrNothing hrun hended
  · have hresolved : Resolved s m id (s.system.deeds i ⟨w, []⟩ es) := ended_allOrNothing hrun hended
    have hresolved' : Resolved s m' id (s.system.deeds j ⟨w, []⟩ es) :=
      ended_allOrNothing hrun hended'
    obtain ⟨d, hd, hbefore, hafter⟩ := hresolved.success
    obtain ⟨d', hd', hbefore', hafter'⟩ := hresolved'.success
    by_contra hij
    refine brought_about_once (P := fun w => paymentStatus id w = some .success) hij ?_ hd hbefore
      hafter hd' hbefore' hafter'
    exact Along.mono _ hkept fun _ _ h => h.success

instance (s : Service) (b : BalanceRow) : Decidable (InUnits s b) :=
  match h : s.currencies.getCurrencyByTicker b.key.currency with
  | .error _ => isTrue fun c hc => by rw [h] at hc; cases hc
  | .ok c => decidable_of_iff (b.decimals = c.decimals)
      ⟨fun hd c' hc' => by rw [h] at hc'; cases hc'; exact hd, fun hu => hu c h⟩

instance (s : Service) (id : Int) (w : World) : Decidable (LatestReadable s id w) :=
  match hrow : w.getLatestTransactionByPaymentID id with
  | none => isFalse fun ⟨_, _, h, _⟩ => by rw [hrow] at h; cases h
  | some row => match htx : s.entryToTransaction row with
    | .error _ => isFalse fun ⟨_, _, h, h', _⟩ => by
        rw [hrow] at h; cases h; rw [htx] at h'; cases h'
    | .ok tx => decidable_of_iff
        (tx.currency.ticker = row.currency ∧ tx.currency.decimals = row.decimals)
        ⟨fun h => ⟨row, tx, hrow, htx, h⟩, fun ⟨_, _, h, h', h''⟩ => by
          rw [hrow] at h; cases h; rw [htx] at h'; cases h'; exact h''⟩

instance (s : Service) (c : Cmd Stmt) (env : Env) (v : View Stmt Env World LockKey) :
    Decidable (GetsThrough s c env v) := by
  delta GetsThrough
  induction c using Cmd.casesOn with
  | stmt conn st => induction st using Stmt.casesOn <;> infer_instance
  | _ => infer_instance

instance (id : Int) (e : Entry Stmt Env World) (w : World) : Decidable (LeavesSuccess id e w) := by
  delta LeavesSuccess
  generalize e.stmt = st
  induction st using Stmt.casesOn <;> infer_instance

instance (s : Service) (id : Int) (cfg : State) (e : Event Env Move Operation) :
    Decidable (Undisturbed s id cfg e) :=
  inferInstanceAs (Decidable (_ ∧ _))

open Sample

namespace Sample

/-- Sixty of a hundred ether have arrived, and the payment has run out. -/
def underpaid : World :=
  world (invoice .completedInvalid (some "0xh") (some "payer") (some 60)) .underpaid [] []

/-- The merchant resolves the payment; the `n`th call of it is answered as
`lookup` says. -/
def resolving (n : ℕ) (lookup : Fate) : Run :=
  .start (.resolvePayment 7 3) :: steps 0 n ++ [.exec 0 { fate := lookup }] ++ steps 0 10

end Sample

theorem resolution_all_or_nothing_sample :
    (∃ k, gain k (service.system.deeds 0 ⟨underpaid, []⟩ (resolving 4 .done)) = 60) ∧
      ResolutionsAtomic service 3 underpaid (resolving 4 .done) :=
  ⟨⟨⟨.merchant, 7, "ETH", "1", "ETH"⟩, by decide +kernel⟩,
    resolution_all_or_nothing service 3 underpaid (resolving 4 .done) (by decide +kernel)⟩

/-- The thread is a resolution that has returned without an error. -/
def hasReturned (merchantID id : Int)
    (th : Option (Thread Stmt Reply Env World LockKey Err Operation)) : Bool :=
  match th with
  | some ⟨.resolvePayment m p, .ret _, _⟩ => m = merchantID && p = id
  | _ => false

theorem ended_of_hasReturned {s : Service} {w : World} {es : Run} {i : ℕ} {merchantID id : Int}
    (hcrash : Event.crash i ∉ es)
    (h : hasReturned merchantID id (s.system.run ⟨w, []⟩ es).threads[i]? = true) :
    Ended s w es i merchantID id (.ok ()) := by
  refine ⟨hcrash, ?_⟩
  unfold hasReturned at h
  split at h
  · rename_i m p u session hth
    obtain ⟨rfl, rfl⟩ : m = merchantID ∧ p = id := by simpa using h
    exact ⟨_, hth, rfl, rfl⟩
  · cases h

theorem gain_of_noBalances {own : Deeds World}
    (h : ∀ d ∈ own, d.1.balances.rows = [] ∧ d.2.balances.rows = []) (k : BalanceKey) :
    gain k own = 0 := by
  have hnone : ∀ w : World, w.balances.rows = [] → w.amountAt k = 0 := by
    intro w hw
    have hget : w.balances.get k = none := by
      rw [Table.get_eq_none_iff, hw]
      exact List.not_mem_nil
    rw [World.amountAt, hget]
  exact gain_eq_zero fun d hd => (hnone d.2 (h d hd).2).trans (hnone d.1 (h d hd).1).symm

/-- The lookup of the transaction fails, and the merchant gets nothing. -/
theorem resolution_without_credit :
    ¬ ∀ (s : Service) (id : Int) (w : World) (es : Run), ResolutionsAtomic s id w es := by
  intro h
  let own := service.system.deeds 0 ⟨underpaid, []⟩ (resolving 4 .refused)
  have hended : Ended service underpaid (resolving 4 .refused) 0 7 3 (.ok ()) :=
    ended_of_hasReturned (by simp [resolving, steps]) (by decide +kernel)
  obtain ⟨hresolved, -⟩ := (h service 3 underpaid (resolving 4 .refused)).returned 0 7 hended
  obtain ⟨d, hd, row, hrow, tx, k, -, -, hgain⟩ := hresolved.credited (by decide +kernel)
  have hreceived : ∀ d ∈ own, ∀ row ∈ d.1.getLatestTransactionByPaymentID 3,
      row.factAmount = some 60 := by decide +kernel
  have hnothing : gain k own = 0 := gain_of_noBalances (by decide +kernel) k
  have hpaid := hgain k
  rw [if_pos rfl, hreceived d hd row hrow, hnothing] at hpaid
  cases hpaid

end CryptoLink
