import CryptoLink.Guarantees.Credits
import CryptoLink.Guarantees.LastingBooks
import CryptoLink.Guarantees.Topups

/-!
# Completed invoices are backed

The update that completes an invoice and the credit of the merchant are committed
together or not at all, and a payment is only set to success behind a confirmation
that was committed. So however calls run side by side and wherever they are cut off,
no completed invoice lacks its credit, and no payment that nobody resolved by hand is
a success without one.
-/

namespace CryptoLink

open KeyedTables ReadCommitted StatementPrograms System

/-- A completed invoice of a merchant. -/
structure Owed (r : TransactionRow) : Prop where
  completed : r.status = .completed
  incoming : r.type = .incoming
  merchant : r.merchantID ≠ Transaction.systemMerchantID

/-- Some invoice of the payment was credited. -/
def Earned (payment : Int) (w : World) : Prop :=
  ∃ id r, transactionRow id w = some r ∧ r.entityID = some payment ∧ 1 ≤ credits id w

structure Redeemed (payment : Int) (w : World) : Prop where
  unread : w.balances.get noBalance = none
  invoices : ∀ id r, transactionRow id w = some r → Owed r → 1 ≤ credits id w
  payment : ∀ r, paymentRow payment w = some r → r.status = .success → Earned payment w

variable {payment id : Int} {w w' : World} {st : Stmt} {env : Env}

theorem credits_later (h : Later w w') : credits id w ≤ credits id w' :=
  h.auditLog.sublist.countP_le

theorem Earned.later (h : Later w w') (he : Earned payment w) : Earned payment w' := by
  obtain ⟨id, r, hr, hentity, hcredited⟩ := he
  obtain ⟨r', hr', hsame⟩ := h.transactions id r hr
  exact ⟨id, r', hr', hsame.entityID.trans hentity, hcredited.trans (credits_later h)⟩

def Stmt.completing : Stmt → Prop
  | .createTransaction p => p.status = .completed
  | .updateTransaction p => p.status = .completed
  | .cancelTransaction p => p.status = .completed
  | _ => False

def Stmt.settling (payment : Int) : Stmt → Prop
  | .createPayment p => p.status = .success
  | .updatePayment p => p.id = payment ∧ p.status = .success
  | .extendPaymentExpiry p => p.id = payment ∧ p.status = .success
  | _ => False

/-- An invoice that was completed before is owed as before. -/
theorem Owed.earlier {r r' : TransactionRow} (h : Owed r') (hsame : r.Later r')
    (hcompleted : r.status = .completed) : Owed r :=
  ⟨hcompleted, hsame.type.symm.trans h.incoming, fun hm =>
    h.merchant (hsame.merchantID.trans hm)⟩

theorem completed_of_effect {seen : World} {r' : TransactionRow}
    (hst : st.completing → ∃ p, st = .updateTransaction p ∧ p.id ≠ id)
    (hr' : transactionRow id (engine.effect st env seen w) = some r')
    (hcompleted : r'.status = .completed) :
    ∃ r, transactionRow id w = some r ∧ r.status = .completed := by
  rw [engine_effect] at hr'
  split at hr'
  · exact ⟨r', hr', hcompleted⟩
  rw [transactionRow] at hr' ⊢
  rcases World.transaction_effect_cases st env seen w id with hsame | ⟨p, rfl, rfl, -, hnew⟩ |
    ⟨p, rfl, rfl, -, hnew⟩ | ⟨p, rfl, -, -, -, hnew⟩
  · exact ⟨r', hsame.symm.trans hr', hcompleted⟩
  · obtain ⟨r, -, rfl⟩ := Option.map_eq_some_iff.mp (hnew.symm.trans hr')
    obtain ⟨p', hp', hne⟩ := hst hcompleted
    cases hp'
    exact absurd rfl hne
  · obtain ⟨r, -, rfl⟩ := Option.map_eq_some_iff.mp (hnew.symm.trans hr')
    obtain ⟨p', hp', -⟩ := hst hcompleted
    cases hp'
  · obtain rfl := Option.some.inj (hnew.symm.trans hr')
    obtain ⟨p', hp', -⟩ := hst hcompleted
    cases hp'

theorem completed_of_replay {log : TxLog} {r' : TransactionRow}
    (hlog : ∀ e ∈ log, e.stmt.completing → ∃ p, e.stmt = .updateTransaction p ∧ p.id ≠ id)
    (hr' : transactionRow id (engine.replay log w) = some r')
      (hcompleted : r'.status = .completed) :
    ∃ r, transactionRow id w = some r ∧ r.status = .completed := by
  induction log generalizing w with
  | nil => exact ⟨r', hr', hcompleted⟩
  | cons e log ih =>
    obtain ⟨r, hr, hstatus⟩ := ih (fun e' he' => hlog e' (List.mem_cons_of_mem _ he')) hr'
    exact completed_of_effect (hlog e List.mem_cons_self) hr hstatus

theorem success_of_effect {seen : World} {r' : PaymentRow} (hst : ¬ st.settling payment)
    (hr' : paymentRow payment (engine.effect st env seen w) = some r')
    (hsuccess : r'.status = .success) :
    ∃ r, paymentRow payment w = some r ∧ r.status = .success := by
  rw [engine_effect] at hr'
  split at hr'
  · exact ⟨r', hr', hsuccess⟩
  rw [paymentRow] at hr' ⊢
  rcases World.payment_effect_cases st env seen w payment with hsame | ⟨p, rfl, hid, -, hnew⟩ |
    ⟨p, rfl, hid, -, hnew⟩ | ⟨p, rfl, -, -, -, hnew⟩
  · exact ⟨r', hsame.symm.trans hr', hsuccess⟩
  · obtain ⟨r, -, rfl⟩ := Option.map_eq_some_iff.mp (hnew.symm.trans hr')
    exact absurd ⟨hid, hsuccess⟩ hst
  · obtain ⟨r, -, rfl⟩ := Option.map_eq_some_iff.mp (hnew.symm.trans hr')
    exact absurd ⟨hid, hsuccess⟩ hst
  · obtain rfl := Option.some.inj (hnew.symm.trans hr')
    exact absurd hsuccess hst

theorem success_of_replay {log : TxLog} {r' : PaymentRow}
    (hlog : ∀ e ∈ log, ¬ e.stmt.settling payment)
    (hr' : paymentRow payment (engine.replay log w) = some r') (hsuccess : r'.status = .success) :
    ∃ r, paymentRow payment w = some r ∧ r.status = .success := by
  induction log generalizing w with
  | nil => exact ⟨r', hr', hsuccess⟩
  | cons e log ih =>
    obtain ⟨r, hr, hstatus⟩ := ih (fun e' he' => hlog e' (List.mem_cons_of_mem _ he')) hr'
    exact success_of_effect (hlog e List.mem_cons_self) hr hstatus

theorem unread_effect {seen : World} (hkeyed : KeyedStmt st)
    (hw : w.balances.get noBalance = none) :
    (engine.effect st env seen w).balances.get noBalance = none :=
  unread_stays.effect ⟨st, env, seen⟩ w hkeyed trivial hw

theorem unread_replay {log : TxLog} (hlog : ∀ e ∈ log, KeyedStmt e.stmt)
    (hw : w.balances.get noBalance = none) :
    (engine.replay log w).balances.get noBalance = none :=
  unread_stays.replay hlog (engine.eachLands_true log w) hw

namespace Redeemed

theorem effect (h : Redeemed payment w) {seen : World} (hkeyed : KeyedStmt st)
    (hcompleting : ¬ st.completing) (hsettling : st.settling payment → Earned payment w) :
    Redeemed payment (engine.effect st env seen w) := by
  have hlater := later_effect st env seen w
  constructor
  · exact unread_effect hkeyed h.unread
  · intro id r' hr' howed
    obtain ⟨r, hr, hcompleted⟩ := completed_of_effect (fun hst => absurd hst hcompleting) hr'
      howed.completed
    obtain ⟨r'', hr'', hsame⟩ := hlater.transactions id r hr
    obtain rfl := Option.some.inj (hr'.symm.trans hr'')
    exact (h.invoices id r hr (howed.earlier hsame hcompleted)).trans (credits_later hlater)
  · intro r' hr' hsuccess
    by_cases hst : st.settling payment
    · exact (hsettling hst).later hlater
    · obtain ⟨r, hr, hstatus⟩ := success_of_effect hst hr' hsuccess
      exact (h.payment r hr hstatus).later hlater

theorem lasting (h : Redeemed payment w) : Redeemed payment (engine.lasting st env w) := by
  rw [engine_lasting]
  split
  · exact h
  have hcredits : ∀ id, credits id (World.lasting st w) = credits id w := fun id => by
    rw [credits, lasting_auditLog, credits]
  refine ⟨?_, ?_, ?_⟩
  · rw [lasting_balances]
    exact h.unread
  · intro id r hr howed
    rw [transactionRow, lasting_transactions] at hr
    rw [hcredits]
    exact h.invoices id r hr howed
  · intro r hr hsuccess
    rw [paymentRow, lasting_payments] at hr
    obtain ⟨id, r', hr', hentity, hcredited⟩ := h.payment r hr hsuccess
    refine ⟨id, r', ?_, hentity, ?_⟩
    · rw [transactionRow, lasting_transactions]
      exact hr'
    · rw [hcredits]
      exact hcredited

end Redeemed

namespace Redeemed

def backing (payment : Int) : Protocol Stmt Reply Env World LockKey Operation where
  rely _ v v' := v'.session = v.session ∧ Later v.world v'.world
  admits _ _ _ v := Redeemed payment v.world
  guar _ _ _ _ v' := Redeemed payment v'.world
  rely_refl _ v := ⟨rfl, .refl v.world⟩
  rely_trans h h' := ⟨h'.1.trans h.1, h.2.trans h'.2⟩

/-- Statements that complete nothing and settle nothing. -/
structure Quiet (payment : Int) (st : Stmt) : Prop where
  keyed : KeyedStmt st
  completing : ¬ st.completing
  settling : ¬ st.settling payment

theorem quiet_of_read (h : st.changes = none) : Quiet payment st := by
  cases st <;> first
    | exact ⟨trivial, fun h => h, fun h => h⟩
    | cases h

/-- The statements of the open transaction are quiet, and `I` is known. -/
structure Calmly (payment : Int) (I : World → Prop) (v : Snapshot) : Prop where
  log : ∀ log, v.session.txn = some log → ∀ e ∈ log, Quiet payment e.stmt
  known : I v.world

/-- What is known stays known. -/
def Stays (I : World → Prop) : Prop := ∀ {w w' : World}, Later w w' → I w → I w'

theorem stays_true : Stays fun _ => True := fun _ _ => trivial

section Calls

variable {l : Operation} {s : Service} {v : Snapshot} {I : World → Prop} {α β : Type}

/-- What a call that returns leaves behind. -/
def Returns (J : α → Snapshot → Prop) (x : Except Err α) (v : Snapshot) : Prop :=
  ∀ a, x = .ok a → J a v

theorem Calmly.stable (hI : Stays I) (h : Calmly payment I v) {v' : Snapshot}
    (hrely : (backing payment).rely l v v') : Calmly payment I v' := by
  refine ⟨fun log hlog => h.log log ?_, hI hrely.2 h.known⟩
  rw [← hrely.1]
  exact hlog

theorem Calmly.of_ended (h : v.session.txn = none) (hknown : I v.world) : Calmly payment I v := by
  refine ⟨fun log hlog => ?_, hknown⟩
  rw [h] at hlog
  cases hlog

theorem later_perform (c : Cmd Stmt) (env : Env) (v : Snapshot) :
    Later v.world (engine.perform c env v).2.world := by
  rcases engine.perform_cases c env v with ⟨st, -, heq⟩ | ⟨log, -, -, heq⟩ |
    ⟨st, log, -, -, heq⟩ | ⟨heq, -⟩
  · rw [heq]
    exact (later_lasting st env v.world).trans (later_effect st env v.world _)
  · rw [heq]
    exact later_replay log v.world
  · rw [heq]
    exact later_lasting st env v.world
  · rw [heq]
    exact .refl v.world

theorem quiet_perform (hI : Stays I) {c : Cmd Stmt} (env : Env)
    (hc : ∀ q st, c = .stmt q st → Quiet payment st) (hv : Calmly payment I v)
    (hw : Redeemed payment v.world) :
    Redeemed payment (engine.perform c env v).2.world ∧
      Calmly payment I (engine.perform c env v).2 := by
  have hwithin : Engine.Within (Quiet payment) (Redeemed payment) v := ⟨hw, hv.log⟩
  have hmoved := hwithin.perform (G := engine)
    (fun st env seen w hst hw => hw.effect hst.keyed hst.completing fun h => absurd h hst.settling)
    (fun st env w _ hw => hw.lasting) hc env
  exact ⟨hmoved.world, hmoved.log, hI (later_perform c env v) hv.known⟩

theorem meets_of_quiet (hI : Stays I) {p : Call α}
    (hp : OnlyWrites (fun _ st => Quiet payment st) p) (hv : Calmly payment I v) :
    Meets ((backing payment).setting engine l) (fun _ => Calmly payment I) p v := by
  refine Meets.of_issues (J := Calmly payment I)
    (fun _ _ hrely h => h.stable (l := l) hI hrely) ?_ hp hv
  rintro c u r t hc hu ⟨env, hredeemed, hdo⟩
  have hquiet : ∀ q st, c = .stmt q st → Quiet payment st := by
    intro q st he
    by_cases hchanges : st.changes = none
    · exact quiet_of_read hchanges
    · exact hc q st he hchanges
  have hstep := quiet_perform hI env hquiet hu hredeemed
  rw [hdo] at hstep
  exact hstep

/-- Behind quiet statements comes what is known then. -/
theorem quiet_bind (hI : Stays I) {p : Call α} {f : α → Call β} {Q : Except Err β → Snapshot → Prop}
    (hp : OnlyWrites (fun _ st => Quiet payment st) p) (hv : Calmly payment I v)
    (herr : ∀ e t, Calmly payment I t → Q (.error e) t)
    (hf : ∀ a t, Calmly payment I t → Meets ((backing payment).setting engine l) Q (f a) t) :
    Meets ((backing payment).setting engine l) Q (p.bind f) v :=
  Meets.seq (meets_of_quiet hI hp hv) hf herr

/-- One statement on the pool, with what its answer tells. -/
theorem pool_bind (hI : Stays I) {f : Reply st → Call α} {Q : Except Err α → Snapshot → Prop}
    (hv : Calmly payment I v) (hkeyed : KeyedStmt st) (hcompleting : ¬ st.completing)
    (hsettling : st.settling payment → ∀ w, I w → Earned payment w)
    (hf : ∀ env w v', I w → Later w v'.world → Calmly payment I v' →
      Meets ((backing payment).setting engine l) Q (f (engine.reply st env w)) v') :
    Meets ((backing payment).setting engine l) Q ((ask .pool st).bind f) v := by
  refine Protocol.pool_bind (fun v' hrely => hrely.1) fun w env hrely hw => ?_
  have hnow := hv.stable hI hrely
  have hlater : Later w (engine.autocommit st env w) :=
    (later_lasting st env w).trans (later_effect st env w _)
  refine ⟨?_, hf env w _ hnow.known hlater ⟨hnow.log, hI hlater hnow.known⟩⟩
  refine (hw.lasting).effect hkeyed hcompleting fun hst => ?_
  exact (hsettling hst w hnow.known).later (later_lasting st env w)

/-- What the confirmation of the row `id` writes. `c` says whether it is in full. -/
structure Drafting (payment id : Int) (c : Prop) (st : Stmt) : Prop where
  keyed : KeyedStmt st
  settling : ¬ st.settling payment
  completing : st.completing → c ∧ ∃ p, st = .updateTransaction p ∧ p.id = id

/-- An entry that credits the merchant once the log is committed. -/
def Credited (id : Int) (log : TxLog) : Prop :=
  ∃ e ∈ log, isCredit id e.stmt = true ∧ e.env.fate ≠ .refused

/-- An open transaction on the row of `r₀`, which credits the merchant if `b` holds. -/
structure Draft (payment : Int) (r₀ : TransactionRow) (c b : Prop) (v : Snapshot) : Prop where
  log : ∃ log, v.session.txn = some log ∧ (∀ e ∈ log, Drafting payment r₀.id c e.stmt) ∧
    (b → Credited r₀.id log)
  row : ∃ r, transactionRow r₀.id v.world = some r ∧ r₀.Later r

theorem Drafting.of_quiet {c : Prop} (h : Quiet payment st) : Drafting payment id c st :=
  ⟨h.keyed, h.settling, fun hst => absurd hst h.completing⟩

variable {r₀ : TransactionRow} {b c : Prop} {Q : Except Err α → Snapshot → Prop}

theorem credits_of_credited {log : TxLog} (h : Credited id log) (w : World) :
    1 ≤ credits id (engine.replay log w) := by
  obtain ⟨e, he, hcredit, hlands⟩ := h
  obtain ⟨before, after, rfl⟩ := List.append_of_mem he
  have hreplay : engine.replay (before ++ e :: after) w =
      engine.replay after (engine.effect e.stmt e.env e.seen (engine.replay before w)) := by
    rw [Engine.replay_append]
    rfl
  rw [hreplay]
  refine le_trans ?_ (credits_later (later_replay after _))
  obtain ⟨st, env, seen⟩ := e
  rw [engine_effect, if_neg hlands]
  cases st with
  | insertBalanceAuditLog row =>
    have hrow : creditOf id row = true := hcredit
    simp [credits, World.effect, List.countP_append, hrow]
  | _ => cases hcredit

/-- What committing the log of a confirmation does. -/
theorem committed {log : TxLog} (h : Redeemed payment w)
    (hlog : ∀ e ∈ log, Drafting payment r₀.id c e.stmt)
    (hrow : ∃ r, transactionRow r₀.id w = some r ∧ r₀.Later r)
    (hcredited : c → r₀.type = .incoming → r₀.merchantID ≠ Transaction.systemMerchantID →
      Credited r₀.id log) : Redeemed payment (engine.replay log w) := by
  have hlater := later_replay log w
  constructor
  · exact unread_replay (fun e he => (hlog e he).keyed) h.unread
  · intro id r' hr' howed
    by_cases hcase : id = r₀.id ∧ c
    · obtain ⟨rfl, hc⟩ := hcase
      obtain ⟨r, hr, hsame⟩ := hrow
      obtain ⟨r'', hr'', hthen⟩ := hlater.transactions r₀.id r hr
      obtain rfl := Option.some.inj (hr'.symm.trans hr'')
      have hkept := hsame.trans hthen
      refine credits_of_credited (hcredited hc (hkept.type.symm.trans howed.incoming) ?_) w
      exact fun hm => howed.merchant (hkept.merchantID.trans hm)
    · obtain ⟨r, hr, hcompleted⟩ : ∃ r, transactionRow id w = some r ∧ r.status = .completed := by
        refine completed_of_replay (fun e he hst => ?_) hr' howed.completed
        obtain ⟨hc, p, hp, hid⟩ := (hlog e he).completing hst
        exact ⟨p, hp, fun h => hcase ⟨h.symm.trans hid, hc⟩⟩
      obtain ⟨r'', hr'', hsame⟩ := hlater.transactions id r hr
      obtain rfl := Option.some.inj (hr'.symm.trans hr'')
      exact (h.invoices id r hr (howed.earlier hsame hcompleted)).trans (credits_later hlater)
  · intro r' hr' hsuccess
    obtain ⟨r, hr, hstatus⟩ := success_of_replay (fun e he => (hlog e he).settling) hr' hsuccess
    exact (h.payment r hr hstatus).later hlater

theorem Draft.mono {b' : Prop} (h : Draft payment r₀ c b v) (hb : b' → b) :
    Draft payment r₀ c b' v := by
  obtain ⟨log, hlog, hall, hcredited⟩ := h.log
  exact ⟨⟨log, hlog, hall, fun hb' => hcredited (hb hb')⟩, h.row⟩

theorem Draft.stable {v' : Snapshot} (h : Draft payment r₀ c b v)
    (hrely : (backing payment).rely l v v') : Draft payment r₀ c b v' := by
  obtain ⟨log, hlog, hall, hcredited⟩ := h.log
  obtain ⟨r, hr, hsame⟩ := h.row
  obtain ⟨r', hr', hthen⟩ := hrely.2.transactions r₀.id r hr
  exact ⟨⟨log, by rw [hrely.1, hlog], hall, hcredited⟩, r', hr', hsame.trans hthen⟩

/-- What a statement of the transaction sees. -/
structure Inside (r₀ : TransactionRow) (w : World) : Prop where
  unread : w.balances.get noBalance = none
  row : ∃ r, transactionRow r₀.id w = some r ∧ r₀.Later r

/-- A statement of the open transaction. -/
theorem draft_bind {f : Reply st → Call α} (hv : Draft payment r₀ c b v)
    (hst : Drafting payment r₀.id c st)
    (hf : ∀ env w v', Inside r₀ w →
      Draft payment r₀ c (b ∨ isCredit r₀.id st = true ∧ env.fate ≠ .refused) v' →
      Meets ((backing payment).setting engine l) Q (f (engine.reply st env w)) v') :
    Meets ((backing payment).setting engine l) Q ((ask .tx st).bind f) v := by
  obtain ⟨log, hlog, hall, hcredited⟩ := hv.log
  refine Protocol.tx_bind hlog (fun v' hrely => hrely.1) fun w env hrely hw => ?_
  obtain ⟨r, hr, hsame⟩ := (hv.stable hrely).row
  obtain ⟨r', hr', hthen⟩ := (later_lasting st env w).transactions r₀.id r hr
  obtain ⟨x, hx, hinside⟩ := (later_replay log w).transactions r₀.id r hr
  have hunread := unread_replay (fun e he => (hall e he).keyed) hw.unread
  refine ⟨hw.lasting, hf env _ _ ⟨hunread, x, hx, hsame.trans hinside⟩ ?_⟩
  refine ⟨⟨_, rfl, ?_, ?_⟩, r', hr', hsame.trans hthen⟩
  · intro e he
    rcases List.mem_append.mp he with hold | hnew
    · exact hall e hold
    · obtain rfl := List.mem_singleton.mp hnew
      exact hst
  · rintro (hb | ⟨hcredit, hlands⟩)
    · obtain ⟨e, he, hcredit⟩ := hcredited hb
      exact ⟨e, List.mem_append_left _ he, hcredit⟩
    · exact ⟨_, List.mem_append_right _ (List.mem_singleton_self _), hcredit, hlands⟩

theorem draft_timeNow {f : Int → Call α} (hv : Draft payment r₀ c b v)
    (hf : ∀ now v', Draft payment r₀ c b v' →
      Meets ((backing payment).setting engine l) Q (f now) v') :
    Meets ((backing payment).setting engine l) Q (timeNow.bind f) v := by
  refine Protocol.pool_bind (fun v' hrely => hrely.1) fun w env hrely hw => ?_
  rw [autocommit_of_read rfl]
  exact ⟨hw, hf _ _ (hv.stable hrely)⟩

/-- The balance an update ends up with is one of the entity it was asked for. -/
theorem upsertBalance_drafts {p : UpdateBalanceQuery} {now : Int} {found : Except Err BalanceRow}
    {f : Except Err BalanceRow → Call α} (hv : Draft payment r₀ c b v)
    (hvalid : p.validate = .ok ())
    (hfound : ∀ row, found = .ok row → row.key.entityType = p.entityType)
    (hf : ∀ changed v', Draft payment r₀ c b v' →
      (∀ row, changed = .ok row → row.key.entityType = p.entityType) →
      Meets ((backing payment).setting engine l) Q (f changed) v') :
    Meets ((backing payment).setting engine l) Q ((upsertBalance .tx p now found).bind f) v := by
  have hupdate : ∀ x, Drafting payment r₀.id c (.updateBalanceByID x) := fun _ =>
    .of_quiet ⟨trivial, fun h => h, fun h => h⟩
  cases found with
  | ok row =>
    refine draft_bind hv (hupdate _) fun env w v' _ hv' => hf _ v' (hv'.mono .inl) ?_
    intro row' hrow'
    rw [reply_updateBalanceByID hrow']
    exact hfound row rfl
  | error e =>
    rw [upsertBalance]
    split
    · refine draft_bind hv (.of_quiet ⟨UpdateBalanceQuery.create_key hvalid now, fun h => h,
        fun h => h⟩) fun env w v' _ hv' => hf _ v' (hv'.mono .inl) ?_
      intro row' hrow'
      rw [reply_createBalance hrow']
      rfl
    · refine draft_bind hv (hupdate _) fun env w v' hw hv' => hf _ v' (hv'.mono .inl) ?_
      exact fun row' hrow' => absurd hrow' (reply_update_noBalance hw.unread)

/-- A balance that was updated has its audit row. -/
theorem updateBalance_drafts {p : UpdateBalanceQuery} (k : Prop) (hv : Draft payment r₀ c b v)
    (hk : k → ∀ now key, key.entityType = p.entityType → creditOf r₀.id ⟨now, key, p.comment,
      (auditMetaData p.metaData p.operation p.amount).toJSONB⟩ = true) :
    Meets ((backing payment).setting engine l) (Returns fun _ => Draft payment r₀ c (b ∨ k))
      (updateBalance .tx p) v := by
  refine Meets.ofExcept_bind (fun _ hvalid => ?_) fun e _ v' _ a h => by cases h
  refine draft_bind hv (.of_quiet (quiet_of_read rfl)) fun env w v₁ _ hv₁ => ?_
  refine draft_timeNow (hv₁.mono .inl) fun now v₂ hv₂ => ?_
  refine upsertBalance_drafts hv₂ hvalid (fun row hrow => reply_getBalanceByFilterWithLock hrow)
    fun changed v₃ hv₃ hkey => ?_
  refine Meets.ofExcept_bind (fun balance hbalance => ?_) fun e _ v' _ a h => by cases h
  have hentity := hkey balance (wrapErr_eq_ok.mp hbalance)
  refine Meets.bind (Meets.mapError ?_)
  refine draft_timeNow hv₃ fun at' v₄ hv₄ => ?_
  refine draft_bind hv₄ (.of_quiet ⟨trivial, fun h => h, fun h => h⟩) fun env' w' v₅ _ hv₅ => ?_
  cases hreply : engine.reply (.insertBalanceAuditLog _) env' w' with
  | error e => exact Meets.fail fun v' _ a h => by cases h
  | ok u =>
    have hdone : env'.fate = .done := (answered_eq_ok hreply).1
    have hdraft : Draft payment r₀ c (b ∨ k) v₅ := by
      refine hv₅.mono ?_
      rintro (hb | hk')
      · exact .inl hb
      · refine .inr ⟨hk hk' at' balance.key hentity, ?_⟩
        rw [hdone]
        exact fun h => by cases h
    exact Meets.ret fun v₆ h₆ => Meets.ret fun v₇ h₇ _ _ =>
      (hdraft.stable (l := l) h₆).stable (l := l) h₇

/-- A call inside the transaction whose failure fails the transaction. -/
theorem returns_bind {p : Call α} {f : α → Call β} {J : α → Snapshot → Prop}
    {J' : β → Snapshot → Prop}
    (hp : Meets ((backing payment).setting engine l) (Returns J) p v)
    (hf : ∀ a t, J a t → Meets ((backing payment).setting engine l) (Returns J') (f a) t) :
    Meets ((backing payment).setting engine l) (Returns J') (p.bind f) v := by
  refine Meets.bind (hp.mono fun x t ht => ?_)
  cases x with
  | ok a => exact hf a t (ht a rfl)
  | error e => exact fun a h => by cases h

theorem returns_mapError {p : Call α} {g : Err → Err} {J : α → Snapshot → Prop}
    (hp : Meets ((backing payment).setting engine l) (Returns J) p v) :
    Meets ((backing payment).setting engine l) (Returns J) (p.mapError g) v := by
  refine Meets.mapError (hp.mono fun x t ht => ?_)
  cases x with
  | ok a => exact fun a' h => by cases h; exact ht a rfl
  | error e => exact fun a h => by cases h

theorem returns_draft {a : α} (hv : Draft payment r₀ c b v) :
    Meets ((backing payment).setting engine l) (Returns fun _ => Draft payment r₀ c b)
      (.ret a : Call α) v :=
  Meets.ret fun _ hrely _ _ => hv.stable (l := l) hrely

theorem returns_fail {e : Err} {J : α → Snapshot → Prop} :
    Meets ((backing payment).setting engine l) (Returns J) (.fail e : Call α) v :=
  Meets.fail fun _ _ _ h => by cases h

theorem incrementRecipientBalance_drafts {tx : Transaction} {m : Money} {comment : String}
    (hv : Draft payment r₀ c b v) :
    Meets ((backing payment).setting engine l) (Returns fun _ => Draft payment r₀ c b)
      (Service.incrementRecipientBalance .tx tx m comment) v := by
  unfold Service.incrementRecipientBalance
  split
  · exact returns_draft hv
  · refine returns_bind (returns_mapError (updateBalance_drafts False hv fun h => h.elim)) ?_
    exact fun _ t ht => returns_draft (ht.mono .inl)

/-- The audit row of a merchant's gain names the transaction. -/
theorem creditOf_gain {tx : Transaction} {metaData : MetaData} {now : Int} {key : BalanceKey}
    {comment : String} {m : Money} (hm : Service.LedgerMetaData tx metaData)
    (hkey : key.entityType = .merchant) :
    creditOf tx.id ⟨now, key, comment, (auditMetaData metaData .increment m).toJSONB⟩ = true := by
  have hid : ((auditMetaData metaData .increment m).toJSONB.getD []).find
      Transaction.metaTransactionID = some (toString tx.id) := by
    rw [auditMetaData_find (by decide) (by decide) (by decide), find_of_ledgerMetaData hm]
  have hoperation : ((auditMetaData metaData .increment m).toJSONB.getD []).find "operation" =
      some "increment" := by
    rw [MetaData.find_toJSONB, auditMetaData, MetaData.find_set_of_ne (by decide),
      MetaData.find_set_of_ne (by decide), MetaData.find_set]
    rfl
  simp [creditOf, hkey, hid, hoperation]

theorem updateMerchantBalance_drafts {tx : Transaction} {m : Money} {comment : String}
    {metaData : MetaData} (hv : Draft payment r₀ c b v) (hm : Service.LedgerMetaData tx metaData)
    (hid : tx.id = r₀.id) :
    Meets ((backing payment).setting engine l) (Returns fun _ => Draft payment r₀ c True)
      (Service.updateMerchantBalance .tx tx m comment metaData) v := by
  refine returns_bind (returns_mapError (updateBalance_drafts True hv ?_)) ?_
  · rintro - now key hkey
    rw [← hid]
    exact creditOf_gain hm hkey
  · exact fun _ t ht => returns_draft (ht.mono .inr)

theorem decrementNetworkFee_drafts {tx : Transaction} {sender : Int} {fee : Money}
    {comment : String} {metaData : MetaData} (hv : Draft payment r₀ c b v) :
    Meets ((backing payment).setting engine l) (Returns fun _ => Draft payment r₀ c b)
      (s.decrementNetworkFee .tx tx sender fee comment metaData) v := by
  refine Meets.ofExcept_bind (fun currency _ => ?_) fun e _ v' _ a h => by cases h
  refine returns_bind (returns_mapError (updateBalance_drafts False hv fun h => h.elim)) ?_
  exact fun _ t ht => returns_draft (ht.mono .inl)

/-- A completed invoice of a merchant is credited before the transaction can be
committed. -/
theorem updateBalancesAfterTxConfirmation_drafts {tx : Transaction}
    {params : Service.ConfirmTransaction} (hv : Draft payment r₀ c b v) (hid : tx.id = r₀.id) :
    Meets ((backing payment).setting engine l)
      (Returns fun _ => Draft payment r₀ c (tx.status = .completed ∧ tx.type = .incoming ∧
        tx.merchantID ≠ Transaction.systemMerchantID))
      (s.updateBalancesAfterTxConfirmation .tx tx params) v := by
  unfold Service.updateBalancesAfterTxConfirmation
  split
  · exact returns_fail
  split
  · exact returns_fail
  split
  · exact returns_fail
  split
  · rename_i htype
    refine returns_bind (incrementRecipientBalance_drafts hv) fun _ t ht => ?_
    split
    · rename_i hinvalid
      refine returns_draft (ht.mono fun h => ?_)
      rw [hinvalid] at h
      cases h.1
    split
    · rename_i hsystem
      exact returns_draft (ht.mono fun h => absurd hsystem h.2.2)
    refine Meets.ofExcept_bind (fun gained _ => ?_) fun e _ v' _ a h => by cases h
    refine (updateMerchantBalance_drafts ht (.inr rfl) hid).mono fun x u hu a ha => ?_
    exact (hu a ha).mono fun _ => trivial
  · rename_i htype
    split
    · exact returns_fail
    refine returns_bind (incrementRecipientBalance_drafts hv) fun _ t ht => ?_
    refine (decrementNetworkFee_drafts ht).mono fun x u hu a ha => ?_
    refine (hu a ha).mono fun h => ?_
    rw [htype] at h
    cases h.2.1
  · rename_i htype
    split
    · exact returns_fail
    refine (decrementNetworkFee_drafts hv).mono fun x u hu a ha => ?_
    refine (hu a ha).mono fun h => ?_
    rw [htype] at h
    cases h.2.1
  · rename_i htype
    split
    · exact returns_fail
    refine (updateMerchantBalance_drafts hv (.inl rfl) hid).mono fun x u hu a ha => ?_
    exact (hu a ha).mono fun _ => trivial

/-- What a confirmation in full leaves in the books. -/
def Confirmed (id : Int) (c : Prop) (tx : Transaction) (w : World) : Prop :=
  ∃ r, transactionRow id w = some r ∧ tx.merchantID = r.merchantID ∧
    tx.entityID = r.entityID.getD 0 ∧
    (c → r.type = .incoming → r.merchantID ≠ Transaction.systemMerchantID → 1 ≤ credits id w)

theorem stays_confirmed (c : Prop) (tx : Transaction) : Stays (Confirmed id c tx) := by
  rintro w w' h ⟨r, hr, hmerchant, hentity, hcredited⟩
  obtain ⟨r', hr', hsame⟩ := h.transactions id r hr
  refine ⟨r', hr', hmerchant.trans hsame.merchantID.symm, ?_, fun hc htype hm => ?_⟩
  · rw [hsame.entityID]
    exact hentity
  · rw [hsame.type] at htype
    rw [hsame.merchantID] at hm
    exact (hcredited hc htype hm).trans (credits_later h)

/-- The transaction of a confirmation, when it is about to be committed. -/
def Ready (payment txID : Int) (c : Prop) (tx : Transaction) (v : Snapshot) : Prop :=
  ∃ r₀ : TransactionRow, r₀.id = txID ∧ tx.merchantID = r₀.merchantID ∧
    tx.entityID = r₀.entityID.getD 0 ∧
    Draft payment r₀ c (c ∧ r₀.type = .incoming ∧ r₀.merchantID ≠ Transaction.systemMerchantID) v

theorem confirmOn_drafts {m txID : Int} {params : Service.ConfirmTransaction}
    (hbegun : v.session.txn = some []) :
    Meets ((backing payment).setting engine l)
      (Returns (Ready payment txID (params.status = .completed))) (s.confirmOn .tx m txID params)
      v := by
  refine Meets.bind ?_
  refine Protocol.tx_bind hbegun (fun v' hrely => hrely.1) fun w env _ hw => ?_
  refine ⟨hw.lasting, Meets.ofExcept fun t ht => ?_⟩
  generalize hreply : engine.reply (.getTransactionByID txID m _) env (engine.replay [] w) = found
  cases hfound : s.toTransaction found with
  | error e => exact fun a h => by cases h
  | ok tx =>
  obtain ⟨r₀, hr₀, -⟩ := Service.toTransaction_eq_ok s hfound
  have hget : w.transactions.get txID = some r₀ := reply_getTransactionByID (hreply.trans hr₀)
  obtain rfl : r₀.id = txID := (Table.get_eq_some hget).2
  have hdraft : Draft payment r₀ (params.status = .completed) False t := by
    refine Draft.stable (l := l) ?_ ht
    obtain ⟨r, hr, hsame⟩ := (later_lasting (.getTransactionByID r₀.id m
      (decide (m ≠ Transaction.merchantIDWildcard))) env w).transactions r₀.id r₀ hget
    refine ⟨⟨_, rfl, ?_, fun h => h.elim⟩, r, hr, hsame⟩
    intro e he
    obtain rfl := List.mem_singleton.mp he
    exact .of_quiet (quiet_of_read rfl)
  dsimp only
  split
  · exact returns_fail
  refine draft_timeNow hdraft fun now v₁ hv₁ => ?_
  refine draft_bind hv₁ ⟨trivial, fun h => h, fun h => ⟨h, _, rfl, rfl⟩⟩
    fun env' w' v₂ hinside hv₂ => ?_
  refine Meets.ofExcept_bind (fun updated hupdated => ?_) fun e _ v' _ a h => by cases h
  obtain ⟨row, hrow, htx⟩ := Service.toTransaction_eq_ok s hupdated
  obtain ⟨currency, fee, -, -, rfl⟩ := Service.entryToTransaction_eq_ok s htx
  obtain ⟨-, r, htarget, rfl⟩ := reply_updateTransaction hrow
  obtain ⟨-, hr, -⟩ := updateTarget_eq_some htarget
  obtain ⟨r', hr', hsame⟩ := hinside.row
  obtain rfl := Option.some.inj (hr.symm.trans hr')
  have hid : r.id = r₀.id := (Table.get_eq_some hr).2
  refine returns_bind (returns_mapError (updateBalancesAfterTxConfirmation_drafts
    (hv₂.mono .inl) hid)) fun _ t ht => ?_
  refine Meets.ret fun t' hrely a ha => ?_
  obtain rfl := Except.ok.inj ha
  refine ⟨r₀, rfl, ?_, ?_, (ht.stable (l := l) hrely).mono ?_⟩
  · exact hsame.merchantID
  · exact congrArg (fun entity : Option Int => entity.getD 0) hsame.entityID
  · rintro ⟨hc, htype, hm⟩
    refine ⟨hc, hsame.type.trans htype, fun h => hm ?_⟩
    exact hsame.merchantID.symm.trans h

/-- Whatever a call does, the books only last. -/
theorem meets_later {Q : Except Err α → Snapshot → Prop} {p : Call α}
    (hp : Meets ((backing payment).setting engine l) Q p v) :
    Meets ((backing payment).setting engine l) (fun x v' => Q x v' ∧ Later v.world v'.world) p
      v := by
  suffices h : ∀ w, Later w v.world → Meets ((backing payment).setting engine l)
      (fun x v' => Q x v' ∧ Later w v'.world) p v from h v.world (.refl v.world)
  induction p generalizing v with
  | ret a => exact fun w hw v' hrely => ⟨hp v' hrely, hw.trans hrely.2⟩
  | fail e => exact fun w hw v' hrely => ⟨hp v' hrely, hw.trans hrely.2⟩
  | call cmd k ih =>
    rintro w hw v' hrely r t ⟨env, hadm, hdo⟩
    obtain ⟨hguar, hrest⟩ := hp v' hrely r t ⟨env, hadm, hdo⟩
    refine ⟨hguar, ih r hrest w ?_⟩
    have hstep := later_perform cmd env v'
    rw [hdo] at hstep
    exact (hw.trans hrely.2).trans hstep

theorem rollback_redeems (hI : Stays I) (hknown : I v.world) {e : Err}
    {J : α → Snapshot → Prop} :
    Meets ((backing payment).setting engine l) (fun x v' => Calmly payment I v' ∧ Returns J x v')
      ((Prog.ask .rollbackTx).bind fun _ => .fail e) v := by
  refine Meets.ask_bind ?_
  rintro v' hrely r t ⟨env, hw, hdo⟩
  cases hdo
  have hcalm : Calmly payment I (⟨v'.world, none, v'.session.kept⟩ : Snapshot) :=
    .of_ended rfl (hI hrely.2 hknown)
  exact ⟨hw, Meets.fail fun _ h => ⟨hcalm.stable (l := l) hI h, fun a ha => by cases ha⟩⟩

theorem commit_redeems (hI : Stays I) (hknown : I v.world) {txID : Int} {tx : Transaction}
    {e : Err} (hready : Ready payment txID c tx v) :
    Meets ((backing payment).setting engine l)
      (fun x v' => Calmly payment I v' ∧ Returns (fun a v' => Confirmed txID c a v'.world) x v')
      ((Prog.ask .commitTx).bind fun committed => if committed then .ret tx else .fail e) v := by
  refine Meets.ask_bind ?_
  rintro ⟨w, session⟩ hrely r t ⟨env, hw, hdo⟩
  obtain ⟨r₀, rfl, hmerchant, hentity, hdraft⟩ := hready
  obtain ⟨⟨log, hlog, hall, hcredited⟩, hrow⟩ := hdraft.stable (l := l) hrely
  obtain ⟨txn, kept⟩ := session
  obtain rfl : txn = some log := hlog
  have hnow : I w := hI hrely.2 hknown
  by_cases hlands : engine.lands env = true
  · have hperform : engine.perform .commitTx env ⟨w, some log, kept⟩ =
        (engine.acknowledged env, ⟨engine.replay log w, none, kept⟩) := by
      simp [Engine.perform, hlands]
    rw [hperform] at hdo
    cases hdo
    have hredeemed : Redeemed payment (engine.replay log w) :=
      committed hw hall hrow fun hc htype hm => hcredited ⟨hc, htype, hm⟩
    have hcalm : Calmly payment I (⟨engine.replay log w, none, kept⟩ : Snapshot) :=
      .of_ended rfl (hI (later_replay log w) hnow)
    refine ⟨hredeemed, ?_⟩
    split
    · obtain ⟨r, hr, hsame⟩ := hrow
      obtain ⟨r', hr', hthen⟩ := (later_replay log w).transactions r₀.id r hr
      have hkept := hsame.trans hthen
      have hconfirmed : Confirmed r₀.id c tx (engine.replay log w) := by
        refine ⟨r', hr', hmerchant.trans hkept.merchantID.symm, ?_, fun hc htype hm => ?_⟩
        · rw [hkept.entityID]
          exact hentity
        · rw [hkept.type] at htype
          rw [hkept.merchantID] at hm
          exact credits_of_credited (hcredited ⟨hc, htype, hm⟩) w
      refine Meets.ret fun v' h => ⟨hcalm.stable (l := l) hI h, fun a ha => ?_⟩
      cases ha
      exact stays_confirmed c tx h.2 hconfirmed
    · exact Meets.fail fun _ h => ⟨hcalm.stable (l := l) hI h, fun a ha => by cases ha⟩
  · have hperform : engine.perform .commitTx env ⟨w, some log, kept⟩ =
        (false, ⟨w, none, kept⟩) := by
      simp [Engine.perform, hlands]
    rw [hperform] at hdo
    cases hdo
    have hcalm : Calmly payment I (⟨w, none, kept⟩ : Snapshot) :=
      .of_ended rfl hnow
    exact ⟨hw, Meets.fail fun _ h => ⟨hcalm.stable (l := l) hI h, fun a ha => by cases ha⟩⟩

theorem confirm_redeems (hI : Stays I) {m txID : Int} {params : Service.ConfirmTransaction}
    (hv : Calmly payment I v) :
    Meets ((backing payment).setting engine l)
      (fun x v' => Calmly payment I v' ∧
        Returns (fun a v' => Confirmed txID (params.status = .completed) a v'.world) x v')
      (s.confirm m txID params) v := by
  refine Meets.ofExcept_bind (fun _ _ => ?_) fun e _ v' hrely =>
    ⟨hv.stable (l := l) hI hrely, fun a h => by cases h⟩
  refine Protocol.runTransaction fun v₁ env hrely hw => ?_
  have hv₁ := hv.stable hI hrely
  have hbegun := quiet_perform hI (c := .beginTx) env (fun _ _ h => by cases h) hv₁ hw
  refine ⟨hbegun.1, ?_⟩
  split
  · refine (meets_later (confirmOn_drafts rfl)).mono fun x t ht => ?_
    cases x with
    | error e => exact rollback_redeems hI (hI ht.2 hv₁.known)
    | ok a => exact commit_redeems hI (hI ht.2 hv₁.known) (ht.1 a rfl)
  · exact fun v₂ hrely₂ => ⟨hv₁.stable (l := l) hI hrely₂, fun a h => by cases h⟩

open Service

theorem updatePayment_redeems (hI : Stays I) {m pid : Int} {status : Payment.Status}
    (hv : Calmly payment I v)
    (hsuccess : pid = payment → status = .success → ∀ w, I w → Earned payment w) :
    Meets ((backing payment).setting engine l) (fun _ => Calmly payment I)
      (updatePayment m pid status) v := by
  refine quiet_bind hI timeNow_writes hv (fun _ _ h => h) fun now v₁ hv₁ => ?_
  refine quiet_bind hI lockedUntil_writes hv₁ (fun _ _ h => h) fun expiresAt v₂ hv₂ => ?_
  refine pool_bind hI hv₂ trivial (fun h => h) (fun h => hsuccess h.1 h.2)
    fun env w v₃ _ _ hv₃ => ?_
  refine meets_of_quiet hI ?_ hv₃
  refine .bind (.checked _) fun row => ?_
  split
  · exact .bind (.read rfl) fun _ => .bind (.checked _) fun _ => .checked _
  · exact .checked _

/-- What is read is the payment that was asked for. -/
theorem getPaymentByID_redeems (hI : Stays I) {m pid : Int} (hv : Calmly payment I v) :
    Meets ((backing payment).setting engine l)
      (fun x t => Calmly payment I t ∧ Returns (fun pt _ => pt.id = pid) x t)
      (getPaymentByID m pid) v := by
  refine pool_bind hI hv trivial (fun h => h) (fun h => h.elim) fun env w v₁ _ _ hv₁ => ?_
  refine Meets.ofExcept fun t ht => ⟨hv₁.stable (l := l) hI ht, fun pt hpt => ?_⟩
  cases hreply : engine.reply (.getPaymentByID pid m _) env w with
  | error e =>
    rw [hreply] at hpt
    cases hpt
  | ok row =>
    have hid : row.id = pid := (Table.get_eq_some (reply_getPaymentByID hreply)).2
    have hread : toPayment (.ok row) = entryToPayment row := rfl
    rw [hreply, hread, entryToPayment] at hpt
    cases hprice : paymentPrice row (row.metadata.getD []) with
    | error e =>
      rw [hprice] at hpt
      cases hpt
    | ok price =>
      rw [hprice] at hpt
      cases hpt
      exact hid

/-- The row is an invoice. -/
def Incoming (id : Int) (w : World) : Prop :=
  ∃ r, transactionRow id w = some r ∧ r.type = .incoming

theorem stays_incoming : Stays (Incoming id) := by
  rintro w w' h ⟨r, hr, htype⟩
  obtain ⟨r', hr', hsame⟩ := h.transactions id r hr
  exact ⟨r', hr', hsame.type.trans htype⟩

/-- Behind its confirmation in full, the payment of an invoice is earned. -/
theorem earned_of_confirmed {tx confirmed : Transaction} {sender hash : String}
    {factAmount : Money} {receipt : TransactionReceipt} (hpayment : payment ≠ 0)
    (hconfirmed : Confirmed tx.id ((confirmation tx sender hash factAmount receipt).status =
      .completed) confirmed w)
    (hincoming : Incoming tx.id w) (hmerchant : confirmed.merchantID ≠ Transaction.systemMerchantID)
    (hentity : confirmed.entityID = payment) (hstatus : settledPaymentStatus tx = .success) :
    Earned payment w := by
  obtain ⟨r, hr, hm, hpid, hcredited⟩ := hconfirmed
  obtain ⟨r', hr', htype⟩ := hincoming
  obtain rfl := Option.some.inj (hr'.symm.trans hr)
  have hfull : (confirmation tx sender hash factAmount receipt).status = .completed := by
    rw [settledPaymentStatus] at hstatus
    split at hstatus
    · cases hstatus
    · rename_i hvalid
      exact if_neg hvalid
  refine ⟨tx.id, r', hr', ?_, hcredited hfull htype fun h => hmerchant (hm.trans h)⟩
  rw [hentity] at hpid
  cases hrow : r'.entityID with
  | none =>
    rw [hrow] at hpid
    exact absurd hpid hpayment
  | some pid =>
    rw [hrow] at hpid
    rw [hpid]
    rfl

theorem confirmIncomingTransaction_redeems (hpayment : payment ≠ 0) {tx : Transaction}
    {sender hash : String} {receipt : TransactionReceipt}
    (hv : Calmly payment (Incoming tx.id) v) :
    Meets ((backing payment).setting engine l) (fun _ _ => True)
      (s.confirmIncomingTransaction tx sender hash receipt) v := by
  unfold confirmIncomingTransaction
  split
  · exact Meets.fail fun _ _ => trivial
  refine Meets.bind (Meets.mapError ((confirm_redeems stays_incoming hv).mono fun x t ht => ?_))
  cases x with
  | error e => exact trivial
  | ok confirmed =>
  obtain ⟨hcalm, hconfirmed⟩ := ht
  dsimp only
  split
  · exact Meets.ret fun _ _ => trivial
  rename_i hmerchant
  have hJ : Stays fun w => confirmed.entityID = payment → settledPaymentStatus tx = .success →
      Earned payment w := fun h hknown hpid hstatus => (hknown hpid hstatus).later h
  have hearned := earned_of_confirmed hpayment (hconfirmed confirmed rfl) hcalm.known hmerchant
  have hknown : Calmly payment (fun w => confirmed.entityID = payment →
      settledPaymentStatus tx = .success → Earned payment w) t := ⟨hcalm.log, hearned⟩
  refine Meets.bind (Meets.mapError ((getPaymentByID_redeems hJ hknown).mono fun x u hu => ?_))
  cases x with
  | error e => exact trivial
  | ok pt =>
  obtain ⟨hcalm', hid⟩ := hu
  have hpid : pt.id = confirmed.entityID := hid pt rfl
  refine Meets.seq (J := Calmly payment fun _ => True) (Meets.mapError ?_) ?_ fun _ _ _ => trivial
  · refine (updatePayment_redeems hJ hcalm' ?_).mono fun x y hy => ?_
    · exact fun h hstatus w hw => hw (hpid.symm.trans h) hstatus
    · cases x with
      | error e => exact ⟨hy.log, trivial⟩
      | ok a => exact ⟨hy.log, trivial⟩
  · intro _ y hy
    refine (meets_of_quiet stays_true ?_ hy).mono fun _ _ _ => trivial
    split
    · exact .bind (.read rfl) fun _ => .ret _
    · exact .ret _

theorem cancelIncomingTransaction_quiet {tx : Transaction} :
    OnlyWrites (fun _ st => Quiet payment st) (cancelIncomingTransaction tx) := by
  refine .bind (.mapError _ (cancel_writes fun p _ hs => ?_)) fun _ => ?_
  · refine ⟨trivial, fun h => ?_, fun h => h⟩
    rw [Stmt.completing, hs] at h
    cases h
  split
  · exact .ret _
  refine .bind (.mapError _ (updatePayment_writes fun p _ _ hs => ?_)) fun _ => .ret _
  refine ⟨trivial, fun h => h, fun h => ?_⟩
  rw [Stmt.settling, hs] at h
  cases h.2

theorem settle_redeems (hpayment : payment ≠ 0) {tx : Transaction} {sender hash : String}
    {receipt : Except Err TransactionReceipt} (hv : Calmly payment (Incoming tx.id) v) :
    Meets ((backing payment).setting engine l) (fun _ _ => True) (s.settle tx sender hash receipt)
      v := by
  have quiet : ∀ {p : Call Unit} {t : Snapshot}, OnlyWrites (fun _ st => Quiet payment st) p →
      Calmly payment (Incoming tx.id) t →
      Meets ((backing payment).setting engine l) (fun _ _ => True) p t := fun hp ht =>
    (meets_of_quiet stays_incoming hp ht).mono fun _ _ _ => trivial
  unfold settle
  split
  · refine quiet_bind stays_incoming timeNow_writes hv (fun _ _ _ => trivial) fun now t ht => ?_
    split
    · exact quiet cancelIncomingTransaction_quiet ht
    · exact quiet (.fail _) ht
  split
  · split
    · exact confirmIncomingTransaction_redeems hpayment hv
    · exact quiet cancelIncomingTransaction_quiet hv
  refine quiet_bind stays_incoming timeNow_writes hv (fun _ _ _ => trivial) fun now t ht => ?_
  split
  · exact quiet cancelIncomingTransaction_quiet ht
  · exact quiet (.ret _) ht

/-- An invoice that was read is one for good. -/
theorem getTransactionByID_redeems {m txID : Int} (hv : Calmly payment (fun _ => True) v) :
    Meets ((backing payment).setting engine l)
      (fun x t => Calmly payment (fun _ => True) t ∧
        Returns (fun tx t => tx.type = .incoming → Incoming tx.id t.world) x t)
      (s.getTransactionByID m txID) v := by
  refine pool_bind stays_true hv trivial (fun h => h) (fun h => h.elim)
    fun env w v₁ _ hlater hv₁ => ?_
  refine Meets.ofExcept fun t ht => ⟨hv₁.stable (l := l) stays_true ht, fun tx htx hkind => ?_⟩
  obtain ⟨row, hrow, hread⟩ := s.toTransaction_eq_ok htx
  obtain ⟨currency, fee, -, -, rfl⟩ := s.entryToTransaction_eq_ok hread
  have hget := reply_getTransactionByID hrow
  have hid : row.id = txID := (Table.get_eq_some hget).2
  rw [← hid] at hget
  have hthere : Incoming row.id w := ⟨row, hget, hkind⟩
  exact stays_incoming (hlater.trans ht.2) hthere

theorem checkIncomingTransaction_redeems (hpayment : payment ≠ 0) {txID : Int}
    (hv : Calmly payment (fun _ => True) v) :
    Meets ((backing payment).setting engine l) (fun _ _ => True) (s.checkIncomingTransaction txID)
      v := by
  refine Meets.bind (Meets.mapError ((getTransactionByID_redeems hv).mono fun x t ht => ?_))
  cases x with
  | error e => exact trivial
  | ok tx =>
  dsimp only
  split
  · exact Meets.fail fun _ _ => trivial
  rename_i hkind
  have hcalm : Calmly payment (Incoming tx.id) t :=
    ⟨ht.1.log, ht.2 tx rfl (not_not.mp hkind)⟩
  split
  · exact Meets.fail fun _ _ => trivial
  split
  · exact Meets.fail fun _ _ => trivial
  split
  · exact Meets.fail fun _ _ => trivial
  split
  · refine quiet_bind stays_incoming (.attempt getTransactionReceipt_writes) hcalm
      (fun _ _ _ => trivial) fun receipt t' ht' => ?_
    exact settle_redeems hpayment ht'
  · exact Meets.ret fun _ _ => trivial

/-- The credit of a resolved payment neither completes nor settles anything. -/
theorem creditResolved_quiet {m pid : Int} :
    OnlyWrites (fun _ st => Quiet payment st) (s.creditResolved m pid) := by
  have hquiet : ∀ {st : Stmt}, st.changes = some .balances ∨ st.changes = some .auditLog →
      KeyedStmt st → Quiet payment st := by
    intro st hst hkeyed
    cases st <;> first
      | exact ⟨hkeyed, fun h => h, fun h => h⟩
      | rcases hst with hst | hst <;> cases hst
  refine .bind (.attempt getLatestByPaymentID_writes) fun found => ?_
  split
  · exact .ret _
  split
  · exact .ret _
  split
  · exact .ret _
  refine .bind (.attempt ?_) fun ensured => ?_
  · refine .bind (.read rfl) fun found => ?_
    cases found with
    | ok b => exact .ret _
    | error e =>
      dsimp only
      split
      · refine .bind timeNow_writes fun now => .bind (.write (hquiet (.inl rfl) ?_)) fun _ => ?_
        · exact fun h => by cases congrArg BalanceKey.entityType h
        · exact .bind (.checked _) fun _ => .ret _
      · exact .fail _
  split
  · exact .ret _
  refine .bind (.attempt (.bind (.checked _) fun _ => .runTx ?_)) fun _ => .ret _
  refine .bind (.checked _) fun _ => .bind (.read rfl) fun locked => .bind (.checked _) fun b => ?_
  split
  · refine .bind timeNow_writes fun now => .bind (.write (hquiet (.inl rfl) trivial)) fun _ => ?_
    refine .bind (.checked _) fun balance => .bind (.mapError _ ?_) fun _ => .ret _
    exact writeAuditLog_writes fun now => hquiet (.inr rfl) trivial
  · exact .ret _

/-- Resolving another payment leaves this one alone. -/
theorem resolvePayment_redeems {m pid : Int} (hpid : pid ≠ payment)
    (hv : Calmly payment (fun _ => True) v) :
    Meets ((backing payment).setting engine l) (fun _ _ => True) (s.resolvePayment m pid) v := by
  refine Meets.bind ((getPaymentByID_redeems stays_true hv).mono fun x t ht => ?_)
  cases x with
  | error e => exact trivial
  | ok pt =>
  obtain ⟨hcalm, hid⟩ := ht
  dsimp only
  split
  · exact Meets.fail fun _ _ => trivial
  refine Meets.seq (J := Calmly payment fun _ => True) (Meets.mapError ?_) ?_ fun _ _ _ => trivial
  · refine (updatePayment_redeems stays_true hcalm ?_).mono fun x y hy => ?_
    · exact fun h => absurd ((hid pt rfl).symm.trans h) hpid
    · cases x with
      | error e => exact hy
      | ok a => exact hy
  · intro resolved y hy
    refine (meets_of_quiet stays_true ?_ hy).mono fun _ _ _ => trivial
    split
    · exact .bind creditResolved_quiet fun _ => .ret _
    · exact .ret _

theorem quiet_of_inbound {q : Conn} (h : anyInboundWrites q st) : Quiet payment st := by
  obtain ⟨tx, input, h⟩ := h
  cases st <;> try exact h.elim
  case updateTransaction p =>
    refine ⟨trivial, fun hc => ?_, fun h => h⟩
    rw [Stmt.completing] at hc
    rcases h.2.2.2 with hs | hs
    · cases hc.symm.trans hs
    · cases hc.symm.trans hs
  case insertTransactionFill p => exact ⟨trivial, fun h => h, fun h => h⟩
  case updatePayment p => exact ⟨trivial, fun h => h, fun hc => by cases hc.2.symm.trans h.2⟩
  case extendPaymentExpiry p =>
    exact ⟨trivial, fun h => h, fun hc => by cases hc.2.symm.trans h.2.2.2⟩

theorem quiet_of_option {q : Conn} (h : optionWrites q st) : Quiet payment st := by
  cases st <;> try exact h.elim
  case createTransaction p =>
    refine ⟨trivial, fun hc => ?_, fun h => h⟩
    rw [Stmt.completing] at hc
    cases hc.symm.trans h.2.1
  case cancelTransaction p =>
    refine ⟨trivial, fun hc => ?_, fun h => h⟩
    rw [Stmt.completing] at hc
    cases hc.symm.trans h.2

theorem quiet_of_crossCurrency {q : Conn} (h : crossCurrencyWrites q st) : Quiet payment st :=
  h.elim quiet_of_option quiet_of_inbound

theorem quiet_of_expiry {q : Conn} (h : expiryWrites q st) : Quiet payment st := by
  cases st <;> try exact h.elim
  case updateTransaction p =>
    refine ⟨trivial, fun hc => ?_, fun h => h⟩
    rw [Stmt.completing] at hc
    cases hc.symm.trans h.2
  case cancelTransaction p =>
    refine ⟨trivial, fun hc => ?_, fun h => h⟩
    rw [Stmt.completing] at hc
    cases hc.symm.trans h.2
  case updatePayment p =>
    refine ⟨trivial, fun h => h, fun hc => ?_⟩
    rcases h.2 with hs | hs
    · cases hc.2.symm.trans hs
    · cases hc.2.symm.trans hs

theorem quiet_of_update {p : UpdatePaymentParams} {status : Payment.Status}
    (h : p.status = status) (hstatus : status ≠ .success) :
    Quiet payment (.updatePayment p) :=
  ⟨trivial, fun h => h, fun hc => hstatus (h.symm.trans hc.2)⟩

/-- The calls whose effects are accounted for: no `Cancel` is asked to complete a row, and
the payment is not resolved by hand. -/
def Routine (payment : Int) : Operation → Prop
  | .cancel _ status _ => status ≠ .completed
  | .resolvePayment _ id => id ≠ payment
  | _ => True

instance (payment : Int) (op : Operation) : Decidable (Routine payment op) := by
  cases op with
  | cancel tx status reason => exact inferInstanceAs (Decidable (status ≠ .completed))
  | resolvePayment m id => exact inferInstanceAs (Decidable (id ≠ payment))
  | _ => exact instDecidableTrue

theorem program_redeems (hpayment : payment ≠ 0) {op : Operation} (hop : Routine payment op)
    (w : World) :
    Meets ((backing payment).setting engine l) (fun _ _ => True) (s.program op) ⟨w, .idle⟩ := by
  have hidle : Calmly payment (fun _ => True) (⟨w, .idle⟩ : Snapshot) := .of_ended rfl trivial
  have quiet : ∀ {p : Call Unit}, OnlyWrites (fun _ st => Quiet payment st) p →
      Meets ((backing payment).setting engine l) (fun _ _ => True) p ⟨w, .idle⟩ := fun hp =>
    (meets_of_quiet stays_true hp hidle).mono fun _ _ _ => trivial
  cases op with
  | receive m id params =>
    refine quiet (.discard
      (receive_writes fun hstatus now md => ⟨trivial, fun hc => ?_, fun h => h⟩))
    rw [Stmt.completing] at hc
    rcases hstatus with hs | hs
    · cases hc.symm.trans hs
    · cases hc.symm.trans hs
  | confirm m id params =>
    refine Meets.bind ((confirm_redeems stays_true hidle).mono fun x t ht => ?_)
    cases x with
    | error e => exact trivial
    | ok a => exact Meets.ret fun _ _ => trivial
  | cancel tx status reason =>
    refine quiet (cancel_writes fun p _ hs => ⟨trivial, fun hc => ?_, fun h => h⟩)
    exact hop (hs.symm.trans hc)
  | processInbound tx input =>
    exact quiet (processInboundTransaction_writes_any.mono fun _ _ => quiet_of_inbound)
  | adminReconcileFill id hash raw sender =>
    exact quiet (adminReconcileFill_writes.mono fun _ _ => quiet_of_inbound)
  | checkIncoming id => exact checkIncomingTransaction_redeems hpayment hidle
  | expirePayment id => exact quiet (expirePayment_writes.mono fun _ _ => quiet_of_expiry)
  | recheckPartialFills =>
    refine quiet (recheckPartialFills_writes.mono fun _ st h => ?_)
    cases st <;> first
      | exact ⟨trivial, fun h => h, fun h => h⟩
      | cases h
  | lockPaymentOptions m id =>
    refine quiet (lockPaymentOptions_writes fun p _ _ hs => ?_)
    exact quiet_of_update hs fun h => by cases h
  | setPaymentMethod p ticker =>
    exact quiet (.discard (setPaymentMethod_writes.mono fun _ _ => quiet_of_option))
  | changePaymentMethod p fee tx currency =>
    exact quiet (.discard (changePaymentMethod_writes.mono fun _ _ => quiet_of_option))
  | resolvePayment m id =>
    refine Meets.seq (J := fun _ => True) (resolvePayment_redeems hop hidle) ?_
      fun _ _ _ => trivial
    exact fun _ _ _ => Meets.ret fun _ _ => trivial
  | declinePayment m id =>
    refine quiet (.discard (declinePayment_writes fun p _ hs => ?_))
    exact quiet_of_update hs fun h => by cases h
  | receiveWebhook n wallet body signature wh =>
    exact quiet (receiveWebhook_writes.mono fun _ _ => quiet_of_inbound)
  | detected d => exact quiet (dedupOnDetected_writes.mono fun _ _ => quiet_of_crossCurrency)
  | autoAcceptCrossCurrency inv currency amount n p =>
    exact quiet (autoAcceptCrossCurrency_writes.mono fun _ _ => quiet_of_crossCurrency)

end Calls

variable {s : Service} {cfg : State}

theorem moved (h : Redeemed payment w) (m : Move) : Redeemed payment (m.apply w) := by
  cases m <;> exact ⟨h.unread, h.invoices, h.payment⟩

theorem step (hkeeps : Keeps s.system (backing payment) cfg) (h : Redeemed payment cfg.world)
    (hpayment : payment ≠ 0) {e : Event Env Move Operation}
    (he : ∀ op, e = .start op → Routine payment op) :
    Keeps s.system (backing payment) (s.system.step cfg e) ∧
      Redeemed payment (s.system.step cfg e).world := by
  constructor
  · cases e with
    | start op => exact hkeeps.start (program_redeems hpayment (he op rfl) cfg.world)
    | crash i => exact hkeeps.crash i
    | move m => exact hkeeps.move fun _ _ _ => ⟨rfl, later_move m cfg.world⟩
    | exec i env =>
      refine hkeeps.exec (fun _ _ _ _ => h) fun th c k _ _ _ _ _ => ⟨rfl, ?_⟩
      exact later_perform c env (th.view cfg.world)
  · rcases step_world_cases s.system cfg e with hs | ⟨m, -, hs⟩ | ⟨i, env, th, c, k, -, hex, hs⟩
    · rw [hs]
      exact h
    · rw [hs]
      exact h.moved m
    · rw [hs]
      exact (hkeeps.executes hex h).1

theorem run (hpayment : payment ≠ 0) (h : Redeemed payment w) {es : Run}
    (hes : ∀ op, .start op ∈ es → Routine payment op) :
    Redeemed payment (s.system.run ⟨w, []⟩ es).world := by
  suffices hall : ∀ cfg : State, Keeps s.system (backing payment) cfg →
      Redeemed payment cfg.world → Redeemed payment (s.system.run cfg es).world from
    hall ⟨w, []⟩ (keeps_of_no_threads w) h
  induction es with
  | nil => exact fun cfg _ h => h
  | cons e es ih =>
    intro cfg hkeeps h
    obtain ⟨hkeeps', h'⟩ := step hkeeps h hpayment fun op he => hes op (he ▸ List.mem_cons_self)
    exact ih (fun op hop => hes op (List.mem_cons_of_mem _ hop)) _ hkeeps' h'

end Redeemed

/-- The payment a call resolves by hand. -/
def Operation.resolved : Operation → Option Int
  | .resolvePayment _ id => some id
  | _ => none

def Event.resolved : Event Env Move Operation → Option Int
  | .start op => op.resolved
  | _ => none

/-- A payment number that is in no row and that nobody resolves. -/
theorem exists_untouched (w : World) (es : Run) :
    ∃ payment : Int, payment ≠ 0 ∧ paymentRow payment w = none ∧
      ∀ m, .start (.resolvePayment m payment) ∉ es := by
  let taken : List Int := 0 :: (w.payments.rows.map PaymentRow.id ++ es.filterMap Event.resolved)
  obtain ⟨payment, hfree⟩ := Infinite.exists_notMem_finset taken.toFinset
  rw [List.mem_toFinset, List.mem_cons, List.mem_append, not_or, not_or] at hfree
  obtain ⟨hzero, hrows, hresolved⟩ := hfree
  refine ⟨payment, hzero, Option.eq_none_iff_forall_ne_some.mpr fun r hr => hrows ?_, ?_⟩
  · obtain ⟨hmem, hid⟩ := Table.get_eq_some hr
    exact List.mem_map.mpr ⟨r, hmem, hid⟩
  · exact fun m hm => hresolved (List.mem_filterMap.mpr ⟨_, hm, rfl⟩)

namespace Service

/-- Where every completed invoice has its credit, every invoice that is completed later
has one too. -/
theorem completed_invoices_credited (s : Service) (w : World) (es : Run)
    (hunread : w.balances.get noBalance = none)
    (hbefore : ∀ id r, transactionRow id w = some r → Owed r → 1 ≤ credits id w)
    (hcancels : ∀ tx reason, .start (.cancel tx .completed reason) ∉ es) :
    ∀ id r, transactionRow id (s.system.run ⟨w, []⟩ es).world = some r → Owed r →
      1 ≤ credits id (s.system.run ⟨w, []⟩ es).world := by
  obtain ⟨payment, hzero, hfresh, huntouched⟩ := exists_untouched w es
  have hnow : Redeemed payment w :=
    ⟨hunread, hbefore, fun r hr => absurd (hfresh.symm.trans hr) fun h => by cases h⟩
  refine (Redeemed.run hzero hnow fun op hop => ?_).invoices
  cases op with
  | cancel tx status reason => exact fun h => hcancels tx reason (h ▸ hop)
  | resolvePayment m id => exact fun h => huntouched m (h ▸ hop)
  | _ => trivial

/-- A payment becomes a success behind a credited invoice, unless it is resolved by hand. -/
theorem successes_are_earned (s : Service) (w : World) (es : Run) (payment : Int)
    (hpayment : payment ≠ 0) (hunread : w.balances.get noBalance = none)
    (hbefore : ∀ id r, transactionRow id w = some r → Owed r → 1 ≤ credits id w)
    (hopen : ∀ r, paymentRow payment w = some r → r.status = .success → Earned payment w)
    (hcancels : ∀ tx reason, .start (.cancel tx .completed reason) ∉ es)
    (hresolves : ∀ m, .start (.resolvePayment m payment) ∉ es) :
    ∀ r, paymentRow payment (s.system.run ⟨w, []⟩ es).world = some r → r.status = .success →
      Earned payment (s.system.run ⟨w, []⟩ es).world := by
  refine (Redeemed.run hpayment ⟨hunread, hbefore, hopen⟩ fun op hop => ?_).payment
  cases op with
  | cancel tx status reason => exact fun h => hcancels tx reason (h ▸ hop)
  | resolvePayment m id => exact fun h => hresolves m (h ▸ hop)
  | _ => trivial

end Service

open Sample

/-- The tick that completes the invoice of `awaitingReceipt`. -/
def receiptTick : Run := .start (.checkIncoming 1) :: steps 0 30

theorem receiptTick_starts {op : Operation} (h : .start op ∈ receiptTick) :
    op = .checkIncoming 1 := by
  rcases List.mem_cons.mp h with h | h
  · exact Event.start.inj h
  · cases List.eq_of_mem_replicate h

theorem awaitingReceipt_owes_nothing (id : Int) (r : TransactionRow)
    (hr : transactionRow id awaitingReceipt = some r) : ¬ Owed r := by
  intro howed
  have hmem := (Table.get_eq_some hr).1
  have hopen : ∀ r ∈ awaitingReceipt.transactions.rows, r.status ≠ .completed := by decide +kernel
  exact hopen r hmem howed.completed

theorem completed_invoices_credited_sample :
    (∃ r ∈ transactionRow 1 (service.system.run ⟨awaitingReceipt, []⟩ receiptTick).world,
      r.status = .completed ∧ r.type = .incoming ∧ r.merchantID = 7) ∧
    ∀ id r, transactionRow id (service.system.run ⟨awaitingReceipt, []⟩ receiptTick).world =
        some r → Owed r →
      1 ≤ credits id (service.system.run ⟨awaitingReceipt, []⟩ receiptTick).world :=
  ⟨by decide +kernel, service.completed_invoices_credited awaitingReceipt receiptTick
    (by decide +kernel)
    (fun id r hr howed => absurd howed (awaitingReceipt_owes_nothing id r hr))
    (fun _ _ h => by cases receiptTick_starts h)⟩

theorem successes_are_earned_sample :
    (∃ r ∈ paymentRow 3 (service.system.run ⟨awaitingReceipt, []⟩ receiptTick).world,
      r.status = .success) ∧
    ∀ r, paymentRow 3 (service.system.run ⟨awaitingReceipt, []⟩ receiptTick).world = some r →
      r.status = .success →
      Earned 3 (service.system.run ⟨awaitingReceipt, []⟩ receiptTick).world :=
  ⟨by decide +kernel, service.successes_are_earned awaitingReceipt receiptTick 3 (by decide)
    (by decide +kernel)
    (fun id r hr howed => absurd howed (awaitingReceipt_owes_nothing id r hr))
    (fun r hr hs => absurd hs ((by decide +kernel :
      ∀ r ∈ awaitingReceipt.payments.rows, r.status ≠ .success) r (Table.get_eq_some hr).1))
    (fun _ _ h => by cases receiptTick_starts h) (fun _ h => by cases receiptTick_starts h)⟩

end CryptoLink
