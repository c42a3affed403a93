import CryptoLink.Library.OwnSteps
import CryptoLink.Guarantees.LockedPayments
import CryptoLink.Repository.Replies

/-!
# Payments moved to another currency

The new transaction is committed before the old one is cancelled, and that it
could not be cancelled is nowhere noticed. What was paid on the old one stays
there. One transaction is left, with all the money, as long as the calls in
between get through, nobody brings another one to life, and nothing was paid on
the transaction that is given up.
-/

namespace CryptoLink

open ReadCommitted StatementPrograms System KeyedTables

/-- It waits for its money, or for the money to be confirmed. -/
def Transaction.Status.isLive (status : Transaction.Status) : Bool :=
  status = .pending || status.isInProgress

def TransactionRow.liveFor (paymentID : Int) (r : TransactionRow) : Bool :=
  r.entityID = some paymentID && r.status.isLive

theorem liveFor_iff {paymentID : Int} {r : TransactionRow} :
    r.liveFor paymentID = true ↔ r.entityID = some paymentID ∧ r.status.isLive = true := by
  simp [TransactionRow.liveFor]

/-- At most one transaction of the payment is pending or in progress. -/
def OneLive (paymentID : Int) (w : World) : Prop :=
  (w.transactions.rows.filter (TransactionRow.liveFor paymentID)).length ≤ 1

def LiveAt (paymentID id : Int) (w : World) : Prop :=
  ∃ r, w.transactions.get id = some r ∧ r.liveFor paymentID = true

/-- No transaction of the payment is live that was not. -/
def Aside (paymentID : Int) (w w' : World) : Prop :=
  ∀ id, LiveAt paymentID id w' → LiveAt paymentID id w

/-- Only these transactions of the payment can be live. -/
def LiveIn (paymentID : Int) (ids : List Int) (w : World) : Prop :=
  ∀ id, LiveAt paymentID id w → id ∈ ids

instance (paymentID : Int) (w : World) : Decidable (OneLive paymentID w) :=
  inferInstanceAs (Decidable (_ ≤ 1))

section Live

variable {paymentID : Int} {u v w : World}

theorem mem_live {id : Int} : LiveAt paymentID id w ↔
    ∃ r ∈ w.transactions.rows.filter (TransactionRow.liveFor paymentID), r.id = id := by
  constructor
  · rintro ⟨r, hr, hlive⟩
    obtain ⟨hin, hid⟩ := Table.get_eq_some hr
    exact ⟨r, List.mem_filter.mpr ⟨hin, hlive⟩, hid⟩
  · rintro ⟨r, hr, rfl⟩
    obtain ⟨hin, hlive⟩ := List.mem_filter.mp hr
    exact ⟨r, Table.get_of_mem hin, hlive⟩

theorem oneLive_iff : OneLive paymentID w ↔
    ∀ a b, LiveAt paymentID a w → LiveAt paymentID b w → a = b := by
  have hsub : (w.transactions.rows.filter (TransactionRow.liveFor paymentID)).Sublist
      w.transactions.rows := List.filter_sublist
  have hkeys := (hsub.map TransactionRow.id).nodup w.transactions.nodup
  rw [OneLive, Table.length_le_one_iff hkeys]
  constructor
  · intro hall a b ha hb
    obtain ⟨r, hr, rfl⟩ := mem_live.mp ha
    obtain ⟨x, hx, rfl⟩ := mem_live.mp hb
    exact hall r hr x hx
  · intro hall r hr x hx
    exact hall r.id x.id (mem_live.mpr ⟨r, hr, rfl⟩) (mem_live.mpr ⟨x, hx, rfl⟩)

namespace Aside

theorem refl (paymentID : Int) (w : World) : Aside paymentID w w := fun _ h => h

theorem trans (h : Aside paymentID u v) (h' : Aside paymentID v w) : Aside paymentID u w :=
  fun id hlive => h id (h' id hlive)

theorem of_eq (h : w.transactions = v.transactions) : Aside paymentID v w := by
  rintro id ⟨r, hr, hlive⟩
  rw [h] at hr
  exact ⟨r, hr, hlive⟩

theorem oneLive (h : Aside paymentID v w) (hv : OneLive paymentID v) : OneLive paymentID w := by
  rw [oneLive_iff] at hv ⊢
  intro a b ha hb
  exact hv a b (h a ha) (h b hb)

theorem liveIn {ids : List Int} (h : Aside paymentID v w) (hv : LiveIn paymentID ids v) :
    LiveIn paymentID ids w :=
  fun id hlive => hv id (h id hlive)

end Aside

theorem LiveIn.oneLive {id : Int} (h : LiveIn paymentID [id] w) : OneLive paymentID w := by
  rw [oneLive_iff]
  intro a b ha hb
  rw [List.mem_singleton.mp (h a ha), List.mem_singleton.mp (h b hb)]

/-- The one live transaction is the one that is known to be live. -/
theorem OneLive.liveIn {id : Int} (h : OneLive paymentID w) (hid : LiveAt paymentID id w) :
    LiveIn paymentID [id] w := by
  intro a ha
  exact List.mem_singleton.mpr (oneLive_iff.mp h a id ha hid)

end Live

/-- The row of the payment that the statement makes live was not. -/
def revives (paymentID id : Int) (status : Transaction.Status) (w : World) : Bool :=
  status.isLive && (w.transactions.get id).any fun r =>
    r.entityID = some paymentID && !r.status.isLive

/-- The statement inserts a live transaction of the payment, or makes one live
that was not. -/
def bringsToLife (paymentID : Int) (e : Entry Stmt Env World) (w : World) : Bool :=
  e.env.fate ≠ .refused && match e.stmt with
    | .createTransaction p =>
        e.seen.createFits p && p.entityID = some paymentID && p.status.isLive
    | .updateTransaction p => revives paymentID p.id p.status w
    | .cancelTransaction p => revives paymentID p.id p.status w
    | _ => false

def Stmt.creates : Stmt → Bool
  | .createTransaction _ => true
  | _ => false

section Revivals

variable {paymentID : Int}

theorem liveAt_of_changed {id : Int} {status : Transaction.Status} {w w' : World}
    {f : TransactionRow → TransactionRow} (hentity : ∀ r, (f r).entityID = r.entityID)
    (hstatus : ∀ r, (f r).status = status)
    (hget : w'.transactions.get id = (w.transactions.get id).map f)
    (hquiet : revives paymentID id status w = false) (hlive : LiveAt paymentID id w') :
    LiveAt paymentID id w := by
  obtain ⟨r', hr', hlive'⟩ := hlive
  rw [hget] at hr'
  obtain ⟨r, hr, rfl⟩ := Option.map_eq_some_iff.mp hr'
  refine ⟨r, hr, ?_⟩
  simp only [TransactionRow.liveFor, hentity, hstatus, Bool.and_eq_true, decide_eq_true_eq]
    at hlive' ⊢
  simp only [revives, hr, hlive', Option.any_some, Bool.true_and, decide_true,
    Bool.not_eq_eq_eq_not, Bool.not_false] at hquiet
  exact ⟨hlive'.1, hquiet⟩

/-- A statement makes no transaction live but the one it brings to life. -/
theorem effect_aside {e : Entry Stmt Env World} {w : World}
    (h : bringsToLife paymentID e w = false) :
    Aside paymentID w (engine.effect e.stmt e.env e.seen w) := by
  obtain ⟨st, env, seen⟩ := e
  rw [engine_effect]
  by_cases hfate : env.fate = .refused
  · rw [if_pos hfate]
    exact .refl paymentID w
  rw [if_neg hfate]
  simp only [bringsToLife, hfate, ne_eq, not_false_eq_true, decide_true, Bool.true_and] at h
  intro id hlive
  rcases World.transaction_effect_cases st env seen w id with hsame | ⟨p, rfl, rfl, -, hget⟩ |
    ⟨p, rfl, rfl, -, hget⟩ | ⟨p, rfl, hfits, -, -, hget⟩
  · obtain ⟨r, hr, hr'⟩ := hlive
    exact ⟨r, hsame ▸ hr, hr'⟩
  · exact liveAt_of_changed (f := World.updatedTransaction p) (fun _ => rfl) (fun _ => rfl) hget h
      hlive
  · exact liveAt_of_changed (f := World.cancelledTransaction p) (fun _ => rfl) (fun _ => rfl) hget
      h hlive
  · obtain ⟨r, hr, hr'⟩ := hlive
    rw [hget] at hr
    obtain rfl := Option.some.inj hr
    obtain ⟨hentity, hstatus⟩ : p.entityID = some paymentID ∧ p.status.isLive = true :=
      liveFor_iff.mp hr'
    simp [hfits, hentity, hstatus] at h

/-- An insert adds the row it numbered. -/
theorem create_aside {p : CreateTransactionParams} {env : Env} {seen w : World} {ids : List Int}
    (h : LiveIn paymentID ids w) :
    LiveIn paymentID (ids ++ [seen.nextTransactionID])
      (engine.effect (.createTransaction p) env seen w) := by
  rw [engine_effect]
  split
  · intro id hlive
    exact List.mem_append_left _ (h id hlive)
  intro id hlive
  rcases World.transaction_effect_cases (.createTransaction p) env seen w id with hsame |
    ⟨_, hst, -⟩ | ⟨_, hst, -⟩ | ⟨_, -, -, hid, -⟩
  · obtain ⟨r, hr, hr'⟩ := hlive
    exact List.mem_append_left _ (h id ⟨r, hsame ▸ hr, hr'⟩)
  · cases hst
  · cases hst
  · exact List.mem_append_right _ (List.mem_singleton.mpr hid.symm)

theorem lasting_aside (st : Stmt) (env : Env) (w : World) :
    Aside paymentID w (engine.lasting st env w) := by
  refine .of_eq ?_
  rw [engine_lasting]
  split
  · rfl
  · exact lasting_transactions st w

end Revivals

/-- A new transaction that is committed is known to be, and as long as two are
live the cancellation is not turned away. -/
def Reaches (paymentID : Int) (c : Cmd Stmt) (env : Env) (v : View Stmt Env World LockKey) :
    Prop :=
  match c with
  | .beginTx => OneLive paymentID v.world ∨ env.fate = .done
  | .stmt .pool (.cancelTransaction _) => OneLive paymentID v.world ∨ env.fate ≠ .refused
  | .commitTx => (∀ log ∈ v.session.txn, ∀ e ∈ log, e.stmt.creates = false) ∨
      env.fate ≠ .unanswered
  | _ => True

/-- Of what the call lands only its insert brings a transaction to life. -/
def OwnLands (paymentID : Int) (e : Entry Stmt Env World) (w : World) : Prop :=
  e.stmt.creates = true ∨ bringsToLife paymentID e w = false

/-- What a call that re-locks the payment meets. -/
def relockSurroundings (paymentID : Int) : Surroundings Stmt Env World LockKey where
  rel := Aside paymentID
  refl := Aside.refl paymentID
  trans := Aside.trans
  admits c env v := Reaches paymentID c env v ∧
    engine.EachLands (OwnLands paymentID) (engine.landing c env v) (engine.ground c env v)

abbrev RelockAccounts (paymentID : Int) {α : Type}
    (Q : Except Err α → View Stmt Env World LockKey → Deeds World → Prop) (p : Call α)
    (v : View Stmt Env World LockKey) (own : Deeds World) : Prop :=
  Accounts (relockSurroundings paymentID) engine Q p v own

/-- `J` of the committed world, and no insert is waiting to be committed. -/
abbrev Quiet (J : World → Prop) (v : View Stmt Env World LockKey) : Prop :=
  Engine.Within (fun st : Stmt => st.creates = false) J v

/-- The call never inserts a transaction. -/
abbrev NoInserts {α : Type} (p : Call α) : Prop :=
  Issues (fun c => ∀ q st, c = Cmd.stmt q st → st.creates = false) p

theorem OnlyWrites.noInserts {α : Type} {Φ : Conn → Stmt → Prop} {p : Call α}
    (hp : OnlyWrites Φ p) (h : ∀ q st, Φ q st → st.creates = false) : NoInserts p := by
  refine Issues.mono (fun c hc q st he => ?_) hp
  by_cases hread : st.changes = none
  · cases st <;> first | rfl | cases hread
  · exact h q st (hc q st he hread)

section Pieces

variable {paymentID : Int} {s : Service} {v : View Stmt Env World LockKey} {own : Deeds World}

theorem quiet_steady (paymentID : Int) :
    engine.Steady (fun st : Stmt => st.creates = false) (OwnLands paymentID)
      (Aside paymentID) where
  refl := Aside.refl paymentID
  trans := Aside.trans
  effect e w hquiet hok := by
    rcases hok with hcreates | hlife
    · rw [hquiet] at hcreates
      cases hcreates
    · exact effect_aside hlife
  lasting st env w _ := lasting_aside st env w

/-- Without an insert of its own a call keeps what the others keep. -/
theorem quiet_accounts {α : Type} {p : Call α} {J : World → Prop} (hp : NoInserts p)
    (hJ : ∀ w w', Aside paymentID w w' → J w → J w') (hv : Quiet J v) :
    RelockAccounts paymentID (fun _ v' _ => Quiet J v') p v own := by
  refine Accounts.of_issues hp ?_ ?_ hv
  · intro w w' x haside hw
    exact ⟨hJ w w' haside hw.world, hw.log⟩
  · intro c env v hc hadmits hw
    have haside := (quiet_steady paymentID).perform hw hc hadmits.2
    have hlog := (⟨trivial, hw.log⟩ : Quiet (fun _ => True) v).perform (G := engine)
      (fun _ _ _ _ _ _ => trivial) (fun _ _ _ _ _ => trivial) hc env
    exact ⟨hJ _ _ haside hw.world, hlog.log⟩

theorem entryToTransaction_of_unpaid (row : TransactionRow) {currency : CryptoCurrency}
    (hcurrency : s.currencies.getCurrencyByTicker row.currency = .ok currency)
    (hfee : row.networkFee = none) :
    s.entryToTransaction row = .ok (Service.transactionOf row currency none) := by
  simp only [Service.entryToTransaction, Service.networkFeeOf, hcurrency, hfee, wrapErr_ok, bind,
    Except.bind]

/-- Either nothing was added or what was added is known. -/
def Inserted {α : Type} (paymentID : Int) (ids : List Int) (idOf : α → Int) (known : α → Prop) :
    Except Err α → View Stmt Env World LockKey → Deeds World → Prop
  | .ok a, v, _ => known a ∧ Quiet (LiveIn paymentID (ids ++ [idOf a])) v
  | .error _, v, _ => Quiet (LiveIn paymentID ids) v

/-- The insert in its transaction: it is answered with the row it adds, or adds
none. -/
theorem insert_accounts {q : CreateTransactionParams} {ids : List Int}
    (hv : Quiet (LiveIn paymentID ids) v) :
    RelockAccounts paymentID
      (Inserted paymentID ids TransactionRow.id fun row =>
        ∃ seen : World, row = seen.newTransaction q)
      (runTx do
        let created ← ask .tx (.createTransaction q)
        succeed created) v own := by
  refine Accounts.call fun w env hrel _ => ?_
  have hw : LiveIn paymentID ids w := hrel.liveIn hv.world
  by_cases hopens : engine.opens env = true
  swap
  · simp only [Engine.perform, hopens]
    exact Accounts.fail fun w' haside => ⟨haside.liveIn hw, hv.log⟩
  simp only [Engine.perform, hopens, if_true]
  refine Accounts.tx fun w₁ env₁ hrel₁ _ => ?_
  have hlasting : LiveIn paymentID ids (engine.lasting (.createTransaction q) env₁ w₁) :=
    (lasting_aside _ env₁ w₁).liveIn (hrel₁.liveIn hw)
  cases hreply : engine.reply (.createTransaction q) env₁ (engine.replay [] w₁) with
  | error e =>
    refine Accounts.call fun w₂ env₂ hrel₂ _ => ?_
    exact Accounts.fail fun w' haside =>
      ⟨haside.liveIn (hrel₂.liveIn hlasting), fun _ hlog => by cases hlog⟩
  | ok row =>
    obtain ⟨-, -, rfl⟩ := reply_createTransaction hreply
    refine Accounts.call fun w₂ env₂ hrel₂ hadmits => ?_
    have hw₂ : LiveIn paymentID ids w₂ := hrel₂.liveIn hlasting
    have hanswered : env₂.fate ≠ .unanswered := by
      rcases hadmits.1 with hquiet | hanswered
      · have hcreates := hquiet _ rfl _ (List.mem_singleton_self _)
        cases hcreates
      · exact hanswered
    cases hfate : env₂.fate with
    | unanswered => exact absurd hfate hanswered
    | refused =>
      have hlands : engine.lands env₂ = false := by simp [engine, hfate]
      simp only [Engine.perform, hlands]
      exact Accounts.fail fun w' haside =>
        ⟨haside.liveIn hw₂, fun _ hlog => by cases hlog⟩
    | done =>
      have hlands : engine.lands env₂ = true := by simp [engine, hfate]
      have hacknowledged : engine.acknowledged env₂ = true := by simp [engine, hfate]
      simp only [Engine.perform, hlands, hacknowledged, if_true]
      exact Accounts.ret fun w' haside =>
        ⟨⟨_, rfl⟩, haside.liveIn (create_aside hw₂), fun _ hlog => by cases hlog⟩

/-- A created transaction is the payment's second live one at most. -/
theorem create_accounts {merchantID : Int} {c : Service.CreateTransaction} {ids : List Int}
    (hknown : ∃ currency, s.currencies.getCurrencyByTicker c.currency.ticker = .ok currency)
    (hv : Quiet (LiveIn paymentID ids) v) :
    RelockAccounts paymentID (Inserted paymentID ids Transaction.id fun _ => True)
      (s.create merchantID c) v own := by
  have hreads : ∀ w w', Aside paymentID w w' → LiveIn paymentID ids w → LiveIn paymentID ids w' :=
    fun _ _ haside hw => haside.liveIn hw
  unfold Service.create
  refine Accounts.bind (quiet_accounts (Issues.ofExcept _) hreads hv) ?_ fun _ _ _ hq => hq
  rintro - v₁ own₁ hv₁
  refine Accounts.bind (quiet_accounts (Issues.ofExcept _) hreads hv₁) ?_ fun _ _ _ hq => hq
  rintro coin v₂ own₂ hv₂
  refine Accounts.bind (quiet_accounts ?_ hreads hv₂) ?_ fun _ _ _ hq => hq
  · exact timeNow_writes.noInserts (Φ := fun _ _ => False) fun _ _ h => h.elim
  rintro now v₃ own₃ hv₃
  refine Accounts.bind (insert_accounts hv₃) ?_ fun _ _ _ hq => hq
  rintro row v₄ own₄ ⟨⟨seen, rfl⟩, hv₄⟩
  obtain ⟨registered, hcurrency⟩ := hknown
  have hentry := entryToTransaction_of_unpaid
    (seen.newTransaction (c.toRepo merchantID now coin)) hcurrency rfl
  rw [hentry]
  exact Accounts.ret fun w' haside => ⟨trivial, haside.liveIn hv₄.world, hv₄.log⟩

/-- A cancellation that arrives leaves the other transaction. -/
theorem cancel_leaves {q : CancelTransactionParams} {env : Env} {w : World} {new : Int}
    (hw : LiveIn paymentID [q.id, new] w) (hstatus : q.status = .cancelled)
    (hfate : env.fate ≠ .refused) :
    LiveIn paymentID [new] (engine.autocommit (.cancelTransaction q) env w) := by
  have hlife : bringsToLife paymentID ⟨.cancelTransaction q, env, w⟩ w = false := by
    simp [bringsToLife, revives, hstatus, Transaction.Status.isLive,
      Transaction.Status.isInProgress]
  have haside : Aside paymentID w (engine.autocommit (.cancelTransaction q) env w) := by
    have hlasting : engine.lasting (.cancelTransaction q) env w = w := by
      rw [engine_lasting]
      split <;> rfl
    rw [Engine.autocommit, hlasting]
    exact effect_aside hlife
  intro id hlive
  rcases List.mem_cons.mp (hw id (haside id hlive)) with rfl | hnew
  swap
  · exact hnew
  obtain ⟨r', hr', hlive'⟩ := hlive
  obtain ⟨r, hr, -⟩ := haside q.id ⟨r', hr', hlive'⟩
  have hget : (engine.autocommit (.cancelTransaction q) env w).transactions.get q.id =
      some (World.cancelledTransaction q r) := by
    simp only [Engine.autocommit, engine_effect, engine_lasting, hfate, if_false, World.effect,
      World.lasting, hr]
    rw [Table.get_modify_self, hr]
    rfl
  rw [hget] at hr'
  obtain rfl := Option.some.inj hr'
  have hcancelled := (liveFor_iff.mp hlive').2
  simp [World.cancelledTransaction, hstatus, Transaction.Status.isLive,
    Transaction.Status.isInProgress] at hcancelled

/-- Once the old transaction has been reached, one live transaction is left. -/
theorem cancel_accounts {inv : Transaction} {reason : String} {new : Int}
    (hv : Quiet (LiveIn paymentID [inv.id, new]) v) :
    RelockAccounts paymentID (fun _ v' _ => Quiet (OneLive paymentID) v')
      (Service.cancel inv .cancelled reason) v own := by
  have hone : ∀ w w', Aside paymentID w w' → OneLive paymentID w → OneLive paymentID w' :=
    fun _ _ haside hw => haside.oneLive hw
  refine Accounts.call fun w env hrel hadmits => ?_
  have hw : LiveIn paymentID [inv.id, new] w := hrel.liveIn hv.world
  by_cases hopens : engine.opens env = true
  swap
  · have hlive : OneLive paymentID w := hadmits.1.resolve_right fun hdone => hopens (by
      simp [engine, hdone])
    simp only [Engine.perform, hopens]
    exact Accounts.fail fun w' haside => ⟨haside.oneLive hlive, hv.log⟩
  simp only [Engine.perform, hopens, if_true]
  refine Accounts.pool fun w₁ env₁ hrel₁ _ => ?_
  rw [autocommit_of_read rfl]
  refine Accounts.pool fun w₂ env₂ hrel₂ hadmits₂ => ?_
  have hw₂ : LiveIn paymentID [inv.id, new] w₂ := hrel₂.liveIn (hrel₁.liveIn hw)
  refine quiet_accounts ?_ hone ⟨?_, ?_⟩
  · refine Issues.bind (Issues.attempt (Issues.bind trivial fun _ => Issues.ofExcept _)) ?_
    rintro (e | a)
    · exact Issues.bind ((Issues.ask_iff _).mpr fun _ _ he => by cases he) fun _ => trivial
    · refine Issues.bind ((Issues.ask_iff _).mpr fun _ _ he => by cases he) fun committed => ?_
      split
      · exact trivial
      · exact trivial
  · rcases hadmits₂.1 with hlive | hreached
    · have hlands := hadmits₂.2.1
      exact (quiet_steady paymentID).perform (v := ⟨w₂, ⟨some [], v.session.kept⟩⟩)
        (J := fun _ => True) ⟨trivial, fun _ h => by cases h; intro e he; cases he⟩
        (fun _ _ he => by cases he; rfl) hadmits₂.2 |>.oneLive hlive
    · exact (cancel_leaves hw₂ rfl hreached).oneLive
  · intro log hlog
    cases hlog
    intro e he
    cases he

/-- The call leaves one live transaction if it found the invoice's alone. -/
theorem autoAcceptCrossCurrency_accounts {inv : Transaction} {currency : CryptoCurrency}
    {amount : Money} {networkID : String} {p : UnmatchedCollectorPayment}
    (hknown : ∃ c, s.currencies.getCurrencyByTicker currency.ticker = .ok c)
    (hv : Quiet (LiveIn paymentID [inv.id]) v) :
    RelockAccounts paymentID (fun _ v' _ => OneLive paymentID v'.world)
      (s.autoAcceptCrossCurrency inv currency amount networkID p) v own := by
  have hreads : ∀ w w', Aside paymentID w w' → LiveIn paymentID [inv.id] w →
      LiveIn paymentID [inv.id] w' := fun _ _ haside hw => haside.liveIn hw
  have hnothing : ∀ q st, (fun _ _ => False : Conn → Stmt → Prop) q st → st.creates = false :=
    fun _ _ h => h.elim
  unfold Service.autoAcceptCrossCurrency
  refine Accounts.bind (quiet_accounts ?_ hreads hv) ?_ fun _ _ _ hq => hq.world.oneLive
  · exact (OnlyWrites.mapError _ Service.getPaymentByID_writes).noInserts hnothing
  rintro pt v₁ own₁ hv₁
  refine Accounts.bind (quiet_accounts ?_ hreads hv₁) ?_ fun _ _ _ hq => hq.world.oneLive
  · exact OnlyWrites.noInserts (.bind (.read rfl) fun _ => .ret _) hnothing
  rintro usdAmount v₂ own₂ hv₂
  refine Accounts.bind (Accounts.mapError
    (Q := Inserted paymentID [inv.id] Transaction.id fun _ => True)
    (create_accounts hknown hv₂) ?_) ?_ fun _ _ _ hq => hq.world.oneLive
  · rintro (e | tx) v' own' hx
    · exact hx
    · exact hx
  rintro newTx v₃ own₃ ⟨-, hv₃⟩
  refine Accounts.attempt_bind (cancel_accounts hv₃) ?_
  rintro - v₄ own₄ hv₄
  have hone : ∀ w w', Aside paymentID w w' → OneLive paymentID w → OneLive paymentID w' :=
    fun _ _ haside hw => haside.oneLive hw
  refine Accounts.mono (fun _ _ _ hq => hq.world) (quiet_accounts ?_ hone hv₄)
  refine OnlyWrites.noInserts Service.processInboundTransaction_writes ?_
  intro q st hst
  cases st <;> first | rfl | exact hst.elim

end Pieces

/-- Nothing that was confirmed was paid on the transaction. -/
def Unfilled (id : Int) (w : World) : Prop :=
  ∀ f ∈ w.fills.rows, f.key.transactionID = id → f.status ≠ .confirmed

/-- The transaction was given up. -/
def Superseded (id : Int) (w : World) : Prop :=
  ∃ r ∈ w.transactions.get id, r.status = .cancelled

/-- Whoever gives the transaction up finds no confirmed fill on it. -/
def GivenUpUnfilled (id : Int) (e : Entry Stmt Env World) (w : World) : Prop :=
  e.env.fate = .refused ∨ match e.stmt with
    | .updateTransaction p => p.id = id → p.status = .cancelled → Unfilled id w
    | .cancelTransaction p => p.id = id → p.status = .cancelled → Unfilled id w
    | _ => True

/-- The statement confirms no fill on the transaction. -/
def Stmt.fillsNot (id : Int) : Stmt → Prop
  | .insertTransactionFill p => p.key.transactionID = id → p.status ≠ .confirmed
  | _ => True

/-- No fill is confirmed on the transaction once it was given up. -/
def FilledWhileOpen (id : Int) (e : Entry Stmt Env World) (w : World) : Prop :=
  e.stmt.fillsNot id ∨ e.env.fate = .refused ∨ ¬ Superseded id w

/-- The transaction is there, and once it is given up nothing was paid on it. -/
structure Held (id : Int) (w : World) : Prop where
  row : (w.transactions.get id).isSome = true
  money : Superseded id w → Unfilled id w

section Money

variable {id : Int} {st : Stmt} {env : Env} {seen w w' : World}

theorem Superseded.congr (h : Superseded id w')
    (htransactions : w'.transactions = w.transactions) : Superseded id w := by
  rw [Superseded, htransactions] at h
  exact h

/-- A statement that confirms no fill of the transaction. -/
theorem unfilled_effect (h : Unfilled id w) (hother : st.fillsNot id) :
    Unfilled id (World.effect st env seen w) := by
  intro f hf hid hconfirmed
  have hget := Table.get_of_mem hf
  have hold : ∀ x, w.fills.get f.key = some x → x.status ≠ .confirmed := by
    intro x hx
    obtain ⟨hin, hkey⟩ := Table.get_eq_some hx
    exact h x hin (hkey ▸ hid)
  rcases World.fill_effect_cases st env seen w f.key with hsame | ⟨p, rfl, hkey, -, -, hnew⟩ |
    ⟨p, r, rfl, hkey, -, hr, hnew⟩ | ⟨-, -, hnew⟩
  · exact hold f (hsame ▸ hget) hconfirmed
  · rw [hnew] at hget
    obtain rfl := Option.some.inj hget
    exact hother (hkey ▸ hid) hconfirmed
  · rw [hnew] at hget
    have hstatus : (World.conflictingFill p env.clock r).status = .confirmed :=
      Option.some.inj hget ▸ hconfirmed
    have hp : p.status ≠ .confirmed := hother (hkey ▸ hid)
    simp only [World.conflictingFill, hp, and_false, if_false] at hstatus
    exact hold r hr hstatus
  · rw [hnew] at hget
    obtain ⟨r, -, rfl⟩ := Option.map_eq_some_iff.mp hget
    cases hconfirmed

/-- A statement on the transactions. -/
theorem held_of_transactions (h : Held id w) (hst : st.changes = some .transactions)
    (hok : GivenUpUnfilled id ⟨st, env, seen⟩ w) (hfate : env.fate ≠ .refused) :
    Held id (World.effect st env seen w) := by
  have hfills : (World.effect st env seen w).fills = w.fills :=
    World.effect_fills (by rw [hst]; decide)
  have hkept : Unfilled id w → Unfilled id (World.effect st env seen w) := by
    intro hunfilled
    rw [Unfilled, hfills]
    exact hunfilled
  replace hok := hok.resolve_left hfate
  obtain ⟨r, hr⟩ := Option.isSome_iff_exists.mp h.row
  rcases World.transaction_effect_cases st env seen w id with hsame | ⟨p, rfl, hid, -, hget⟩ |
    ⟨p, rfl, hid, -, hget⟩ | ⟨p, rfl, -, -, hnone, -⟩
  · constructor
    · rw [hsame]
      exact h.row
    · intro hcancelled
      rw [Superseded, hsame] at hcancelled
      exact hkept (h.money hcancelled)
  · rw [hr] at hget
    constructor
    · rw [hget]
      rfl
    · rintro ⟨x, hx, hcancelled⟩
      rw [hget] at hx
      obtain rfl := Option.some.inj hx
      exact hkept (hok hid hcancelled)
  · rw [hr] at hget
    constructor
    · rw [hget]
      rfl
    · rintro ⟨x, hx, hcancelled⟩
      rw [hget] at hx
      obtain rfl := Option.some.inj hx
      exact hkept (hok hid hcancelled)
  · rw [hr] at hnone
    cases hnone

theorem held_of_same (h : Held id w) (htransactions : w'.transactions = w.transactions)
    (hfills : Superseded id w → Unfilled id w → Unfilled id w') : Held id w' := by
  refine ⟨by rw [htransactions]; exact h.row, fun hcancelled => ?_⟩
  have hgiven := hcancelled.congr htransactions
  exact hfills hgiven (h.money hgiven)

theorem held_effect {e : Entry Stmt Env World} (h : Held id w) (hup : GivenUpUnfilled id e w)
    (hopen : FilledWhileOpen id e w) : Held id (engine.effect e.stmt e.env e.seen w) := by
  obtain ⟨st, env, seen⟩ := e
  rw [engine_effect]
  split
  · exact h
  rename_i hfate
  by_cases htransactions : st.changes = some .transactions
  · exact held_of_transactions h htransactions hup hfate
  · refine held_of_same h (World.effect_transactions htransactions) ?_
    intro hgiven hunfilled
    rcases hopen with hother | hrefused | hnot
    · exact unfilled_effect hunfilled hother
    · exact absurd hrefused hfate
    · exact absurd hgiven hnot

theorem held_steady (id : Int) :
    engine.Steady (fun _ => True) (fun e w => GivenUpUnfilled id e w ∧ FilledWhileOpen id e w)
      (fun w w' => Held id w → Held id w') where
  refl _ h := h
  trans h h' hw := h' (h hw)
  effect _ _ _ hok h := held_effect h hok.1 hok.2
  lasting st env w _ h := by
    rw [engine_lasting]
    split
    · exact h
    · refine held_of_same h (lasting_transactions st w) fun _ hunfilled => ?_
      rw [Unfilled, lasting_fills]
      exact hunfilled

end Money

theorem held_keeper (s : Service) (id : Int) :
    Keeper s.system (fun _ => True)
      (fun e w => GivenUpUnfilled id e w ∧ FilledWhileOpen id e w)
      (fun w w' => Held id w → Held id w') := by
  refine .of_steady (held_steady id) (fun _ => Issues.always fun _ _ _ _ => trivial) ?_
  intro m w h
  refine held_of_same h (Move.apply_transactions m w) fun _ hunfilled => ?_
  rw [Unfilled, show (s.system.move m w).fills = w.fills from Move.apply_fills m w]
  exact hunfilled

/-- A row that is created has another id. -/
def Numbered (id : Int) : (c : Cmd Stmt) → Answer Reply c → Prop
  | .stmt _ (.createTransaction _), r => ∀ row : TransactionRow, r = .ok row → row.id ≠ id
  | _, _ => True

/-- The call, as long as what it creates gets a number of its own. -/
abbrev FillsNot {α : Type} (id : Int) (Q : Except Err α → Prop) (p : Call α) : Prop :=
  Meets (answering (Stmt.fillsNot id) (Numbered id)) (fun x _ => Q x) p ()

section FillsNot

variable {id : Int} {s : Service} {α : Type}

theorem fillsNot_of_writes {Φ : Conn → Stmt → Prop} {p : Call α} (hp : OnlyWrites Φ p)
    (h : ∀ q st, Φ q st → st.fillsNot id) : FillsNot id (fun _ => True) p := by
  refine answering_of_issues (Issues.mono ?_ hp)
  intro c hc q st he
  by_cases hread : st.changes = none
  · cases st <;> first
      | exact trivial
      | cases hread
  · exact h q st (hc q st he hread)

theorem fillsNot_of_reads {p : Call α} (hp : OnlyWrites (fun _ _ => False) p) :
    FillsNot id (fun _ => True) p :=
  fillsNot_of_writes hp fun _ _ => False.elim

theorem create_fillsNot {merchantID : Int} {c : Service.CreateTransaction} :
    FillsNot id (fun x => ∀ tx, x = .ok tx → tx.id ≠ id) (s.create merchantID c) := by
  unfold Service.create
  refine Meets.ofExcept_bind ?_ fun _ _ _ _ _ h => by cases h
  intro _ _
  refine Meets.ofExcept_bind ?_ fun _ _ _ _ _ h => by cases h
  intro networkCurrency _
  refine Meets.seq (fillsNot_of_reads timeNow_writes) ?_ fun _ _ _ _ h => by cases h
  rintro now - -
  refine Meets.bind (Meets.mono ?_ (answering_runTransaction
    (T := fun x : Except Err TransactionRow => ∀ row, x = .ok row → row.id ≠ id) ?_
    fun _ _ h => by cases h))
  · intro created _ hcreated
    cases created with
    | error e => exact fun _ h => by cases h
    | ok row =>
      refine Meets.ofExcept fun _ _ tx htx => ?_
      obtain ⟨currency, fee, -, -, rfl⟩ := s.entryToTransaction_eq_ok htx
      exact hcreated row rfl
  · refine Meets.ask_bind fun _ _ r _ hr => ⟨?_, ?_⟩
    · intro q st hst
      cases hst
      exact trivial
    · exact Meets.ofExcept fun _ _ row hrow => hr row hrow

/-- It pays on the transaction it has created, and not on the one it gives up. -/
theorem autoAcceptCrossCurrency_fillsNot {inv : Transaction} {currency : CryptoCurrency}
    {amount : Money} {networkID : String} {p : UnmatchedCollectorPayment} :
    FillsNot inv.id (fun _ => True)
      (s.autoAcceptCrossCurrency inv currency amount networkID p) := by
  unfold Service.autoAcceptCrossCurrency
  refine Meets.seq (fillsNot_of_reads (OnlyWrites.mapError _ Service.getPaymentByID_writes)) ?_
    fun _ _ _ => trivial
  rintro pt - -
  refine Meets.seq (fillsNot_of_reads (.bind (.read rfl) fun _ => .ret _)) ?_ fun _ _ _ => trivial
  rintro usdAmount - -
  refine Meets.bind (Meets.mapError (Meets.mono ?_ (create_fillsNot (s := s))))
  intro created _ hcreated
  cases created with
  | error e => exact trivial
  | ok newTx =>
    refine Meets.seq (fillsNot_of_writes (OnlyWrites.attempt (Service.cancel_writes
      (Φ := fun _ st => ∃ p, st = .cancelTransaction p) fun p _ _ => ⟨p, rfl⟩)) ?_) ?_
      fun _ _ _ => trivial
    · rintro q st ⟨p, rfl⟩
      exact trivial
    · rintro - - -
      refine fillsNot_of_writes Service.processInboundTransaction_writes ?_
      intro q st hst
      cases st <;> try exact trivial
      case insertTransactionFill p =>
        intro hid
        have hkey : p.key.transactionID = newTx.id :=
          congrArg (·.transactionID) hst.2.1
        exact absurd (hkey.symm.trans hid) (hcreated newTx rfl)

end FillsNot

/-- A row that is there keeps its number to itself. -/
theorem numbered_perform {id : Int} {c : Cmd Stmt} {env : Env}
    {v : View Stmt Env World LockKey} (hrow : (v.world.transactions.get id).isSome = true) :
    Numbered id c (engine.perform c env v).1 := by
  have hreply : ∀ (p : CreateTransactionParams) (w : World),
      (w.transactions.get id).isSome = true → ∀ row : TransactionRow,
        engine.reply (.createTransaction p) env w = .ok row → row.id ≠ id := by
    intro p w hw row hreply hid
    obtain ⟨-, hfits, rfl⟩ := reply_createTransaction hreply
    simp only [World.createFits, Bool.and_eq_true, Option.isNone_iff_eq_none] at hfits
    have hnone : w.transactions.get (w.newTransaction p).id = none := hfits.2
    rw [← hid, hnone] at hw
    cases hw
  obtain ⟨w, txn, kept⟩ := v
  cases c with
  | stmt q st =>
    cases st with
    | createTransaction p =>
      cases q with
      | pool => exact hreply p w hrow
      | tx =>
        cases txn with
        | none => exact hreply p w hrow
        | some log =>
          refine hreply p (engine.replay log w) ?_
          exact (transaction_stays id).replay (fun _ _ => trivial)
            (engine.eachLands_true log w) hrow
    | _ => exact trivial
  | _ => exact trivial

/-- The invoice waits for its money, and no other transaction of its payment is
live. -/
structure OnlyInvoice (inv : Transaction) (w : World) : Prop where
  row : ∃ r ∈ w.transactions.get inv.id, r.entityID = some inv.entityID ∧ r.status = .pending
  alone : OneLive inv.entityID w

/-- Another transaction of the payment, in the same currency, has been found to
have received what was paid on this one besides what was paid on itself. -/
def CountedElsewhere (r : TransactionRow) (w : World) : Prop :=
  ∃ x ∈ w.transactions.rows, x.id ≠ r.id ∧ x.entityID = r.entityID ∧
    x.currency = r.currency ∧ x.networkID = r.networkID ∧
    x.status ≠ .cancelled ∧ x.status ≠ .failed ∧
    ∃ received ∈ x.factAmount,
      w.sumConfirmedFillsForTx x.id + w.sumConfirmedFillsForTx r.id ≤ received

/-- What was paid on the invoice, should it have been given up: nothing, or the
payment counts it, or says that a part was paid. -/
def MoneyKept (inv : Transaction) (w : World) : Prop :=
  ∀ r ∈ w.transactions.get inv.id, r.status = .cancelled →
    Unfilled inv.id w ∨ CountedElsewhere r w ∨
      paymentStatus inv.entityID w = some .partialPaid

theorem Held.moneyKept {inv : Transaction} {w : World} (h : Held inv.id w) : MoneyKept inv w :=
  fun r hr hcancelled => .inl (h.money ⟨r, hr, hcancelled⟩)

/-- What the steps of a run have to be for the re-lock in thread `i`: nobody else
brings a transaction of the payment to life or confirms a fill on the invoice
once it is given up, the call itself gets through to the invoice, it is not cut
off while two are live, and whoever gives the invoice up finds no confirmed fill
on it. -/
structure RelockSafe (s : Service) (inv : Transaction) (i : ℕ) (cfg : State)
    (e : Event Env Move Operation) : Prop where
  others : (∀ a ∈ s.system.executing cfg e, a.index ≠ i) →
    s.system.Landing (fun x w => bringsToLife inv.entityID x w = false) cfg e ∧
      s.system.Landing (FilledWhileOpen inv.id) cfg e
  own : ∀ a ∈ s.system.executing cfg e, a.index = i →
    (relockSurroundings inv.entityID).admits a.cmd a.env (a.thread.view cfg.world)
  uncut : e.Uncut (fun j => j = i) ∨ OneLive inv.entityID cfg.world
  unfilled : s.system.Landing (GivenUpUnfilled inv.id) cfg e

/-- Once the re-lock has come to its end, or has been cut off, the payment has
one live transaction at most and all its money. -/
def Relocked (inv : Transaction) (i : ℕ) (cfg : State) : Prop :=
  ∀ th ∈ cfg.threads[i]?, (∃ x, th.prog = Prog.ofExcept x) →
    OneLive inv.entityID cfg.world ∧ MoneyKept inv cfg.world

theorem aside_keeper (s : Service) (paymentID : Int) :
    Keeper s.system (fun _ => True) (fun x w => bringsToLife paymentID x w = false)
      (Aside paymentID) where
  refl := Aside.refl paymentID
  trans := Aside.trans
  program _ := Issues.always fun _ _ _ _ => trivial
  effect _ _ _ hok := effect_aside hok
  lasting st env w _ := lasting_aside st env w
  move m w := .of_eq (Move.apply_transactions m w)

theorem RelockSafe.around {s : Service} {inv : Transaction} {i : ℕ} {cfg : State}
    {e : Event Env Move Operation} (l : Operation) (h : RelockSafe s inv i cfg e) :
    Around s.system (relockSurroundings inv.entityID) l
      (fun _ v _ => OneLive inv.entityID v.world) i cfg e where
  others hothers := (aside_keeper s inv.entityID).step (issued_always cfg) (h.others hothers).1
  own a ha hi _ := h.own a ha hi
  cut hcrash w _ haside := by
    subst hcrash
    exact haside.oneLive (h.uncut.resolve_left fun huncut => huncut rfl)

/-- The invoice's money through one step: the call itself pays on the transaction
it has created. -/
theorem RelockSafe.held {s : Service} {inv : Transaction} {i : ℕ} {cfg : State}
    {e : Event Env Move Operation} (h : RelockSafe s inv i cfg e)
    (habides : Abides (Stmt.fillsNot inv.id) (Numbered inv.id) i cfg)
    (hheld : Held inv.id cfg.world) :
    Abides (Stmt.fillsNot inv.id) (Numbered inv.id) i (s.system.step cfg e) ∧
      Held inv.id (s.system.step cfg e).world := by
  have hnumbered : ∀ a ∈ s.system.executing cfg e, a.index = i → Numbered inv.id a.cmd
      (s.system.engine.perform a.cmd a.env (a.thread.view cfg.world)).1 :=
    fun a _ _ => numbered_perform hheld.row
  refine ⟨habides.step hnumbered, (held_keeper s inv.id).step (issued_always cfg) ?_ hheld⟩
  intro a ha
  refine Engine.EachLands.and (h.unfilled a ha) ?_
  by_cases hi : a.index = i
  · refine Engine.eachLands_of_forall ?_ _
    exact fun x hx w => .inl (habides.landing ha hi (hnumbered a ha hi) x hx)
  · refine (h.others ?_).2 a ha
    intro b hb hbi
    obtain rfl := Option.some.inj (ha.symm.trans hb)
    exact hi hbi

/-- In every run after the start of a re-lock, whatever else is going on in it,
whose steps are safe for it, the payment ends up with one live transaction and
all the money of the invoice. -/
theorem relock_keeps_one_live_and_money (s : Service) (inv : Transaction)
    (currency : CryptoCurrency) (amount : Money) (networkID : String)
    (p : UnmatchedCollectorPayment) (cfg : State) (es : Run)
    (hopen : OnlyInvoice inv cfg.world)
    (hknown : ∃ c, s.currencies.getCurrencyByTicker currency.ticker = .ok c)
    (hrun : s.system.Along (RelockSafe s inv cfg.threads.length)
      (s.system.step cfg (.start (.autoAcceptCrossCurrency inv currency amount networkID p))) es) :
    Relocked inv cfg.threads.length (s.system.run cfg
      (.start (.autoAcceptCrossCurrency inv currency amount networkID p) :: es)) := by
  let l : Operation := .autoAcceptCrossCurrency inv currency amount networkID p
  let started : State := s.system.step cfg (.start l)
  have hthread : started.threads[cfg.threads.length]? = some ⟨l, s.program l, .idle⟩ := by
    simp only [started, System.step, List.getElem?_append_right (Nat.le_refl _), Nat.sub_self,
      List.getElem?_cons_zero]
    rfl
  obtain ⟨r, hr, hentity, hpending⟩ := hopen.row
  have hlive : LiveAt inv.entityID inv.id cfg.world := by
    refine ⟨r, hr, liveFor_iff.mpr ⟨hentity, ?_⟩⟩
    rw [hpending]
    rfl
  have haccounts : Accountable s.system (relockSurroundings inv.entityID) l
      (fun _ v _ => OneLive inv.entityID v.world) cfg.threads.length
      started [] := by
    unfold Accountable
    rw [hthread]
    intro _
    exact autoAcceptCrossCurrency_accounts hknown
      (Engine.within_idle (hopen.alone.liveIn hlive))
  have hdone := haccounts.run (Along.mono _ hrun fun _ _ h => h.around l)
  have hheld : Held inv.id cfg.world := by
    refine ⟨Option.isSome_iff_exists.mpr ⟨r, hr⟩, ?_⟩
    rintro ⟨x, hx, hcancelled⟩
    rw [Option.mem_def.mp hr] at hx
    obtain rfl := Option.some.inj hx
    rw [hpending] at hcancelled
    cases hcancelled
  have habides : Abides (Stmt.fillsNot inv.id) (Numbered inv.id) cfg.threads.length started :=
    ⟨_, hthread, autoAcceptCrossCurrency_fillsNot, Engine.within_idle trivial⟩
  have hmoney := (Along.invariant (Y := s.system)
    (I := fun cfg' => Abides (Stmt.fillsNot inv.id) (Numbered inv.id) cfg.threads.length cfg' ∧
      Held inv.id cfg'.world)
    (fun _ _ h hsafe => RelockSafe.held hsafe h.1 h.2) hrun ⟨habides, hheld⟩).2
  rintro th hth ⟨x, hprog⟩
  obtain ⟨th', hth', hlabel⟩ := System.label_run s.system es hthread
  obtain rfl : th' = th := Option.some.inj (hth'.symm.trans hth)
  unfold Accountable at hdone
  rw [hth'] at hdone
  have houtcome := hdone hlabel
  rw [hprog] at houtcome
  exact ⟨houtcome.outcome, hmoney.moneyKept⟩

instance (paymentID : Int) (c : Cmd Stmt) (env : Env) (v : View Stmt Env World LockKey) :
    Decidable (Reaches paymentID c env v) := by
  unfold Reaches
  split <;> infer_instance

instance (paymentID : Int) (e : Entry Stmt Env World) (w : World) :
    Decidable (OwnLands paymentID e w) :=
  inferInstanceAs (Decidable (_ ∨ _))

instance (paymentID : Int) (c : Cmd Stmt) (env : Env) (v : View Stmt Env World LockKey) :
    Decidable ((relockSurroundings paymentID).admits c env v) :=
  inferInstanceAs (Decidable (Reaches paymentID c env v ∧ _))

instance (id : Int) (w : World) : Decidable (Unfilled id w) :=
  inferInstanceAs (Decidable (∀ f ∈ w.fills.rows, f.key.transactionID = id →
    f.status ≠ .confirmed))

instance (id : Int) (w : World) : Decidable (Superseded id w) :=
  inferInstanceAs (Decidable (∃ r ∈ w.transactions.get id, r.status = .cancelled))

instance (id : Int) (e : Entry Stmt Env World) (w : World) :
    Decidable (GivenUpUnfilled id e w) := by
  delta GivenUpUnfilled
  generalize e.stmt = st
  induction st using Stmt.casesOn <;> infer_instance

instance (id : Int) (st : Stmt) : Decidable (st.fillsNot id) := by
  delta Stmt.fillsNot
  induction st using Stmt.casesOn <;> infer_instance

instance (id : Int) (e : Entry Stmt Env World) (w : World) :
    Decidable (FilledWhileOpen id e w) :=
  inferInstanceAs (Decidable (_ ∨ _ ∨ _))

instance (r : TransactionRow) (w : World) : Decidable (CountedElsewhere r w) := by
  unfold CountedElsewhere
  infer_instance

instance (inv : Transaction) (w : World) : Decidable (MoneyKept inv w) :=
  inferInstanceAs (Decidable (∀ r ∈ w.transactions.get inv.id, r.status = .cancelled → _))

instance (s : Service) (inv : Transaction) (i : ℕ) (cfg : State)
    (e : Event Env Move Operation) : Decidable (RelockSafe s inv i cfg e) :=
  decidable_of_iff
    (((∀ a ∈ s.system.executing cfg e, a.index ≠ i) →
        s.system.Landing (fun x w => bringsToLife inv.entityID x w = false) cfg e ∧
          s.system.Landing (FilledWhileOpen inv.id) cfg e) ∧
      (∀ a ∈ s.system.executing cfg e, a.index = i →
        (relockSurroundings inv.entityID).admits a.cmd a.env (a.thread.view cfg.world)) ∧
      (e.Uncut (fun j => j = i) ∨ OneLive inv.entityID cfg.world) ∧
      s.system.Landing (GivenUpUnfilled inv.id) cfg e)
    ⟨fun h => ⟨h.1, h.2.1, h.2.2.1, h.2.2.2⟩, fun h => ⟨h.others, h.own, h.uncut, h.unfilled⟩⟩

open Sample

namespace Sample

/-- The invoice as the watcher listed it. -/
def inEther : Transaction :=
  Service.transactionOf (invoice .pending none none none) ether none

/-- Ninety dollars to the collector. -/
def inDollars : UnmatchedCollectorPayment where
  collectorAddress := "collector"
  blockchain := "ETH"
  isTest := false
  isNative := false
  tokenContract := ""
  rawAmount := "90"
  txHash := "0xb"
  senderAddress := "payer"

def relock : Operation :=
  .autoAcceptCrossCurrency inEther dollarToken (Money.crypto "ETH_USDT" 90 0) "1" inDollars

def nothingPaid : World := world (invoice .pending none none none) .locked [] []

/-- Sixty of the hundred ether are there. -/
def sixtyPaid : World :=
  world (invoice .pending none none none) .partialPaid [fill "0xa" 60 0 .confirmed] []

end Sample

/-- Thread `i` has returned. -/
def hasEnded (i : ℕ) (cfg : State) : Bool :=
  match cfg.threads[i]? with
  | some ⟨_, .ret _, _⟩ => true
  | _ => false

theorem Relocked.of_hasEnded {inv : Transaction} {i : ℕ} {cfg : State}
    (h : Relocked inv i cfg) (hreturned : hasEnded i cfg = true) :
    OneLive inv.entityID cfg.world ∧ MoneyKept inv cfg.world := by
  unfold hasEnded at hreturned
  split at hreturned
  · rename_i l u session hth
    exact h _ hth ⟨.ok u, rfl⟩
  · cases hreturned

theorem relock_keeps_one_live_and_money_sample :
    OneLive 3 (shop.system.run ⟨nothingPaid, []⟩ (.start relock :: steps 0 22)).world ∧
      MoneyKept inEther (shop.system.run ⟨nothingPaid, []⟩ (.start relock :: steps 0 22)).world :=
  (relock_keeps_one_live_and_money shop inEther dollarToken (Money.crypto "ETH_USDT" 90 0) "1"
    inDollars ⟨nothingPaid, []⟩ (steps 0 22)
    ⟨⟨invoice .pending none none none, by decide +kernel⟩, by decide +kernel⟩
    ⟨dollarToken, by decide +kernel⟩ (by decide +kernel)).of_hasEnded (by decide +kernel)

/-- The ninety dollars pay the whole payment, and the sixty ether are on a
transaction that is cancelled. -/
theorem relock_orphans_fills :
    ¬ ∀ (s : Service) (inv : Transaction) (currency : CryptoCurrency) (amount : Money)
      (networkID : String) (p : UnmatchedCollectorPayment) (cfg : State) (es : Run),
      OnlyInvoice inv cfg.world →
      (∃ c, s.currencies.getCurrencyByTicker currency.ticker = .ok c) →
      Relocked inv cfg.threads.length (s.system.run cfg
        (.start (.autoAcceptCrossCurrency inv currency amount networkID p) :: es)) := by
  intro h
  have hopen : OnlyInvoice inEther sixtyPaid :=
    ⟨⟨invoice .pending none none none, by decide +kernel⟩, by decide +kernel⟩
  have hrelocked := h shop inEther dollarToken (Money.crypto "ETH_USDT" 90 0) "1" inDollars
    ⟨sixtyPaid, []⟩ (steps 0 22) hopen ⟨dollarToken, by decide +kernel⟩
  have hmoney := (hrelocked.of_hasEnded (by decide +kernel)).2
  have horphaned : ¬ MoneyKept inEther
      (shop.system.run ⟨sixtyPaid, []⟩ (.start relock :: steps 0 22)).world := by
    decide +kernel
  exact horphaned hmoney

end CryptoLink
