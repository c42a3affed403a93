import CryptoLink.Calls
import CryptoLink.Repository.Frames
import CryptoLink.Repository.Replies
import CryptoLink.Services.Balances

/-!
# Balances and their audit log

A balance moves by what the next row of the audit log says, in the transaction
that writes the row. Between the two statements the balance is off by that
amount; its row is locked, and nobody else sees it.
-/

namespace CryptoLink

open ReadCommitted StatementPrograms System

/-- What a row of the audit log adds to its balance. -/
def AuditRow.signedAmount (r : AuditRow) : Int :=
  let metaData := r.metadata.getD []
  let amount := ((metaData.find "amountRaw").bind Money.setString).getD 0
  if metaData.find "operation" = some "decrement" then -amount else amount

def ledger (key : BalanceKey) (w : World) : Int :=
  ((w.auditLog.filter fun r => r.balance = key).map AuditRow.signedAmount).sum

/-- Nothing, where there is no row. -/
def balanceAmount (key : BalanceKey) (w : World) : Int :=
  match w.balances.get key with
  | none => 0
  | some r => r.amount

def Audited (w : World) : Prop :=
  ∀ key, 0 ≤ balanceAmount key w ∧ balanceAmount key w = ledger key w

/-- A part of a transaction that leaves balances and audit log alone. -/
def OffTheBooks {α : Type} (p : Call α) : Prop :=
  Issues (fun c => ∃ q st, c = .stmt q st ∧ st.changes ≠ some .balances ∧
    st.changes ≠ some .auditLog) p

/-- The body of a database transaction that updates balances and passes on
every error. -/
inductive OnTheBooks : {α : Type} → Call α → Prop
  | other {α : Type} {p : Call α} (hp : OffTheBooks p) : OnTheBooks p
  | update (p : UpdateBalanceQuery) : OnTheBooks (updateBalance .tx p)
  | bind {α β : Type} {p : Call α} {f : α → Call β} (hp : OnTheBooks p)
      (hf : ∀ a, OnTheBooks (f a)) : OnTheBooks (p.bind f)
  | mapError {α : Type} {p : Call α} (f : Err → Err) (hp : OnTheBooks p) :
      OnTheBooks (p.mapError f)

structure Posting where
  body : Call Unit
  onTheBooks : OnTheBooks body

inductive BalanceCall where
  | inTransaction (p : Posting)
  | updateBalanceByID (id : BalanceKey) (p : UpdateBalanceByIDQuery)
  | ensureBalance (entityType : EntityType) (entityID : Int) (currency : CryptoCurrency)
      (isTest : Bool)
  | updateBalancesForWithdrawal (p : UpdateBalancesForWithdrawal)

def BalanceCall.program : BalanceCall → Call Unit
  | .inTransaction p => runTx p.body
  | .updateBalanceByID id p => discard (CryptoLink.updateBalanceByID id p)
  | .ensureBalance entityType entityID currency isTest =>
      discard (CryptoLink.ensureBalance entityType entityID currency isTest)
  | .updateBalancesForWithdrawal p => CryptoLink.updateBalancesForWithdrawal p

def balanceSystem : System Stmt Reply Env World LockKey Err BalanceCall Move where
  engine := engine
  program := BalanceCall.program
  move := Move.apply

theorem signedAmount_auditMetaData (now : Int) (key : BalanceKey) (comment : String)
    (m : MetaData) {op : BalanceOperation} (hvalid : op.isValid = true) (amount : Money) :
    AuditRow.signedAmount ⟨now, key, comment, (auditMetaData m op amount).toJSONB⟩ =
      op.signed amount := by
  have hraw : (((auditMetaData m op amount).toJSONB).getD []).find "amountRaw" =
      some (toString amount.value) := by
    rw [MetaData.find_toJSONB, auditMetaData, MetaData.find_set_of_ne (by decide),
      MetaData.find_set, Money.stringRaw]
  have hop : (((auditMetaData m op amount).toJSONB).getD []).find "operation" =
      some op.string := by
    rw [MetaData.find_toJSONB, auditMetaData, MetaData.find_set_of_ne (by decide),
      MetaData.find_set_of_ne (by decide), MetaData.find_set]
  simp only [AuditRow.signedAmount, hraw, hop, Option.bind_some, Money.setString_toString,
    Option.getD_some]
  cases op with
  | increment => rfl
  | decrement => rfl
  | other operation => cases hvalid

/-- From `w` to `u` every balance has moved with its ledger, but for `key`,
which is `d` ahead. -/
def Owes (key : BalanceKey) (d : Int) (w u : World) : Prop :=
  ∀ k, balanceAmount k u - ledger k u =
      balanceAmount k w - ledger k w + (if k = key then d else 0) ∧
    (0 ≤ balanceAmount k w → 0 ≤ balanceAmount k u)

theorem Owes.refl (key : BalanceKey) (w : World) : Owes key 0 w w := by
  intro k
  refine ⟨?_, fun h => h⟩
  rw [ite_self, add_zero]

theorem Owes.settled {key key' : BalanceKey} {w u : World} (h : Owes key 0 w u) :
    Owes key' 0 w u := by
  intro k
  obtain ⟨hgap, hpos⟩ := h k
  rw [ite_self] at hgap ⊢
  exact ⟨hgap, hpos⟩

theorem Owes.audited {key : BalanceKey} {w u : World} (h : Owes key 0 w u) (hw : Audited w) :
    Audited u := by
  intro k
  obtain ⟨hgap, hpos⟩ := h k
  obtain ⟨hnonneg, heq⟩ := hw k
  rw [ite_self] at hgap
  exact ⟨hpos hnonneg, by omega⟩

theorem balanceAmount_congr {k : BalanceKey} {w u : World}
    (h : u.balances.get k = w.balances.get k) : balanceAmount k u = balanceAmount k w := by
  rw [balanceAmount, balanceAmount, h]

theorem ledger_congr {k : BalanceKey} {w u : World} (h : u.auditLog = w.auditLog) :
    ledger k u = ledger k w := by
  rw [ledger, ledger, h]

theorem engine_auditLog {st : Stmt} (h : st.changes ≠ some .auditLog) (env : Env)
    (seen w : World) : (engine.effect st env seen w).auditLog = w.auditLog := by
  rw [engine_effect]
  split
  · rfl
  · exact World.effect_auditLog h

theorem engine_balances {st : Stmt} (h : st.changes ≠ some .balances) (env : Env)
    (seen w : World) : (engine.effect st env seen w).balances = w.balances := by
  rw [engine_effect]
  split
  · rfl
  · exact World.effect_balances h

theorem audited_congr {w u : World} (hbalances : u.balances = w.balances)
    (hlog : u.auditLog = w.auditLog) (h : Audited w) : Audited u := by
  intro k
  have hamount : balanceAmount k u = balanceAmount k w := balanceAmount_congr (by rw [hbalances])
  rw [hamount, ledger_congr hlog]
  exact h k

theorem engine_lasting_auditLog (st : Stmt) (env : Env) (w : World) :
    (engine.lasting st env w).auditLog = w.auditLog := by
  rw [engine_lasting]
  split
  · rfl
  · exact lasting_auditLog st w

theorem audited_lasting (st : Stmt) (env : Env) {w : World} (h : Audited w) :
    Audited (engine.lasting st env w) :=
  audited_congr (engine_lasting_balances st env w) (engine_lasting_auditLog st env w) h

abbrev balanceOf (key : BalanceKey) (w : World) : Option BalanceRow := w.balances.get key

theorem aloof_of_changes {st : Stmt} (hbalances : st.changes ≠ some .balances)
    (hlog : st.changes ≠ some .auditLog) (key : BalanceKey) (d : Int) :
    Locked.Aloof engine balanceOf Audited (Owes key d) st where
  lasting := by
    intro env w h
    exact audited_lasting st env h
  autocommit := by
    intro env w h
    exact audited_congr (engine_balances hbalances env w _) (engine_auditLog hlog env w _)
      (audited_lasting st env h)
  get := by
    intro env w k
    have hsame := engine_balances hbalances env w (engine.lasting st env w)
    exact congrArg (fun t => KeyedTables.Table.get t k)
      (hsame.trans (engine_lasting_balances st env w))
  effect := by
    intro env seen w u h k
    have hamount : balanceAmount k (engine.effect st env seen u) = balanceAmount k u :=
      balanceAmount_congr (by rw [engine_balances hbalances])
    rw [hamount, ledger_congr (engine_auditLog hlog env seen u)]
    exact h k

/-- A balance that is moved from what was seen. -/
theorem Owes.moved {key key' : BalanceKey} {d : Int} {st : Stmt} {env : Env} {seen w u : World}
    (h : Owes key 0 w u) (hlog : st.changes ≠ some .auditLog)
    (hmoved : balanceAmount key' (engine.effect st env seen u) = balanceAmount key' u + d ∧
      0 ≤ balanceAmount key' u + d)
    (hothers : ∀ k, k ≠ key' →
      (engine.effect st env seen u).balances.get k = u.balances.get k) :
    Owes key' d w (engine.effect st env seen u) := by
  intro k
  obtain ⟨hgap, hpos⟩ := h k
  rw [ite_self] at hgap
  rw [ledger_congr (engine_auditLog hlog env seen u)]
  by_cases hk : k = key'
  · subst hk
    rw [if_pos rfl, hmoved.1]
    exact ⟨by omega, fun _ => hmoved.2⟩
  · rw [if_neg hk, balanceAmount_congr (hothers k hk)]
    exact ⟨by omega, hpos⟩

theorem Owes.updated {key : BalanceKey} {p : UpdateBalanceByIDParams} {env : Env}
    {seen w u : World} {b : BalanceRow}
    (hreply : engine.reply (.updateBalanceByID p) env seen = .ok b) (h : Owes key 0 w u)
    (hseen : ∀ k, LockKey.balance k ∈ engine.locks (.updateBalanceByID p) env seen →
      balanceOf k u = balanceOf k seen) :
    Owes b.key p.amount w (engine.effect (.updateBalanceByID p) env seen u) := by
  obtain ⟨hdone, hok⟩ := answered_eq_ok hreply
  have hfate : env.fate ≠ .refused := by
    rw [hdone]
    decide
  have hkey := reply_updateBalanceByID hreply
  cases hget : seen.balances.get p.key with
  | none =>
    rw [hget] at hok
    cases hok
  | some r =>
    rw [hget] at hok
    by_cases hpos : 0 ≤ r.amount + p.amount
    · have htarget : seen.balanceTarget p = some r := by
        rw [World.balanceTarget, hget, Option.filter_some, if_pos (by simpa using hpos)]
      have hlocked : LockKey.balance p.key ∈ engine.locks (.updateBalanceByID p) env seen := by
        rw [engine_locks, if_neg hfate]
        simp [World.locks, htarget]
      have hrow : u.balances.get p.key = some r := (hseen p.key hlocked).trans hget
      have hafter : ∀ k, (engine.effect (.updateBalanceByID p) env seen u).balances.get k =
          if p.key = k then (u.balances.get k).map (World.updatedBalance p)
          else u.balances.get k := by
        intro k
        rw [engine_balance, if_neg hfate, World.balanceAfter, htarget]
        simp
      rw [hkey]
      refine h.moved (fun h => by cases h) ⟨?_, ?_⟩ ?_
      · rw [balanceAmount, balanceAmount, hafter, if_pos rfl, hrow]
        rfl
      · rw [balanceAmount, hrow]
        exact hpos
      · intro k hk
        rw [hafter, if_neg fun heq => hk heq.symm]
    · simp only [hpos, if_false] at hok
      cases hok

theorem Owes.created {key : BalanceKey} {p : CreateBalanceParams} {env : Env}
    {seen w u : World} {b : BalanceRow}
    (hreply : engine.reply (.createBalance p) env seen = .ok b) (h : Owes key 0 w u)
    (hseen : ∀ k, LockKey.balance k ∈ engine.locks (.createBalance p) env seen →
      balanceOf k u = balanceOf k seen) :
    Owes b.key p.amount w (engine.effect (.createBalance p) env seen u) := by
  obtain ⟨hdone, hok⟩ := answered_eq_ok hreply
  have hfate : env.fate ≠ .refused := by
    rw [hdone]
    decide
  have hkey := reply_createBalance hreply
  by_cases hfit : seen.balanceFits p = true
  · obtain ⟨hnone, hpos⟩ : seen.balances.get p.key = none ∧ 0 ≤ p.amount := by
      simp only [World.balanceFits, Bool.and_eq_true, decide_eq_true_eq,
        Option.isNone_iff_eq_none] at hfit
      exact ⟨hfit.1.1.1.1, hfit.1.1.1.2⟩
    have hlocked : LockKey.balance p.key ∈ engine.locks (.createBalance p) env seen := by
      rw [engine_locks, if_neg hfate]
      simp [World.locks, hfit]
    have hrow : u.balances.get p.key = none := (hseen p.key hlocked).trans hnone
    have hafter : ∀ k, (engine.effect (.createBalance p) env seen u).balances.get k =
        if p.key = k then (u.balances.get k).orElse fun _ => some (World.newBalance p)
        else u.balances.get k := by
      intro k
      rw [engine_balance, if_neg hfate, World.balanceAfter]
      simp [hfit]
    rw [hkey]
    refine h.moved (fun h => by cases h) ⟨?_, ?_⟩ ?_
    · rw [balanceAmount, balanceAmount, hafter, if_pos rfl, hrow]
      exact (zero_add p.amount).symm
    · rw [balanceAmount, hrow]
      exact (zero_add p.amount).symm ▸ hpos
    · intro k hk
      rw [hafter, if_neg fun heq => hk heq.symm]
  · simp only [hfit] at hok
    cases hok

theorem Owes.logged {row : AuditRow} {env : Env} {seen w u : World}
    (hreply : engine.reply (.insertBalanceAuditLog row) env seen = .ok ())
    (h : Owes row.balance row.signedAmount w u) :
    Owes row.balance 0 w (engine.effect (.insertBalanceAuditLog row) env seen u) := by
  obtain ⟨hdone, -⟩ := answered_eq_ok hreply
  have hfate : env.fate ≠ .refused := by
    rw [hdone]
    decide
  have hlog : (engine.effect (.insertBalanceAuditLog row) env seen u).auditLog =
      u.auditLog ++ [row] := by
    rw [engine_effect, if_neg hfate]
    rfl
  intro k
  obtain ⟨hgap, hpos⟩ := h k
  have hchanges : (Stmt.insertBalanceAuditLog row).changes ≠ some .balances := (fun h => by cases h)
  have hamount : balanceAmount k (engine.effect (.insertBalanceAuditLog row) env seen u) =
      balanceAmount k u := balanceAmount_congr (by rw [engine_balances hchanges])
  have hledger : ledger k (engine.effect (.insertBalanceAuditLog row) env seen u) =
      ledger k u + if k = row.balance then row.signedAmount else 0 := by
    rw [ledger, ledger, hlog, List.filter_append, List.map_append, List.sum_append]
    by_cases hk : k = row.balance
    · simp [hk]
    · simp [hk, Ne.symm hk]
  rw [hledger, hamount, ite_self]
  refine ⟨?_, hpos⟩
  split at hgap
  · rename_i hk
    rw [if_pos hk]
    omega
  · rename_i hk
    rw [if_neg hk]
    omega

namespace Bookkeeping

variable {α β : Type} {l : BalanceCall} {v : View Stmt Env World LockKey}

/-- What every call may rely on, and that it keeps the books. -/
abbrev books : Protocol Stmt Reply Env World LockKey BalanceCall :=
  lockProtocol engine balanceOf LockKey.balance Audited

abbrev Ahead (key : BalanceKey) (d : Int) (v : View Stmt Env World LockKey) : Prop :=
  Through engine balanceOf LockKey.balance (Owes key d) v

/-- The open transaction has its books in order, or is going to be dropped. -/
def Settled : Except Err α → View Stmt Env World LockKey → Prop
  | .ok _, v => Ahead noBalance 0 v
  | .error _, _ => True

theorem settled_ret {a : α} (h : Ahead noBalance 0 v) :
    Meets (books.setting engine l) Settled (.ret a : Call α) v :=
  Meets.ret fun _ hrely => h.stable hrely.1 hrely.2

theorem settled_fail {e : Err} : Meets (books.setting engine l) Settled (.fail e : Call α) v :=
  Meets.fail fun _ _ => trivial

theorem settled_mapError {p : Call α} {f : Err → Err}
    (h : Meets (books.setting engine l) Settled p v) :
    Meets (books.setting engine l) Settled (p.mapError f) v := by
  refine Meets.mapError (h.mono ?_)
  intro x t ht
  cases x with
  | ok a => exact ht
  | error e => exact trivial

theorem settled_bind {p : Call α} {f : α → Call β}
    (hp : Meets (books.setting engine l) Settled p v)
    (hf : ∀ a t, Ahead noBalance 0 t → Meets (books.setting engine l) Settled (f a) t) :
    Meets (books.setting engine l) Settled (p.bind f) v := by
  refine Meets.bind (hp.mono ?_)
  intro x t ht
  cases x with
  | ok a => exact hf a t ht
  | error e => exact trivial

section

variable {Q : Except Err β → View Stmt Env World LockKey → Prop} {key : BalanceKey} {d : Int}

theorem timeNow_meets {f : Int → Call β} (hv : Ahead key d v)
    (h : ∀ now v', Ahead key d v' → Meets (books.setting engine l) Q (f now) v') :
    Meets (books.setting engine l) Q (timeNow.bind f) v := by
  have haloof : Locked.Aloof engine balanceOf Audited (Owes key d) .timeNow :=
    aloof_of_changes (by simp [Stmt.changes]) (by simp [Stmt.changes]) key d
  refine Locked.pool_meets hv haloof.autocommit haloof.get ?_
  intro env w v' hv'
  exact h _ v' hv'

theorem read_meets {st : Stmt} {f : Reply st → Call β} (hst : st.changes = none)
    (hv : Ahead key d v)
    (h : ∀ env seen v', Ahead key d v' →
      Meets (books.setting engine l) Q (f (engine.reply st env seen)) v') :
    Meets (books.setting engine l) Q ((ask .tx st).bind f) v := by
  have haloof : Locked.Aloof engine balanceOf Audited (Owes key d) st :=
    aloof_of_changes (by simp [hst]) (by simp [hst]) key d
  refine Locked.tx_meets balance_rows hv haloof.lasting ?_
  intro env seen v' hv'
  exact h env seen v' (hv' (Owes key d) fun w u _ hu => haloof.effect env seen w u hu)

/-- A balance is moved, and the transaction is ahead by as much, or it fails. -/
theorem update_meets {p : UpdateBalanceByIDParams}
    {f : Except Err BalanceRow → Call β} (hv : Ahead key 0 v)
    (hok : ∀ b v', Ahead b.key p.amount v' → Meets (books.setting engine l) Q (f (.ok b)) v')
    (herr : ∀ e v', Meets (books.setting engine l) Q (f (.error e)) v') :
    Meets (books.setting engine l) Q ((ask .tx (.updateBalanceByID p)).bind f) v := by
  refine Locked.tx_meets balance_rows hv (fun env w h => audited_lasting _ env h) ?_
  intro env seen v' hv'
  cases hreply : engine.reply (.updateBalanceByID p) env seen with
  | error e => exact herr e v'
  | ok b => exact hok b v' (hv' _ fun w u hseen hu => hu.updated hreply hseen)

theorem create_meets {p : CreateBalanceParams}
    {f : Except Err BalanceRow → Call β} (hv : Ahead key 0 v)
    (hok : ∀ b v', Ahead b.key p.amount v' → Meets (books.setting engine l) Q (f (.ok b)) v')
    (herr : ∀ e v', Meets (books.setting engine l) Q (f (.error e)) v') :
    Meets (books.setting engine l) Q ((ask .tx (.createBalance p)).bind f) v := by
  refine Locked.tx_meets balance_rows hv (fun env w h => audited_lasting _ env h) ?_
  intro env seen v' hv'
  cases hreply : engine.reply (.createBalance p) env seen with
  | error e => exact herr e v'
  | ok b => exact hok b v' (hv' _ fun w u hseen hu => hu.created hreply hseen)

end

/-- The audit row settles what its balance is ahead by. -/
theorem writeAuditLog_meets {key : BalanceKey} {op : BalanceOperation} {amount : Money}
    {comment : String} {m : MetaData} (hvalid : op.isValid = true)
    (hv : Ahead key (op.signed amount) v) :
    Meets (books.setting engine l) Settled (writeAuditLog .tx key op amount comment m) v := by
  refine timeNow_meets hv ?_
  intro now v₁ hv₁
  refine Locked.tx_meets balance_rows hv₁ (fun env w h => audited_lasting _ env h) ?_
  intro env seen v₂ hv₂
  cases hreply : engine.reply (.insertBalanceAuditLog
      ⟨now, key, comment, (auditMetaData m op amount).toJSONB⟩) env seen with
  | error e => exact settled_fail
  | ok u =>
    refine settled_ret ((hv₂ (Owes key 0) ?_).mono fun _ _ h => h.settled)
    intro w u' _ hu
    rw [← signedAmount_auditMetaData now key comment m hvalid amount] at hu
    exact Owes.logged hreply hu

/-- What is left of an update once the balance has moved. -/
theorem audited_meets {b : BalanceRow} {op : BalanceOperation} {amount : Money}
    {comment : String} {m : MetaData} {a : α} (hvalid : op.isValid = true)
    (hv : Ahead b.key (op.signed amount) v) :
    Meets (books.setting engine l) Settled
      (((writeAuditLog .tx b.key op amount comment m).mapError
        (Err.wrap "unable to write balance audit log")).bind fun _ => .ret a) v :=
  settled_bind (settled_mapError (writeAuditLog_meets hvalid hv)) fun _ _ ht => settled_ret ht

theorem updateBalance_meets (p : UpdateBalanceQuery) (hv : Ahead noBalance 0 v) :
    Meets (books.setting engine l) Settled (updateBalance .tx p) v := by
  refine Meets.ofExcept_bind (fun _ hp => ?_) fun _ _ _ _ => trivial
  have hvalid := UpdateBalanceQuery.operation_isValid hp
  refine read_meets rfl hv ?_
  intro env seen v₁ hv₁
  refine timeNow_meets hv₁ ?_
  intro now v₂ hv₂
  have hrest : ∀ changed v', (∀ b, changed = .ok b → Ahead b.key (p.operation.signed p.amount) v') →
      Meets (books.setting engine l) Settled
        ((succeed (wrapErr ("unable to " ++ p.operation.string ++ " balance") changed)).bind
          fun balance => ((writeAuditLog .tx balance.key p.operation p.amount p.comment
            p.metaData).mapError (Err.wrap "unable to write balance audit log")).bind
              fun _ => .ret (entryToBalance balance)) v' := by
    intro changed v' hchanged
    cases changed with
    | error e => exact settled_fail
    | ok b => exact audited_meets hvalid (hchanged b rfl)
  generalize engine.reply (.getBalanceByFilterWithLock p.filter) env seen = found
  cases found with
  | ok b =>
    refine update_meets hv₂ ?_ ?_
    · intro b' v' hb'
      exact hrest (.ok b') v' fun _ heq => by cases heq; exact hb'
    · intro e v'
      exact hrest (.error e) v' fun _ heq => by cases heq
  | error e =>
    by_cases hmissing : e.is .noRows = true
    · simp only [upsertBalance, hmissing, if_true]
      refine create_meets hv₂ ?_ ?_
      · intro b' v' hb'
        exact hrest (.ok b') v' fun _ heq => by cases heq; exact hb'
      · intro e' v'
        exact hrest (.error e') v' fun _ heq => by cases heq
    · simp only [upsertBalance, hmissing]
      refine update_meets hv₂ ?_ ?_
      · intro b' v' hb'
        exact hrest (.ok b') v' fun _ heq => by cases heq; exact hb'
      · intro e' v'
        exact hrest (.error e') v' fun _ heq => by cases heq

theorem changeBalanceByID_meets (id : BalanceKey) (p : UpdateBalanceByIDQuery)
    (hv : Ahead noBalance 0 v) :
    Meets (books.setting engine l) Settled (changeBalanceByID .tx id p) v := by
  refine Meets.ofExcept_bind (fun _ hp => ?_) fun _ _ _ _ => trivial
  have hvalid := UpdateBalanceByIDQuery.operation_isValid hp
  refine read_meets rfl hv ?_
  intro env seen v₁ hv₁
  refine Meets.ofExcept_bind (fun b _ => ?_) fun _ _ _ _ => trivial
  split
  · refine timeNow_meets hv₁ ?_
    intro now v₂ hv₂
    refine update_meets hv₂ ?_ ?_
    · intro b' v' hb'
      exact audited_meets hvalid hb'
    · intro e v'
      exact settled_fail
  · exact settled_ret hv₁

theorem onTheBooks_meets {p : Call α} (hp : OnTheBooks p) (hv : Ahead noBalance 0 v) :
    Meets (books.setting engine l) Settled p v := by
  induction hp generalizing v with
  | other hp =>
    refine (Locked.aloof_meets balance_rows (hp.mono ?_) hv).mono ?_
    · rintro c ⟨q, st, rfl, hbalances, hlog⟩
      exact ⟨q, st, rfl, aloof_of_changes hbalances hlog noBalance 0⟩
    · intro x t ht
      cases x with
      | ok a => exact ht
      | error e => exact trivial
  | update p => exact updateBalance_meets p hv
  | bind _ _ ihp ihf => exact settled_bind (ihp hv) fun a t ht => ihf a ht
  | mapError f _ ih => exact settled_mapError (ih hv)

theorem runTx_meets {body : Call α}
    (hbody : ∀ v', Ahead noBalance 0 v' → Meets (books.setting engine l) Settled body v') :
    Meets (books.setting engine l) (fun _ _ => True) (runTx body) v := by
  refine Locked.runTransaction_meets ?_ fun w u (h : Owes noBalance 0 w u) hw => h.audited hw
  intro v' hv'
  refine (hbody v' (hv'.mono ?_)).mono ?_
  · rintro w u rfl
    exact .refl _ _
  · intro x t ht
    cases x with
    | ok a => exact ht
    | error e => exact trivial

/-- A balance created at nothing has nothing to account for. -/
theorem audited_createBalance {p : CreateBalanceParams} (hp : p.amount = 0) (env : Env)
    {w : World} (h : Audited w) : Audited (engine.autocommit (.createBalance p) env w) := by
  have hlasting := audited_lasting (.createBalance p) env h
  have hlog : (engine.autocommit (.createBalance p) env w).auditLog = w.auditLog :=
    (engine_auditLog (by simp [Stmt.changes]) env w _).trans (engine_lasting_auditLog _ env w)
  intro k
  obtain ⟨hpos, heq⟩ := h k
  have hsame : balanceAmount k (engine.autocommit (.createBalance p) env w) =
      balanceAmount k w := by
    have hrow := engine_balance (.createBalance p) env w (engine.lasting (.createBalance p) env w) k
    rw [engine_lasting_balances] at hrow
    rw [balanceAmount, Engine.autocommit, hrow, World.balanceAfter]
    split_ifs with hrefused hcreated
    · rfl
    · cases hget : w.balances.get k with
      | some r =>
        rw [balanceAmount, hget]
        rfl
      | none =>
        rw [balanceAmount, hget]
        exact hp
    · rfl
  rw [hsame, ledger_congr hlog]
  exact ⟨hpos, heq⟩

theorem ensureBalance_meets (entityType : EntityType) (entityID : Int) (currency : CryptoCurrency)
    (isTest : Bool) :
    Meets (books.setting engine l) (fun _ _ => True)
      (ensureBalance entityType entityID currency isTest) v := by
  have hread : ∀ st : Stmt, st.changes = none → ∀ env w, Audited w →
      Audited (engine.autocommit st env w) := by
    intro st hst env w h
    rw [autocommit_of_read hst]
    exact h
  refine Locked.pool_keeps (hread _ rfl) ?_
  intro env w v₁
  split
  · exact Meets.ret fun _ _ => trivial
  · split
    · refine Locked.pool_keeps (hread .timeNow rfl) ?_
      intro env' w' v₂
      refine Locked.pool_keeps (fun env w h => audited_createBalance rfl env h) ?_
      intro env'' w'' v₃
      exact Meets.ofExcept_bind (fun _ _ => Meets.ret fun _ _ => trivial) fun _ _ _ _ => trivial
    · exact Meets.fail fun _ _ => trivial

theorem program_meets (w : World) :
    Meets (books.setting engine l) (fun _ _ => True) l.program ⟨w, .idle⟩ := by
  have hdiscard : ∀ {α : Type} {p : Call α} {v : View Stmt Env World LockKey},
      Meets (books.setting engine l) (fun _ _ => True) p v →
      Meets (books.setting engine l) (fun _ _ => True) (discard p) v := by
    intro α p v h
    refine Meets.seq (J := fun _ => True) (h.mono fun _ _ _ => trivial) ?_ fun _ _ _ => trivial
    intro a t _
    exact Meets.ret fun _ _ => trivial
  cases hl : l with
  | inTransaction p =>
    exact runTx_meets fun v' hv' => onTheBooks_meets p.onTheBooks hv'
  | updateBalanceByID id p =>
    refine hdiscard (Meets.ofExcept_bind (fun _ _ => ?_) fun _ _ _ _ => trivial)
    exact runTx_meets fun v' hv' => changeBalanceByID_meets id p hv'
  | ensureBalance entityType entityID currency isTest =>
    exact hdiscard (ensureBalance_meets entityType entityID currency isTest)
  | updateBalancesForWithdrawal p =>
    rw [BalanceCall.program, CryptoLink.updateBalancesForWithdrawal]
    split
    · exact Meets.ret fun _ _ => trivial
    · rename_i system merchant _
      refine Meets.ofExcept_bind (fun delta _ => ?_) fun _ _ _ _ => trivial
      refine runTx_meets fun v' hv' => ?_
      refine settled_bind (settled_mapError (changeBalanceByID_meets merchant.id _ hv')) ?_
      intro _ t ht
      refine settled_bind (settled_mapError (changeBalanceByID_meets system.id _ ht)) ?_
      intro _ t' ht'
      exact settled_ret ht'

end Bookkeeping

/-- In every interleaving of the calls that move balances, whatever fails and
whoever crashes: a balance is never negative, and it is what its audit log adds
up to. -/
theorem balances_match_audit_log (w : World) (hw : Audited w)
    (es : List (Event Env Move BalanceCall)) :
    ∀ row ∈ (balanceSystem.run ⟨w, []⟩ es).world.balances.rows,
      0 ≤ row.amount ∧ row.amount = ledger row.key (balanceSystem.run ⟨w, []⟩ es).world := by
  have hkept : Locked.Kept balanceSystem balanceOf LockKey.balance Audited
      (balanceSystem.run ⟨w, []⟩ es) := by
    refine Locked.kept_run balance_rows ?_ ?_ (Locked.kept_of_no_threads hw) es
    · intro l w'
      exact Bookkeeping.program_meets w'
    · intro m w'
      refine ⟨audited_congr (m.apply_balances w') (m.apply_auditLog w'), fun k => ?_⟩
      exact congrArg (fun t => KeyedTables.Table.get t k) (m.apply_balances w')
  intro row hrow
  have haudited := hkept.holds row.key
  rw [balanceAmount, KeyedTables.Table.get_of_mem hrow] at haudited
  exact haudited

open Sample

namespace Sample

/-- The merchant earns 100 and the fee of 30 is taken off again. -/
def earned : UpdateBalanceQuery where
  entityID := 7
  entityType := .merchant
  operation := .increment
  currency := ether
  amount := Money.crypto "ETH" 100 18
  comment := "earned"
  metaData := []
  isTest := false

def charged : UpdateBalanceByIDQuery where
  operation := .decrement
  amount := Money.crypto "ETH" 30 18
  comment := "charged"
  metaData := []

def merchantBalance : BalanceKey := ⟨.merchant, 7, "ETH", "1", "ETH"⟩

def earnings : List (Event Env Move BalanceCall) :=
  .start (.inTransaction ⟨discard (updateBalance .tx earned),
      .bind (.update earned) fun _ => .other trivial⟩) :: List.replicate 20 (.exec 0 {}) ++
    .start (.updateBalanceByID merchantBalance charged) :: List.replicate 20 (.exec 1 {})

end Sample

theorem audited_noMoney : Audited noMoney := by
  intro key
  exact ⟨le_rfl, rfl⟩

theorem balances_match_audit_log_sample :
    (balanceSystem.run ⟨noMoney, []⟩ earnings).world.balances.rows.map
        (fun row => (row.key, row.amount)) = [(merchantBalance, 70)] ∧
    ∀ row ∈ (balanceSystem.run ⟨noMoney, []⟩ earnings).world.balances.rows,
      0 ≤ row.amount ∧ row.amount = ledger row.key
        (balanceSystem.run ⟨noMoney, []⟩ earnings).world :=
  ⟨by decide +kernel, balances_match_audit_log noMoney audited_noMoney earnings⟩

end CryptoLink
