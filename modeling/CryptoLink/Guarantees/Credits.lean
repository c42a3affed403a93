import CryptoLink.Footprints
import CryptoLink.Guarantees.Finality
import CryptoLink.Repository.Replies
import Mathlib

/-!
# How a credit is made

The audit row of a merchant's gain and the update that completes the row share
one database transaction. No other call of the payment flow credits a merchant
on behalf of a transaction.
-/

namespace CryptoLink

open ReadCommitted StatementPrograms System

/-- The audit row of a merchant balance incremented on behalf of `id`. -/
def creditOf (id : Int) (r : AuditRow) : Bool :=
  r.balance.entityType = .merchant &&
    (r.metadata.getD []).find Transaction.metaTransactionID = some (toString id) &&
    (r.metadata.getD []).find "operation" = some "increment"

def credits (id : Int) (w : World) : ℕ := w.auditLog.countP (creditOf id)

def isCredit (id : Int) : Stmt → Bool
  | .insertBalanceAuditLog row => creditOf id row
  | _ => false

theorem not_creditOf_of_entityType {id : Int} {r : AuditRow}
    (h : r.balance.entityType ≠ .merchant) : creditOf id r = false := by
  simp [creditOf, h]

theorem find_of_ledgerMetaData {tx : Transaction} {m : MetaData}
    (h : Service.LedgerMetaData tx m) :
    m.find Transaction.metaTransactionID = some (toString tx.id) := by
  have hledger : (Service.ledgerMetaData tx).find Transaction.metaTransactionID =
      some (toString tx.id) := rfl
  rcases h with rfl | rfl
  · exact hledger
  · unfold Service.recipientMetaData
    split
    · exact hledger
    · rw [MetaData.find_set_of_ne (by decide), hledger]

/-- Who a credit of the confirmation is for is written in its metadata. -/
theorem id_of_creditOf {id now : Int} {key : BalanceKey} {comment : String} {m : MetaData}
    {op : BalanceOperation} {amount : Money} {tx : Transaction}
    (hm : Service.LedgerMetaData tx m)
    (h : creditOf id ⟨now, key, comment, (auditMetaData m op amount).toJSONB⟩ = true) :
    tx.id = id := by
  simp only [creditOf, Bool.and_eq_true, decide_eq_true_eq] at h
  have hfind := h.1.2
  rw [auditMetaData_find (by decide) (by decide) (by decide), find_of_ledgerMetaData hm,
    Option.some.injEq] at hfind
  exact Int.repr_injective hfind

abbrev TxLog := Log Stmt Env World

abbrev TxEntry := Entry Stmt Env World

def creditsIn (id : Int) (log : TxLog) : ℕ := log.countP fun e => isCredit id e.stmt

theorem isCredit_eq_false {id : Int} {st : Stmt} (h : st.changes ≠ some .auditLog) :
    isCredit id st = false := by
  cases st <;> simp_all [isCredit, Stmt.changes]

theorem credits_effect_le (id : Int) (st : Stmt) (env : Env) (seen w : World) :
    credits id (engine.effect st env seen w) ≤
      credits id w + if isCredit id st then 1 else 0 := by
  rw [engine_effect]
  split
  · omega
  · by_cases hs : st.changes = some .auditLog
    · cases st <;> simp only [Stmt.changes, Option.some.injEq, reduceCtorEq] at hs
      case insertBalanceAuditLog row =>
        by_cases hrow : creditOf id row = true <;>
          simp [credits, World.effect, isCredit, List.countP_append, hrow]
    · simp [credits, World.effect_auditLog hs]

theorem credits_replay_le (id : Int) (log : TxLog) (w : World) :
    credits id (engine.replay log w) ≤ credits id w + creditsIn id log := by
  induction log generalizing w with
  | nil => simp [creditsIn]
  | cons e log ih =>
    have hfirst := credits_effect_le id e.stmt e.env e.seen w
    have hrest := ih (engine.effect e.stmt e.env e.seen w)
    have hcount : creditsIn id (e :: log) =
        creditsIn id log + if isCredit id e.stmt then 1 else 0 := by
      simp [creditsIn, List.countP_cons]
    have hreplay : engine.replay (e :: log) w =
        engine.replay log (engine.effect e.stmt e.env e.seen w) := rfl
    rw [hreplay, hcount]
    omega

theorem credits_lasting (id : Int) (st : Stmt) (env : Env) (w : World) :
    credits id (engine.lasting st env w) = credits id w := by
  rw [engine_lasting]
  split
  · rfl
  · simp [credits, lasting_auditLog]

theorem credits_autocommit {id : Int} {st : Stmt} (h : isCredit id st = false) (env : Env)
    (w : World) : credits id (engine.autocommit st env w) ≤ credits id w := by
  have heffect := credits_effect_le id st env w (engine.lasting st env w)
  rw [credits_lasting] at heffect
  simpa [h, Engine.autocommit] using heffect

/-- The statement of an open transaction that locked the row `id`. -/
def reaches (id : Int) (e : TxEntry) : Prop :=
  LockKey.transaction id ∈ engine.locks e.stmt e.env e.seen

def completes (id : Int) (e : TxEntry) : Prop :=
  reaches id e ∧ ∃ p, e.stmt = .updateTransaction p ∧ p.status = .completed

/-- The log completes the row and does nothing else to it. -/
def Completes (id : Int) (log : TxLog) : Prop :=
  (∃ e ∈ log, completes id e) ∧ ∀ e ∈ log, reaches id e → completes id e

def Present (id : Int) (w : World) : Prop := (transactionRow id w).isSome

def Completed : Option TransactionRow → Prop
  | none => False
  | some r => r.status = .completed

theorem present_effect {id : Int} {w : World} (h : Present id w) (st : Stmt) (env : Env)
    (seen : World) : Present id (engine.effect st env seen w) := by
  rw [engine_effect]
  split
  · exact h
  · simp only [Present, transactionRow] at h ⊢
    rcases World.transaction_effect_cases st env seen w id with hsame | ⟨p, -, -, -, hnew⟩ |
      ⟨p, -, -, -, hnew⟩ | ⟨p, -, -, -, -, hnew⟩
    · rwa [hsame]
    · rw [hnew]; simpa using h
    · rw [hnew]; simpa using h
    · rw [hnew]; rfl

theorem present_lasting {id : Int} {w : World} (h : Present id w) (st : Stmt) (env : Env) :
    Present id (engine.lasting st env w) := by
  rw [engine_lasting]
  split
  · exact h
  · simpa [Present, transactionRow, lasting_transactions] using h

theorem present_autocommit {id : Int} {w : World} (h : Present id w) (st : Stmt) (env : Env) :
    Present id (engine.autocommit st env w) :=
  present_effect (present_lasting h st env) st env w

theorem present_replay {id : Int} {log : TxLog} {w : World} (h : Present id w) :
    Present id (engine.replay log w) := by
  induction log generalizing w with
  | nil => exact h
  | cons e log ih => exact ih (present_effect h e.stmt e.env e.seen)

/-- An entry that completes a row that is there leaves it completed. -/
theorem completed_effect {id : Int} {e : TxEntry} {w : World} (hw : Present id w)
    (he : completes id e) :
      Completed (transactionRow id (engine.effect e.stmt e.env e.seen w)) := by
  obtain ⟨hlock, p, hp, hstatus⟩ := he
  simp only [reaches, engine_locks] at hlock
  rw [engine_effect]
  split
  · rename_i hf
    simp [hf] at hlock
  · rename_i hf
    simp only [hf, if_false, hp, World.locks] at hlock ⊢
    split at hlock
    · rename_i htarget
      obtain rfl : id = p.id := by simpa using hlock
      obtain ⟨r, hr⟩ := Option.isSome_iff_exists.mp hw
      have hget : w.transactions.get p.id = some r := hr
      rcases ht : e.seen.updateTarget p with - | t
      · simp [ht] at htarget
      · simp only [World.effect, ht, transactionRow]
        rw [KeyedTables.Table.get_modify_self, hget]
        exact hstatus
    · simp at hlock

/-- Replaying a completing log over a row that is there completes it. -/
theorem completed_replay {id : Int} {log : TxLog} {w : World} (hw : Present id w)
    (hlog : ∀ e ∈ log, reaches id e → completes id e)
    (h : (∃ e ∈ log, completes id e) ∨ Completed (transactionRow id w)) :
    Completed (transactionRow id (engine.replay log w)) := by
  induction log generalizing w with
  | nil =>
    rcases h with ⟨e, hmem, -⟩ | h
    · cases hmem
    · exact h
  | cons e log ih =>
    refine ih (present_effect hw e.stmt e.env e.seen)
      (fun e' he' => hlog e' (List.mem_cons_of_mem _ he')) ?_
    by_cases hreach : reaches id e
    · exact .inr (completed_effect hw (hlog e List.mem_cons_self hreach))
    · have hsame := (transaction_framed id).effect e.stmt e.env e.seen w hreach
      rcases h with ⟨e', hmem, hcompletes⟩ | hcompleted
      · rcases List.mem_cons.mp hmem with rfl | hrest
        · exact absurd hcompletes.1 hreach
        · exact .inl ⟨e', hrest, hcompletes⟩
      · refine .inr ?_
        rw [show transactionRow id (engine.effect e.stmt e.env e.seen w) = transactionRow id w
          from hsame]
        exact hcompleted

abbrev Snapshot := View Stmt Env World LockKey

/-- No credit so far, or one in a transaction that completes the row. -/
def Sound (id : Int) (v : Snapshot) : Prop :=
  ∀ log, v.session.txn = some log → creditsIn id log = 0 ∨
    creditsIn id log = 1 ∧ Completes id log ∧ Present id v.world

theorem Sound.stable {id : Int} {v v' : Snapshot} (h : Sound id v)
    (hsession : v'.session = v.session) (hpresent : Present id v.world → Present id v'.world) :
    Sound id v' := by
  intro log hlog
  rw [hsession] at hlog
  rcases h log hlog with h | ⟨h, hcompletes, hrow⟩
  · exact .inl h
  · exact .inr ⟨h, hcompletes, hpresent hrow⟩

/-- Nothing is assumed of the others but that rows are never deleted. -/
def exactlyOnce (id : Int) : Protocol Stmt Reply Env World LockKey Operation where
  rely _ v v' := v'.session = v.session ∧ (Present id v.world → Present id v'.world)
  admits _ _ _ _ := True
  guar _ c v _ v' := Sound id v' ∧
    ∀ st, c.autocommits v.session = some st → isCredit id st = false
  rely_refl _ _ := ⟨rfl, fun h => h⟩
  rely_trans h h' := ⟨h'.1.trans h.1, h'.2 ∘ h.2⟩

def Uncredited (id : Int) (v : Snapshot) : Prop :=
  ∀ log, v.session.txn = some log → creditsIn id log = 0

theorem sound_of_log {id : Int} {log : TxLog} (h : creditsIn id log = 0) (w : World)
    (kept : List LockKey) : Sound id ⟨w, ⟨some log, kept⟩⟩ := by
  rintro log' ⟨⟩
  exact .inl h

theorem Uncredited.sound {id : Int} {v : Snapshot} (h : Uncredited id v) : Sound id v :=
  fun log hlog => .inl (h log hlog)

/-- An open transaction with at most `n` credits, which completes the row if
`c` says so. -/
structure Carries (id : Int) (n : ℕ) (c : Prop) (v : Snapshot) : Prop where
  few : ∃ log, v.session.txn = some log ∧ creditsIn id log ≤ n ∧ (c → Completes id log)
  present : c → Present id v.world

namespace Carries

variable {id : Int} {n : ℕ} {c : Prop} {v : Snapshot} {l : Operation}

theorem sound (h : Carries id n c v) (hn : n = 0 ∨ n ≤ 1 ∧ c) : Sound id v := by
  obtain ⟨log', hlog', hcount, hcompletes⟩ := h.few
  intro log hlog
  obtain rfl : log' = log := by simpa [hlog'] using hlog
  by_cases h0 : creditsIn id log' = 0
  · exact .inl h0
  · rcases hn with hn | ⟨hn, hc⟩
    · omega
    · exact .inr ⟨by omega, hcompletes hc, h.present hc⟩

theorem mono {m : ℕ} (h : Carries id n c v) (hm : n ≤ m) : Carries id m c v := by
  obtain ⟨log, hlog, hcount, hcompletes⟩ := h.few
  exact ⟨⟨log, hlog, hcount.trans hm, hcompletes⟩, h.present⟩

theorem stable {v' : Snapshot} (h : Carries id n c v) (hsession : v'.session = v.session)
    (hpresent : Present id v.world → Present id v'.world) : Carries id n c v' := by
  obtain ⟨log, hlog, hcount, hcompletes⟩ := h.few
  exact ⟨⟨log, by rw [hsession, hlog], hcount, hcompletes⟩, fun hc => hpresent (h.present hc)⟩

/-- A statement of the open transaction that is not about transaction rows. -/
theorem append {st : Stmt} {w : World} {log : TxLog} {k : ℕ} (env : Env)
    (h : Carries id n c v) (hrely : (exactlyOnce id).rely l v ⟨w, v.session⟩)
    (hlog : v.session.txn = some log) (hst : st.changes ≠ some .transactions)
    (hk : isCredit id st = true → k = 1) :
    Carries id (n + k) c ⟨engine.lasting st env w,
      some (log ++ [⟨st, env, engine.replay log w⟩]), v.session.kept⟩ := by
  obtain ⟨log', hlog', hcount, hcompletes⟩ := h.few
  obtain rfl : log' = log := by simpa [hlog'] using hlog
  refine ⟨⟨_, rfl, ?_, fun hc => ?_⟩, fun hc => ?_⟩
  · have hlast : creditsIn id [(⟨st, env, engine.replay log' w⟩ : TxEntry)] ≤ k := by
      by_cases hcredit : isCredit id st = true
      · simp [creditsIn, hcredit, hk hcredit]
      · simp [creditsIn, hcredit]
    have hsum : creditsIn id (log' ++ [⟨st, env, engine.replay log' w⟩]) =
        creditsIn id log' + creditsIn id [⟨st, env, engine.replay log' w⟩] := by
      simp [creditsIn, List.countP_append]
    omega
  · obtain ⟨⟨e, hmem, he⟩, hall⟩ := hcompletes hc
    refine ⟨⟨e, List.mem_append_left _ hmem, he⟩, fun e' hmem' hreach => ?_⟩
    rcases List.mem_append.mp hmem' with hold | hnew
    · exact hall e' hold hreach
    · obtain rfl := List.mem_singleton.mp hnew
      exact absurd (changes_of_transaction_lock hreach) hst
  · exact present_lasting (hrely.2 (h.present hc)) st env

end Carries

section Calls

variable {id : Int} {l : Operation} {s : Service} {n k : ℕ} {c : Prop} {v : Snapshot}

/-- Whatever a call does without crediting `id` keeps the log uncredited. -/
theorem uncredited_perform {c : Cmd Stmt} {v : Snapshot} (env : Env)
    (hc : ∀ q st, c = .stmt q st → isCredit id st = false) (hv : Uncredited id v) :
    Uncredited id (engine.perform c env v).2 := by
  intro log hlog
  rcases engine.perform_cases c env v with ⟨st, -, heq⟩ | ⟨old, -, -, heq⟩ |
    ⟨st, old, rfl, hold, heq⟩ | ⟨-, hsame | hnone | hempty⟩
  · rw [heq] at hlog
    exact hv log hlog
  · rw [heq] at hlog
    cases hlog
  · rw [heq] at hlog
    cases hlog
    have hfalse := hc .tx st rfl
    simp [creditsIn, List.countP_append, hfalse]
    simpa [creditsIn] using hv old hold
  · rw [hsame] at hlog
    exact hv log hlog
  · rw [hnone] at hlog
    cases hlog
  · rw [hempty] at hlog
    cases hlog
    rfl

theorem not_credit_of_autocommits {c : Cmd Stmt} {x : Session Stmt Env World LockKey}
    (hc : ∀ q st, c = .stmt q st → isCredit id st = false) {st : Stmt}
    (h : c.autocommits x = some st) : isCredit id st = false := by
  obtain ⟨txn, kept⟩ := x
  cases c with
  | stmt q st' =>
    cases q with
    | pool => cases h; exact hc .pool _ rfl
    | tx =>
      cases txn with
      | none => cases h; exact hc .tx _ rfl
      | some log => cases h
  | _ => cases h

/-- The statements that are no credit of `id`. -/
def noCredit (id : Int) (_ : Conn) (st : Stmt) : Prop := isCredit id st = false

/-- A call that never credits `id` meets the protocol. -/
theorem meets_of_noCredit {α : Type} {p : Call α} {v : Snapshot}
    (hp : OnlyWrites (noCredit id) p) (hv : Uncredited id v) :
    Meets ((exactlyOnce id).setting engine l) (fun _ => Uncredited id) p v := by
  refine Meets.of_issues (J := Uncredited id) ?_ ?_ hp hv
  · intro u u' hrely hu log hlog
    rw [hrely.1] at hlog
    exact hu log hlog
  · rintro c u r t hc hu ⟨env, -, hdo⟩
    have hcredit : ∀ q st, c = .stmt q st → isCredit id st = false := by
      intro q st he
      by_cases hchanges : st.changes = none
      · exact isCredit_eq_false (by simp [hchanges])
      · exact hc q st he hchanges
    have hstep := uncredited_perform env hcredit hu
    rw [hdo] at hstep
    exact ⟨⟨hstep.sound, fun st => not_credit_of_autocommits hcredit⟩, hstep⟩

theorem sound_ret {α : Type} {a : α} (h : Sound id v) :
    Meets ((exactlyOnce id).setting engine l) (fun _ => Sound id) (.ret a : Call α) v :=
  Meets.ret fun _ hrely => h.stable hrely.1 hrely.2

theorem sound_fail {α : Type} {e : Err} (h : Sound id v) :
    Meets ((exactlyOnce id).setting engine l) (fun _ => Sound id) (.fail e : Call α) v :=
  Meets.fail fun _ hrely => h.stable hrely.1 hrely.2

section Ledger

variable {α : Type} {Q : Except Err α → Snapshot → Prop}

theorem credit_meets {st : Stmt} {f : Reply st → Call α} (hv : Carries id n c v)
    (hst : st.changes ≠ some .transactions) (hk : isCredit id st = true → k = 1)
    (hn : n + k = 0 ∨ n + k ≤ 1 ∧ c)
    (h : ∀ env w v', Carries id (n + k) c v' →
      Meets ((exactlyOnce id).setting engine l) Q (f (engine.reply st env w)) v') :
    Meets ((exactlyOnce id).setting engine l) Q ((ask .tx st).bind f) v := by
  obtain ⟨log, hlog, -, -⟩ := hv.few
  refine Protocol.tx_bind hlog (fun v' hrely => hrely.1) fun w env hrely _ => ?_
  have hstep := hv.append env hrely hlog hst hk
  refine ⟨⟨hstep.sound hn, fun st' hauto => ?_⟩, h env _ _ hstep⟩
  rw [Cmd.autocommits_of_open hlog] at hauto
  cases hauto

theorem tx_meets {st : Stmt} {f : Reply st → Call α} (hv : Carries id n c v)
    (hn : n = 0 ∨ n ≤ 1 ∧ c) (hst : st.changes ≠ some .transactions)
    (hc : isCredit id st = false)
    (h : ∀ env w v', Carries id n c v' →
      Meets ((exactlyOnce id).setting engine l) Q (f (engine.reply st env w)) v') :
    Meets ((exactlyOnce id).setting engine l) Q ((ask .tx st).bind f) v :=
  credit_meets (k := 0) hv hst (by simp [hc]) hn h

theorem timeNow_meets {f : Int → Call α} (hv : Carries id n c v) (hn : n = 0 ∨ n ≤ 1 ∧ c)
    (h : ∀ now v', Carries id n c v' →
      Meets ((exactlyOnce id).setting engine l) Q (f now) v') :
    Meets ((exactlyOnce id).setting engine l) Q (timeNow.bind f) v := by
  refine Protocol.pool_bind (fun v' hrely => hrely.1) fun w env hrely _ => ?_
  have hsame : engine.autocommit .timeNow env w = w := by
    simp [Engine.autocommit, engine_effect, engine_lasting, World.effect, World.lasting]
  have hstep := hv.stable hrely.1 hrely.2
  rw [hsame]
  refine ⟨⟨hstep.sound hn, fun st' hauto => ?_⟩, h _ _ hstep⟩
  cases hauto
  rfl

/-- The balance an update ends up with is one of the entity it was asked for,
or the one that was never read. -/
theorem upsertBalance_meets {p : UpdateBalanceQuery} {now : Int} {found : Except Err BalanceRow}
    {f : Except Err BalanceRow → Call α} (hv : Carries id n c v) (hn : n = 0 ∨ n ≤ 1 ∧ c)
    (hfound : ∀ b, found = .ok b → b.key.entityType = p.entityType)
    (h : ∀ changed v', Carries id n c v' →
      (∀ b, changed = .ok b → b.key.entityType = p.entityType ∨ b.key.entityType = .unset) →
      Meets ((exactlyOnce id).setting engine l) Q (f changed) v') :
    Meets ((exactlyOnce id).setting engine l) Q ((upsertBalance .tx p now found).bind f) v := by
  cases found with
  | ok b =>
    refine tx_meets hv hn (fun h => by cases h) rfl fun env w v' hv' => ?_
    refine h _ v' hv' fun b' hb' => .inl ?_
    rw [reply_updateBalanceByID hb']
    exact hfound b rfl
  | error e =>
    simp only [upsertBalance]
    split
    · refine tx_meets hv hn (fun h => by cases h) rfl fun env w v' hv' => ?_
      refine h _ v' hv' fun b' hb' => .inl ?_
      rw [reply_createBalance hb']
      rfl
    · refine tx_meets hv hn (fun h => by cases h) rfl fun env w v' hv' => ?_
      refine h _ v' hv' fun b' hb' => .inr ?_
      rw [reply_updateBalanceByID hb']
      rfl

theorem updateBalance_meets {p : UpdateBalanceQuery} (hv : Carries id n c v)
    (hn : n + k = 0 ∨ n + k ≤ 1 ∧ c)
    (hk : ∀ now key, key.entityType = p.entityType ∨ key.entityType = .unset →
      creditOf id ⟨now, key, p.comment,
        (auditMetaData p.metaData p.operation p.amount).toJSONB⟩ = true → k = 1) :
    Meets ((exactlyOnce id).setting engine l) (fun _ => Carries id (n + k) c)
      (updateBalance .tx p) v := by
  have hle : n ≤ n + k := Nat.le_add_right n k
  have hn₀ : n = 0 ∨ n ≤ 1 ∧ c := by
    rcases hn with hn | ⟨hn, hc⟩
    · exact .inl (by omega)
    · exact .inr ⟨by omega, hc⟩
  have done : ∀ {u : Snapshot}, Carries id (n + k) c u → ∀ u', (exactlyOnce id).rely l u u' →
      Carries id (n + k) c u' := fun hu u' hrely => hu.stable hrely.1 hrely.2
  refine Meets.ofExcept_bind (fun _ _ => ?_) fun _ _ => done (hv.mono hle)
  refine tx_meets hv hn₀ (fun h => by cases h) rfl fun env w v₁ hv₁ => ?_
  refine timeNow_meets hv₁ hn₀ fun now v₂ hv₂ => ?_
  refine upsertBalance_meets hv₂ hn₀ (fun b hb => reply_getBalanceByFilterWithLock hb)
    fun changed v₃ hv₃ hkey => ?_
  refine Meets.ofExcept_bind (fun balance hbalance => ?_) fun _ _ => done (hv₃.mono hle)
  have hok : changed = .ok balance := by
    cases changed with
    | error e => cases hbalance
    | ok b => cases hbalance; rfl
  refine Meets.bind (Meets.mapError ?_)
  refine timeNow_meets hv₃ hn₀ fun at' v₄ hv₄ => ?_
  refine credit_meets hv₄ (fun h => by cases h) (hk at' balance.key (hkey balance hok)) hn fun env'
    w' v₅ hv₅ => ?_
  generalize engine.reply _ env' w' = r
  cases r with
  | error e => exact Meets.fail (done hv₅)
  | ok u => exact Meets.ret fun v₆ h₆ => Meets.ret (done (done hv₅ v₆ h₆))

theorem incrementRecipientBalance_meets {tx : Transaction} {m : Money} {comment : String}
    (hv : Carries id n c v) (hn : n = 0 ∨ n ≤ 1 ∧ c) :
    Meets ((exactlyOnce id).setting engine l) (fun _ => Carries id n c)
      (Service.incrementRecipientBalance .tx tx m comment) v := by
  unfold Service.incrementRecipientBalance
  split
  · exact Meets.ret fun v' hrely => hv.stable hrely.1 hrely.2
  · refine Meets.seq (Meets.mapError ?_)
      (fun _ t ht => Meets.ret fun t' hrely => ht.stable hrely.1 hrely.2)
      fun _ _ ht => ht
    refine (updateBalance_meets (k := 0) hv hn fun now key hkey hcredit => ?_).mono fun x t ht => ?_
    · rw [not_creditOf_of_entityType] at hcredit
      · cases hcredit
      · rcases hkey with hkey | hkey <;> simp [hkey]
    · cases x <;> exact ht

/-- The one place where the merchant gains: by a transaction that completes the
row, and only once. -/
theorem updateMerchantBalance_meets {tx : Transaction} {m : Money} {comment : String}
    {metaData : MetaData} (hv : Carries id 0 c v) (hm : Service.LedgerMetaData tx metaData)
    (hc : tx.id = id → c) :
    Meets ((exactlyOnce id).setting engine l) (fun _ => Sound id)
      (Service.updateMerchantBalance .tx tx m comment metaData) v := by
  refine Meets.seq (Meets.mapError ?_) (fun _ t ht => sound_ret ht) fun _ _ ht => ht
  by_cases hid : tx.id = id
  · have hn : 0 + 1 = 0 ∨ 0 + 1 ≤ 1 ∧ c := .inr ⟨le_rfl, hc hid⟩
    refine (updateBalance_meets (k := 1) hv hn fun _ _ _ _ => rfl).mono fun x t ht => ?_
    cases x <;> exact ht.sound hn
  · have hn : 0 + 0 = 0 ∨ 0 + 0 ≤ 1 ∧ c := .inl rfl
    refine (updateBalance_meets (k := 0) hv hn fun now key _ hcredit => ?_).mono fun x t ht => ?_
    · exact absurd (id_of_creditOf hm hcredit) hid
    · cases x <;> exact ht.sound hn

theorem decrementNetworkFee_meets {tx : Transaction} {sender : Int} {fee : Money}
    {comment : String} {metaData : MetaData} (hv : Carries id 0 c v) :
    Meets ((exactlyOnce id).setting engine l) (fun _ => Sound id)
      (s.decrementNetworkFee .tx tx sender fee comment metaData) v := by
  have hn : 0 + 0 = 0 ∨ 0 + 0 ≤ 1 ∧ c := .inl rfl
  refine Meets.ofExcept_bind (fun currency _ => ?_) fun _ _ _ hrely =>
    (hv.sound hn).stable hrely.1 hrely.2
  refine Meets.seq (Meets.mapError ?_) (fun _ t ht => sound_ret ht) fun _ _ ht => ht
  refine (updateBalance_meets (k := 0) hv hn fun now key hkey hcredit => ?_).mono fun x t ht => ?_
  · rw [not_creditOf_of_entityType] at hcredit
    · cases hcredit
    · rcases hkey with hkey | hkey <;> simp [hkey]
  · cases x <;> exact ht.sound hn

theorem creditIncoming_meets {tx : Transaction} {m : Money} {params : Service.ConfirmTransaction}
    (hv : Carries id 0 c v) (hc : tx.id = id → tx.status ≠ .completedInvalid → c) :
    Meets ((exactlyOnce id).setting engine l) (fun _ => Sound id)
      (Service.creditIncoming .tx tx m params) v := by
  have hn : 0 = 0 ∨ 0 ≤ 1 ∧ c := .inl rfl
  refine Meets.seq (incrementRecipientBalance_meets hv hn) (fun _ t ht => ?_)
    fun _ t ht => ht.sound hn
  split
  · exact sound_ret (ht.sound hn)
  · rename_i hstatus
    split
    · exact sound_ret (ht.sound hn)
    · refine Meets.ofExcept_bind (fun gained _ => ?_) fun _ _ _ hrely =>
        (ht.sound hn).stable hrely.1 hrely.2
      exact updateMerchantBalance_meets ht (.inr rfl) fun hid => hc hid hstatus

theorem updateBalancesAfterTxConfirmation_meets {tx : Transaction}
    {params : Service.ConfirmTransaction} (hv : Carries id 0 c v)
    (hc : tx.id = id → tx.status ≠ .completedInvalid → c) :
    Meets ((exactlyOnce id).setting engine l) (fun _ => Sound id)
      (s.updateBalancesAfterTxConfirmation .tx tx params) v := by
  have hn : 0 = 0 ∨ 0 ≤ 1 ∧ c := .inl rfl
  have hsound := hv.sound hn
  unfold Service.updateBalancesAfterTxConfirmation
  split
  · exact sound_fail hsound
  · split
    · exact sound_fail hsound
    · split
      · exact sound_fail hsound
      · split
        · exact creditIncoming_meets hv hc
        · split
          · exact sound_fail hsound
          · refine Meets.seq (incrementRecipientBalance_meets hv hn) (fun _ t ht => ?_)
              fun _ t ht => ht.sound hn
            exact decrementNetworkFee_meets ht
        · split
          · exact sound_fail hsound
          · exact decrementNetworkFee_meets hv
        · split
          · exact sound_fail hsound
          · rename_i hvalid
            refine updateMerchantBalance_meets hv (.inl rfl) fun hid => hc hid ?_
            intro hstatus
            simp [hstatus] at hvalid

end Ledger

theorem Uncredited.stable {v' : Snapshot} (h : Uncredited id v)
    (hsession : v'.session = v.session) : Uncredited id v' := by
  intro log hlog
  rw [hsession] at hlog
  exact h log hlog

/-- Whatever a transaction did, ending it leaves no log. -/
theorem uncredited_of_ended (env : Env) (v : Snapshot) :
    Uncredited id (engine.perform .rollbackTx env v).2 ∧
      Uncredited id (engine.perform .commitTx env v).2 := by
  constructor
  · intro log hlog
    cases hlog
  · intro log hlog
    obtain ⟨w, txn, kept⟩ := v
    cases txn with
    | none => cases hlog
    | some old =>
      by_cases hlands : engine.lands env = true <;> simp [Engine.perform, hlands] at hlog

theorem rollback_meets {α : Type} {e : Err} :
    Meets ((exactlyOnce id).setting engine l) (fun _ => Uncredited id)
      ((Prog.ask .rollbackTx).bind fun _ => .fail e : Call α) v := by
  refine Meets.ask_bind ?_
  rintro v' - r t ⟨env, -, hdo⟩
  have hended : Uncredited id _ := (uncredited_of_ended env v').1
  rw [hdo] at hended
  exact ⟨⟨hended.sound, fun _ hauto => by cases hauto⟩, Meets.fail fun _ hrely =>
    hended.stable hrely.1⟩

theorem commit_meets {α : Type} {a : α} {e : Err} :
    Meets ((exactlyOnce id).setting engine l) (fun _ => Uncredited id)
      ((Prog.ask .commitTx).bind fun committed => if committed then .ret a else .fail e) v := by
  refine Meets.ask_bind ?_
  rintro v' - r t ⟨env, -, hdo⟩
  have hended : Uncredited id _ := (uncredited_of_ended env v').2
  rw [hdo] at hended
  refine ⟨⟨hended.sound, fun _ hauto => by cases hauto⟩, ?_⟩
  split
  · exact Meets.ret fun _ hrely => hended.stable hrely.1
  · exact Meets.fail fun _ hrely => hended.stable hrely.1

/-- What the update of a confirmation leaves behind: a log that completes the
row, if it is this row and the confirmation is a full one. -/
theorem carries_of_updated {p : UpdateTransactionParams} {env₀ env : Env} {w₀ w : World}
    {m : Int} {filter : Bool} {kept : List LockKey} {tx : Transaction}
    (h : s.toTransaction (engine.reply (.updateTransaction p) env
      (engine.replay [⟨.getTransactionByID p.id m filter, env₀, w₀⟩] w)) = .ok tx) :
    tx.id = p.id ∧ tx.status = p.status ∧
      Carries id 0 (p.id = id ∧ p.status = .completed) ⟨engine.lasting (.updateTransaction p) env w,
        some ([⟨.getTransactionByID p.id m filter, env₀, w₀⟩] ++
          [⟨.updateTransaction p, env,
            engine.replay [⟨.getTransactionByID p.id m filter, env₀, w₀⟩] w⟩]), kept⟩ := by
  have hreplay : engine.replay [⟨.getTransactionByID p.id m filter, env₀, w₀⟩] w = w :=
    replay_of_reads (by simp [Stmt.changes]) w
  rw [hreplay] at h ⊢
  obtain ⟨row, hrow, htx⟩ := Service.toTransaction_eq_ok _ h
  obtain ⟨currency, fee, -, -, rfl⟩ := Service.entryToTransaction_eq_ok _ htx
  obtain ⟨hdone, r, htarget, rfl⟩ := reply_updateTransaction hrow
  obtain ⟨-, hget, -⟩ := updateTarget_eq_some htarget
  refine ⟨(KeyedTables.Table.get_eq_some hget).2, rfl, ⟨_, rfl, ?_, ?_⟩, ?_⟩
  · simp [creditsIn, isCredit]
  · rintro ⟨rfl, hstatus⟩
    have hnew : completes p.id (⟨.updateTransaction p, env, w⟩ : TxEntry) := by
      refine ⟨?_, p, rfl, hstatus⟩
      simp [reaches, engine_locks, hdone, World.locks, htarget]
    refine ⟨⟨_, List.mem_append_right _ (List.mem_singleton_self _), hnew⟩, ?_⟩
    intro e hmem hreach
    rcases List.mem_append.mp hmem with hread | hwrite
    · obtain rfl := List.mem_singleton.mp hread
      exact absurd (changes_of_transaction_lock hreach) (fun h => by cases h)
    · obtain rfl := List.mem_singleton.mp hwrite
      exact hnew
  · rintro ⟨rfl, -⟩
    refine present_lasting ?_ _ env
    exact Option.isSome_iff_exists.mpr ⟨r, hget⟩

theorem confirmOn_meets {m txID : Int} {params : Service.ConfirmTransaction} {w : World}
    {kept : List LockKey} (hvalid : params.validate = .ok ()) :
    Meets ((exactlyOnce id).setting engine l) (fun _ => Sound id)
      (s.confirmOn .tx m txID params) ⟨w, some [], kept⟩ := by
  have hstatus := Service.ConfirmTransaction.status_of_validate hvalid
  have session_of_rely : ∀ {u : Snapshot} (u' : Snapshot), (exactlyOnce id).rely l u u' →
      u'.session = u.session := fun _ hrely => hrely.1
  refine Meets.bind ?_
  refine Protocol.tx_bind rfl session_of_rely fun w₁ env₁ _ _ => ?_
  refine ⟨⟨sound_of_log rfl _ kept, fun _ hauto => by cases hauto⟩, Meets.ofExcept fun t ht => ?_⟩
  obtain ⟨w₂, session⟩ := t
  obtain ⟨rfl, -⟩ := ht
  split
  · split
    · exact sound_fail (sound_of_log rfl w₂ kept)
    · refine Protocol.pool_bind session_of_rely fun w₃ env₃ _ _ => ?_
      refine ⟨⟨sound_of_log rfl _ kept, fun _ hauto => by cases hauto; rfl⟩, ?_⟩
      refine Protocol.tx_bind rfl session_of_rely fun w₄ env₄ _ _ => ?_
      refine ⟨⟨sound_of_log rfl _ kept, fun _ hauto => by cases hauto⟩, ?_⟩
      refine Meets.ofExcept_bind (fun updated hupdated => ?_) fun _ _ _ hrely =>
        (sound_of_log rfl _ kept).stable hrely.1 hrely.2
      obtain ⟨hid, hnew, hcarries⟩ := carries_of_updated hupdated
      refine Meets.seq (Meets.mapError ?_) (fun _ t ht => sound_ret ht) fun _ _ ht => ht
      refine (updateBalancesAfterTxConfirmation_meets hcarries fun h hne => ?_).mono
        fun x t ht => ?_
      · refine ⟨hid.symm.trans h, ?_⟩
        rw [hnew] at hne
        exact hstatus.resolve_right hne
      · cases x <;> exact ht
  · exact sound_of_log rfl w₂ kept

theorem confirm_meets {m txID : Int} {params : Service.ConfirmTransaction}
    (hv : Uncredited id v) :
    Meets ((exactlyOnce id).setting engine l) (fun _ => Uncredited id)
      (s.confirm m txID params) v := by
  refine Meets.ofExcept_bind (fun u hvalid => ?_) fun _ _ _ hrely => hv.stable hrely.1
  refine Protocol.runTransaction fun v₁ env hrely _ => ?_
  have hv₁ := hv.stable hrely.1
  have hbegun := uncredited_perform env (c := .beginTx) (fun _ _ h => by cases h) hv₁
  refine ⟨⟨hbegun.sound, fun _ hauto => by cases hauto⟩, ?_⟩
  split
  · refine (confirmOn_meets (by cases u; exact hvalid)).mono fun x t _ => ?_
    cases x with
    | error e => exact rollback_meets
    | ok a => exact commit_meets
  · exact fun v₂ hrely₂ => hv₁.stable hrely₂.1

section Programs

open Service

theorem noCredit_bind {α β : Type} {p : Call α} {f : α → Call β}
    (hp : OnlyWrites (noCredit id) p) (hv : Uncredited id v)
    (hf : ∀ a t, Uncredited id t →
      Meets ((exactlyOnce id).setting engine l) (fun _ => Uncredited id) (f a) t) :
    Meets ((exactlyOnce id).setting engine l) (fun _ => Uncredited id) (p.bind f) v :=
  Meets.seq (meets_of_noCredit hp hv) hf fun _ _ ht => ht

theorem confirmIncomingTransaction_meets {tx : Transaction} {sender hash : String}
    {receipt : TransactionReceipt} (hv : Uncredited id v) :
    Meets ((exactlyOnce id).setting engine l) (fun _ => Uncredited id)
      (s.confirmIncomingTransaction tx sender hash receipt) v := by
  unfold confirmIncomingTransaction
  split
  · exact meets_of_noCredit (.fail _) hv
  · refine Meets.seq (Meets.mapError ?_) (fun confirmed t ht => ?_) fun _ _ ht => ht
    · refine (confirm_meets hv).mono fun x t ht => ?_
      cases x <;> exact ht
    · refine meets_of_noCredit ?_ ht
      split
      · exact .ret _
      · refine .bind (.mapError _ getPaymentByID_writes) fun pt => ?_
        refine .bind (.mapError _ (updatePayment_writes fun _ _ _ _ => rfl)) fun _ => ?_
        split
        · exact .bind (.read rfl) fun _ => .ret _
        · exact .ret _

theorem cancelIncomingTransaction_free {tx : Transaction} :
    OnlyWrites (noCredit id) (cancelIncomingTransaction tx) := by
  refine .bind (.mapError _ (cancel_writes fun _ _ _ => rfl)) fun _ => ?_
  split
  · exact .ret _
  · exact .bind (.mapError _ (updatePayment_writes fun _ _ _ _ => rfl)) fun _ => .ret _

theorem settle_meets {tx : Transaction} {sender hash : String}
    {receipt : Except Err TransactionReceipt} (hv : Uncredited id v) :
    Meets ((exactlyOnce id).setting engine l) (fun _ => Uncredited id)
      (s.settle tx sender hash receipt) v := by
  unfold settle
  split
  · refine noCredit_bind timeNow_writes hv fun now t ht => ?_
    split
    · exact meets_of_noCredit cancelIncomingTransaction_free ht
    · exact meets_of_noCredit (.fail _) ht
  · split
    · split
      · exact confirmIncomingTransaction_meets hv
      · exact meets_of_noCredit cancelIncomingTransaction_free hv
    · refine noCredit_bind timeNow_writes hv fun now t ht => ?_
      split
      · exact meets_of_noCredit cancelIncomingTransaction_free ht
      · exact meets_of_noCredit (.ret _) ht

theorem checkIncomingTransaction_meets {txID : Int} (hv : Uncredited id v) :
    Meets ((exactlyOnce id).setting engine l) (fun _ => Uncredited id)
      (s.checkIncomingTransaction txID) v := by
  refine noCredit_bind (.mapError _ getTransactionByID_writes) hv fun tx t ht => ?_
  split
  · exact meets_of_noCredit (.fail _) ht
  · split
    · exact meets_of_noCredit (.fail _) ht
    · split
      · exact meets_of_noCredit (.fail _) ht
      · split
        · exact meets_of_noCredit (.fail _) ht
        · split
          · refine noCredit_bind (.attempt getTransactionReceipt_writes) ht fun receipt t' ht' => ?_
            exact settle_meets ht'
          · exact meets_of_noCredit (.ret _) ht

theorem noCredit_of_inbound {q : Conn} {st : Stmt} (h : anyInboundWrites q st) :
    noCredit id q st := by
  obtain ⟨tx, input, h⟩ := h
  cases st <;> first | rfl | cases h

theorem noCredit_of_crossCurrency {q : Conn} {st : Stmt} (h : crossCurrencyWrites q st) :
    noCredit id q st := by
  rcases h with h | h
  · cases st <;> first | rfl | cases h
  · exact noCredit_of_inbound h

/-- What a resolved underpayment adds names no transaction. -/
theorem noCredit_resolved {now payment : Int} {key : BalanceKey} {amount : Money} :
    noCredit id .tx (.insertBalanceAuditLog
      ⟨now, key, resolveComment payment, (auditMetaData [] .increment amount).toJSONB⟩) := by
  simp only [noCredit, isCredit, creditOf]
  rw [auditMetaData_find (by decide) (by decide) (by decide)]
  simp [MetaData.find]

theorem program_meets (op : Operation) (w : World) :
    Meets ((exactlyOnce id).setting engine l) (fun _ => Uncredited id) (s.program op)
      ⟨w, .idle⟩ := by
  have hidle : Uncredited id ⟨w, .idle⟩ := fun log hlog => by cases hlog
  cases op with
  | receive m id' params =>
    exact meets_of_noCredit (.discard (receive_writes fun _ _ _ => rfl)) hidle
  | confirm m id' params =>
    exact Meets.seq (confirm_meets hidle) (fun _ _ ht => meets_of_noCredit (.ret _) ht)
      fun _ _ ht => ht
  | cancel tx status reason => exact meets_of_noCredit (cancel_writes fun _ _ _ => rfl) hidle
  | processInbound tx input =>
    exact meets_of_noCredit (processInboundTransaction_writes_any.mono
      fun _ _ => noCredit_of_inbound) hidle
  | adminReconcileFill id' hash raw sender =>
    exact meets_of_noCredit (adminReconcileFill_writes.mono fun _ _ => noCredit_of_inbound) hidle
  | checkIncoming id' => exact checkIncomingTransaction_meets hidle
  | expirePayment id' =>
    refine meets_of_noCredit (expirePayment_writes.mono fun _ st h => ?_) hidle
    cases st <;> first | rfl | cases h
  | recheckPartialFills =>
    refine meets_of_noCredit (recheckPartialFills_writes.mono fun _ st h => ?_) hidle
    cases st <;> first | rfl | cases h
  | lockPaymentOptions m id' =>
    exact meets_of_noCredit (lockPaymentOptions_writes fun _ _ _ _ => rfl) hidle
  | setPaymentMethod p ticker =>
    exact meets_of_noCredit (.discard (setPaymentMethod_writes.mono
      fun _ _ h => noCredit_of_crossCurrency (.inl h))) hidle
  | changePaymentMethod p fee tx currency =>
    exact meets_of_noCredit (.discard (changePaymentMethod_writes.mono
      fun _ _ h => noCredit_of_crossCurrency (.inl h))) hidle
  | resolvePayment m id' =>
    exact meets_of_noCredit (.discard (resolvePayment_writes (fun _ _ _ => rfl)
      ⟨fun _ => rfl, fun _ => rfl⟩ ⟨fun _ => rfl, fun _ => rfl⟩
      fun _ _ _ _ => noCredit_resolved)) hidle
  | declinePayment m id' =>
    exact meets_of_noCredit (.discard (declinePayment_writes fun _ _ _ => rfl)) hidle
  | receiveWebhook n wallet body signature wh =>
    exact meets_of_noCredit (receiveWebhook_writes.mono fun _ _ => noCredit_of_inbound) hidle
  | detected d =>
    exact meets_of_noCredit (dedupOnDetected_writes.mono fun _ _ => noCredit_of_crossCurrency) hidle
  | autoAcceptCrossCurrency inv currency amount n p =>
    exact meets_of_noCredit (autoAcceptCrossCurrency_writes.mono
      fun _ _ => noCredit_of_crossCurrency) hidle

end Programs

end Calls

end CryptoLink
