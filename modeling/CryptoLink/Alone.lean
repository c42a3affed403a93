import CryptoLink.Footprints
import CryptoLink.Library.Triples

/-!
# One call with nothing beside it

What a call makes of a database when no other call and no crash comes between
its statements; the surroundings answer each step as they like.
-/

namespace CryptoLink

open ReadCommitted StatementPrograms

def outcome {α : Type} (p : Call α) (envs : ℕ → Env) (w : World) : Except Err α :=
  (engine.alone envs p 0 ⟨w, .idle⟩).1

def worldAfter {α : Type} (p : Call α) (envs : ℕ → Env) (w : World) : World :=
  (engine.alone envs p 0 ⟨w, .idle⟩).2.2.world

namespace OnlyWrites

variable {α : Type} {Φ : Conn → Stmt → Prop}

/-- The statements a call can run: reads, and what its footprint names. -/
def allowed (Φ : Conn → Stmt → Prop) (st : Stmt) : Prop :=
  st.changes = none ∨ ∃ q, Φ q st

/-- A call alone keeps what every statement of its footprint keeps. -/
theorem alone_keeps {J : World → Prop} {p : Call α} (hp : OnlyWrites Φ p)
    (heffect : ∀ q st env seen w, Φ q st → J w → J (World.effect st env seen w))
    (hlasting : ∀ q st w, Φ q st → J w → J (World.lasting st w)) (envs : ℕ → Env) {n : ℕ}
    {v : View Stmt Env World LockKey} (hv : Engine.Within (allowed Φ) J v) :
    Engine.Within (allowed Φ) J (engine.alone envs p n v).2.2 := by
  refine hv.alone ?_ ?_ (Issues.mono (fun c hc q st he => ?_) hp) envs
  · intro st env seen w hst hw
    rw [engine_effect]
    split
    · exact hw
    · rcases hst with hread | ⟨q, hΦ⟩
      · rwa [World.effect_of_read hread]
      · exact heffect q st env seen w hΦ hw
  · intro st env w hst hw
    rw [engine_lasting]
    split
    · exact hw
    · rcases hst with hread | ⟨q, hΦ⟩
      · rwa [lasting_of_read hread]
      · exact hlasting q st w hΦ hw
  · by_cases hread : st.changes = none
    · exact .inl hread
    · exact .inr ⟨q, hc q st he hread⟩

/-- A call that only reads leaves the world as it is. -/
theorem alone_of_reads {p : Call α} (hp : OnlyWrites (fun _ _ => False) p) (envs : ℕ → Env)
    (n : ℕ) (w : World) : (engine.alone envs p n ⟨w, .idle⟩).2.2.world = w :=
  (alone_keeps (J := (· = w)) hp (fun _ _ _ _ _ h _ => h.elim) (fun _ _ _ h _ => h.elim) envs
    (Engine.within_idle rfl)).world

end OnlyWrites

/-- A read alone: its answer is the result. -/
theorem alone_read (st : Stmt) (h : st.changes = none) (envs : ℕ → Env) (n : ℕ) (w : World)
    (x : Session Stmt Env World LockKey) :
    engine.alone envs (ask .pool st) n ⟨w, x⟩ =
      (.ok (engine.reply st (envs n) w), n + 1, ⟨w, x⟩) := by
  calc engine.alone envs (ask .pool st) n ⟨w, x⟩
      = (.ok (engine.reply st (envs n) w), n + 1, ⟨engine.autocommit st (envs n) w, x⟩) := rfl
    _ = _ := by rw [autocommit_of_read h]

/-- A statement on the pool alone. -/
theorem alone_pool (st : Stmt) (envs : ℕ → Env) (n : ℕ) (w : World)
    (x : Session Stmt Env World LockKey) :
    engine.alone envs (ask .pool st) n ⟨w, x⟩ =
      (.ok (engine.reply st (envs n) w), n + 1, ⟨engine.autocommit st (envs n) w, x⟩) := rfl

/-- A read whose answer is then looked at. -/
theorem alone_read_then {α : Type} (st : Stmt) (h : st.changes = none)
    (g : Reply st → Except Err α) (envs : ℕ → Env) (n : ℕ) (w : World)
    (x : Session Stmt Env World LockKey) :
    engine.alone envs ((ask .pool st).bind fun r => succeed (g r)) n ⟨w, x⟩ =
      (g (engine.reply st (envs n) w), n + 1, ⟨w, x⟩) := by
  calc engine.alone envs ((ask .pool st).bind fun r => succeed (g r)) n ⟨w, x⟩
      = engine.alone envs (Prog.ofExcept (g (engine.reply st (envs n) w))) (n + 1)
          ⟨engine.autocommit st (envs n) w, x⟩ := rfl
    _ = _ := by rw [Engine.alone_ofExcept, autocommit_of_read h]

theorem alone_timeNow {α : Type} (f : Int → Call α) (envs : ℕ → Env) (n : ℕ) (w : World)
    (x : Session Stmt Env World LockKey) :
    engine.alone envs (timeNow.bind f) n ⟨w, x⟩ =
      engine.alone envs (f (envs n).clock) (n + 1) ⟨w, x⟩ := by
  calc engine.alone envs (timeNow.bind f) n ⟨w, x⟩
      = engine.alone envs (f (envs n).clock) (n + 1)
          ⟨engine.autocommit .timeNow (envs n) w, x⟩ := rfl
    _ = _ := by rw [autocommit_of_read rfl]

/-- Nothing but reads on the pool. -/
def OnlyReads {α : Type} (p : Call α) : Prop :=
  Issues (fun c => ∃ st, c = Cmd.stmt .pool st ∧ st.changes = none) p

namespace OnlyReads

variable {α β : Type}

theorem read {st : Stmt} (h : st.changes = none) : OnlyReads (ask .pool st) :=
  (Issues.ask_iff _).mpr ⟨st, rfl, h⟩

theorem bind {p : Call α} {f : α → Call β} (hp : OnlyReads p) (hf : ∀ a, OnlyReads (f a)) :
    OnlyReads (p.bind f) :=
  Issues.bind hp hf

theorem checked (x : Except Err α) : OnlyReads (succeed x) := Issues.ofExcept x

theorem ret (a : α) : OnlyReads (.ret a : Call α) := trivial

theorem fail (e : Err) : OnlyReads (.fail e : Call α) := trivial

theorem attempt {p : Call α} (hp : OnlyReads p) : OnlyReads p.attempt := Issues.attempt hp

theorem mapError {p : Call α} (f : Err → Err) (hp : OnlyReads p) : OnlyReads (p.mapError f) :=
  Issues.mapError f hp

/-- Reading keeps every assertion. -/
theorem keeps {p : Call α} (hp : OnlyReads p) {P : View Stmt Env World LockKey → Prop} :
    engine.Triple P p (fun _ => P) P := by
  refine Engine.Triple.of_issues hp ?_
  rintro c env v ⟨st, rfl, hst⟩ hv
  show P ⟨engine.autocommit st env v.world, v.session⟩
  rwa [autocommit_of_read hst]

/-- Reading changes neither the world nor the session. -/
theorem alone_view {p : Call α} (hp : OnlyReads p) (envs : ℕ → Env) (n : ℕ)
    (v : View Stmt Env World LockKey) : (engine.alone envs p n v).2.2 = v := by
  induction p generalizing n with
  | ret a => rfl
  | fail e => rfl
  | call c k ih =>
    obtain ⟨⟨st, rfl, hst⟩, hk⟩ := hp
    have hstep : (engine.perform (.stmt .pool st) (envs n) v).2 = v := by
      show (⟨engine.autocommit st (envs n) v.world, v.session⟩ : View _ _ _ _) = v
      rw [autocommit_of_read hst]
    rw [Engine.alone_call, hstep]
    exact ih _ (hk _) (n + 1)

end OnlyReads

theorem timeNow_reads : OnlyReads timeNow := .read rfl

namespace Service

variable {s : Service}

theorem alone_getTransactionByID (id : Int) (envs : ℕ → Env) (n : ℕ) (w : World)
    (x : Session Stmt Env World LockKey) :
    engine.alone envs (s.getTransactionByID Transaction.merchantIDWildcard id) n ⟨w, x⟩ =
      (s.toTransaction (engine.reply (.getTransactionByID id Transaction.merchantIDWildcard false)
        (envs n) w), n + 1, ⟨w, x⟩) :=
  alone_read_then (.getTransactionByID id Transaction.merchantIDWildcard false) rfl s.toTransaction
    envs n w x

theorem alone_listFills (tx : Transaction) (envs : ℕ → Env) (n : ℕ) (w : World)
    (x : Session Stmt Env World LockKey) :
    engine.alone envs (listFills tx) n ⟨w, x⟩ =
      ((wrapErr "unable to list fills" (engine.reply (.listTransactionFills tx.id) (envs n)
        w)).map (List.map (fillFromRepo tx)), n + 1, ⟨w, x⟩) := by
  unfold listFills
  simp only [Prog.bind_eq, Prog.pure_eq]
  rw [Engine.alone_bind, alone_read (.listTransactionFills tx.id) rfl]
  simp only [Engine.alone_bind, succeed, Engine.alone_ofExcept]
  cases wrapErr "unable to list fills" (engine.reply (.listTransactionFills tx.id) (envs n) w) with
  | error e => rfl
  | ok rows => rfl

theorem alone_getByHashAndRecipient {envs : ℕ → Env} (h : ∀ n, (envs n).fate = .done)
    (networkID txHash recipient : String) (n : ℕ) (w : World)
    (x : Session Stmt Env World LockKey) :
    engine.alone envs (s.getByHashAndRecipient networkID txHash recipient) n ⟨w, x⟩ =
      (s.toTransaction (noRows (w.getTransactionByHashNetworkAndRecipient
        (stringToNullable txHash) (stringToNullable networkID) recipient)), n + 1, ⟨w, x⟩) := by
  have hreply : engine.reply (.getTransactionByHashNetworkAndRecipient (stringToNullable txHash)
      (stringToNullable networkID) recipient) (envs n) w =
        noRows (w.getTransactionByHashNetworkAndRecipient (stringToNullable txHash)
          (stringToNullable networkID) recipient) := by
    show answered (envs n).fate Err.database _ = _
    simp only [answered, h, if_true]
  rw [← hreply]
  exact alone_read_then (.getTransactionByHashNetworkAndRecipient (stringToNullable txHash)
    (stringToNullable networkID) recipient) rfl s.toTransaction envs n w x

theorem alone_fillExistsByHashAndRecipient {envs : ℕ → Env} (h : ∀ n, (envs n).fate = .done)
    (networkID txHash recipient : String) (n : ℕ) (w : World)
    (x : Session Stmt Env World LockKey) :
    engine.alone envs (fillExistsByHashAndRecipient networkID txHash recipient) n ⟨w, x⟩ =
      (.ok (w.fillExistsByHashAndRecipient networkID txHash recipient), n + 1, ⟨w, x⟩) := by
  have hreply : engine.reply (.fillExistsByHashAndRecipient networkID txHash recipient) (envs n)
      w = .ok (w.fillExistsByHashAndRecipient networkID txHash recipient) := by
    show answered (envs n).fate Err.database _ = _
    simp only [answered, h, if_true]
  rw [← hreply]
  exact alone_read_then (.fillExistsByHashAndRecipient networkID txHash recipient) rfl id envs n w x

theorem alone_getByFilter {envs : ℕ → Env} (h : ∀ n, (envs n).fate = .done) (f : Filter) (n : ℕ)
    (w : World) (x : Session Stmt Env World LockKey) :
    engine.alone envs (s.getByFilter f) n ⟨w, x⟩ =
      (match w.getTransactionsByFilter (f.toRepo 1) with
        | [] => .error (Err.of .errTransactionNotFound)
        | row :: _ => s.entryToTransaction row, n + 1, ⟨w, x⟩) := by
  have hreply : engine.reply (.getTransactionsByFilter (f.toRepo 1)) (envs n) w =
      .ok (w.getTransactionsByFilter (f.toRepo 1)) := by
    show answered (envs n).fate Err.database _ = _
    simp only [answered, h, if_true]
  unfold getByFilter
  rw [Prog.bind_eq, alone_read_then (.getTransactionsByFilter (f.toRepo 1)) rfl _ envs n w x,
    hreply]
  cases w.getTransactionsByFilter (f.toRepo 1) with
  | nil => rfl
  | cons row rest => rfl

theorem alone_listByFilter (f : Filter) (limit : ℕ) (envs : ℕ → Env) (n : ℕ) (w : World)
    (x : Session Stmt Env World LockKey) :
    engine.alone envs (s.listByFilter f limit) n ⟨w, x⟩ =
      ((engine.reply (.getTransactionsByFilter (f.toRepo limit)) (envs n) w).bind
        fun rows => rows.mapM s.entryToTransaction, n + 1, ⟨w, x⟩) :=
  alone_read_then (.getTransactionsByFilter (f.toRepo limit)) rfl
    (fun r => r.bind fun rows => rows.mapM s.entryToTransaction) envs n w x

theorem entryToTransaction_id {row : TransactionRow} {tx : Transaction}
    (h : s.entryToTransaction row = .ok tx) : tx.id = row.id := by
  obtain ⟨currency, fee, -, -, rfl⟩ := s.entryToTransaction_eq_ok h
  rfl

/-- Every row is resolved, in the order of the listing. -/
theorem forall₂_of_mapM {rows : List TransactionRow} {txs : List Transaction}
    (h : rows.mapM s.entryToTransaction = .ok txs) :
    List.Forall₂ (fun row tx => s.entryToTransaction row = .ok tx) rows txs := by
  induction rows generalizing txs with
  | nil =>
    cases h
    exact .nil
  | cons row rows ih =>
    rw [List.mapM_cons] at h
    cases hrow : s.entryToTransaction row with
    | error e =>
      rw [hrow] at h
      cases h
    | ok tx =>
      cases hrest : rows.mapM s.entryToTransaction with
      | error e =>
        rw [hrow, hrest] at h
        cases h
      | ok rest =>
        rw [hrow, hrest] at h
        cases h
        exact .cons hrow (ih hrest)

/-- Every transaction of a listing is read off a row of it. -/
theorem row_of_mapM {rows : List TransactionRow} {txs : List Transaction} {tx : Transaction}
    (h : rows.mapM s.entryToTransaction = .ok txs) (htx : tx ∈ txs) :
    ∃ row ∈ rows, s.entryToTransaction row = .ok tx := by
  have hall := forall₂_of_mapM h
  clear h
  induction hall with
  | nil => cases htx
  | cons hrow _ ih =>
    rcases List.mem_cons.mp htx with rfl | hrest
    · exact ⟨_, List.mem_cons_self, hrow⟩
    · obtain ⟨row, hmem, hread⟩ := ih hrest
      exact ⟨row, List.mem_cons_of_mem _ hmem, hread⟩

theorem mapM_of_forall {rows : List TransactionRow}
    (h : ∀ row ∈ rows, ∃ tx, s.entryToTransaction row = .ok tx) :
    ∃ txs, rows.mapM s.entryToTransaction = .ok txs := by
  induction rows with
  | nil => exact ⟨[], rfl⟩
  | cons row rows ih =>
    obtain ⟨tx, htx⟩ := h row List.mem_cons_self
    obtain ⟨txs, htxs⟩ := ih fun r hr => h r (List.mem_cons_of_mem _ hr)
    refine ⟨tx :: txs, ?_⟩
    rw [List.mapM_cons, htx, htxs]
    rfl

theorem ids_of_mapM {rows : List TransactionRow} {txs : List Transaction}
    (h : rows.mapM s.entryToTransaction = .ok txs) :
    txs.map Transaction.id = rows.map TransactionRow.id := by
  have hall := forall₂_of_mapM h
  clear h
  induction hall with
  | nil => rfl
  | cons hrow _ ih =>
    rw [List.map_cons, List.map_cons, entryToTransaction_id hrow, ih]

theorem getPaymentByID_reads {m id : Int} : OnlyReads (getPaymentByID m id) :=
  .bind (.read rfl) fun _ => .checked _

theorem getTransactionReceipt_reads {b : Blockchain} {hash : String} {isTest : Bool} :
    OnlyReads (s.getTransactionReceipt b hash isTest) := by
  refine .bind (.checked _) fun coin => ?_
  split
  · exact .fail _
  · exact .bind (.read rfl) fun _ => .bind (.checked _) fun _ => .ret _

end Service

end CryptoLink
