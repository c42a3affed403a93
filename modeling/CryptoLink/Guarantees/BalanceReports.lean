import CryptoLink.Alone
import CryptoLink.Guarantees.AuditedBalances

/-!
# What balance updates report

An update of a balance is a few statements in one database transaction. Here it
is followed call by call, with any statement failing: what the ledger is left
with, and what the caller is told.
-/

namespace CryptoLink

open ReadCommitted StatementPrograms KeyedTables

/-- The balance has moved by `x`, one row of the audit log says so, and nothing
else has changed. -/
def Posted (id : BalanceKey) (x : Int) (w w' : World) : Prop :=
  ∃ now r, (w.balances.get id).isSome ∧ r.balance = id ∧ r.signedAmount = x ∧
    w' = { w with
      balances := w.balances.modify id (World.updatedBalance ⟨id, now, x⟩)
        (World.updatedBalance_key _)
      auditLog := w.auditLog ++ [r] }

/-- A call reports what happened, or it fails and nothing has happened. -/
structure Truthful {α : Type} (reports : α → Prop) (happened : Prop) (result : Except Err α)
    (w w' : World) : Prop where
  report : (∃ a, result = .ok a ∧ reports a) ↔ happened
  otherwise : ¬ happened → (∃ e, result = .error e) ∧ w' = w

theorem Posted.length {id : BalanceKey} {x : Int} {w w' : World} (h : Posted id x w w') :
    w'.auditLog.length = w.auditLog.length + 1 := by
  obtain ⟨now, r, -, -, -, rfl⟩ := h
  simp

theorem Posted.get_of_ne {id k : BalanceKey} {x : Int} {w w' : World} (h : Posted id x w w')
    (hk : k ≠ id) : w'.balances.get k = w.balances.get k := by
  obtain ⟨now, r, -, -, -, rfl⟩ := h
  exact Table.get_modify_of_ne _ _ (World.updatedBalance_key _) hk

namespace UpdateBalanceByIDQuery

variable (p : UpdateBalanceByIDQuery)

/-- The row is in the currency of the amount. -/
def fits (b : BalanceRow) : Bool := (entryToBalance b).amount.compatibleTo p.amount

/-- The calls it makes of the database and the clock, if nothing fails. -/
def calls (b : BalanceRow) : ℕ := if p.fits b then 5 else 1

/-- From the `n`-th call on, every statement is answered, and the funds are there. -/
def Runs (envs : ℕ → Env) (n : ℕ) (b : BalanceRow) : Prop :=
  p.validate = .ok () ∧ (envs n).fate = .done ∧
    (p.fits b = true → 0 ≤ b.amount + p.operation.signed p.amount ∧
      (envs (n + 2)).fate = .done ∧ (envs (n + 4)).fate = .done)

end UpdateBalanceByIDQuery

/-- A transaction that has run `log`. -/
def running (w : World) (log : Log Stmt Env World) : View Stmt Env World LockKey :=
  ⟨w, ⟨some log, []⟩⟩

theorem alone_tx (st : Stmt) (hlasting : ∀ w, World.lasting st w = w) (envs : ℕ → Env) (n : ℕ)
    (w : World) (log : Log Stmt Env World) :
    engine.alone envs (ask .tx st) n (running w log) =
      (.ok (engine.reply st (envs n) (engine.replay log w)), n + 1,
        running w (log ++ [⟨st, envs n, engine.replay log w⟩])) := by
  have hkept : engine.lasting st (envs n) w = w := by
    rw [engine_lasting, hlasting, ite_self]
  calc engine.alone envs (ask .tx st) n (running w log)
      = (.ok (engine.reply st (envs n) (engine.replay log w)), n + 1,
          ⟨engine.lasting st (envs n) w,
            ⟨some (log ++ [⟨st, envs n, engine.replay log w⟩]), []⟩⟩) := rfl
    _ = _ := by rw [hkept, running]

theorem alone_clock (envs : ℕ → Env) (n : ℕ) (v : View Stmt Env World LockKey) :
    engine.alone envs timeNow n v = (.ok (envs n).clock, n + 1, v) := by
  calc engine.alone envs timeNow n v
      = (.ok (envs n).clock, n + 1, ⟨engine.autocommit .timeNow (envs n) v.world, v.session⟩) := rfl
    _ = _ := by rw [autocommit_of_read rfl]

theorem replay_read (st : Stmt) (h : st.changes = none) (env : Env) (seen w : World) :
    engine.replay [⟨st, env, seen⟩] w = w := by
  show engine.effect st env seen w = w
  rw [engine_effect, World.effect_of_read h, ite_self]

section

variable {p : UpdateBalanceByIDQuery} {id : BalanceKey} {envs : ℕ → Env} {n : ℕ} {w : World}
  {log : Log Stmt Env World} {b : BalanceRow}

theorem reply_locked (env : Env) (w : World) :
    engine.reply (.getBalanceByIDWithLock id) env w =
      answered env.fate .database (noRows (w.balances.get id)) := rfl

theorem reply_moved (q : UpdateBalanceByIDParams) (env : Env) (w : World) :
    engine.reply (.updateBalanceByID q) env w = answered env.fate .database
      (match w.balances.get q.key with
        | none => .error (Err.of .noRows)
        | some r => if 0 ≤ r.amount + q.amount then .ok (World.updatedBalance q r)
            else .error (Err.of .database)) := rfl

theorem replay_moved (hb : w.balances.get id = some b) {now x : Int} (hfunds : 0 ≤ b.amount + x)
    {env : Env} (hdone : env.fate = .done) :
    engine.replay [⟨.updateBalanceByID ⟨id, now, x⟩, env, w⟩] w = { w with
      balances := w.balances.modify id (World.updatedBalance ⟨id, now, x⟩)
        (World.updatedBalance_key _) } := by
  have htarget : w.balanceTarget ⟨id, now, x⟩ = some b := by
    simp only [World.balanceTarget, hb, Option.filter_some, hfunds, decide_true, if_true]
  show engine.effect _ _ _ _ = _
  simp only [engine_effect, hdone, reduceCtorEq, if_false, World.effect, htarget]

/-- The row that goes to the audit log. -/
def UpdateBalanceByIDQuery.auditRow (p : UpdateBalanceByIDQuery) (now : Int) (id : BalanceKey) :
    AuditRow :=
  ⟨now, id, p.comment, (auditMetaData p.metaData p.operation p.amount).toJSONB⟩

theorem alone_writeAuditLog :
    engine.alone envs (writeAuditLog .tx id p.operation p.amount p.comment p.metaData) n
        (running w log) =
      (answered (envs (n + 1)).fate .database (.ok ()), n + 2, running w (log ++
        [⟨.insertBalanceAuditLog (p.auditRow (envs n).clock id), envs (n + 1),
          engine.replay log w⟩])) := by
  unfold writeAuditLog
  simp only [Prog.bind_eq, Engine.alone_bind, alone_clock, succeed, Engine.alone_ofExcept]
  rw [alone_tx (.insertBalanceAuditLog _) (fun _ => rfl)]
  rfl

/-- A row in another currency ends the change without an error. -/
theorem alone_changeBalanceByID_misfit (log : Log Stmt Env World)
    (hb : (engine.replay log w).balances.get id = some b)
    (hruns : p.Runs envs n b) (hfits : p.fits b = false) :
    ∃ log', engine.alone envs (changeBalanceByID .tx id p) n (running w log) =
        (.ok none, n + 1, running w (log ++ log')) ∧
      engine.replay log' (engine.replay log w) = engine.replay log w := by
  obtain ⟨hvalid, hread, -⟩ := hruns
  have hcompatible : (entryToBalance b).amount.compatibleTo p.amount = false := hfits
  refine ⟨[⟨.getBalanceByIDWithLock id, envs n, engine.replay log w⟩], ?_, replay_read _ rfl _ _ _⟩
  unfold changeBalanceByID
  simp only [Prog.bind_eq, Engine.alone_bind, succeed, Engine.alone_ofExcept, hvalid,
    alone_tx (.getBalanceByIDWithLock id) (fun _ => rfl), reply_locked, answered_done hread, hb,
    noRows, wrapErr_ok, hcompatible]
  rfl

/-- A row in its currency is changed, and the log says so. -/
theorem alone_changeBalanceByID_fit (log : Log Stmt Env World)
    (hb : (engine.replay log w).balances.get id = some b)
    (hruns : p.Runs envs n b) (hfits : p.fits b = true) :
    ∃ b' log', engine.alone envs (changeBalanceByID .tx id p) n (running w log) =
        (.ok (some b'), n + 5, running w (log ++ log')) ∧
      Posted id (p.operation.signed p.amount) (engine.replay log w)
        (engine.replay log' (engine.replay log w)) := by
  obtain ⟨hvalid, hread, hchange⟩ := hruns
  obtain ⟨hfunds, hupdate, haudit⟩ := hchange hfits
  have hcompatible : (entryToBalance b).amount.compatibleTo p.amount = true := hfits
  obtain rfl : b.key = id := (Table.get_eq_some hb).2
  generalize hu : engine.replay log w = u at hb
  have hreplay : engine.replay (log ++ [⟨.getBalanceByIDWithLock b.key, envs n, u⟩]) w = u := by
    rw [Engine.replay_append, hu, replay_read _ rfl]
  let q : UpdateBalanceByIDParams := ⟨b.key, (envs (n + 1)).clock, p.operation.signed p.amount⟩
  have hmoved : engine.reply (.updateBalanceByID q) (envs (n + 2)) u =
      .ok (World.updatedBalance q b) := by
    rw [reply_moved, answered_done hupdate]
    simp only [hb, q, if_pos hfunds]
  refine ⟨entryToBalance (World.updatedBalance q b),
    [⟨.getBalanceByIDWithLock b.key, envs n, u⟩] ++ [⟨.updateBalanceByID q, envs (n + 2), u⟩] ++
      [⟨.insertBalanceAuditLog (p.auditRow (envs (n + 3)).clock b.key), envs (n + 4),
        engine.replay [⟨.updateBalanceByID q, envs (n + 2), u⟩] u⟩], ?_, ?_⟩
  · unfold changeBalanceByID
    simp only [Prog.bind_eq, Engine.alone_bind, succeed, Engine.alone_ofExcept, hvalid,
      alone_tx (.getBalanceByIDWithLock b.key) (fun _ => rfl), reply_locked, answered_done hread,
      hu, hb, noRows, wrapErr_ok, hcompatible, if_true, alone_clock]
    rw [alone_tx (.updateBalanceByID q) (fun _ => rfl), hreplay, hmoved]
    simp only [wrapErr_ok, Engine.alone_mapError, World.updatedBalance_key, alone_writeAuditLog]
    rw [answered_done haudit, Engine.replay_append, hreplay]
    simp only [List.append_assoc]
    rfl
  · rw [Engine.replay_append, Engine.replay_append,
      replay_read (.getBalanceByIDWithLock b.key) rfl]
    refine ⟨(envs (n + 1)).clock, p.auditRow (envs (n + 3)).clock b.key, ?_, rfl,
      signedAmount_auditMetaData _ _ _ _ (UpdateBalanceByIDQuery.operation_isValid hvalid) _, ?_⟩
    · rw [hb]
      rfl
    · have hlogged : ∀ (seen v : World), engine.replay [⟨.insertBalanceAuditLog
          (p.auditRow (envs (n + 3)).clock b.key), envs (n + 4), seen⟩] v =
            { v with auditLog := v.auditLog ++ [p.auditRow (envs (n + 3)).clock b.key] } := by
        intro seen v
        show engine.effect _ _ _ _ = _
        rw [engine_effect, haudit]
        rfl
      rw [hlogged, replay_moved hb hfunds hupdate]

/-- A change that runs to its end: in its currency it has been made, in another one
nothing has. -/
theorem alone_changeBalanceByID_runs (log : Log Stmt Env World)
    (hb : (engine.replay log w).balances.get id = some b)
    (hruns : p.Runs envs n b) :
    ∃ r log', engine.alone envs (changeBalanceByID .tx id p) n (running w log) =
        (.ok r, n + p.calls b, running w (log ++ log')) ∧
      (p.fits b = true → Posted id (p.operation.signed p.amount) (engine.replay log w)
        (engine.replay (log ++ log') w)) ∧
      (p.fits b = false → engine.replay (log ++ log') w = engine.replay log w) := by
  cases hfits : p.fits b with
  | false =>
    obtain ⟨log', hrun, hsame⟩ := alone_changeBalanceByID_misfit log hb hruns hfits
    refine ⟨none, log', ?_, (fun h => by cases h), fun _ => ?_⟩
    · rw [hrun, UpdateBalanceByIDQuery.calls, hfits]
      rfl
    · rw [Engine.replay_append, hsame]
  | true =>
    obtain ⟨b', log', hrun, hposted⟩ := alone_changeBalanceByID_fit log hb hruns hfits
    refine ⟨some b', log', ?_, fun _ => ?_, (fun h => by cases h)⟩
    · rw [hrun, UpdateBalanceByIDQuery.calls, hfits]
      rfl
    · rw [Engine.replay_append]
      exact hposted

/-- Whatever happens, the transaction is still open when the change ends. -/
theorem alone_changeBalanceByID_running (p : UpdateBalanceByIDQuery) (id : BalanceKey)
    (envs : ℕ → Env) (n : ℕ) (w : World) (log : Log Stmt Env World) :
    ∃ log', (engine.alone envs (changeBalanceByID .tx id p) n (running w log)).2.2 =
      running w log' := by
  have hissues : Issues (fun c => c = .stmt .pool .timeNow ∨
      ∃ st, c = .stmt .tx st ∧ ∀ u, World.lasting st u = u) (changeBalanceByID .tx id p) := by
    apply Issues.bind (Issues.ofExcept _)
    intro _
    refine ⟨.inr ⟨_, rfl, fun _ => rfl⟩, fun locked => ?_⟩
    apply Issues.bind (Issues.ofExcept _)
    intro b
    split
    · refine ⟨.inl rfl, fun now => ⟨.inr ⟨_, rfl, fun _ => rfl⟩, fun changed => ?_⟩⟩
      apply Issues.bind (Issues.ofExcept _)
      intro balance
      apply Issues.bind
      · apply Issues.mapError
        exact ⟨.inl rfl, fun _ => ⟨.inr ⟨_, rfl, fun _ => rfl⟩, fun r => Issues.ofExcept r⟩⟩
      · exact fun _ => trivial
    · exact trivial
  have htriple := Engine.Triple.of_issues (G := engine) (P := fun v => ∃ log', v = running w log')
    hissues ?_
  · have hend := htriple envs n (running w log) ⟨log, rfl⟩
    generalize engine.alone envs (changeBalanceByID .tx id p) n (running w log) = run at hend
    obtain ⟨e | a, n', v⟩ := run
    · exact hend
    · exact hend
  · rintro c env v (rfl | ⟨st, rfl, hlasting⟩) ⟨log', rfl⟩
    · exact ⟨log', by
        show (⟨engine.autocommit .timeNow env w, _⟩ : View Stmt Env World LockKey) = _
        rw [autocommit_of_read rfl]
        rfl⟩
    · refine ⟨log' ++ [⟨st, env, engine.replay log' w⟩], ?_⟩
      have hkept : engine.lasting st env w = w := by
        rw [engine_lasting, hlasting, ite_self]
      show (⟨engine.lasting st env w, _⟩ : View Stmt Env World LockKey) = _
      rw [hkept]
      rfl

theorem alone_changeBalanceByID_fails (p : UpdateBalanceByIDQuery) (id : BalanceKey)
    (envs : ℕ → Env) (n : ℕ) (log : Log Stmt Env World)
    (h : ∀ b, (engine.replay log w).balances.get id = some b → ¬ p.Runs envs n b) :
    ∃ e n' log', engine.alone envs (changeBalanceByID .tx id p) n (running w log) =
      (.error e, n', running w log') := by
  obtain ⟨log', hlog'⟩ := alone_changeBalanceByID_running p id envs n w log
  have herror : ∃ e, (engine.alone envs (changeBalanceByID .tx id p) n (running w log)).1 =
      .error e := by
    unfold changeBalanceByID
    simp only [Prog.bind_eq, Engine.alone_bind, succeed, Engine.alone_ofExcept]
    cases hvalid : p.validate with
    | error e => exact ⟨e, rfl⟩
    | ok u =>
    simp only [alone_tx (.getBalanceByIDWithLock id) (fun _ => rfl), reply_locked]
    by_cases hread : (envs n).fate = .done
    swap
    · rw [answered, if_neg hread]
      exact ⟨_, rfl⟩
    rw [answered_done hread]
    cases hb : (engine.replay log w).balances.get id with
    | none => exact ⟨_, rfl⟩
    | some b =>
    simp only [noRows, wrapErr_ok]
    by_cases hfits : p.fits b = true
    swap
    · exact absurd ⟨hvalid, hread, fun hfit => absurd hfit hfits⟩ (h b hb)
    have hcompatible : (entryToBalance b).amount.compatibleTo p.amount = true := hfits
    simp only [hcompatible, if_true, Engine.alone_bind, alone_clock]
    obtain rfl : b.key = id := (Table.get_eq_some hb).2
    have hreplay : engine.replay (log ++ [⟨.getBalanceByIDWithLock b.key, envs n,
        engine.replay log w⟩]) w = engine.replay log w := by
      rw [Engine.replay_append, replay_read _ rfl]
    let q : UpdateBalanceByIDParams := ⟨b.key, (envs (n + 1)).clock, p.operation.signed p.amount⟩
    rw [alone_tx (.updateBalanceByID q) (fun _ => rfl), hreplay]
    by_cases hmoves : (envs (n + 2)).fate = .done ∧ 0 ≤ b.amount + p.operation.signed p.amount
    · obtain ⟨hupdate, hfunds⟩ := hmoves
      have hmoved : engine.reply (.updateBalanceByID q) (envs (n + 2)) (engine.replay log w) =
          .ok (World.updatedBalance q b) := by
        rw [reply_moved, answered_done hupdate]
        simp only [hb, q, if_pos hfunds]
      rw [hmoved]
      simp only [Engine.alone_ofExcept, wrapErr_ok, Engine.alone_mapError,
        World.updatedBalance_key, alone_writeAuditLog]
      by_cases haudit : (envs (n + 4)).fate = .done
      · exact absurd ⟨hvalid, hread, fun _ => ⟨hfunds, hupdate, haudit⟩⟩ (h b hb)
      · rw [answered, if_neg haudit]
        exact ⟨_, rfl⟩
    · have hrefused : ∃ e, engine.reply (.updateBalanceByID q) (envs (n + 2))
          (engine.replay log w) = .error e := by
        rw [reply_moved, answered]
        by_cases hupdate : (envs (n + 2)).fate = .done
        · have hfunds : ¬ 0 ≤ b.amount + p.operation.signed p.amount :=
            fun hfunds => hmoves ⟨hupdate, hfunds⟩
          simp only [if_pos hupdate, hb, q, if_neg hfunds]
          exact ⟨_, rfl⟩
        · rw [if_neg hupdate]
          exact ⟨_, rfl⟩
      obtain ⟨e, he⟩ := hrefused
      rw [he]
      exact ⟨_, rfl⟩
  obtain ⟨e, he⟩ := herror
  exact ⟨e, (engine.alone envs (changeBalanceByID .tx id p) n (running w log)).2.1, log', by
    rw [← he, ← hlog']⟩

end

section

variable {α : Type} {body : Call α} {envs : ℕ → Env} {w : World} {k : ℕ}
  {log : Log Stmt Env World}

theorem runTx_unopened (body : Call α) (h : (envs 0).fate ≠ .done) :
    outcome (runTx body) envs w = .error (Err.of .database) ∧
      worldAfter (runTx body) envs w = w := by
  have hopens : engine.opens (envs 0) = false := decide_eq_false h
  have hrun := engine.alone_runTransaction envs (Err.of .database) (Err.of .database) body 0 w []
  rw [if_neg (by rw [hopens]; exact Bool.false_ne_true)] at hrun
  exact ⟨congrArg (·.1) hrun, congrArg (·.2.2.world) hrun⟩

theorem runTx_fails {e : Err} (hopened : (envs 0).fate = .done)
    (hbody : engine.alone envs body 1 (running w []) = (.error e, k, running w log)) :
    outcome (runTx body) envs w = .error e ∧ worldAfter (runTx body) envs w = w := by
  have hopens : engine.opens (envs 0) = true := decide_eq_true hopened
  have hrun := engine.alone_runTransaction envs (Err.of .database) (Err.of .database) body 0 w []
  rw [if_pos hopens, show (⟨w, some [], []⟩ : View Stmt Env World LockKey) = running w [] from rfl,
    hbody] at hrun
  exact ⟨congrArg (·.1) hrun, congrArg (·.2.2.world) hrun⟩

/-- The commit decides. -/
theorem runTx_ends {a : α} (hopened : (envs 0).fate = .done)
    (hbody : engine.alone envs body 1 (running w []) = (.ok a, k, running w log)) :
    outcome (runTx body) envs w =
        (if (envs k).fate = .done then .ok a else .error (Err.of .database)) ∧
      worldAfter (runTx body) envs w =
        if (envs k).fate = .refused then w else engine.replay log w := by
  have hopens : engine.opens (envs 0) = true := decide_eq_true hopened
  have hrun := engine.alone_runTransaction envs (Err.of .database) (Err.of .database) body 0 w []
  rw [if_pos hopens, show (⟨w, some [], []⟩ : View Stmt Env World LockKey) = running w [] from rfl,
    hbody] at hrun
  have hfirst := congrArg (·.1) hrun
  have hworld := congrArg (·.2.2.world) hrun
  cases hfate : (envs k).fate with
  | done =>
    simp only [Engine.perform, running, engine, hfate] at hfirst hworld
    exact ⟨hfirst, hworld⟩
  | refused =>
    simp only [Engine.perform, running, engine, hfate] at hfirst hworld
    exact ⟨hfirst, hworld⟩
  | unanswered =>
    simp only [Engine.perform, running, engine, hfate] at hfirst hworld
    exact ⟨hfirst, hworld⟩

end

theorem Posted.changed {id : BalanceKey} {x : Int} {w : World} : ¬ Posted id x w w := by
  intro h
  have hlength := h.length
  omega

/-- A failure that changes nothing is told as one. -/
theorem Truthful.of_error {α : Type} {reports : α → Prop} {happened : Prop}
    {result : Except Err α} {w w' : World} {e : Err} (hresult : result = .error e) (hw : w' = w)
    (hnot : ¬ happened) : Truthful reports happened result w w' where
  report := by
    constructor
    · rintro ⟨a, ha, -⟩
      rw [hresult] at ha
      cases ha
    · intro h
      exact absurd h hnot
  otherwise _ := ⟨⟨e, hresult⟩, hw⟩

theorem Truthful.of_ok {α : Type} {reports : α → Prop} {happened : Prop}
    {result : Except Err α} {w w' : World} {a : α} (hresult : result = .ok a) (ha : reports a)
    (h : happened) : Truthful reports happened result w w' where
  report := iff_of_true ⟨a, hresult, ha⟩ h
  otherwise hnot := absurd h hnot

/-- A change that is told as a failure is no truthful report. -/
theorem not_truthful_of_lost {α : Type} {reports : α → Prop} {happened : Prop}
    {result : Except Err α} {w w' : World} {e : Err} (hresult : result = .error e)
    (hw : w' ≠ w) : ¬ Truthful reports happened result w w' := by
  intro h
  by_cases hhappened : happened
  · obtain ⟨a, ha, -⟩ := h.report.mpr hhappened
    rw [hresult] at ha
    cases ha
  · exact hw (h.otherwise hhappened).2

/-- Nor is a success without the change. -/
theorem not_truthful_of_ok {α : Type} {reports : α → Prop} {happened : Prop}
    {result : Except Err α} {w w' : World} {a : α} (hresult : result = .ok a)
    (hnot : ¬ happened) : ¬ Truthful reports happened result w w' := by
  intro h
  obtain ⟨⟨e, he⟩, -⟩ := h.otherwise hnot
  rw [hresult] at he
  cases he

/-- Once everything before the commit is answered: the row is in the currency of
the amount if the commit is answered, and it is not if the commit's answer is lost. -/
def UpdateBalanceByIDQuery.Reported (p : UpdateBalanceByIDQuery) (id : BalanceKey)
    (envs : ℕ → Env) (w : World) : Prop :=
  ∀ b, w.balances.get id = some b → (envs 0).fate = .done → p.Runs envs 1 b →
    ((envs (1 + p.calls b)).fate = .done → p.fits b = true) ∧
    ((envs (1 + p.calls b)).fate = .unanswered → p.fits b = false)

theorem updateBalanceByID_truthful_iff (id : BalanceKey) (p : UpdateBalanceByIDQuery)
    (envs : ℕ → Env) (w : World) :
    Truthful (fun b => b.isSome) (Posted id (p.operation.signed p.amount) w
        (worldAfter (updateBalanceByID id p) envs w))
      (outcome (updateBalanceByID id p) envs w) w (worldAfter (updateBalanceByID id p) envs w) ↔
    p.Reported id envs w := by
  cases hvalid : p.validate with
  | error e =>
    have hrun : updateBalanceByID id p = .fail e := by
      rw [updateBalanceByID, hvalid]
      rfl
    rw [hrun]
    apply iff_of_true
    · exact Truthful.of_error rfl rfl Posted.changed
    · intro b _ _ hruns
      rw [UpdateBalanceByIDQuery.Runs, hvalid] at hruns
      cases hruns.1
  | ok u =>
    have hrun : updateBalanceByID id p = runTx (changeBalanceByID .tx id p) := by
      rw [updateBalanceByID, hvalid]
      rfl
    rw [hrun]
    by_cases hopened : (envs 0).fate = .done
    swap
    · obtain ⟨hresult, hworld⟩ := runTx_unopened (changeBalanceByID .tx id p) (w := w) hopened
      rw [hworld]
      apply iff_of_true
      · exact Truthful.of_error hresult rfl Posted.changed
      · intro b _ hdone
        exact absurd hdone hopened
    by_cases hreaches : ∃ b, w.balances.get id = some b ∧ p.Runs envs 1 b
    swap
    · have hnone : ∀ b, w.balances.get id = some b → ¬ p.Runs envs 1 b :=
        fun b hb hruns => hreaches ⟨b, hb, hruns⟩
      obtain ⟨e, n', log', hbody⟩ := alone_changeBalanceByID_fails p id envs 1 [] hnone
      obtain ⟨hresult, hworld⟩ := runTx_fails hopened hbody
      rw [hworld]
      apply iff_of_true
      · exact Truthful.of_error hresult rfl Posted.changed
      · intro b hb _ hruns
        exact absurd hruns (hnone b hb)
    obtain ⟨b, hb, hruns⟩ := hreaches
    have hcondition : p.Reported id envs w ↔
        ((envs (1 + p.calls b)).fate = .done → p.fits b = true) ∧
        ((envs (1 + p.calls b)).fate = .unanswered → p.fits b = false) := by
      constructor
      · intro h
        exact h b hb hopened hruns
      · intro h b' hb' _ _
        rw [hb] at hb'
        cases hb'
        exact h
    rw [hcondition]
    cases hfits : p.fits b with
    | false =>
      obtain ⟨log', hbody, hsame⟩ := alone_changeBalanceByID_misfit [] hb hruns hfits
      obtain ⟨hresult, hworld⟩ := runTx_ends hopened hbody
      have hunchanged : worldAfter (runTx (changeBalanceByID .tx id p)) envs w = w := by
        rw [hworld]
        split
        · rfl
        · exact hsame
      have hcommit : 1 + p.calls b = 2 := by
        rw [UpdateBalanceByIDQuery.calls, hfits]
        rfl
      rw [hunchanged, hcommit]
      by_cases hdone : (envs 2).fate = .done
      · rw [if_pos hdone] at hresult
        apply iff_of_false
        · exact not_truthful_of_ok hresult Posted.changed
        · intro h
          cases h.1 hdone
      · rw [if_neg hdone] at hresult
        apply iff_of_true
        · exact Truthful.of_error hresult rfl Posted.changed
        · exact ⟨fun h => absurd h hdone, fun _ => rfl⟩
    | true =>
      obtain ⟨b', log', hbody, hposted⟩ := alone_changeBalanceByID_fit [] hb hruns hfits
      obtain ⟨hresult, hworld⟩ := runTx_ends hopened hbody
      have hcommit : 1 + p.calls b = 6 := by
        rw [UpdateBalanceByIDQuery.calls, hfits]
        rfl
      rw [hcommit, hworld]
      cases hfate : (envs 6).fate with
      | done =>
        simp only [hfate, if_true] at hresult
        apply iff_of_true
        · exact Truthful.of_ok hresult rfl hposted
        · exact ⟨fun _ => rfl, (fun h => by cases h)⟩
      | refused =>
        simp only [hfate, reduceCtorEq, if_false] at hresult
        apply iff_of_true
        · exact Truthful.of_error hresult rfl Posted.changed
        · exact ⟨(fun h => by cases h), (fun h => by cases h)⟩
      | unanswered =>
        simp only [hfate, reduceCtorEq, if_false] at hresult
        apply iff_of_false
        · apply not_truthful_of_lost hresult
          intro hsame
          have hkept : engine.replay log' w = w := hsame
          rw [Engine.replay_nil, hkept] at hposted
          exact Posted.changed hposted
        · intro h
          cases h.2 rfl

namespace UpdateBalancesForWithdrawal

variable (p : UpdateBalancesForWithdrawal)

def metaData (system : Balance) : MetaData :=
  [("transactionID", toString p.transactionID), ("senderWallerID", toString system.id.entityID)]

/-- The amount and the fee, from the merchant. -/
def merchantQuery (system : Balance) : UpdateBalanceByIDQuery :=
  ⟨p.operation, { p.amount with value := p.amount.value + p.serviceFee.value }, p.comment,
    p.metaData system⟩

/-- The amount, from the wallet. -/
def systemQuery (system : Balance) : UpdateBalanceByIDQuery :=
  ⟨p.operation, p.amount, p.comment, p.metaData system⟩

/-- The merchant's balance has moved by amount and fee, the wallet's by the amount. -/
def Posted (w w' : World) : Prop :=
  ∃ system merchant u, p.system = some system ∧ p.merchant = some merchant ∧
    CryptoLink.Posted merchant.id
      (p.operation.signed { p.amount with value := p.amount.value + p.serviceFee.value }) w u ∧
    CryptoLink.Posted system.id (p.operation.signed p.amount) u w'

/-- The request is valid and, once everything before the commit is answered: both
rows are in the currency of the amount if the commit is answered, and neither is if
the commit's answer is lost. -/
def Reported (envs : ℕ → Env) (w : World) : Prop :=
  ∃ system merchant, p.validate = .ok (system, merchant) ∧
    ∀ bm bs, w.balances.get merchant.id = some bm → w.balances.get system.id = some bs →
      (envs 0).fate = .done → (p.merchantQuery system).Runs envs 1 bm →
      (p.systemQuery system).Runs envs (1 + (p.merchantQuery system).calls bm) bs →
        ((envs (1 + (p.merchantQuery system).calls bm + (p.systemQuery system).calls bs)).fate =
            .done →
          (p.merchantQuery system).fits bm = true ∧ (p.systemQuery system).fits bs = true) ∧
        ((envs (1 + (p.merchantQuery system).calls bm + (p.systemQuery system).calls bs)).fate =
            .unanswered →
          (p.merchantQuery system).fits bm = false ∧ (p.systemQuery system).fits bs = false)

variable {p}

theorem Posted.length {w w' : World} (h : p.Posted w w') :
    w'.auditLog.length = w.auditLog.length + 2 := by
  obtain ⟨system, merchant, u, -, -, hmerchant, hsystem⟩ := h
  have hfirst := hmerchant.length
  have hsecond := hsystem.length
  omega

theorem Posted.changed {w : World} : ¬ p.Posted w w := by
  intro h
  have hlength := h.length
  omega

theorem validate_eq_ok {system merchant : Balance} (h : p.validate = .ok (system, merchant)) :
    p.system = some system ∧ p.merchant = some merchant ∧
      p.amount.compatibleTo p.serviceFee = true ∧ system.id ≠ merchant.id := by
  unfold validate at h
  cases hsystem : p.system with
  | none => simp [hsystem] at h
  | some s =>
    cases hmerchant : p.merchant with
    | none => simp [hsystem, hmerchant] at h
    | some m =>
      simp only [hsystem, hmerchant] at h
      split at h
      · rename_i hvalid
        split at h
        · rename_i hcompatible
          cases h
          refine ⟨rfl, rfl, hcompatible, ?_⟩
          intro hid
          have hwallet := hvalid.2.2.1
          rw [hid, hvalid.2.2.2] at hwallet
          cases hwallet
        · cases h
      · cases h

/-- The body of the transaction. -/
def body (p : UpdateBalancesForWithdrawal) (system merchant : Balance) : Call Unit :=
  ((changeBalanceByID .tx merchant.id (p.merchantQuery system)).mapError
      (quoted errInsufficienceMerchantBalance)).bind fun _ =>
    ((changeBalanceByID .tx system.id (p.systemQuery system)).mapError
      (Err.wrap "unable to update outbound wallet's balance")).bind fun _ => .ret ()

theorem updateBalancesForWithdrawal_eq {system merchant : Balance}
    (h : p.validate = .ok (system, merchant)) :
    updateBalancesForWithdrawal p = runTx (body p system merchant) := by
  obtain ⟨-, -, hcompatible, -⟩ := validate_eq_ok h
  have hadd : p.amount.add p.serviceFee =
      .ok { p.amount with value := p.amount.value + p.serviceFee.value } := by
    rw [Money.add, if_pos hcompatible]
  rw [updateBalancesForWithdrawal, h]
  simp only [hadd]
  rfl

section

variable {system merchant : Balance} {envs : ℕ → Env} {w : World} {bm bs : BalanceRow}

/-- Both changes run to their ends. -/
theorem body_runs (hne : system.id ≠ merchant.id) (hbm : w.balances.get merchant.id = some bm)
    (hbs : w.balances.get system.id = some bs) (hm : (p.merchantQuery system).Runs envs 1 bm)
    (hs : (p.systemQuery system).Runs envs (1 + (p.merchantQuery system).calls bm) bs) :
    ∃ log u, engine.alone envs (body p system merchant) 1 (running w []) =
        (.ok (), 1 + (p.merchantQuery system).calls bm + (p.systemQuery system).calls bs,
          running w log) ∧
      ((p.merchantQuery system).fits bm = true → CryptoLink.Posted merchant.id
        (p.operation.signed { p.amount with value := p.amount.value + p.serviceFee.value }) w u) ∧
      ((p.merchantQuery system).fits bm = false → u = w) ∧
      ((p.systemQuery system).fits bs = true → CryptoLink.Posted system.id
        (p.operation.signed p.amount) u (engine.replay log w)) ∧
      ((p.systemQuery system).fits bs = false → engine.replay log w = u) := by
  obtain ⟨r, log, hfirst, hmposted, hmsame⟩ :=
    alone_changeBalanceByID_runs [] hbm hm
  have hkept : (engine.replay ([] ++ log) w).balances.get system.id = some bs := by
    cases hfits : (p.merchantQuery system).fits bm with
    | true => rw [(hmposted hfits).get_of_ne hne, ← hbs, Engine.replay_nil]
    | false => rw [hmsame hfits, ← hbs, Engine.replay_nil]
  obtain ⟨r', log', hsecond, hsposted, hssame⟩ := alone_changeBalanceByID_runs _ hkept hs
  refine ⟨[] ++ log ++ log', engine.replay ([] ++ log) w, ?_, hmposted, hmsame, hsposted, hssame⟩
  unfold body
  rw [Engine.alone_bind, Engine.alone_mapError, hfirst]
  simp only [Except.mapError]
  rw [Engine.alone_bind, Engine.alone_mapError, hsecond]
  rfl

/-- The audit log has one row for each change that was made. -/
theorem length_of_changes {m k : BalanceKey} {x y : Int} {w u w' : World} {fm fs : Bool}
    (hmposted : fm = true → CryptoLink.Posted m x w u) (hmsame : fm = false → u = w)
    (hsposted : fs = true → CryptoLink.Posted k y u w') (hssame : fs = false → w' = u) :
    w'.auditLog.length =
      w.auditLog.length + (if fm = true then 1 else 0) + (if fs = true then 1 else 0) := by
  have hfirst : u.auditLog.length = w.auditLog.length + if fm = true then 1 else 0 := by
    cases fm with
    | true => exact (hmposted rfl).length
    | false =>
      rw [hmsame rfl]
      rfl
  have hsecond : w'.auditLog.length = u.auditLog.length + if fs = true then 1 else 0 := by
    cases fs with
    | true => exact (hsposted rfl).length
    | false =>
      rw [hssame rfl]
      rfl
  omega

/-- One of the two fails. -/
theorem body_fails (hne : system.id ≠ merchant.id)
    (h : ∀ bm bs, w.balances.get merchant.id = some bm → w.balances.get system.id = some bs →
      (p.merchantQuery system).Runs envs 1 bm →
      ¬ (p.systemQuery system).Runs envs (1 + (p.merchantQuery system).calls bm) bs) :
    ∃ e k log, engine.alone envs (body p system merchant) 1 (running w []) =
      (.error e, k, running w log) := by
  by_cases hm : ∃ bm, w.balances.get merchant.id = some bm ∧ (p.merchantQuery system).Runs envs 1 bm
  · obtain ⟨bm, hbm, hm⟩ := hm
    obtain ⟨r, log, hfirst, hmposted, hmsame⟩ :=
      alone_changeBalanceByID_runs [] hbm hm
    have hkept : (engine.replay ([] ++ log) w).balances.get system.id =
        w.balances.get system.id := by
      cases hfits : (p.merchantQuery system).fits bm with
      | true => rw [(hmposted hfits).get_of_ne hne, Engine.replay_nil]
      | false => rw [hmsame hfits, Engine.replay_nil]
    obtain ⟨e, k, log', hsecond⟩ := alone_changeBalanceByID_fails (p.systemQuery system) system.id
      envs (1 + (p.merchantQuery system).calls bm) ([] ++ log) (w := w) (by
        intro bs hbs
        rw [hkept] at hbs
        exact h bm bs hbm hbs hm)
    refine ⟨Err.wrap "unable to update outbound wallet's balance" e, k, log', ?_⟩
    unfold body
    rw [Engine.alone_bind, Engine.alone_mapError, hfirst]
    simp only [Except.mapError]
    rw [Engine.alone_bind, Engine.alone_mapError, hsecond]
    rfl
  · obtain ⟨e, k, log, hfirst⟩ := alone_changeBalanceByID_fails (p.merchantQuery system)
      merchant.id envs 1 [] (w := w) (fun bm hbm hruns => hm ⟨bm, hbm, hruns⟩)
    refine ⟨quoted errInsufficienceMerchantBalance e, k, log, ?_⟩
    unfold body
    rw [Engine.alone_bind, Engine.alone_mapError, hfirst]
    rfl

end

end UpdateBalancesForWithdrawal

theorem updateBalancesForWithdrawal_truthful_iff (p : UpdateBalancesForWithdrawal)
    (envs : ℕ → Env) (w : World) :
    Truthful (fun _ => True) (p.Posted w (worldAfter (updateBalancesForWithdrawal p) envs w))
      (outcome (updateBalancesForWithdrawal p) envs w) w
      (worldAfter (updateBalancesForWithdrawal p) envs w) ↔ p.Reported envs w := by
  cases hvalid : p.validate with
  | error e =>
    have hrun : updateBalancesForWithdrawal p = .ret () := by
      rw [updateBalancesForWithdrawal, hvalid]
      rfl
    rw [hrun]
    apply iff_of_false
    · exact not_truthful_of_ok rfl UpdateBalancesForWithdrawal.Posted.changed
    · rintro ⟨system, merchant, h, -⟩
      rw [hvalid] at h
      cases h
  | ok found =>
    obtain ⟨system, merchant⟩ := found
    obtain ⟨hsystem, hmerchant, -, hne⟩ := UpdateBalancesForWithdrawal.validate_eq_ok hvalid
    rw [UpdateBalancesForWithdrawal.updateBalancesForWithdrawal_eq hvalid]
    have hreported : (∀ bm bs, w.balances.get merchant.id = some bm →
        w.balances.get system.id = some bs → (envs 0).fate = .done →
        (p.merchantQuery system).Runs envs 1 bm →
        ¬ (p.systemQuery system).Runs envs (1 + (p.merchantQuery system).calls bm) bs) →
        p.Reported envs w := by
      intro hnone
      refine ⟨system, merchant, hvalid, ?_⟩
      intro bm bs hbm hbs hopened hm hs
      exact absurd hs (hnone bm bs hbm hbs hopened hm)
    by_cases hopened : (envs 0).fate = .done
    swap
    · obtain ⟨hresult, hworld⟩ := runTx_unopened (p.body system merchant) (w := w) hopened
      rw [hworld]
      apply iff_of_true
      · exact Truthful.of_error hresult rfl UpdateBalancesForWithdrawal.Posted.changed
      · exact hreported fun _ _ _ _ hdone => absurd hdone hopened
    by_cases hreaches : ∃ bm bs, w.balances.get merchant.id = some bm ∧
        w.balances.get system.id = some bs ∧ (p.merchantQuery system).Runs envs 1 bm ∧
        (p.systemQuery system).Runs envs (1 + (p.merchantQuery system).calls bm) bs
    swap
    · have hnone : ∀ bm bs, w.balances.get merchant.id = some bm →
          w.balances.get system.id = some bs → (p.merchantQuery system).Runs envs 1 bm →
          ¬ (p.systemQuery system).Runs envs (1 + (p.merchantQuery system).calls bm) bs :=
        fun bm bs hbm hbs hm hs => hreaches ⟨bm, bs, hbm, hbs, hm, hs⟩
      obtain ⟨e, k, log, hbody⟩ := UpdateBalancesForWithdrawal.body_fails hne hnone
      obtain ⟨hresult, hworld⟩ := runTx_fails hopened hbody
      rw [hworld]
      apply iff_of_true
      · exact Truthful.of_error hresult rfl UpdateBalancesForWithdrawal.Posted.changed
      · exact hreported fun bm bs hbm hbs _ => hnone bm bs hbm hbs
    obtain ⟨bm, bs, hbm, hbs, hm, hs⟩ := hreaches
    obtain ⟨log, u, hbody, hmposted, hmsame, hsposted, hssame⟩ :=
      UpdateBalancesForWithdrawal.body_runs hne hbm hbs hm hs
    obtain ⟨hresult, hworld⟩ := runTx_ends hopened hbody
    generalize hk : 1 + (p.merchantQuery system).calls bm + (p.systemQuery system).calls bs = k
      at hresult hworld
    have hcondition : p.Reported envs w ↔
        ((envs k).fate = .done →
          (p.merchantQuery system).fits bm = true ∧ (p.systemQuery system).fits bs = true) ∧
        ((envs k).fate = .unanswered →
          (p.merchantQuery system).fits bm = false ∧ (p.systemQuery system).fits bs = false) := by
      rw [← hk]
      constructor
      · rintro ⟨system', merchant', hvalid', h⟩
        rw [hvalid] at hvalid'
        cases hvalid'
        exact h bm bs hbm hbs hopened hm hs
      · intro h
        refine ⟨system, merchant, hvalid, ?_⟩
        intro bm' bs' hbm' hbs' _ _ _
        rw [hbm] at hbm'
        rw [hbs] at hbs'
        cases hbm'
        cases hbs'
        exact h
    have hlength := UpdateBalancesForWithdrawal.length_of_changes hmposted hmsame hsposted hssame
    have hposted : p.Posted w (engine.replay log w) ↔
        (p.merchantQuery system).fits bm = true ∧ (p.systemQuery system).fits bs = true := by
      constructor
      · intro h
        rw [h.length] at hlength
        split at hlength
        · rename_i hmfits
          split at hlength
          · rename_i hsfits
            exact ⟨hmfits, hsfits⟩
          · omega
        · split at hlength
          · omega
          · omega
      · rintro ⟨hmfits, hsfits⟩
        exact ⟨system, merchant, u, hsystem, hmerchant, hmposted hmfits, hsposted hsfits⟩
    have hsame : engine.replay log w = w ↔
        (p.merchantQuery system).fits bm = false ∧ (p.systemQuery system).fits bs = false := by
      constructor
      · intro h
        rw [h] at hlength
        split at hlength
        · omega
        · rename_i hmfits
          split at hlength
          · omega
          · rename_i hsfits
            exact ⟨Bool.not_eq_true _ ▸ hmfits, Bool.not_eq_true _ ▸ hsfits⟩
      · rintro ⟨hmfits, hsfits⟩
        rw [hssame hsfits, hmsame hmfits]
    rw [hcondition, hworld]
    cases hfate : (envs k).fate with
    | done =>
      simp only [hfate, if_true] at hresult
      by_cases hboth : (p.merchantQuery system).fits bm = true ∧
          (p.systemQuery system).fits bs = true
      · apply iff_of_true
        · exact Truthful.of_ok hresult trivial (hposted.mpr hboth)
        · exact ⟨fun _ => hboth, (fun h => by cases h)⟩
      · apply iff_of_false
        · exact not_truthful_of_ok hresult fun h => hboth (hposted.mp h)
        · exact fun h => hboth (h.1 rfl)
    | refused =>
      simp only [hfate, reduceCtorEq, if_false] at hresult
      apply iff_of_true
      · exact Truthful.of_error hresult rfl UpdateBalancesForWithdrawal.Posted.changed
      · exact ⟨(fun h => by cases h), (fun h => by cases h)⟩
    | unanswered =>
      simp only [hfate, reduceCtorEq, if_false] at hresult
      by_cases hneither : (p.merchantQuery system).fits bm = false ∧
          (p.systemQuery system).fits bs = false
      · apply iff_of_true
        · apply Truthful.of_error hresult (hsame.mpr hneither)
          intro h
          rw [hposted.mp h |>.1] at hneither
          cases hneither.1
        · exact ⟨(fun h => by cases h), fun _ => hneither⟩
      · apply iff_of_false
        · exact not_truthful_of_lost hresult fun h => hneither (hsame.mp h)
        · exact fun h => hneither (h.2 rfl)

/-- A change of one balance, and the two of a withdrawal, are reported as they
happened exactly on these conditions, whatever statement fails. -/
theorem balance_updates_are_reported_iff (envs : ℕ → Env) (w : World) :
    (∀ (id : BalanceKey) (p : UpdateBalanceByIDQuery),
      Truthful (fun b => b.isSome) (Posted id (p.operation.signed p.amount) w
          (worldAfter (updateBalanceByID id p) envs w))
        (outcome (updateBalanceByID id p) envs w) w (worldAfter (updateBalanceByID id p) envs w) ↔
      p.Reported id envs w) ∧
    ∀ p : UpdateBalancesForWithdrawal,
      Truthful (fun _ => True) (p.Posted w (worldAfter (updateBalancesForWithdrawal p) envs w))
        (outcome (updateBalancesForWithdrawal p) envs w) w
        (worldAfter (updateBalancesForWithdrawal p) envs w) ↔ p.Reported envs w := by
  constructor
  · intro id p
    exact updateBalanceByID_truthful_iff id p envs w
  · intro p
    exact updateBalancesForWithdrawal_truthful_iff p envs w

namespace Sample

def merchantRow : BalanceRow := ⟨merchantBalance, 0, 0, .coin, 18, 100⟩

def walletRow : BalanceRow := ⟨⟨.wallet, 2, "ETH", "1", "ETH"⟩, 0, 0, .coin, 18, 100⟩

/-- Merchant and wallet have 100 each. -/
def funded : World := { noMoney with balances := ⟨[merchantRow, walletRow], by decide⟩ }

/-- An amount in another token, to a balance in ether. -/
def misdirected : UpdateBalanceByIDQuery where
  operation := .increment
  amount := Money.crypto "USDT" 30 6
  comment := "earned"
  metaData := []

/-- The fee is in another token than the amount. -/
def mixedFee : UpdateBalancesForWithdrawal where
  operation := .decrement
  transactionID := 5
  system := some (entryToBalance walletRow)
  merchant := some (entryToBalance merchantRow)
  amount := Money.crypto "ETH" 30 18
  serviceFee := Money.crypto "USDT" 1 6
  comment := "withdrawal"

end Sample

open Sample

/-- Both calls end without an error, and nothing has been changed. -/
theorem refused_updates_are_reported_as_done :
    (¬ ∀ (id : BalanceKey) (p : UpdateBalanceByIDQuery) (envs : ℕ → Env) (w : World),
      Truthful (fun b => b.isSome) (Posted id (p.operation.signed p.amount) w
          (worldAfter (updateBalanceByID id p) envs w))
        (outcome (updateBalanceByID id p) envs w) w
        (worldAfter (updateBalanceByID id p) envs w)) ∧
    ¬ ∀ (p : UpdateBalancesForWithdrawal) (envs : ℕ → Env) (w : World),
      Truthful (fun _ => True) (p.Posted w (worldAfter (updateBalancesForWithdrawal p) envs w))
        (outcome (updateBalancesForWithdrawal p) envs w) w
        (worldAfter (updateBalancesForWithdrawal p) envs w) := by
  constructor
  · intro h
    have hreported := (updateBalanceByID_truthful_iff merchantBalance misdirected (fun _ => {})
      funded).mp (h _ _ _ _)
    have hruns : misdirected.Runs (fun _ => {}) 1 merchantRow :=
      ⟨by decide, rfl, fun hfits => absurd hfits (by decide)⟩
    have hfits := (hreported merchantRow (by decide) rfl hruns).1 rfl
    exact absurd hfits (by decide)
  · intro h
    obtain ⟨system, merchant, hvalid, -⟩ :=
      (updateBalancesForWithdrawal_truthful_iff mixedFee (fun _ => {}) funded).mp (h _ _ _)
    cases hvalid

end CryptoLink
