import CryptoLink.Library.StatementPrograms
import Mathlib.Data.List.Basic
import Mathlib.Data.List.Nodup

/-!
# Statements and transactions under READ COMMITTED

Every statement is atomic. A transaction is a private log of statements over
the committed world: its own reads replay the log, a commit replays it once
more into the world, a rollback or a crash drops it. Locks are taken when a
statement runs and held until the transaction ends. A plain read wants no
lock, so it sees the committed world and nothing of the other open
transactions.

Around its transactions a program may keep a lock in a second, otherwise empty
transaction (`keep`, `release`): the pattern of an advisory lock.
-/

namespace ReadCommitted

open StatementPrograms

inductive Conn where
  | pool
  | tx
  deriving DecidableEq

inductive Cmd (S : Type) where
  | beginTx
  | commitTx
  | rollbackTx
  | keep (s : S)
  | release
  | stmt (q : Conn) (s : S)

@[reducible] def Answer {S : Type} (R : S → Type) : Cmd S → Type
  | .beginTx => Bool
  | .commitTx => Bool
  | .rollbackTx => Unit
  | .keep _ => Bool
  | .release => Unit
  | .stmt _ s => R s

/-- What becomes of one call: it runs and is answered, it never arrives, or it
runs and its answer is lost. -/
inductive Fate where
  | done
  | refused
  | unanswered
  deriving DecidableEq, Repr

/-- An answer that may be lost: only a call that was done is answered. -/
def answered {ε α : Type} (fate : Fate) (e : ε) (x : Except ε α) : Except ε α :=
  if fate = .done then x else .error e

theorem answered_done {ε α : Type} {fate : Fate} (h : fate = .done) (e : ε) (x : Except ε α) :
    answered fate e x = x :=
  if_pos h

theorem answered_eq_ok {ε α : Type} {fate : Fate} {e : ε} {x : Except ε α} {a : α}
    (h : answered fate e x = .ok a) : fate = .done ∧ x = .ok a := by
  unfold answered at h
  split at h
  · exact ⟨‹_›, h⟩
  · cases h

/-- `E` is what the surroundings decide at one step: the clock, the network,
whether the statement arrives at all. `effect` takes the world the statement
saw and the world it is replayed into; `lasting` survives a rollback. -/
structure Engine (S : Type) (R : S → Type) (E W K : Type) where
  reply : (s : S) → E → W → R s
  effect : S → E → W → W → W
  lasting : S → E → W → W
  locks : S → E → W → List K
  opens : E → Bool
  lands : E → Bool
  acknowledged : E → Bool

structure Entry (S E W : Type) where
  stmt : S
  env : E
  seen : W

abbrev Log (S E W : Type) := List (Entry S E W)

/-- The open transaction of a program, if any, and the locks it keeps around
its transactions. -/
structure Session (S E W K : Type) where
  txn : Option (Log S E W)
  kept : List K

/-- What one program sees: the committed world and its own session. -/
structure View (S E W K : Type) where
  world : W
  session : Session S E W K

variable {S : Type} {R : S → Type} {E W K : Type} {ε α β : Type}

/-- A statement on the pool. -/
def onPool (s : S) : Prog (Cmd S) (Answer R) ε (R s) := Prog.ask (C := Cmd S) (Cmd.stmt .pool s)

def Session.idle : Session S E W K := ⟨none, []⟩

/-- The statement a call commits by itself, if it is one. -/
def Cmd.autocommits (c : Cmd S) (x : Session S E W K) : Option S :=
  match c, x.txn with
  | .stmt .pool s, _ => some s
  | .stmt .tx s, none => some s
  | _, _ => none

theorem Cmd.autocommits_of_open {s : S} {x : Session S E W K} {log : Log S E W}
    (h : x.txn = some log) : (Cmd.stmt .tx s).autocommits x = none := by
  simp [autocommits, h]

def runTransaction (beginFailed commitFailed : ε)
    (body : Prog (Cmd S) (Answer R) ε α) : Prog (Cmd S) (Answer R) ε α :=
  (Prog.ask .beginTx).bind fun opened =>
    if opened then
      body.attempt.bind fun outcome =>
        match outcome with
        | .error e => (Prog.ask .rollbackTx).bind fun _ => .fail e
        | .ok a => (Prog.ask .commitTx).bind fun committed =>
            if committed then .ret a else .fail commitFailed
    else .fail beginFailed

def withLock (lockFailed : ε) (s : S) (body : Prog (Cmd S) (Answer R) ε α) :
    Prog (Cmd S) (Answer R) ε α :=
  (Prog.ask (.keep s)).bind fun kept =>
    if kept then
      body.attempt.bind fun outcome =>
        (Prog.ask .release).bind fun _ => Prog.ofExcept outcome
    else .fail lockFailed

namespace Engine

variable (G : Engine S R E W K)

def replay (log : Log S E W) (w : W) : W :=
  log.foldl (fun w e => G.effect e.stmt e.env e.seen w) w

def inside (v : View S E W K) : W :=
  match v.session.txn with
  | none => v.world
  | some log => G.replay log v.world

def logLocks (log : Log S E W) : List K :=
  log.flatMap fun e => G.locks e.stmt e.env e.seen

def holds (x : Session S E W K) : List K :=
  x.kept ++ match x.txn with
    | none => []
    | some log => G.logLocks log

def wants (c : Cmd S) (env : E) (v : View S E W K) : List K :=
  match c with
  | .stmt .pool s => G.locks s env v.world
  | .stmt .tx s => G.locks s env (G.inside v)
  | .keep s => G.locks s env v.world
  | _ => []

/-- The statement a call executes, with what it sees. -/
def entry (c : Cmd S) (env : E) (v : View S E W K) : Option (Entry S E W) :=
  match c with
  | .stmt .pool s => some ⟨s, env, v.world⟩
  | .stmt .tx s => some ⟨s, env, G.inside v⟩
  | _ => none

def autocommit (s : S) (env : E) (w : W) : W :=
  G.effect s env w (G.lasting s env w)

/-- One call of one program, once nothing stands in its way. -/
def perform : (c : Cmd S) → E → View S E W K → Answer R c × View S E W K
  | .beginTx, env, v =>
      if G.opens env then (true, ⟨v.world, some [], v.session.kept⟩) else (false, v)
  | .commitTx, env, v =>
      match v.session.txn with
      | none => (false, v)
      | some log =>
          if G.lands env then
            (G.acknowledged env, ⟨G.replay log v.world, none, v.session.kept⟩)
          else (false, ⟨v.world, none, v.session.kept⟩)
  | .rollbackTx, _, v => ((), ⟨v.world, none, v.session.kept⟩)
  | .keep s, env, v =>
      if G.opens env then
        (true, ⟨v.world, v.session.txn, G.locks s env v.world ++ v.session.kept⟩)
      else (false, v)
  | .release, _, v => ((), ⟨v.world, v.session.txn, []⟩)
  | .stmt .pool s, env, v => (G.reply s env v.world, ⟨G.autocommit s env v.world, v.session⟩)
  | .stmt .tx s, env, v =>
      match v.session.txn with
      | none => (G.reply s env v.world, ⟨G.autocommit s env v.world, v.session⟩)
      | some log => (G.reply s env (G.inside v),
          ⟨G.lasting s env v.world, some (log ++ [⟨s, env, G.inside v⟩]), v.session.kept⟩)

theorem wants_of_entry {G : Engine S R E W K} {c : Cmd S} {env : E} {v : View S E W K}
    {e : Entry S E W} {key : K} (he : e ∈ G.entry c env v)
    (hkey : key ∈ G.locks e.stmt e.env e.seen) : key ∈ G.wants c env v := by
  cases c with
  | stmt q s =>
    cases q with
    | pool =>
      cases he
      exact hkey
    | tx =>
      cases he
      exact hkey
  | _ => cases he

@[simp] theorem replay_nil (w : W) : G.replay [] w = w := rfl

@[simp] theorem replay_append (log log' : Log S E W) (w : W) :
    G.replay (log ++ log') w = G.replay log' (G.replay log w) := by
  simp [replay, List.foldl_append]

@[simp] theorem holds_idle : G.holds (Session.idle : Session S E W K) = [] := rfl

theorem mem_holds_of_mem_log {log : Log S E W} {e : Entry S E W} {kept : List K} {key : K}
    (he : e ∈ log) (hkey : key ∈ G.locks e.stmt e.env e.seen) :
    key ∈ G.holds ⟨some log, kept⟩ :=
  List.mem_append_right _ (List.mem_flatMap.mpr ⟨e, he, hkey⟩)

/-- One program run with nothing beside it; the surroundings answer from
`envs`. -/
def alone (envs : ℕ → E) : Prog (Cmd S) (Answer R) ε α → ℕ → View S E W K →
    Except ε α × ℕ × View S E W K
  | .ret a, n, v => (.ok a, n, v)
  | .fail e, n, v => (.error e, n, v)
  | .call c k, n, v =>
      alone envs (k (G.perform c (envs n) v).1) (n + 1) (G.perform c (envs n) v).2

@[simp] theorem alone_ret (envs : ℕ → E) (a : α) (n : ℕ) (v : View S E W K) :
    G.alone envs (.ret a : Prog (Cmd S) (Answer R) ε α) n v = (.ok a, n, v) := rfl

@[simp] theorem alone_fail (envs : ℕ → E) (e : ε) (n : ℕ) (v : View S E W K) :
    G.alone envs (.fail e : Prog (Cmd S) (Answer R) ε α) n v = (.error e, n, v) := rfl

theorem alone_call (envs : ℕ → E) (c : Cmd S) (k : Answer R c → Prog (Cmd S) (Answer R) ε α)
    (n : ℕ) (v : View S E W K) :
    G.alone envs (.call c k) n v =
      G.alone envs (k (G.perform c (envs n) v).1) (n + 1) (G.perform c (envs n) v).2 := rfl

theorem alone_onPool (envs : ℕ → E) (s : S) (n : ℕ) (w : W) (x : Session S E W K) :
    G.alone envs (onPool s : Prog (Cmd S) (Answer R) ε (R s)) n ⟨w, x⟩ =
      (.ok (G.reply s (envs n) w), n + 1, ⟨G.autocommit s (envs n) w, x⟩) := rfl

theorem alone_onPool_bind (envs : ℕ → E) (s : S) (f : R s → Prog (Cmd S) (Answer R) ε α) (n : ℕ)
    (w : W) (x : Session S E W K) :
    G.alone envs ((onPool s).bind f) n ⟨w, x⟩ =
      G.alone envs (f (G.reply s (envs n) w)) (n + 1) ⟨G.autocommit s (envs n) w, x⟩ := rfl

/-- Running a sequence alone is running its parts one after the other. -/
theorem alone_bind (envs : ℕ → E) (p : Prog (Cmd S) (Answer R) ε α)
    (f : α → Prog (Cmd S) (Answer R) ε β) (n : ℕ) (v : View S E W K) :
    G.alone envs (p.bind f) n v =
      match G.alone envs p n v with
      | (.ok a, n', v') => G.alone envs (f a) n' v'
      | (.error e, n', v') => (.error e, n', v') := by
  induction p generalizing n v with
  | ret a => rfl
  | fail e => rfl
  | call c k ih =>
    simp only [Prog.call_bind, alone_call]
    exact ih _ _ _

/-- A sequence that returns alone ran its first part and then the rest. -/
theorem alone_bind_eq_ok {envs : ℕ → E} {p : Prog (Cmd S) (Answer R) ε α}
    {f : α → Prog (Cmd S) (Answer R) ε β} {n : ℕ} {v : View S E W K} {b : β}
    (h : (G.alone envs (p.bind f) n v).1 = .ok b) :
    ∃ a n' v', G.alone envs p n v = (.ok a, n', v') ∧ (G.alone envs (f a) n' v').1 = .ok b := by
  rw [alone_bind] at h
  rcases hp : G.alone envs p n v with ⟨e | a, n', v'⟩
  · rw [hp] at h
    cases h
  · rw [hp] at h
    exact ⟨a, n', v', rfl, h⟩

@[simp] theorem alone_ofExcept (envs : ℕ → E) (x : Except ε α) (n : ℕ) (v : View S E W K) :
    G.alone envs (Prog.ofExcept x : Prog (Cmd S) (Answer R) ε α) n v = (x, n, v) := by
  cases x <;> rfl

theorem alone_mapError (envs : ℕ → E) (f : ε → ε) (p : Prog (Cmd S) (Answer R) ε α) (n : ℕ)
    (v : View S E W K) :
    G.alone envs (p.mapError f) n v =
      ((G.alone envs p n v).1.mapError f, (G.alone envs p n v).2) := by
  induction p generalizing n v with
  | ret a => rfl
  | fail e => rfl
  | call c k ih =>
    simp only [Prog.mapError, alone_call]
    exact ih _ _ _

theorem error_of_alone {X : ε → Prop} {envs : ℕ → E} {p : Prog (Cmd S) (Answer R) ε α} {n : ℕ}
    {v : View S E W K} (hp : FailsOnly X p) {e : ε} (h : (G.alone envs p n v).1 = .error e) :
    X e := by
  induction p generalizing n v with
  | ret a => cases h
  | fail e' =>
    cases h
    exact hp
  | call c k ih => exact ih _ (hp _) h

theorem alone_attempt (envs : ℕ → E) (p : Prog (Cmd S) (Answer R) ε α) (n : ℕ)
    (v : View S E W K) :
    G.alone envs p.attempt n v = (.ok (G.alone envs p n v).1, (G.alone envs p n v).2) := by
  induction p generalizing n v with
  | ret a => rfl
  | fail e => rfl
  | call c k ih =>
    simp only [Prog.attempt, alone_call]
    exact ih _ _ _

/-- Every call of a program alone, with what it is answered from and the view
it is made on, meets `Q`. -/
def Calls (Q : Cmd S → E → View S E W K → Prop) (envs : ℕ → E) :
    Prog (Cmd S) (Answer R) ε α → ℕ → View S E W K → Prop
  | .ret _, _, _ => True
  | .fail _, _, _ => True
  | .call c k, n, v =>
      Q c (envs n) v ∧ Calls Q envs (k (G.perform c (envs n) v).1) (n + 1)
        (G.perform c (envs n) v).2

theorem calls_bind (Q : Cmd S → E → View S E W K → Prop) (envs : ℕ → E)
    (p : Prog (Cmd S) (Answer R) ε α) (f : α → Prog (Cmd S) (Answer R) ε β) (n : ℕ)
    (v : View S E W K) :
    G.Calls Q envs (p.bind f) n v ↔ G.Calls Q envs p n v ∧
      ∀ a, (G.alone envs p n v).1 = .ok a →
        G.Calls Q envs (f a) (G.alone envs p n v).2.1 (G.alone envs p n v).2.2 := by
  induction p generalizing n v with
  | ret a =>
    constructor
    · rintro h
      refine ⟨trivial, ?_⟩
      rintro a' ha
      cases ha
      exact h
    · rintro ⟨-, h⟩
      exact h a rfl
  | fail e =>
    constructor
    · rintro -
      refine ⟨trivial, ?_⟩
      rintro a' ha
      cases ha
    · intro _
      exact trivial
  | call c k ih =>
    have hrest := ih (G.perform c (envs n) v).1 (n + 1) (G.perform c (envs n) v).2
    constructor
    · rintro ⟨hc, h⟩
      exact ⟨⟨hc, (hrest.mp h).1⟩, (hrest.mp h).2⟩
    · rintro ⟨⟨hc, hk⟩, h⟩
      exact ⟨hc, hrest.mpr ⟨hk, h⟩⟩

theorem calls_attempt (Q : Cmd S → E → View S E W K → Prop) (envs : ℕ → E)
    (p : Prog (Cmd S) (Answer R) ε α) (n : ℕ) (v : View S E W K) :
    G.Calls Q envs p.attempt n v ↔ G.Calls Q envs p n v := by
  induction p generalizing n v with
  | ret a => exact Iff.rfl
  | fail e => exact Iff.rfl
  | call c k ih => exact and_congr_right fun _ => ih _ _ _

/-- A whole database transaction alone: its body on an empty log, then the end
its outcome asks for. -/
theorem alone_runTransaction (envs : ℕ → E) (bf cf : ε) (body : Prog (Cmd S) (Answer R) ε α)
    (n : ℕ) (w : W) (kept : List K) :
    G.alone envs (runTransaction bf cf body) n ⟨w, none, kept⟩ =
      if G.opens (envs n) then
        match G.alone envs body (n + 1) ⟨w, some [], kept⟩ with
        | (.error e, n', v') => (.error e, n' + 1, (G.perform .rollbackTx (envs n') v').2)
        | (.ok a, n', v') => (if (G.perform .commitTx (envs n') v').1 then .ok a else .error cf,
            n' + 1, (G.perform .commitTx (envs n') v').2)
      else (.error bf, n + 1, ⟨w, none, kept⟩) := by
  unfold runTransaction
  rw [alone_bind]
  by_cases ho : G.opens (envs n) = true
  · have hbegin : G.alone envs (Prog.ask (C := Cmd S) .beginTx : Prog (Cmd S) (Answer R) ε Bool) n
        ⟨w, none, kept⟩ = (.ok true, n + 1, ⟨w, some [], kept⟩) := by
      simp [Prog.ask, alone, perform, ho]
    rw [hbegin, if_pos ho]
    simp only [if_true, alone_bind, alone_attempt]
    rcases G.alone envs body (n + 1) ⟨w, some [], kept⟩ with ⟨e | a, n', v'⟩
    · rfl
    · simp only [Prog.ask, Prog.call_bind, Prog.ret_bind, alone_call]
      split <;> rfl
  · have hbegin : G.alone envs (Prog.ask (C := Cmd S) .beginTx : Prog (Cmd S) (Answer R) ε Bool) n
        ⟨w, none, kept⟩ = (.ok false, n + 1, ⟨w, none, kept⟩) := by
      simp [Prog.ask, alone, perform, ho]
    rw [hbegin, if_neg ho]
    rfl

variable {G}

/-- Everything one call can do to the committed world and to its own
transaction: commit a statement, commit the log, lengthen the log, or neither. -/
theorem perform_cases (c : Cmd S) (env : E) (v : View S E W K) :
    (∃ s, c.autocommits v.session = some s ∧
      (G.perform c env v).2 = ⟨G.autocommit s env v.world, v.session⟩) ∨
    (∃ log, c = .commitTx ∧ v.session.txn = some log ∧
      (G.perform c env v).2 = ⟨G.replay log v.world, none, v.session.kept⟩) ∨
    (∃ s log, c = .stmt .tx s ∧ v.session.txn = some log ∧
      (G.perform c env v).2 = ⟨G.lasting s env v.world,
        some (log ++ [⟨s, env, G.replay log v.world⟩]), v.session.kept⟩) ∨
    ((G.perform c env v).2.world = v.world ∧
      ((G.perform c env v).2.session.txn = v.session.txn ∨
        (G.perform c env v).2.session.txn = none ∨
        (G.perform c env v).2.session.txn = some [])) := by
  obtain ⟨w, txn, kept⟩ := v
  cases c with
  | beginTx =>
    refine .inr (.inr (.inr ?_))
    by_cases ho : G.opens env = true <;> simp [perform, ho]
  | commitTx =>
    cases txn with
    | none => exact .inr (.inr (.inr ⟨rfl, .inl rfl⟩))
    | some log =>
      by_cases hl : G.lands env = true
      · exact .inr (.inl ⟨log, rfl, rfl, by simp [perform, hl]⟩)
      · exact .inr (.inr (.inr (by simp [perform, hl])))
  | rollbackTx => exact .inr (.inr (.inr ⟨rfl, .inr (.inl rfl)⟩))
  | keep s =>
    refine .inr (.inr (.inr ?_))
    by_cases ho : G.opens env = true <;> simp [perform, ho]
  | release => exact .inr (.inr (.inr ⟨rfl, .inl rfl⟩))
  | stmt q s =>
    cases q with
    | pool => exact .inl ⟨s, rfl, rfl⟩
    | tx =>
      cases txn with
      | none => exact .inl ⟨s, rfl, rfl⟩
      | some log => exact .inr (.inr (.inl ⟨s, log, rfl, rfl, rfl⟩))

/-- The only new lock of a call is one it wanted, and only a statement of the
open transaction or a kept lock takes any. -/
theorem holds_perform {c : Cmd S} {env : E} {v : View S E W K} {key : K}
    (h : key ∈ G.holds (G.perform c env v).2.session) :
    key ∈ G.holds v.session ∨
      key ∈ G.wants c env v ∧ (∀ s, c ≠ .stmt .pool s) := by
  obtain ⟨w, txn, kept⟩ := v
  cases c with
  | beginTx =>
    by_cases ho : G.opens env = true
    · exact .inl (List.mem_append_left _ (by simpa [perform, ho, holds, logLocks] using h))
    · exact .inl (by simpa [perform, ho] using h)
  | commitTx =>
    cases txn with
    | none => exact .inl h
    | some log =>
      by_cases hl : G.lands env = true <;>
        exact .inl (List.mem_append_left _ (by simpa [perform, hl, holds] using h))
  | rollbackTx => exact .inl (List.mem_append_left _ (by simpa [perform, holds] using h))
  | keep s =>
    by_cases ho : G.opens env = true
    · simp only [perform, ho, if_true, holds, List.append_assoc, List.mem_append] at h
      rcases h with h | h
      · exact .inr ⟨h, by simp⟩
      · exact .inl (by simpa [holds] using h)
    · exact .inl (by simpa [perform, ho] using h)
  | release => exact .inl (List.mem_append_right _ (by simpa [perform, holds] using h))
  | stmt q s =>
    cases q with
    | pool => exact .inl h
    | tx =>
      cases txn with
      | none => exact .inl h
      | some log =>
        simp only [perform, holds, logLocks, List.flatMap_append, List.mem_append] at h
        rcases h with h | h | h
        · exact .inl (List.mem_append_left _ h)
        · exact .inl (List.mem_append_right _ h)
        · exact .inr ⟨by simpa [wants] using h, by simp⟩

end Engine

namespace Engine

variable {G : Engine S R E W K} {P : S → Prop} {J : W → Prop}

theorem replay_keeps (heffect : ∀ s env seen w, P s → J w → J (G.effect s env seen w))
    {log : Log S E W} (hlog : ∀ e ∈ log, P e.stmt) {w : W} (hw : J w) : J (G.replay log w) := by
  induction log generalizing w with
  | nil => exact hw
  | cons e log ih =>
    have hfirst := heffect e.stmt e.env e.seen w (hlog e List.mem_cons_self) hw
    exact ih (fun e' he' => hlog e' (List.mem_cons_of_mem _ he')) hfirst

/-- The committed world satisfies `J`, and the open transaction has only run
statements in `P`. -/
structure Within (P : S → Prop) (J : W → Prop) (v : View S E W K) : Prop where
  world : J v.world
  log : ∀ log, v.session.txn = some log → ∀ e ∈ log, P e.stmt

theorem within_idle {w : W} (h : J w) : Within P J (⟨w, .idle⟩ : View S E W K) :=
  ⟨h, fun _ hlog => by cases hlog⟩

theorem Within.perform (heffect : ∀ s env seen w, P s → J w → J (G.effect s env seen w))
    (hlasting : ∀ s env w, P s → J w → J (G.lasting s env w)) {v : View S E W K}
    (hv : Within P J v)
    {c : Cmd S} (hc : ∀ q s, c = .stmt q s → P s) (env : E) :
    Within P J (G.perform c env v).2 := by
  obtain ⟨w, txn, kept⟩ := v
  cases c with
  | beginTx =>
    by_cases ho : G.opens env = true
    · simp only [Engine.perform, ho, if_true]
      refine ⟨hv.world, fun log hlog e he => ?_⟩
      cases hlog
      cases he
    · simp only [Engine.perform, ho]
      exact hv
  | commitTx =>
    cases txn with
    | none => exact hv
    | some log =>
      by_cases hl : G.lands env = true
      · simp only [Engine.perform, hl, if_true]
        exact ⟨replay_keeps heffect (hv.log log rfl) hv.world, fun _ hlog => by cases hlog⟩
      · simp only [Engine.perform, hl]
        exact ⟨hv.world, fun _ hlog => by cases hlog⟩
  | rollbackTx => exact ⟨hv.world, fun _ hlog => by cases hlog⟩
  | keep s =>
    by_cases ho : G.opens env = true <;> simp only [Engine.perform, ho] <;>
      exact ⟨hv.world, hv.log⟩
  | release => exact ⟨hv.world, hv.log⟩
  | stmt q s =>
    have hauto : J (G.autocommit s env w) :=
      heffect s env w _ (hc q s rfl) (hlasting s env w (hc q s rfl) hv.world)
    cases q with
    | pool => exact ⟨hauto, hv.log⟩
    | tx =>
      cases txn with
      | none => exact ⟨hauto, hv.log⟩
      | some log =>
        refine ⟨hlasting s env w (hc .tx s rfl) hv.world, fun log' hlog' e he => ?_⟩
        cases hlog'
        rcases List.mem_append.mp he with hold | hnew
        · exact hv.log log rfl e hold
        · obtain rfl := List.mem_singleton.mp hnew
          exact hc .tx s rfl

/-- A program all of whose statements keep `J` keeps it. -/
theorem Within.alone (heffect : ∀ s env seen w, P s → J w → J (G.effect s env seen w))
    (hlasting : ∀ s env w, P s → J w → J (G.lasting s env w))
    {p : Prog (Cmd S) (Answer R) ε α} (hp : Issues (fun c => ∀ q s, c = .stmt q s → P s) p)
    (envs : ℕ → E) {n : ℕ} {v : View S E W K} (hv : Within P J v) :
    Within P J (G.alone envs p n v).2.2 := by
  induction p generalizing n v with
  | ret a => exact hv
  | fail e => exact hv
  | call c k ih =>
    rw [alone_call]
    exact ih _ (hp.2 _) (hv.perform heffect hlasting hp.1 (envs n))

end Engine

/-- No statement changes `get` without the lock `key`. -/
structure Framed {ρ : Type} (G : Engine S R E W K) (get : W → ρ) (key : K) : Prop where
  effect : ∀ s env seen w, key ∉ G.locks s env seen → get (G.effect s env seen w) = get w
  lasting : ∀ s env w, get (G.lasting s env w) = get w

namespace Framed

variable {ρ : Type} {G : Engine S R E W K} {get : W → ρ} {key : K}

theorem replay (h : Framed G get key) {log : Log S E W} (hlog : key ∉ G.logLocks log) (w : W) :
    get (G.replay log w) = get w := by
  induction log generalizing w with
  | nil => rfl
  | cons e log ih =>
    simp only [Engine.logLocks, List.flatMap_cons, List.mem_append, not_or] at hlog
    have hrest : get (G.replay log (G.effect e.stmt e.env e.seen w)) =
        get (G.effect e.stmt e.env e.seen w) := ih hlog.2 _
    exact hrest.trans (h.effect _ _ _ _ hlog.1)

theorem autocommit (h : Framed G get key) {s : S} {env : E} {w : W}
    (hw : key ∉ G.locks s env w) : get (G.autocommit s env w) = get w :=
  (h.effect _ _ _ _ hw).trans (h.lasting _ _ _)

theorem perform (h : Framed G get key) {c : Cmd S} {env : E} {v : View S E W K}
    (hheld : key ∉ G.holds v.session) (hwant : key ∉ G.wants c env v) :
    get (G.perform c env v).2.world = get v.world := by
  obtain ⟨w, txn, kept⟩ := v
  cases c with
  | beginTx => by_cases ho : G.opens env = true <;> simp [Engine.perform, ho]
  | commitTx =>
    cases txn with
    | none => rfl
    | some log =>
      by_cases hl : G.lands env = true
      · have hlog : key ∉ G.logLocks log := fun hk => hheld (List.mem_append_right _ hk)
        simpa [Engine.perform, hl] using h.replay hlog w
      · simp [Engine.perform, hl]
  | rollbackTx => rfl
  | keep s => by_cases ho : G.opens env = true <;> simp [Engine.perform, ho]
  | release => rfl
  | stmt q s =>
    cases q with
    | pool => exact h.autocommit hwant
    | tx =>
      cases txn with
      | none => exact h.autocommit hwant
      | some log => exact h.lasting _ _ _

end Framed

end ReadCommitted
