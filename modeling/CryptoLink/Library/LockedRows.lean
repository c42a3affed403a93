import CryptoLink.Library.Protocols

/-!
# Transactions over locked rows

The rows a transaction has locked keep still until it ends, and all others may
change at any time. What the transaction makes of the committed world is
therefore said of every world that agrees with it on the locked rows: such a
statement can be made when a row is locked, and is still there at the commit.
-/

namespace ReadCommitted

open StatementPrograms ReadCommitted.System

variable {S : Type} {R : S → Type} {E W K : Type} {ε κ M ι ρ α β : Type}

/-- `get i` is a row: nothing changes it without its lock, and what a statement
makes of it depends on the row alone. -/
structure Rows (G : Engine S R E W K) (get : ι → W → ρ) (key : ι → K) : Prop where
  framed : ∀ i, Framed G (get i) (key i)
  alone : ∀ i s env seen w w', get i w = get i w' →
    get i (G.effect s env seen w) = get i (G.effect s env seen w')

/-- The rows locked by the session are the same in both worlds. -/
def Agrees (G : Engine S R E W K) (get : ι → W → ρ) (key : ι → K) (x : Session S E W K)
    (w w' : W) : Prop :=
  ∀ i, key i ∈ G.holds x → get i w' = get i w

/-- Whatever becomes of the rows it has not locked, the open transaction makes
of a world what `φ` says. -/
def Through (G : Engine S R E W K) (get : ι → W → ρ) (key : ι → K) (φ : W → W → Prop)
    (v : View S E W K) : Prop :=
  ∃ log, v.session.txn = some log ∧
    ∀ w, Agrees G get key v.session v.world w → φ w (G.replay log w)

variable {G : Engine S R E W K} {get : ι → W → ρ} {key : ι → K} {φ ψ : W → W → Prop}

theorem Agrees.refl (x : Session S E W K) (w : W) : Agrees G get key x w w := fun _ _ => rfl

theorem Agrees.trans {x : Session S E W K} {u v w : W} (h : Agrees G get key x u v)
    (h' : Agrees G get key x v w) : Agrees G get key x u w :=
  fun i hi => (h' i hi).trans (h i hi)

theorem Rows.replay_congr (hrows : Rows G get key) (i : ι) (log : Log S E W) {w w' : W}
    (h : get i w = get i w') : get i (G.replay log w) = get i (G.replay log w') := by
  induction log generalizing w w' with
  | nil => exact h
  | cons e log ih => exact ih (hrows.alone i e.stmt e.env e.seen w w' h)

/-- One more entry: the locks there were, and its own. -/
theorem mem_holds_append {log : Log S E W} {e : Entry S E W} {kept : List K} {k : K} :
    k ∈ G.holds ⟨some (log ++ [e]), kept⟩ ↔
      k ∈ G.holds ⟨some log, kept⟩ ∨ k ∈ G.locks e.stmt e.env e.seen := by
  simp [Engine.holds, Engine.logLocks, or_assoc]

namespace Through

variable {v v' : View S E W K}

theorem stable (h : Through G get key φ v) (hsession : v'.session = v.session)
    (hagrees : Agrees G get key v.session v.world v'.world) : Through G get key φ v' := by
  obtain ⟨log, hlog, hall⟩ := h
  refine ⟨log, hsession ▸ hlog, ?_⟩
  intro w hw
  rw [hsession] at hw
  exact hall w (hagrees.trans hw)

theorem mono (h : Through G get key φ v) (himp : ∀ w u, φ w u → ψ w u) :
    Through G get key ψ v := by
  obtain ⟨log, hlog, hall⟩ := h
  exact ⟨log, hlog, fun w hw => himp w _ (hall w hw)⟩

theorem start (w : W) (kept : List K) :
    Through G get key (fun w u => u = w) ⟨w, some [], kept⟩ :=
  ⟨[], rfl, fun _ _ => rfl⟩

/-- One more statement: the rows it locks are what it saw. -/
theorem append (hrows : Rows G get key) {s : S} {env : E} {w : W} {log : Log S E W}
    {kept : List K} (h : Through G get key φ ⟨w, some log, kept⟩)
    (hstep : ∀ w' u, (∀ i, key i ∈ G.locks s env (G.replay log w) →
        get i u = get i (G.replay log w)) →
      φ w' u → ψ w' (G.effect s env (G.replay log w) u)) :
    Through G get key ψ
      ⟨G.lasting s env w, some (log ++ [⟨s, env, G.replay log w⟩]), kept⟩ := by
  obtain ⟨log', hlog', hall⟩ := h
  obtain rfl : log = log' := Option.some.inj hlog'
  refine ⟨_, rfl, ?_⟩
  intro w' hw'
  have hagrees : ∀ i, key i ∈ G.holds (⟨some (log ++ [⟨s, env, G.replay log w⟩]), kept⟩ :
      Session S E W K) → get i w' = get i w := by
    intro i hi
    exact (hw' i hi).trans ((hrows.framed i).lasting s env w)
  have hbefore := hall w' fun i hi => hagrees i (mem_holds_append.mpr (.inl hi))
  have hreplay : G.replay (log ++ [⟨s, env, G.replay log w⟩]) w' =
      G.effect s env (G.replay log w) (G.replay log w') := by
    rw [Engine.replay, List.foldl_append]
    rfl
  rw [hreplay]
  refine hstep w' _ ?_ hbefore
  intro i hi
  exact hrows.replay_congr i log (hagrees i (mem_holds_append.mpr (.inr hi)))

end Through

/-- The others leave locked rows alone, and every call keeps `J` of the
committed world. -/
def lockProtocol (G : Engine S R E W K) (get : ι → W → ρ) (key : ι → K) (J : W → Prop) :
    Protocol S R E W K κ where
  rely _ v v' := v'.session = v.session ∧ Agrees G get key v.session v.world v'.world
  admits _ _ _ _ := True
  guar _ _ v _ v' := J v.world → J v'.world
  rely_refl _ _ := ⟨rfl, .refl _ _⟩
  rely_trans h h' := ⟨h'.1.trans h.1, h.2.trans (h.1 ▸ h'.2)⟩

namespace Locked

variable {J : W → Prop} {l : κ} {v : View S E W K}
  {Q : Except ε β → View S E W K → Prop}

/-- A statement of the open transaction. -/
theorem tx_meets (hrows : Rows G get key) {s : S} {f : R s → Prog (Cmd S) (Answer R) ε β}
    (hv : Through G get key φ v) (hlasting : ∀ env w, J w → J (G.lasting s env w))
    (h : ∀ env seen v', (∀ ψ : W → W → Prop,
        (∀ w u, (∀ i, key i ∈ G.locks s env seen → get i u = get i seen) → φ w u →
          ψ w (G.effect s env seen u)) → Through G get key ψ v') →
      Meets ((lockProtocol G get key J).setting G l) Q (f (G.reply s env seen)) v') :
    Meets ((lockProtocol G get key J).setting G l) Q
      ((Prog.ask (C := Cmd S) (.stmt .tx s)).bind f) v := by
  obtain ⟨world, txn, kept⟩ := v
  obtain ⟨log, hlog, -⟩ := id hv
  have htxn : txn = some log := hlog
  subst htxn
  refine Protocol.tx_bind hlog (fun _ hrely => hrely.1) ?_
  intro w env hrely _
  refine ⟨hlasting env w, h env _ _ ?_⟩
  intro ψ hstep
  exact (hv.stable hrely.1 hrely.2).append hrows hstep

/-- A statement on the pool that touches no row. -/
theorem pool_meets {s : S} {f : R s → Prog (Cmd S) (Answer R) ε β}
    (hv : Through G get key φ v) (hJ : ∀ env w, J w → J (G.autocommit s env w))
    (hget : ∀ env w i, get i (G.autocommit s env w) = get i w)
    (h : ∀ env w v', Through G get key φ v' →
      Meets ((lockProtocol G get key J).setting G l) Q (f (G.reply s env w)) v') :
    Meets ((lockProtocol G get key J).setting G l) Q
      ((Prog.ask (C := Cmd S) (.stmt .pool s)).bind f) v := by
  refine Protocol.pool_bind (fun _ hrely => hrely.1) ?_
  intro w env hrely _
  refine ⟨hJ env w, h env w _ ?_⟩
  have hstable : Through G get key φ ⟨w, v.session⟩ := hv.stable rfl hrely.2
  exact hstable.stable rfl fun i _ => hget env w i

/-- A statement on the pool, whatever it does. -/
theorem pool_keeps {s : S} {f : R s → Prog (Cmd S) (Answer R) ε β}
    (hJ : ∀ env w, J w → J (G.autocommit s env w))
    (h : ∀ env w v', Meets ((lockProtocol G get key J).setting G l) Q (f (G.reply s env w)) v') :
    Meets ((lockProtocol G get key J).setting G l) Q
      ((Prog.ask (C := Cmd S) (.stmt .pool s)).bind f) v := by
  refine Protocol.pool_bind (fun _ hrely => hrely.1) ?_
  intro w env _ _
  exact ⟨hJ env w, h env w _⟩

/-- A statement that matters neither to `J` nor to any row, nor to what the
transaction makes of the world. -/
structure Aloof (G : Engine S R E W K) (get : ι → W → ρ) (J : W → Prop) (φ : W → W → Prop)
    (s : S) : Prop where
  lasting : ∀ env w, J w → J (G.lasting s env w)
  autocommit : ∀ env w, J w → J (G.autocommit s env w)
  get : ∀ env w i, get i (G.autocommit s env w) = get i w
  effect : ∀ env seen w u, φ w u → φ w (G.effect s env seen u)

/-- A piece of a transaction made of aloof statements. -/
theorem aloof_meets (hrows : Rows G get key) {p : Prog (Cmd S) (Answer R) ε β}
    (hp : Issues (fun c => ∃ q s, c = .stmt q s ∧ Aloof G get J φ s) p)
    (hv : Through G get key φ v) :
    Meets ((lockProtocol G get key J).setting G l) (fun _ => Through G get key φ) p v := by
  induction p generalizing v with
  | ret a => exact Meets.ret fun _ hrely => hv.stable hrely.1 hrely.2
  | fail e => exact Meets.fail fun _ hrely => hv.stable hrely.1 hrely.2
  | call c k ih =>
    obtain ⟨⟨q, s, rfl, hs⟩, hk⟩ := hp
    cases q with
    | pool =>
      refine pool_meets (f := k) hv hs.autocommit hs.get ?_
      intro env w v' hv'
      exact ih _ (hk _) hv'
    | tx =>
      refine tx_meets (f := k) hrows hv hs.lasting ?_
      intro env seen v' hv'
      exact ih _ (hk _) (hv' φ fun w u _ hφ => hs.effect env seen w u hφ)

/-- A whole transaction, if what its body makes of the world keeps `J`. -/
theorem runTransaction_meets {bf cf : ε} {body : Prog (Cmd S) (Answer R) ε β}
    (hbody : ∀ v', Through G get key (fun w u => u = w) v' →
      Meets ((lockProtocol G get key J).setting G l) (fun x t => match x with
        | .ok _ => Through G get key φ t
        | .error _ => True) body v')
    (hφ : ∀ w u, φ w u → J w → J u) :
    Meets ((lockProtocol G get key J).setting G l) (fun _ _ => True)
      (runTransaction bf cf body) v := by
  refine Protocol.runTransaction ?_
  intro v₁ env _ _
  have hbegin : (G.perform .beginTx env v₁).2.world = v₁.world := by
    by_cases ho : G.opens env = true
    · simp [Engine.perform, ho]
    · simp [Engine.perform, ho]
  refine ⟨fun hJ => hbegin.symm ▸ hJ, ?_⟩
  split
  · refine (hbody _ (.start _ _)).mono ?_
    intro x t ht
    cases x with
    | error e =>
      refine Meets.ask_bind ?_
      rintro v₂ - r t' ⟨env', -, hdo⟩
      cases hdo
      exact ⟨fun hJ => hJ, Meets.fail fun _ _ => trivial⟩
    | ok a =>
      refine Meets.ask_bind ?_
      rintro ⟨w, session⟩ hrely r t' ⟨env', -, hdo⟩
      have hlast : Through G get key φ ⟨w, session⟩ := ht.stable hrely.1 hrely.2
      obtain ⟨log, hlog, hall⟩ := hlast
      have hend : ∀ b : Bool, Meets ((lockProtocol G get key J).setting G l) (fun _ _ => True)
          (if b = true then .ret a else .fail cf : Prog (Cmd S) (Answer R) ε β) t' := by
        intro b
        split
        · exact Meets.ret fun _ _ => trivial
        · exact Meets.fail fun _ _ => trivial
      refine ⟨?_, hend r⟩
      intro hJ
      have hlog' : session.txn = some log := hlog
      by_cases hl : G.lands env' = true
      · simp only [Engine.perform, hlog', hl, if_true] at hdo
        cases hdo
        exact hφ w _ (hall w (.refl _ _)) hJ
      · simp only [Engine.perform, hlog', hl] at hdo
        cases hdo
        exact hJ
  · exact fun _ _ => trivial

variable {Y : System S R E W K ε κ M}

/-- Nothing is locked twice, every call still meets its protocol, and `J`
holds. -/
structure Kept (Y : System S R E W K ε κ M) (get : ι → W → ρ) (key : ι → K) (J : W → Prop)
    (cfg : Config S R E W K ε κ) : Prop where
  exclusive : Exclusive Y cfg
  keeps : Keeps Y (lockProtocol Y.engine get key J) cfg
  holds : J cfg.world

theorem kept_of_no_threads {w : W} (h : J w) :
    Kept Y get key J (⟨w, []⟩ : Config S R E W K ε κ) :=
  ⟨exclusive_of_no_threads Y w, keeps_of_no_threads w, h⟩

variable [DecidableEq K]

theorem kept_step (hrows : Rows Y.engine get key)
    (hprogram : ∀ l w, Meets ((lockProtocol Y.engine get key J).setting Y.engine l)
      (fun _ _ => True) (Y.program l) ⟨w, .idle⟩)
    (hmove : ∀ m w, (J w → J (Y.move m w)) ∧ ∀ i, get i (Y.move m w) = get i w)
    {cfg : Config S R E W K ε κ} (h : Kept Y get key J cfg) (e : Event E M κ) :
    Kept Y get key J (Y.step cfg e) := by
  refine ⟨h.exclusive.step e, ?_, ?_⟩
  · cases e with
    | start l => exact h.keeps.start (hprogram l _)
    | crash i => exact h.keeps.crash i
    | move m => exact h.keeps.move fun _ _ _ => ⟨rfl, fun i _ => (hmove m cfg.world).2 i⟩
    | exec i env =>
      refine h.keeps.exec (fun _ _ _ _ => trivial) ?_
      intro th c k hex j other hne hj
      exact ⟨rfl, fun i' hheld =>
        hex.get_of_held h.exclusive (hrows.framed i') hj hne hheld⟩
  · cases e with
    | start l => exact h.holds
    | crash i =>
      rw [System.step]
      split
      · exact h.holds
      · exact h.holds
    | move m => exact (hmove m cfg.world).1 h.holds
    | exec i env =>
      rcases exec_cases Y cfg i env with hsame | ⟨th, c, k, hex⟩
      · rw [hsame]
        exact h.holds
      · rw [hex.step_eq]
        exact (h.keeps.executes hex trivial).1 h.holds

theorem kept_run (hrows : Rows Y.engine get key)
    (hprogram : ∀ l w, Meets ((lockProtocol Y.engine get key J).setting Y.engine l)
      (fun _ _ => True) (Y.program l) ⟨w, .idle⟩)
    (hmove : ∀ m w, (J w → J (Y.move m w)) ∧ ∀ i, get i (Y.move m w) = get i w)
    {cfg : Config S R E W K ε κ} (h : Kept Y get key J cfg) (es : List (Event E M κ)) :
    Kept Y get key J (Y.run cfg es) := by
  induction es generalizing cfg with
  | nil => exact h
  | cons e es ih => exact ih (kept_step hrows hprogram hmove h e)

end Locked

end ReadCommitted
