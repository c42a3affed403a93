import CryptoLink.Library.Interleaving

/-!
# What lands

A call changes the committed world only through the statements it lands: its
own, when no transaction is open, or those of the log it commits. A relation
between worlds that every landing statement keeps is kept by every run.
-/

namespace ReadCommitted

open StatementPrograms

variable {S : Type} {R : S → Type} {E W K : Type} {ε κ M : Type}

namespace Engine

variable (G : Engine S R E W K)

/-- The statements a call writes into the committed world. -/
def landing (c : Cmd S) (env : E) (v : View S E W K) : Log S E W :=
  match c, v.session.txn with
  | .commitTx, some log => if G.lands env then log else []
  | .stmt .pool s, _ => [⟨s, env, v.world⟩]
  | .stmt .tx s, none => [⟨s, env, v.world⟩]
  | _, _ => []

/-- The world they are written into: only what no rollback takes back is there
before. -/
def ground (c : Cmd S) (env : E) (v : View S E W K) : W :=
  match c with
  | .stmt _ s => G.lasting s env v.world
  | _ => v.world

theorem perform_world (c : Cmd S) (env : E) (v : View S E W K) :
    (G.perform c env v).2.world = G.replay (G.landing c env v) (G.ground c env v) := by
  obtain ⟨w, txn, kept⟩ := v
  cases c with
  | beginTx =>
    by_cases ho : G.opens env = true
    · simp [perform, landing, ground, ho]
    · simp [perform, landing, ground, ho]
  | commitTx =>
    cases txn with
    | none => rfl
    | some log =>
      by_cases hl : G.lands env = true
      · simp [perform, landing, ground, hl]
      · simp [perform, landing, ground, hl]
  | rollbackTx => rfl
  | keep s =>
    by_cases ho : G.opens env = true
    · simp [perform, landing, ground, ho]
    · simp [perform, landing, ground, ho]
  | release => rfl
  | stmt q s =>
    cases q with
    | pool => rfl
    | tx =>
      cases txn with
      | none => rfl
      | some log => rfl

/-- Every entry of a log meets `ok` in the world it is written into. -/
def EachLands (ok : Entry S E W → W → Prop) : Log S E W → W → Prop
  | [], _ => True
  | e :: log, w => ok e w ∧ EachLands ok log (G.effect e.stmt e.env e.seen w)

instance EachLands.decidable (ok : Entry S E W → W → Prop) [∀ e w, Decidable (ok e w)] :
    (log : Log S E W) → (w : W) → Decidable (G.EachLands ok log w)
  | [], _ => isTrue trivial
  | e :: log, w =>
      have := EachLands.decidable ok log (G.effect e.stmt e.env e.seen w)
      inferInstanceAs (Decidable (ok e w ∧ G.EachLands ok log (G.effect e.stmt e.env e.seen w)))

theorem eachLands_true (log : Log S E W) (w : W) : G.EachLands (fun _ _ => True) log w := by
  induction log generalizing w with
  | nil => exact trivial
  | cons e log ih => exact ⟨trivial, ih _⟩

variable {G}

/-- What each entry is, each entry that lands is besides. -/
theorem EachLands.and {ok ok' : Entry S E W → W → Prop} {log : Log S E W} {w : W}
    (h : G.EachLands ok log w) (h' : G.EachLands ok' log w) :
    G.EachLands (fun e u => ok e u ∧ ok' e u) log w := by
  induction log generalizing w with
  | nil => exact trivial
  | cons e log ih => exact ⟨⟨h.1, h'.1⟩, ih h.2 h'.2⟩

theorem eachLands_of_forall {ok : Entry S E W → W → Prop} {log : Log S E W}
    (h : ∀ e ∈ log, ∀ w, ok e w) (w : W) : G.EachLands ok log w := by
  induction log generalizing w with
  | nil => exact trivial
  | cons e log ih =>
    exact ⟨h e List.mem_cons_self w, ih (fun e' he' => h e' (List.mem_cons_of_mem _ he')) _⟩

/-- A call lands nothing but statements it may run. -/
theorem Within.landing {P : S → Prop} {J : W → Prop} {v : View S E W K} (hv : Within P J v)
    {c : Cmd S} (hc : ∀ q s, c = .stmt q s → P s) (env : E) :
    ∀ e ∈ G.landing c env v, P e.stmt := by
  obtain ⟨w, txn, kept⟩ := v
  intro e he
  cases c with
  | commitTx =>
    cases txn with
    | none => cases he
    | some log =>
      by_cases hl : G.lands env = true
      · simp only [Engine.landing, if_pos hl] at he
        exact hv.log log rfl e he
      · simp only [Engine.landing, if_neg hl] at he
        cases he
  | stmt q s =>
    cases q with
    | pool =>
      obtain rfl := List.mem_singleton.mp he
      exact hc .pool s rfl
    | tx =>
      cases txn with
      | none =>
        obtain rfl := List.mem_singleton.mp he
        exact hc .tx s rfl
      | some log => cases he
  | beginTx => cases he
  | rollbackTx => cases he
  | keep s => cases he
  | release => cases he

/-- The statements in `P` keep `rel` where they land as `ok` wants them. -/
structure Steady (G : Engine S R E W K) (P : S → Prop) (ok : Entry S E W → W → Prop)
    (rel : W → W → Prop) : Prop where
  refl : ∀ w, rel w w
  trans : ∀ {u v w}, rel u v → rel v w → rel u w
  effect : ∀ e w, P e.stmt → ok e w → rel w (G.effect e.stmt e.env e.seen w)
  lasting : ∀ s env w, P s → rel w (G.lasting s env w)

namespace Steady

variable {P : S → Prop} {ok : Entry S E W → W → Prop} {rel : W → W → Prop}

theorem replay (h : G.Steady P ok rel) {log : Log S E W} (hlog : ∀ e ∈ log, P e.stmt) {w : W}
    (hok : G.EachLands ok log w) : rel w (G.replay log w) := by
  induction log generalizing w with
  | nil => exact h.refl w
  | cons e log ih =>
    have hfirst := h.effect e w (hlog e List.mem_cons_self) hok.1
    exact h.trans hfirst (ih (fun e' he' => hlog e' (List.mem_cons_of_mem _ he')) hok.2)

theorem perform (h : G.Steady P ok rel) {v : View S E W K} {J : W → Prop}
    (hv : Within P J v) {c : Cmd S} (hc : ∀ q s, c = .stmt q s → P s) {env : E}
    (hok : G.EachLands ok (G.landing c env v) (G.ground c env v)) :
    rel v.world (G.perform c env v).2.world := by
  have hground : rel v.world (G.ground c env v) := by
    cases c with
    | stmt q s => exact h.lasting s env v.world (hc q s rfl)
    | beginTx => exact h.refl _
    | commitTx => exact h.refl _
    | rollbackTx => exact h.refl _
    | keep s => exact h.refl _
    | release => exact h.refl _
  rw [Engine.perform_world]
  exact h.trans hground (h.replay (hv.landing hc env) hok)

end Steady

end Engine

namespace System

variable (Y : System S R E W K ε κ M)

section

variable [DecidableEq K]

/-- Whatever the event lands meets `ok` where it lands. -/
def Landing (ok : Entry S E W → W → Prop) (cfg : Config S R E W K ε κ) (e : Event E M κ) : Prop :=
  ∀ a ∈ Y.executing cfg e, Y.engine.EachLands ok
    (Y.engine.landing a.cmd a.env (a.thread.view cfg.world))
    (Y.engine.ground a.cmd a.env (a.thread.view cfg.world))

instance Landing.decidable (ok : Entry S E W → W → Prop) [∀ e w, Decidable (ok e w)]
    (cfg : Config S R E W K ε κ) (e : Event E M κ) : Decidable (Y.Landing ok cfg e) :=
  inferInstanceAs (Decidable (∀ a ∈ Y.executing cfg e, Y.engine.EachLands ok
    (Y.engine.landing a.cmd a.env (a.thread.view cfg.world))
    (Y.engine.ground a.cmd a.env (a.thread.view cfg.world))))

end

/-- The programs run statements in `P` only, and each of these keeps `rel` where
it lands as `ok` wants it. -/
structure Keeper (P : S → Prop) (ok : Entry S E W → W → Prop) (rel : W → W → Prop) : Prop where
  refl : ∀ w, rel w w
  trans : ∀ {u v w}, rel u v → rel v w → rel u w
  program : ∀ l, Issues (fun c => ∀ q s, c = .stmt q s → P s) (Y.program l)
  effect : ∀ e w, P e.stmt → ok e w → rel w (Y.engine.effect e.stmt e.env e.seen w)
  lasting : ∀ s env w, P s → rel w (Y.engine.lasting s env w)
  move : ∀ m w, rel w (Y.move m w)

/-- What is left of every call, and what it has run already, is in `P`. -/
def Issued (P : S → Prop) (cfg : Config S R E W K ε κ) : Prop :=
  ∀ (i : ℕ) (th : Thread S R E W K ε κ), cfg.threads[i]? = some th →
    Issues (fun c => ∀ q s, c = .stmt q s → P s) th.prog ∧
      Engine.Within P (fun _ => True) (th.view cfg.world)

theorem issued_of_no_threads (P : S → Prop) (w : W) :
    Issued P (⟨w, []⟩ : Config S R E W K ε κ) := by
  intro i th hi
  simp at hi

theorem issued_always (cfg : Config S R E W K ε κ) : Issued (fun _ => True) cfg := fun _ _ _ =>
  ⟨Issues.always fun _ _ _ _ => trivial, trivial, fun _ _ _ _ => trivial⟩

variable {Y} {P : S → Prop} {ok : Entry S E W → W → Prop} {rel : W → W → Prop}
  {cfg : Config S R E W K ε κ}

namespace Keeper

theorem steady (h : Keeper Y P ok rel) : Y.engine.Steady P ok rel :=
  ⟨h.refl, h.trans, h.effect, h.lasting⟩

theorem of_steady (h : Y.engine.Steady P ok rel)
    (hprogram : ∀ l, Issues (fun c => ∀ q s, c = .stmt q s → P s) (Y.program l))
    (hmove : ∀ m w, rel w (Y.move m w)) : Keeper Y P ok rel :=
  ⟨h.refl, h.trans, hprogram, h.effect, h.lasting, hmove⟩

variable [DecidableEq K]

theorem issued (h : Keeper Y P ok rel) (hcfg : Issued P cfg) (e : Event E M κ) :
    Issued P (Y.step cfg e) := by
  cases e with
  | start l =>
    intro j x hj
    simp only [System.step, List.getElem?_append] at hj
    split at hj
    · exact hcfg j x hj
    · rw [List.getElem?_singleton] at hj
      split at hj
      · cases hj
        exact ⟨h.program l, Engine.within_idle trivial⟩
      · cases hj
  | crash i =>
    cases hth : cfg.threads[i]? with
    | none => simpa [System.step, hth] using hcfg
    | some th =>
      intro j x hj
      simp only [System.step, hth, List.getElem?_set] at hj
      by_cases hij : i = j
      · simp only [hij, if_true] at hj
        split at hj
        · cases hj
          exact ⟨trivial, Engine.within_idle trivial⟩
        · cases hj
      · simp only [hij, if_false] at hj
        obtain ⟨hprog, hlog⟩ := hcfg j x hj
        exact ⟨hprog, trivial, hlog.log⟩
  | move m =>
    intro j x hj
    obtain ⟨hprog, hlog⟩ := hcfg j x hj
    exact ⟨hprog, trivial, hlog.log⟩
  | exec i env =>
    rcases exec_cases Y cfg i env with hs | ⟨th, c, k, hex⟩
    · rw [hs]
      exact hcfg
    · obtain ⟨hprog, hlog⟩ := hcfg i th hex.here
      rw [hex.calls] at hprog
      rw [hex.step_eq]
      intro j x hj
      simp only [List.getElem?_set] at hj
      by_cases hij : i = j
      · simp only [hij, if_true] at hj
        split at hj
        · cases hj
          have hmoved := hlog.perform (G := Y.engine) (fun _ _ _ _ _ _ => trivial)
            (fun _ _ _ _ _ => trivial) hprog.1 env
          exact ⟨hprog.2 _, trivial, hmoved.log⟩
        · cases hj
      · simp only [hij, if_false] at hj
        obtain ⟨hprog', hlog'⟩ := hcfg j x hj
        exact ⟨hprog', trivial, hlog'.log⟩

theorem step (h : Keeper Y P ok rel) (hcfg : Issued P cfg) {e : Event E M κ}
    (hok : Y.Landing ok cfg e) : rel cfg.world (Y.step cfg e).world := by
  cases e with
  | start l => exact h.refl _
  | crash i =>
    rw [System.step]
    split
    · exact h.refl _
    · exact h.refl _
  | move m => exact h.move m cfg.world
  | exec i env =>
    rcases exec_cases Y cfg i env with hs | ⟨th, c, k, hex⟩
    · rw [hs]
      exact h.refl _
    · obtain ⟨hprog, hlog⟩ := hcfg i th hex.here
      rw [hex.calls] at hprog
      rw [hex.step_eq]
      exact h.steady.perform hlog hprog.1 (hok _ hex.executing_eq)

/-- In every run whose statements land as `ok` wants them, the end is related
to the start. -/
theorem run (h : Keeper Y P ok rel) (hcfg : Issued P cfg) {es : List (Event E M κ)}
    (hok : Y.Along (Y.Landing ok) cfg es) :
    Issued P (Y.run cfg es) ∧ rel cfg.world (Y.run cfg es).world := by
  induction es generalizing cfg with
  | nil => exact ⟨hcfg, h.refl _⟩
  | cons e es ih =>
    obtain ⟨hissued, hrest⟩ := ih (h.issued hcfg e) hok.2
    exact ⟨hissued, h.trans (h.step hcfg hok.1) hrest⟩

/-- Statements that keep `rel` wherever they land. -/
theorem run_always (h : Keeper Y P (fun _ _ => True) rel) (hcfg : Issued P cfg)
    (es : List (Event E M κ)) : Issued P (Y.run cfg es) ∧ rel cfg.world (Y.run cfg es).world := by
  refine h.run hcfg ?_
  clear hcfg
  induction es generalizing cfg with
  | nil => exact trivial
  | cons e es ih => exact ⟨fun _ _ => Y.engine.eachLands_true _ _, ih⟩

/-- And they keep it at every step. -/
theorem along_always (h : Keeper Y P (fun _ _ => True) rel) (hcfg : Issued P cfg)
    (es : List (Event E M κ)) :
    Y.Along (fun cfg e => rel cfg.world (Y.step cfg e).world) cfg es := by
  induction es generalizing cfg with
  | nil => exact trivial
  | cons e es ih => exact ⟨h.step hcfg fun _ _ => Y.engine.eachLands_true _ _, ih (h.issued hcfg e)⟩

end Keeper

end System

end ReadCommitted
