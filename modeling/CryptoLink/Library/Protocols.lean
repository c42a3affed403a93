import CryptoLink.Library.Interleaving

/-!
# Rely and guarantee for every thread at once

A protocol says, for every call that can be started, what it may assume of the
steps of the others and what each of its own calls satisfies. A program that
meets its protocol by itself keeps it in every interleaving whose other steps
stay within what it relies on.
-/

namespace ReadCommitted

open StatementPrograms

variable {S : Type} {R : S → Type} {E W K : Type} {ε κ M : Type}

namespace System

variable {Y : System S R E W K ε κ M}

/-- Per call: what it may assume of the others' steps, which answers of the
surroundings are considered, and what each of its own calls satisfies. -/
structure Protocol (S : Type) (R : S → Type) (E W K κ : Type) where
  rely : κ → View S E W K → View S E W K → Prop
  admits : κ → Cmd S → E → View S E W K → Prop
  guar : κ → (c : Cmd S) → View S E W K → Answer R c → View S E W K → Prop
  rely_refl : ∀ l v, rely l v v
  rely_trans : ∀ {l v v' v''}, rely l v v' → rely l v' v'' → rely l v v''

def Protocol.setting (Pr : Protocol S R E W K κ) (G : Engine S R E W K) (l : κ) :
    Setting (Cmd S) (Answer R) (View S E W K) where
  rely := Pr.rely l
  does c v r v' := ∃ env, Pr.admits l c env v ∧ G.perform c env v = (r, v')
  guar := Pr.guar l
  rely_refl := Pr.rely_refl l
  rely_trans := Pr.rely_trans

section Rules

variable {Pr : Protocol S R E W K κ} {G : Engine S R E W K} {l : κ} {α β : Type}
  {Q : Except ε β → View S E W K → Prop} {v : View S E W K}

/-- A statement inside an open transaction. -/
theorem Protocol.tx_bind {s : S} {log : Log S E W}
    {f : R s → Prog (Cmd S) (Answer R) ε β} (hlog : v.session.txn = some log)
    (hsession : ∀ v', Pr.rely l v v' → v'.session = v.session)
    (h : ∀ w env, Pr.rely l v ⟨w, v.session⟩ → Pr.admits l (.stmt .tx s) env ⟨w, v.session⟩ →
      Pr.guar l (.stmt .tx s) ⟨w, v.session⟩ (G.reply s env (G.replay log w))
        ⟨G.lasting s env w, some (log ++ [⟨s, env, G.replay log w⟩]), v.session.kept⟩ ∧
      Meets (Pr.setting G l) Q (f (G.reply s env (G.replay log w)))
        ⟨G.lasting s env w, some (log ++ [⟨s, env, G.replay log w⟩]), v.session.kept⟩) :
    Meets (Pr.setting G l) Q ((Prog.ask (C := Cmd S) (.stmt .tx s)).bind f) v := by
  rintro ⟨w, session⟩ hv r t ⟨env, hadm, hdo⟩
  obtain rfl : session = v.session := hsession _ hv
  have hperform : G.perform (.stmt .tx s) env ⟨w, v.session⟩ = (G.reply s env (G.replay log w),
      ⟨G.lasting s env w, some (log ++ [⟨s, env, G.replay log w⟩]), v.session.kept⟩) := by
    simp only [Engine.perform, hlog, Engine.inside]
  rw [hperform] at hdo
  cases hdo
  exact h w env hv hadm

/-- A statement on the pool. -/
theorem Protocol.pool_bind {s : S} {f : R s → Prog (Cmd S) (Answer R) ε β}
    (hsession : ∀ v', Pr.rely l v v' → v'.session = v.session)
    (h : ∀ w env, Pr.rely l v ⟨w, v.session⟩ → Pr.admits l (.stmt .pool s) env ⟨w, v.session⟩ →
      Pr.guar l (.stmt .pool s) ⟨w, v.session⟩ (G.reply s env w)
        ⟨G.autocommit s env w, v.session⟩ ∧
      Meets (Pr.setting G l) Q (f (G.reply s env w)) ⟨G.autocommit s env w, v.session⟩) :
    Meets (Pr.setting G l) Q ((Prog.ask (C := Cmd S) (.stmt .pool s)).bind f) v := by
  rintro ⟨w, session⟩ hv r t ⟨env, hadm, hdo⟩
  obtain rfl : session = v.session := hsession _ hv
  cases hdo
  exact h w env hv hadm

/-- A whole database transaction: `body` runs on an empty log, and its outcome
decides between commit and rollback. -/
theorem Protocol.runTransaction {bf cf : ε} {body : Prog (Cmd S) (Answer R) ε β}
    (hbegin : ∀ v₁ env, Pr.rely l v v₁ → Pr.admits l .beginTx env v₁ →
      Pr.guar l .beginTx v₁ (G.perform .beginTx env v₁).1 (G.perform .beginTx env v₁).2 ∧
      if G.opens env then
        Meets (Pr.setting G l) (fun x v₂ => match x with
          | .error e => Meets (Pr.setting G l) Q
              ((Prog.ask (C := Cmd S) .rollbackTx).bind fun _ => .fail e) v₂
          | .ok a => Meets (Pr.setting G l) Q
              ((Prog.ask (C := Cmd S) .commitTx).bind fun committed =>
                if committed then .ret a else .fail cf) v₂)
          body ⟨v₁.world, some [], v₁.session.kept⟩
      else ∀ v₂, Pr.rely l v₁ v₂ → Q (.error bf) v₂) :
    Meets (Pr.setting G l) Q (runTransaction bf cf body) v := by
  refine Meets.ask_bind ?_
  rintro v₁ hv r t ⟨env, hadm, hdo⟩
  have hb := hbegin v₁ env hv hadm
  by_cases ho : G.opens env = true
  · have hperform : G.perform .beginTx env v₁ = (true, ⟨v₁.world, some [], v₁.session.kept⟩) := by
      simp [Engine.perform, ho]
    rw [hperform] at hdo hb
    cases hdo
    simp only [ho, if_true] at hb ⊢
    refine ⟨hb.1, Meets.bind (Meets.attempt (hb.2.mono ?_))⟩
    intro x v₂ hx
    cases x with
    | error e => exact hx
    | ok a => exact hx
  · have hperform : G.perform .beginTx env v₁ = (false, v₁) := by simp [Engine.perform, ho]
    rw [hperform] at hdo hb
    cases hdo
    simp only [ho] at hb ⊢
    exact ⟨hb.1, hb.2⟩

end Rules

/-- What is left of every started call still meets its protocol. -/
def Keeps (Y : System S R E W K ε κ M) (Pr : Protocol S R E W K κ)
    (cfg : Config S R E W K ε κ) : Prop :=
  ∀ (i : ℕ) (th : Thread S R E W K ε κ), cfg.threads[i]? = some th →
    Meets (Pr.setting Y.engine th.label) (fun _ _ => True) th.prog (th.view cfg.world)

section Keeps

variable {Pr : Protocol S R E W K κ} {cfg : Config S R E W K ε κ}

theorem keeps_of_no_threads (w : W) : Keeps Y Pr (⟨w, []⟩ : Config S R E W K ε κ) := by
  intro i th hi
  simp at hi

variable [DecidableEq K]

theorem Keeps.executes (h : Keeps Y Pr cfg) {i : ℕ} {env : E} {th : Thread S R E W K ε κ}
    {c : Cmd S} {k : Answer R c → Prog (Cmd S) (Answer R) ε Unit}
    (hex : Y.Executes cfg i env th c k)
    (hadm : Pr.admits th.label c env (th.view cfg.world)) :
    Pr.guar th.label c (th.view cfg.world) (Y.engine.perform c env (th.view cfg.world)).1
        (Y.engine.perform c env (th.view cfg.world)).2 ∧
      Meets (Pr.setting Y.engine th.label) (fun _ _ => True)
        (k (Y.engine.perform c env (th.view cfg.world)).1)
        (Y.engine.perform c env (th.view cfg.world)).2 := by
  have hmeets := h i th hex.here
  rw [hex.calls] at hmeets
  exact hmeets _ (Pr.rely_refl _ _) _ _ ⟨env, hadm, rfl⟩

theorem Keeps.exec (h : Keeps Y Pr cfg) {i : ℕ} {env : E}
    (hadm : ∀ th c k, Y.Executes cfg i env th c k →
      Pr.admits th.label c env (th.view cfg.world))
    (hothers : ∀ th c k, Y.Executes cfg i env th c k → ∀ j other, j ≠ i →
      cfg.threads[j]? = some other →
      Pr.rely other.label (other.view cfg.world)
        (other.view (Y.engine.perform c env (th.view cfg.world)).2.world)) :
    Keeps Y Pr (Y.step cfg (.exec i env)) := by
  rcases exec_cases Y cfg i env with hs | ⟨th, c, k, hex⟩
  · rw [hs]; exact h
  · rw [hex.step_eq]
    have hlt : i < cfg.threads.length := (List.getElem?_eq_some_iff.mp hex.here).1
    intro j x hj
    simp only [List.getElem?_set] at hj
    by_cases hij : i = j
    · subst hij
      simp only [hlt, if_true, Option.some.injEq] at hj
      subst hj
      exact (h.executes hex (hadm th c k hex)).2
    · simp only [hij, if_false] at hj
      exact (h j x hj).stable (hothers th c k hex j x (Ne.symm hij) hj)

theorem Keeps.start (h : Keeps Y Pr cfg) {l : κ}
    (hstart : Meets (Pr.setting Y.engine l) (fun _ _ => True) (Y.program l)
      ⟨cfg.world, .idle⟩) :
    Keeps Y Pr (Y.step cfg (.start l)) := by
  intro j x hj
  simp only [System.step, List.getElem?_append] at hj
  split at hj
  · exact h j x hj
  · rw [List.getElem?_singleton] at hj
    split at hj
    · cases hj; exact hstart
    · cases hj

theorem Keeps.move (h : Keeps Y Pr cfg) {m : M}
    (hmove : ∀ (j : ℕ) (other : Thread S R E W K ε κ), cfg.threads[j]? = some other →
      Pr.rely other.label (other.view cfg.world) (other.view (Y.move m cfg.world))) :
    Keeps Y Pr (Y.step cfg (.move m)) :=
  fun j x hj => (h j x hj).stable (hmove j x hj)

theorem Keeps.crash (h : Keeps Y Pr cfg) (i : ℕ) : Keeps Y Pr (Y.step cfg (.crash i)) := by
  cases hth : cfg.threads[i]? with
  | none => simpa [System.step, hth] using h
  | some th =>
    intro j x hj
    simp only [System.step, hth, List.getElem?_set] at hj ⊢
    by_cases hij : i = j
    · simp only [hij, if_true] at hj
      split at hj
      · cases hj; exact fun _ _ => trivial
      · cases hj
    · simp only [hij, if_false] at hj
      exact h j x hj

end Keeps

/-- `J` holds of what every thread sees. -/
def AllViews (J : κ → View S E W K → Prop) (cfg : Config S R E W K ε κ) : Prop :=
  ∀ (i : ℕ) (th : Thread S R E W K ε κ), cfg.threads[i]? = some th →
    J th.label (th.view cfg.world)

section AllViews

variable {J : κ → View S E W K → Prop} {cfg : Config S R E W K ε κ}

theorem allViews_of_no_threads (w : W) :
    AllViews J (⟨w, []⟩ : Config S R E W K ε κ) := by
  intro i th hi
  simp at hi

variable [DecidableEq K]

/-- It is enough that new threads satisfy `J`, that the moving thread keeps it,
and that no change of the world takes it from the others. -/
theorem AllViews.step (h : AllViews J cfg) {e : Event E M κ}
    (hidle : ∀ l, J l ⟨(Y.step cfg e).world, .idle⟩)
    (hown : ∀ i env th c k, e = .exec i env → Y.Executes cfg i env th c k →
      J th.label (Y.engine.perform c env (th.view cfg.world)).2)
    (hothers : ∀ (i : ℕ) (th : Thread S R E W K ε κ), cfg.threads[i]? = some th →
      J th.label (th.view cfg.world) → J th.label (th.view (Y.step cfg e).world)) :
    AllViews J (Y.step cfg e) := by
  have hkeep : ∀ (i : ℕ) (th : Thread S R E W K ε κ), cfg.threads[i]? = some th →
      J th.label (th.view (Y.step cfg e).world) := fun i th hi => hothers i th hi (h i th hi)
  cases e with
  | start l =>
    intro j x hj
    simp only [System.step, List.getElem?_append] at hj
    split at hj
    · exact hkeep j x hj
    · rw [List.getElem?_singleton] at hj
      split at hj
      · cases hj
        exact hidle l
      · cases hj
  | move m => exact hkeep
  | crash i =>
    cases hth : cfg.threads[i]? with
    | none => simpa [System.step, hth] using h
    | some th =>
      intro j x hj
      simp only [System.step, hth, List.getElem?_set] at hj hidle hkeep ⊢
      by_cases hij : i = j
      · simp only [hij, if_true] at hj
        split at hj
        · cases hj
          exact hidle th.label
        · cases hj
      · simp only [hij, if_false] at hj
        exact hkeep j x hj
  | exec i env =>
    rcases exec_cases Y cfg i env with hs | ⟨th, c, k, hex⟩
    · rw [hs] at hkeep ⊢
      exact hkeep
    · have hmoved := hown i env th c k rfl hex
      rw [hex.step_eq] at hkeep ⊢
      intro j x hj
      simp only [List.getElem?_set] at hj
      by_cases hij : i = j
      · simp only [hij, if_true] at hj
        split at hj
        · cases hj
          exact hmoved
        · cases hj
      · simp only [hij, if_false] at hj
        exact hkeep j x hj

end AllViews

end System

end ReadCommitted
