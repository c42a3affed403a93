import CryptoLink.Library.ReadCommitted

/-!
# Preconditions and postconditions

What a program makes of its view with nothing beside it, whatever the
surroundings answer: a result leaves one assertion, a failure another. One rule
for each way a program is put together.
-/

namespace ReadCommitted

open StatementPrograms

variable {S : Type} {R : S → Type} {E W K : Type} {ε α β : Type}

namespace Engine

variable (G : Engine S R E W K)

/-- The assertion an outcome asks for. -/
def Ends (Q : α → View S E W K → Prop) (X : View S E W K → Prop) :
    Except ε α → View S E W K → Prop
  | .ok a => Q a
  | .error _ => X

def Triple (P : View S E W K → Prop) (p : Prog (Cmd S) (Answer R) ε α)
    (Q : α → View S E W K → Prop) (X : View S E W K → Prop) : Prop :=
  ∀ (envs : ℕ → E) (n : ℕ) (v : View S E W K), P v →
    Ends Q X (G.alone envs p n v).1 (G.alone envs p n v).2.2

/-- No transaction is open and no lock is kept. -/
def AtRest (J : W → Prop) (v : View S E W K) : Prop :=
  v.session = .idle ∧ J v.world

/-- A transaction that has run nothing yet. -/
def Opened (J : W → Prop) (v : View S E W K) : Prop :=
  v.session = ⟨some [], []⟩ ∧ J v.world

/-- A transaction that may be committed or dropped. -/
def Pending (Q X : W → Prop) (v : View S E W K) : Prop :=
  ∃ log, v.session = ⟨some log, []⟩ ∧ X v.world ∧ X (G.replay log v.world) ∧
    Q (G.replay log v.world)

/-- A transaction opened on `w₀`, which reads a world in `Q`. -/
def InTx (w₀ : W) (Q : W → Prop) (v : View S E W K) : Prop :=
  ∃ log, v.session = ⟨some log, []⟩ ∧ v.world = w₀ ∧ Q (G.replay log w₀)

/-- A transaction that is going to be dropped. -/
def Dropped (X : W → Prop) (v : View S E W K) : Prop :=
  v.session.kept = [] ∧ X v.world

end Engine

namespace Engine.Triple

open Engine

variable {G : Engine S R E W K} {P P' : View S E W K → Prop} {X X' : View S E W K → Prop}

theorem ret {a : α} {Q : α → View S E W K → Prop} (h : ∀ v, P v → Q a v) :
    G.Triple P (.ret a : Prog (Cmd S) (Answer R) ε α) Q X :=
  fun _ _ v hv => h v hv

theorem fail {e : ε} {Q : α → View S E W K → Prop} (h : ∀ v, P v → X v) :
    G.Triple P (.fail e : Prog (Cmd S) (Answer R) ε α) Q X :=
  fun _ _ v hv => h v hv

theorem conseq {p : Prog (Cmd S) (Answer R) ε α} {Q Q' : α → View S E W K → Prop}
    (h : G.Triple P p Q X) (hpre : ∀ v, P' v → P v) (hpost : ∀ a v, Q a v → Q' a v)
    (hfail : ∀ v, X v → X' v) : G.Triple P' p Q' X' := by
  intro envs n v hv
  have hp := h envs n v (hpre v hv)
  generalize G.alone envs p n v = run at hp ⊢
  obtain ⟨e | a, n', v'⟩ := run
  · exact hfail v' hp
  · exact hpost a v' hp

theorem failing {p : Prog (Cmd S) (Answer R) ε α} {Q : α → View S E W K → Prop}
    (h : G.Triple P p Q X) (hfail : ∀ v, X v → X' v) : G.Triple P p Q X' :=
  h.conseq (fun _ hv => hv) (fun _ _ hv => hv) hfail

/-- A fact that no step can change may be assumed beforehand. -/
theorem given {φ : Prop} {p : Prog (Cmd S) (Answer R) ε α} {Q : α → View S E W K → Prop}
    (h : φ → G.Triple P p Q X) : G.Triple (fun v => P v ∧ φ) p Q X := by
  rintro envs n v ⟨hv, hφ⟩
  exact h hφ envs n v hv

theorem bind {p : Prog (Cmd S) (Answer R) ε α} {f : α → Prog (Cmd S) (Answer R) ε β}
    {M : α → View S E W K → Prop} {Q : β → View S E W K → Prop} (hp : G.Triple P p M X)
    (hf : ∀ a, G.Triple (M a) (f a) Q X) : G.Triple P (p.bind f) Q X := by
  intro envs n v hv
  have hfirst := hp envs n v hv
  rw [alone_bind]
  generalize G.alone envs p n v = run at hfirst ⊢
  obtain ⟨e | a, n', v'⟩ := run
  · exact hfirst
  · exact hf a envs n' v' hfirst

theorem attempt {p : Prog (Cmd S) (Answer R) ε α} {Q : α → View S E W K → Prop}
    (hp : G.Triple P p Q X) : G.Triple P p.attempt (Ends Q X) X' := by
  intro envs n v hv
  rw [alone_attempt]
  exact hp envs n v hv

theorem mapError {p : Prog (Cmd S) (Answer R) ε α} {Q : α → View S E W K → Prop} {f : ε → ε}
    (hp : G.Triple P p Q X) : G.Triple P (p.mapError f) Q X := by
  intro envs n v hv
  have h := hp envs n v hv
  rw [alone_mapError]
  generalize G.alone envs p n v = run at h ⊢
  obtain ⟨e | a, n', v'⟩ := run
  · exact h
  · exact h

theorem ofExcept {x : Except ε α} {Q : α → View S E W K → Prop}
    (hok : ∀ a, x = .ok a → ∀ v, P v → Q a v) (herr : ∀ v, P v → X v) :
    G.Triple P (Prog.ofExcept x) Q X := by
  cases x with
  | error e => exact fail herr
  | ok a => exact ret (hok a rfl)

theorem ask {c : Cmd S} {Q : Answer R c → View S E W K → Prop}
    (h : ∀ env v, P v → Q (G.perform c env v).1 (G.perform c env v).2) :
    G.Triple P (Prog.ask c : Prog (Cmd S) (Answer R) ε (Answer R c)) Q X :=
  fun envs n v hv => h (envs n) v hv

/-- What every call of a program keeps, the program keeps. -/
theorem of_issues {p : Prog (Cmd S) (Answer R) ε α} {C : Cmd S → Prop} (hp : Issues C p)
    (hkeeps : ∀ c env v, C c → P v → P (G.perform c env v).2) :
    G.Triple P p (fun _ => P) P := by
  induction p with
  | ret a => exact ret fun _ h => h
  | fail e => exact fail fun _ h => h
  | call c k ih =>
    intro envs n v hv
    rw [alone_call]
    exact ih _ (hp.2 _) envs (n + 1) _ (hkeeps c (envs n) v hp.1 hv)

/-- A whole transaction: its body from an empty log, then the commit, which may
be lost, or the rollback. -/
theorem runTransaction {bf cf : ε} {body : Prog (Cmd S) (Answer R) ε α} {J F : W → Prop}
    {Q : α → W → Prop}
    (hbody : G.Triple (Opened J) body (fun a => G.Pending (Q a) F) (Dropped F))
    (hunopened : ∀ w, J w → F w) :
    G.Triple (AtRest J) (ReadCommitted.runTransaction bf cf body) (fun a => AtRest (Q a))
      (AtRest F) := by
  rintro envs n ⟨w, x⟩ ⟨rfl, hw⟩
  have hrun := G.alone_runTransaction envs bf cf body n w []
  rw [show (⟨none, []⟩ : Session S E W K) = Session.idle from rfl] at hrun
  rw [hrun]
  by_cases ho : G.opens (envs n) = true
  · rw [if_pos ho]
    have h := hbody envs (n + 1) ⟨w, some [], []⟩ ⟨rfl, hw⟩
    generalize G.alone envs body (n + 1) ⟨w, some [], []⟩ = run at h ⊢
    obtain ⟨e | a, n', ⟨w', txn, kept⟩⟩ := run
    · obtain ⟨hkept, hF⟩ := h
      obtain rfl : kept = [] := hkept
      exact ⟨rfl, hF⟩
    · obtain ⟨log, hsession, hF, hF', hQ⟩ := h
      cases hsession
      by_cases hlands : G.lands (envs n') = true
      · by_cases hack : G.acknowledged (envs n') = true
        · simp only [perform, hlands, hack, if_true]
          exact ⟨rfl, hQ⟩
        · simp only [perform, hlands, hack, if_true]
          exact ⟨rfl, hF'⟩
      · simp only [perform, hlands]
        exact ⟨rfl, hF⟩
  · rw [if_neg ho]
    exact ⟨rfl, hunopened w hw⟩

/-- A transaction of one statement, whose answer is then looked at. -/
theorem statement {bf cf : ε} {s : S} {g : R s → Except ε α} {J F : W → Prop} {Q : α → W → Prop}
    (hunopened : ∀ w, J w → F w)
    (hran : ∀ env w, J w → F (G.lasting s env w) ∧ F (G.autocommit s env w))
    (hok : ∀ env w a, J w → g (G.reply s env w) = .ok a → Q a (G.autocommit s env w)) :
    G.Triple (AtRest J)
      (ReadCommitted.runTransaction bf cf
        ((Prog.ask (.stmt .tx s)).bind fun r => Prog.ofExcept (g r)))
      (fun a => AtRest (Q a)) (AtRest F) := by
  refine runTransaction ?_ hunopened
  rintro envs n ⟨w, x⟩ ⟨rfl, hw⟩
  have hrun : G.alone envs ((Prog.ask (.stmt .tx s)).bind fun r => Prog.ofExcept (g r)) n
      ⟨w, some [], []⟩ = (g (G.reply s (envs n) w), n + 1,
        ⟨G.lasting s (envs n) w, some [⟨s, envs n, w⟩], []⟩) := by
    rw [alone_bind]
    exact G.alone_ofExcept envs _ _ _
  obtain ⟨hlasting, hlanded⟩ := hran (envs n) w hw
  rw [hrun]
  cases hg : g (G.reply s (envs n) w) with
  | error e => exact ⟨rfl, hlasting⟩
  | ok a => exact ⟨_, rfl, hlasting, hlanded, hok (envs n) w a hw hg⟩

section InTx

variable {w₀ : W} {Q Q' : W → Prop}

/-- What a transaction is dropped on is what it was opened on. -/
theorem dropped_of_inTx {v : View S E W K} (h : G.InTx w₀ Q v) : Dropped (fun w => w = w₀) v := by
  obtain ⟨log, hsession, hw, -⟩ := h
  rw [Dropped, hsession]
  exact ⟨rfl, hw⟩

theorem inTx_mono {v : View S E W K} (h : ∀ w, Q w → Q' w) (hv : G.InTx w₀ Q v) :
    G.InTx w₀ Q' v := by
  obtain ⟨log, hsession, hw, hQ⟩ := hv
  exact ⟨log, hsession, hw, h _ hQ⟩

/-- One statement of the transaction: it answers from what the transaction reads
and changes that. -/
theorem inTx_ask {s : S} {Q' : R s → W → Prop} (hlasting : ∀ env, G.lasting s env w₀ = w₀)
    (h : ∀ env w, Q w → Q' (G.reply s env w) (G.effect s env w w)) :
    G.Triple (G.InTx w₀ Q) (Prog.ask (.stmt .tx s) : Prog (Cmd S) (Answer R) ε _)
      (fun r => G.InTx w₀ (Q' r)) X := by
  refine ask ?_
  rintro env ⟨w, x⟩ ⟨log, hsession, hw, hQ⟩
  obtain rfl : x = ⟨some log, []⟩ := hsession
  obtain rfl : w = w₀ := hw
  refine ⟨log ++ [⟨s, env, G.replay log w⟩], rfl, hlasting env, ?_⟩
  rw [replay_append]
  exact h env _ hQ

/-- A statement beside the transaction that leaves its world alone. -/
theorem inTx_beside {s : S} (hkeeps : ∀ env, G.autocommit s env w₀ = w₀) :
    G.Triple (G.InTx w₀ Q) (Prog.ask (.stmt .pool s) : Prog (Cmd S) (Answer R) ε _)
      (fun _ => G.InTx w₀ Q) X := by
  refine ask ?_
  rintro env ⟨w, x⟩ ⟨log, hsession, hw, hQ⟩
  obtain rfl : w = w₀ := hw
  exact ⟨log, hsession, hkeeps env, hQ⟩

theorem inTx_ofExcept {x : Except ε α} {Q' : α → W → Prop}
    (h : ∀ a, x = .ok a → ∀ w, Q w → Q' a w) :
    G.Triple (G.InTx w₀ Q) (Prog.ofExcept x) (fun a => G.InTx w₀ (Q' a))
      (Dropped fun w => w = w₀) :=
  ofExcept (fun a ha _ hv => inTx_mono (h a ha) hv) fun _ hv => dropped_of_inTx hv

/-- A whole transaction alone: on an answer its changes are in place, on an
error there are none, unless its commit lands and is not acknowledged. -/
theorem atomic (bf cf : ε) {body : Prog (Cmd S) (Answer R) ε α} {Q : α → W → Prop}
    (hbody : G.Triple (G.InTx w₀ fun w => w = w₀) body (fun a => G.InTx w₀ (Q a))
      (Dropped fun w => w = w₀)) (envs : ℕ → E) (n : ℕ) :
    match G.alone envs (ReadCommitted.runTransaction bf cf body) n ⟨w₀, .idle⟩ with
    | (.ok a, _, v) => v.session = .idle ∧ Q a v.world
    | (.error _, _, v) => v.session = .idle ∧ (v.world = w₀ ∨
        (∃ k, G.lands (envs k) = true ∧ G.acknowledged (envs k) = false) ∧ ∃ a, Q a v.world) := by
  have hrun := G.alone_runTransaction envs bf cf body n w₀ []
  rw [show (⟨none, []⟩ : Session S E W K) = Session.idle from rfl] at hrun
  rw [hrun]
  by_cases ho : G.opens (envs n) = true
  · rw [if_pos ho]
    have h := hbody envs (n + 1) ⟨w₀, some [], []⟩ ⟨[], rfl, rfl, rfl⟩
    generalize G.alone envs body (n + 1) ⟨w₀, some [], []⟩ = run at h ⊢
    obtain ⟨e | a, n', ⟨w', txn, kept⟩⟩ := run
    · obtain ⟨hkept, hw⟩ := h
      obtain rfl : kept = [] := hkept
      exact ⟨rfl, .inl hw⟩
    · obtain ⟨log, hsession, hw, hQ⟩ := h
      obtain rfl : w' = w₀ := hw
      cases hsession
      by_cases hlands : G.lands (envs n') = true
      · cases hack : G.acknowledged (envs n') with
        | true =>
          simp only [perform, hlands, hack, if_true]
          exact ⟨rfl, hQ⟩
        | false =>
          simp only [perform, hlands, hack, if_true, Bool.false_eq_true, if_false]
          exact ⟨rfl, .inr ⟨⟨n', hlands, hack⟩, a, hQ⟩⟩
      · simp only [perform, hlands]
        exact ⟨rfl, .inl rfl⟩
  · rw [if_neg ho]
    exact ⟨rfl, .inl rfl⟩

end InTx

end Engine.Triple

end ReadCommitted
