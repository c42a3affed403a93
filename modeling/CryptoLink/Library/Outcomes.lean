import CryptoLink.Library.PoolCalls

/-!
# What calls give

A call of single statements gives values of one kind, wherever it starts and
whatever runs beside it, as long as everybody keeps one invariant. What it gives
is read off its program, with one rule for each way a program is put together;
what all calls keep, a run of them keeps.
-/

namespace StatementPrograms

variable {C : Type} {A : C → Type} {σ : Type} {ε α β : Type}

namespace Prog

/-- The program ends with its outcome for everybody to see. -/
def reported : Prog C A ε α → Prog C A (Except ε α) Unit
  | ret a => fail (.ok a)
  | fail e => fail (.error e)
  | call c k => call c fun r => (k r).reported

end Prog

theorem Meets.reported {S : Setting C A σ} {Q : Except ε α → σ → Prop} {p : Prog C A ε α} {s : σ}
    (hp : Meets S Q p s) : Meets S (fun x t => ∀ y, x = .error y → Q y t) p.reported s := by
  induction p generalizing s with
  | ret a =>
    intro t ht y hy
    cases hy
    exact hp t ht
  | fail e =>
    intro t ht y hy
    cases hy
    exact hp t ht
  | call c k ih =>
    intro t ht r u hdo
    exact ⟨(hp t ht r u hdo).1, ih r (hp t ht r u hdo).2⟩

/-- The value, if there is one, is in `Q`. -/
def Gives (Q : α → Prop) (x : Except ε α) : Prop :=
  ∀ a, x = .ok a → Q a

namespace Gives

variable {Q : α → Prop} {P : β → Prop} {x : Except ε α}

theorem ok {a : α} (h : Q a) : Gives Q (.ok a : Except ε α) := by
  intro b hb
  cases hb
  exact h

theorem error (e : ε) : Gives Q (.error e : Except ε α) := by
  intro b hb
  cases hb

theorem mapError {ε' : Type} (f : ε → ε') (h : Gives Q x) : Gives Q (x.mapError f) := by
  cases x with
  | error e => exact error (f e)
  | ok a => exact ok (h a rfl)

theorem bind {f : α → Except ε β} (h : Gives Q x) (hf : ∀ a, Q a → Gives P (f a)) :
    Gives P (x.bind f) := by
  cases x with
  | error e => exact error e
  | ok a => exact hf a (h a rfl)

end Gives

/-- Whatever the program gives is in `Q`. -/
def Yields (S : Setting C A σ) (Q : α → Prop) (p : Prog C A ε α) : Prop :=
  ∀ s, Meets S (fun x _ => Gives Q x) p s

namespace Yields

variable {S : Setting C A σ} {Q : α → Prop} {P : β → Prop}

theorem ret {a : α} (h : Q a) : Yields S Q (.ret a : Prog C A ε α) := by
  intro s t _ b hb
  cases hb
  exact h

theorem fail (e : ε) : Yields S Q (.fail e : Prog C A ε α) := by
  intro s t _ b hb
  cases hb

theorem ofExcept {x : Except ε α} (h : Gives Q x) :
    Yields S Q (Prog.ofExcept x : Prog C A ε α) := by
  cases x with
  | error e => exact fail e
  | ok a => exact ret (h a rfl)

theorem ask {c : C} {Q : A c → Prop}
    (h : ∀ s r t, S.does c s r t → S.guar c s r t ∧ Q r) :
    Yields S Q (Prog.ask c : Prog C A ε (A c)) := by
  intro s t _ r u hdo
  obtain ⟨hguar, hQ⟩ := h t r u hdo
  exact ⟨hguar, ret hQ u⟩

theorem bind {p : Prog C A ε β} {f : β → Prog C A ε α} (hp : Yields S P p)
    (hf : ∀ a, P a → Yields S Q (f a)) : Yields S Q (p.bind f) := by
  intro s
  refine Meets.bind ((hp s).mono fun x t hx => ?_)
  cases x with
  | ok a => exact hf a (hx a rfl) t
  | error e =>
    intro a ha
    cases ha

theorem mono {Q' : α → Prop} {p : Prog C A ε α} (hp : Yields S Q p) (h : ∀ a, Q a → Q' a) :
    Yields S Q' p :=
  fun s => (hp s).mono fun _ _ hx a ha => h a (hx a ha)

theorem attempt {p : Prog C A ε α} (hp : Yields S Q p) :
    Yields S (Gives Q) p.attempt := by
  intro s
  refine Meets.attempt ((hp s).mono fun x t hx => ?_)
  intro y hy
  cases hy
  exact hx

theorem mapError {f : ε → ε} {p : Prog C A ε α} (hp : Yields S Q p) :
    Yields S Q (p.mapError f) := by
  intro s
  refine Meets.mapError ((hp s).mono fun x t hx => ?_)
  cases x with
  | ok a => exact hx
  | error e =>
    intro a ha
    cases ha

theorem reported {p : Prog C A ε α} (hp : Yields S Q p) (s : σ) :
    Meets S (fun x _ => ∀ a, x = .error (.ok a) → Q a) p.reported s :=
  (hp s).reported.mono fun _ _ hx a ha => hx (.ok a) ha a rfl

end Yields

end StatementPrograms

namespace ReadCommitted

open StatementPrograms

variable {S : Type} {R : S → Type} {E W : Type} {ε κ M : Type}

namespace System

/-- What everybody keeps, how the others' steps move the world, and for each call
that can be started, how it is answered and what its statements promise. -/
structure Terms (S E W κ : Type) where
  holds : W → Prop
  moves : W → W → Prop
  admits : κ → Cmd S → E → W → Prop
  promise : κ → S → W → Prop
  refl : ∀ w, moves w w
  trans : ∀ {u v w}, moves u v → moves v w → moves u w

namespace Terms

variable (T : Terms S E W κ) (Y : System S R E W Empty ε κ M)

def setting (G : Engine S R E W Empty) (l : κ) : Setting (Cmd S) (Answer R) W where
  rely w w' := T.moves w w' ∧ (T.holds w → T.holds w')
  does c w r w' := T.holds w ∧ ∃ env, T.admits l c env w ∧
    r = (G.perform c env ⟨w, .idle⟩).1 ∧ w' = (G.perform c env ⟨w, .idle⟩).2.world
  guar c w _ _ := ∃ s, c = .stmt .pool s ∧ T.promise l s w
  rely_refl w := ⟨T.refl w, id⟩
  rely_trans h h' := ⟨T.trans h.1 h'.1, fun hw => h'.2 (h.2 hw)⟩

/-- The call of the step, if there is one, is answered as admitted. -/
def Admits (cfg : Config S R E W Empty ε κ) (e : Event E M κ) : Prop :=
  ∀ x ∈ Y.executing cfg e, T.admits x.thread.label x.cmd x.env cfg.world

instance Admits.decidable [∀ l c env w, Decidable (T.admits l c env w)]
    (cfg : Config S R E W Empty ε κ) (e : Event E M κ) : Decidable (T.Admits Y cfg e) :=
  inferInstanceAs
    (Decidable (∀ x ∈ Y.executing cfg e, T.admits x.thread.label x.cmd x.env cfg.world))

/-- Statements keep what they promise to keep, and so do the moves of the world. -/
structure Sound : Prop where
  stmt : ∀ l s env w, T.promise l s w → T.admits l (.stmt .pool s) env w → T.holds w →
    T.moves w (Y.engine.autocommit s env w) ∧ T.holds (Y.engine.autocommit s env w)
  move : ∀ m w, T.moves w (Y.move m w) ∧ (T.holds w → T.holds (Y.move m w))

/-- The invariant holds, and every thread goes on with what it promised. -/
structure Kept (Q : κ → Except ε Unit → W → Prop) (cfg : Config S R E W Empty ε κ) : Prop where
  holds : T.holds cfg.world
  calls : ∀ th ∈ cfg.threads, th.session = .idle ∧
    Meets (T.setting Y.engine th.label) (Q th.label) th.prog cfg.world

end Terms

/-- A call that starts is in `L`. -/
def Starts (L : κ → Prop) : Event E M κ → Prop
  | .start l => L l
  | _ => True

instance Starts.decidable (L : κ → Prop) [DecidablePred L] (e : Event E M κ) :
    Decidable (Starts L e) := by
  delta Starts
  induction e using Event.casesOn <;> infer_instance

namespace Terms

variable {T : Terms S E W κ} {Y : System S R E W Empty ε κ M}
  {Q : κ → Except ε Unit → W → Prop} {cfg : Config S R E W Empty ε κ}

/-- A program leaves the world where its own statements and the others' have moved it. -/
theorem meets_moves (hsound : T.Sound Y) {l : κ} {α : Type} {ε' : Type}
    {Q : Except ε' α → W → Prop} {p : Prog (Cmd S) (Answer R) ε' α} {w w₀ : W}
    (hmoved : T.moves w₀ w) (hp : Meets (T.setting Y.engine l) Q p w) :
    Meets (T.setting Y.engine l) (fun x t => Q x t ∧ T.moves w₀ t) p w := by
  induction p generalizing w with
  | ret a => exact fun t ht => ⟨hp t ht, T.trans hmoved ht.1⟩
  | fail e => exact fun t ht => ⟨hp t ht, T.trans hmoved ht.1⟩
  | call c k ih =>
    intro w' hw' r t hdo
    obtain ⟨hguar, hrest⟩ := hp w' hw' r t hdo
    obtain ⟨s, rfl, hpromise⟩ := hguar
    obtain ⟨hholds, env, hadmits, rfl, rfl⟩ := hdo
    refine ⟨⟨s, rfl, hpromise⟩, ih _ ?_ hrest⟩
    exact T.trans (T.trans hmoved hw'.1) (hsound.stmt l s env w' hpromise hadmits hholds).1

theorem Kept.set (h : T.Kept Y Q cfg) {w : W} (hmoved : T.moves cfg.world w) (hw : T.holds w)
    (i : ℕ) {th : Thread S R E W Empty ε κ} (hidle : th.session = .idle)
    (hmeets : Meets (T.setting Y.engine th.label) (Q th.label) th.prog w) :
    T.Kept Y Q ⟨w, cfg.threads.set i th⟩ := by
  refine ⟨hw, ?_⟩
  intro other hother
  rcases List.mem_or_eq_of_mem_set hother with hold | rfl
  · obtain ⟨hsession, hpromise⟩ := h.calls other hold
    exact ⟨hsession, hpromise.stable ⟨hmoved, fun _ => hw⟩⟩
  · exact ⟨hidle, hmeets⟩

theorem Kept.step (hsound : T.Sound Y) (hcrash : ∀ l w, Q l (.ok ()) w) {e : Event E M κ}
    (h : T.Kept Y Q cfg) (hadmits : T.Admits Y cfg e)
    (hstart : Starts (fun l => ∀ w, Meets (T.setting Y.engine l) (Q l) (Y.program l) w) e) :
    T.Kept Y Q (Y.step cfg e) := by
  cases e with
  | start l =>
    refine ⟨h.holds, ?_⟩
    intro th hth
    rcases List.mem_append.mp hth with hold | hnew
    · exact h.calls th hold
    · rw [List.mem_singleton.mp hnew]
      exact ⟨rfl, hstart cfg.world⟩
  | move m =>
    obtain ⟨hmoved, hkept⟩ := hsound.move m cfg.world
    refine ⟨hkept h.holds, ?_⟩
    intro th hth
    exact ⟨(h.calls th hth).1, (h.calls th hth).2.stable ⟨hmoved, hkept⟩⟩
  | crash i =>
    cases hi : cfg.threads[i]? with
    | none =>
      simp only [System.step, hi]
      exact h
    | some th =>
      simp only [System.step, hi]
      exact h.set (T.refl _) h.holds i rfl fun w _ => hcrash th.label w
  | exec i env =>
    rcases exec_cases Y cfg i env with hs | ⟨th, c, k, hex⟩
    · rw [hs]
      exact h
    · obtain ⟨hidle, hmeets⟩ := h.calls th (List.mem_of_getElem? hex.here)
      rw [hex.calls] at hmeets
      have hadmitted : T.admits th.label c env cfg.world := hadmits _ hex.executing_eq
      obtain ⟨⟨s, rfl, hpromise⟩, hrest⟩ := hmeets cfg.world ⟨T.refl _, id⟩ _ _
        ⟨h.holds, env, hadmitted, rfl, rfl⟩
      obtain ⟨hmoved, hkept⟩ := hsound.stmt _ s env cfg.world hpromise hadmitted h.holds
      rw [hex.step_eq]
      exact h.set hmoved hkept i hidle hrest

/-- Calls that promise keep the invariant in every run, and end as they promised. -/
theorem kept_run (hsound : T.Sound Y) (hcrash : ∀ l w, Q l (.ok ()) w) {L : κ → Prop}
    (hnew : ∀ l, L l → ∀ w, Meets (T.setting Y.engine l) (Q l) (Y.program l) w) {w : W}
    (hw : T.holds w) {es : List (Event E M κ)}
    (hrun : Y.Along (fun cfg e => T.Admits Y cfg e ∧ Starts L e) ⟨w, []⟩ es) :
    T.Kept Y Q (Y.run ⟨w, []⟩ es) := by
  refine Along.invariant Y ?_ hrun ⟨hw, fun _ h => by cases h⟩
  intro cfg e hcfg hok
  refine hcfg.step hsound hcrash hok.1 ?_
  cases e with
  | start l => exact hnew l hok.2
  | _ => exact trivial

theorem Kept.outcome (h : T.Kept Y Q cfg) {th : Thread S R E W Empty ε κ}
    (hth : th ∈ cfg.threads) {e : ε} (he : th.prog = .fail e) :
    Q th.label (.error e) cfg.world := by
  have hmeets := (h.calls th hth).2
  rw [he] at hmeets
  exact hmeets cfg.world ⟨T.refl _, id⟩

end Terms

end System

end ReadCommitted
