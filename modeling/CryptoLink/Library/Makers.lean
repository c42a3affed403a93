import CryptoLink.Library.OwnSteps

/-!
# What a call has made itself

Some programs touch a thing only after they have made it. What one of them has
made, and nobody unmakes, is then touched by no other: it would have had to be
made twice.
-/

namespace ReadCommitted

open StatementPrograms

variable {S : Type} {R : S → Type} {E W K : Type} {ε κ M α β : Type}

/-- The state is whether the thing has been made by the program. -/
def makersSetting (touches : Cmd S → Prop) (makes : (c : Cmd S) → Answer R c → Prop) :
    Setting (Cmd S) (Answer R) Prop where
  rely made made' := made' = made
  does c made r made' := made' = (made ∨ makes c r)
  guar c made _ _ := touches c → made
  rely_refl _ := rfl
  rely_trans h h' := h'.trans h

/-- Every call that touches the thing comes after one that makes it, and `Q`
holds of the outcome and of whether it has been made. -/
def TouchesOwn (touches : Cmd S → Prop) (makes : (c : Cmd S) → Answer R c → Prop)
    (Q : Except ε α → Prop → Prop) (p : Prog (Cmd S) (Answer R) ε α) (made : Prop) : Prop :=
  Meets (makersSetting touches makes) Q p made

namespace TouchesOwn

variable {touches : Cmd S → Prop} {makes : (c : Cmd S) → Answer R c → Prop} {made made' : Prop}
  {Q Q' : Except ε α → Prop → Prop}

theorem ofExcept {x : Except ε α} (h : Q x made) :
    TouchesOwn touches makes Q (Prog.ofExcept x) made := by
  apply Meets.ofExcept
  rintro made' rfl
  exact h

theorem call {c : Cmd S} {k : Answer R c → Prog (Cmd S) (Answer R) ε α} (hc : touches c → made)
    (hk : ∀ r, TouchesOwn touches makes Q (k r) (made ∨ makes c r)) :
    TouchesOwn touches makes Q (.call c k) made := by
  rintro made' rfl r made'' rfl
  exact ⟨hc, hk r⟩

theorem mono {p : Prog (Cmd S) (Answer R) ε α} (h : ∀ x made, Q x made → Q' x made)
    (hp : TouchesOwn touches makes Q p made) : TouchesOwn touches makes Q' p made :=
  Meets.mono h hp

theorem bind {p : Prog (Cmd S) (Answer R) ε α} {f : α → Prog (Cmd S) (Answer R) ε β}
    {Q' : Except ε β → Prop → Prop} (hp : TouchesOwn touches makes Q p made)
    (hf : ∀ a made', Q (.ok a) made' → TouchesOwn touches makes Q' (f a) made')
    (he : ∀ e made', Q (.error e) made' → Q' (.error e) made') :
    TouchesOwn touches makes Q' (p.bind f) made := by
  apply Meets.bind
  apply Meets.mono _ hp
  intro x made' hx
  cases x with
  | ok a => exact hf a made' hx
  | error e => exact he e made' hx

theorem attempt {p : Prog (Cmd S) (Answer R) ε α}
    (hp : TouchesOwn touches makes Q p made) :
    TouchesOwn touches makes (fun x made' => ∀ y, x = .ok y → Q y made') p.attempt made := by
  apply Meets.attempt
  apply Meets.mono _ hp
  rintro x made' hx y hy
  cases hy
  exact hx

theorem mapError {p : Prog (Cmd S) (Answer R) ε α} {f : ε → ε}
    (hp : TouchesOwn touches makes Q p made) (h : ∀ x made', Q x made' → Q' (x.mapError f) made') :
    TouchesOwn touches makes Q' (p.mapError f) made := by
  apply Meets.mapError
  apply Meets.mono _ hp
  intro x made' hx
  cases x with
  | ok a => exact h (.ok a) made' hx
  | error e => exact h (.error e) made' hx

/-- A program that touches it only if it has been made before. -/
theorem of_issues {p : Prog (Cmd S) (Answer R) ε α} (hp : Issues (fun c => touches c → made) p) :
    TouchesOwn touches makes (fun _ made' => made → made') p made := by
  apply Meets.of_issues (P := fun c => touches c → made) (J := fun made' => made → made')
  · rintro made' made'' rfl hmade
    exact hmade
  · rintro c made' r made'' hc hmade rfl
    exact ⟨fun htouches => hmade (hc htouches), fun h => .inl (hmade h)⟩
  · exact hp
  · exact fun h => h

/-- Having made it does no harm. -/
theorem of_made {p : Prog (Cmd S) (Answer R) ε α} (h : made → made')
    (hp : TouchesOwn touches makes (fun _ _ => True) p made) :
    TouchesOwn touches makes (fun _ _ => True) p made' := by
  induction p generalizing made made' with
  | ret a => exact fun _ _ => trivial
  | fail e => exact fun _ _ => trivial
  | call c k ih =>
    rintro m rfl r m' rfl
    obtain ⟨hguar, hrest⟩ := hp made rfl r _ rfl
    exact ⟨fun htouches => h (hguar htouches), ih r (Or.imp_left h) hrest⟩

end TouchesOwn

namespace System

variable (Y : System S R E W K ε κ M) [DecidableEq K]

/-- The event is a call of thread `i` that makes the thing. -/
def MakesNow (makes : (c : Cmd S) → Answer R c → Prop) (i : ℕ) (cfg : Config S R E W K ε κ)
    (e : Event E M κ) : Prop :=
  ∃ a ∈ Y.executing cfg e, a.index = i ∧
    makes a.cmd (Y.engine.perform a.cmd a.env (a.thread.view cfg.world)).1

variable {Y} {touches : Cmd S → Prop} {makes : (c : Cmd S) → Answer R c → Prop}
  {cfg : Config S R E W K ε κ} {es : List (Event E M κ)}

/-- What is left of every thread touches the thing only after it has made it. -/
def Makers (touches : Cmd S → Prop) (makes : (c : Cmd S) → Answer R c → Prop)
    (cfg : Config S R E W K ε κ) (made : ℕ → Prop) : Prop :=
  ∀ (i : ℕ) (th : Thread S R E W K ε κ), cfg.threads[i]? = some th →
    TouchesOwn touches makes (fun _ _ => True) th.prog (made i)

theorem Makers.step
    (hprogram : ∀ l, TouchesOwn touches makes (fun _ _ => True) (Y.program l) False)
    {made : ℕ → Prop} (h : Makers touches makes cfg made) (e : Event E M κ) :
    Makers touches makes (Y.step cfg e) fun i => made i ∨ Y.MakesNow makes i cfg e := by
  have hold : ∀ (i : ℕ) (th : Thread S R E W K ε κ), cfg.threads[i]? = some th →
      TouchesOwn touches makes (fun _ _ => True) th.prog (made i ∨ Y.MakesNow makes i cfg e) :=
    fun i th hi => TouchesOwn.of_made Or.inl (h i th hi)
  intro i th hi
  cases e with
  | start l =>
    simp only [System.step, List.getElem?_append] at hi
    split at hi
    · exact hold i th hi
    · rw [List.getElem?_singleton] at hi
      split at hi
      · cases hi
        exact TouchesOwn.of_made False.elim (hprogram l)
      · cases hi
  | move m => exact hold i th hi
  | crash j =>
    cases hj : cfg.threads[j]? with
    | none =>
      simp only [System.step, hj] at hi
      exact hold i th hi
    | some y =>
      simp only [System.step, hj, List.getElem?_set] at hi
      by_cases hij : j = i
      · simp only [hij, if_true] at hi
        split at hi
        · cases hi
          exact fun _ _ => trivial
        · cases hi
      · simp only [hij, if_false] at hi
        exact hold i th hi
  | exec j env =>
    rcases exec_cases Y cfg j env with hs | ⟨y, c, k, hex⟩
    · rw [hs] at hi
      exact hold i th hi
    · rw [hex.step_eq] at hi
      simp only [List.getElem?_set] at hi
      by_cases hij : j = i
      · subst hij
        simp only [if_true] at hi
        split at hi
        · cases hi
          have hprog := h j y hex.here
          rw [hex.calls] at hprog
          apply TouchesOwn.of_made _ (hprog (made j) rfl _ _ rfl).2
          exact Or.imp_right fun hmakes => ⟨_, hex.executing_eq, rfl, hmakes⟩
        · cases hi
      · simp only [hij, if_false] at hi
        exact hold i th hi

/-- In a run from no threads, the thread that touches the thing has made it. -/
theorem touched_by_maker
    (hprogram : ∀ l, TouchesOwn touches makes (fun _ _ => True) (Y.program l) False) {w : W}
    {e : Event E M κ} {a : Action S R E W K ε κ}
    (ha : a ∈ Y.executing (Y.run ⟨w, []⟩ es) e) (htouches : touches a.cmd) :
    Y.Occurs (Y.MakesNow makes a.index) ⟨w, []⟩ es := by
  have hmakers : ∀ (es : List (Event E M κ)) (cfg : Config S R E W K ε κ) (made : ℕ → Prop),
      Makers touches makes cfg made →
        Makers touches makes (Y.run cfg es) fun i => made i ∨
          Y.Occurs (Y.MakesNow makes i) cfg es := by
    intro es
    induction es with
    | nil =>
      intro cfg made h i th hi
      exact TouchesOwn.of_made Or.inl (h i th hi)
    | cons e es ih =>
      intro cfg made h i th hi
      apply TouchesOwn.of_made _ (ih _ _ (h.step hprogram e) i th hi)
      exact or_assoc.mp
  have hstart : Makers touches makes (⟨w, []⟩ : Config S R E W K ε κ) fun _ => False := by
    intro i th hi
    simp at hi
  obtain ⟨k, -, hex⟩ := executes_of_executing ha
  have hprog := hmakers es _ _ hstart a.index a.thread hex.here
  rw [hex.calls] at hprog
  rcases (hprog _ rfl (Y.engine.perform a.cmd a.env
    (a.thread.view (Y.run ⟨w, []⟩ es).world)).1 _ rfl).1 htouches with hfalse | hmade
  · exact hfalse.elim
  · exact hmade

/-- Every call that is performed is one that its program may issue. -/
theorem executed_of_issues {P : Cmd S → Prop} (hprogram : ∀ l, Issues P (Y.program l)) {w : W}
    {e : Event E M κ} {a : Action S R E W K ε κ}
    (ha : a ∈ Y.executing (Y.run ⟨w, []⟩ es) e) : P a.cmd := by
  by_contra hother
  have hnever : ∀ (es : List (Event E M κ)) (cfg : Config S R E W K ε κ),
      ¬ Y.Occurs (Y.MakesNow (fun _ _ => False) a.index) cfg es := by
    intro es
    induction es with
    | nil => exact fun _ h => h
    | cons e es ih =>
      rintro cfg (⟨_, -, -, hfalse⟩ | hlater)
      · exact hfalse
      · exact ih _ hlater
  have hown : ∀ l, TouchesOwn (fun c => ¬ P c) (fun _ _ => False) (fun _ _ => True) (Y.program l)
      False := by
    intro l
    apply TouchesOwn.mono (fun _ _ _ => trivial)
      (TouchesOwn.of_issues (Issues.mono _ (hprogram l)))
    intro c hc hnot
    exact hnot hc
  exact hnever es ⟨w, []⟩ (touched_by_maker hown ha hother)

/-- A step that makes the thing is a deed that brings it about. -/
theorem deed_of_occurs {P : W → Prop} {i : ℕ}
    (hmakes : ∀ c env (v : View S E W K), makes c (Y.engine.perform c env v).1 →
      ¬ P v.world ∧ P (Y.engine.perform c env v).2.world)
    (h : Y.Occurs (Y.MakesNow makes i) cfg es) :
    ∃ d ∈ Y.deeds i cfg es, ¬ P d.1 ∧ P d.2 := by
  induction es generalizing cfg with
  | nil => exact h.elim
  | cons e es ih =>
    rcases h with ⟨a, ha, hi, hnow⟩ | hlater
    · obtain ⟨k, rfl, hex⟩ := executes_of_executing ha
      obtain ⟨hbefore, hafter⟩ := hmakes _ _ _ hnow
      refine ⟨(cfg.world, (Y.step cfg (.exec a.index a.env : Event E M κ)).world),
        List.mem_append_left _ ?_, hbefore, ?_⟩
      · simp only [deed, Option.mem_def.mp ha, if_pos hi]
        exact List.mem_singleton_self _
      · rw [hex.step_eq]
        exact hafter
    · obtain ⟨d, hd, hmade⟩ := ih hlater
      exact ⟨d, List.mem_append_right _ hd, hmade⟩

theorem deeds_append (i : ℕ) (cfg : Config S R E W K ε κ) (es fs : List (Event E M κ)) :
    Y.deeds i cfg (es ++ fs) = Y.deeds i cfg es ++ Y.deeds i (Y.run cfg es) fs := by
  induction es generalizing cfg with
  | nil => rfl
  | cons e es ih =>
    show Y.deed i cfg e ++ Y.deeds i (Y.step cfg e) (es ++ fs) = _
    rw [ih, run_cons, deeds, List.append_assoc]

theorem Along.of_splits {ok : Config S R E W K ε κ → Event E M κ → Prop}
    (h : ∀ before e after, es = before ++ e :: after → ok (Y.run cfg before) e) :
    Y.Along ok cfg es := by
  induction es generalizing cfg with
  | nil => exact trivial
  | cons e es ih =>
    refine ⟨h [] e es rfl, ih ?_⟩
    intro before e' after hes
    exact h (e :: before) e' after (congrArg (e :: ·) hes)

/-- What thread `i` has made and no step unmakes, no other thread touches. -/
theorem untouched_by_others {P : W → Prop} {w : W} {i : ℕ} {d : W × W}
    (hprogram : ∀ l, TouchesOwn touches makes (fun _ _ => True) (Y.program l) False)
    (hmakes : ∀ c env (v : View S E W K), makes c (Y.engine.perform c env v).1 →
      ¬ P v.world ∧ P (Y.engine.perform c env v).2.world)
    (hrun : Y.Along (fun cfg e => P cfg.world → P (Y.step cfg e).world) ⟨w, []⟩ es)
    (hd : d ∈ Y.deeds i ⟨w, []⟩ es) (hbefore : ¬ P d.1) (hafter : P d.2) :
    Y.Along (fun cfg e => ∀ a ∈ Y.executing cfg e, a.index ≠ i → ¬ touches a.cmd) ⟨w, []⟩ es := by
  apply Along.of_splits
  intro before e after hes a ha hne htouches
  obtain ⟨d', hd', hbefore', hafter'⟩ :=
    deed_of_occurs hmakes (touched_by_maker hprogram ha htouches)
  have hmem : d' ∈ Y.deeds a.index ⟨w, []⟩ es := by
    rw [hes, deeds_append]
    exact List.mem_append_left _ hd'
  exact brought_about_once hne.symm hrun hd hbefore hafter hmem hbefore' hafter'

end System

end ReadCommitted
