import CryptoLink.Library.Histories
import Mathlib.Data.List.Perm.Basic

/-!
# Calls without transactions

Where every call commits single statements and there are no locks, nothing
stands in the way of a statement, and a thread is its label and what is left of
its program.
-/

namespace ReadCommitted

open StatementPrograms

variable {S : Type} {R : S → Type} {E W : Type} {ε κ M : Type}

/-- The call is a statement on the pool. -/
def Cmd.isSingle (c : Cmd S) : Prop := ∃ s, c = .stmt .pool s

namespace System

/-- Every program issues single statements only. -/
def SinglesOnly (Y : System S R E W Empty ε κ M) : Prop :=
  ∀ l, Issues Cmd.isSingle (Y.program l)

/-- Every thread is idle and goes on with single statements. -/
def Plain (cfg : Config S R E W Empty ε κ) : Prop :=
  ∀ th ∈ cfg.threads, th.session = .idle ∧ Issues Cmd.isSingle th.prog

theorem plain_of_no_threads (w : W) : Plain (⟨w, []⟩ : Config S R E W Empty ε κ) :=
  fun _ h => by cases h

/-- What a step of plain threads can be. -/
inductive PlainStep (Y : System S R E W Empty ε κ M) (cfg : Config S R E W Empty ε κ) :
    Event E M κ → Config S R E W Empty ε κ → Prop
  | nothing (e : Event E M κ) : PlainStep Y cfg e cfg
  | start (l : κ) :
      PlainStep Y cfg (.start l) ⟨cfg.world, cfg.threads ++ [⟨l, Y.program l, .idle⟩]⟩
  | crash (i : ℕ) (th : Thread S R E W Empty ε κ) (here : cfg.threads[i]? = some th) :
      PlainStep Y cfg (.crash i) ⟨cfg.world, cfg.threads.set i ⟨th.label, .ret (), .idle⟩⟩
  | move (m : M) : PlainStep Y cfg (.move m) ⟨Y.move m cfg.world, cfg.threads⟩
  | stmt (i : ℕ) (env : E) (l : κ) (s : S) (k : R s → Prog (Cmd S) (Answer R) ε Unit)
      (here : cfg.threads[i]? = some ⟨l, .call (.stmt .pool s) k, .idle⟩)
      (executing : Y.executing cfg (.exec i env) =
        some ⟨i, env, ⟨l, .call (.stmt .pool s) k, .idle⟩, .stmt .pool s⟩) :
      PlainStep Y cfg (.exec i env) ⟨Y.engine.autocommit s env cfg.world,
        cfg.threads.set i ⟨l, k (Y.engine.reply s env cfg.world), .idle⟩⟩

variable {Y : System S R E W Empty ε κ M} {cfg : Config S R E W Empty ε κ}

theorem Plain.step_cases (h : Plain cfg) (e : Event E M κ) : PlainStep Y cfg e (Y.step cfg e) := by
  cases e with
  | start l => exact .start l
  | move m => exact .move m
  | crash i =>
    cases hi : cfg.threads[i]? with
    | none =>
      simp only [System.step, hi]
      exact .nothing _
    | some th =>
      simp only [System.step, hi]
      exact .crash i th hi
  | exec i env =>
    rcases exec_cases Y cfg i env with hs | ⟨th, c, k, hex⟩
    · rw [hs]
      exact .nothing _
    · obtain ⟨hidle, hissues⟩ := h th (List.mem_of_getElem? hex.here)
      rw [hex.calls] at hissues
      obtain ⟨⟨s, rfl⟩, -⟩ := hissues
      obtain ⟨l, prog, session⟩ := th
      cases hidle
      cases hex.calls
      rw [hex.step_eq]
      exact .stmt i env l s k hex.here hex.executing_eq

theorem Plain.step (hY : SinglesOnly Y) (h : Plain cfg) (e : Event E M κ) :
    Plain (Y.step cfg e) := by
  have hset : ∀ (i : ℕ) (x : Thread S R E W Empty ε κ),
      x.session = .idle ∧ Issues Cmd.isSingle x.prog → ∀ th ∈ cfg.threads.set i x,
        th.session = .idle ∧ Issues Cmd.isSingle th.prog := by
    intro i x hx th hth
    rcases List.mem_or_eq_of_mem_set hth with hold | rfl
    · exact h th hold
    · exact hx
  have hs : PlainStep Y cfg e (Y.step cfg e) := h.step_cases e
  generalize Y.step cfg e = cfg' at hs
  cases hs with
  | nothing => exact h
  | start l =>
    intro th hth
    rcases List.mem_append.mp hth with hold | hnew
    · exact h th hold
    · rw [List.mem_singleton.mp hnew]
      exact ⟨rfl, hY l⟩
  | crash i th here => exact hset i _ ⟨rfl, .ret ()⟩
  | move m => exact h
  | stmt i env l s k here executing =>
    have hissues := (h _ (List.mem_of_getElem? here)).2
    exact hset i _ ⟨rfl, hissues.2 _⟩

/-- A call that is executed is a statement, and its step is the statement. -/
theorem step_of_executing {e : Event E M κ} {x : Action S R E W Empty ε κ} {s : S}
    (hx : x ∈ Y.executing cfg e) (hcmd : x.cmd = .stmt .pool s) :
    (Y.step cfg e).world = Y.engine.autocommit s x.env cfg.world := by
  obtain ⟨k, rfl, hex⟩ := executes_of_executing hx
  obtain ⟨i, env, th, c⟩ := x
  cases hcmd
  rw [hex.step_eq]
  rfl

theorem Along.and {ok ok' : Config S R E W Empty ε κ → Event E M κ → Prop}
    {es : List (Event E M κ)} (h : Y.Along ok cfg es) (h' : Y.Along ok' cfg es) :
    Y.Along (fun cfg e => ok cfg e ∧ ok' cfg e) cfg es := by
  induction es generalizing cfg with
  | nil => exact trivial
  | cons e es ih => exact ⟨⟨h.1, h'.1⟩, ih h.2 h'.2⟩

section Lists

variable {threads : List (Thread S R E W Empty ε κ)} {i : ℕ} {th : Thread S R E W Empty ε κ}

/-- Beside a thread that has gone on there are the threads that were beside it. -/
theorem mem_set_iff {x : Thread S R E W Empty ε κ} (here : threads[i]? = some th)
    (y : Thread S R E W Empty ε κ) : y ∈ threads.set i x ↔ y = x ∨ y ∈ threads.eraseIdx i := by
  have hlt : i < threads.length := (List.getElem?_eq_some_iff.mp here).1
  rw [(List.set_perm_cons_eraseIdx hlt x).mem_iff, List.mem_cons]

theorem mem_iff (here : threads[i]? = some th) (y : Thread S R E W Empty ε κ) :
    y ∈ threads ↔ y = th ∨ y ∈ threads.eraseIdx i := by
  obtain ⟨hlt, heq⟩ := List.getElem?_eq_some_iff.mp here
  rw [← (List.getElem_cons_eraseIdx_perm hlt).mem_iff, List.mem_cons, heq]

/-- A thread that goes on keeps its label. -/
theorem labels_set (here : threads[i]? = some th)
    (prog : Prog (Cmd S) (Answer R) ε Unit) (session : Session S E W Empty) :
    (threads.set i ⟨th.label, prog, session⟩).map Thread.label = threads.map Thread.label := by
  apply List.ext_getElem?
  intro j
  rw [List.getElem?_map, List.getElem?_map, List.getElem?_set]
  split
  · rename_i hij
    have hlt : i < threads.length := (List.getElem?_eq_some_iff.mp here).1
    rw [← hij, if_pos hlt, here]
    rfl
  · rfl

theorem any_eq (here : threads[i]? = some th) (f : Thread S R E W Empty ε κ → Bool) :
    threads.any f = (f th || (threads.eraseIdx i).any f) := by
  obtain ⟨hlt, heq⟩ := List.getElem?_eq_some_iff.mp here
  have hperm := List.getElem_cons_eraseIdx_perm hlt
  rw [← hperm.any_eq, List.any_cons, heq]

theorem any_set (here : threads[i]? = some th) (x : Thread S R E W Empty ε κ)
    (f : Thread S R E W Empty ε κ → Bool) :
    (threads.set i x).any f = (f x || (threads.eraseIdx i).any f) := by
  have hlt : i < threads.length := (List.getElem?_eq_some_iff.mp here).1
  rw [(List.set_perm_cons_eraseIdx hlt x).any_eq, List.any_cons]

/-- What is true of any two labels is true of a thread's and of one beside it. -/
theorem beside_of_pairwise {r : κ → κ → Prop} (hsymm : ∀ a b, r a b → r b a)
    (h : (threads.map Thread.label).Pairwise r) (here : threads[i]? = some th)
    {other : Thread S R E W Empty ε κ} (hother : other ∈ threads.eraseIdx i) :
    r th.label other.label := by
  obtain ⟨hlt, heq⟩ := List.getElem?_eq_some_iff.mp here
  have hperm := (List.getElem_cons_eraseIdx_perm hlt).map Thread.label
  have hpair := (hperm.pairwise_iff (hsymm _ _)).mpr h
  rw [List.map_cons, heq] at hpair
  exact (List.pairwise_cons.mp hpair).1 _ (List.mem_map_of_mem hother)

end Lists

/-- What steps of plain threads keep, every run whose steps meet `ok` keeps. -/
theorem Plain.invariant (hY : SinglesOnly Y) {ok : Config S R E W Empty ε κ → Event E M κ → Prop}
    {I : Config S R E W Empty ε κ → Prop}
    (kept : ∀ cfg e cfg', I cfg → ok cfg e → PlainStep Y cfg e cfg' → I cfg')
    {es : List (Event E M κ)} (hplain : Plain cfg) (hrun : Y.Along ok cfg es) (hI : I cfg) :
    Plain (Y.run cfg es) ∧ I (Y.run cfg es) :=
  Along.invariant (Y := Y) (I := fun cfg => Plain cfg ∧ I cfg)
    (fun cfg e hcfg hok => ⟨hcfg.1.step hY e, kept cfg e _ hcfg.2 hok (hcfg.1.step_cases e)⟩)
    hrun ⟨hplain, hI⟩

theorem plain_invariant (hY : SinglesOnly Y) {ok : Config S R E W Empty ε κ → Event E M κ → Prop}
    {I : Config S R E W Empty ε κ → Prop}
    (kept : ∀ cfg e cfg', I cfg → ok cfg e → PlainStep Y cfg e cfg' → I cfg') {w : W}
    {es : List (Event E M κ)} (hrun : Y.Along ok ⟨w, []⟩ es) (hI : I ⟨w, []⟩) :
    I (Y.run ⟨w, []⟩ es) :=
  (Plain.invariant hY kept (plain_of_no_threads w) hrun hI).2

/-- Whatever a thread still does is among the calls of its label. -/
def Follows (P : κ → Cmd S → Prop) (cfg : Config S R E W Empty ε κ) : Prop :=
  ∀ th ∈ cfg.threads, Issues (P th.label) th.prog

theorem follows_step {P : κ → Cmd S → Prop} (hP : ∀ l, Issues (P l) (Y.program l))
    {e : Event E M κ} {cfg' : Config S R E W Empty ε κ} (h : Follows P cfg)
    (hs : PlainStep Y cfg e cfg') : Follows P cfg' := by
  cases hs with
  | nothing => exact h
  | move m => exact h
  | start l =>
    intro th hth
    rcases List.mem_append.mp hth with hold | hnew
    · exact h th hold
    · rw [List.mem_singleton.mp hnew]
      exact hP l
  | crash i th here =>
    intro other hother
    rcases List.mem_or_eq_of_mem_set hother with hold | rfl
    · exact h other hold
    · exact .ret ()
  | stmt i env l s k here executing =>
    have hissues := h _ (List.mem_of_getElem? here)
    intro other hother
    rcases List.mem_or_eq_of_mem_set hother with hold | rfl
    · exact h other hold
    · exact hissues.2 _

theorem follows_run (hY : SinglesOnly Y) {P : κ → Cmd S → Prop}
    (hP : ∀ l, Issues (P l) (Y.program l)) (w : W) (es : List (Event E M κ)) :
    Follows P (Y.run ⟨w, []⟩ es) :=
  plain_invariant hY (fun _ _ _ hcfg _ hs => follows_step hP hcfg hs)
    (Along.of_always Y (fun _ _ => trivial) es) fun _ h => by cases h

section Later

variable {J : W → Prop} {admits : Cmd S → E → Prop} {P Q : Cmd S → Prop}

/-- Between its calls a program finds `J` kept, and its own calls are in `P`. -/
def keeping (G : Engine S R E W Empty) (J : W → Prop) (admits : Cmd S → E → Prop)
    (P : Cmd S → Prop) : Setting (Cmd S) (Answer R) W where
  rely w w' := J w → J w'
  does c w r w' := J w ∧ ∃ env, admits c env ∧ G.perform c env ⟨w, .idle⟩ = (r, ⟨w', .idle⟩)
  guar c _ _ _ := P c
  rely_refl _ h := h
  rely_trans h h' hw := h' (h hw)

/-- The surroundings answer the calls of the step as admitted. -/
def Admitted (Y : System S R E W Empty ε κ M) (admits : Cmd S → E → Prop)
    (cfg : Config S R E W Empty ε κ) (e : Event E M κ) : Prop :=
  ∀ x ∈ Y.executing cfg e, admits x.cmd x.env

/-- A call of the step is in `Q`, if its thread is not among the first `n`. -/
def LaterIn (Y : System S R E W Empty ε κ M) (n : ℕ) (Q : Cmd S → Prop)
    (cfg : Config S R E W Empty ε κ) (e : Event E M κ) : Prop :=
  ∀ x ∈ Y.executing cfg e, n ≤ x.index → Q x.cmd

instance Admitted.decidable [∀ c env, Decidable (admits c env)] (cfg : Config S R E W Empty ε κ)
    (e : Event E M κ) : Decidable (Admitted Y admits cfg e) :=
  inferInstanceAs (Decidable (∀ x ∈ Y.executing cfg e, admits x.cmd x.env))

instance LaterIn.decidable (n : ℕ) [DecidablePred Q] (cfg : Config S R E W Empty ε κ)
    (e : Event E M κ) : Decidable (LaterIn Y n Q cfg e) :=
  inferInstanceAs (Decidable (∀ x ∈ Y.executing cfg e, n ≤ x.index → Q x.cmd))

/-- The first `n` threads go on with calls in `P`, the others keep their promise. -/
structure Promised (Y : System S R E W Empty ε κ M) (J : W → Prop) (admits : Cmd S → E → Prop)
    (P Q : Cmd S → Prop) (n : ℕ) (cfg : Config S R E W Empty ε κ) : Prop where
  holds : J cfg.world
  length : n ≤ cfg.threads.length
  old : ∀ i th, cfg.threads[i]? = some th → i < n → Issues P th.prog
  later : ∀ i th, cfg.threads[i]? = some th → n ≤ i →
    Meets (keeping Y.engine J admits fun c => P c ∧ Q c) (fun _ _ => True) th.prog cfg.world

variable {n : ℕ}

theorem Promised.step
    (hkeeps : ∀ s env w, P (.stmt .pool s) → J w → J (Y.engine.autocommit s env w))
    (hmove : ∀ m w, J w → J (Y.move m w))
    (hnew : ∀ l w, J w →
      Meets (keeping Y.engine J admits fun c => P c ∧ Q c) (fun _ _ => True) (Y.program l) w)
    {e : Event E M κ} {cfg' : Config S R E W Empty ε κ} (h : Promised Y J admits P Q n cfg)
    (hadmits : Admitted Y admits cfg e) (hs : PlainStep Y cfg e cfg') :
    Promised Y J admits P Q n cfg' := by
  cases hs with
  | nothing => exact h
  | move m =>
    refine ⟨hmove m cfg.world h.holds, h.length, h.old, ?_⟩
    intro i th hi hn
    exact (h.later i th hi hn).stable (hmove m cfg.world)
  | start l =>
    refine ⟨h.holds, ?_, ?_, ?_⟩
    · rw [List.length_append]
      exact Nat.le_trans h.length (Nat.le_add_right _ _)
    · intro i th hi hlt
      rw [List.getElem?_append_left (Nat.lt_of_lt_of_le hlt h.length)] at hi
      exact h.old i th hi hlt
    · intro i th hi hn
      rw [List.getElem?_append] at hi
      split at hi
      · exact h.later i th hi hn
      · rw [List.getElem?_singleton] at hi
        split at hi
        · cases hi
          exact hnew l cfg.world h.holds
        · cases hi
  | crash j x here =>
    refine ⟨h.holds, by rw [List.length_set]; exact h.length, ?_, ?_⟩
    · intro i th hi hlt
      rw [List.getElem?_set] at hi
      split at hi
      · split at hi
        · cases hi
          exact .ret ()
        · cases hi
      · exact h.old i th hi hlt
    · intro i th hi hn
      rw [List.getElem?_set] at hi
      split at hi
      · split at hi
        · cases hi
          exact fun _ _ => trivial
        · cases hi
      · exact h.later i th hi hn
  | stmt j env l s k here executing =>
    have hadm : admits (.stmt .pool s) env := hadmits _ executing
    have hown : n ≤ j → (P (.stmt .pool s) ∧ Q (.stmt .pool s)) ∧
        Meets (keeping Y.engine J admits fun c => P c ∧ Q c) (fun _ _ => True)
          (k (Y.engine.reply s env cfg.world)) (Y.engine.autocommit s env cfg.world) := by
      intro hn
      exact h.later j _ here hn cfg.world (fun hw => hw) _ _ ⟨h.holds, env, hadm, rfl⟩
    have hP : P (.stmt .pool s) := by
      by_cases hn : n ≤ j
      · exact (hown hn).1.1
      · exact (h.old j _ here (by omega)).1
    have hJ := hkeeps s env cfg.world hP h.holds
    refine ⟨hJ, by rw [List.length_set]; exact h.length, ?_, ?_⟩
    · intro i th hi hlt
      rw [List.getElem?_set] at hi
      split at hi
      · rename_i hij
        split at hi
        · cases hi
          exact (h.old j _ here (by omega)).2 _
        · cases hi
      · exact h.old i th hi hlt
    · intro i th hi hn
      rw [List.getElem?_set] at hi
      split at hi
      · rename_i hij
        split at hi
        · cases hi
          exact (hown (by omega)).2
        · cases hi
      · exact (h.later i th hi hn).stable fun _ => hJ

theorem Promised.laterIn (h : Promised Y J admits P Q n cfg) {e : Event E M κ}
    (hadmits : Admitted Y admits cfg e) (hplain : Plain cfg) : LaterIn Y n Q cfg e := by
  intro x hx hn
  obtain ⟨k, rfl, hex⟩ := executes_of_executing hx
  have hissues := (hplain x.thread (List.mem_of_getElem? hex.here)).2
  rw [hex.calls] at hissues
  have hidle : ∀ c : Cmd S, c.isSingle → Y.engine.perform c x.env ⟨cfg.world, .idle⟩ =
      ((Y.engine.perform c x.env ⟨cfg.world, .idle⟩).1,
        ⟨(Y.engine.perform c x.env ⟨cfg.world, .idle⟩).2.world, .idle⟩) := by
    rintro _ ⟨s, rfl⟩
    rfl
  have hlater := h.later x.index x.thread hex.here hn
  rw [hex.calls] at hlater
  exact (hlater cfg.world (fun hw => hw) _ _
    ⟨h.holds, x.env, hadmits x hx, hidle x.cmd hissues.1⟩).1.2

/-- Calls that start where `J` holds keep their promise, as long as the others only make
calls that keep `J`. -/
theorem later_along (hY : SinglesOnly Y)
    (hkeeps : ∀ s env w, P (.stmt .pool s) → J w → J (Y.engine.autocommit s env w))
    (hmove : ∀ m w, J w → J (Y.move m w))
    (hnew : ∀ l w, J w →
      Meets (keeping Y.engine J admits fun c => P c ∧ Q c) (fun _ _ => True) (Y.program l) w)
    (hplain : Plain cfg) (hJ : J cfg.world) (hold : ∀ th ∈ cfg.threads, Issues P th.prog)
    {es : List (Event E M κ)} (hrun : Y.Along (Admitted Y admits) cfg es) :
    Y.Along (LaterIn Y cfg.threads.length Q) cfg es := by
  have hstart : Promised Y J admits P Q cfg.threads.length cfg := by
    refine ⟨hJ, Nat.le_refl _, ?_, ?_⟩
    · exact fun i th hi _ => hold th (List.mem_of_getElem? hi)
    · intro i th hi hn
      have hlt := (List.getElem?_eq_some_iff.mp hi).1
      omega
  clear hJ hold
  generalize cfg.threads.length = n at hstart ⊢
  induction es generalizing cfg with
  | nil => exact trivial
  | cons e es ih =>
    refine ⟨hstart.laterIn hrun.1 hplain, ?_⟩
    exact ih (hplain.step hY e) hrun.2 (hstart.step hkeeps hmove hnew hrun.1 (hplain.step_cases e))

end Later

end System

end ReadCommitted
