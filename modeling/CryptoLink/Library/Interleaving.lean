import CryptoLink.Library.ReadCommitted

/-!
# Interleavings of transactional programs

Any number of programs run side by side, one call at a time, over one world.
A schedule is a list of events: a program starts, performs its next call,
crashes (its open transaction is rolled back), or the world moves by itself.
A call that wants a lock another connection holds does not run at that step.
-/

namespace ReadCommitted

open StatementPrograms

variable {S : Type} {R : S → Type} {E W K : Type} {ε κ M : Type}

structure Thread (S : Type) (R : S → Type) (E W K ε κ : Type) where
  label : κ
  prog : Prog (Cmd S) (Answer R) ε Unit
  session : Session S E W K

structure Config (S : Type) (R : S → Type) (E W K ε κ : Type) where
  world : W
  threads : List (Thread S R E W K ε κ)

inductive Event (E M κ : Type) where
  | start (c : κ)
  | exec (i : ℕ) (env : E)
  | crash (i : ℕ)
  | move (m : M)

/-- None of these calls is cut off. -/
def Event.Uncut {E M κ : Type} (calls : ℕ → Prop) : Event E M κ → Prop
  | .crash i => ¬ calls i
  | _ => True

instance {E M κ : Type} (calls : ℕ → Prop) [DecidablePred calls] (e : Event E M κ) :
    Decidable (e.Uncut calls) := by
  delta Event.Uncut
  induction e using Event.casesOn <;> infer_instance

/-- `κ` names the calls that can be started, `M` the moves of the world that
no program makes. -/
structure System (S : Type) (R : S → Type) (E W K ε κ M : Type) where
  engine : Engine S R E W K
  program : κ → Prog (Cmd S) (Answer R) ε Unit
  move : M → W → W

def Thread.view (th : Thread S R E W K ε κ) (w : W) : View S E W K := ⟨w, th.session⟩

namespace System

/-- No two open transactions hold one lock. -/
def Exclusive (Y : System S R E W K ε κ M) (cfg : Config S R E W K ε κ) : Prop :=
  ∀ (i j : ℕ) (th th' : Thread S R E W K ε κ), cfg.threads[i]? = some th →
    cfg.threads[j]? = some th' → i ≠ j →
    ∀ key ∈ Y.engine.holds th.session, key ∉ Y.engine.holds th'.session

theorem exclusive_of_no_threads (Y : System S R E W K ε κ M) (w : W) :
    Exclusive Y (⟨w, []⟩ : Config S R E W K ε κ) := by
  intro i j th th' hi
  simp at hi

variable (Y : System S R E W K ε κ M)

/-- A statement on the pool is another connection, so even the caller's own
transaction stands in its way. -/
def rival (i j : ℕ) : Cmd S → Bool
  | .stmt .tx _ => i != j
  | _ => true

theorem rival_of_ne {i j : ℕ} (h : j ≠ i) (c : Cmd S) : rival i j c = true := by
  cases c with
  | stmt q s => cases q <;> simp [rival, h.symm]
  | _ => rfl

variable [DecidableEq K]

def blocked (cfg : Config S R E W K ε κ) (i : ℕ) (c : Cmd S) (env : E) (v : View S E W K) : Bool :=
  (List.range cfg.threads.length).any fun j =>
    rival i j c && match cfg.threads[j]? with
      | none => false
      | some th => (Y.engine.wants c env v).any fun k => decide (k ∈ Y.engine.holds th.session)

def step (cfg : Config S R E W K ε κ) : Event E M κ → Config S R E W K ε κ
  | .start c => ⟨cfg.world, cfg.threads ++ [⟨c, Y.program c, .idle⟩]⟩
  | .exec i env =>
      match cfg.threads[i]? with
      | none => cfg
      | some th =>
        match th.prog with
        | .ret _ => cfg
        | .fail _ => cfg
        | .call c k =>
          if Y.blocked cfg i c env (th.view cfg.world) then cfg
          else
            let done := Y.engine.perform c env (th.view cfg.world)
            ⟨done.2.world, cfg.threads.set i ⟨th.label, k done.1, done.2.session⟩⟩
  | .crash i =>
      match cfg.threads[i]? with
      | none => cfg
      | some th => ⟨cfg.world, cfg.threads.set i ⟨th.label, .ret (), .idle⟩⟩
  | .move m => ⟨Y.move m cfg.world, cfg.threads⟩

def run (cfg : Config S R E W K ε κ) (es : List (Event E M κ)) : Config S R E W K ε κ :=
  es.foldl Y.step cfg

@[simp] theorem run_nil (cfg : Config S R E W K ε κ) : Y.run cfg [] = cfg := rfl

@[simp] theorem run_cons (cfg : Config S R E W K ε κ) (e : Event E M κ) (es : List (Event E M κ)) :
    Y.run cfg (e :: es) = Y.run (Y.step cfg e) es := rfl

/-- Every step of the run meets `ok` in the state it is taken from. -/
def Along (ok : Config S R E W K ε κ → Event E M κ → Prop) :
    Config S R E W K ε κ → List (Event E M κ) → Prop
  | _, [] => True
  | cfg, e :: es => ok cfg e ∧ Along ok (Y.step cfg e) es

/-- What holds at the start and is kept by every step that meets `ok` holds at
the end of every run whose steps all meet it. -/
theorem Along.invariant {ok : Config S R E W K ε κ → Event E M κ → Prop}
    {I : Config S R E W K ε κ → Prop} (kept : ∀ cfg e, I cfg → ok cfg e → I (Y.step cfg e))
    {cfg : Config S R E W K ε κ} {es : List (Event E M κ)} (hrun : Y.Along ok cfg es)
    (hI : I cfg) : I (Y.run cfg es) := by
  induction es generalizing cfg with
  | nil => exact hI
  | cons e es ih => exact ih hrun.2 (kept cfg e hI hrun.1)

theorem Along.mono {ok ok' : Config S R E W K ε κ → Event E M κ → Prop}
    {cfg : Config S R E W K ε κ} {es : List (Event E M κ)} (h : Y.Along ok cfg es)
    (hok : ∀ cfg e, ok cfg e → ok' cfg e) : Y.Along ok' cfg es := by
  induction es generalizing cfg with
  | nil => exact trivial
  | cons e es ih => exact ⟨hok cfg e h.1, ih h.2⟩

theorem Along.of_always {ok : Config S R E W K ε κ → Event E M κ → Prop} (h : ∀ cfg e, ok cfg e)
    {cfg : Config S R E W K ε κ} (es : List (Event E M κ)) : Y.Along ok cfg es := by
  induction es generalizing cfg with
  | nil => exact trivial
  | cons e es ih => exact ⟨h cfg e, ih⟩

instance Along.decidable (ok : Config S R E W K ε κ → Event E M κ → Prop)
    [∀ cfg e, Decidable (ok cfg e)] :
    (cfg : Config S R E W K ε κ) → (es : List (Event E M κ)) → Decidable (Y.Along ok cfg es)
  | _, [] => isTrue trivial
  | cfg, e :: es =>
      have := Along.decidable ok (Y.step cfg e) es
      inferInstanceAs (Decidable (ok cfg e ∧ Y.Along ok (Y.step cfg e) es))

theorem Along.append {ok : Config S R E W K ε κ → Event E M κ → Prop}
    {cfg : Config S R E W K ε κ} {es fs : List (Event E M κ)} :
    Y.Along ok cfg (es ++ fs) ↔ Y.Along ok cfg es ∧ Y.Along ok (Y.run cfg es) fs := by
  induction es generalizing cfg with
  | nil => simp [Along]
  | cons e es ih => simp only [List.cons_append, Along, run_cons, ih, and_assoc]

theorem run_append (cfg : Config S R E W K ε κ) (es fs : List (Event E M κ)) :
    Y.run cfg (es ++ fs) = Y.run (Y.run cfg es) fs := by
  simp [run, List.foldl_append]

/-- The call an event performs: by which thread, on what answer of the
surroundings. -/
structure Action (S : Type) (R : S → Type) (E W K ε κ : Type) where
  index : ℕ
  env : E
  thread : Thread S R E W K ε κ
  cmd : Cmd S

def executing (cfg : Config S R E W K ε κ) : Event E M κ → Option (Action S R E W K ε κ)
  | .exec i env =>
      match cfg.threads[i]? with
      | none => none
      | some th =>
        match th.prog with
        | .ret _ => none
        | .fail _ => none
        | .call c _ =>
          if Y.blocked cfg i c env (th.view cfg.world) then none else some ⟨i, env, th, c⟩
  | _ => none

/-- Thread `i` is about to perform `c`, and nothing stands in its way. -/
structure Executes (cfg : Config S R E W K ε κ) (i : ℕ) (env : E) (th : Thread S R E W K ε κ)
    (c : Cmd S) (k : Answer R c → Prog (Cmd S) (Answer R) ε Unit) : Prop where
  here : cfg.threads[i]? = some th
  calls : th.prog = .call c k
  free : Y.blocked cfg i c env (th.view cfg.world) = false

variable {Y}

theorem Executes.step_eq {cfg : Config S R E W K ε κ} {i : ℕ} {env : E}
    {th : Thread S R E W K ε κ} {c : Cmd S} {k : Answer R c → Prog (Cmd S) (Answer R) ε Unit}
    (h : Y.Executes cfg i env th c k) :
    Y.step cfg (.exec i env) =
      ⟨(Y.engine.perform c env (th.view cfg.world)).2.world,
        cfg.threads.set i ⟨th.label, k (Y.engine.perform c env (th.view cfg.world)).1,
          (Y.engine.perform c env (th.view cfg.world)).2.session⟩⟩ := by
  obtain ⟨label, prog, session⟩ := th
  have hprog : prog = .call c k := h.calls
  subst hprog
  simp [step, h.here, h.free]

/-- An `exec` either changes nothing or performs exactly one call. -/
theorem exec_cases (Y : System S R E W K ε κ M) (cfg : Config S R E W K ε κ) (i : ℕ) (env : E) :
    Y.step cfg (.exec i env) = cfg ∨ ∃ th c k, Y.Executes cfg i env th c k := by
  cases hth : cfg.threads[i]? with
  | none => left; simp [step, hth]
  | some th =>
    obtain ⟨label, prog, session⟩ := th
    cases prog with
    | ret a => left; simp [step, hth]
    | fail e => left; simp [step, hth]
    | call c k =>
      by_cases hb : Y.blocked cfg i c env (Thread.view ⟨label, .call c k, session⟩ cfg.world) = true
      · left; simp [step, hth, hb]
      · exact .inr ⟨_, c, k, hth, rfl, by simpa using hb⟩

theorem Executes.executing_eq {cfg : Config S R E W K ε κ} {i : ℕ} {env : E}
    {th : Thread S R E W K ε κ} {c : Cmd S} {k : Answer R c → Prog (Cmd S) (Answer R) ε Unit}
    (h : Y.Executes cfg i env th c k) :
    Y.executing cfg (.exec i env) = some ⟨i, env, th, c⟩ := by
  obtain ⟨label, prog, session⟩ := th
  have hprog : prog = .call c k := h.calls
  subst hprog
  simp [executing, h.here, h.free]

theorem Executes.unheld {cfg : Config S R E W K ε κ} {i : ℕ} {env : E}
    {th : Thread S R E W K ε κ} {c : Cmd S} {k : Answer R c → Prog (Cmd S) (Answer R) ε Unit}
    (h : Y.Executes cfg i env th c k) {j : ℕ} {other : Thread S R E W K ε κ}
    (hj : cfg.threads[j]? = some other) (hr : rival i j c = true) {key : K}
    (hk : key ∈ Y.engine.wants c env (th.view cfg.world)) :
    key ∉ Y.engine.holds other.session := by
  intro hheld
  have hfree := h.free
  unfold blocked at hfree
  rw [List.any_eq_false] at hfree
  have hlt : j < cfg.threads.length := (List.getElem?_eq_some_iff.mp hj).1
  have := hfree j (List.mem_range.mpr hlt)
  simp only [hr, hj, Bool.true_and, List.any_eq_true, decide_eq_true_eq, not_exists,
    not_and] at this
  exact this key hk hheld

theorem Exclusive.step {cfg : Config S R E W K ε κ} (h : Exclusive Y cfg) (e : Event E M κ) :
    Exclusive Y (Y.step cfg e) := by
  cases e with
  | start c =>
    intro i j th th' hi hj hne key hkey hkey'
    simp only [System.step, List.getElem?_append] at hi hj
    split at hi
    · split at hj
      · exact h i j th th' hi hj hne key hkey hkey'
      · rw [List.getElem?_singleton] at hj
        split at hj
        · cases hj; simp at hkey'
        · cases hj
    · rw [List.getElem?_singleton] at hi
      split at hi
      · cases hi; simp at hkey
      · cases hi
  | move m => exact h
  | crash i =>
    cases hth : cfg.threads[i]? with
    | none => simpa [System.step, hth] using h
    | some th =>
      intro a b x y ha hb hne key hx hy
      simp only [System.step, hth, List.getElem?_set] at ha hb
      by_cases hia : i = a
      · simp only [hia, if_true] at ha
        split at ha
        · cases ha; simp at hx
        · cases ha
      · by_cases hib : i = b
        · simp only [hib, if_true] at hb
          split at hb
          · cases hb; simp at hy
          · cases hb
        · simp only [hia, hib, if_false] at ha hb
          exact h a b x y ha hb hne key hx hy
  | exec i env =>
    rcases exec_cases Y cfg i env with hs | ⟨th, c, k, hex⟩
    · rw [hs]; exact h
    · rw [hex.step_eq]
      have hlt : i < cfg.threads.length := (List.getElem?_eq_some_iff.mp hex.here).1
      -- what the moved thread holds is disjoint from what any other holds
      have apart : ∀ (b : ℕ) (other : Thread S R E W K ε κ), cfg.threads[b]? = some other → b ≠ i →
          ∀ key ∈ Y.engine.holds (Y.engine.perform c env (th.view cfg.world)).2.session,
            key ∉ Y.engine.holds other.session := by
        intro b other hb hne key hkey
        rcases Engine.holds_perform hkey with hold | ⟨hw, -⟩
        · exact h i b th other hex.here hb hne.symm key hold
        · exact hex.unheld hb (rival_of_ne hne c) hw
      intro a b x y ha hb hne key hx hy
      simp only [List.getElem?_set] at ha hb
      by_cases hia : i = a
      · subst hia
        have hib : i ≠ b := hne
        simp only [hlt, if_true, hib, if_false, Option.some.injEq] at ha hb
        subst ha
        exact apart b y hb hne.symm key hx hy
      · by_cases hib : i = b
        · subst hib
          simp only [hlt, if_true, hia, if_false, Option.some.injEq] at ha hb
          subst hb
          exact apart a x ha hne key hy hx
        · simp only [hia, hib, if_false] at ha hb
          exact h a b x y ha hb hne key hx hy

section Standing

variable {ρ : Type} {get : W → ρ} {key : K} {P : Entry S E W → Prop} {I : ρ → Prop}

/-- Every open transaction whose log has an entry in `P` finds `I` true of the
committed world. -/
def Standing (get : W → ρ) (P : Entry S E W → Prop) (I : ρ → Prop)
    (cfg : Config S R E W K ε κ) : Prop :=
  ∀ (i : ℕ) (th : Thread S R E W K ε κ) (log : Log S E W), cfg.threads[i]? = some th →
    th.session.txn = some log → (∃ e ∈ log, P e) → I (get cfg.world)

/-- A step of thread `i` leaves alone what another thread has locked. -/
theorem Executes.get_of_held {cfg : Config S R E W K ε κ} {i : ℕ} {env : E}
    {th : Thread S R E W K ε κ} {c : Cmd S} {k : Answer R c → Prog (Cmd S) (Answer R) ε Unit}
    (hex : Y.Executes cfg i env th c k) (hexcl : Exclusive Y cfg)
    (hframe : Framed Y.engine get key) {j : ℕ} {other : Thread S R E W K ε κ}
    (hj : cfg.threads[j]? = some other) (hne : j ≠ i)
    (hheld : key ∈ Y.engine.holds other.session) :
    get (Y.engine.perform c env (th.view cfg.world)).2.world = get cfg.world := by
  have hfree : key ∉ Y.engine.holds th.session := fun h =>
    hexcl i j th other hex.here hj hne.symm key h hheld
  exact hframe.perform hfree fun hwant => hex.unheld hj (rival_of_ne hne c) hwant hheld

/-- The thread that moved: its log grew by the entry it just wrote, or is the
log it had. -/
theorem Standing.own {cfg : Config S R E W K ε κ} {i : ℕ} {env : E}
    {th : Thread S R E W K ε κ} {c : Cmd S}
    {k : Answer R c → Prog (Cmd S) (Answer R) ε Unit} {log : Log S E W}
    (h : Standing get P I cfg) (hframe : Framed Y.engine get key)
    (hex : Y.Executes cfg i env th c k)
    (hlock : ∀ entry : Entry S E W, P entry → key ∈ Y.engine.locks entry.stmt entry.env entry.seen)
    (hwrite : ∀ s old, c = .stmt .tx s → th.session.txn = some old →
      P ⟨s, env, Y.engine.inside (th.view cfg.world)⟩ → I (get cfg.world))
    (hlog : (Y.engine.perform c env (th.view cfg.world)).2.session.txn = some log)
    (hP : ∃ entry ∈ log, P entry) :
    I (get (Y.engine.perform c env (th.view cfg.world)).2.world) := by
  obtain ⟨label, prog, txn, kept⟩ := th
  cases c with
  | beginTx =>
    by_cases ho : Y.engine.opens env = true
    · simp only [Engine.perform, ho, if_true, Option.some.injEq] at hlog
      subst hlog
      obtain ⟨entry, hmem, _⟩ := hP
      cases hmem
    · simp only [Engine.perform, ho] at hlog ⊢
      exact h i _ log hex.here hlog hP
  | commitTx =>
    cases txn with
    | none => cases hlog
    | some old =>
      by_cases hl : Y.engine.lands env = true <;>
        simp [Engine.perform, Thread.view, hl] at hlog
  | rollbackTx => cases hlog
  | keep s =>
    by_cases ho : Y.engine.opens env = true <;>
      simp only [Engine.perform, ho] at hlog ⊢ <;> exact h i _ log hex.here hlog hP
  | release => exact h i _ log hex.here hlog hP
  | stmt q s =>
    cases q with
    | pool =>
      have hlog' : txn = some log := hlog
      obtain ⟨entry, hmem, hPe⟩ := hP
      have hkey : key ∈ Y.engine.holds ⟨txn, kept⟩ := by
        rw [hlog']
        exact Engine.mem_holds_of_mem_log _ hmem (hlock entry hPe)
      have hget : get (Y.engine.autocommit s env cfg.world) = get cfg.world :=
        hframe.autocommit fun hw => hex.unheld hex.here rfl hw hkey
      have := h i _ log hex.here hlog ⟨entry, hmem, hPe⟩
      simpa only [Engine.perform, Thread.view, hget] using this
    | tx =>
      cases txn with
      | none => cases hlog
      | some old =>
        simp only [Engine.perform, Thread.view, Option.some.injEq] at hlog ⊢
        rw [hframe.lasting]
        subst hlog
        obtain ⟨entry, hmem, hPe⟩ := hP
        rcases List.mem_append.mp hmem with hold | hnew
        · exact h i _ old hex.here rfl ⟨entry, hold, hPe⟩
        · rw [List.mem_singleton] at hnew
          subst hnew
          exact hwrite s old rfl rfl hPe

/-- A fact true of a row when a transaction wrote it is still true when the
transaction ends: the row stays locked in between. -/
theorem Standing.step {cfg : Config S R E W K ε κ} {e : Event E M κ}
    (h : Standing get P I cfg) (hexcl : Exclusive Y cfg) (hframe : Framed Y.engine get key)
    (hmove : ∀ m w, get (Y.move m w) = get w)
    (hlock : ∀ entry : Entry S E W, P entry → key ∈ Y.engine.locks entry.stmt entry.env entry.seen)
    (hwrite : ∀ i env th s k log, e = .exec i env → Y.Executes cfg i env th (.stmt .tx s) k →
      th.session.txn = some log → P ⟨s, env, Y.engine.inside (th.view cfg.world)⟩ →
      I (get cfg.world)) :
    Standing get P I (Y.step cfg e) := by
  cases e with
  | start c =>
    intro j th log hj hlog hP
    simp only [System.step, List.getElem?_append] at hj
    split at hj
    · exact h j th log hj hlog hP
    · rw [List.getElem?_singleton] at hj
      split at hj
      · cases hj; cases hlog
      · cases hj
  | move m =>
    intro j th log hj hlog hP
    have := h j th log hj hlog hP
    simpa [System.step, hmove] using this
  | crash i =>
    cases hth : cfg.threads[i]? with
    | none => simpa [System.step, hth] using h
    | some th =>
      intro j x log hj hlog hP
      simp only [System.step, hth, List.getElem?_set] at hj ⊢
      by_cases hij : i = j
      · simp only [hij, if_true] at hj
        split at hj
        · cases hj; cases hlog
        · cases hj
      · simp only [hij, if_false] at hj
        exact h j x log hj hlog hP
  | exec i env =>
    rcases exec_cases Y cfg i env with hs | ⟨th, c, k, hex⟩
    · rw [hs]; exact h
    · rw [hex.step_eq]
      have hlt : i < cfg.threads.length := (List.getElem?_eq_some_iff.mp hex.here).1
      intro j x log hj hlog hP
      simp only [List.getElem?_set] at hj
      by_cases hij : i = j
      · subst hij
        simp only [hlt, if_true, Option.some.injEq] at hj
        subst hj
        refine Standing.own h hframe hex hlock (fun s old hc hold hPe => ?_) hlog hP
        subst hc
        exact hwrite i env th s k old rfl hex hold hPe
      · simp only [hij, if_false] at hj
        have hkey : key ∈ Y.engine.holds x.session := by
          obtain ⟨label, prog, txn, kept⟩ := x
          obtain ⟨entry, hmem, hPe⟩ := hP
          rw [show txn = some log from hlog]
          exact Engine.mem_holds_of_mem_log _ hmem (hlock entry hPe)
        have hget := hex.get_of_held hexcl hframe hj (Ne.symm hij) hkey
        simpa only [hget] using h j x log hj hlog hP

variable (get) in
/-- The entry, replayed into a world that has the row at `x`, leaves it there. -/
def Leaves (G : Engine S R E W K) (entry : Entry S E W) (x : ρ) : Prop :=
  ∀ w, get w = x → get (G.effect entry.stmt entry.env entry.seen w) = x

omit [DecidableEq K] in
theorem Leaves.replay {G : Engine S R E W K} (hframe : Framed G get key) {log : Log S E W} {w : W}
    (h : ∀ entry ∈ log, key ∈ G.locks entry.stmt entry.env entry.seen →
      Leaves get G entry (get w)) : get (G.replay log w) = get w := by
  have hall : ∀ w', get w' = get w → get (G.replay log w') = get w := by
    induction log with
    | nil => exact fun w' hw' => hw'
    | cons entry log ih =>
      intro w' hw'
      refine ih (fun entry' he' => h entry' (List.mem_cons_of_mem _ he')) _ ?_
      by_cases hkey : key ∈ G.locks entry.stmt entry.env entry.seen
      · exact h entry List.mem_cons_self hkey w' hw'
      · exact (hframe.effect _ _ _ _ hkey).trans hw'
  exact hall w rfl

/-- A row stays as it is through a step whose statement leaves it there, if
every open transaction does. -/
theorem frozen_step {cfg : Config S R E W K ε κ} {e : Event E M κ}
    (hframe : Framed Y.engine get key) (hmove : ∀ m w, get (Y.move m w) = get w)
    (hlog : ∀ (i : ℕ) (th : Thread S R E W K ε κ) (log : Log S E W), cfg.threads[i]? = some th →
      th.session.txn = some log → ∀ entry ∈ log,
      key ∈ Y.engine.locks entry.stmt entry.env entry.seen →
      Leaves get Y.engine entry (get cfg.world))
    (hstmt : ∀ a ∈ Y.executing cfg e,
      ∀ entry ∈ Y.engine.entry a.cmd a.env (a.thread.view cfg.world),
      key ∈ Y.engine.locks entry.stmt entry.env entry.seen →
      Leaves get Y.engine entry (get cfg.world)) :
    get (Y.step cfg e).world = get cfg.world := by
  have hautocommit : ∀ s env, (key ∈ Y.engine.locks s env cfg.world →
      Leaves get Y.engine ⟨s, env, cfg.world⟩ (get cfg.world)) →
      get (Y.engine.autocommit s env cfg.world) = get cfg.world := by
    intro s env hleaves
    by_cases hkey : key ∈ Y.engine.locks s env cfg.world
    · exact hleaves hkey _ (hframe.lasting s env cfg.world)
    · exact hframe.autocommit hkey
  cases e with
  | start c => rfl
  | move m => exact hmove m cfg.world
  | crash i => cases hth : cfg.threads[i]? <;> simp [System.step, hth]
  | exec i env =>
    rcases exec_cases Y cfg i env with hs | ⟨th, c, k, hex⟩
    · rw [hs]
    · have hown := hstmt _ hex.executing_eq
      rw [hex.step_eq]
      obtain ⟨label, prog, txn, kept⟩ := th
      cases c with
      | beginTx => by_cases ho : Y.engine.opens env = true <;>
        simp [Engine.perform, Thread.view, ho]
      | commitTx =>
        cases txn with
        | none => rfl
        | some log =>
          by_cases hl : Y.engine.lands env = true
          · simpa [Engine.perform, Thread.view, hl] using
              Leaves.replay hframe (hlog i _ log hex.here rfl)
          · simp [Engine.perform, Thread.view, hl]
      | rollbackTx => rfl
      | keep s => by_cases ho : Y.engine.opens env = true <;> simp [Engine.perform, Thread.view, ho]
      | release => rfl
      | stmt q s =>
        cases q with
        | pool => exact hautocommit s env (hown _ rfl)
        | tx =>
          cases txn with
          | none => exact hautocommit s env (hown _ rfl)
          | some log => exact hframe.lasting _ _ _

/-- A row for which `I` has become false is not changed any more, if no
statement on the pool reaches it either. -/
theorem Standing.frozen {cfg : Config S R E W K ε κ} {e : Event E M κ}
    (h : Standing get P I cfg) (hframe : Framed Y.engine get key)
    (hmove : ∀ m w, get (Y.move m w) = get w)
    (hentry : ∀ entry : Entry S E W,
      key ∈ Y.engine.locks entry.stmt entry.env entry.seen → P entry)
    (hpool : ∀ a ∈ Y.executing cfg e,
      key ∈ Y.engine.wants a.cmd a.env (a.thread.view cfg.world) → I (get cfg.world))
    (hI : ¬ I (get cfg.world)) : get (Y.step cfg e).world = get cfg.world := by
  refine frozen_step hframe hmove ?_ ?_
  · intro i th log hi hlog entry he hkey
    exact absurd (h i th log hi hlog ⟨entry, he, hentry entry hkey⟩) hI
  · intro a ha entry he hkey
    exact absurd (hpool a ha (Engine.wants_of_entry he hkey)) hI

variable (Y get key I) in
/-- The statement about to run does not reach the row `key`, or finds `I` true
of it. -/
def Respects (cfg : Config S R E W K ε κ) (e : Event E M κ) : Prop :=
  ∀ a ∈ Y.executing cfg e, key ∈ Y.engine.wants a.cmd a.env (a.thread.view cfg.world) →
    I (get cfg.world)

instance Respects.decidable [DecidablePred I] (cfg : Config S R E W K ε κ) (e : Event E M κ) :
    Decidable (Respects Y get key I cfg e) :=
  inferInstanceAs (Decidable (∀ a ∈ Y.executing cfg e,
    key ∈ Y.engine.wants a.cmd a.env (a.thread.view cfg.world) → I (get cfg.world)))

variable (Y get key I) in
/-- Locks are exclusive, and whoever has written the row `key` in an open
transaction finds `I` true of the committed row. -/
structure Guarded (cfg : Config S R E W K ε κ) : Prop where
  exclusive : Exclusive Y cfg
  standing : Standing get
    (fun entry => key ∈ Y.engine.locks entry.stmt entry.env entry.seen) I cfg

omit [DecidableEq K] in
theorem guarded_of_no_threads (w : W) :
    Guarded Y get key I (⟨w, []⟩ : Config S R E W K ε κ) :=
  ⟨exclusive_of_no_threads Y w, fun i th log hi => by simp at hi⟩

theorem Guarded.step {cfg : Config S R E W K ε κ} {e : Event E M κ}
    (h : Guarded Y get key I cfg) (hframe : Framed Y.engine get key)
    (hmove : ∀ m w, get (Y.move m w) = get w) (hok : Respects Y get key I cfg e) :
    Guarded Y get key I (Y.step cfg e) := by
  refine ⟨h.exclusive.step e, h.standing.step h.exclusive hframe hmove (fun _ hk => hk) ?_⟩
  rintro i env th s k log rfl hex hlog hkey
  refine hok _ hex.executing_eq ?_
  simpa [Engine.wants] using hkey

theorem Guarded.frozen_step {cfg : Config S R E W K ε κ} {e : Event E M κ}
    (h : Guarded Y get key I cfg) (hframe : Framed Y.engine get key)
    (hmove : ∀ m w, get (Y.move m w) = get w) (hok : Respects Y get key I cfg e)
    (hI : ¬ I (get cfg.world)) : get (Y.step cfg e).world = get cfg.world := by
  exact h.standing.frozen hframe hmove (fun _ hk => hk) hok hI

variable (Y get key I) in
/-- The statement about to run does not reach the row `key`, finds `I` true of
it, or makes of it what it is. -/
def Spares (cfg : Config S R E W K ε κ) (e : Event E M κ) : Prop :=
  ∀ a ∈ Y.executing cfg e, ∀ entry ∈ Y.engine.entry a.cmd a.env (a.thread.view cfg.world),
    key ∈ Y.engine.locks entry.stmt entry.env entry.seen →
      I (get cfg.world) ∨ Leaves get Y.engine entry (get cfg.world)

variable (Y get key I) in
/-- Locks are exclusive, and what an open transaction has written to the row
`key` either finds `I` true of the committed row or leaves it as it is. -/
structure Spared (cfg : Config S R E W K ε κ) : Prop where
  exclusive : Exclusive Y cfg
  standing : ∀ entry : Entry S E W, key ∈ Y.engine.locks entry.stmt entry.env entry.seen →
    Standing get (fun entry' => entry' = entry) (fun x => I x ∨ Leaves get Y.engine entry x) cfg

omit [DecidableEq K] in
theorem spared_of_no_threads (w : W) :
    Spared Y get key I (⟨w, []⟩ : Config S R E W K ε κ) :=
  ⟨exclusive_of_no_threads Y w, fun _ _ i th log hi => by simp at hi⟩

theorem Spared.step {cfg : Config S R E W K ε κ} {e : Event E M κ}
    (h : Spared Y get key I cfg) (hframe : Framed Y.engine get key)
    (hmove : ∀ m w, get (Y.move m w) = get w) (hok : Spares Y get key I cfg e) :
    Spared Y get key I (Y.step cfg e) := by
  refine ⟨h.exclusive.step e, ?_⟩
  intro entry hkey
  refine (h.standing entry hkey).step h.exclusive hframe hmove ?_ ?_
  · rintro entry' rfl
    exact hkey
  · rintro i env th s k log rfl hex hlog hentry
    subst hentry
    exact hok _ hex.executing_eq _ rfl hkey

/-- Once `I` is false of the row, the row stays as it is for the rest of the
run. -/
theorem Spared.frozen {cfg : Config S R E W K ε κ} {es : List (Event E M κ)}
    (h : Spared Y get key I cfg) (hframe : Framed Y.engine get key)
    (hmove : ∀ m w, get (Y.move m w) = get w) (hok : Y.Along (Spares Y get key I) cfg es)
    (hI : ¬ I (get cfg.world)) : get (Y.run cfg es).world = get cfg.world := by
  induction es generalizing cfg with
  | nil => rfl
  | cons e es ih =>
    have hsame : get (Y.step cfg e).world = get cfg.world := by
      refine frozen_step hframe hmove ?_ ?_
      · intro i th log hi hlog entry he hkey
        exact (h.standing entry hkey i th log hi hlog ⟨entry, he, rfl⟩).resolve_left hI
      · intro a ha entry he hkey
        exact (hok.1 a ha entry he hkey).resolve_left hI
    have hrest := ih (h.step hframe hmove hok.1) hok.2 (by rwa [hsame])
    exact hrest.trans hsame

end Standing

end System

end ReadCommitted
