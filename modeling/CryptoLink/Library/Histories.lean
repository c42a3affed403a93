import CryptoLink.Library.Protocols

/-!
# What happened in a run

Something that is there at the end and was not there at the start came with one
of the steps. Which steps there can be is what the calls promise each other
about the world they share.
-/

namespace ReadCommitted

open StatementPrograms

variable {S : Type} {R : S → Type} {E W K : Type} {ε κ M : Type}

namespace System

section Occurs

variable (Y : System S R E W K ε κ M) [DecidableEq K]

/-- Some step of the run is one of those `P` speaks of. -/
def Occurs (P : Config S R E W K ε κ → Event E M κ → Prop) :
    Config S R E W K ε κ → List (Event E M κ) → Prop
  | _, [] => False
  | cfg, e :: es => P cfg e ∨ Occurs P (Y.step cfg e) es

instance Occurs.decidable (P : Config S R E W K ε κ → Event E M κ → Prop)
    [∀ cfg e, Decidable (P cfg e)] :
    (cfg : Config S R E W K ε κ) → (es : List (Event E M κ)) → Decidable (Y.Occurs P cfg es)
  | _, [] => isFalse id
  | cfg, e :: es =>
      have := Occurs.decidable P (Y.step cfg e) es
      inferInstanceAs (Decidable (P cfg e ∨ Y.Occurs P (Y.step cfg e) es))

variable {Y} {P : Config S R E W K ε κ → Event E M κ → Prop} {cfg : Config S R E W K ε κ}
  {es fs : List (Event E M κ)}

/-- The run up to the step, the step, and what follows it. -/
theorem Occurs.split (h : Y.Occurs P cfg es) :
    ∃ before e after, es = before ++ e :: after ∧ P (Y.run cfg before) e := by
  induction es generalizing cfg with
  | nil => exact h.elim
  | cons e es ih =>
    rcases h with hfirst | hlater
    · exact ⟨[], e, es, rfl, hfirst⟩
    · obtain ⟨before, e', after, rfl, he'⟩ := ih hlater
      exact ⟨e :: before, e', after, rfl, he'⟩

/-- What is there at the end was there at the start or came with a step. -/
theorem occurs_of_arises {I : Config S R E W K ε κ → Prop} {Q : W → Prop}
    (hkept : ∀ cfg e, I cfg → I (Y.step cfg e))
    (harises : ∀ cfg e, I cfg → Q (Y.step cfg e).world → Q cfg.world ∨ P cfg e)
    (hcfg : I cfg) (hend : Q (Y.run cfg es).world) : Q cfg.world ∨ Y.Occurs P cfg es := by
  induction es generalizing cfg with
  | nil => exact .inl hend
  | cons e es ih =>
    rcases ih (hkept cfg e hcfg) hend with hafter | hlater
    · rcases harises cfg e hcfg hafter with hbefore | hnow
      · exact .inl hbefore
      · exact .inr (.inl hnow)
    · exact .inr (.inr hlater)

end Occurs

/-- The world changes by a move or by the call of one thread. -/
theorem step_world_cases (Y : System S R E W K ε κ M) [DecidableEq K]
    (cfg : Config S R E W K ε κ) (e : Event E M κ) :
    (Y.step cfg e).world = cfg.world ∨
      (∃ m, e = .move m ∧ (Y.step cfg e).world = Y.move m cfg.world) ∨
      ∃ i env th c k, e = .exec i env ∧ Y.Executes cfg i env th c k ∧
        (Y.step cfg e).world = (Y.engine.perform c env (th.view cfg.world)).2.world := by
  cases e with
  | start l => exact .inl rfl
  | crash i =>
    left
    rw [System.step]
    split
    · rfl
    · rfl
  | move m => exact .inr (.inl ⟨m, rfl, rfl⟩)
  | exec i env =>
    rcases exec_cases Y cfg i env with hs | ⟨th, c, k, hex⟩
    · left
      rw [hs]
    · right
      right
      refine ⟨i, env, th, c, k, rfl, hex, ?_⟩
      rw [hex.step_eq]

theorem executes_of_executing {Y : System S R E W K ε κ M} [DecidableEq K]
    {cfg : Config S R E W K ε κ} {e : Event E M κ} {a : Action S R E W K ε κ}
    (ha : a ∈ Y.executing cfg e) :
    ∃ k, e = .exec a.index a.env ∧ Y.Executes cfg a.index a.env a.thread a.cmd k := by
  cases e with
  | exec i env =>
    cases hth : cfg.threads[i]? with
    | none => simp [executing, hth] at ha
    | some th =>
      obtain ⟨label, prog, session⟩ := th
      cases prog with
      | ret x => simp [executing, hth] at ha
      | fail x => simp [executing, hth] at ha
      | call c k =>
        by_cases hb : Y.blocked cfg i c env (Thread.view ⟨label, .call c k, session⟩ cfg.world) =
            true
        · simp [executing, hth, hb] at ha
        · have hex : Y.Executes cfg i env ⟨label, .call c k, session⟩ c k :=
            ⟨hth, rfl, by simpa using hb⟩
          rw [hex.executing_eq] at ha
          cases ha
          exact ⟨k, rfl, hex⟩
  | start l => cases ha
  | crash i => cases ha
  | move m => cases ha

/-- A thread stays the thread of its call. -/
theorem label_step (Y : System S R E W K ε κ M) [DecidableEq K] {cfg : Config S R E W K ε κ}
    (e : Event E M κ) {i : ℕ} {th : Thread S R E W K ε κ} (h : cfg.threads[i]? = some th) :
    ∃ th', (Y.step cfg e).threads[i]? = some th' ∧ th'.label = th.label := by
  obtain ⟨hlt, -⟩ := List.getElem?_eq_some_iff.mp h
  have hset : ∀ (j : ℕ) (x y : Thread S R E W K ε κ), cfg.threads[j]? = some y →
      x.label = y.label → ∃ th', (cfg.threads.set j x)[i]? = some th' ∧ th'.label = th.label := by
    intro j x y hj hlabel
    by_cases hij : j = i
    · subst hij
      obtain rfl := Option.some.inj (h.symm.trans hj)
      exact ⟨x, List.getElem?_set_self hlt, hlabel⟩
    · exact ⟨th, (List.getElem?_set_ne hij).trans h, rfl⟩
  cases e with
  | start l => exact ⟨th, (List.getElem?_append_left hlt).trans h, rfl⟩
  | move m => exact ⟨th, h, rfl⟩
  | crash j =>
    cases hj : cfg.threads[j]? with
    | none =>
      simp only [System.step, hj]
      exact ⟨th, h, rfl⟩
    | some y =>
      simp only [System.step, hj]
      exact hset j _ y hj rfl
  | exec j env =>
    rcases exec_cases Y cfg j env with hs | ⟨y, c, k, hex⟩
    · rw [hs]
      exact ⟨th, h, rfl⟩
    · rw [hex.step_eq]
      exact hset j _ y hex.here rfl

theorem label_run (Y : System S R E W K ε κ M) [DecidableEq K] {cfg : Config S R E W K ε κ}
    (es : List (Event E M κ)) {i : ℕ} {th : Thread S R E W K ε κ}
    (h : cfg.threads[i]? = some th) :
    ∃ th', (Y.run cfg es).threads[i]? = some th' ∧ th'.label = th.label := by
  induction es generalizing cfg th with
  | nil => exact ⟨th, h, rfl⟩
  | cons e es ih =>
    obtain ⟨x, hx, hlabel⟩ := label_step Y e h
    obtain ⟨y, hy, hlabel'⟩ := ih hx
    exact ⟨y, hy, hlabel'.trans hlabel⟩

/-- Every call promises `guar` of each of its own steps, and relies on the
others to keep `rel` of the world they share. -/
def sharedProtocol (rel : W → W → Prop) (refl : ∀ w, rel w w)
    (trans : ∀ {u v w}, rel u v → rel v w → rel u w) (guar : Cmd S → W → Prop) :
    Protocol S R E W K κ where
  rely _ v v' := v'.session = v.session ∧ rel v.world v'.world
  admits _ _ _ _ := True
  guar _ c v _ _ := guar c v.world
  rely_refl _ v := ⟨rfl, refl v.world⟩
  rely_trans h h' := ⟨h'.1.trans h.1, trans h.2 h'.2⟩

/-- The promise is worth what the others rely on, and every call keeps it. -/
structure Shares (Y : System S R E W K ε κ M) (rel : W → W → Prop)
    (guar : Cmd S → W → Prop) : Prop where
  refl : ∀ w, rel w w
  trans : ∀ {u v w}, rel u v → rel v w → rel u w
  call : ∀ c env (v : View S E W K), guar c v.world →
    rel v.world (Y.engine.perform c env v).2.world
  move : ∀ m w, rel w (Y.move m w)
  program : ∀ l w, Meets ((sharedProtocol rel refl trans guar).setting Y.engine l)
    (fun _ _ => True) (Y.program l) ⟨w, .idle⟩

namespace Shares

variable {Y : System S R E W K ε κ M} {rel : W → W → Prop} {guar : Cmd S → W → Prop}
  [DecidableEq K] {cfg : Config S R E W K ε κ}

/-- What is left of every started call still keeps the promise. -/
def Holds (h : Shares Y rel guar) (cfg : Config S R E W K ε κ) : Prop :=
  Keeps Y (sharedProtocol rel h.refl h.trans guar) cfg

theorem promised (h : Shares Y rel guar) (hcfg : h.Holds cfg) {i : ℕ} {env : E}
    {th : Thread S R E W K ε κ} {c : Cmd S} {k : Answer R c → Prog (Cmd S) (Answer R) ε Unit}
    (hex : Y.Executes cfg i env th c k) : guar c cfg.world :=
  (Keeps.executes hcfg hex trivial).1

theorem step (h : Shares Y rel guar) (hcfg : h.Holds cfg) (e : Event E M κ) :
    h.Holds (Y.step cfg e) := by
  cases e with
  | start l => exact Keeps.start hcfg (h.program l cfg.world)
  | crash i => exact Keeps.crash hcfg i
  | move m => exact Keeps.move hcfg fun _ _ _ => ⟨rfl, h.move m cfg.world⟩
  | exec i env =>
    apply Keeps.exec hcfg
    · intro _ _ _ _
      exact trivial
    · intro th c k hex _ _ _ _
      exact ⟨rfl, h.call c env (th.view cfg.world) (h.promised hcfg hex)⟩

theorem rel_step (h : Shares Y rel guar) (hcfg : h.Holds cfg) (e : Event E M κ) :
    rel cfg.world (Y.step cfg e).world := by
  rcases step_world_cases Y cfg e with hs | ⟨m, -, hs⟩ | ⟨i, env, th, c, k, -, hex, hs⟩
  · rw [hs]
    exact h.refl cfg.world
  · rw [hs]
    exact h.move m cfg.world
  · rw [hs]
    exact h.call c env (th.view cfg.world) (h.promised hcfg hex)

theorem run (h : Shares Y rel guar) (hcfg : h.Holds cfg) (es : List (Event E M κ)) :
    h.Holds (Y.run cfg es) ∧ rel cfg.world (Y.run cfg es).world := by
  induction es generalizing cfg with
  | nil => exact ⟨hcfg, h.refl cfg.world⟩
  | cons e es ih =>
    obtain ⟨hrest, hrel⟩ := ih (h.step hcfg e)
    exact ⟨hrest, h.trans (h.rel_step hcfg e) hrel⟩

/-- What every move and every promised call keeps, every run keeps. -/
theorem invariant (h : Shares Y rel guar) {I : W → Prop}
    (hcall : ∀ c env (v : View S E W K), guar c v.world → I v.world →
      I (Y.engine.perform c env v).2.world)
    (hmove : ∀ m w, I w → I (Y.move m w)) (hcfg : h.Holds cfg) (hI : I cfg.world)
    (es : List (Event E M κ)) : I (Y.run cfg es).world := by
  induction es generalizing cfg with
  | nil => exact hI
  | cons e es ih =>
    apply ih (h.step hcfg e)
    rcases step_world_cases Y cfg e with hs | ⟨m, -, hs⟩ | ⟨i, env, th, c, k, -, hex, hs⟩
    · rw [hs]
      exact hI
    · rw [hs]
      exact hmove m cfg.world hI
    · rw [hs]
      exact hcall c env (th.view cfg.world) (h.promised hcfg hex) hI

omit [DecidableEq K] in
/-- What every promised call keeps, a call keeps that runs with none beside it. -/
theorem alone_invariant (h : Shares Y rel guar) {I : W → Prop} {ε' α : Type}
    {Q : Except ε' α → View S E W K → Prop} {l : κ} {p : Prog (Cmd S) (Answer R) ε' α}
    (hcall : ∀ c env (v : View S E W K), guar c v.world → I v.world →
      I (Y.engine.perform c env v).2.world) (envs : ℕ → E) (n : ℕ) {v : View S E W K}
    (hp : Meets ((sharedProtocol rel h.refl h.trans guar).setting Y.engine l) Q p v)
    (hI : I v.world) : I (Y.engine.alone envs p n v).2.2.world := by
  induction p generalizing n v with
  | ret a => exact hI
  | fail e => exact hI
  | call c k ih =>
    obtain ⟨hguar, hrest⟩ := hp v ⟨rfl, h.refl v.world⟩ _ _ ⟨envs n, trivial, rfl⟩
    rw [Engine.alone_call]
    exact ih _ (n + 1) hrest (hcall c (envs n) v hguar hI)

omit [DecidableEq K] in
/-- The promises hold in a world that the others may lead to. -/
theorem moved (h : Shares Y rel guar) (hcfg : h.Holds cfg) {w : W} (hw : rel cfg.world w) :
    h.Holds ⟨w, cfg.threads⟩ := by
  intro j th hj
  have hrely : (th.view w).session = (th.view cfg.world).session ∧
      rel (th.view cfg.world).world (th.view w).world := ⟨rfl, hw⟩
  exact (hcfg j th hj).stable hrely

end Shares

/-- Every call runs calls in `P` only, as far as the surroundings answer from
worlds where `I` holds. -/
def givenProtocol (I : W → Prop) (P : Cmd S → Prop) : Protocol S R E W K κ where
  rely _ _ _ := True
  admits _ _ _ v := I v.world
  guar _ c _ _ _ := P c
  rely_refl _ _ := trivial
  rely_trans _ _ := trivial

/-- Where `I` holds, calls in `P` are answered with `ok`, and allowed steps keep `I`. -/
structure ProvidesAlong (Y : System S R E W K ε κ M) [DecidableEq K]
    (allowed : Config S R E W K ε κ → Event E M κ → Prop) (I : W → Prop) (P : Cmd S → Prop)
    (ok : (c : Cmd S) → Answer R c → Prop) : Prop where
  answer : ∀ c env (v : View S E W K), P c → I v.world → ok c (Y.engine.perform c env v).1
  keeps : ∀ cfg i env th c k, Y.Executes cfg i env th c k → allowed cfg (.exec i env) → P c →
    I cfg.world → I (Y.engine.perform c env (th.view cfg.world)).2.world
  move : ∀ m w, I w → I (Y.move m w)
  program : ∀ l, IssuesGiven P ok (Y.program l)

namespace ProvidesAlong

variable {Y : System S R E W K ε κ M} [DecidableEq K]
  {allowed : Config S R E W K ε κ → Event E M κ → Prop} {I : W → Prop} {P : Cmd S → Prop}
  {ok : (c : Cmd S) → Answer R c → Prop}

theorem meets (h : ProvidesAlong Y allowed I P ok) {p : Prog (Cmd S) (Answer R) ε Unit}
    (hp : IssuesGiven P ok p) (l : κ) (v : View S E W K) :
    Meets ((givenProtocol I P).setting Y.engine l) (fun _ _ => True) p v := by
  induction p generalizing v with
  | ret a => exact fun _ _ => trivial
  | fail e => exact fun _ _ => trivial
  | call c k ih =>
    rintro v' - r t ⟨env, hI, hdo⟩
    have hanswer := h.answer c env v' hp.1 hI
    rw [hdo] at hanswer
    exact ⟨hp.1, ih r (hp.2 r hanswer) t⟩

theorem step (h : ProvidesAlong Y allowed I P ok) {cfg : Config S R E W K ε κ}
    {e : Event E M κ} (hallowed : allowed cfg e) (hcfg : Keeps Y (givenProtocol I P) cfg)
    (hI : I cfg.world) : Keeps Y (givenProtocol I P) (Y.step cfg e) ∧ I (Y.step cfg e).world := by
  constructor
  · cases e with
    | start l => exact Keeps.start hcfg (h.meets (h.program l) l _)
    | crash i => exact Keeps.crash hcfg i
    | move m => exact Keeps.move hcfg fun _ _ _ => trivial
    | exec i env => exact Keeps.exec hcfg (fun _ _ _ _ => hI) fun _ _ _ _ _ _ _ _ => trivial
  · rcases step_world_cases Y cfg e with hs | ⟨m, -, hs⟩ | ⟨i, env, th, c, k, rfl, hex, hs⟩
    · rw [hs]
      exact hI
    · rw [hs]
      exact h.move m cfg.world hI
    · rw [hs]
      exact h.keeps cfg i env th c k hex hallowed (hcfg.executes hex hI).1 hI

/-- What holds at the start holds after every run of allowed steps. -/
theorem run (h : ProvidesAlong Y allowed I P ok) {w : W} (hI : I w) {es : List (Event E M κ)}
    (hrun : Y.Along allowed ⟨w, []⟩ es) : I (Y.run ⟨w, []⟩ es).world := by
  have hboth := Along.invariant (Y := Y)
    (I := fun cfg => Keeps Y (givenProtocol I P) cfg ∧ I cfg.world)
    (fun cfg e hcfg hallowed => h.step hallowed hcfg.1 hcfg.2) hrun ⟨keeps_of_no_threads w, hI⟩
  exact hboth.2

end ProvidesAlong

end System

end ReadCommitted
