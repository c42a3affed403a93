import CryptoLink.Library.Histories
import Mathlib.Logic.Relation

/-!
# What a call was told

A call reads, decides and writes, and nothing keeps what it has read as it was.
Each call therefore has a note of what it was told, and the note minds every
change of the world: it never counts on what is no longer so. A run is grounded
if every step is admitted by the note of the call that takes it.
-/

namespace ReadCommitted

open StatementPrograms Relation

variable {S : Type} {R : S → Type} {E W K : Type} {ε κ M Γ α β : Type}

/-- A log grows by the statements of its own transaction. -/
theorem Engine.log_perform {G : Engine S R E W K} {P : S → Prop} {v : View S E W K} {c : Cmd S}
    (hv : ∀ log, v.session.txn = some log → ∀ e ∈ log, P e.stmt)
    (hc : ∀ s, c = .stmt .tx s → P s) (env : E) :
    ∀ log, (G.perform c env v).2.session.txn = some log → ∀ e ∈ log, P e.stmt := by
  obtain ⟨w, txn, kept⟩ := v
  intro log hlog e he
  cases c with
  | beginTx =>
    by_cases ho : G.opens env = true
    · simp only [Engine.perform, ho, if_true, Option.some.injEq] at hlog
      subst hlog
      cases he
    · simp only [Engine.perform, ho] at hlog
      exact hv log hlog e he
  | commitTx =>
    cases txn with
    | none => exact hv log hlog e he
    | some old => by_cases hl : G.lands env = true <;> simp [Engine.perform, hl] at hlog
  | rollbackTx => cases hlog
  | keep s =>
    by_cases ho : G.opens env = true <;> simp only [Engine.perform, ho] at hlog <;>
      exact hv log hlog e he
  | release => exact hv log hlog e he
  | stmt q s =>
    cases q with
    | pool => exact hv log hlog e he
    | tx =>
      cases txn with
      | none => exact hv log hlog e he
      | some old =>
        cases hlog
        rcases List.mem_append.mp he with hold | hnew
        · exact hv old rfl e hold
        · obtain rfl := List.mem_singleton.mp hnew
          exact hc s rfl

/-- Notes: how they begin, what a call adds to its own, what is left of one in a
world, and what they then count on. -/
structure Reliance (S : Type) (R : S → Type) (E W K κ Γ : Type) where
  start : κ → W → Γ
  after : κ → (c : Cmd S) → Answer R c → View S E W K → Γ → Γ
  mind : W → Γ → Γ
  counts : Γ → W → Prop
  admits : κ → Γ → Cmd S → E → View S E W K → Prop
  counts_mind : ∀ w g, counts (mind w g) w

namespace Reliance

variable (Z : Reliance S R E W K κ Γ)

/-- What other steps have left of a note. -/
abbrev Left : Γ → Γ → Prop := ReflTransGen fun g g' => ∃ w, g' = Z.mind w g

/-- A call with its note: what the note counts on is true. -/
abbrev Stand : Type := { x : Γ × View S E W K // Z.counts x.1 x.2.world }

def stand (g : Γ) (v : View S E W K) : Z.Stand :=
  ⟨(Z.mind v.world g, v), Z.counts_mind v.world g⟩

/-- One call beside others: its session is its own, and its note minds what they
do. -/
def setting (G : Engine S R E W K) (guar : κ → Γ → Cmd S → E → View S E W K → Prop) (l : κ) :
    Setting (Cmd S) (Answer R) Z.Stand where
  rely a b := b.1.2.session = a.1.2.session ∧ Z.Left a.1.1 b.1.1
  does c a r b := ∃ env, Z.admits l a.1.1 c env a.1.2 ∧
    r = (G.perform c env a.1.2).1 ∧
    b = Z.stand (Z.after l c r a.1.2 a.1.1) (G.perform c env a.1.2).2
  guar c a _ _ := ∀ env, Z.admits l a.1.1 c env a.1.2 → guar l a.1.1 c env a.1.2
  rely_refl _ := ⟨rfl, .refl⟩
  rely_trans h h' := ⟨h'.1.trans h.1, h.2.trans h'.2⟩

/-- The same notes, and other steps they admit. -/
def admitting (admits : κ → Γ → Cmd S → E → View S E W K → Prop) : Reliance S R E W K κ Γ :=
  { Z with admits := admits }

section Rules

variable {Z} {G : Engine S R E W K} {guar : κ → Γ → Cmd S → E → View S E W K → Prop} {l : κ}

theorem Left.keeps {J : Γ → Prop} (hmind : ∀ w g, J g → J (Z.mind w g)) {g g' : Γ}
    (h : Z.Left g g') (hg : J g) : J g' := by
  induction h with
  | refl => exact hg
  | tail _ hstep ih =>
    obtain ⟨w, rfl⟩ := hstep
    exact hmind w _ ih

/-- A program whose every call keeps `J` of its note and its session needs no
look inside. -/
theorem meets_of_issues {P : Cmd S → Prop} {J : Γ → Session S E W K → Prop}
    {p : Prog (Cmd S) (Answer R) ε α} (hmind : ∀ w g y, J g y → J (Z.mind w g) y)
    (hafter : ∀ c, P c → ∀ env v g, J g v.session →
      J (Z.after l c (G.perform c env v).1 v g) (G.perform c env v).2.session)
    (hguar : ∀ c, P c → ∀ g env v, Z.counts g v.world → J g v.session → Z.admits l g c env v →
      guar l g c env v)
    (hp : Issues P p) {x : Z.Stand} (hx : J x.1.1 x.1.2.session) :
    Meets (Z.setting G guar l) (fun _ y => J y.1.1 y.1.2.session) p x := by
  refine Meets.of_issues (J := fun y : Z.Stand => J y.1.1 y.1.2.session) ?_ ?_ hp hx
  · rintro y z ⟨hs, hz⟩ hy
    rw [hs]
    exact Left.keeps (J := fun g => J g y.1.2.session) (fun w g => hmind w g _) hz hy
  · rintro c y r z hc hy ⟨env, hadm, rfl, rfl⟩
    refine ⟨fun env' hadm' => hguar c hc _ _ _ y.2 hy hadm', ?_⟩
    exact hmind _ _ _ (hafter c hc env _ _ hy)

/-- One call and what follows it. -/
theorem ask_bind {c : Cmd S} {f : Answer R c → Prog (Cmd S) (Answer R) ε β} {x : Z.Stand}
    {Q : Except ε β → Z.Stand → Prop}
    (hguar : ∀ g v env, Z.Left x.1.1 g → Z.counts g v.world →
      v.session = x.1.2.session → Z.admits l g c env v → guar l g c env v)
    (hnext : ∀ g v env, Z.Left x.1.1 g → Z.counts g v.world →
      v.session = x.1.2.session → Z.admits l g c env v →
      Meets (Z.setting G guar l) Q (f (G.perform c env v).1)
        (Z.stand (Z.after l c (G.perform c env v).1 v g) (G.perform c env v).2)) :
    Meets (Z.setting G guar l) Q ((Prog.ask c).bind f) x := by
  refine Meets.ask_bind ?_
  rintro y ⟨hs, hg⟩ r z ⟨env, hadm, rfl, rfl⟩
  exact ⟨fun env' hadm' => hguar _ _ env' hg y.2 hs hadm', hnext _ _ env hg y.2 hs hadm⟩

end Rules

end Reliance

namespace System

variable (Y : System S R E W K ε κ M) [DecidableEq K] (Z : Reliance S R E W K κ Γ)

/-- The notes of all threads after one event. -/
def notes (cfg : Config S R E W K ε κ) (gs : List Γ) (e : Event E M κ) : List Γ :=
  (match e with
    | .start l => gs ++ [Z.start l cfg.world]
    | e =>
      match Y.executing cfg e with
      | none => gs
      | some a => gs.modify a.index (Z.after a.thread.label a.cmd
          (Y.engine.perform a.cmd a.env (a.thread.view cfg.world)).1
          (a.thread.view cfg.world))).map (Z.mind (Y.step cfg e).world)

/-- Every step of the run meets `ok` in the state, and with the notes, it is
taken from. -/
def Noted (ok : Config S R E W K ε κ → List Γ → Event E M κ → Prop) :
    Config S R E W K ε κ → List Γ → List (Event E M κ) → Prop
  | _, _, [] => True
  | cfg, gs, e :: es => ok cfg gs e ∧ Noted ok (Y.step cfg e) (Y.notes Z cfg gs e) es

instance Noted.decidable (ok : Config S R E W K ε κ → List Γ → Event E M κ → Prop)
    [∀ cfg gs e, Decidable (ok cfg gs e)] :
    (cfg : Config S R E W K ε κ) → (gs : List Γ) → (es : List (Event E M κ)) →
      Decidable (Y.Noted Z ok cfg gs es)
  | _, _, [] => isTrue trivial
  | cfg, gs, e :: es =>
      have := Noted.decidable ok (Y.step cfg e) (Y.notes Z cfg gs e) es
      inferInstanceAs (Decidable (ok cfg gs e ∧
        Y.Noted Z ok (Y.step cfg e) (Y.notes Z cfg gs e) es))

/-- The step is admitted by the note of the call that takes it. -/
def Grounded (cfg : Config S R E W K ε κ) (gs : List Γ) (e : Event E M κ) : Prop :=
  ∀ a ∈ Y.executing cfg e, ∀ g ∈ gs[a.index]?,
    Z.admits a.thread.label g a.cmd a.env (a.thread.view cfg.world)

instance Grounded.decidable [∀ l g c env v, Decidable (Z.admits l g c env v)]
    (cfg : Config S R E W K ε κ) (gs : List Γ) (e : Event E M κ) :
    Decidable (Y.Grounded Z cfg gs e) :=
  inferInstanceAs (Decidable (∀ a ∈ Y.executing cfg e, ∀ g ∈ gs[a.index]?,
    Z.admits a.thread.label g a.cmd a.env (a.thread.view cfg.world)))

/-- Every step of the run is. -/
def RunsGrounded : Config S R E W K ε κ → List Γ → List (Event E M κ) → Prop :=
  Y.Noted Z (Y.Grounded Z)

instance RunsGrounded.decidable [∀ l g c env v, Decidable (Z.admits l g c env v)]
    (cfg : Config S R E W K ε κ) (gs : List Γ) (es : List (Event E M κ)) :
    Decidable (Y.RunsGrounded Z cfg gs es) :=
  inferInstanceAs (Decidable (Y.Noted Z (Y.Grounded Z) cfg gs es))

/-- The notes at the end of a run. -/
def notesAfter : Config S R E W K ε κ → List Γ → List (Event E M κ) → List Γ
  | _, gs, [] => gs
  | cfg, gs, e :: es => notesAfter (Y.step cfg e) (Y.notes Z cfg gs e) es

variable {Y Z}

/-- What is left of every call meets its promise from its note on. -/
structure Relying (Y : System S R E W K ε κ M) (Z : Reliance S R E W K κ Γ)
    (guar : κ → Γ → Cmd S → E → View S E W K → Prop) (cfg : Config S R E W K ε κ) (gs : List Γ) :
    Prop where
  length : gs.length = cfg.threads.length
  thread : ∀ (i : ℕ) (th : Thread S R E W K ε κ) (g : Γ), cfg.threads[i]? = some th →
    gs[i]? = some g → ∃ x : Z.Stand, x.1 = (g, th.view cfg.world) ∧
      Meets (Z.setting Y.engine guar th.label) (fun _ _ => True) th.prog x

section Run

variable {guar : κ → Γ → Cmd S → E → View S E W K → Prop} {cfg : Config S R E W K ε κ} {gs : List Γ}

omit [DecidableEq K] in
theorem relying_of_no_threads (w : W) : Relying Y Z guar (⟨w, []⟩ : Config S R E W K ε κ) [] :=
  ⟨rfl, fun i th g hi => by simp at hi⟩

omit [DecidableEq K] in
/-- Whatever the others have done to the world. -/
theorem Relying.moved (h : Relying Y Z guar cfg gs) {i : ℕ} {th : Thread S R E W K ε κ} {g : Γ}
    (hi : cfg.threads[i]? = some th) (hg : gs[i]? = some g) (w : W) :
    ∃ x : Z.Stand, x.1 = (Z.mind w g, th.view w) ∧
      Meets (Z.setting Y.engine guar th.label) (fun _ _ => True) th.prog x := by
  obtain ⟨x, hx, hmeets⟩ := h.thread i th g hi hg
  refine ⟨Z.stand g (th.view w), rfl, Meets.stable ?_ hmeets⟩
  obtain ⟨⟨g', v⟩, hc⟩ := x
  cases hx
  exact ⟨rfl, .single ⟨w, rfl⟩⟩

omit [DecidableEq K] in
/-- A thread has a note. -/
theorem Relying.note (h : Relying Y Z guar cfg gs) {i : ℕ} {th : Thread S R E W K ε κ}
    (hi : cfg.threads[i]? = some th) : ∃ g, gs[i]? = some g := by
  have hlt : i < gs.length := h.length ▸ (List.getElem?_eq_some_iff.mp hi).1
  exact ⟨gs[i], List.getElem?_eq_getElem hlt⟩

theorem Relying.executes (h : Relying Y Z guar cfg gs) {i : ℕ} {env : E}
    {th : Thread S R E W K ε κ} {c : Cmd S} {k : Answer R c → Prog (Cmd S) (Answer R) ε Unit}
    {g : Γ} (hex : Y.Executes cfg i env th c k) (hg : gs[i]? = some g)
    (hadm : Z.admits th.label g c env (th.view cfg.world)) :
    guar th.label g c env (th.view cfg.world) ∧
      Meets (Z.setting Y.engine guar th.label) (fun _ _ => True)
        (k (Y.engine.perform c env (th.view cfg.world)).1)
        (Z.stand (Z.after th.label c (Y.engine.perform c env (th.view cfg.world)).1
          (th.view cfg.world) g) (Y.engine.perform c env (th.view cfg.world)).2) := by
  obtain ⟨⟨⟨g', v⟩, hc⟩, hx, hmeets⟩ := h.thread i th g hex.here hg
  cases hx
  rw [hex.calls] at hmeets
  have hcall := hmeets ⟨(g, th.view cfg.world), hc⟩ ⟨rfl, .refl⟩ _ _ ⟨env, hadm, rfl, rfl⟩
  exact ⟨hcall.1 env hadm, hcall.2⟩

/-- What a call promises, it does at every step of its own. -/
theorem Relying.promised (h : Relying Y Z guar cfg gs) {e : Event E M κ}
    (hok : Y.Grounded Z cfg gs e) :
    ∀ a ∈ Y.executing cfg e, ∃ g, gs[a.index]? = some g ∧
      guar a.thread.label g a.cmd a.env (a.thread.view cfg.world) := by
  intro a ha
  obtain ⟨k, -, hex⟩ := executes_of_executing ha
  obtain ⟨g, hg⟩ := h.note hex.here
  exact ⟨g, hg, (h.executes hex hg (hok a ha g hg)).1⟩

theorem Relying.step
    (hprogram : ∀ l w, Meets (Z.setting Y.engine guar l) (fun _ _ => True) (Y.program l)
      (Z.stand (Z.start l w) ⟨w, .idle⟩))
    (h : Relying Y Z guar cfg gs) {e : Event E M κ} (hok : Y.Grounded Z cfg gs e) :
    Relying Y Z guar (Y.step cfg e) (Y.notes Z cfg gs e) := by
  -- a thread the event is not a call of
  have hother : ∀ (w : W) (i : ℕ) (th : Thread S R E W K ε κ) (g : Γ),
      cfg.threads[i]? = some th → (gs.map (Z.mind w))[i]? = some g →
      ∃ x : Z.Stand, x.1 = (g, th.view w) ∧
        Meets (Z.setting Y.engine guar th.label) (fun _ _ => True) th.prog x := by
    intro w i th g hi hg
    rw [List.getElem?_map] at hg
    obtain ⟨g', hg', rfl⟩ := Option.map_eq_some_iff.mp hg
    exact h.moved hi hg' w
  cases e with
  | start l =>
    refine ⟨by simp [notes, System.step, h.length], ?_⟩
    intro i th g hi hg
    by_cases hlt : i < cfg.threads.length
    · have hi' : cfg.threads[i]? = some th := (List.getElem?_append_left hlt).symm.trans hi
      refine hother cfg.world i th g hi' ?_
      simp only [notes, System.step, List.map_append] at hg
      exact (List.getElem?_append_left (by simpa [h.length] using hlt)).symm.trans hg
    · obtain rfl : i = cfg.threads.length := by
        have hbound := (List.getElem?_eq_some_iff.mp hi).1
        simp only [System.step, List.length_append, List.length_singleton] at hbound
        omega
      have hnew : th = ⟨l, Y.program l, .idle⟩ := by simpa [System.step] using hi.symm
      have hnote : g = Z.mind cfg.world (Z.start l cfg.world) := by
        simp only [notes, System.step, List.getElem?_map, ← h.length,
          List.getElem?_concat_length] at hg
        exact (Option.some.inj hg).symm
      subst hnew hnote
      exact ⟨_, rfl, hprogram l cfg.world⟩
  | move m =>
    refine ⟨by simpa [notes, System.executing, System.step] using h.length, fun i th g hi hg => ?_⟩
    exact hother (Y.move m cfg.world) i th g hi hg
  | crash j =>
    cases hj : cfg.threads[j]? with
    | none =>
      have hs : Y.step cfg (.crash j : Event E M κ) = cfg := by simp [System.step, hj]
      have hnotes : Y.notes Z cfg gs (.crash j) = gs.map (Z.mind cfg.world) := by
        simp [notes, System.executing, hs]
      rw [hs, hnotes]
      exact ⟨by simpa using h.length, hother cfg.world⟩
    | some x =>
      have hs : Y.step cfg (.crash j : Event E M κ) =
          ⟨cfg.world, cfg.threads.set j ⟨x.label, .ret (), .idle⟩⟩ := by simp [System.step, hj]
      have hnotes : Y.notes Z cfg gs (.crash j) = gs.map (Z.mind cfg.world) := by
        simp [notes, System.executing, hs]
      rw [hs, hnotes]
      refine ⟨by simpa using h.length, fun i th g hi hg => ?_⟩
      simp only [List.getElem?_set] at hi
      by_cases hij : j = i
      · simp only [hij, if_true] at hi
        split at hi
        · cases hi
          rw [List.getElem?_map] at hg
          obtain ⟨g', hg', rfl⟩ := Option.map_eq_some_iff.mp hg
          exact ⟨Z.stand g' ⟨cfg.world, .idle⟩, rfl, fun _ _ => trivial⟩
        · cases hi
      · simp only [hij, if_false] at hi
        exact hother cfg.world i th g hi hg
  | exec j env =>
    cases hexec : Y.executing cfg (.exec j env : Event E M κ) with
    | none =>
      have hs : Y.step cfg (.exec j env : Event E M κ) = cfg := by
        rcases exec_cases Y cfg j env with hs | ⟨x, c, k, hex⟩
        · exact hs
        · rw [hex.executing_eq] at hexec
          cases hexec
      have hnotes : Y.notes Z cfg gs (.exec j env : Event E M κ) = gs.map (Z.mind cfg.world) := by
        simp only [notes, hexec, hs]
      rw [hs, hnotes]
      exact ⟨by simpa using h.length, hother cfg.world⟩
    | some a =>
      obtain ⟨k, heq, hex⟩ := executes_of_executing (Option.mem_def.mpr hexec)
      cases heq
      have hlt : a.index < cfg.threads.length := (List.getElem?_eq_some_iff.mp hex.here).1
      simp only [notes, hexec, hex.step_eq]
      refine ⟨by simpa using h.length, fun i th g hi hg => ?_⟩
      simp only [List.getElem?_set] at hi
      simp only [List.getElem?_map, List.getElem?_modify] at hg
      by_cases hij : a.index = i
      · subst hij
        simp only [if_true, hlt] at hi hg
        obtain ⟨g', hg', rfl⟩ := Option.map_eq_some_iff.mp hg
        obtain ⟨g'', hg'', rfl⟩ := Option.map_eq_some_iff.mp hg'
        cases hi
        exact ⟨_, rfl, (h.executes hex hg'' (hok a hexec g'' hg'')).2⟩
      · simp only [hij, if_false] at hi hg
        refine hother _ i th g hi ?_
        rw [List.getElem?_map]
        simpa using hg

omit Z in
/-- Only a start brings a thread. -/
theorem threads_length {e : Event E M κ} (he : ∀ l, e ≠ .start l) :
    (Y.step cfg e).threads.length = cfg.threads.length := by
  cases e with
  | start l => exact absurd rfl (he l)
  | move m => rfl
  | crash j => cases hj : cfg.threads[j]? <;> simp [System.step, hj]
  | exec j env =>
    rcases exec_cases Y cfg j env with hs | ⟨x, c, k, hex⟩
    · rw [hs]
    · rw [hex.step_eq, List.length_set]

omit Z in
theorem thread_before {e : Event E M κ} {i : ℕ} {th : Thread S R E W K ε κ}
    (hi : (Y.step cfg e).threads[i]? = some th) (he : ∀ l, e ≠ .start l) :
    ∃ th', cfg.threads[i]? = some th' ∧ th'.label = th.label := by
  have hlt := (List.getElem?_eq_some_iff.mp hi).1
  rw [threads_length he] at hlt
  obtain ⟨x, hx, hlabel⟩ := label_step Y e (List.getElem?_eq_getElem hlt)
  obtain rfl : x = th := Option.some.inj (hx.symm.trans hi)
  exact ⟨_, List.getElem?_eq_getElem hlt, hlabel.symm⟩

theorem notes_length (hlength : gs.length = cfg.threads.length) (e : Event E M κ) :
    (Y.notes Z cfg gs e).length = (Y.step cfg e).threads.length := by
  cases e with
  | start l => simp [notes, System.step, hlength]
  | move m =>
    rw [threads_length fun l h => by cases h]
    simpa [notes, System.executing] using hlength
  | crash j =>
    rw [threads_length fun l h => by cases h]
    simpa [notes, System.executing] using hlength
  | exec j env =>
    rw [threads_length fun l h => by cases h]
    cases hexec : Y.executing cfg (.exec j env : Event E M κ) <;> simpa [notes, hexec] using hlength

/-- A note after a step: of a call that was under way, or of one that has just
started. -/
theorem notes_step_cases (hlength : gs.length = cfg.threads.length) {e : Event E M κ} {i : ℕ}
    {th : Thread S R E W K ε κ} {g : Γ} (hi : (Y.step cfg e).threads[i]? = some th)
    (hg : (Y.notes Z cfg gs e)[i]? = some g) :
    (∃ th' g', cfg.threads[i]? = some th' ∧ th'.label = th.label ∧ gs[i]? = some g' ∧
      (g = Z.mind (Y.step cfg e).world g' ∨ ∃ a ∈ Y.executing cfg e, a.index = i ∧
        g = Z.mind (Y.step cfg e).world (Z.after th.label a.cmd
          (Y.engine.perform a.cmd a.env (a.thread.view cfg.world)).1
          (a.thread.view cfg.world) g'))) ∨
    ∃ l, e = .start l ∧ th.label = l ∧
      g = Z.mind (Y.step cfg e).world (Z.start l cfg.world) := by
  cases e with
  | start l =>
    by_cases hlt : i < cfg.threads.length
    · have hi' : cfg.threads[i]? = some th := (List.getElem?_append_left hlt).symm.trans hi
      simp only [notes, List.map_append] at hg
      have hg' := (List.getElem?_append_left (by simpa [hlength] using hlt)).symm.trans hg
      rw [List.getElem?_map] at hg'
      obtain ⟨g', hold, rfl⟩ := Option.map_eq_some_iff.mp hg'
      exact .inl ⟨th, g', hi', rfl, hold, .inl rfl⟩
    · obtain rfl : i = cfg.threads.length := by
        have hbound := (List.getElem?_eq_some_iff.mp hi).1
        simp only [System.step, List.length_append, List.length_singleton] at hbound
        omega
      have hnew : th = ⟨l, Y.program l, .idle⟩ := by simpa [System.step] using hi.symm
      simp only [notes, List.getElem?_map, ← hlength, List.getElem?_concat_length] at hg
      exact .inr ⟨l, rfl, by rw [hnew], (Option.some.inj hg).symm⟩
  | move m =>
    simp only [notes, System.executing, List.getElem?_map] at hg
    obtain ⟨g', hold, rfl⟩ := Option.map_eq_some_iff.mp hg
    exact .inl ⟨th, g', hi, rfl, hold, .inl rfl⟩
  | crash j =>
    simp only [notes, System.executing, List.getElem?_map] at hg
    obtain ⟨g', hold, rfl⟩ := Option.map_eq_some_iff.mp hg
    obtain ⟨th', hth', hlabel⟩ := thread_before hi fun l h => by cases h
    exact .inl ⟨th', g', hth', hlabel, hold, .inl rfl⟩
  | exec j env =>
    obtain ⟨th', hth', hlabel⟩ := thread_before hi fun l h => by cases h
    cases hexec : Y.executing cfg (.exec j env : Event E M κ) with
    | none =>
      simp only [notes, hexec, List.getElem?_map] at hg
      obtain ⟨g', hold, rfl⟩ := Option.map_eq_some_iff.mp hg
      exact .inl ⟨th', g', hth', hlabel, hold, .inl rfl⟩
    | some a =>
      simp only [notes, hexec, List.getElem?_map, List.getElem?_modify] at hg
      obtain ⟨g', hold, rfl⟩ := Option.map_eq_some_iff.mp hg
      by_cases hij : a.index = i
      · subst hij
        simp only [if_true] at hold
        obtain ⟨g'', hold', rfl⟩ := Option.map_eq_some_iff.mp hold
        obtain ⟨k, heq, hex⟩ := executes_of_executing (Option.mem_def.mpr hexec)
        obtain rfl : th' = a.thread := Option.some.inj (hth'.symm.trans hex.here)
        refine .inl ⟨_, g'', hth', hlabel, hold', .inr ⟨a, rfl, rfl, ?_⟩⟩
        rw [← hlabel]
      · simp only [hij, if_false] at hold
        exact .inl ⟨th', g', hth', hlabel, by simpa using hold, .inl rfl⟩

omit [DecidableEq K] in
/-- What a note counts on is true. -/
theorem Relying.counts (h : Relying Y Z guar cfg gs) {i : ℕ} {th : Thread S R E W K ε κ} {g : Γ}
    (hi : cfg.threads[i]? = some th) (hg : gs[i]? = some g) : Z.counts g cfg.world := by
  obtain ⟨⟨⟨g', v⟩, hc⟩, hx, -⟩ := h.thread i th g hi hg
  cases hx
  exact hc

/-- In a grounded run every call does what it promises, at every step. -/
theorem relied
    (hprogram : ∀ l w, Meets (Z.setting Y.engine guar l) (fun _ _ => True) (Y.program l)
      (Z.stand (Z.start l w) ⟨w, .idle⟩))
    {es : List (Event E M κ)} (h : Relying Y Z guar cfg gs) (hrun : Y.RunsGrounded Z cfg gs es) :
    Y.Noted Z (fun cfg gs e => Relying Y Z guar cfg gs ∧ ∀ a ∈ Y.executing cfg e, ∃ g,
      gs[a.index]? = some g ∧ guar a.thread.label g a.cmd a.env (a.thread.view cfg.world))
      cfg gs es := by
  induction es generalizing cfg gs with
  | nil => exact trivial
  | cons e es ih => exact ⟨⟨h, h.promised hrun.1⟩, ih (h.step hprogram hrun.1) hrun.2⟩

variable {ok : Config S R E W K ε κ → List Γ → Event E M κ → Prop} {es fs : List (Event E M κ)}

theorem Noted.along {ok' : Config S R E W K ε κ → Event E M κ → Prop}
    (h : Y.Noted Z ok cfg gs es) (himp : ∀ cfg gs e, ok cfg gs e → ok' cfg e) :
    Y.Along ok' cfg es := by
  induction es generalizing cfg gs with
  | nil => exact trivial
  | cons e es ih => exact ⟨himp cfg gs e h.1, ih h.2⟩

theorem Noted.mono {ok' : Config S R E W K ε κ → List Γ → Event E M κ → Prop}
    (h : Y.Noted Z ok cfg gs es) (himp : ∀ cfg gs e, ok cfg gs e → ok' cfg gs e) :
    Y.Noted Z ok' cfg gs es := by
  induction es generalizing cfg gs with
  | nil => exact trivial
  | cons e es ih => exact ⟨himp cfg gs e h.1, ih h.2⟩

theorem noted_admitting {admits : κ → Γ → Cmd S → E → View S E W K → Prop} :
    Y.Noted (Z.admitting admits) ok cfg gs es ↔ Y.Noted Z ok cfg gs es := by
  induction es generalizing cfg gs with
  | nil => exact Iff.rfl
  | cons e es ih => exact and_congr Iff.rfl ih

/-- What holds at the start and is kept by every step that meets `ok` holds
throughout. -/
theorem Noted.throughout {I : Config S R E W K ε κ → List Γ → Prop}
    (kept : ∀ cfg gs e, I cfg gs → ok cfg gs e → I (Y.step cfg e) (Y.notes Z cfg gs e))
    (h : Y.Noted Z ok cfg gs es) (hI : I cfg gs) :
    Y.Noted Z (fun cfg gs e => ok cfg gs e ∧ I cfg gs) cfg gs es := by
  induction es generalizing cfg gs with
  | nil => exact trivial
  | cons e es ih => exact ⟨⟨h.1, hI⟩, ih h.2 (kept cfg gs e hI h.1)⟩

theorem Noted.append :
    Y.Noted Z ok cfg gs (es ++ fs) ↔ Y.Noted Z ok cfg gs es ∧
      Y.Noted Z ok (Y.run cfg es) (Y.notesAfter Z cfg gs es) fs := by
  induction es generalizing cfg gs with
  | nil => simp [Noted, notesAfter]
  | cons e es ih => simp only [List.cons_append, Noted, run_cons, notesAfter, ih, and_assoc]

/-- What holds at the start and is kept by every step that meets `ok` holds at
the end. -/
theorem Noted.invariant {I : Config S R E W K ε κ → List Γ → Prop}
    (kept : ∀ cfg gs e, I cfg gs → ok cfg gs e → I (Y.step cfg e) (Y.notes Z cfg gs e))
    (h : Y.Noted Z ok cfg gs es) (hI : I cfg gs) :
    I (Y.run cfg es) (Y.notesAfter Z cfg gs es) := by
  induction es generalizing cfg gs with
  | nil => exact hI
  | cons e es ih => exact ih h.2 (kept cfg gs e hI h.1)

end Run

end System

end ReadCommitted
