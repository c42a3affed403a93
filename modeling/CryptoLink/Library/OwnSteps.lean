import CryptoLink.Library.Histories
import CryptoLink.Library.Landings

/-!
# What one call did

In a run the calls of all threads alternate. The calls of one of them, each with
the world before and the world after it, are what this thread is accountable
for. A program judged by what it did itself is verified alone: between its
calls the others move the world along a relation.
-/

namespace ReadCommitted

open StatementPrograms

variable {S : Type} {R : S → Type} {E W K : Type} {ε κ M α β : Type}

/-- What the others may do between two calls of the program, and on what answers
the program's own calls are considered. -/
structure Surroundings (S E W K : Type) where
  rel : W → W → Prop
  refl : ∀ w, rel w w
  trans : ∀ {u v w}, rel u v → rel v w → rel u w
  admits : Cmd S → E → View S E W K → Prop

/-- The worlds around the calls performed so far. -/
abbrev Deeds (W : Type) := List (W × W)

/-- A program's own view, together with what it did. -/
def Surroundings.setting (Z : Surroundings S E W K) (G : Engine S R E W K) :
    Setting (Cmd S) (Answer R) (View S E W K × Deeds W) where
  rely a b := b.1.session = a.1.session ∧ Z.rel a.1.world b.1.world ∧ b.2 = a.2
  does c a r b := ∃ env, Z.admits c env a.1 ∧ G.perform c env a.1 = (r, b.1) ∧
    b.2 = a.2 ++ [(a.1.world, b.1.world)]
  guar _ _ _ _ := True
  rely_refl a := ⟨rfl, Z.refl a.1.world, rfl⟩
  rely_trans h h' := ⟨h'.1.trans h.1, Z.trans h.2.1 h'.2.1, h'.2.2.trans h.2.2⟩

/-- Whatever the program did by then and whatever the others did beside it, `Q`
holds of its outcome, what it sees, and what it did. -/
def Accounts (Z : Surroundings S E W K) (G : Engine S R E W K)
    (Q : Except ε α → View S E W K → Deeds W → Prop) (p : Prog (Cmd S) (Answer R) ε α)
    (v : View S E W K) (own : Deeds W) : Prop :=
  Meets (Z.setting G) (fun x a => Q x a.1 a.2) p (v, own)

namespace Accounts

variable {Z : Surroundings S E W K} {G : Engine S R E W K} {own : Deeds W} {v : View S E W K}
  {Q Q' : Except ε α → View S E W K → Deeds W → Prop} {p : Prog (Cmd S) (Answer R) ε α}

/-- The others moved on since the last call. -/
theorem stable {w : W} (hrel : Z.rel v.world w) (h : Accounts Z G Q p v own) :
    Accounts Z G Q p ⟨w, v.session⟩ own := by
  have hrely : (Z.setting G : Setting (Cmd S) (Answer R) _).rely (v, own) (⟨w, v.session⟩, own) :=
    ⟨rfl, hrel, rfl⟩
  exact Meets.stable hrely h

theorem mono (h : ∀ x v' own', Q x v' own' → Q' x v' own') (hp : Accounts Z G Q p v own) :
    Accounts Z G Q' p v own :=
  Meets.mono (fun x a => h x a.1 a.2) hp

theorem ofExcept {x : Except ε α} (h : ∀ w, Z.rel v.world w → Q x ⟨w, v.session⟩ own) :
    Accounts Z G Q (Prog.ofExcept x) v own := by
  refine Meets.ofExcept ?_
  rintro ⟨⟨w, session⟩, own'⟩ ⟨hsession, hrel, howns⟩
  obtain rfl : session = v.session := hsession
  obtain rfl : own' = own := howns
  exact h w hrel

theorem ret {a : α} (h : ∀ w, Z.rel v.world w → Q (.ok a) ⟨w, v.session⟩ own) :
    Accounts Z G Q (.ret a) v own :=
  ofExcept (x := .ok a) h

theorem fail {e : ε} (h : ∀ w, Z.rel v.world w → Q (.error e) ⟨w, v.session⟩ own) :
    Accounts Z G Q (.fail e) v own :=
  ofExcept (x := .error e) h

/-- A call: it is performed in a world the others may have moved to. -/
theorem call {c : Cmd S} {k : Answer R c → Prog (Cmd S) (Answer R) ε α}
    (h : ∀ w env, Z.rel v.world w → Z.admits c env ⟨w, v.session⟩ →
      Accounts Z G Q (k (G.perform c env ⟨w, v.session⟩).1)
        (G.perform c env ⟨w, v.session⟩).2
        (own ++ [(w, (G.perform c env ⟨w, v.session⟩).2.world)])) :
    Accounts Z G Q (.call c k) v own := by
  rintro ⟨⟨w, session⟩, own'⟩ ⟨hsession, hrel, howns⟩ r ⟨v', own''⟩ ⟨env, hadmits, hdone, hdid⟩
  obtain rfl : session = v.session := hsession
  obtain rfl : own' = own := howns
  have hcall := h w env hrel hadmits
  dsimp only at hdone hdid
  subst hdid
  rw [hdone] at hcall
  exact ⟨trivial, hcall⟩

/-- A statement on the pool. -/
theorem pool {s : S} {k : R s → Prog (Cmd S) (Answer R) ε α}
    (h : ∀ w env, Z.rel v.world w → Z.admits (.stmt .pool s) env ⟨w, v.session⟩ →
      Accounts Z G Q (k (G.reply s env w)) ⟨G.autocommit s env w, v.session⟩
        (own ++ [(w, G.autocommit s env w)])) :
    Accounts Z G Q (.call (.stmt .pool s) k) v own :=
  call h

/-- A statement inside an open transaction. -/
theorem tx {s : S} {k : R s → Prog (Cmd S) (Answer R) ε α} {log : Log S E W} {kept : List K}
    {u : W} (h : ∀ w env, Z.rel u w → Z.admits (.stmt .tx s) env ⟨w, some log, kept⟩ →
      Accounts Z G Q (k (G.reply s env (G.replay log w)))
        ⟨G.lasting s env w, some (log ++ [⟨s, env, G.replay log w⟩]), kept⟩
        (own ++ [(w, G.lasting s env w)])) :
    Accounts Z G Q (.call (.stmt .tx s) k) ⟨u, some log, kept⟩ own :=
  call h

/-- The first part accounts for itself, the second goes on from there. -/
theorem bind {f : α → Prog (Cmd S) (Answer R) ε β}
    {Q : Except ε β → View S E W K → Deeds W → Prop}
    {M : Except ε α → View S E W K → Deeds W → Prop} (hp : Accounts Z G M p v own)
    (hf : ∀ r v' own', M (.ok r) v' own' → Accounts Z G Q (f r) v' own')
    (he : ∀ e v' own', M (.error e) v' own' → Q (.error e) v' own') :
    Accounts Z G Q (p.bind f) v own := by
  refine Meets.bind (Meets.mono (fun x a hx => ?_) hp)
  cases x with
  | ok r => exact hf r a.1 a.2 hx
  | error e => exact he e a.1 a.2 hx

/-- An attempt goes on whatever came of it. -/
theorem attempt_bind {f : Except ε α → Prog (Cmd S) (Answer R) ε β}
    {Q : Except ε β → View S E W K → Deeds W → Prop}
    {M : Except ε α → View S E W K → Deeds W → Prop} (hp : Accounts Z G M p v own)
    (hf : ∀ x v' own', M x v' own' → Accounts Z G Q (f x) v' own') :
    Accounts Z G Q (p.attempt.bind f) v own :=
  Meets.bind (Meets.attempt (Meets.mono (fun x a => hf x a.1 a.2) hp))

theorem mapError {f : ε → ε} {M : Except ε α → View S E W K → Deeds W → Prop}
    (hp : Accounts Z G M p v own) (h : ∀ x v' own', M x v' own' → Q (x.mapError f) v' own') :
    Accounts Z G Q (p.mapError f) v own := by
  refine Meets.mapError (Meets.mono (fun x a hx => ?_) hp)
  cases x with
  | ok r => exact h (.ok r) a.1 a.2 hx
  | error e => exact h (.error e) a.1 a.2 hx

/-- A program whose calls all keep `J` needs no look inside. -/
theorem of_issues {P : Cmd S → Prop} {J : View S E W K → Prop} (hp : Issues P p)
    (hstable : ∀ w w' x, Z.rel w w' → J ⟨w, x⟩ → J ⟨w', x⟩)
    (hkeeps : ∀ c env v, P c → Z.admits c env v → J v → J (G.perform c env v).2) (hv : J v) :
    Accounts Z G (fun _ v' _ => J v') p v own := by
  refine Meets.of_issues (J := fun a : View S E W K × Deeds W => J a.1) ?_ ?_ hp hv
  · rintro ⟨⟨w, x⟩, own⟩ ⟨⟨w', x'⟩, own'⟩ ⟨hsession, hrel, -⟩ hJ
    obtain rfl : x' = x := hsession
    exact hstable w w' x' hrel hJ
  · rintro c ⟨v, own⟩ r ⟨v', own'⟩ hc hJ ⟨env, hadmits, hdone, -⟩
    refine ⟨trivial, ?_⟩
    have hkept := hkeeps c env v hc hadmits hJ
    rw [hdone] at hkept
    exact hkept

/-- A program that has come to its end is judged by what it did. -/
theorem outcome {x : Except ε α} (h : Accounts Z G Q (Prog.ofExcept x) v own) : Q x v own := by
  cases x with
  | ok a => exact h (v, own) ((Z.setting G : Setting (Cmd S) (Answer R) _).rely_refl _)
  | error e => exact h (v, own) ((Z.setting G : Setting (Cmd S) (Answer R) _).rely_refl _)

end Accounts

/-- Whatever happens to the world, the statements are in `P` as long as the
answers are as `ok` wants them. -/
def answering (P : S → Prop) (ok : (c : Cmd S) → Answer R c → Prop) :
    Setting (Cmd S) (Answer R) Unit where
  rely _ _ := True
  does c _ r _ := ok c r
  guar c _ _ _ := ∀ q s, c = .stmt q s → P s
  rely_refl _ := trivial
  rely_trans _ _ := trivial

section Answering

variable {P : S → Prop} {ok : (c : Cmd S) → Answer R c → Prop} {T : Except ε α → Prop}

theorem answering_of_issues {p : Prog (Cmd S) (Answer R) ε α}
    (hp : Issues (fun c => ∀ q s, c = .stmt q s → P s) p) :
    Meets (answering P ok) (fun _ _ => True) p () :=
  Meets.of_issues (J := fun _ => True) (fun _ _ _ _ => trivial)
    (fun _ _ _ _ hc _ _ => ⟨hc, trivial⟩) hp trivial

/-- A transaction has the outcome of its body, or none. -/
theorem answering_runTransaction {bf cf : ε} {body : Prog (Cmd S) (Answer R) ε α}
    (hbody : Meets (answering P ok) (fun x _ => T x) body ()) (hfails : ∀ e, T (.error e)) :
    Meets (answering P ok) (fun x _ => T x) (runTransaction bf cf body) () := by
  refine Meets.ask_bind fun _ _ opened _ _ => ⟨fun _ _ h => (by cases h), ?_⟩
  split
  · refine Meets.bind (Meets.attempt (Meets.mono ?_ hbody))
    intro outcome _ hout
    cases outcome with
    | error e => exact Meets.ask_bind fun _ _ _ _ _ =>
      ⟨fun _ _ h => (by cases h), fun _ _ => hfails e⟩
    | ok a =>
      refine Meets.ask_bind fun _ _ committed _ _ => ⟨fun _ _ h => (by cases h), ?_⟩
      split
      · exact fun _ _ => hout
      · exact fun _ _ => hfails cf
  · exact fun _ _ => hfails bf

end Answering

namespace System

variable (Y : System S R E W K ε κ M) [DecidableEq K]

/-- What a step makes thread `i` do. -/
def deed (i : ℕ) (cfg : Config S R E W K ε κ) (e : Event E M κ) : Deeds W :=
  match Y.executing cfg e with
  | none => []
  | some a => if a.index = i then [(cfg.world, (Y.step cfg e).world)] else []

/-- What thread `i` did in a run. -/
def deeds (i : ℕ) : Config S R E W K ε κ → List (Event E M κ) → Deeds W
  | _, [] => []
  | cfg, e :: es => Y.deed i cfg e ++ deeds i (Y.step cfg e) es

variable {Y} {Z : Surroundings S E W K} {cfg : Config S R E W K ε κ} {l : κ} {i : ℕ}
  {Q : Except ε Unit → View S E W K → Deeds W → Prop} {own : Deeds W}

/-- Whatever is not done by thread `i` moves the world along the relation, its
own calls are answered as they are considered, and it is cut off only where that
is a fine outcome. -/
structure Around (Y : System S R E W K ε κ M) (Z : Surroundings S E W K) (l : κ)
    (Q : Except ε Unit → View S E W K → Deeds W → Prop) (i : ℕ) (cfg : Config S R E W K ε κ)
    (e : Event E M κ) : Prop where
  others : (∀ a ∈ Y.executing cfg e, a.index ≠ i) → Z.rel cfg.world (Y.step cfg e).world
  own : ∀ a ∈ Y.executing cfg e, a.index = i → a.thread.label = l →
    Z.admits a.cmd a.env (a.thread.view cfg.world)
  cut : e = .crash i → ∀ w own, Z.rel cfg.world w → Q (.ok ()) ⟨w, .idle⟩ own

/-- What is left of thread `i`, if it is labelled `l`, accounts for what it has
done; if it is still to come, the whole program will. -/
def Accountable (Y : System S R E W K ε κ M) (Z : Surroundings S E W K) (l : κ)
    (Q : Except ε Unit → View S E W K → Deeds W → Prop) (i : ℕ) (cfg : Config S R E W K ε κ)
    (own : Deeds W) : Prop :=
  match cfg.threads[i]? with
  | none => own = [] ∧ ∀ w, Accounts Z Y.engine Q (Y.program l) ⟨w, .idle⟩ []
  | some th => th.label = l → Accounts Z Y.engine Q th.prog (th.view cfg.world) own

omit [DecidableEq K] in
theorem Accountable.of_untouched {cfg' : Config S R E W K ε κ}
    (h : Accountable Y Z l Q i cfg own) (hsame : cfg'.threads[i]? = cfg.threads[i]?)
    (hrel : Z.rel cfg.world cfg'.world) : Accountable Y Z l Q i cfg' own := by
  unfold Accountable at h ⊢
  rw [hsame]
  cases hth : cfg.threads[i]? with
  | none =>
    rw [hth] at h
    exact h
  | some th =>
    rw [hth] at h
    intro hl
    exact Accounts.stable hrel (h hl)

theorem deed_of_others {e : Event E M κ} (h : ∀ a ∈ Y.executing cfg e, a.index ≠ i) :
    Y.deed i cfg e = [] := by
  unfold deed
  cases hexec : Y.executing cfg e with
  | none => rfl
  | some a => exact if_neg (h a hexec)

/-- A step of somebody else leaves thread `i` where it was. -/
theorem threads_of_others {e : Event E M κ} (h : ∀ a ∈ Y.executing cfg e, a.index ≠ i)
    (hstart : ∀ l, e ≠ .start l) (hcrash : e ≠ .crash i) :
    (Y.step cfg e).threads[i]? = cfg.threads[i]? := by
  cases e with
  | start l => exact absurd rfl (hstart l)
  | move m => rfl
  | crash j =>
    have hij : j ≠ i := fun hij => hcrash (hij ▸ rfl)
    rw [System.step]
    split
    · rfl
    · exact List.getElem?_set_ne hij
  | exec j env =>
    rcases exec_cases Y cfg j env with hs | ⟨th, c, k, hex⟩
    · rw [hs]
    · rw [hex.step_eq]
      exact List.getElem?_set_ne (h _ hex.executing_eq)

/-- Its own call takes it one call further. -/
theorem Accountable.own_step (h : Accountable Y Z l Q i cfg own) {e : Event E M κ}
    (haround : Around Y Z l Q i cfg e) {a : Action S R E W K ε κ} (ha : a ∈ Y.executing cfg e)
    (hi : a.index = i) : Accountable Y Z l Q i (Y.step cfg e) (own ++ Y.deed i cfg e) := by
  obtain ⟨k, rfl, hex⟩ := executes_of_executing ha
  subst hi
  have hdeed : Y.deed a.index cfg (.exec a.index a.env : Event E M κ) =
      [(cfg.world, (Y.step cfg (.exec a.index a.env)).world)] := by
    simp only [deed, Option.mem_def.mp ha, if_true]
  have hlt : a.index < cfg.threads.length := (List.getElem?_eq_some_iff.mp hex.here).1
  rw [hdeed, hex.step_eq]
  unfold Accountable at h ⊢
  rw [hex.here] at h
  simp only [List.getElem?_set_self hlt]
  intro hl
  have hadmits := haround.own a ha rfl hl
  have hprog : Accounts Z Y.engine Q a.thread.prog (a.thread.view cfg.world) own := h hl
  rw [hex.calls] at hprog
  exact (hprog (a.thread.view cfg.world, own) ((Z.setting Y.engine).rely_refl _) _ (_, _)
    ⟨a.env, hadmits, rfl, rfl⟩).2

theorem Accountable.step (h : Accountable Y Z l Q i cfg own) {e : Event E M κ}
    (haround : Around Y Z l Q i cfg e) :
    Accountable Y Z l Q i (Y.step cfg e) (own ++ Y.deed i cfg e) := by
  by_cases hown : ∃ a ∈ Y.executing cfg e, a.index = i
  · obtain ⟨a, ha, hi⟩ := hown
    exact h.own_step haround ha hi
  have hothers : ∀ a ∈ Y.executing cfg e, a.index ≠ i := fun a ha hi => hown ⟨a, ha, hi⟩
  have hrel := haround.others hothers
  rw [deed_of_others hothers, List.append_nil]
  by_cases hcrash : e = .crash i
  · subst hcrash
    cases hth : cfg.threads[i]? with
    | none =>
      refine h.of_untouched ?_ hrel
      rw [System.step, hth]
      exact hth
    | some th =>
      have hlt : i < cfg.threads.length := (List.getElem?_eq_some_iff.mp hth).1
      unfold Accountable
      simp only [System.step, hth, List.getElem?_set_self hlt]
      intro _
      exact Accounts.ret fun w hw => haround.cut rfl w own hw
  by_cases hstart : ∃ l', e = .start l'
  · obtain ⟨l', rfl⟩ := hstart
    by_cases hlt : i < cfg.threads.length
    · exact h.of_untouched (List.getElem?_append_left hlt) hrel
    · have hnone : cfg.threads[i]? = none := List.getElem?_eq_none (by omega)
      unfold Accountable at h ⊢
      rw [hnone] at h
      obtain ⟨rfl, hprogram⟩ := h
      simp only [System.step, List.getElem?_append_right (Nat.le_of_not_lt hlt),
        List.getElem?_singleton]
      split
      · exact ⟨trivial, hprogram⟩
      · rename_i th hth
        split at hth
        · cases hth
          rintro rfl
          exact hprogram cfg.world
        · cases hth
  · exact h.of_untouched (threads_of_others hothers (fun l' he => hstart ⟨l', he⟩) hcrash) hrel

/-- A call of a run accounts for what it did. -/
theorem Accountable.run (h : Accountable Y Z l Q i cfg own) {es : List (Event E M κ)}
    (haround : Y.Along (Around Y Z l Q i) cfg es) :
    Accountable Y Z l Q i (Y.run cfg es) (own ++ Y.deeds i cfg es) := by
  induction es generalizing cfg own with
  | nil =>
    rw [deeds, List.append_nil]
    exact h
  | cons e es ih =>
    have hrest := ih (h.step haround.1) haround.2
    rw [List.append_assoc] at hrest
    exact hrest

/-- What a thread that is answered as `ok` wants has left to do, and what it has
done in its open transaction, is in `P`. -/
def Abides (P : S → Prop) (ok : (c : Cmd S) → Answer R c → Prop) (i : ℕ)
    (cfg : Config S R E W K ε κ) : Prop :=
  ∃ th, cfg.threads[i]? = some th ∧ Meets (answering P ok) (fun _ _ => True) th.prog () ∧
    Engine.Within P (fun _ => True) (th.view cfg.world)

theorem Abides.landing {P : S → Prop} {ok : (c : Cmd S) → Answer R c → Prop}
    (h : Abides P ok i cfg) {e : Event E M κ} {a : Action S R E W K ε κ}
    (ha : a ∈ Y.executing cfg e) (hi : a.index = i)
    (hok : ok a.cmd (Y.engine.perform a.cmd a.env (a.thread.view cfg.world)).1) :
    ∀ x ∈ Y.engine.landing a.cmd a.env (a.thread.view cfg.world), P x.stmt := by
  obtain ⟨k, -, hex⟩ := executes_of_executing ha
  obtain ⟨th, hth, hprog, hlog⟩ := h
  subst hi
  obtain rfl : th = a.thread := Option.some.inj (hth.symm.trans hex.here)
  rw [hex.calls] at hprog
  exact hlog.landing (hprog () trivial _ () hok).1 a.env

theorem Abides.step {P : S → Prop} {ok : (c : Cmd S) → Answer R c → Prop}
    (h : Abides P ok i cfg) {e : Event E M κ}
    (hok : ∀ a ∈ Y.executing cfg e, a.index = i →
      ok a.cmd (Y.engine.perform a.cmd a.env (a.thread.view cfg.world)).1) :
    Abides P ok i (Y.step cfg e) := by
  obtain ⟨th, hth, hprog, hlog⟩ := h
  have hlt : i < cfg.threads.length := (List.getElem?_eq_some_iff.mp hth).1
  by_cases hown : ∃ a ∈ Y.executing cfg e, a.index = i
  · obtain ⟨a, ha, rfl⟩ := hown
    obtain ⟨k, rfl, hex⟩ := executes_of_executing ha
    obtain rfl : th = a.thread := Option.some.inj (hth.symm.trans hex.here)
    rw [hex.calls] at hprog
    obtain ⟨hstmt, hrest⟩ := hprog () trivial _ () (hok a ha rfl)
    rw [hex.step_eq]
    exact ⟨_, List.getElem?_set_self hlt, hrest, hlog.perform (G := Y.engine)
      (fun _ _ _ _ _ _ => trivial) (fun _ _ _ _ _ => trivial) hstmt a.env⟩
  have hothers : ∀ a ∈ Y.executing cfg e, a.index ≠ i := fun a ha hi => hown ⟨a, ha, hi⟩
  by_cases hcrash : e = .crash i
  · subst hcrash
    simp only [System.step, hth]
    exact ⟨_, List.getElem?_set_self hlt, fun _ _ => trivial, Engine.within_idle trivial⟩
  have hsame : (Y.step cfg e).threads[i]? = some th := by
    by_cases hstart : ∃ l, e = .start l
    · obtain ⟨l, rfl⟩ := hstart
      exact (List.getElem?_append_left hlt).trans hth
    · exact (threads_of_others hothers (fun l he => hstart ⟨l, he⟩) hcrash).trans hth
  exact ⟨th, hsame, hprog, trivial, hlog.log⟩

section Deeds

variable {es : List (Event E M κ)}

theorem mem_deed {d : W × W} {e : Event E M κ} (h : d ∈ Y.deed i cfg e) :
    d = (cfg.world, (Y.step cfg e).world) ∧ ∃ a ∈ Y.executing cfg e, a.index = i := by
  unfold deed at h
  cases hexec : Y.executing cfg e with
  | none =>
    rw [hexec] at h
    cases h
  | some a =>
    rw [hexec] at h
    dsimp only at h
    split at h
    · exact ⟨List.mem_singleton.mp h, a, rfl, ‹_›⟩
    · cases h

/-- What a run keeps is kept from the start to every deed, and from every deed
to the end. -/
theorem rel_deeds (rel : W → W → Prop) (refl : ∀ w, rel w w)
    (trans : ∀ {u v w}, rel u v → rel v w → rel u w)
    (hrun : Y.Along (fun cfg e => rel cfg.world (Y.step cfg e).world) cfg es) {d : W × W}
    (hd : d ∈ Y.deeds i cfg es) : rel cfg.world d.1 ∧ rel d.2 (Y.run cfg es).world := by
  have hend : ∀ {cfg : Config S R E W K ε κ} {es : List (Event E M κ)},
      Y.Along (fun cfg e => rel cfg.world (Y.step cfg e).world) cfg es →
        rel cfg.world (Y.run cfg es).world := by
    intro cfg es hrun
    induction es generalizing cfg with
    | nil => exact refl _
    | cons e es ih => exact trans hrun.1 (ih hrun.2)
  induction es generalizing cfg with
  | nil => cases hd
  | cons e es ih =>
    rcases List.mem_append.mp hd with hfirst | hlater
    · obtain ⟨rfl, -⟩ := mem_deed hfirst
      exact ⟨refl _, hend hrun.2⟩
    · obtain ⟨hstart, hlast⟩ := ih hrun.2 hlater
      exact ⟨trans hrun.1 hstart, hlast⟩

/-- What no step undoes, at most one thread brings about. -/
theorem brought_about_once {P : W → Prop} {j : ℕ} (hij : i ≠ j)
    (hrun : Y.Along (fun cfg e => P cfg.world → P (Y.step cfg e).world) cfg es)
    {d d' : W × W} (hd : d ∈ Y.deeds i cfg es) (hbefore : ¬ P d.1) (hafter : P d.2)
    (hd' : d' ∈ Y.deeds j cfg es) (hbefore' : ¬ P d'.1) (hafter' : P d'.2) : False := by
  induction es generalizing cfg with
  | nil => cases hd
  | cons e es ih =>
    have hlasts : ∀ {k : ℕ} {d : W × W}, P (Y.step cfg e).world →
        d ∈ Y.deeds k (Y.step cfg e) es → P d.1 := fun hP hd =>
      (rel_deeds (fun u v => P u → P v) (fun _ => id) (fun h h' => h' ∘ h) hrun.2 hd).1 hP
    rcases List.mem_append.mp hd with hfirst | hlater
    · obtain ⟨rfl, a, ha, rfl⟩ := mem_deed hfirst
      rcases List.mem_append.mp hd' with hfirst' | hlater'
      · obtain ⟨rfl, a', ha', rfl⟩ := mem_deed hfirst'
        rw [Option.mem_def.mp ha] at ha'
        cases ha'
        exact hij rfl
      · exact hbefore' (hlasts hafter hlater')
    · rcases List.mem_append.mp hd' with hfirst' | hlater'
      · obtain ⟨rfl, -⟩ := mem_deed hfirst'
        exact hbefore (hlasts hafter' hlater)
      · exact ih hrun.2 hlater hlater'

end Deeds

end System

end ReadCommitted
