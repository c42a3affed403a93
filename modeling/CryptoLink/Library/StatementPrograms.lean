import Mathlib.Data.Nat.Notation
import Mathlib.Logic.Basic

/-!
# Programs of outside calls

A program is a finite tree of calls to something outside it: a database, a
remote node, a clock. Its branching is over the answers, so the tree itself
fixes no semantics; a run, an interleaving of several programs and the
footprint of one program are all read off the same tree.
-/

namespace StatementPrograms

variable {C : Type} {A : C → Type} {ε α β : Type}

inductive Prog (C : Type) (A : C → Type) (ε α : Type) where
  | ret (a : α)
  | fail (e : ε)
  | call (c : C) (k : A c → Prog C A ε α)

namespace Prog

def bind : Prog C A ε α → (α → Prog C A ε β) → Prog C A ε β
  | ret a, f => f a
  | fail e, _ => fail e
  | call c k, f => call c fun r => (k r).bind f

instance : Monad (Prog C A ε) where
  pure := ret
  bind := bind

/-- One call whose answer is the result. -/
def ask (c : C) : Prog C A ε (A c) :=
  call c ret

/-- The outcome as a value: the attempt itself never fails. -/
def attempt : Prog C A ε α → Prog C A ε (Except ε α)
  | ret a => ret (.ok a)
  | fail e => ret (.error e)
  | call c k => call c fun r => (k r).attempt

def mapError (f : ε → ε) : Prog C A ε α → Prog C A ε α
  | ret a => ret a
  | fail e => fail (f e)
  | call c k => call c fun r => (k r).mapError f

def ofExcept : Except ε α → Prog C A ε α
  | .ok a => ret a
  | .error e => fail e

/-- One program for each element, in order. -/
def each {γ : Type} (f : γ → Prog C A ε Unit) : List γ → Prog C A ε Unit
  | [] => ret ()
  | x :: xs => (f x).bind fun _ => each f xs

@[simp] theorem pure_eq (a : α) : (pure a : Prog C A ε α) = ret a := rfl

@[simp] theorem bind_eq (p : Prog C A ε α) (f : α → Prog C A ε β) : p >>= f = p.bind f := rfl

@[simp] theorem ret_bind (a : α) (f : α → Prog C A ε β) : (ret a).bind f = f a := rfl

@[simp] theorem fail_bind (e : ε) (f : α → Prog C A ε β) :
    (fail e : Prog C A ε α).bind f = fail e := rfl

@[simp] theorem call_bind (c : C) (k : A c → Prog C A ε α) (f : α → Prog C A ε β) :
    (call c k).bind f = call c fun r => (k r).bind f := rfl

theorem bind_assoc {γ : Type} (p : Prog C A ε α) (f : α → Prog C A ε β)
    (g : β → Prog C A ε γ) : (p.bind f).bind g = p.bind fun a => (f a).bind g := by
  induction p with
  | ret a => rfl
  | fail e => rfl
  | call c k ih =>
    have hk : (fun r => ((k r).bind f).bind g) = fun r => (k r).bind fun a => (f a).bind g :=
      funext ih
    exact congrArg (call c) hk

@[simp] theorem ofExcept_ok (a : α) : (ofExcept (.ok a) : Prog C A ε α) = ret a := rfl

@[simp] theorem ofExcept_error (e : ε) : (ofExcept (.error e) : Prog C A ε α) = fail e := rfl

end Prog

/-- Every call the program can make, whatever it is answered, is among `P`. -/
def Issues (P : C → Prop) : Prog C A ε α → Prop
  | .ret _ => True
  | .fail _ => True
  | .call c k => P c ∧ ∀ r, Issues P (k r)

namespace Issues

variable {P Q : C → Prop}

@[simp] theorem ret (a : α) : Issues P (.ret a : Prog C A ε α) := trivial

@[simp] theorem fail (e : ε) : Issues P (.fail e : Prog C A ε α) := trivial

@[simp] theorem call_iff (c : C) (k : A c → Prog C A ε α) :
    Issues P (.call c k) ↔ P c ∧ ∀ r, Issues P (k r) := Iff.rfl

@[simp] theorem ask_iff (c : C) : Issues P (Prog.ask c : Prog C A ε (A c)) ↔ P c := by
  simp [Prog.ask]

theorem bind {p : Prog C A ε α} {f : α → Prog C A ε β} (hp : Issues P p)
    (hf : ∀ a, Issues P (f a)) : Issues P (p.bind f) := by
  induction p with
  | ret a => exact hf a
  | fail e => exact trivial
  | call c k ih => exact ⟨hp.1, fun r => ih r (hp.2 r)⟩

theorem attempt {p : Prog C A ε α} (hp : Issues P p) : Issues P p.attempt := by
  induction p with
  | ret a => exact trivial
  | fail e => exact trivial
  | call c k ih => exact ⟨hp.1, fun r => ih r (hp.2 r)⟩

theorem mapError {p : Prog C A ε α} (f : ε → ε) (hp : Issues P p) :
    Issues P (p.mapError f) := by
  induction p with
  | ret a => exact trivial
  | fail e => exact trivial
  | call c k ih => exact ⟨hp.1, fun r => ih r (hp.2 r)⟩

@[simp] theorem ofExcept (x : Except ε α) : Issues P (Prog.ofExcept x : Prog C A ε α) := by
  cases x <;> exact trivial

theorem each {γ : Type} {f : γ → Prog C A ε Unit} (hf : ∀ x, Issues P (f x)) (xs : List γ) :
    Issues P (Prog.each f xs) := by
  induction xs with
  | nil => exact trivial
  | cons x xs ih => exact (hf x).bind fun _ => ih

theorem always {p : Prog C A ε α} (h : ∀ c, P c) : Issues P p := by
  induction p with
  | ret a => exact trivial
  | fail e => exact trivial
  | call c k ih => exact ⟨h c, ih⟩

theorem mono {p : Prog C A ε α} (h : ∀ c, P c → Q c) (hp : Issues P p) : Issues Q p := by
  induction p with
  | ret a => exact trivial
  | fail e => exact trivial
  | call c k ih => exact ⟨h c hp.1, fun r => ih r (hp.2 r)⟩

end Issues

/-- Every call is among `P` as long as the answers so far were among `ok`. -/
def IssuesGiven (P : C → Prop) (ok : (c : C) → A c → Prop) : Prog C A ε α → Prop
  | .ret _ => True
  | .fail _ => True
  | .call c k => P c ∧ ∀ r, ok c r → IssuesGiven P ok (k r)

namespace IssuesGiven

variable {P : C → Prop} {ok : (c : C) → A c → Prop}

theorem of_issues {p : Prog C A ε α} (hp : Issues P p) : IssuesGiven P ok p := by
  induction p with
  | ret a => exact trivial
  | fail e => exact trivial
  | call c k ih => exact ⟨hp.1, fun r _ => ih r (hp.2 r)⟩

theorem bind {p : Prog C A ε α} {f : α → Prog C A ε β} (hp : IssuesGiven P ok p)
    (hf : ∀ a, IssuesGiven P ok (f a)) : IssuesGiven P ok (p.bind f) := by
  induction p with
  | ret a => exact hf a
  | fail e => exact trivial
  | call c k ih => exact ⟨hp.1, fun r hr => ih r (hp.2 r hr)⟩

theorem ask_bind {c : C} {f : A c → Prog C A ε β} (hc : P c)
    (hf : ∀ r, ok c r → IssuesGiven P ok (f r)) : IssuesGiven P ok ((Prog.ask c).bind f) :=
  ⟨hc, hf⟩

theorem ofExcept_bind {x : Except ε α} {f : α → Prog C A ε β}
    (hf : ∀ a, x = .ok a → IssuesGiven P ok (f a)) :
    IssuesGiven P ok ((Prog.ofExcept x).bind f) := by
  cases x with
  | error e => exact trivial
  | ok a => exact hf a rfl

end IssuesGiven

/-- Every failure of the program is among `X`, whatever it is answered. -/
def FailsOnly (X : ε → Prop) : Prog C A ε α → Prop
  | .ret _ => True
  | .fail e => X e
  | .call _ k => ∀ r, FailsOnly X (k r)

namespace FailsOnly

variable {X : ε → Prop}

theorem ask (c : C) : FailsOnly X (Prog.ask c : Prog C A ε (A c)) := fun _ => trivial

theorem ofExcept {x : Except ε α} (h : ∀ e, x = .error e → X e) :
    FailsOnly X (Prog.ofExcept x : Prog C A ε α) := by
  cases x with
  | error e => exact h e rfl
  | ok a => exact trivial

theorem bind {p : Prog C A ε α} {f : α → Prog C A ε β} (hp : FailsOnly X p)
    (hf : ∀ a, FailsOnly X (f a)) : FailsOnly X (p.bind f) := by
  induction p with
  | ret a => exact hf a
  | fail e => exact hp
  | call c k ih => exact fun r => ih r (hp r)

end FailsOnly

section RelyGuarantee

variable {σ : Type}

/-- What a caller may assume of its surroundings, what one call does, and what
each call must satisfy. `does c s r s'` reads: in state `s` the call `c` may
be answered `r`, leaving `s'`. -/
structure Setting (C : Type) (A : C → Type) (σ : Type) where
  rely : σ → σ → Prop
  does : (c : C) → σ → A c → σ → Prop
  guar : (c : C) → σ → A c → σ → Prop
  rely_refl : ∀ s, rely s s
  rely_trans : ∀ {s t u}, rely s t → rely t u → rely s u

variable (S : Setting C A σ)

/-- Between any two calls the surroundings may move along `rely`. Every call
then satisfies `guar`, and every outcome satisfies `Q`. -/
def Meets (Q : Except ε α → σ → Prop) : Prog C A ε α → σ → Prop
  | .ret a, s => ∀ s', S.rely s s' → Q (.ok a) s'
  | .fail e, s => ∀ s', S.rely s s' → Q (.error e) s'
  | .call c k, s => ∀ s', S.rely s s' → ∀ r t, S.does c s' r t →
      S.guar c s' r t ∧ Meets Q (k r) t

namespace Meets

variable {S} {Q Q' : Except ε α → σ → Prop} {R : Except ε β → σ → Prop}

theorem stable {p : Prog C A ε α} {s s' : σ} (hs : S.rely s s') (hp : Meets S Q p s) :
    Meets S Q p s' := by
  cases p with
  | ret a => exact fun t ht => hp t (S.rely_trans hs ht)
  | fail e => exact fun t ht => hp t (S.rely_trans hs ht)
  | call c k => exact fun t ht => hp t (S.rely_trans hs ht)

theorem mono {p : Prog C A ε α} {s : σ} (h : ∀ x t, Q x t → Q' x t)
    (hp : Meets S Q p s) : Meets S Q' p s := by
  induction p generalizing s with
  | ret a => exact fun t ht => h _ _ (hp t ht)
  | fail e => exact fun t ht => h _ _ (hp t ht)
  | call c k ih =>
    intro t ht r u hdo
    exact ⟨(hp t ht r u hdo).1, ih r (hp t ht r u hdo).2⟩

/-- The sequencing rule: the first outcome is handed to the continuation, or
the failure is the outcome of the whole. -/
theorem bind {p : Prog C A ε α} {f : α → Prog C A ε β} {s : σ}
    (hp : Meets S (fun x t => match x with
      | .ok a => Meets S R (f a) t
      | .error e => R (.error e) t) p s) : Meets S R (p.bind f) s := by
  induction p generalizing s with
  | ret a => exact hp s (S.rely_refl s)
  | fail e => exact hp
  | call c k ih =>
    intro t ht r u hdo
    exact ⟨(hp t ht r u hdo).1, ih r (hp t ht r u hdo).2⟩

/-- Sequencing through an assertion that every outcome of the first satisfies. -/
theorem seq {J : σ → Prop} {p : Prog C A ε α} {f : α → Prog C A ε β} {s : σ}
    (hp : Meets S (fun _ => J) p s) (hf : ∀ a t, J t → Meets S R (f a) t)
    (herr : ∀ e t, J t → R (.error e) t) : Meets S R (p.bind f) s := by
  refine bind (hp.mono fun x t ht => ?_)
  cases x with
  | ok a => exact hf a t ht
  | error e => exact herr e t ht

theorem attempt {p : Prog C A ε α} {s : σ} {R : Except ε (Except ε α) → σ → Prop}
    (hp : Meets S (fun x t => R (.ok x) t) p s) : Meets S R p.attempt s := by
  induction p generalizing s with
  | ret a => exact hp
  | fail e => exact hp
  | call c k ih =>
    intro t ht r u hdo
    exact ⟨(hp t ht r u hdo).1, ih r (hp t ht r u hdo).2⟩

theorem mapError {p : Prog C A ε α} {s : σ} {f : ε → ε}
    (hp : Meets S (fun x t => match x with
      | .ok a => Q (.ok a) t
      | .error e => Q (.error (f e)) t) p s) : Meets S Q (p.mapError f) s := by
  induction p generalizing s with
  | ret a => exact hp
  | fail e => exact hp
  | call c k ih =>
    intro t ht r u hdo
    exact ⟨(hp t ht r u hdo).1, ih r (hp t ht r u hdo).2⟩

/-- What holds whatever the outcome holds whatever the error is called. -/
theorem mapError_of_all {J : σ → Prop} {p : Prog C A ε α} {s : σ} {f : ε → ε}
    (hp : Meets S (fun _ => J) p s) : Meets S (fun _ => J) (p.mapError f) s := by
  refine mapError (hp.mono fun x t ht => ?_)
  cases x with
  | ok a => exact ht
  | error e => exact ht

theorem ret {a : α} {s : σ} (h : ∀ s', S.rely s s' → Q (.ok a) s') :
    Meets S Q (.ret a) s := h

theorem fail {e : ε} {s : σ} (h : ∀ s', S.rely s s' → Q (.error e) s') :
    Meets S Q (.fail e) s := h

theorem ofExcept {x : Except ε α} {s : σ} (h : ∀ s', S.rely s s' → Q x s') :
    Meets S Q (Prog.ofExcept x) s := by
  cases x with
  | error e => exact h
  | ok a => exact h

/-- Once a pure step has given a value, the run goes on with it or has failed. -/
theorem ofExcept_bind {x : Except ε α} {f : α → Prog C A ε β} {s : σ}
    (hok : ∀ a, x = .ok a → Meets S R (f a) s)
    (herr : ∀ e, x = .error e → ∀ s', S.rely s s' → R (.error e) s') :
    Meets S R ((Prog.ofExcept x).bind f) s := by
  cases x with
  | error e => exact herr e rfl
  | ok a => exact hok a rfl

theorem ask_bind {c : C} {f : A c → Prog C A ε β} {s : σ}
    (h : ∀ s', S.rely s s' → ∀ r t, S.does c s' r t → S.guar c s' r t ∧ Meets S R (f r) t) :
    Meets S R ((Prog.ask c).bind f) s := h

/-- A call made where the surroundings keep `J`. -/
theorem ask_kept {J : σ → Prop} {c : C} {f : A c → Prog C A ε β} {s : σ}
    (stable : ∀ s t, S.rely s t → J s → J t) (hs : J s)
    (h : ∀ s' r t, J s' → S.does c s' r t → S.guar c s' r t ∧ Meets S R (f r) t) :
    Meets S R ((Prog.ask c).bind f) s :=
  ask_bind fun s' hrely r t => h s' r t (stable s s' hrely hs)

/-- A program whose calls all keep `J` needs no look inside. -/
theorem of_issues {P : C → Prop} {J : σ → Prop} {p : Prog C A ε α} {s : σ}
    (stable : ∀ s t, S.rely s t → J s → J t)
    (keeps : ∀ c s r t, P c → J s → S.does c s r t → S.guar c s r t ∧ J t)
    (hp : Issues P p) (hs : J s) : Meets S (fun _ => J) p s := by
  induction p generalizing s with
  | ret a => exact fun t ht => stable s t ht hs
  | fail e => exact fun t ht => stable s t ht hs
  | call c k ih =>
    intro t ht r u hdo
    obtain ⟨hg, hu⟩ := keeps c t r u hp.1 (stable s t ht hs) hdo
    exact ⟨hg, ih r (hp.2 r) hu⟩

/-- One run with the surroundings at rest: every call is answered by `pick`, as
long as `may` lets it. -/
def walk (pick : ℕ → (c : C) → σ → A c × σ) (may : C → σ → σ → Bool) :
    Prog C A ε α → ℕ → σ → Option (Except ε α × σ)
  | .ret a, _, s => some (.ok a, s)
  | .fail e, _, s => some (.error e, s)
  | .call c k, n, s =>
    if may c s (pick n c s).2 then walk pick may (k (pick n c s).1) (n + 1) (pick n c s).2
    else none

theorem outcome_of_walk {pick : ℕ → (c : C) → σ → A c × σ} {may : C → σ → σ → Bool}
    (hdoes : ∀ n c s, may c s (pick n c s).2 = true → S.does c s (pick n c s).1 (pick n c s).2)
    {p : Prog C A ε α} {n : ℕ} {s t : σ} {x : Except ε α} (hp : Meets S Q p s)
    (h : walk pick may p n s = some (x, t)) : Q x t := by
  induction p generalizing n s with
  | ret a =>
    cases h
    exact hp t (S.rely_refl t)
  | fail e =>
    cases h
    exact hp t (S.rely_refl t)
  | call c k ih =>
    rw [walk] at h
    split at h
    · rename_i hmay
      exact ih _ (hp s (S.rely_refl s) _ _ (hdoes n c s hmay)).2 h
    · cases h

end Meets

end RelyGuarantee

end StatementPrograms
