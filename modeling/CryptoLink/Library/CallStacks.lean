import Mathlib.Data.List.Basic

/-!
# Calls that can be undone

Every call keeps the world it was made in, and a call that fails puts that world
back. Whoever waits for it goes on in a world that has only grown since its own
call, or in one it has seen before.
-/

namespace CallStacks

variable {F W : Type}

structure Frame (F W : Type) where
  code : F
  saved : W

/-- An invariant of worlds, what running code needs of the world, and how a
world may change while a call is open. -/
structure Discipline (F W : Type) where
  holds : W → Prop
  fit : W → F → Prop
  grows : W → W → Prop
  grows_refl : ∀ w, grows w w
  grows_trans : ∀ {u v w}, grows u v → grows v w → grows u w
  fit_of_grows : ∀ {v w code}, grows v w → holds v → fit v code → fit w code

/-- The world is sound under the calls open in it. -/
def Sound (D : Discipline F W) : W → List (Frame F W) → Prop
  | w, [] => D.holds w
  | w, f :: rest => D.holds w ∧ D.fit w f.code ∧ D.grows f.saved w ∧ Sound D f.saved rest

namespace Sound

variable {D : Discipline F W} {w w' : W} {f : Frame F W} {rest : List (Frame F W)}

theorem holds {stack : List (Frame F W)} (h : Sound D w stack) : D.holds w := by
  cases stack with
  | nil => exact h
  | cons f rest => exact h.1

theorem fit (h : Sound D w (f :: rest)) : D.fit w f.code := h.2.1

theorem push {stack : List (Frame F W)} (h : Sound D w stack) {code : F} (hgrows : D.grows w w')
    (hholds : D.holds w') (hfit : D.fit w' code) : Sound D w' (⟨code, w⟩ :: stack) :=
  ⟨hholds, hfit, hgrows, h⟩

/-- The running code changes, and the world with it. -/
theorem replace (h : Sound D w (f :: rest)) {code : F} (hgrows : D.grows f.saved w')
    (hholds : D.holds w') (hfit : D.fit w' code) : Sound D w' (⟨code, f.saved⟩ :: rest) :=
  ⟨hholds, hfit, hgrows, h.2.2.2⟩

/-- A call that succeeds leaves its world to its caller. -/
theorem commit (h : Sound D w (f :: rest)) (hgrows : D.grows f.saved w') (hholds : D.holds w') :
    Sound D w' rest := by
  obtain ⟨-, -, -, hrest⟩ := h
  cases rest with
  | nil => exact hholds
  | cons g rest =>
    obtain ⟨hsaved, hfit, hgrows', hbelow⟩ := hrest
    exact ⟨hholds, D.fit_of_grows hgrows hsaved hfit, D.grows_trans hgrows' hgrows, hbelow⟩

/-- A call that fails puts its world back. -/
theorem revert (h : Sound D w (f :: rest)) : Sound D f.saved rest := h.2.2.2

/-- Whoever runs can be told something that does not matter to it. -/
theorem retell (h : Sound D w (f :: rest)) {code : F} (hfit : D.fit w f.code → D.fit w code) :
    Sound D w (⟨code, f.saved⟩ :: rest) :=
  ⟨h.1, hfit h.2.1, h.2.2.1, h.2.2.2⟩

/-- The world grows under the running code. -/
theorem grow {stack : List (Frame F W)} (h : Sound D w stack) (hgrows : D.grows w w')
    (hholds : D.holds w') : Sound D w' stack := by
  cases stack with
  | nil => exact hholds
  | cons f rest =>
    obtain ⟨hw, hfit, hgrows', hbelow⟩ := h
    exact ⟨hholds, D.fit_of_grows hgrows hw hfit, D.grows_trans hgrows' hgrows, hbelow⟩

end Sound

end CallStacks
