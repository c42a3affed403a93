import Mathlib.Order.Lattice
import Mathlib.Data.List.Basic

/-!
# The first smallest score

A loop over a list that keeps the position of the smallest score seen so far.
An entry without a score is passed over, and a tie keeps the earlier position.
-/

namespace LeftmostMin

variable {α β : Type} [LinearOrder β]

/-- From position `i` on, with `best` the position and score to beat. -/
def scan (score : α → Option β) : List α → ℕ → ℕ × β → ℕ × β
  | [], _, best => best
  | x :: xs, i, best =>
    match score x with
    | none => scan score xs (i + 1) best
    | some v => scan score xs (i + 1) (if v < best.2 then (i, v) else best)

/-- `v` is the score at position `k`, no score is smaller and every earlier
one is larger. -/
structure IsFirst (score : α → Option β) (xs : List α) (k : ℕ) (v : β) : Prop where
  value : ∃ x, xs[k]? = some x ∧ score x = some v
  least : ∀ (j : ℕ) x w, xs[j]? = some x → score x = some w → v ≤ w
  earlier : ∀ j, j < k → ∀ x w, xs[j]? = some x → score x = some w → v < w

section

variable {score : α → Option β} {xs : List α}

theorem IsFirst.unique {k k' : ℕ} {v v' : β} (h : IsFirst score xs k v)
    (h' : IsFirst score xs k' v') : k = k' := by
  obtain ⟨x, hx, hv⟩ := h.value
  obtain ⟨x', hx', hv'⟩ := h'.value
  rcases Nat.lt_trichotomy k k' with hlt | heq | hlt
  · exact absurd (h.least k' x' v' hx' hv') (not_le.mpr (h'.earlier k hlt x v hx hv))
  · exact heq
  · exact absurd (h'.least k x v hx hv) (not_le.mpr (h.earlier k' hlt x' v' hx' hv'))

/-- Passing over one entry moves every position by one. -/
theorem IsFirst.cons {x : α} {k : ℕ} {v : β} (h : IsFirst score xs k v)
    (hx : ∀ w, score x = some w → v < w) : IsFirst score (x :: xs) (k + 1) v := by
  refine ⟨h.value, ?_, ?_⟩
  · intro j y w hj hy
    cases j with
    | zero =>
      obtain rfl : x = y := by simpa using hj
      exact (hx w hy).le
    | succ j => exact h.least j y w hj hy
  · intro j hjk y w hj hy
    cases j with
    | zero =>
      obtain rfl : x = y := by simpa using hj
      exact hx w hy
    | succ j => exact h.earlier j (by omega) y w hj hy

/-- The first smallest score of a list whose head is not beaten later. -/
theorem IsFirst.head {x : α} {v : β} (hx : score x = some v)
    (h : ∀ y ∈ xs, ∀ w, score y = some w → v ≤ w) : IsFirst score (x :: xs) 0 v := by
  refine ⟨⟨x, rfl, hx⟩, ?_, ?_⟩
  · intro j y w hj hy
    cases j with
    | zero =>
      obtain rfl : x = y := by simpa using hj
      exact (Option.some.inj (hx.symm.trans hy)).le
    | succ j => exact h y (List.mem_of_getElem? hj) w hy
  · intro j hj
    omega

/-- Either nothing beats the start, which is kept, or the first smallest
score is found. -/
theorem scan_spec (score : α → Option β) (xs : List α) (i : ℕ) (best : ℕ × β) :
    (scan score xs i best = best ∧ ∀ x ∈ xs, ∀ v, score x = some v → best.2 ≤ v) ∨
      ∃ k v, scan score xs i best = (i + k, v) ∧ v < best.2 ∧ IsFirst score xs k v := by
  induction xs generalizing i best with
  | nil => exact .inl ⟨rfl, fun x hx => by cases hx⟩
  | cons x xs ih =>
    -- the entry at hand, then the rest from the position after it
    cases hx : score x with
    | none =>
      have hstep : scan score (x :: xs) i best = scan score xs (i + 1) best := by
        simp only [scan, hx]
      rcases ih (i + 1) best with ⟨hkeep, hall⟩ | ⟨k, v, hfound, hlt, hfirst⟩
      · refine .inl ⟨hstep.trans hkeep, ?_⟩
        intro y hy v hv
        rcases List.mem_cons.mp hy with rfl | hmem
        · rw [hx] at hv
          cases hv
        · exact hall y hmem v hv
      · refine .inr ⟨k + 1, v, ?_, hlt, hfirst.cons fun w hw => by rw [hx] at hw; cases hw⟩
        rw [hstep, hfound]
        congr 1
        omega
    | some u =>
      by_cases hu : u < best.2
      · have hstep : scan score (x :: xs) i best = scan score xs (i + 1) (i, u) := by
          simp only [scan, hx, if_pos hu]
        rcases ih (i + 1) (i, u) with ⟨hkeep, hall⟩ | ⟨k, v, hfound, hlt, hfirst⟩
        · exact .inr ⟨0, u, hstep.trans hkeep, hu, .head hx hall⟩
        · refine .inr ⟨k + 1, v, ?_, hlt.trans hu, hfirst.cons fun w hw => ?_⟩
          · rw [hstep, hfound]
            congr 1
            omega
          · rw [hx] at hw
            cases hw
            exact hlt
      · have hstep : scan score (x :: xs) i best = scan score xs (i + 1) best := by
          simp only [scan, hx, if_neg hu]
        rcases ih (i + 1) best with ⟨hkeep, hall⟩ | ⟨k, v, hfound, hlt, hfirst⟩
        · refine .inl ⟨hstep.trans hkeep, ?_⟩
          intro y hy v hv
          rcases List.mem_cons.mp hy with rfl | hmem
          · rw [hx] at hv
            cases hv
            exact not_lt.mp hu
          · exact hall y hmem v hv
        · refine .inr ⟨k + 1, v, ?_, hlt, hfirst.cons fun w hw => ?_⟩
          · rw [hstep, hfound]
            congr 1
            omega
          · rw [hx] at hw
            cases hw
            exact hlt.trans_le (not_lt.mp hu)

/-- A score below the bound: the scan finds the first smallest one. -/
theorem scan_of_lt {best : ℕ × β} {x : α} {w : β} (hmem : x ∈ xs) (hx : score x = some w)
    (hw : w < best.2) :
    ∃ k v, scan score xs 0 best = (k, v) ∧ v < best.2 ∧ IsFirst score xs k v := by
  rcases scan_spec score xs 0 best with ⟨_, hall⟩ | ⟨k, v, hfound, hlt, hfirst⟩
  · exact absurd (hall x hmem w hx) (not_le.mpr hw)
  · exact ⟨k, v, by simpa using hfound, hlt, hfirst⟩

/-- No score below the bound: the scan keeps its start. -/
theorem scan_of_le {best : ℕ × β} {i : ℕ}
    (h : ∀ x ∈ xs, ∀ v, score x = some v → best.2 ≤ v) : scan score xs i best = best := by
  rcases scan_spec score xs i best with ⟨hkeep, _⟩ | ⟨k, v, _, hlt, hfirst⟩
  · exact hkeep
  · obtain ⟨x, hx, hv⟩ := hfirst.value
    exact absurd (h x (List.mem_of_getElem? hx) v hv) (not_le.mpr hlt)

/-- What the entries after `x` have to beat: its score, or the bound. -/
def toBeat (score : α → Option β) (x : α) (bound : β) : β :=
  match score x with
  | none => bound
  | some v => min v bound

/-- The scan stops at the head exactly if nothing behind it beats the head. -/
theorem scan_eq_zero_iff {x : α} {bound : β} :
    (scan score (x :: xs) 0 (0, bound)).1 = 0 ↔
      ∀ y ∈ xs, ∀ v, score y = some v → toBeat score x bound ≤ v := by
  have hstep : scan score (x :: xs) 0 (0, bound) = scan score xs 1 (0, toBeat score x bound) := by
    cases hx : score x with
    | none => simp only [scan, toBeat, hx]
    | some u =>
      by_cases hu : u < bound
      · simp only [scan, toBeat, hx, if_pos hu, min_eq_left hu.le]
      · simp only [scan, toBeat, hx, if_neg hu, min_eq_right (not_lt.mp hu)]
  rw [hstep]
  constructor
  · intro hzero
    rcases scan_spec score xs 1 (0, toBeat score x bound) with ⟨-, hall⟩ | ⟨k, v, hfound, -, -⟩
    · exact hall
    · rw [hfound] at hzero
      simp only at hzero
      omega
  · intro hall
    rw [scan_of_le hall]

end

end LeftmostMin
