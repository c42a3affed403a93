import Mathlib.Data.List.Basic

/-!
# Sums over the places of a list

Each place of a list contributes what its index and its element are worth. A
place that is replaced changes the sum by the difference, even if what its index
is worth changes with it.
-/

namespace Tallies

variable {α : Type}

/-- The worth of the list, its first place being number `n`. -/
def tallyFrom (g : ℕ → α → Int) : ℕ → List α → Int
  | _, [] => 0
  | n, x :: xs => g n x + tallyFrom g (n + 1) xs

def tally (g : ℕ → α → Int) (xs : List α) : Int := tallyFrom g 0 xs

theorem tallyFrom_append (g : ℕ → α → Int) (n : ℕ) (xs : List α) (x : α) :
    tallyFrom g n (xs ++ [x]) = tallyFrom g n xs + g (n + xs.length) x := by
  induction xs generalizing n with
  | nil => simp [tallyFrom]
  | cons y ys ih =>
    have hlength : n + 1 + ys.length = n + (y :: ys).length := by
      rw [List.length_cons]
      omega
    rw [List.cons_append, tallyFrom, tallyFrom, ih, hlength]
    omega

theorem tallyFrom_congr {g g' : ℕ → α → Int} {n : ℕ} (h : ∀ i, n ≤ i → ∀ x, g' i x = g i x)
    (xs : List α) : tallyFrom g' n xs = tallyFrom g n xs := by
  induction xs generalizing n with
  | nil => rfl
  | cons y ys ih =>
    rw [tallyFrom, tallyFrom, h n (Nat.le_refl n), ih fun i hi x => h i (by omega) x]

theorem tallyFrom_set {g g' : ℕ → α → Int} (n i : ℕ) {xs : List α} {x : α} (h : xs[i]? = some x)
    (hg : ∀ j, j ≠ n + i → ∀ z, g' j z = g j z) (y : α) :
    tallyFrom g' n (xs.set i y) = tallyFrom g n xs + (g' (n + i) y - g (n + i) x) := by
  induction xs generalizing n i with
  | nil => cases h
  | cons z zs ih =>
    cases i with
    | zero =>
      cases h
      have hrest : tallyFrom g' (n + 1) zs = tallyFrom g (n + 1) zs :=
        tallyFrom_congr (fun j hj w => hg j (by omega) w) zs
      simp only [List.set_cons_zero, tallyFrom, Nat.add_zero, hrest]
      omega
    | succ i =>
      have hindex : n + 1 + i = n + (i + 1) := by omega
      have hhead : g' n z = g n z := hg n (by omega) z
      have htail := ih (n + 1) i h fun j hj w => hg j (by omega) w
      rw [List.set_cons_succ, tallyFrom, tallyFrom, hhead, htail, hindex]
      omega

theorem tally_append (g : ℕ → α → Int) (xs : List α) (x : α) :
    tally g (xs ++ [x]) = tally g xs + g xs.length x := by
  rw [tally, tallyFrom_append, Nat.zero_add, tally]

theorem tally_set {g g' : ℕ → α → Int} {i : ℕ} {xs : List α} {x : α} (h : xs[i]? = some x)
    (hg : ∀ j, j ≠ i → ∀ z, g' j z = g j z) (y : α) :
    tally g' (xs.set i y) = tally g xs + (g' i y - g i x) := by
  have hset := tallyFrom_set 0 i h (fun j hj z => hg j (by omega) z) y
  rw [Nat.zero_add] at hset
  exact hset

end Tallies
