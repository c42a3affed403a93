import CryptoLink.Library.RankedListings
import Mathlib.Data.Prod.Lex
import Mathlib.Order.Lex

/-!
# One row of each group

A listing that is cut down to the first row of each group, and rows looked up
by a key. In a listing by group and then by rank the row kept is the one of the
highest rank.
-/

namespace RankedListings

variable {α β κ ι : Type}

/-- The first row of each group that was not seen before. -/
def firstOfEach [DecidableEq κ] (group : α → κ) : List κ → List α → List α
  | _, [] => []
  | seen, x :: xs =>
    if group x ∈ seen then firstOfEach group seen xs
    else x :: firstOfEach group (group x :: seen) xs

/-- `select distinct on (group) … order by group desc, rank desc`. -/
def distinctOn [LinearOrder κ] [LinearOrder ι] (group : α → κ) (rank : α → ι) (xs : List α) :
    List α :=
  firstOfEach group [] (ranked (fun x => toLex (group x, rank x)) xs)

/-- The row under a key, the last one where several have it. -/
def keyed [DecidableEq κ] (key : α → κ) (xs : List α) (k : κ) : Option α :=
  xs.reverse.find? fun x => key x = k

theorem mem_of_mem_firstOfEach [DecidableEq κ] {group : α → κ} {seen : List κ} {xs : List α}
    {x : α} (h : x ∈ firstOfEach group seen xs) : x ∈ xs ∧ group x ∉ seen := by
  induction xs generalizing seen with
  | nil => cases h
  | cons y ys ih =>
    rw [firstOfEach] at h
    split at h
    · obtain ⟨hmem, hnew⟩ := ih h
      exact ⟨List.mem_cons_of_mem y hmem, hnew⟩
    · rename_i hfirst
      rcases List.mem_cons.mp h with rfl | hrest
      · exact ⟨List.mem_cons_self, hfirst⟩
      · obtain ⟨hmem, hnew⟩ := ih hrest
        exact ⟨List.mem_cons_of_mem y hmem, fun hseen => hnew (List.mem_cons_of_mem _ hseen)⟩

/-- Of a group only its first row is kept. -/
theorem exists_firstOfEach [DecidableEq κ] {group : α → κ} {seen : List κ} {xs : List α} {x : α}
    (hx : x ∈ xs) (hnew : group x ∉ seen) :
    ∃ y ∈ firstOfEach group seen xs, group y = group x := by
  induction xs generalizing seen with
  | nil => cases hx
  | cons y ys ih =>
    rw [firstOfEach]
    split
    · rename_i hseen
      rcases List.mem_cons.mp hx with rfl | hrest
      · exact absurd hseen hnew
      · exact ih hrest hnew
    · by_cases hsame : group x = group y
      · exact ⟨y, List.mem_cons_self, hsame.symm⟩
      · rcases List.mem_cons.mp hx with rfl | hrest
        · exact absurd rfl hsame
        · have hfresh : group x ∉ group y :: seen := by simp [hsame, hnew]
          obtain ⟨z, hz, hgroup⟩ := ih hrest hfresh
          exact ⟨z, List.mem_cons_of_mem y hz, hgroup⟩

/-- No later row of the listing is a better one of the group. -/
theorem first_of_firstOfEach [DecidableEq κ] {group : α → κ} {seen : List κ} {xs : List α}
    {r : α → α → Prop} (hr : ∀ a, r a a) (hxs : xs.Pairwise r) {x y : α}
    (hx : x ∈ firstOfEach group seen xs) (hy : y ∈ xs) (hsame : group y = group x) : r x y := by
  induction xs generalizing seen with
  | nil => cases hx
  | cons z zs ih =>
    obtain ⟨hhead, htail⟩ := List.pairwise_cons.mp hxs
    rw [firstOfEach] at hx
    split at hx
    · rename_i hseen
      rcases List.mem_cons.mp hy with rfl | hrest
      · -- the group of `x` was not seen
        have hnew := (mem_of_mem_firstOfEach hx).2
        rw [← hsame] at hnew
        exact absurd hseen hnew
      · exact ih htail hx hrest
    · rcases List.mem_cons.mp hx with rfl | hlater
      · rcases List.mem_cons.mp hy with rfl | hrest
        · exact hr y
        · exact hhead y hrest
      · rcases List.mem_cons.mp hy with rfl | hrest
        · have hnew := (mem_of_mem_firstOfEach hlater).2
          rw [← hsame] at hnew
          exact absurd List.mem_cons_self hnew
        · exact ih htail hlater hrest

section

variable [LinearOrder κ] [LinearOrder ι] {group : α → κ} {rank : α → ι} {xs : List α}

theorem mem_of_mem_distinctOn {x : α} (h : x ∈ distinctOn group rank xs) : x ∈ xs :=
  mem_ranked.mp (mem_of_mem_firstOfEach h).1

theorem exists_distinctOn {x : α} (h : x ∈ xs) : ∃ y ∈ distinctOn group rank xs,
    group y = group x :=
  exists_firstOfEach (mem_ranked.mpr h) List.not_mem_nil

/-- The row kept of a group has the highest rank of it. -/
theorem rank_le_of_distinctOn {x y : α} (hx : x ∈ distinctOn group rank xs) (hy : y ∈ xs)
    (hsame : group y = group x) : rank y ≤ rank x := by
  have hbest : toLex (group y, rank y) ≤ toLex (group x, rank x) :=
    first_of_firstOfEach (r := fun a b => toLex (group b, rank b) ≤ toLex (group a, rank a))
      (fun _ => le_rfl) (pairwise_ranked _ xs) hx (mem_ranked.mpr hy) hsame
  rcases Prod.Lex.toLex_le_toLex.mp hbest with hless | ⟨-, hle⟩
  · exact absurd hsame hless.ne
  · exact hle

end

theorem keyed_eq_some [DecidableEq κ] {key : α → κ} {xs : List α} {k : κ} {x : α}
    (h : keyed key xs k = some x) : x ∈ xs ∧ key x = k :=
  ⟨List.mem_reverse.mp (List.mem_of_find?_eq_some h), by simpa using List.find?_some h⟩

theorem keyed_eq_none [DecidableEq κ] {key : α → κ} {xs : List α} {k : κ}
    (h : keyed key xs k = none) : ∀ x ∈ xs, key x ≠ k := by
  intro x hx hkey
  have hnot := List.find?_eq_none.mp h x (List.mem_reverse.mpr hx)
  exact hnot (by simpa using hkey)

end RankedListings
