import Mathlib.Data.List.Sort

/-!
# Listings by rank

A listing orders its rows by a key, largest first, and shows the first few of
them. Keys differ, so a row is shown exactly if few enough rows rank above it.
-/

namespace RankedListings

variable {α κ : Type} [LinearOrder κ] {key : α → κ} {xs : List α}

/-- Largest key first. -/
def ranked (key : α → κ) (xs : List α) : List α :=
  xs.insertionSort fun a b => key b ≤ key a

/-- The rows that rank above `x`. -/
def above (key : α → κ) (x : α) (xs : List α) : ℕ :=
  xs.countP fun y => key x < key y

theorem ranked_perm (key : α → κ) (xs : List α) : (ranked key xs).Perm xs :=
  List.perm_insertionSort _ xs

theorem mem_ranked {x : α} : x ∈ ranked key xs ↔ x ∈ xs :=
  (ranked_perm key xs).mem_iff

theorem pairwise_ranked (key : α → κ) (xs : List α) :
    (ranked key xs).Pairwise fun a b => key b ≤ key a := by
  have htotal : Std.Total fun a b : α => key b ≤ key a := ⟨fun a b => le_total _ _⟩
  have htrans : IsTrans α fun a b : α => key b ≤ key a := ⟨fun a b c hab hbc => hbc.trans hab⟩
  exact List.pairwise_insertionSort _ xs

theorem nodup_ranked (h : (xs.map key).Nodup) : ((ranked key xs).map key).Nodup :=
  ((ranked_perm key xs).map key).nodup_iff.mpr h

/-- Different keys never tie. -/
theorem strict_ranked (h : (xs.map key).Nodup) :
    (ranked key xs).Pairwise fun a b => key b < key a := by
  have hne : (ranked key xs).Pairwise fun a b => key a ≠ key b :=
    List.pairwise_map.mp (nodup_ranked h)
  have hboth := (pairwise_ranked key xs).and hne
  refine hboth.imp ?_
  rintro a b ⟨hle, hab⟩
  exact lt_of_le_of_ne hle fun he => hab he.symm

theorem above_ranked (key : α → κ) (x : α) (xs : List α) :
    above key x (ranked key xs) = above key x xs :=
  (ranked_perm key xs).countP_eq _

theorem mem_take_of_strict {n : ℕ} {x : α} (h : xs.Pairwise fun a b => key b < key a) :
    x ∈ xs.take n ↔ x ∈ xs ∧ above key x xs < n := by
  induction xs generalizing n with
  | nil => simp
  | cons a rest ih =>
    obtain ⟨ha, hrest⟩ := List.pairwise_cons.mp h
    cases n with
    | zero => simp
    | succ n =>
      simp only [List.take_succ_cons, List.mem_cons, ih hrest]
      -- nothing ranks above the head, and the head ranks above the rest
      by_cases hx : x = a
      · subst hx
        have hnone : above key x rest = 0 := by
          refine List.countP_eq_zero.mpr fun y hy => ?_
          simpa using (ha y hy).le
        have hself : above key x (x :: rest) = 0 := by
          simpa [above] using hnone
        constructor
        · intro _
          exact ⟨.inl rfl, by omega⟩
        · intro _
          exact .inl rfl
      · constructor
        · rintro (rfl | ⟨hmem, hlt⟩)
          · exact absurd rfl hx
          · have hcount : above key x (a :: rest) = above key x rest + 1 := by
              simp [above, ha x hmem]
            exact ⟨.inr hmem, by omega⟩
        · rintro ⟨rfl | hmem, hlt⟩
          · exact absurd rfl hx
          · have hcount : above key x (a :: rest) = above key x rest + 1 := by
              simp [above, ha x hmem]
            exact .inr ⟨hmem, by omega⟩

/-- The first `n` rows of a listing are those with fewer than `n` above them. -/
theorem mem_take_ranked {n : ℕ} {x : α} (h : (xs.map key).Nodup) :
    x ∈ (ranked key xs).take n ↔ x ∈ xs ∧ above key x xs < n := by
  rw [mem_take_of_strict (strict_ranked h), mem_ranked, above_ranked]

/-- Selecting rows and ranking them is ranking and then selecting. -/
theorem ranked_filter (p : α → Bool) (h : (xs.map key).Nodup) :
    ranked key (xs.filter p) = (ranked key xs).filter p := by
  have hperm : (ranked key (xs.filter p)).Perm ((ranked key xs).filter p) :=
    (ranked_perm key _).trans ((ranked_perm key xs).filter p).symm
  have hsub : ((xs.filter p).map key).Nodup := h.sublist (List.filter_sublist.map key)
  have hleft := strict_ranked hsub
  have hright := (strict_ranked h).filter p
  refine List.Perm.eq_of_pairwise ?_ hleft hright hperm
  intro a b _ _ hab hba
  exact absurd hab (lt_asymm hba)

theorem above_filter_le (p : α → Bool) (x : α) : above key x (xs.filter p) ≤ above key x xs :=
  List.filter_sublist.countP_le

/-- Rows that rank above a shown row are fewer than those above a row left
out. -/
theorem key_lt_of_above_lt {x y : α} (h : above key x xs < above key y xs) : key y < key x := by
  by_contra hnot
  have hle : key x ≤ key y := not_lt.mp hnot
  have hmono : above key y xs ≤ above key x xs := by
    refine List.countP_mono_left fun z _ hz => ?_
    have hlt : key y < key z := by simpa using hz
    simpa using lt_of_le_of_lt hle hlt
  omega

/-- A listing shows nothing but rows in `p` exactly if every other row has a
full listing of them above it. -/
theorem forall_mem_take_ranked {n : ℕ} {p : α → Bool} (h : (xs.map key).Nodup) :
    (∀ x ∈ (ranked key xs).take n, p x = true) ↔
      ∀ x ∈ xs, p x = false → n ≤ above key x (xs.filter p) := by
  constructor
  · intro hall x hx hp
    have hleft : ¬ above key x xs < n := by
      intro hlt
      have hshown := hall x ((mem_take_ranked h).mpr ⟨hx, hlt⟩)
      rw [hp] at hshown
      cases hshown
    -- the rows shown are all in `p`, and all of them rank above `x`
    have habove : ∀ y ∈ (ranked key xs).take n, (p y && decide (key x < key y)) = true := by
      intro y hy
      obtain ⟨-, hlt⟩ := (mem_take_ranked h).mp hy
      have hcount : above key y xs < above key x xs := by omega
      have hkey := key_lt_of_above_lt hcount
      simp [hall y hy, hkey]
    have hlength : ((ranked key xs).take n).length = n := by
      have hle : above key x xs ≤ xs.length := List.countP_le_length
      have hsame := (ranked_perm key xs).length_eq
      rw [List.length_take]
      omega
    calc n = ((ranked key xs).take n).countP fun y => p y && decide (key x < key y) := by
          rw [List.countP_eq_length.mpr habove, hlength]
      _ ≤ (ranked key xs).countP fun y => p y && decide (key x < key y) :=
          (List.take_sublist n _).countP_le
      _ = xs.countP fun y => p y && decide (key x < key y) := (ranked_perm key xs).countP_eq _
      _ = above key x (xs.filter p) := by
          rw [above, List.countP_filter]
          refine List.countP_congr fun y _ => ?_
          rw [Bool.and_comm]
  · intro hall x hx
    obtain ⟨hmem, hlt⟩ := (mem_take_ranked h).mp hx
    by_contra hp
    have hfull := hall x hmem (by simpa using hp)
    have hle : above key x (xs.filter p) ≤ above key x xs := above_filter_le p x
    omega

/-- In ascending order whatever has few enough rows up to its own key is among the first;
keys may tie. -/
theorem mem_take_of_few {n : ℕ} {x : α} (h : xs.Pairwise fun a b => key a ≤ key b) (hx : x ∈ xs)
    (hfew : (xs.countP fun y => key y ≤ key x) ≤ n) : x ∈ xs.take n := by
  induction xs generalizing n with
  | nil => cases hx
  | cons a rest ih =>
    obtain ⟨ha, hrest⟩ := List.pairwise_cons.mp h
    have hle : key a ≤ key x := by
      rcases List.mem_cons.mp hx with rfl | hmem
      · exact le_rfl
      · exact ha x hmem
    have hcount : ((a :: rest).countP fun y => key y ≤ key x) =
        (rest.countP fun y => key y ≤ key x) + 1 := by
      simp [hle]
    obtain ⟨m, rfl⟩ : ∃ m, n = m + 1 := ⟨n - 1, by omega⟩
    rw [List.take_succ_cons]
    rcases List.mem_cons.mp hx with rfl | hmem
    · exact List.mem_cons_self
    · exact List.mem_cons_of_mem a (ih hrest hmem (by omega))

theorem mem_take_reverse_ranked {n : ℕ} {x : α} (hx : x ∈ xs)
    (hfew : (xs.countP fun y => key y ≤ key x) ≤ n) : x ∈ (ranked key xs).reverse.take n := by
  have hperm : ((ranked key xs).reverse).Perm xs :=
    (List.reverse_perm _).trans (ranked_perm key xs)
  have hascending : (ranked key xs).reverse.Pairwise fun a b => key a ≤ key b :=
    List.pairwise_reverse.mpr (pairwise_ranked key xs)
  refine mem_take_of_few hascending (hperm.mem_iff.mpr hx) ?_
  rw [hperm.countP_eq]
  exact hfew

end RankedListings
