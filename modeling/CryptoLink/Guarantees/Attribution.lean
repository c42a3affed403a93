import CryptoLink.Processing.CrossCurrency
import Mathlib.Data.List.Perm.Basic
import Mathlib.Tactic.Linarith

/-!
# The invoice a payment in another currency goes to

One open invoice must be closer to the received value than every other by the
ambiguity margin. The order in which the invoices were listed plays no part.
-/

namespace CryptoLink

/-- How far the price at a position is from the received value. -/
def away (d : ℚ) (expected : List ℚ) (i : ℕ) : ℚ :=
  |d - expected.getD i 0|

/-- Every other invoice is further from the received value than invoice `i`,
by the margin at least. -/
def ClearlyClosest (d : ℚ) (expected : List ℚ) (i : ℕ) : Prop :=
  i < expected.length ∧ ∀ j, j < expected.length → j ≠ i →
    away d expected i + max 1 (2 / 100 * d) ≤ away d expected j

/-- The expected price of the invoice chosen. -/
def chosenPrice (d : ℚ) (expected : List ℚ) : Option ℚ :=
  (chooseCrossCurrencyInvoice d expected).map fun i => expected.getD i 0

theorem crossCurrencyAmbiguityMargin_eq (d : ℚ) :
    crossCurrencyAmbiguityMargin d = max 1 (2 / 100 * d) := by
  by_cases h : 1 < 2 / 100 * d
  · rw [crossCurrencyAmbiguityMargin, if_pos h, max_eq_right h.le]
  · rw [crossCurrencyAmbiguityMargin, if_neg h, max_eq_left (not_lt.mp h)]

theorem margin_pos (d : ℚ) : 0 < max 1 (2 / 100 * d) :=
  lt_of_lt_of_le one_pos (le_max_left _ _)

/-- `b` is as close as the start and as every position passed, those left out
apart. -/
structure Closest (d : ℚ) (expected : List ℚ) (skip start : Option ℕ) (seen : List (ℚ × ℕ))
    (b : ℕ) : Prop where
  source : start = some b ∨ some b ≠ skip ∧ ∃ v, (v, b) ∈ seen
  start_le : ∀ c, start = some c → away d expected b ≤ away d expected c
  seen_le : ∀ p ∈ seen, some p.2 ≠ skip → away d expected b ≤ away d expected p.2

/-- One round of the loop. -/
def closerOf (d : ℚ) (expected : List ℚ) (skip : Option ℕ) (best : Option ℕ) (p : ℚ × ℕ) :
    Option ℕ :=
  if some p.2 = skip then best
  else match best with
    | none => some p.2
    | some b => if |d - p.1| < |d - expected.getD b 0| then some p.2 else some b

section

variable {d : ℚ} {expected : List ℚ} {skip : Option ℕ}

theorem closest_eq_foldl :
    closest d expected skip = expected.zipIdx.foldl (closerOf d expected skip) none := rfl

/-- What one round keeps is as close as what it had and as what it looked at. -/
theorem closerOf_spec (d : ℚ) (skip start : Option ℕ) (p : ℚ × ℕ) (hp : expected.getD p.2 0 = p.1) :
    (closerOf d expected skip start p = none ∧ start = none ∧ some p.2 = skip) ∨
      ∃ b, closerOf d expected skip start p = some b ∧ Closest d expected skip start [p] b := by
  have haway : away d expected p.2 = |d - p.1| := by rw [away, hp]
  by_cases hskip : some p.2 = skip
  · have hkeep : closerOf d expected skip start p = start := by
      simp only [closerOf, if_pos hskip]
    cases start with
    | none => exact Or.inl ⟨hkeep, rfl, hskip⟩
    | some c =>
      refine Or.inr ⟨c, hkeep, Or.inl rfl, ?_, ?_⟩
      · intro c' hc'
        cases hc'
        exact le_refl _
      · intro q hq hne
        obtain rfl := List.mem_singleton.mp hq
        exact absurd hskip hne
  · apply Or.inr
    cases start with
    | none =>
      refine ⟨p.2, by simp only [closerOf, if_neg hskip], Or.inr ⟨hskip, p.1, ?_⟩, ?_, ?_⟩
      · exact List.mem_singleton.mpr rfl
      · intro c hc
        cases hc
      · intro q hq _
        obtain rfl := List.mem_singleton.mp hq
        exact le_refl _
    | some c =>
      by_cases hcloser : |d - p.1| < |d - expected.getD c 0|
      · refine ⟨p.2, by simp only [closerOf, if_neg hskip, if_pos hcloser],
          Or.inr ⟨hskip, p.1, List.mem_singleton.mpr rfl⟩, ?_, ?_⟩
        · intro c' hc'
          cases hc'
          rw [haway]
          exact hcloser.le
        · intro q hq _
          obtain rfl := List.mem_singleton.mp hq
          exact le_refl _
      · refine ⟨c, by simp only [closerOf, if_neg hskip, if_neg hcloser], Or.inl rfl, ?_, ?_⟩
        · intro c' hc'
          cases hc'
          exact le_refl _
        · intro q hq _
          obtain rfl := List.mem_singleton.mp hq
          rw [haway]
          exact not_lt.mp hcloser

theorem Closest.cons {start : Option ℕ} {p : ℚ × ℕ} {ps : List (ℚ × ℕ)} {b c : ℕ}
    (hfirst : Closest d expected skip start [p] b)
    (hrest : Closest d expected skip (some b) ps c) :
      Closest d expected skip start (p :: ps) c := by
  have hcb : away d expected c ≤ away d expected b := hrest.start_le b rfl
  constructor
  · rcases hrest.source with hsame | ⟨hskip, v, hv⟩
    · cases hsame
      rcases hfirst.source with hstart | ⟨hskip, v, hv⟩
      · exact Or.inl hstart
      · exact Or.inr ⟨hskip, v, List.mem_cons.mpr (Or.inl (List.mem_singleton.mp hv))⟩
    · exact Or.inr ⟨hskip, v, List.mem_cons_of_mem _ hv⟩
  · intro c' hc'
    exact hcb.trans (hfirst.start_le c' hc')
  · intro q hq hne
    rcases List.mem_cons.mp hq with rfl | hmem
    · exact hcb.trans (hfirst.seen_le q (List.mem_singleton.mpr rfl) hne)
    · exact hrest.seen_le q hmem hne

/-- A round that had nothing and passed its position over changes nothing. -/
theorem Closest.skipped {p : ℚ × ℕ} {ps : List (ℚ × ℕ)} {c : ℕ} (hp : some p.2 = skip)
    (hrest : Closest d expected skip none ps c) :
    Closest d expected skip none (p :: ps) c := by
  constructor
  · rcases hrest.source with hsame | ⟨hskip, v, hv⟩
    · cases hsame
    · exact Or.inr ⟨hskip, v, List.mem_cons_of_mem _ hv⟩
  · intro c' hc'
    cases hc'
  · intro q hq hne
    rcases List.mem_cons.mp hq with rfl | hmem
    · exact absurd hp hne
    · exact hrest.seen_le q hmem hne

theorem foldl_closerOf (d : ℚ) (skip : Option ℕ) (ps : List (ℚ × ℕ)) (start : Option ℕ)
    (hps : ∀ p ∈ ps, expected.getD p.2 0 = p.1) :
    (ps.foldl (closerOf d expected skip) start = none ∧ start = none ∧
        ∀ p ∈ ps, some p.2 = skip) ∨
      ∃ b, ps.foldl (closerOf d expected skip) start = some b ∧
        Closest d expected skip start ps b := by
  induction ps generalizing start with
  | nil =>
    cases start with
    | none => exact Or.inl ⟨rfl, rfl, fun p hp => by cases hp⟩
    | some c =>
      refine Or.inr ⟨c, rfl, Or.inl rfl, ?_, fun p hp => by cases hp⟩
      intro c' hc'
      cases hc'
      exact le_refl _
  | cons p ps ih =>
    have htail : ∀ q ∈ ps, expected.getD q.2 0 = q.1 :=
      fun q hq => hps q (List.mem_cons_of_mem _ hq)
    have hhead := closerOf_spec d skip start p (hps p (List.mem_cons_self ..))
    rw [List.foldl_cons]
    rcases hhead with ⟨hnone, rfl, hskip⟩ | ⟨b, hb, hfirst⟩
    · rw [hnone]
      rcases ih none htail with ⟨hrest, -, hall⟩ | ⟨c, hc, hrest⟩
      · refine Or.inl ⟨hrest, rfl, ?_⟩
        intro q hq
        rcases List.mem_cons.mp hq with rfl | hmem
        · exact hskip
        · exact hall q hmem
      · exact Or.inr ⟨c, hc, hrest.skipped hskip⟩
    · rw [hb]
      rcases ih (some b) htail with ⟨-, hbad, -⟩ | ⟨c, hc, hrest⟩
      · cases hbad
      · exact Or.inr ⟨c, hc, hfirst.cons hrest⟩

theorem mem_zipIdx_iff_lt {i : ℕ} {v : ℚ} :
    (v, i) ∈ expected.zipIdx ↔ i < expected.length ∧ expected.getD i 0 = v := by
  rw [List.mk_mem_zipIdx_iff_getElem?, List.getD_eq_getElem?_getD]
  constructor
  · intro h
    exact ⟨(List.getElem?_eq_some_iff.mp h).1, by rw [h]; rfl⟩
  · rintro ⟨hlt, rfl⟩
    rw [List.getElem?_eq_getElem hlt]
    rfl

/-- The search fails only if it may look at nothing. -/
theorem closest_eq_none (h : closest d expected skip = none) :
    ∀ j, j < expected.length → some j = skip := by
  intro j hj
  have hmem : (expected.getD j 0, j) ∈ expected.zipIdx := mem_zipIdx_iff_lt.mpr ⟨hj, rfl⟩
  rcases foldl_closerOf d skip expected.zipIdx none
    fun p hp => (mem_zipIdx_iff_lt.mp hp).2 with ⟨-, -, hall⟩ | ⟨b, hb, -⟩
  · exact hall _ hmem
  · rw [closest_eq_foldl, hb] at h
    cases h

/-- The position found is one the search may look at, and none it may look at
is closer. -/
theorem closest_eq_some {b : ℕ} (h : closest d expected skip = some b) :
    b < expected.length ∧ some b ≠ skip ∧
      ∀ j, j < expected.length → some j ≠ skip → away d expected b ≤ away d expected j := by
  rcases foldl_closerOf d skip expected.zipIdx none
    fun p hp => (mem_zipIdx_iff_lt.mp hp).2 with ⟨hnone, -, -⟩ | ⟨c, hc, hclosest⟩
  · rw [closest_eq_foldl, hnone] at h
    cases h
  · rw [closest_eq_foldl, hc] at h
    cases h
    rcases hclosest.source with hbad | ⟨hskip, v, hv⟩
    · cases hbad
    · refine ⟨(mem_zipIdx_iff_lt.mp hv).1, hskip, ?_⟩
      intro j hj hne
      exact hclosest.seen_le (expected.getD j 0, j) (mem_zipIdx_iff_lt.mpr ⟨hj, rfl⟩) hne

theorem chosen_of_second {b c : ℕ} (hbest : closest d expected none = some b)
    (hsecond : closest d expected (some b) = some c) :
    chooseCrossCurrencyInvoice d expected =
      if max 1 (2 / 100 * d) ≤ away d expected c - away d expected b then some b else none := by
  simp only [chooseCrossCurrencyInvoice, hbest, hsecond, crossCurrencyAmbiguityMargin_eq]
  rfl

theorem clearlyClosest_of_chosen {i : ℕ} (h : chooseCrossCurrencyInvoice d expected = some i) :
    ClearlyClosest d expected i := by
  cases hbest : closest d expected none with
  | none => simp only [chooseCrossCurrencyInvoice, hbest, reduceCtorEq] at h
  | some b =>
    obtain ⟨hb, -, hclose⟩ := closest_eq_some hbest
    cases hsecond : closest d expected (some b) with
    | none =>
      simp only [chooseCrossCurrencyInvoice, hbest, hsecond, Option.some.injEq] at h
      subst h
      refine ⟨hb, ?_⟩
      intro j hj hne
      have hsame := closest_eq_none hsecond j hj
      exact absurd (Option.some.inj hsame) hne
    | some s =>
      obtain ⟨-, -, hnext⟩ := closest_eq_some hsecond
      rw [chosen_of_second hbest hsecond] at h
      by_cases hgap : max 1 (2 / 100 * d) ≤ away d expected s - away d expected b
      · rw [if_pos hgap] at h
        cases h
        refine ⟨hb, ?_⟩
        intro j hj hne
        have hle := hnext j hj (by simpa using hne)
        linarith
      · rw [if_neg hgap] at h
        cases h

theorem chosen_of_clearlyClosest {i : ℕ} (h : ClearlyClosest d expected i) :
    chooseCrossCurrencyInvoice d expected = some i := by
  obtain ⟨hi, hothers⟩ := h
  have hmargin := margin_pos d
  cases hbest : closest d expected none with
  | none => cases closest_eq_none hbest i hi
  | some b =>
    obtain ⟨hb, -, hclose⟩ := closest_eq_some hbest
    -- the margin leaves no room for another closest one
    have hsame : b = i := by
      by_contra hne
      have hle := hclose i hi (by simp)
      have hfar := hothers b hb hne
      linarith
    subst hsame
    cases hsecond : closest d expected (some b) with
    | none => simp only [chooseCrossCurrencyInvoice, hbest, hsecond]
    | some s =>
      obtain ⟨hs, hne, -⟩ := closest_eq_some hsecond
      have hfar := hothers s hs (by simpa using hne)
      have hgap : max 1 (2 / 100 * d) ≤ away d expected s - away d expected b := by linarith
      rw [chosen_of_second hbest hsecond, if_pos hgap]

/-- The price `e`, taken out of the list, is closer than all that is left. -/
def Apart (d e : ℚ) (others : List ℚ) : Prop :=
  ∀ v ∈ others, |d - e| + max 1 (2 / 100 * d) ≤ |d - v|

theorem getD_of_lt {i : ℕ} (hi : i < expected.length) : expected.getD i 0 = expected[i] := by
  rw [List.getD_eq_getElem?_getD, List.getElem?_eq_getElem hi, Option.getD_some]

theorem clearlyClosest_iff_apart {i : ℕ} (hi : i < expected.length) :
    ClearlyClosest d expected i ↔ Apart d (expected.getD i 0) (expected.eraseIdx i) := by
  constructor
  · rintro ⟨-, hothers⟩ v hv
    obtain ⟨j, hne, hj⟩ := List.mem_eraseIdx_iff_getElem?.mp hv
    have hlt : j < expected.length := (List.getElem?_eq_some_iff.mp hj).1
    have hfar := hothers j hlt hne
    have hv : expected.getD j 0 = v := by rw [List.getD_eq_getElem?_getD, hj, Option.getD_some]
    rw [away, away, hv] at hfar
    exact hfar
  · intro hapart
    refine ⟨hi, ?_⟩
    intro j hj hne
    apply hapart
    refine List.mem_eraseIdx_iff_getElem?.mpr ⟨j, hne, ?_⟩
    rw [getD_of_lt hj]
    exact List.getElem?_eq_getElem hj

theorem perm_erased {i : ℕ} (hi : i < expected.length) :
    (expected.getD i 0 :: expected.eraseIdx i).Perm expected := by
  rw [getD_of_lt hi]
  exact List.getElem_cons_eraseIdx_perm hi

/-- Which price is chosen, said without positions. -/
theorem chosenPrice_eq_some_iff {e : ℚ} :
    chosenPrice d expected = some e ↔ ∃ others, (e :: others).Perm expected ∧ Apart d e others := by
  constructor
  · intro h
    obtain ⟨i, hi, rfl⟩ := Option.map_eq_some_iff.mp h
    have hclear := clearlyClosest_of_chosen hi
    exact ⟨_, perm_erased hclear.1, (clearlyClosest_iff_apart hclear.1).mp hclear⟩
  · rintro ⟨others, hperm, hapart⟩
    have hmem : e ∈ expected := hperm.mem_iff.mp (List.mem_cons_self ..)
    obtain ⟨i, hi, heq⟩ := List.getElem_of_mem hmem
    have hgetD : expected.getD i 0 = e := by rw [getD_of_lt hi, heq]
    have herased := perm_erased hi
    rw [hgetD] at herased
    have hsame : (expected.eraseIdx i).Perm others := (herased.trans hperm.symm).cons_inv
    have hclear : ClearlyClosest d expected i := by
      rw [clearlyClosest_iff_apart hi, hgetD]
      intro v hv
      exact hapart v (hsame.mem_iff.mp hv)
    rw [chosenPrice, chosen_of_clearlyClosest hclear, Option.map_some, hgetD]

theorem chosenPrice_perm {expected' : List ℚ} (h : expected.Perm expected') :
    chosenPrice d expected = chosenPrice d expected' := by
  apply Option.ext
  intro e
  rw [chosenPrice_eq_some_iff, chosenPrice_eq_some_iff]
  constructor
  · rintro ⟨others, hperm, hapart⟩
    exact ⟨others, hperm.trans h, hapart⟩
  · rintro ⟨others, hperm, hapart⟩
    exact ⟨others, hperm.trans h.symm, hapart⟩

end

/-- An invoice is chosen exactly if it is clearly the closest, and a list in
another order gives the same price or, as well, none. -/
theorem attribution_is_clear_and_orderless (d : ℚ) (expected : List ℚ) :
    (∀ i, chooseCrossCurrencyInvoice d expected = some i ↔ ClearlyClosest d expected i) ∧
      ∀ expected', expected.Perm expected' → chosenPrice d expected = chosenPrice d expected' := by
  constructor
  · intro i
    exact ⟨clearlyClosest_of_chosen, chosen_of_clearlyClosest⟩
  · intro expected' hperm
    exact chosenPrice_perm hperm

theorem attribution_of_three :
    chooseCrossCurrencyInvoice 50 [100, 49, 10] = some 1 ∧
      chosenPrice 50 [100, 49, 10] = chosenPrice 50 [49, 10, 100] :=
  ⟨by decide +kernel,
    (attribution_is_clear_and_orderless 50 [100, 49, 10]).2 [49, 10, 100] (by decide)⟩

end CryptoLink
