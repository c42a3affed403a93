import Mathlib.Data.List.DropRight

/-!
# Fixed-point numbers as text

A number of `fraction.length` decimals is its whole digits, a dot and its
fraction digits; the zeros at the end are left out, and so is the dot when
nothing follows it. Padding the text with zeros gives the digits back.
-/

namespace DecimalText

variable {α : Type}

/-- What cannot be dropped stops the dropping. -/
theorem rdropWhile_append_cons {p : α → Bool} {c : α} (hc : p c = false) (l m : List α) :
    (l ++ c :: m).rdropWhile p = l ++ c :: m.rdropWhile p := by
  induction m using List.reverseRecOn with
  | nil =>
    have hstop : ¬ p c = true := by simp [hc]
    rw [List.rdropWhile_concat_neg p l c hstop, List.rdropWhile_nil]
  | append_singleton m x ih =>
    have hassoc : l ++ c :: (m ++ [x]) = (l ++ c :: m) ++ [x] := by simp
    rw [hassoc, List.rdropWhile_concat, List.rdropWhile_concat]
    split
    · exact ih
    · simp

/-- What was dropped are copies of the dropped element. -/
theorem rdropWhile_append_replicate [DecidableEq α] (c : α) (l : List α) :
    l.rdropWhile (· = c) ++
      List.replicate (l.length - (l.rdropWhile (· = c)).length) c = l := by
  have hsplit := List.rdropWhile_append_rtakeWhile (p := fun x => decide (x = c)) (l := l)
  have hlength := congrArg List.length hsplit
  rw [List.length_append] at hlength
  have hcopies : l.rtakeWhile (fun x => decide (x = c)) =
      List.replicate (l.rtakeWhile (fun x => decide (x = c))).length c := by
    refine List.eq_replicate_iff.mpr ⟨rfl, ?_⟩
    intro x hx
    simpa using List.mem_rtakeWhile_imp hx
  have hcount : l.length - (l.rdropWhile (fun x => decide (x = c))).length =
      (l.rtakeWhile (fun x => decide (x = c))).length := by omega
  rw [hcount, ← hcopies]
  exact hsplit

/-- Taking an element out of a list without it. -/
theorem filter_ne_of_not_mem [DecidableEq α] {c : α} {l : List α} (h : c ∉ l) :
    l.filter (fun x => x ≠ c) = l := by
  refine List.filter_eq_self.mpr fun x hx => ?_
  have hne : x ≠ c := by
    rintro rfl
    exact h hx
  simpa using hne

def IsDigits (cs : List Char) : Prop := ∀ c ∈ cs, c.isDigit = true

theorem IsDigits.append {a b : List Char} (ha : IsDigits a) (hb : IsDigits b) :
    IsDigits (a ++ b) := by
  intro c hc
  rcases List.mem_append.mp hc with h | h
  · exact ha c h
  · exact hb c h

theorem isDigits_zeros (n : ℕ) : IsDigits (List.replicate n '0') := by
  intro c hc
  obtain ⟨-, rfl⟩ := List.mem_replicate.mp hc
  decide

theorem isDigits_toDigits (n : ℕ) : IsDigits (Nat.toDigits 10 n) :=
  fun _ hc => Nat.isDigit_of_mem_toDigits (by omega) (by omega) hc

theorem IsDigits.not_mem {cs : List Char} (h : IsDigits cs) {c : Char} (hc : c.isDigit = false) :
    c ∉ cs := by
  intro hmem
  rw [h c hmem] at hc
  cases hc

theorem utf8Size_of_isDigit {c : Char} (h : c.isDigit = true) : c.utf8Size = 1 := by
  rw [Char.utf8Size_eq_one_iff]
  rw [Char.isDigit, Bool.and_eq_true, decide_eq_true_eq, decide_eq_true_eq] at h
  exact UInt32.le_trans h.2 (by decide)

/-- The whole digits, and behind a dot what is left of the fraction. -/
def trimmed (whole fraction : List Char) : List Char :=
  if fraction.rdropWhile (· = '0') = [] then whole
  else whole ++ '.' :: fraction.rdropWhile (· = '0')

/-- First the zeros at the end are dropped, then a dot at the end. -/
theorem trimmed_eq {whole fraction : List Char} (hwhole : IsDigits whole) :
    ((whole ++ '.' :: fraction).rdropWhile (· = '0')).rdropWhile (· = '.') =
      if fraction.rdropWhile (· = '0') = [] then whole
      else (whole ++ '.' :: fraction.rdropWhile (· = '0')).rdropWhile (· = '.') := by
  rw [rdropWhile_append_cons (by decide)]
  split
  · rename_i hempty
    rw [hempty, List.rdropWhile_concat_pos _ _ _ (by decide)]
    refine List.rdropWhile_eq_self_iff.mpr fun hne hdot => ?_
    have hdigit := hwhole _ (List.getLast_mem hne)
    rw [decide_eq_true_eq] at hdot
    rw [hdot] at hdigit
    exact absurd hdigit (by decide)
  · rfl

theorem trimmed_of_digits {whole fraction : List Char} (hwhole : IsDigits whole)
    (hfraction : IsDigits fraction) :
    ((whole ++ '.' :: fraction).rdropWhile (· = '0')).rdropWhile (· = '.') =
      trimmed whole fraction := by
  rw [trimmed_eq hwhole, trimmed]
  split
  · rfl
  · rename_i hne
    refine List.rdropWhile_eq_self_iff.mpr fun hne' hdot => ?_
    rw [List.getLast_append_of_ne_nil _ (by simp), List.getLast_cons hne] at hdot
    rw [decide_eq_true_eq] at hdot
    have hmem := List.rdropWhile_prefix (fun x => decide (x = '0')) fraction
    have hdigit := hfraction _ (hmem.subset (List.getLast_mem hne))
    rw [hdot] at hdigit
    exact absurd hdigit (by decide)

end DecimalText
