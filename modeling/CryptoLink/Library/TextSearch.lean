import Mathlib.Data.List.Basic
import Mathlib.Data.List.Infix

/-!
# Searching in encoded text

The last place of a pattern in a list, and text as the bytes of its encoding.
An ASCII pattern is found in the bytes where it stands in the text, since every
byte of any other character is too large for it.
-/

namespace TextSearch

variable {α β : Type}

/-- Where the pattern starts for the last time. -/
def lastIndex [DecidableEq α] (pattern : List α) : List α → Option ℕ
  | [] => if pattern <+: [] then some 0 else none
  | x :: xs =>
    match lastIndex pattern xs with
    | some i => some (i + 1)
    | none => if pattern <+: x :: xs then some 0 else none

def utf8 (cs : List Char) : List UInt8 := cs.flatMap String.utf8EncodeChar

section

variable [DecidableEq α] {pattern xs : List α}

theorem prefix_of_lastIndex {i : ℕ} (h : lastIndex pattern xs = some i) :
    pattern <+: xs.drop i ∧ i ≤ xs.length := by
  induction xs generalizing i with
  | nil =>
    rw [lastIndex] at h
    split at h
    · rename_i hbegins
      cases h
      exact ⟨hbegins, le_rfl⟩
    · cases h
  | cons x xs ih =>
    rw [lastIndex] at h
    split at h
    · rename_i j hj
      cases h
      obtain ⟨hbegins, hle⟩ := ih hj
      exact ⟨hbegins, Nat.succ_le_succ hle⟩
    · split at h
      · rename_i hbegins
        cases h
        exact ⟨hbegins, Nat.zero_le _⟩
      · cases h

theorem not_prefix_of_lastIndex {j : ℕ} (h : lastIndex pattern xs = none)
    (hj : j ≤ xs.length) : ¬ pattern <+: xs.drop j := by
  induction xs generalizing j with
  | nil =>
    rw [lastIndex] at h
    split at h
    · cases h
    · rename_i hnot
      simpa using hnot
  | cons x xs ih =>
    rw [lastIndex] at h
    split at h
    · cases h
    · rename_i hnone
      split at h
      · cases h
      · rename_i hnot
        cases j with
        | zero => exact hnot
        | succ j => exact ih hnone (Nat.le_of_succ_le_succ hj)

/-- It is the last one. -/
theorem le_lastIndex {i j : ℕ} (h : lastIndex pattern xs = some i) (hj : j ≤ xs.length)
    (hbegins : pattern <+: xs.drop j) : j ≤ i := by
  induction xs generalizing i j with
  | nil =>
    rw [List.length_nil] at hj
    omega
  | cons x xs ih =>
    cases j with
    | zero => omega
    | succ j =>
      have hlater : pattern <+: xs.drop j := hbegins
      have hrest : j ≤ xs.length := Nat.le_of_succ_le_succ hj
      rw [lastIndex] at h
      split at h
      · rename_i k hk
        cases h
        exact Nat.succ_le_succ (ih hk hrest hlater)
      · rename_i hnone
        exact absurd hlater (not_prefix_of_lastIndex hnone hrest)

end

/-- Two maps that meet the letters of the pattern at the same elements. -/
theorem lastIndex_map_congr [DecidableEq β] {pattern : List β} {f g : α → β}
    (h : ∀ x, ∀ t ∈ pattern, f x = t ↔ g x = t) (xs : List α) :
    lastIndex pattern (xs.map f) = lastIndex pattern (xs.map g) := by
  have hbegins : ∀ (ts : List β) (ys : List α), (∀ t ∈ ts, t ∈ pattern) →
      (ts <+: ys.map f ↔ ts <+: ys.map g) := by
    intro ts
    induction ts with
    | nil => simp
    | cons t ts ih =>
      intro ys hts
      cases ys with
      | nil => simp
      | cons y ys =>
        have hy := h y t (hts t List.mem_cons_self)
        have hys := ih ys fun u hu => hts u (List.mem_cons_of_mem t hu)
        rw [List.map_cons, List.map_cons, List.cons_prefix_cons, List.cons_prefix_cons, hys,
          eq_comm, hy, eq_comm]
  induction xs with
  | nil => rfl
  | cons x xs ih =>
    have hhere := hbegins pattern (x :: xs) fun _ ht => ht
    rw [List.map_cons, List.map_cons] at hhere
    rw [List.map_cons, List.map_cons, lastIndex, lastIndex, ih]
    simp only [hhere]

theorem utf8_append (cs ds : List Char) : utf8 (cs ++ ds) = utf8 cs ++ utf8 ds :=
  List.flatMap_append

theorem utf8_cons (c : Char) (cs : List Char) :
    utf8 (c :: cs) = String.utf8EncodeChar c ++ utf8 cs :=
  List.flatMap_cons

theorem utf8EncodeChar_ascii {c : Char} (h : c.toNat ≤ 127) :
    String.utf8EncodeChar c = [UInt8.ofNat c.toNat] := by
  have hsmall : c.val.toNat ≤ 0x7f := h
  rw [String.utf8EncodeChar]
  exact if_pos hsmall

theorem utf8_ascii_cons {c : Char} (h : c.toNat ≤ 127) (cs : List Char) :
    utf8 (c :: cs) = UInt8.ofNat c.toNat :: utf8 cs := by
  rw [utf8_cons, utf8EncodeChar_ascii h, List.singleton_append]

/-- Beyond ASCII every byte is a large one. -/
theorem large_of_wide {c : Char} (h : 127 < c.toNat) :
    ∀ b ∈ String.utf8EncodeChar c, 127 < b.toNat := by
  have hwide : ¬ c.val.toNat ≤ 0x7f := Nat.not_le.mpr h
  intro b hb
  simp only [String.utf8EncodeChar, hwide, if_false] at hb
  split at hb
  · simp only [List.mem_cons, List.not_mem_nil, or_false] at hb
    rcases hb with rfl | rfl <;> simp only [UInt8.toNat_ofNat'] <;> omega
  · split at hb
    · simp only [List.mem_cons, List.not_mem_nil, or_false] at hb
      rcases hb with rfl | rfl | rfl <;> simp only [UInt8.toNat_ofNat'] <;> omega
    · simp only [List.mem_cons, List.not_mem_nil, or_false] at hb
      rcases hb with rfl | rfl | rfl | rfl <;> simp only [UInt8.toNat_ofNat'] <;> omega

theorem ofNat_toNat_ascii {c : Char} (h : c.toNat ≤ 127) :
    (UInt8.ofNat c.toNat).toNat = c.toNat := by
  rw [UInt8.toNat_ofNat']
  omega

/-- An ASCII pattern begins the bytes exactly if it begins the text. -/
theorem prefix_utf8_iff {ts : List Char} (h : ∀ t ∈ ts, t.toNat ≤ 127) (cs : List Char) :
    utf8 ts <+: utf8 cs ↔ ts <+: cs := by
  induction ts generalizing cs with
  | nil => simp [utf8]
  | cons t ts ih =>
    have ht := h t List.mem_cons_self
    have hts := fun u hu => h u (List.mem_cons_of_mem t hu)
    rw [utf8_ascii_cons ht]
    cases cs with
    | nil => simp [utf8]
    | cons c cs =>
      by_cases hc : c.toNat ≤ 127
      · rw [utf8_ascii_cons hc, List.cons_prefix_cons, List.cons_prefix_cons, ih hts]
        refine and_congr_left fun _ => ?_
        constructor
        · intro hbytes
          have hcodes := congrArg UInt8.toNat hbytes
          rw [ofNat_toNat_ascii ht, ofNat_toNat_ascii hc] at hcodes
          exact Char.toNat_inj.mp hcodes
        · rintro rfl
          rfl
      · have hbytes := @large_of_wide c (by omega)
        have hne : t ≠ c := by
          rintro rfl
          exact hc ht
        rw [utf8_cons]
        cases hencoded : String.utf8EncodeChar c with
        | nil => exact absurd hencoded String.utf8EncodeChar_ne_nil
        | cons b bs =>
          have hlarge := hbytes b (by rw [hencoded]; exact List.mem_cons_self)
          have hb : UInt8.ofNat t.toNat ≠ b := by
            rintro rfl
            rw [ofNat_toNat_ascii ht] at hlarge
            omega
          rw [List.cons_append, List.cons_prefix_cons, List.cons_prefix_cons]
          constructor
          · exact fun h => absurd h.1 hb
          · exact fun h => absurd h.1 hne

/-- No ASCII pattern starts within the bytes of another character. -/
theorem lastIndex_large_append {t : Char} (ht : t.toNat ≤ 127) {ts : List Char}
    {high : List UInt8} (hhigh : ∀ b ∈ high, 127 < b.toNat) (rest : List UInt8) :
    lastIndex (utf8 (t :: ts)) (high ++ rest) =
      (lastIndex (utf8 (t :: ts)) rest).map (· + high.length) := by
  induction high with
  | nil =>
    rw [List.nil_append, List.length_nil]
    cases lastIndex (utf8 (t :: ts)) rest <;> rfl
  | cons b bs ih =>
    have hb := hhigh b List.mem_cons_self
    have hbs := ih fun c hc => hhigh c (List.mem_cons_of_mem b hc)
    have hnot : ¬ utf8 (t :: ts) <+: b :: (bs ++ rest) := by
      rw [utf8_ascii_cons ht, List.cons_prefix_cons]
      rintro ⟨rfl, -⟩
      rw [ofNat_toNat_ascii ht] at hb
      omega
    rw [List.cons_append, lastIndex, hbs, if_neg hnot]
    cases lastIndex (utf8 (t :: ts)) rest with
    | none => rfl
    | some i =>
      simp only [Option.map_some, List.length_cons]
      rfl

/-- The place in the bytes is the length of the text before. -/
theorem lastIndex_utf8 {pattern : List Char} (hne : pattern ≠ [])
    (h : ∀ t ∈ pattern, t.toNat ≤ 127) (cs : List Char) :
    lastIndex (utf8 pattern) (utf8 cs) =
      (lastIndex pattern cs).map fun i => (utf8 (cs.take i)).length := by
  obtain ⟨t, ts, rfl⟩ := List.exists_cons_of_ne_nil hne
  have ht := h t List.mem_cons_self
  induction cs with
  | nil =>
    have hbytes : ¬ utf8 (t :: ts) <+: utf8 [] := by
      rw [utf8_ascii_cons ht]
      simp [utf8]
    have htext : ¬ t :: ts <+: [] := by simp
    have hnil : utf8 [] = [] := rfl
    rw [hnil] at hbytes ⊢
    rw [lastIndex, lastIndex, if_neg hbytes, if_neg htext]
    rfl
  | cons c cs ih =>
    have hsame := prefix_utf8_iff h (c :: cs)
    by_cases hc : c.toNat ≤ 127
    · rw [utf8_ascii_cons hc] at hsame ⊢
      rw [lastIndex, lastIndex, ih]
      cases lastIndex (t :: ts) cs with
      | some i =>
        simp only [Option.map_some, List.take_succ_cons, utf8_ascii_cons hc, List.length_cons]
      | none =>
        simp only [Option.map_none, hsame]
        split
        · rfl
        · rfl
    · have hstart : ¬ t :: ts <+: c :: cs := by
        rw [List.cons_prefix_cons]
        rintro ⟨rfl, -⟩
        exact hc ht
      have hlarge := @large_of_wide c (by omega)
      rw [utf8_cons c, lastIndex_large_append ht hlarge, ih, lastIndex]
      cases lastIndex (t :: ts) cs with
      | some i =>
        simp only [Option.map_some, List.take_succ_cons, utf8_cons, List.length_append]
        congr 1
        omega
      | none =>
        rw [if_neg hstart]
        rfl

end TextSearch
