import Mathlib.Data.Nat.Digits.Lemmas

/-!
# Base 58

A list of digits, highest first, is written in another base as one number; the
zeros in front are kept one for one. Reading back in the first base gives the
digits again. Base 58 is the case of bytes and an alphabet of 58 letters.
-/

namespace CryptoLink

namespace Base58

def value (b : ℕ) (ds : List ℕ) : ℕ := ds.foldl (fun n d => n * b + d) 0

/-- The digits of `n`, lowest first, at most as many as there is fuel. -/
def lowDigits (b : ℕ) : ℕ → ℕ → List ℕ
  | 0, _ => []
  | fuel + 1, n => if n = 0 then [] else n % b :: lowDigits b fuel (n / b)

def digits (b n : ℕ) : List ℕ := (lowDigits b (n.log2 + 1) n).reverse

/-- How many zeros stand in front. -/
def zeros (ds : List ℕ) : ℕ := (ds.takeWhile (· = 0)).length

def recode (b b' : ℕ) (ds : List ℕ) : List ℕ :=
  List.replicate (zeros ds) 0 ++ digits b' (value b ds)

variable {b b' : ℕ}

theorem value_eq (ds : List ℕ) : value b ds = Nat.ofDigits b ds.reverse := by
  induction ds using List.reverseRecOn with
  | nil => rfl
  | append_singleton ds d ih =>
    have hstep : value b (ds ++ [d]) = value b ds * b + d := by
      simp [value, List.foldl_append]
    rw [hstep, ih, List.reverse_append, List.reverse_singleton, List.singleton_append,
      Nat.ofDigits_cons]
    ring

theorem lowDigits_eq (hb : 1 < b) (fuel n : ℕ) (hfuel : n < b ^ fuel) :
    lowDigits b fuel n = Nat.digits b n := by
  induction fuel generalizing n with
  | zero =>
    have hzero : n = 0 := by simpa using hfuel
    simp [lowDigits, hzero]
  | succ fuel ih =>
    by_cases hn : n = 0
    · simp [lowDigits, hn]
    · have hless : n / b < b ^ fuel := by
        apply Nat.div_lt_of_lt_mul
        calc n < b ^ (fuel + 1) := hfuel
          _ = b * b ^ fuel := by ring
      rw [lowDigits, if_neg hn, ih _ hless, ← Nat.digits_def' hb (by omega)]

theorem digits_eq (hb : 1 < b) (n : ℕ) : digits b n = (Nat.digits b n).reverse := by
  have hfuel : n < b ^ (n.log2 + 1) :=
    calc n < 2 ^ (n.log2 + 1) := Nat.lt_log2_self
      _ ≤ b ^ (n.log2 + 1) := Nat.pow_le_pow_left hb _
  rw [digits, lowDigits_eq hb _ _ hfuel]

theorem digits_lt (hb : 1 < b) {n d : ℕ} (h : d ∈ digits b n) : d < b := by
  rw [digits_eq hb, List.mem_reverse] at h
  exact Nat.digits_lt_base hb h

/-- The first digit is not zero. -/
theorem zeros_digits (hb : 1 < b) (k n : ℕ) :
    zeros (List.replicate k 0 ++ digits b n) = k := by
  have hfront : (digits b n).takeWhile (· = 0) = [] := by
    rw [digits_eq hb]
    by_cases hn : n = 0
    · simp [hn]
    · have hne : Nat.digits b n ≠ [] := Nat.digits_ne_nil_iff_ne_zero.mpr hn
      have hlast := Nat.getLast_digit_ne_zero b hn
      rw [← List.dropLast_append_getLast hne, List.reverse_append]
      simp [hlast]
  induction k with
  | zero => simp [zeros, hfront]
  | succ k ih =>
    simp only [zeros, List.replicate_succ, List.cons_append] at ih ⊢
    rw [List.takeWhile_cons_of_pos (by simp), List.length_cons, ih]

theorem value_zeros (k : ℕ) (ds : List ℕ) :
    value b (List.replicate k 0 ++ ds) = value b ds := by
  induction k with
  | zero => rfl
  | succ k ih =>
    rw [← ih]
    simp [value, List.replicate_succ]

theorem value_digits (hb : 1 < b) (n : ℕ) : value b (digits b n) = n := by
  rw [value_eq, digits_eq hb, List.reverse_reverse]
  exact Nat.ofDigits_digits b n

/-- Zeros in front, and then digits that start with another one. -/
theorem split_zeros (ds : List ℕ) :
    ∃ rest, ds = List.replicate (zeros ds) 0 ++ rest ∧ ∀ d, rest.head? = some d → d ≠ 0 := by
  induction ds with
  | nil => exact ⟨[], rfl, by simp⟩
  | cons d ds ih =>
    by_cases hd : d = 0
    · obtain ⟨rest, hds, hrest⟩ := ih
      have hzeros : zeros (d :: ds) = zeros ds + 1 := by simp [zeros, hd]
      refine ⟨rest, ?_, hrest⟩
      rw [hzeros, List.replicate_succ, List.cons_append, ← hds, hd]
    · have hzeros : zeros (d :: ds) = 0 := by simp [zeros, hd]
      refine ⟨d :: ds, by simp [hzeros], ?_⟩
      intro e he
      cases he
      exact hd

theorem digits_value (hb : 1 < b) {ds : List ℕ} (hds : ∀ d ∈ ds, d < b)
    (hfront : ∀ d, ds.head? = some d → d ≠ 0) : digits b (value b ds) = ds := by
  have hdigits : Nat.digits b (Nat.ofDigits b ds.reverse) = ds.reverse := by
    refine Nat.digits_ofDigits b hb _ ?_ ?_
    · intro d hd
      exact hds d (List.mem_reverse.mp hd)
    · intro hne
      rw [List.getLast_reverse]
      exact hfront _ (List.head?_eq_some_head _)
  rw [digits_eq hb, value_eq, hdigits, List.reverse_reverse]

theorem recode_lt (hb' : 1 < b') {ds : List ℕ} {d : ℕ} (h : d ∈ recode b b' ds) : d < b' := by
  rcases List.mem_append.mp h with hzero | hdigit
  · have := List.eq_of_mem_replicate hzero
    omega
  · exact digits_lt hb' hdigit

theorem recode_recode (hb : 1 < b) (hb' : 1 < b') {ds : List ℕ} (hds : ∀ d ∈ ds, d < b) :
    recode b' b (recode b b' ds) = ds := by
  obtain ⟨rest, hsplit, hfront⟩ := split_zeros ds
  have hrest : ∀ d ∈ rest, d < b := by
    intro d hd
    rw [hsplit] at hds
    exact hds d (List.mem_append_right _ hd)
  have hvalue : value b ds = value b rest := by
    rw [hsplit, value_zeros]
  have hback : value b' (recode b b' ds) = value b ds := by
    rw [recode, value_zeros, value_digits hb']
  have hzeros : zeros (recode b b' ds) = zeros ds := by
    rw [recode, zeros_digits hb']
  calc recode b' b (recode b b' ds)
      = List.replicate (zeros ds) 0 ++ digits b (value b rest) := by
        rw [recode, hback, hzeros, hvalue]
    _ = List.replicate (zeros ds) 0 ++ rest := by rw [digits_value hb hrest hfront]
    _ = ds := hsplit.symm

def alphabet : List Char :=
  "123456789ABCDEFGHJKLMNPQRSTUVWXYZabcdefghijkmnopqrstuvwxyz".toList

def letter (d : ℕ) : Char := alphabet.getD d '1'

def digit (c : Char) : Option ℕ := if c ∈ alphabet then some (alphabet.idxOf c) else none

def encode (bytes : List ℕ) : String := String.ofList ((recode 256 58 bytes).map letter)

/-- Nothing is read where a letter is not of the alphabet. -/
def decode (text : String) : List ℕ :=
  match text.toList.mapM digit with
  | none => []
  | some ds => recode 58 256 ds

theorem digit_letter {d : ℕ} (h : d < 58) : digit (letter d) = some d := by
  have hall : ∀ d < 58, digit (letter d) = some d := by decide +kernel
  exact hall d h

theorem mapM_letters {ds : List ℕ} (h : ∀ d ∈ ds, d < 58) :
    (ds.map letter).mapM digit = some ds := by
  induction ds with
  | nil => rfl
  | cons d ds ih =>
    have hd := digit_letter (h d List.mem_cons_self)
    have hds := ih fun e he => h e (List.mem_cons_of_mem d he)
    simp [hd, hds]

theorem decode_encode {bytes : List ℕ} (h : ∀ d ∈ bytes, d < 256) :
    decode (encode bytes) = bytes := by
  have hletters : ∀ d ∈ recode 256 58 bytes, d < 58 := fun d hd => recode_lt (by omega) hd
  rw [decode, encode, String.toList_ofList, mapM_letters hletters]
  exact recode_recode (by omega) (by omega) h

theorem decode_lt (text : String) : ∀ d ∈ decode text, d < 256 := by
  intro d hd
  rw [decode] at hd
  split at hd
  · cases hd
  · exact recode_lt (by omega) hd

end Base58

end CryptoLink
