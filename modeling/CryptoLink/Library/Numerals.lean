import CryptoLink.Library.DecimalText
import Mathlib.Algebra.Order.Field.Rat
import Mathlib.Tactic.FieldSimp
import Mathlib.Tactic.Ring

/-!
# Decimal numerals

An optional sign, digits, and a dot with the digits behind it. On either side
of the dot the digits may be missing, not on both.
-/

namespace DecimalText

inductive Sign where
  | absent
  | plus
  | minus
  deriving DecidableEq, Repr

namespace Sign

def text : Sign → List Char
  | absent => []
  | plus => ['+']
  | minus => ['-']

def factor : Sign → Int
  | absent => 1
  | plus => 1
  | minus => -1

theorem not_mem_text {c : Char} (hplus : c ≠ '+') (hminus : c ≠ '-') (s : Sign) : c ∉ s.text := by
  cases s with
  | absent => exact List.not_mem_nil
  | plus => simpa [text] using hplus
  | minus => simpa [text] using hminus

end Sign

/-- A text that is a sign and digits, perhaps none. -/
structure IsSigned (cs : List Char) (sign : Sign) (digits : List Char) : Prop where
  text : cs = sign.text ++ digits
  digits : IsDigits digits

theorem IsSigned.append {cs digits more : List Char} {sign : Sign} (h : IsSigned cs sign digits)
    (hmore : IsDigits more) : IsSigned (cs ++ more) sign (digits ++ more) :=
  ⟨by rw [h.text, List.append_assoc], h.digits.append hmore⟩

theorem IsSigned.not_mem {cs digits : List Char} {sign : Sign} (h : IsSigned cs sign digits)
    {c : Char} (hdigit : c.isDigit = false) (hplus : c ≠ '+') (hminus : c ≠ '-') : c ∉ cs := by
  rw [h.text]
  intro hc
  rcases List.mem_append.mp hc with hsign | hdigits
  · exact Sign.not_mem_text hplus hminus sign hsign
  · exact h.digits.not_mem hdigit hdigits

/-- Digits at the end are digits of the number. -/
theorem IsSigned.of_append {cs digits more : List Char} {sign : Sign}
    (h : IsSigned (cs ++ more) sign digits) (hmore : IsDigits more) :
    ∃ front, digits = front ++ more ∧ IsSigned cs sign front := by
  have hsame : cs ++ more = sign.text ++ digits := h.text
  rcases List.append_eq_append_iff.mp hsame with ⟨front, hsign, hdigits⟩ | ⟨front, hcs, hdigits⟩
  · -- the sign would reach into the digits
    have hnil : front = [] := by
      cases front with
      | nil => rfl
      | cons c rest =>
        have hc : c ∈ sign.text := by rw [hsign]; simp
        have hdigit : c.isDigit = true := hmore c (by rw [hdigits]; simp)
        have hplus : c ≠ '+' := by rintro rfl; exact absurd hdigit (by decide)
        have hminus : c ≠ '-' := by rintro rfl; exact absurd hdigit (by decide)
        exact absurd hc (Sign.not_mem_text hplus hminus sign)
    subst hnil
    refine ⟨[], by simpa using hdigits.symm, ?_, ?_⟩
    · simpa using hsign.symm
    · intro c hc
      cases hc
  · refine ⟨front, hdigits, hcs, ?_⟩
    intro c hc
    exact h.digits c (by rw [hdigits]; simp [hc])

structure Numeral where
  sign : Sign
  whole : List Char
  dot : Bool
  fraction : List Char
  wholeDigits : IsDigits whole
  fractionDigits : IsDigits fraction
  someDigit : whole ++ fraction ≠ []
  undotted : dot = false → fraction = []

namespace Numeral

variable (n : Numeral)

def text : List Char :=
  n.sign.text ++ (n.whole ++ if n.dot then '.' :: n.fraction else [])

def places : ℕ := n.fraction.length

def value : ℚ :=
  n.sign.factor * ((Nat.ofDigitChars 10 n.whole 0 : ℚ) +
    (Nat.ofDigitChars 10 n.fraction 0 : ℚ) / 10 ^ n.places)

/-- With zeros behind them the digits count units of the last place kept. -/
theorem value_scaled {d : ℕ} (h : n.places ≤ d) :
    n.value * 10 ^ d = ((n.sign.factor * (Nat.ofDigitChars 10
      (n.whole ++ n.fraction ++ List.replicate (d - n.places) '0') 0 : ℕ) : Int) : ℚ) := by
  have hdigits : Nat.ofDigitChars 10
      (n.whole ++ n.fraction ++ List.replicate (d - n.places) '0') 0 =
      10 ^ (d - n.places) * (10 ^ n.places * Nat.ofDigitChars 10 n.whole 0 +
        Nat.ofDigitChars 10 n.fraction 0) := by
    rw [Nat.ofDigitChars_append, Nat.ofDigitChars_replicate_zero, Nat.ofDigitChars_append,
      Nat.ofDigitChars_eq_ofDigitChars_zero (l := n.fraction)]
    rfl
  have hsplit : (10 : ℚ) ^ d = 10 ^ (d - n.places) * 10 ^ n.places := by
    rw [← pow_add, Nat.sub_add_cancel h]
  rw [hdigits, value, hsplit]
  push_cast
  field_simp

/-- In front of the dot stand the sign and the whole digits. -/
def front : List Char := n.sign.text ++ n.whole

theorem isSigned_front : IsSigned n.front n.sign n.whole := ⟨rfl, n.wholeDigits⟩

theorem dot_not_mem_front : '.' ∉ n.front :=
  n.isSigned_front.not_mem (by decide) (by decide) (by decide)

theorem text_of_dot (h : n.dot = true) : n.text = n.front ++ '.' :: n.fraction := by
  rw [text, front, h, if_pos rfl, List.append_assoc]

theorem text_of_no_dot (h : n.dot = false) : n.text = n.front := by
  rw [text, front, h]
  simp

theorem isSigned_digits :
    IsSigned (n.front ++ n.fraction) n.sign (n.whole ++ n.fraction) :=
  n.isSigned_front.append n.fractionDigits

theorem not_mem_text {c : Char} (hdigit : c.isDigit = false) (hplus : c ≠ '+') (hminus : c ≠ '-')
    (hdot : c ≠ '.') : c ∉ n.text := by
  have hfront : c ∉ n.front := n.isSigned_front.not_mem hdigit hplus hminus
  cases hd : n.dot with
  | false =>
    rw [n.text_of_no_dot hd]
    exact hfront
  | true =>
    rw [n.text_of_dot hd, List.mem_append, List.mem_cons]
    rintro (h | h | h)
    · exact hfront h
    · exact hdot h
    · exact n.fractionDigits.not_mem hdigit h

/-- The numeral written with the zeros at the end left out. -/
def trimmed (sign : Sign) {whole fraction : List Char} (hwhole : IsDigits whole)
    (hne : whole ≠ []) (hfraction : IsDigits fraction) : Numeral where
  sign := sign
  whole := whole
  dot := decide (fraction.rdropWhile (· = '0') ≠ [])
  fraction := fraction.rdropWhile (· = '0')
  wholeDigits := hwhole
  fractionDigits := fun c hc => hfraction c ((List.rdropWhile_prefix _ fraction).subset hc)
  someDigit := fun hnil => hne (List.append_eq_nil_iff.mp hnil).1
  undotted := fun hdot => by simpa using hdot

theorem text_trimmed (sign : Sign) {whole fraction : List Char} (hwhole : IsDigits whole)
    (hne : whole ≠ []) (hfraction : IsDigits fraction) :
    (trimmed sign hwhole hne hfraction).text = sign.text ++ DecimalText.trimmed whole fraction := by
  unfold DecimalText.trimmed
  by_cases hempty : fraction.rdropWhile (fun x => decide (x = '0')) = []
  · have hdot : (trimmed sign hwhole hne hfraction).dot = false := by
      simp [trimmed, hempty]
    rw [text_of_no_dot _ hdot, if_pos hempty]
    rfl
  · have hdot : (trimmed sign hwhole hne hfraction).dot = true := by
      simp [trimmed, hempty]
    rw [text_of_dot _ hdot, if_neg hempty, front, List.append_assoc]
    rfl

end Numeral

end DecimalText
