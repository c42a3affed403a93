import CryptoLink.Library.Numerals
import CryptoLink.Money
import Mathlib.Tactic.Positivity

/-!
# Amounts as text

The text of an amount parses back to it. What else the parser accepts: it
takes underscores and dots out before it looks for a number.
-/

namespace CryptoLink

open DecimalText

namespace Money

/-- One digit more. -/
def appendDigit (acc : Option ℕ) (c : Char) : Option ℕ :=
  acc.bind fun n => if c.isDigit then some (10 * n + (c.toNat - '0'.toNat)) else none

theorem foldl_appendDigit_none (cs : List Char) : cs.foldl appendDigit none = none := by
  induction cs with
  | nil => rfl
  | cons c cs ih => exact ih

theorem foldl_appendDigit_of_not_digits {cs : List Char} (h : ¬ IsDigits cs) (acc : Option ℕ) :
    cs.foldl appendDigit acc = none := by
  induction cs generalizing acc with
  | nil => exact absurd (fun c hc => by cases hc) h
  | cons c cs ih =>
    rw [List.foldl_cons]
    by_cases hc : c.isDigit = true
    · apply ih
      intro hcs
      apply h
      intro x hx
      rcases List.mem_cons.mp hx with rfl | hmem
      · exact hc
      · exact hcs x hmem
    · have hstop : appendDigit acc c = none := by
        cases acc with
        | none => rfl
        | some n => simp only [appendDigit, Option.bind_some, if_neg hc]
      rw [hstop, foldl_appendDigit_none]

theorem digitsToNat_eq_some_iff {cs : List Char} {n : ℕ} :
    digitsToNat cs = some n ↔ cs ≠ [] ∧ IsDigits cs ∧ n = Nat.ofDigitChars 10 cs 0 := by
  by_cases hne : cs = []
  · subst hne
    simp [digitsToNat]
  · have hfold : digitsToNat cs = cs.foldl appendDigit (some 0) := by
      have hnonempty : cs.isEmpty = false := by simpa using hne
      rw [digitsToNat, hnonempty]
      rfl
    rw [hfold]
    by_cases hdigits : IsDigits cs
    · have hread : cs.foldl appendDigit (some 0) = some (Nat.ofDigitChars 10 cs 0) :=
        foldl_digits cs hdigits 0
      rw [hread]
      constructor
      · intro h
        exact ⟨hne, hdigits, (Option.some.inj h).symm⟩
      · rintro ⟨-, -, rfl⟩
        rfl
    · rw [foldl_appendDigit_of_not_digits hdigits]
      constructor
      · intro h
        cases h
      · rintro ⟨-, hbad, -⟩
        exact absurd hbad hdigits

theorem setString_of_signed {s : String} {sign : Sign} {digits : List Char}
    (h : IsSigned s.toList sign digits) (hne : digits ≠ []) :
    setString s = some (sign.factor * (Nat.ofDigitChars 10 digits 0 : ℕ)) := by
  have hread : digitsToNat digits = some (Nat.ofDigitChars 10 digits 0) :=
    digitsToNat_eq_some_iff.mpr ⟨hne, h.digits, rfl⟩
  cases sign with
  | minus =>
    have htext : s.toList = '-' :: digits := h.text
    simp only [setString, htext, hread, Sign.factor, neg_mul, one_mul]
    rfl
  | plus =>
    have htext : s.toList = '+' :: digits := h.text
    simp only [setString, htext, hread, Sign.factor, one_mul]
    rfl
  | absent =>
    have htext : s.toList = digits := h.text
    rw [setString, htext]
    split
    · exact absurd (h.digits '-' (by simp)) (by decide)
    · exact absurd (h.digits '+' (by simp)) (by decide)
    · simp only [hread, Sign.factor, one_mul]
      rfl

theorem signed_of_setString {s : String} {v : Int} (h : setString s = some v) :
    ∃ sign digits, IsSigned s.toList sign digits ∧ digits ≠ [] := by
  have hdigits : ∀ cs, digitsToNat cs ≠ none → cs ≠ [] ∧ IsDigits cs := by
    intro cs hcs
    obtain ⟨n, hn⟩ := Option.ne_none_iff_exists'.mp hcs
    obtain ⟨hne, hall, -⟩ := digitsToNat_eq_some_iff.mp hn
    exact ⟨hne, hall⟩
  unfold setString at h
  split at h
  · rename_i cs hcs
    obtain ⟨hne, hall⟩ := hdigits cs (fun hnone => by rw [hnone] at h; cases h)
    exact ⟨.minus, cs, ⟨hcs, hall⟩, hne⟩
  · rename_i cs hcs
    obtain ⟨hne, hall⟩ := hdigits cs (fun hnone => by rw [hnone] at h; cases h)
    exact ⟨.plus, cs, ⟨hcs, hall⟩, hne⟩
  · obtain ⟨hne, hall⟩ := hdigits s.toList (fun hnone => by rw [hnone] at h; cases h)
    exact ⟨.absent, s.toList, ⟨rfl, hall⟩, hne⟩

theorem toList_clear (cs : List Char) :
    (clear (String.ofList cs)).toList = cs.filter fun c => c ≠ '_' := by
  rw [clear, String.toList_ofList, String.toList_ofList]

theorem new_of_signed {cs digits : List Char} {sign : Sign}
    (h : IsSigned (cs.filter fun c => c ≠ '_') sign digits) (hne : digits ≠ []) (ticker : String)
    (decimals : Int) :
    new .crypto ticker (String.ofList cs) decimals =
      .ok (crypto ticker (sign.factor * (Nat.ofDigitChars 10 digits 0 : ℕ)) decimals) := by
  rw [← toList_clear] at h
  rw [new, setString_of_signed h hne]
  rfl

/-- Text that is no signed digit string is refused. -/
theorem new_of_not_signed {cs : List Char}
    (h : ∀ sign digits, IsSigned (cs.filter fun c => c ≠ '_') sign digits → digits = [])
    (ticker : String) (decimals : Int) :
    new .crypto ticker (String.ofList cs) decimals = .error (Err.of .errParse) := by
  cases hread : setString (clear (String.ofList cs)) with
  | none => rw [new, hread]
  | some v =>
    obtain ⟨sign, digits, hsigned, hne⟩ := signed_of_setString hread
    rw [toList_clear] at hsigned
    exact absurd (h sign digits hsigned) hne

/-- The bytes behind the only dot. -/
def fractionBytes (s : String) : ℕ :=
  match s.toList.splitOn '.' with
  | [_, fraction] => byteLength fraction
  | _ => 0

/-- No dot, one dot, or more. -/
theorem dots_cases (cs : List Char) :
    ('.' ∉ cs) ∨
      (∃ whole fraction, '.' ∉ whole ∧ '.' ∉ fraction ∧ cs = whole ++ '.' :: fraction) ∨
      ∃ a b rest, '.' ∉ a ∧ '.' ∉ b ∧ cs = a ++ '.' :: (b ++ '.' :: rest) := by
  by_cases hfirst : '.' ∈ cs
  · obtain ⟨a, after, rfl, ha⟩ := List.eq_append_cons_of_mem hfirst
    by_cases hsecond : '.' ∈ after
    · obtain ⟨b, rest, rfl, hb⟩ := List.eq_append_cons_of_mem hsecond
      exact Or.inr (Or.inr ⟨a, b, rest, ha, hb, rfl⟩)
    · exact Or.inr (Or.inl ⟨a, after, ha, hsecond, rfl⟩)
  · exact Or.inl hfirst

theorem splitOn_one_dot {whole fraction : List Char} (hw : '.' ∉ whole) (hf : '.' ∉ fraction) :
    (whole ++ '.' :: fraction).splitOn '.' = [whole, fraction] := by
  rw [List.splitOn_append_cons_self_of_not_mem hw, List.splitOn_eq_singleton hf]

theorem splitOn_more_dots {a b : List Char} (ha : '.' ∉ a) (hb : '.' ∉ b) (rest : List Char) :
    ∃ c cs, (a ++ '.' :: (b ++ '.' :: rest)).splitOn '.' = a :: b :: c :: cs := by
  rw [List.splitOn_append_cons_self_of_not_mem ha, List.splitOn_append_cons_self_of_not_mem hb]
  cases hrest : rest.splitOn '.' with
  | nil => exact absurd hrest (List.splitOn_ne_nil _ _)
  | cons c cs => exact ⟨c, cs, rfl⟩

theorem count_more_dots (a b rest : List Char) :
    2 ≤ (a ++ '.' :: (b ++ '.' :: rest)).count '.' := by
  rw [List.count_append, List.count_cons_self, List.count_append, List.count_cons_self]
  omega

section

variable {s : String} {decimals : Int}

/-- The text without its dot, padded with zeros to the decimals. -/
theorem cryptoFromStringFloat_of_fits (hdots : s.toList.count '.' ≤ 1)
    (hfit : (fractionBytes s : Int) ≤ decimals) (ticker : String) :
    cryptoFromStringFloat ticker s decimals =
      new .crypto ticker (String.ofList (s.toList.filter (fun c => c ≠ '.') ++
        List.replicate (decimals.toNat - fractionBytes s) '0')) decimals := by
  rcases dots_cases s.toList with hnone | ⟨whole, fraction, hw, hf, hone⟩ |
    ⟨a, b, rest, -, -, hmore⟩
  · have hparts := List.splitOn_eq_singleton hnone
    have hbytes : fractionBytes s = 0 := by rw [fractionBytes, hparts]
    rw [hbytes] at hfit ⊢
    have hzeros : zeros decimals = .ok (List.replicate decimals.toNat '0') := by
      rw [zeros, if_neg (by omega)]
    rw [cryptoFromStringFloat, hparts, filter_ne_of_not_mem hnone, Nat.sub_zero]
    simp only [hzeros, bind, Except.bind]
  · have hparts : s.toList.splitOn '.' = [whole, fraction] := by
      rw [hone, splitOn_one_dot hw hf]
    have hbytes : fractionBytes s = byteLength fraction := by rw [fractionBytes, hparts]
    rw [hbytes] at hfit ⊢
    have hcount : (decimals - byteLength fraction).toNat =
        decimals.toNat - byteLength fraction := by omega
    have hzeros : zeros (decimals - byteLength fraction) =
        .ok (List.replicate (decimals.toNat - byteLength fraction) '0') := by
      rw [zeros, if_neg (by omega), hcount]
    have hbody : s.toList.filter (fun c => c ≠ '.') = whole ++ fraction := by
      rw [hone, List.filter_append, List.filter_cons_of_neg (by decide),
        filter_ne_of_not_mem hw, filter_ne_of_not_mem hf]
    rw [cryptoFromStringFloat, hparts, hbody]
    simp only [hzeros, bind, Except.bind]
  · have htwo := count_more_dots a b rest
    rw [← hmore] at htwo
    omega

/-- More bytes behind the dot than decimals: the padding has a negative length. -/
theorem cryptoFromStringFloat_of_long (hd : 0 ≤ decimals) (hlong : decimals < fractionBytes s)
    (ticker : String) :
    cryptoFromStringFloat ticker s decimals =
      .error (Err.of (.panic "strings: negative Repeat count")) := by
  unfold fractionBytes at hlong
  split at hlong
  · rename_i whole fraction hparts
    have hzeros : zeros (decimals - byteLength fraction) =
        .error (Err.of (.panic "strings: negative Repeat count")) := by
      rw [zeros, if_pos (by omega)]
    rw [cryptoFromStringFloat, hparts]
    simp only [hzeros, bind, Except.bind]
  · omega

theorem cryptoFromStringFloat_of_dots (hdots : 2 ≤ s.toList.count '.') (ticker : String) :
    cryptoFromStringFloat ticker s decimals =
      .error ((Err.of .errParse).wrap "invalid floatString provided") := by
  rcases dots_cases s.toList with hnone | ⟨whole, fraction, hw, hf, hone⟩ |
    ⟨a, b, rest, ha, hb, hmore⟩
  · rw [List.count_eq_zero_of_not_mem hnone] at hdots
    omega
  · rw [hone, List.count_append, List.count_cons_self, List.count_eq_zero_of_not_mem hw,
      List.count_eq_zero_of_not_mem hf] at hdots
    omega
  · obtain ⟨c, cs, hparts⟩ := splitOn_more_dots ha hb rest
    rw [cryptoFromStringFloat, hmore, hparts]

theorem byteLength_of_digits {cs : List Char} (h : IsDigits cs) : byteLength cs = cs.length := by
  induction cs with
  | nil => rfl
  | cons c cs ih =>
    have hone : c.utf8Size = 1 := utf8Size_of_isDigit (h c List.mem_cons_self)
    have hrest := ih fun x hx => h x (List.mem_cons_of_mem _ hx)
    rw [byteLength, List.map_cons, List.sum_cons, hone, List.length_cons]
    rw [byteLength] at hrest
    omega

/-- The parser finds the places of a numeral behind its dot. -/
theorem fractionBytes_of_numeral (n : Numeral) (htext : n.text = s.toList) :
    fractionBytes s = n.places ∧ s.toList.count '.' ≤ 1 ∧
      s.toList.filter (fun c => c ≠ '.') = n.front ++ n.fraction := by
  have hfront := n.dot_not_mem_front
  have hfraction : '.' ∉ n.fraction := n.fractionDigits.not_mem (by decide)
  cases hdot : n.dot with
  | false =>
    have hnil := n.undotted hdot
    have hparts : s.toList.splitOn '.' = [n.front] := by
      rw [← htext, n.text_of_no_dot hdot, List.splitOn_eq_singleton hfront]
    refine ⟨?_, ?_, ?_⟩
    · rw [fractionBytes, hparts, Numeral.places, hnil, List.length_nil]
    · rw [← htext, n.text_of_no_dot hdot, List.count_eq_zero_of_not_mem hfront]
      omega
    · rw [← htext, n.text_of_no_dot hdot, filter_ne_of_not_mem hfront, hnil, List.append_nil]
  | true =>
    have hparts : s.toList.splitOn '.' = [n.front, n.fraction] := by
      rw [← htext, n.text_of_dot hdot, splitOn_one_dot hfront hfraction]
    refine ⟨?_, ?_, ?_⟩
    · rw [fractionBytes, hparts, Numeral.places]
      exact byteLength_of_digits n.fractionDigits
    · rw [← htext, n.text_of_dot hdot, List.count_append, List.count_cons_self,
        List.count_eq_zero_of_not_mem hfront, List.count_eq_zero_of_not_mem hfraction]
    · rw [← htext, n.text_of_dot hdot, List.filter_append, List.filter_cons_of_neg (by decide),
        filter_ne_of_not_mem hfront, filter_ne_of_not_mem hfraction]

/-- A numeral that fits reads as its digits, padded. -/
theorem cryptoFromStringFloat_of_numeral (n : Numeral) (htext : n.text = s.toList)
    (hfit : n.places ≤ decimals.toNat) (hd : 0 ≤ decimals) (ticker : String) :
    cryptoFromStringFloat ticker s decimals =
      .ok (crypto ticker (n.sign.factor * (Nat.ofDigitChars 10 (n.whole ++ n.fraction ++
        List.replicate (decimals.toNat - n.places) '0') 0 : ℕ)) decimals) := by
  obtain ⟨hbytes, hdots, hbody⟩ := fractionBytes_of_numeral n htext
  have hsigned := n.isSigned_digits.append (isDigits_zeros (decimals.toNat - n.places))
  have hkept := filter_ne_of_not_mem
    (hsigned.not_mem (c := '_') (by decide) (by decide) (by decide))
  rw [cryptoFromStringFloat_of_fits hdots (by omega), hbytes, hbody]
  rw [← hkept] at hsigned
  refine new_of_signed hsigned ?_ ticker decimals
  intro hnil
  exact n.someDigit (List.append_eq_nil_iff.mp hnil).1

end

def signOf (value : Int) : Sign := if value < 0 then .minus else .absent

theorem signOf_mul_natAbs (value : Int) : (signOf value).factor * (value.natAbs : Int) = value := by
  unfold signOf
  by_cases h : value < 0
  · rw [if_pos h, Sign.factor]
    omega
  · rw [if_neg h, Sign.factor]
    omega

theorem toString_toList (value : Int) :
    (toString value).toList = (signOf value).text ++ Nat.toDigits 10 value.natAbs := by
  rw [Int.toString_eq_repr, Int.repr_eq_if]
  by_cases h : 0 ≤ value
  · have habs : value.toNat = value.natAbs := by omega
    rw [if_pos h, signOf, if_neg (by omega), habs]
    simp [Nat.repr, Sign.text]
  · have habs : (-value).toNat = value.natAbs := by omega
    rw [if_neg h, signOf, if_pos (by omega), habs]
    simp [Nat.repr, Sign.text]

/-- The digits of an amount with the dot in front of the last `d`. -/
def pointed (d : ℕ) (digits : List Char) : List Char :=
  if d < digits.length then
    digits.take (digits.length - d) ++ ['.'] ++ digits.drop (digits.length - d)
  else ['0', '.'] ++ List.replicate (d - digits.length) '0' ++ digits

theorem string_toList {m : Money} (hm : m.moneyType = .crypto) :
    m.string.toList = (signOf m.value).text ++
      trimRight '.' (trimRight '0'
        (pointed m.decimals.toNat (Nat.toDigits 10 m.value.natAbs))) := by
  have hcrypto : ¬ m.moneyType = .fiat := by rw [hm]; decide
  have hraw := toString_toList m.value
  by_cases hneg : m.value < 0
  · have hsign : m.isNegative = true := by simp [isNegative, hneg]
    have hminus : signOf m.value = .minus := by rw [signOf, if_pos hneg]
    rw [hminus] at hraw ⊢
    have hdigits : (toString m.value).toList.drop 1 = Nat.toDigits 10 m.value.natAbs := by
      rw [hraw]
      rfl
    simp only [string, hsign, hdigits, if_true, if_neg hcrypto, String.toList_ofList]
    rfl
  · have hsign : m.isNegative = false := by simp [isNegative, not_lt.mp hneg]
    have habsent : signOf m.value = .absent := by rw [signOf, if_neg hneg]
    rw [habsent] at hraw ⊢
    have hdigits : (toString m.value).toList = Nat.toDigits 10 m.value.natAbs := hraw
    simp only [string, hsign, hdigits, Bool.false_eq_true, if_false, if_neg hcrypto,
      String.toList_ofList]
    rfl

/-- Before anything is trimmed there are whole digits, a dot and a digit for
each decimal. -/
theorem pointed_eq (d : ℕ) {digits : List Char} (hdigits : IsDigits digits) :
    ∃ whole fraction, IsDigits whole ∧ whole ≠ [] ∧ IsDigits fraction ∧ fraction.length = d ∧
      Nat.ofDigitChars 10 (whole ++ fraction) 0 = Nat.ofDigitChars 10 digits 0 ∧
      pointed d digits = whole ++ '.' :: fraction := by
  unfold pointed
  by_cases hlong : d < digits.length
  · refine ⟨digits.take (digits.length - d), digits.drop (digits.length - d), ?_, ?_,
      ?_, ?_, ?_, ?_⟩
    · intro c hc
      exact hdigits c (List.mem_of_mem_take hc)
    · intro hnil
      have hlength := congrArg List.length hnil
      simp only [List.length_take, List.length_nil] at hlength
      omega
    · intro c hc
      exact hdigits c (List.mem_of_mem_drop hc)
    · rw [List.length_drop]
      omega
    · rw [List.take_append_drop]
    · rw [if_pos hlong, List.append_assoc]
      rfl
  · have hpad : IsDigits (List.replicate (d - digits.length) '0' ++ digits) :=
      (isDigits_zeros _).append hdigits
    refine ⟨['0'], List.replicate (d - digits.length) '0' ++ digits,
      isDigits_zeros 1, by simp, hpad,
      ?_, ?_, ?_⟩
    · rw [List.length_append, List.length_replicate]
      omega
    · have hlead : Nat.ofDigitChars 10 ['0'] 0 = 0 := by decide
      rw [Nat.ofDigitChars_append, Nat.ofDigitChars_append, hlead, Nat.ofDigitChars_replicate_zero,
        Nat.mul_zero]
    · rw [if_neg hlong, List.append_assoc]
      rfl

/-- The text of an amount is a numeral: its sign, its digits with a dot in
front of the last ones, and no zeros at the end. -/
theorem string_numeral {m : Money} (hm : m.moneyType = .crypto) :
    ∃ n : Numeral, n.text = m.string.toList ∧ n.sign = signOf m.value ∧
      n.places ≤ m.decimals.toNat ∧
      Nat.ofDigitChars 10 (n.whole ++ n.fraction ++
        List.replicate (m.decimals.toNat - n.places) '0') 0 = m.value.natAbs := by
  obtain ⟨whole, fraction, hwhole, hne, hfraction, hlength, hvalue, htext⟩ :=
    pointed_eq m.decimals.toNat (isDigits_toDigits m.value.natAbs)
  refine ⟨.trimmed (signOf m.value) hwhole hne hfraction, ?_, rfl, ?_, ?_⟩
  · rw [Numeral.text_trimmed, string_toList hm, htext, ← trimmed_of_digits hwhole hfraction]
    rfl
  · rw [← hlength]
    exact (List.rdropWhile_prefix _ fraction).length_le
  · have hpadded := rdropWhile_append_replicate '0' fraction
    have hread : Nat.ofDigitChars 10 (whole ++ fraction) 0 = m.value.natAbs := by
      rw [hvalue, Nat.ofDigitChars_ten_toDigits]
    rw [← hlength, List.append_assoc, ← hread]
    exact congrArg (fun cs => Nat.ofDigitChars 10 (whole ++ cs) 0) hpadded

/-- An amount of a currency is what its text parses to. -/
theorem cryptoFromStringFloat_string {ticker : String} {value decimals : Int}
    (hd : 0 ≤ decimals) :
    cryptoFromStringFloat ticker (crypto ticker value decimals).string decimals =
      .ok (crypto ticker value decimals) := by
  obtain ⟨n, htext, hsign, hplaces, hvalue⟩ :=
    string_numeral (m := crypto ticker value decimals) rfl
  have hread : Nat.ofDigitChars 10 (n.whole ++ n.fraction ++
      List.replicate (decimals.toNat - n.places) '0') 0 = value.natAbs := hvalue
  have hback : (signOf value).factor * (value.natAbs : Int) = value := signOf_mul_natAbs value
  have hfit : n.places ≤ decimals.toNat := hplaces
  rw [cryptoFromStringFloat_of_numeral n htext hfit hd, hread, hsign]
  exact congrArg (fun v => Except.ok (crypto ticker v decimals)) hback

theorem setString_clear_toString (value : Int) :
    setString (clear (toString value)) = some value := by
  have hsigned : IsSigned (toString value).toList (signOf value)
      (Nat.toDigits 10 value.natAbs) := ⟨toString_toList value, isDigits_toDigits _⟩
  have hkept := filter_ne_of_not_mem
    (hsigned.not_mem (c := '_') (by decide) (by decide) (by decide))
  rw [← hkept, ← toList_clear, String.ofList_toList] at hsigned
  rw [setString_of_signed hsigned Nat.toDigits_ne_nil, Nat.ofDigitChars_ten_toDigits,
    signOf_mul_natAbs]

/-- So does the text of its smallest units. -/
theorem new_toString (ticker : String) (value decimals : Int) :
    new .crypto ticker (toString value) decimals = .ok (crypto ticker value decimals) := by
  rw [new, setString_clear_toString]
  rfl

/-- A dot is not read, and not taken out. -/
theorem setString_clear_of_dot {cs : List Char} (h : '.' ∈ cs) :
    setString (clear (String.ofList cs)) = none := by
  cases hread : setString (clear (String.ofList cs)) with
  | none => rfl
  | some v =>
    obtain ⟨sign, digits, hsigned, -⟩ := signed_of_setString hread
    have hdot : '.' ∉ (clear (String.ofList cs)).toList :=
      hsigned.not_mem (by decide) (by decide) (by decide)
    rw [toList_clear] at hdot
    exact absurd (List.mem_filter.mpr ⟨h, by decide⟩) hdot

end Money

end CryptoLink
