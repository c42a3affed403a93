import CryptoLink.Marketing.Footer

/-!
# Where the footer goes

The lower-case copy has the tag after the lower-cased text before it, and the
body has it after that text itself. The footer is put right where both have the
same number of bytes.
-/

namespace CryptoLink

namespace Marketing

open TextSearch

theorem closingTag_ascii : ∀ t ∈ closingTag, t.toNat ≤ 127 := by
  have hall : closingTag.all (fun t => t.toNat ≤ 127) = true := by decide
  intro t ht
  exact of_decide_eq_true (List.all_eq_true.mp hall t ht)

/-- The last closing tag in any case, as a place among the characters. -/
def lastTag (body : String) : Option ℕ :=
  lastIndex closingTag (body.toList.map Char.toLower)

/-- The place in bytes, or the end of the body. -/
def insertionPoint (body : String) : ℕ :=
  match lastTag body with
  | some i => (utf8 (body.toList.take i)).length
  | none => (utf8 body.toList).length

/-- A tag stands at the place and at no later one. -/
theorem lastTag_spec {body : String} {i : ℕ} (h : lastTag body = some i) :
    closingTag <+: (body.toList.drop i).map Char.toLower ∧ i ≤ body.toList.length ∧
      ∀ j ≤ body.toList.length, closingTag <+: (body.toList.drop j).map Char.toLower → j ≤ i := by
  obtain ⟨hbegins, hle⟩ := prefix_of_lastIndex h
  rw [← List.map_drop] at hbegins
  rw [List.length_map] at hle
  refine ⟨hbegins, hle, ?_⟩
  intro j hj htag
  rw [List.map_drop] at htag
  exact le_lastIndex h (by rwa [List.length_map]) htag

/-- Lower case by Unicode or by ASCII finds the same tags. -/
theorem lastIndex_copy (body : String) :
    lastIndex (utf8 closingTag) (utf8 (lower body).toList) =
      (lastTag body).map fun i => (utf8 ((body.toList.take i).map LetterCase.toLower)).length := by
  have hletters : ∀ c, ∀ t ∈ closingTag, LetterCase.toLower c = t ↔ c.toLower = t := by
    intro c t ht
    have hall : closingTag.all (fun t => decide (t.toNat ≤ 127 ∧ t.toNat ≠ 0 ∧ t.toNat ≠ 105 ∧
        t.toNat ≠ 107)) = true := by decide
    obtain ⟨hascii, hzero, hi, hk⟩ := of_decide_eq_true (List.all_eq_true.mp hall t ht)
    exact LetterCase.toLower_eq_iff hascii hzero hi hk
  rw [lower, String.toList_ofList, lastIndex_utf8 (by decide) closingTag_ascii,
    lastIndex_map_congr hletters, lastTag]
  simp only [List.map_take]

/-- A block put in at two places gives the same list exactly if it commutes with what
lies between. -/
theorem insert_eq_iff {α : Type} {a b c x : List α} :
    a ++ x ++ (b ++ c) = a ++ b ++ x ++ c ↔ x ++ b = b ++ x := by
  rw [List.append_assoc, List.append_assoc, List.append_assoc, List.append_cancel_left_eq,
    ← List.append_assoc, ← List.append_assoc, List.append_cancel_right_eq]

/-- The footer starts like a tag that is not closed. -/
theorem footer_start (unsubLink : String) : ∃ rest, footer unsubLink = 60 :: 100 :: rest := by
  refine ⟨utf8 (footerStart.toList.drop 2 ++ unsubLink.toList ++ footerEnd.toList), ?_⟩
  have hstart : footerStart.toList = '<' :: 'd' :: footerStart.toList.drop 2 := by
    decide +kernel
  conv_lhs => rw [footer, hstart, List.append_assoc, List.cons_append, List.cons_append]
  rw [utf8_ascii_cons (by decide), utf8_ascii_cons (by decide), List.append_assoc]
  rfl

/-- What follows the place of a tag starts like one. -/
theorem tag_start {body : String} {i : ℕ} (h : lastTag body = some i) :
    ∃ rest, utf8 (body.toList.drop i) = 60 :: 47 :: rest := by
  obtain ⟨⟨rest, hrest⟩, -, -⟩ := lastTag_spec h
  have hpair : ∀ c : Char, ∀ t ∈ ['<', '/'], c.toLower = t → c = t := by
    intro c t ht hc
    have hall : ['<', '/'].all (fun t => t.toNat ≤ 127) = true := by decide
    have hsmall_t := of_decide_eq_true (List.all_eq_true.mp hall t ht)
    by_cases hascii : c.toNat ≤ 127
    · have hsmall : (List.range 128).all (fun n => ['<', '/'].all fun t =>
          decide ((Char.ofNat n).toLower = t → Char.ofNat n = t)) = true := by decide +kernel
      have hrow := List.all_eq_true.mp hsmall c.toNat (List.mem_range.mpr (by omega))
      have hthis := of_decide_eq_true (List.all_eq_true.mp hrow t ht)
      rw [Char.ofNat_toNat] at hthis
      exact hthis hc
    · rwa [LetterCase.asciiToLower_wide (by omega)] at hc
  have htag : closingTag = '<' :: '/' :: closingTag.drop 2 := by decide
  rw [htag] at hrest
  cases hdrop : body.toList.drop i with
  | nil =>
    rw [hdrop] at hrest
    cases hrest
  | cons c cs =>
    cases cs with
    | nil =>
      have hlength := congrArg List.length hrest
      rw [hdrop] at hlength
      simp at hlength
    | cons d ds =>
      rw [hdrop, List.map_cons, List.map_cons, List.cons_append, List.cons_append] at hrest
      obtain ⟨hc, hrest⟩ := List.cons.inj hrest
      obtain ⟨hd, -⟩ := List.cons.inj hrest
      rw [hpair c '<' (by simp) hc.symm, hpair d '/' (by simp) hd.symm]
      exact ⟨utf8 ds, by rw [utf8_ascii_cons (by decide), utf8_ascii_cons (by decide)]; rfl⟩

/-- No part of a tag commutes with the footer. -/
theorem not_commute {xs ys rest : List UInt8} (h : xs ++ ys = 60 :: 47 :: rest)
    (hne : xs ≠ []) (unsubLink : String) : footer unsubLink ++ xs ≠ xs ++ footer unsubLink := by
  obtain ⟨fs, hfooter⟩ := footer_start unsubLink
  rw [hfooter]
  intro hcommute
  cases xs with
  | nil => exact hne rfl
  | cons x xs =>
    cases xs with
    | nil =>
      simp only [List.cons_append, List.nil_append, List.cons.injEq] at hcommute
      exact absurd hcommute.2.1 (by decide)
    | cons y ys =>
      simp only [List.cons_append, List.cons.injEq] at hcommute h
      rw [h.2.1] at hcommute
      exact absurd hcommute.2.1 (by decide)

/-- In front of a closing tag the lower-cased text is as long as the text, or shorter by
bytes that commute with the footer. -/
def Aligned (body unsubLink : String) : Prop :=
  ∀ i, lastTag body = some i →
    let before := utf8 (body.toList.take i)
    let idx := (utf8 ((body.toList.take i).map LetterCase.toLower)).length
    idx = before.length ∨ idx < before.length ∧
      footer unsubLink ++ before.drop idx = before.drop idx ++ footer unsubLink

/-- The footer stands at the insertion point, with the body unharmed around it. -/
def Injected (body unsubLink : String) : Prop :=
  injectUnsubscribeFooter body unsubLink =
    .ok ((utf8 body.toList).take (insertionPoint body) ++ footer unsubLink ++
      (utf8 body.toList).drop (insertionPoint body))

/-- The footer goes in at the right place exactly where the two texts line up. -/
theorem injected_iff (body unsubLink : String) :
    Injected body unsubLink ↔ Aligned body unsubLink := by
  rw [Injected, Aligned, injectUnsubscribeFooter, lastIndex_copy, insertionPoint]
  cases htag : lastTag body with
  | none =>
    simp only [Option.map_none, List.take_length, List.drop_length, List.append_nil]
    constructor
    · exact fun _ i hi => by cases hi
    · exact fun _ => trivial
  | some i =>
    obtain ⟨before, hbefore⟩ : ∃ before, before = utf8 (body.toList.take i) := ⟨_, rfl⟩
    obtain ⟨after, hafter⟩ : ∃ after, after = utf8 (body.toList.drop i) := ⟨_, rfl⟩
    obtain ⟨idx, hidx⟩ : ∃ idx, idx =
        (utf8 ((body.toList.take i).map LetterCase.toLower)).length := ⟨_, rfl⟩
    have hbody : utf8 body.toList = before ++ after := by
      rw [hbefore, hafter, ← utf8_append, List.take_append_drop]
    obtain ⟨rest, hrest⟩ := tag_start htag
    rw [← hafter] at hrest
    simp only [Option.map_some, ← hidx, ← hbefore, hbody, List.take_left, List.drop_left]
    have hall : (∀ j, some i = some j →
        (let before := utf8 (body.toList.take j)
         let idx := (utf8 ((body.toList.take j).map LetterCase.toLower)).length
         idx = before.length ∨ idx < before.length ∧
          footer unsubLink ++ before.drop idx = before.drop idx ++ footer unsubLink)) ↔
        (idx = before.length ∨ idx < before.length ∧
          footer unsubLink ++ before.drop idx = before.drop idx ++ footer unsubLink) := by
      rw [hbefore, hidx]
      constructor
      · exact fun h => h i rfl
      · intro h j hj
        cases hj
        exact h
    rw [hall]
    rcases Nat.lt_trichotomy idx before.length with hless | hequal | hgreater
    · -- the footer is put too early
      have hin : idx ≤ (before ++ after).length := by
        rw [List.length_append]
        omega
      rw [if_pos hin, List.take_append_of_le_length hless.le,
        List.drop_append_of_le_length hless.le]
      conv_lhs =>
        rhs
        rw [← List.take_append_drop idx before]
      rw [Except.ok.injEq, insert_eq_iff]
      constructor
      · exact fun h => .inr ⟨hless, h⟩
      · rintro (heq | ⟨-, h⟩)
        · omega
        · exact h
    · have hin : idx ≤ (before ++ after).length := by
        rw [List.length_append]
        omega
      rw [if_pos hin, hequal, List.take_left, List.drop_left]
      exact ⟨fun _ => .inl rfl, fun _ => rfl⟩
    · -- too late, or beyond the end
      constructor
      · split
        · rename_i hin
          intro h
          rw [Except.ok.injEq] at h
          obtain ⟨n, hn⟩ : ∃ n, idx = before.length + n := ⟨idx - before.length, by omega⟩
          have htake : (before ++ after).take idx = before ++ after.take n := by
            rw [hn, List.take_length_add_append]
          have hdrop : (before ++ after).drop idx = after.drop n := by
            rw [hn, List.drop_length_add_append]
          have hpart : after.take n ≠ [] := by
            rw [hrest]
            cases n with
            | zero => omega
            | succ n => exact (fun h => by cases h)
          rw [htake, hdrop] at h
          conv_rhs at h =>
            rhs
            rw [← List.take_append_drop n after]
          rw [eq_comm, insert_eq_iff] at h
          have hsplit : after.take n ++ after.drop n = 60 :: 47 :: rest :=
            (List.take_append_drop n after).trans hrest
          exact absurd h (not_commute hsplit hpart unsubLink)
        · exact fun h => by cases h
      · rintro (heq | ⟨hless, -⟩)
        · omega
        · omega

/-- Eight letters that grow by a byte each in lower case, and a closing tag. -/
def growing : String := "ȺȺȺȺȺȺȺȺ</body>"

/-- The copy is longer than the body, and the slice panics. -/
theorem growing_body_panics : ¬ ∀ body unsubLink, Injected body unsubLink := by
  intro h
  have hpanics : injectUnsubscribeFooter growing "" =
      .error (Err.of (.panic "slice bounds out of range")) := by
    decide +kernel
  have hinjected := h growing ""
  rw [Injected, hpanics] at hinjected
  cases hinjected

end Marketing

end CryptoLink
