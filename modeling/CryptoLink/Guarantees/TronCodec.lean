import CryptoLink.Services.TronAddresses

/-!
# The TRON address codec

The decoder reads letters one by one and counts the ones in front; both agree
with the digits the standard encoding writes.
-/

namespace CryptoLink

namespace TronAddress

theorem indexRune_letter {d : ℕ} (h : d < 58) : indexRune alphabet (Base58.letter d) = some d :=
  Base58.digit_letter h

theorem letter_one_iff {d : ℕ} (h : d < 58) : Base58.letter d = '1' ↔ d = 0 := by
  have hall : ∀ d < 58, Base58.letter d = '1' ↔ d = 0 := by decide +kernel
  exact hall d h

theorem readLetters_letters {ds : List ℕ} (h : ∀ d ∈ ds, d < 58) (n : ℕ) :
    readLetters n (ds.map Base58.letter) = some (ds.foldl (fun n d => n * 58 + d) n) := by
  induction ds generalizing n with
  | nil => rfl
  | cons d ds ih =>
    have hd := indexRune_letter (h d List.mem_cons_self)
    have hds := ih (fun e he => h e (List.mem_cons_of_mem d he)) (n * 58 + d)
    rw [List.map_cons, readLetters, hd]
    dsimp only
    rw [hds, List.foldl_cons]

theorem countLeadingOnes_letters {ds : List ℕ} (h : ∀ d ∈ ds, d < 58) :
    countLeadingOnes (ds.map Base58.letter) = Base58.zeros ds := by
  induction ds with
  | nil => rfl
  | cons d ds ih =>
    have hds := ih fun e he => h e (List.mem_cons_of_mem d he)
    have hone := letter_one_iff (h d List.mem_cons_self)
    rw [List.map_cons, countLeadingOnes]
    by_cases hd : d = 0
    · have hzeros : Base58.zeros (d :: ds) = Base58.zeros ds + 1 := by simp [Base58.zeros, hd]
      rw [if_neg (not_not_intro (hone.mpr hd)), hds, hzeros]
    · have hzeros : Base58.zeros (d :: ds) = 0 := by simp [Base58.zeros, hd]
      rw [if_pos fun hc => hd (hone.mp hc), hzeros]

/-- On letters the decoder is a change of base. -/
theorem base58Decode_letters {ds : List ℕ} (h : ∀ d ∈ ds, d < 58) :
    base58Decode (String.ofList (ds.map Base58.letter)) =
      some ((Base58.recode 58 256 ds).map UInt8.ofNat) := by
  rw [base58Decode, String.toList_ofList, readLetters_letters h, countLeadingOnes_letters h,
    Base58.recode, List.map_append, List.map_replicate]
  rfl

theorem base58Decode_base58Encode (b : List UInt8) : base58Decode (base58Encode b) = some b := by
  have hbytes : ∀ d ∈ b.map UInt8.toNat, d < 256 := by
    intro d hd
    obtain ⟨x, -, rfl⟩ := List.mem_map.mp hd
    exact x.toNat_lt
  have hletters : ∀ d ∈ Base58.recode 256 58 (b.map UInt8.toNat), d < 58 := fun d hd =>
    Base58.recode_lt (by omega) hd
  have hback : (b.map UInt8.toNat).map UInt8.ofNat = b := by
    rw [List.map_map]
    exact List.map_id'' (fun x => UInt8.ofNat_toNat) b
  rw [base58Encode, Base58.encode, base58Decode_letters hletters,
    Base58.recode_recode (by omega) (by omega) hbytes, hback]

theorem readLetters_foreign {cs : List Char} {c : Char} (hc : c ∈ cs)
    (hforeign : c ∉ Base58.alphabet) (n : ℕ) : readLetters n cs = none := by
  induction cs generalizing n with
  | nil => cases hc
  | cons c' cs ih =>
    rw [readLetters]
    cases hindex : indexRune alphabet c' with
    | none => rfl
    | some idx =>
      rcases List.mem_cons.mp hc with rfl | hrest
      · have hnone : indexRune alphabet c = none := if_neg hforeign
        rw [hnone] at hindex
        cases hindex
      · exact ih hrest _

theorem base58Decode_foreign {s : String} {c : Char} (hc : c ∈ s.toList)
    (hforeign : c ∉ Base58.alphabet) : base58Decode s = none := by
  rw [base58Decode, readLetters_foreign hc hforeign]

theorem hexDecodeString_formatHex (b : List UInt8) : hexDecodeString (formatHex b) = b := by
  rw [hexDecodeString, formatHex, String.toList_ofList, Hexadecimal.read_write]

theorem tronBase58ToHex_address (sha256 : List UInt8 → List UInt8) {a : List UInt8}
    (ha : a.length = 21) :
    tronBase58ToHex (tronHexToBase58 sha256 (formatHex a)) = formatHex a := by
  have hlong : ¬ (a ++ (sha256 (sha256 a)).take 4).length < 21 := by
    rw [List.length_append]
    omega
  have hfront : (a ++ (sha256 (sha256 a)).take 4).take 21 = a := by
    rw [List.take_append_of_le_length (by omega), List.take_of_length_le (by omega)]
  simp only [tronBase58ToHex, tronHexToBase58, hexDecodeString_formatHex,
    base58Decode_base58Encode, Option.getD_some]
  rw [if_neg hlong, hfront]

/-- Decoding undoes the standard encoding, refuses foreign characters, and an address
comes back from base 58 as it went. -/
theorem tron_address_codec (sha256 : List UInt8 → List UInt8) :
    (∀ b, base58Decode (base58Encode b) = some b) ∧
      (∀ s : String, (∃ c ∈ s.toList, c ∉ alphabet.toList) → base58Decode s = none) ∧
        ∀ a : List UInt8, a.length = 21 →
          tronBase58ToHex (tronHexToBase58 sha256 (formatHex a)) = formatHex a := by
  refine ⟨base58Decode_base58Encode, ?_, ?_⟩
  · rintro s ⟨c, hc, hforeign⟩
    exact base58Decode_foreign hc hforeign
  · intro a ha
    exact tronBase58ToHex_address sha256 ha

end TronAddress

end CryptoLink
