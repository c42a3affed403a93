import CryptoLink.Services.Receipts

/-!
# Missing parts of a receipt

The block of a receipt and the recipient of its transaction are read without a
check, after the fee and the sender. A contract creation has no recipient.
-/

namespace CryptoLink

namespace Receipts

variable {recoverSender : Int → EthTransaction → Except String String}

/-- The fee can be worked out and the sender recovered. -/
def Readable (recoverSender : Int → EthTransaction → Except String String) (a : EthAnswer) :
    Prop :=
  a.receipt.effectiveGasPrice.isSome = true ∧ 0 < int64 a.receipt.gasUsed ∧
    ∃ sender, recoverSender a.tx.chainID a.tx = .ok sender

/-- The parts used after that are there. -/
def Complete (a : EthAnswer) : Prop :=
  a.receipt.blockNumber.isSome = true ∧ a.tx.toAddress.isSome = true

/-- Wrapping an error that is no panic leaves it none. -/
theorem panics_wrapErr {α β : Type} (message : String) (x : Except Err α) (f : α → Except Err β)
    (hx : panics x = false) :
    panics (wrapErr message x >>= f) = true ↔ ∃ a, x = .ok a ∧ panics (f a) = true := by
  cases x with
  | ok a =>
    constructor
    · exact fun h => ⟨a, rfl, h⟩
    · rintro ⟨b, hb, h⟩
      cases hb
      exact h
  | error e =>
    have hsame : panics (wrapErr message (Except.error e) >>= f) = false := by
      obtain ⟨cause, context⟩ := e
      cases cause <;> first | rfl | cases hx
    constructor
    · intro h
      rw [hsame] at h
      cases h
    · rintro ⟨b, hb, -⟩
      cases hb

theorem getEthReceipt_panics_iff (nativeCoin : CryptoCurrency) (txID : String)
    (requiredConfirmations : Int) (isTest : Bool) (a : EthAnswer) :
    panics (getEthReceipt recoverSender nativeCoin txID requiredConfirmations isTest (.ok a)) =
      true ↔ Readable recoverSender a ∧ ¬ Complete a := by
  obtain ⟨tx, receipt, num⟩ := a
  have hprice : panics (makeAmountFromBigInt nativeCoin receipt.effectiveGasPrice) = false := by
    cases receipt.effectiveGasPrice <;> rfl
  have hfee : ∀ m : Money, panics (multiplyInt64 m (int64 receipt.gasUsed)) = false := by
    intro m
    rw [multiplyInt64]
    split <;> rfl
  have hsender : panics ((recoverSender tx.chainID tx).mapError Err.new) = false := by
    cases recoverSender tx.chainID tx <;> rfl
  have hend : ∀ (sender : String) (networkFee : Money),
      panics (dereference receipt.blockNumber >>= fun minedAt =>
        let confirmations := Int.bmod (int64 num - Int.bmod minedAt (2 ^ 64)) (2 ^ 64)
        dereference tx.toAddress >>= fun recipient =>
          (pure ⟨nativeCoin.blockchain, isTest, sender, recipient, txID, tx.nonce, networkFee,
            receipt.status = 1, confirmations, requiredConfirmations ≤ confirmations⟩ :
              Except Err TransactionReceipt)) = true ↔ ¬ Complete ⟨tx, receipt, num⟩ := by
    intro sender networkFee
    cases hblock : receipt.blockNumber with
    | none => simp [Complete, hblock, dereference, panics, Bind.bind, Except.bind, Err.of]
    | some minedAt =>
      cases hto : tx.toAddress with
      | none => simp [Complete, hblock, hto, dereference, panics, Bind.bind, Except.bind, Err.of]
      | some recipient => simp [Complete, hblock, hto, dereference, panics, Bind.bind, Except.bind,
          pure, Except.pure]
  have hrun : panics (getEthReceipt recoverSender nativeCoin txID requiredConfirmations isTest
      (.ok ⟨tx, receipt, num⟩)) = true ↔
      ∃ gasPrice, makeAmountFromBigInt nativeCoin receipt.effectiveGasPrice = .ok gasPrice ∧
        ∃ networkFee, multiplyInt64 gasPrice (int64 receipt.gasUsed) = .ok networkFee ∧
          ∃ sender, (recoverSender tx.chainID tx).mapError Err.new = .ok sender ∧
            ¬ Complete ⟨tx, receipt, num⟩ := by
    refine (panics_wrapErr _ _ _ hprice).trans ?_
    refine exists_congr fun gasPrice => and_congr_right fun _ => ?_
    refine (panics_wrapErr _ _ _ (hfee gasPrice)).trans ?_
    refine exists_congr fun networkFee => and_congr_right fun _ => ?_
    refine (panics_wrapErr _ _ _ hsender).trans ?_
    exact exists_congr fun sender => and_congr_right fun _ => hend sender networkFee
  rw [hrun]
  constructor
  · rintro ⟨gasPrice, hgas, networkFee, hmultiply, sender, hrecover, hmissing⟩
    refine ⟨⟨?_, ?_, ?_⟩, hmissing⟩
    · dsimp only
      cases hnone : receipt.effectiveGasPrice with
      | some value => rfl
      | none =>
        rw [hnone] at hgas
        cases hgas
    · rw [multiplyInt64] at hmultiply
      split at hmultiply
      · cases hmultiply
      · dsimp only
        omega
    · dsimp only
      cases hsome : recoverSender tx.chainID tx with
      | ok sender' => exact ⟨sender', rfl⟩
      | error e =>
        rw [hsome] at hrecover
        cases hrecover
  · rintro ⟨⟨hgas, hused, sender, hrecover⟩, hmissing⟩
    obtain ⟨value, hvalue⟩ := Option.isSome_iff_exists.mp hgas
    dsimp only at hvalue hused hrecover
    refine ⟨Money.crypto nativeCoin.ticker value nativeCoin.decimals, ?_, _, if_neg (by omega),
      sender, ?_, hmissing⟩
    · rw [hvalue, makeAmountFromBigInt]
    · rw [hrecover]
      rfl

/-- The process survives a batch exactly when no answer is readable and yet incomplete. -/
theorem batch_survives_iff (recoverSender : Int → EthTransaction → Except String String)
    (checks : List Check) :
    (batchReceipts recoverSender checks).isSome = true ↔
      ∀ c ∈ checks, Readable recoverSender c.answer → Complete c.answer := by
  have hany : (checks.map fun c => getEthReceipt recoverSender c.nativeCoin c.hash
      c.requiredConfirmations c.isTest (.ok c.answer)).any panics = true ↔
      ∃ c ∈ checks, Readable recoverSender c.answer ∧ ¬ Complete c.answer := by
    rw [List.any_eq_true]
    constructor
    · rintro ⟨r, hr, hpanics⟩
      obtain ⟨c, hc, rfl⟩ := List.mem_map.mp hr
      exact ⟨c, hc, (getEthReceipt_panics_iff ..).mp hpanics⟩
    · rintro ⟨c, hc, hbad⟩
      exact ⟨_, List.mem_map_of_mem hc, (getEthReceipt_panics_iff ..).mpr hbad⟩
  rw [batchReceipts]
  split
  · rename_i hpanics
    obtain ⟨c, hc, hreadable, hmissing⟩ := hany.mp hpanics
    constructor
    · exact fun h => by cases h
    · exact fun h => absurd (h c hc hreadable) hmissing
  · rename_i hpanics
    constructor
    · intro _ c hc hreadable
      by_contra hmissing
      exact hpanics (hany.mpr ⟨c, hc, hreadable, hmissing⟩)
    · exact fun _ => rfl

/-- A contract was created, at a price, in block 100. -/
def creation : Check where
  nativeCoin := ⟨"ETH", "1", "5", .coin, "ETH", "ETH", 18, "", "", [], false⟩
  hash := "0x5c504ed432cb51138bcf09aa5e8a410dd4a1e204ef84bfed1be16dfba1b22060"
  requiredConfirmations := 12
  isTest := false
  answer := ⟨⟨1, none, 0⟩, ⟨some 1000000000, 21000, some 100, 1⟩, 120⟩

/-- The hash of a contract creation ends the process. -/
theorem creation_ends_process : ¬ ∀ (recoverSender : Int → EthTransaction → Except String String)
    (checks : List Check), (batchReceipts recoverSender checks).isSome = true := by
  intro h
  have hcrash : batchReceipts (fun _ _ => .ok "0xA1E4380A3B1f749673E270229993eE55F35663b4")
      [creation] = none := by
    decide
  have hsurvives := h (fun _ _ => .ok "0xA1E4380A3B1f749673E270229993eE55F35663b4") [creation]
  rw [hcrash] at hsurvives
  cases hsurvives

end Receipts

end CryptoLink
