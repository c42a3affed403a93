import CryptoLink.Library.Outcomes
import CryptoLink.Merchants.Tables

/-!
# Whose rows a statement writes

An id or a UUID belongs to one merchant for good. Where the tables agree with
that, whose rows a statement writes can be read off the statement alone.
-/

namespace CryptoLink

namespace MerchantAPI

open KeyedTables ReadCommitted StatementPrograms

/-- Whose an id, a UUID or the text of a token is. A token that is no merchant's
has no owner, and then its text stands for a user. -/
structure Titles where
  token : Int → Option Int
  wallet : Int → Int
  merchant : String → Int
  user : String → Int

/-- The rows agree with the titles. -/
structure Titled (t : Titles) (w : World) : Prop where
  merchants : ∀ m ∈ w.merchants.rows, t.merchant m.uuid = m.id
  serials : ∀ m ∈ w.merchants.rows, m.id ≠ Transaction.merchantIDWildcard
  tokens : ∀ x ∈ w.tokens.rows, t.token x.id = x.owner
  users : ∀ x ∈ w.tokens.rows, x.entityType = .user → t.user x.token = x.entityID
  wallets : ∀ x ∈ w.xpubWallets.rows, t.wallet x.id = x.merchantID
  addresses : ∀ a ∈ w.derivedAddresses.rows, t.wallet a.xpubWalletID = a.merchantID

/-- A sequence gives the row of a merchant an id of that merchant. -/
def Titles.admits (t : Titles) : Cmd Stmt → Env → Prop
  | .stmt _ (.createAPIToken p), env => t.token env.id = some p.entityID
  | .stmt _ (.createXpubWallet p), env => t.wallet env.id = p.merchantID
  | _, _ => True

instance (t : Titles) (c : Cmd Stmt) (env : Env) : Decidable (t.admits c env) := by
  delta Titles.admits
  induction c using Cmd.casesOn with
  | stmt q st => induction st using Stmt.casesOn <;> infer_instance
  | _ => infer_instance

/-- The statement writes no row of merchant `b`, and no row against the titles. -/
def Stmt.spares (t : Titles) (b : Int) : Stmt → Prop
  | .updateMerchant id .. => id ≠ b
  | .updateMerchantSettings id .. => id ≠ b
  | .softDeleteMerchantByUUID uuid => t.merchant uuid ≠ b
  | .createAPIToken p => p.entityType = .merchant ∧ p.entityID ≠ b
  | .deleteAPITokenByID id => t.token id ≠ some b
  | .createXpubWallet p => p.merchantID ≠ b
  | .createDerivedAddress p => p.merchantID ≠ b ∧ t.wallet p.xpubWalletID = p.merchantID
  | .updateXpubWalletLastIndex id .. => t.wallet id ≠ b
  | .markAddressAsUsed .. => False
  | .deleteDerivedAddressesByWalletID id => t.wallet id ≠ b
  | .hardDeleteXpubWallet id => t.wallet id ≠ b
  | .upsertCollector p => p.merchantID ≠ b
  | .deactivateCollector m .. => m ≠ b
  | .createPayment p => p.merchantID ≠ b
  | .updatePayment p => p.merchantID ≠ b
  | .createPaymentLink p => p.merchantID ≠ b
  | .deletePaymentLinkByPublicID m _ => m ≠ b
  | _ => True

section

variable {t : Titles} {b : Int} {env : Env} {w : World}

theorem rowsOf_congr {w' : World}
    (hmerchants : w'.merchants.rows.filter (fun r => r.owner = some b) =
      w.merchants.rows.filter fun r => r.owner = some b)
    (htokens : w'.tokens.rows.filter (fun r => r.owner = some b) =
      w.tokens.rows.filter fun r => r.owner = some b)
    (hpayments : w'.payments.rows.filter (fun r => r.owner = some b) =
      w.payments.rows.filter fun r => r.owner = some b)
    (hlinks : w'.links.rows.filter (fun r => r.owner = some b) =
      w.links.rows.filter fun r => r.owner = some b)
    (hcustomers : w'.customers = w.customers)
    (hwallets : w'.xpubWallets.rows.filter (fun r => r.owner = some b) =
      w.xpubWallets.rows.filter fun r => r.owner = some b)
    (haddresses : w'.derivedAddresses.rows.filter (fun r => r.owner = some b) =
      w.derivedAddresses.rows.filter fun r => r.owner = some b)
    (hcollectors : w'.collectors.rows.filter (fun r => r.owner = some b) =
      w.collectors.rows.filter fun r => r.owner = some b) :
    w'.rowsOf b = w.rowsOf b := by
  simp only [World.rowsOf, World.holdings, Holdings.filter, hmerchants, htokens, hpayments, hlinks,
    hcustomers, hwallets, haddresses, hcollectors]

theorem owner_eq_false {m : Int} (h : m ≠ b) : decide (some m = some b) = false := by
  rw [decide_eq_false_iff_not, Option.some.injEq]
  exact h

/-- What a statement that spares a merchant does to the merchant's rows. -/
theorem rowsOf_effect (ht : Titled t w) {st : Stmt} (hspares : st.spares t b) :
    (World.effect st env w).rowsOf b = w.rowsOf b := by
  cases st with
  | updateMerchant id updatedAt name website =>
    refine rowsOf_congr (Table.filter_updateWhere _
      (World.renamedMerchant_id updatedAt name website) ?_) rfl rfl rfl rfl rfl rfl rfl
    intro r _ hr
    obtain rfl : r.id = id := of_decide_eq_true hr
    exact ⟨owner_eq_false hspares, owner_eq_false hspares⟩
  | updateMerchantSettings id updatedAt settings =>
    refine rowsOf_congr (Table.filter_updateWhere _ (World.settledMerchant_id updatedAt settings)
      ?_) rfl rfl rfl rfl rfl rfl rfl
    intro r _ hr
    obtain rfl : r.id = id := of_decide_eq_true hr
    exact ⟨owner_eq_false hspares, owner_eq_false hspares⟩
  | softDeleteMerchantByUUID uuid =>
    refine rowsOf_congr (Table.filter_updateWhere _ (World.trashedMerchant_id env.now) ?_) rfl rfl
      rfl rfl rfl rfl rfl
    intro r hmem hr
    obtain rfl : r.uuid = uuid := of_decide_eq_true hr
    have hid : r.id ≠ b := ht.merchants r hmem ▸ hspares
    exact ⟨owner_eq_false hid, owner_eq_false hid⟩
  | createAPIToken p =>
    rw [World.effect]
    split
    · refine rowsOf_congr rfl (Table.filter_insert _ ?_) rfl rfl rfl rfl rfl rfl
      rw [APIToken.owner, World.newToken, if_pos hspares.1]
      exact owner_eq_false hspares.2
    · rfl
  | deleteAPITokenByID id =>
    refine rowsOf_congr rfl (Table.filter_deleteWhere _ ?_) rfl rfl rfl rfl rfl rfl
    intro r hmem hr
    obtain rfl : r.id = id := of_decide_eq_true hr
    rw [← ht.tokens r hmem, decide_eq_false_iff_not]
    exact hspares
  | createXpubWallet p =>
    rw [World.effect]
    split
    · exact rowsOf_congr rfl rfl rfl rfl rfl
        (Table.filter_insert _ (owner_eq_false hspares)) rfl rfl
    · rfl
  | createDerivedAddress p =>
    rw [World.effect]
    split
    · exact rowsOf_congr rfl rfl rfl rfl rfl rfl (Table.filter_insert _ (owner_eq_false hspares.1))
        rfl
    · rfl
  | updateXpubWalletLastIndex id lastDerivedIndex updatedAt =>
    refine rowsOf_congr rfl rfl rfl rfl rfl
      (Table.filter_updateWhere _ (World.advancedWallet_id lastDerivedIndex updatedAt) ?_) rfl rfl
    intro r hmem hr
    obtain rfl : r.id = id := of_decide_eq_true hr
    have hown : r.merchantID ≠ b := ht.wallets r hmem ▸ hspares
    exact ⟨owner_eq_false hown, owner_eq_false hown⟩
  | markAddressAsUsed id paymentID updatedAt => exact hspares.elim
  | deleteDerivedAddressesByWalletID id =>
    refine rowsOf_congr rfl rfl rfl rfl rfl rfl (Table.filter_deleteWhere _ ?_) rfl
    intro r hmem hr
    obtain rfl : r.xpubWalletID = id := of_decide_eq_true hr
    exact owner_eq_false (ht.addresses r hmem ▸ hspares)
  | hardDeleteXpubWallet id =>
    rw [World.effect]
    split
    · refine rowsOf_congr rfl rfl rfl rfl rfl (Table.filter_deleteWhere _ ?_) rfl rfl
      intro r hmem hr
      obtain rfl : r.id = id := of_decide_eq_true hr
      exact owner_eq_false (ht.wallets r hmem ▸ hspares)
    · rfl
  | upsertCollector p =>
    rw [World.effect]
    split
    · split
      · refine rowsOf_congr rfl rfl rfl rfl rfl rfl rfl
          (Table.filter_updateWhere _ (World.replacedCollector_id p) ?_)
        intro r _ hr
        rw [World.isCollectorOf, Bool.and_eq_true, decide_eq_true_iff] at hr
        have hown : r.merchantID ≠ b := hr.1 ▸ hspares
        exact ⟨owner_eq_false hown, owner_eq_false hown⟩
      · exact rowsOf_congr rfl rfl rfl rfl rfl rfl rfl
          (Table.filter_insert _ (owner_eq_false hspares))
    · rfl
  | deactivateCollector m blockchain updatedAt =>
    refine rowsOf_congr rfl rfl rfl rfl rfl rfl rfl
      (Table.filter_updateWhere _ (World.deactivatedCollector_id updatedAt) ?_)
    intro r _ hr
    rw [World.isCollectorOf, Bool.and_eq_true, decide_eq_true_iff] at hr
    have hown : r.merchantID ≠ b := hr.1 ▸ hspares
    exact ⟨owner_eq_false hown, owner_eq_false hown⟩
  | createPayment p =>
    rw [World.effect]
    split
    · exact rowsOf_congr rfl rfl (Table.filter_insert _ (owner_eq_false hspares)) rfl
        rfl rfl rfl rfl
    · rfl
  | updatePayment p =>
    refine rowsOf_congr rfl rfl (Table.filter_updateWhere _ (World.updatedPayment_id p) ?_) rfl
      rfl rfl rfl rfl
    intro r _ hr
    rw [World.isPaymentOf, Bool.and_eq_true, decide_eq_true_iff, decide_eq_true_iff] at hr
    have hown : r.merchantID ≠ b := hr.2 ▸ hspares
    exact ⟨owner_eq_false hown, owner_eq_false hown⟩
  | createPaymentLink p =>
    rw [World.effect]
    split
    · exact rowsOf_congr rfl rfl rfl (Table.filter_insert _ (owner_eq_false hspares))
        rfl rfl rfl rfl
    · rfl
  | deletePaymentLinkByPublicID m uuid =>
    refine rowsOf_congr rfl rfl rfl (Table.filter_deleteWhere _ ?_) rfl rfl rfl rfl
    intro r _ hr
    rw [World.isLinkOf, Bool.and_eq_true, decide_eq_true_iff] at hr
    exact owner_eq_false (hr.1 ▸ hspares)
  | _ => rfl

/-- An update that leaves what the titles are about keeps a table titled. -/
theorem forall_updateWhere {κ ρ : Type} {key : ρ → κ} {tbl : Table κ ρ key} {p : ρ → Bool}
    {f : ρ → ρ} (hf : ∀ r, key (f r) = key r) {φ : ρ → Prop} (h : ∀ r ∈ tbl.rows, φ r)
    (hφ : ∀ r, φ r → φ (f r)) : ∀ r ∈ (tbl.updateWhere p f hf).rows, φ r := by
  intro r hr
  rw [Table.rows_updateWhere] at hr
  obtain ⟨x, hx, rfl⟩ := List.mem_map.mp hr
  split
  · exact hφ x (h x hx)
  · exact h x hx

theorem forall_insert {κ ρ : Type} {key : ρ → κ} [DecidableEq κ] {tbl : Table κ ρ key} {x : ρ}
    {φ : ρ → Prop} (h : ∀ r ∈ tbl.rows, φ r) (hx : φ x) : ∀ r ∈ (tbl.insert x).rows, φ r := by
  intro r hr
  rcases Table.mem_insert hr with hold | rfl
  · exact h r hold
  · exact hx

theorem forall_deleteWhere {κ ρ : Type} {key : ρ → κ} {tbl : Table κ ρ key} {p : ρ → Bool}
    {φ : ρ → Prop} (h : ∀ r ∈ tbl.rows, φ r) : ∀ r ∈ (tbl.deleteWhere p).rows, φ r :=
  fun r hr => h r (List.mem_of_mem_filter hr)

theorem Titled.effect (ht : Titled t w) {st : Stmt} (hspares : st.spares t b)
    (hadmits : t.admits (.stmt .pool st) env) : Titled t (World.effect st env w) := by
  cases st with
  | updateMerchant id updatedAt name website =>
    refine { ht with merchants := ?_, serials := ?_ }
    · exact forall_updateWhere (World.renamedMerchant_id updatedAt name website) ht.merchants
        fun _ h => h
    · exact forall_updateWhere (World.renamedMerchant_id updatedAt name website) ht.serials
        fun _ h => h
  | updateMerchantSettings id updatedAt settings =>
    refine { ht with merchants := ?_, serials := ?_ }
    · exact forall_updateWhere (World.settledMerchant_id updatedAt settings) ht.merchants
        fun _ h => h
    · exact forall_updateWhere (World.settledMerchant_id updatedAt settings) ht.serials
        fun _ h => h
  | softDeleteMerchantByUUID uuid =>
    refine { ht with merchants := ?_, serials := ?_ }
    · exact forall_updateWhere (World.trashedMerchant_id env.now) ht.merchants fun _ h => h
    · exact forall_updateWhere (World.trashedMerchant_id env.now) ht.serials fun _ h => h
  | createAPIToken p =>
    rw [World.effect]
    split
    · refine { ht with
        tokens := forall_insert ht.tokens ?_
        users := forall_insert ht.users ?_ }
      · rw [APIToken.owner, World.newToken, if_pos hspares.1]
        exact hadmits
      · intro huser
        rw [World.newToken, hspares.1] at huser
        cases huser
    · exact ht
  | deleteAPITokenByID id =>
    exact { ht with
      tokens := forall_deleteWhere ht.tokens
      users := forall_deleteWhere ht.users }
  | createXpubWallet p =>
    rw [World.effect]
    split
    · exact { ht with wallets := forall_insert ht.wallets hadmits }
    · exact ht
  | createDerivedAddress p =>
    rw [World.effect]
    split
    · exact { ht with addresses := forall_insert ht.addresses hspares.2 }
    · exact ht
  | updateXpubWalletLastIndex id lastDerivedIndex updatedAt =>
    refine { ht with wallets := ?_ }
    exact forall_updateWhere (World.advancedWallet_id lastDerivedIndex updatedAt)
      ht.wallets fun _ h => h
  | markAddressAsUsed id paymentID updatedAt => exact hspares.elim
  | deleteDerivedAddressesByWalletID id =>
    exact { ht with addresses := forall_deleteWhere ht.addresses }
  | hardDeleteXpubWallet id =>
    rw [World.effect]
    split
    · exact { ht with wallets := forall_deleteWhere ht.wallets }
    · exact ht
  | upsertCollector p =>
    rw [World.effect]
    split
    · split
      · exact ⟨ht.merchants, ht.serials, ht.tokens, ht.users, ht.wallets, ht.addresses⟩
      · exact ⟨ht.merchants, ht.serials, ht.tokens, ht.users, ht.wallets, ht.addresses⟩
    · exact ht
  | createPayment p =>
    rw [World.effect]
    split
    · exact ⟨ht.merchants, ht.serials, ht.tokens, ht.users, ht.wallets, ht.addresses⟩
    · exact ht
  | createPaymentLink p =>
    rw [World.effect]
    split
    · exact ⟨ht.merchants, ht.serials, ht.tokens, ht.users, ht.wallets, ht.addresses⟩
    · exact ht
  | _ => exact ⟨ht.merchants, ht.serials, ht.tokens, ht.users, ht.wallets, ht.addresses⟩

/-- The titles hold, and the merchant owns what it owned. -/
structure Untouched (t : Titles) (b : Int) (h : Holdings) (w : World) : Prop where
  titled : Titled t w
  rows : w.rowsOf b = h

theorem Untouched.autocommit {h : Holdings} (hw : Untouched t b h w) {st : Stmt}
    (hspares : st.spares t b) (hadmits : t.admits (.stmt .pool st) env) :
    Untouched t b h (engine.autocommit st env w) := by
  rw [autocommit_eq]
  split
  · exact hw
  · exact ⟨hw.titled.effect hspares hadmits, (rowsOf_effect hw.titled hspares).trans hw.rows⟩

end

end MerchantAPI

end CryptoLink
