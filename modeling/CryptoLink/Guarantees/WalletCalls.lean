import CryptoLink.Library.Histories
import CryptoLink.Merchants.Xpub
import CryptoLink.Repository.Replies

/-!
# What the wallet calls write

Every wallet that is stored comes from an accepted key, and every address from
a wallet that was read. What is known of a wallet that is read is left open. As
long as an id is given to one wallet only, an address stays with the wallet it was
derived from.
-/

namespace CryptoLink

namespace MerchantAPI

open KeyedTables ReadCommitted StatementPrograms System

theorem ok_of_bind {α β : Type} {x : Except Err α} {f : α → Except Err β} {b : β}
    (h : (x >>= f) = .ok b) : ∃ a, x = .ok a ∧ f a = .ok b := by
  cases x with
  | error e => cases h
  | ok a => exact ⟨a, rfl, h⟩

/-- The columns of a wallet that no statement changes. -/
def XpubWallet.identity (x : XpubWallet) : Int × String × String × String :=
  (x.merchantID, x.blockchain, x.xpub, x.derivationPath)

theorem XpubWallet.identity_eq {x y : XpubWallet} : x.identity = y.identity ↔
    x.merchantID = y.merchantID ∧ x.blockchain = y.blockchain ∧ x.xpub = y.xpub ∧
      x.derivationPath = y.derivationPath := by
  simp [identity]

/-- The columns of an address that no statement changes. -/
def DerivedAddress.origin (a : DerivedAddress) : Int × String × String × String × Int :=
  (a.xpubWalletID, a.blockchain, a.address, a.publicKey, a.derivationIndex)

theorem DerivedAddress.origin_eq {a b : DerivedAddress} : a.origin = b.origin ↔
    a.xpubWalletID = b.xpubWalletID ∧ a.blockchain = b.blockchain ∧ a.address = b.address ∧
      a.publicKey = b.publicKey ∧ a.derivationIndex = b.derivationIndex := by
  simp [origin]

namespace World

theorem mem_effect_xpubWallets {st : Stmt} {env : Env} {w : World} {x : XpubWallet}
    (hx : x ∈ (World.effect st env w).xpubWallets.rows) :
    (∃ y ∈ w.xpubWallets.rows, x.id = y.id ∧ x.identity = y.identity) ∨
      ∃ p, st = .createXpubWallet p ∧ w.xpubWalletFits env.id p = true ∧
        x = newXpubWallet env.id p := by
  cases st with
  | createXpubWallet p =>
    rw [effect] at hx
    split at hx
    · rename_i hfits
      rcases Table.mem_insert hx with hold | rfl
      · exact .inl ⟨x, hold, rfl, rfl⟩
      · exact .inr ⟨p, rfl, hfits, rfl⟩
    · exact .inl ⟨x, hx, rfl, rfl⟩
  | updateXpubWalletLastIndex id lastDerivedIndex updatedAt =>
    simp only [effect, Table.rows_updateWhere, List.mem_map] at hx
    obtain ⟨y, hy, rfl⟩ := hx
    left
    refine ⟨y, hy, ?_⟩
    split
    · exact ⟨rfl, rfl⟩
    · exact ⟨rfl, rfl⟩
  | hardDeleteXpubWallet id =>
    rw [effect] at hx
    split at hx
    · exact .inl ⟨x, List.mem_of_mem_filter hx, rfl, rfl⟩
    · exact .inl ⟨x, hx, rfl, rfl⟩
  | _ =>
    simp only [effect, apply_ite World.xpubWallets, ite_self] at hx
    exact .inl ⟨x, hx, rfl, rfl⟩

/-- A wallet with addresses stays. -/
theorem effect_keeps_wallet {st : Stmt} {env : Env} {w : World} {x : XpubWallet}
    (hx : x ∈ w.xpubWallets.rows) (hused : w.walletUnreferenced x.id = false) :
    ∃ y ∈ (World.effect st env w).xpubWallets.rows, y.id = x.id ∧ y.identity = x.identity := by
  cases st with
  | createXpubWallet p =>
    rw [effect]
    split
    · exact ⟨x, Table.mem_insert_of_mem hx, rfl, rfl⟩
    · exact ⟨x, hx, rfl, rfl⟩
  | updateXpubWalletLastIndex id lastDerivedIndex updatedAt =>
    simp only [effect, Table.rows_updateWhere]
    refine ⟨_, List.mem_map_of_mem hx, ?_⟩
    split
    · exact ⟨rfl, rfl⟩
    · exact ⟨rfl, rfl⟩
  | hardDeleteXpubWallet id =>
    rw [effect]
    split
    · rename_i hfree
      have hne : x.id ≠ id := by
        rintro rfl
        rw [hused] at hfree
        cases hfree
      exact ⟨x, List.mem_filter.mpr ⟨hx, by simp [hne]⟩, rfl, rfl⟩
    · exact ⟨x, hx, rfl, rfl⟩
  | _ =>
    simp only [effect, apply_ite World.xpubWallets, ite_self]
    exact ⟨x, hx, rfl, rfl⟩

theorem mem_effect_derivedAddresses {st : Stmt} {env : Env} {w : World} {a : DerivedAddress}
    (ha : a ∈ (World.effect st env w).derivedAddresses.rows) :
    (∃ b ∈ w.derivedAddresses.rows, a.id = b.id ∧ a.origin = b.origin) ∨
      ∃ p, st = .createDerivedAddress p ∧ w.derivedAddressFits env.id p = true ∧
        a = newDerivedAddress env.id p := by
  cases st with
  | createDerivedAddress p =>
    rw [effect] at ha
    split at ha
    · rename_i hfits
      rcases Table.mem_insert ha with hold | rfl
      · exact .inl ⟨a, hold, rfl, rfl⟩
      · exact .inr ⟨p, rfl, hfits, rfl⟩
    · exact .inl ⟨a, ha, rfl, rfl⟩
  | markAddressAsUsed id paymentID updatedAt =>
    simp only [effect, Table.rows_updateWhere, List.mem_map] at ha
    obtain ⟨b, hb, rfl⟩ := ha
    left
    refine ⟨b, hb, ?_⟩
    split
    · exact ⟨rfl, rfl⟩
    · exact ⟨rfl, rfl⟩
  | deleteDerivedAddressesByWalletID id =>
    exact .inl ⟨a, List.mem_of_mem_filter ha, rfl, rfl⟩
  | _ =>
    simp only [effect, apply_ite World.derivedAddresses, ite_self] at ha
    exact .inl ⟨a, ha, rfl, rfl⟩

/-- No statement removes a merchant. -/
theorem effect_keeps_merchant {st : Stmt} {env : Env} {w : World} {id : Int}
    (h : (w.merchants.get id).isSome = true) :
    ((World.effect st env w).merchants.get id).isSome = true := by
  cases st with
  | updateMerchant _ _ _ _ => simpa [effect, Table.get_updateWhere] using h
  | updateMerchantSettings _ _ _ => simpa [effect, Table.get_updateWhere] using h
  | softDeleteMerchantByUUID _ => simpa [effect, Table.get_updateWhere] using h
  | _ =>
    simp only [effect, apply_ite World.merchants, ite_self]
    exact h

end World

namespace KeyLibraries

variable {s : KeyLibraries}

/-- The key is accepted, and with this path it is stored as these two fields. -/
def StoredAs (s : KeyLibraries) (key given xpub path : String) : Prop :=
  ∃ autoPath, s.convertToXpub key = .ok (xpub, autoPath) ∧
    (∃ k, s.newKeyFromString xpub = .ok k) ∧ path = chosenPath given autoPath

/-- The row of an address is written for this wallet, at an index in `Start`. -/
structure WrittenFor (s : KeyLibraries) (Start : Int → Prop) (x : XpubWallet)
    (p : CreateDerivedAddressParams) : Prop where
  wallet : p.xpubWalletID = x.id
  merchant : p.merchantID = x.merchantID
  blockchain : p.blockchain = x.blockchain
  start : Start p.derivationIndex
  derived : s.deriveAddressFromXpub x.xpub x.blockchain x.derivationPath p.derivationIndex =
    .ok (p.address, p.publicKey)

variable {Known : XpubWallet → Prop} {Start : Int → Prop}

/-- What the calls promise of the two inserts. -/
def Offered (s : KeyLibraries) (Known : XpubWallet → Prop) (Start : Int → Prop) :
    Cmd Stmt → Prop
  | .stmt .pool (.createXpubWallet p) => ∃ key given, s.StoredAs key given p.xpub p.derivationPath
  | .stmt .pool (.createDerivedAddress p) => ∃ x, Known x ∧ s.WrittenFor Start x p
  | .stmt .pool _ => True
  | _ => False

/-- What they rely on: a wallet that is read is known, and the next index after
a highest one is in `Start`. -/
def Told (Known : XpubWallet → Prop) (Start : Int → Prop) :
    (c : Cmd Stmt) → Answer Reply c → Prop
  | .stmt .pool (.getXpubWalletByID _), r => ∀ x, r = .ok x → Known x
  | .stmt .pool (.getMaxDerivedIndexForXpub _ _), r => ∀ i, r = .ok i → Start (i + 1)
  | _, _ => True

theorem offered_pool {c : Cmd Stmt} (h : s.Offered Known Start c) : ∃ st, c = .stmt .pool st := by
  cases c with
  | stmt q st =>
    cases q with
    | pool => exact ⟨st, rfl⟩
    | tx => exact h.elim
  | _ => exact h.elim

theorem create_offers {key given xpub path blockchain : String} {merchantID : Int}
    (h : s.StoredAs key given xpub path) :
    IssuesGiven (s.Offered Known Start) (Told Known Start)
      (createXpubWallet.create merchantID blockchain xpub path) := by
  apply IssuesGiven.ask_bind
  · exact trivial
  intro now _
  apply IssuesGiven.ask_bind
  · exact trivial
  intro uuid _
  apply IssuesGiven.ask_bind
  · exact ⟨key, given, h⟩
  intro entry _
  exact IssuesGiven.of_issues (Issues.ofExcept entry)

theorem createXpubWallet_offers (merchantID : Int) (blockchain xpubKey derivationPath : String) :
    IssuesGiven (s.Offered Known Start) (Told Known Start)
      (s.createXpubWallet merchantID blockchain xpubKey derivationPath) := by
  apply IssuesGiven.ofExcept_bind
  rintro ⟨convertedKey, autoPath⟩ hconverted
  have hconvert : s.convertToXpub xpubKey = .ok (convertedKey, autoPath) := by
    cases hresult : s.convertToXpub xpubKey with
    | error e =>
      rw [hresult] at hconverted
      cases hconverted
    | ok converted =>
      rw [hresult] at hconverted
      cases hconverted
      rfl
  cases hkey : s.newKeyFromString convertedKey with
  | error e =>
    simp only [hkey]
    exact trivial
  | ok k =>
    have hstored : s.StoredAs xpubKey derivationPath convertedKey
        (chosenPath derivationPath autoPath) := ⟨autoPath, hconvert, ⟨k, hkey⟩, rfl⟩
    simp only [hkey]
    apply IssuesGiven.ask_bind
    · exact trivial
    intro existing _
    cases existing with
    | error e =>
      by_cases hnone : e.is .noRows = true
      · simp only [if_pos hnone]
        exact create_offers hstored
      · simp only [if_neg hnone]
        exact trivial
    | ok x =>
      by_cases htaken : 0 < x.id
      · simp only [if_pos htaken]
        exact trivial
      · simp only [if_neg htaken]
        exact create_offers hstored

/-- One statement with nothing to promise, and what is made of its answer. -/
theorem asked_offers {α : Type} (st : Stmt) (h : s.Offered Known Start (.stmt .pool st))
    (f : Reply st → Except Err α) : IssuesGiven (s.Offered Known Start) (Told Known Start)
      ((query st).bind fun r => succeed (f r)) := by
  apply IssuesGiven.ask_bind h
  intro r _
  exact IssuesGiven.of_issues (Issues.ofExcept (f r))

theorem deactivateWallet_offers (uuid : String) (merchantID : Int) :
    IssuesGiven (s.Offered Known Start) (Told Known Start) (deactivateWallet uuid merchantID) := by
  apply IssuesGiven.bind (asked_offers (.getXpubWalletByUUID uuid) trivial _)
  intro entry
  by_cases hforeign : entry.merchantID ≠ merchantID
  · simp only [if_pos hforeign]
    exact trivial
  · simp only [if_neg hforeign]
    apply IssuesGiven.ask_bind
    · exact trivial
    intro addresses _
    apply IssuesGiven.ofExcept_bind
    intro _ _
    exact asked_offers (.hardDeleteXpubWallet entry.id) trivial _

section Upward

variable (hup : ∀ i j, i ≤ j → Start i → Start j)

include hup

theorem deriveFrom_offers {x : XpubWallet} (hx : Known x) (now : Int) (attempts : ℕ) :
    ∀ nextIndex, Start nextIndex → IssuesGiven (s.Offered Known Start) (Told Known Start)
      (s.deriveFrom x now nextIndex attempts) := by
  induction attempts with
  | zero => exact fun _ _ => trivial
  | succ attempts ih =>
    intro nextIndex hstart
    apply IssuesGiven.ofExcept_bind
    rintro ⟨address, pubKey⟩ hderived
    have hderive : s.deriveAddressFromXpub x.xpub x.blockchain x.derivationPath nextIndex =
        .ok (address, pubKey) := by
      cases hresult : s.deriveAddressFromXpub x.xpub x.blockchain x.derivationPath nextIndex with
      | error e =>
        rw [hresult] at hderived
        cases hderived
      | ok derived =>
        rw [hresult] at hderived
        cases hderived
        rfl
    apply IssuesGiven.ask_bind
    · exact trivial
    intro uuid _
    apply IssuesGiven.ask_bind
    · exact ⟨x, hx, rfl, rfl, rfl, hstart, hderive⟩
    intro created _
    cases created with
    | error e =>
      by_cases htaken : isIndexTakenError e = true
      · simp only [if_pos htaken]
        exact ih (nextIndex + 1) (hup nextIndex _ (by omega) hstart)
      · simp only [if_neg htaken]
        exact trivial
    | ok entry =>
      apply IssuesGiven.ask_bind
      · exact trivial
      intro _ _
      exact trivial

theorem deriveAddress_offers (walletID : Int) :
    IssuesGiven (s.Offered Known Start) (Told Known Start) (s.deriveAddress walletID) := by
  apply IssuesGiven.ask_bind
  · exact trivial
  intro found hfound
  apply IssuesGiven.ofExcept_bind
  intro x hx
  have hknown : Known x := by
    cases found with
    | error e => cases hx
    | ok y =>
      cases hx
      exact hfound _ rfl
  apply IssuesGiven.ask_bind
  · exact trivial
  intro shared hlowest
  apply IssuesGiven.ofExcept_bind
  intro sharedIndex hshared
  have hindex : Start (sharedIndex + 1) := by
    cases shared with
    | error e => cases hshared
    | ok i =>
      cases hshared
      exact hlowest _ rfl
  apply IssuesGiven.ask_bind
  · exact trivial
  intro now _
  have hstart : Start (max (x.lastDerivedIndex.getD (-1)) sharedIndex + 1) :=
    hup (sharedIndex + 1) _ (by omega) hindex
  exact deriveFrom_offers hup hknown now maxDeriveAttempts _ hstart

theorem deriveAddressBatch_offers (walletID : Int) (count : ℕ) :
    IssuesGiven (s.Offered Known Start) (Told Known Start)
      (s.deriveAddressBatch walletID count) := by
  induction count with
  | zero => exact trivial
  | succ count ih =>
    apply IssuesGiven.bind (deriveAddress_offers hup walletID)
    intro address
    apply IssuesGiven.bind ih
    intro rest
    exact trivial

theorem getNextUnusedAddress_offers (walletID : Int) :
    IssuesGiven (s.Offered Known Start) (Told Known Start) (s.getNextUnusedAddress walletID) := by
  apply IssuesGiven.ask_bind
  · exact trivial
  intro entry _
  cases entry with
  | ok a => exact trivial
  | error e =>
    by_cases hnone : e.is .noRows = true
    · simp only [if_pos hnone]
      exact deriveAddress_offers hup walletID
    · simp only [if_neg hnone]
      exact trivial

theorem program_offers (l : XpubOperation) :
    IssuesGiven (s.Offered Known Start) (Told Known Start) (s.program l) := by
  cases l with
  | createXpubWallet m blockchain key path =>
    exact (createXpubWallet_offers m blockchain key path).bind fun _ => trivial
  | getXpubWalletByUUID uuid =>
    have hread : IssuesGiven (s.Offered Known Start) (Told Known Start)
      (getXpubWalletByUUID uuid) :=
      asked_offers (.getXpubWalletByUUID uuid) trivial _
    exact hread.bind fun _ => trivial
  | listXpubWallets m =>
    have hread : IssuesGiven (s.Offered Known Start) (Told Known Start) (listXpubWallets m) :=
      asked_offers (.listXpubWalletsByMerchantID m) trivial id
    exact hread.bind fun _ => trivial
  | deriveAddress id => exact (deriveAddress_offers hup id).bind fun _ => trivial
  | deriveAddressBatch id count =>
    exact (deriveAddressBatch_offers hup id count).bind fun _ => trivial
  | getNextUnusedAddress id => exact (getNextUnusedAddress_offers hup id).bind fun _ => trivial
  | listDerivedAddresses walletID =>
    have hread : IssuesGiven (s.Offered Known Start) (Told Known Start)
      (listDerivedAddresses walletID) :=
      asked_offers (.listDerivedAddressesByWalletID walletID) trivial id
    exact hread.bind fun _ => trivial
  | deactivateWallet uuid m => exact deactivateWallet_offers uuid m
  | markAddressAsUsed addressID paymentID =>
    have hmark : IssuesGiven (s.Offered Known Start) (Told Known Start)
        (markAddressAsUsed addressID paymentID) := by
      apply IssuesGiven.ask_bind
      · exact trivial
      intro now _
      exact asked_offers (.markAddressAsUsed addressID paymentID now) trivial id
    exact hmark.bind fun _ => trivial

end Upward

/-- The wallet is the one that its id was given to. -/
def Registered (names : Int → Int × String × String × String) (x : XpubWallet) : Prop :=
  names x.id = x.identity

/-- The address is the wallet's own at its index. -/
structure HeldBy (s : KeyLibraries) (x : XpubWallet) (a : DerivedAddress) : Prop where
  wallet : a.xpubWalletID = x.id
  blockchain : a.blockchain = x.blockchain
  start : 0 ≤ a.derivationIndex
  derived : s.deriveAddressFromXpub x.xpub x.blockchain x.derivationPath a.derivationIndex =
    .ok (a.address, a.publicKey)

theorem HeldBy.of_same {x y : XpubWallet} {a b : DerivedAddress} (h : s.HeldBy x a)
    (hid : y.id = x.id) (hsame : y.identity = x.identity) (horigin : b.origin = a.origin) :
    s.HeldBy y b := by
  obtain ⟨hwallet, hblockchain, haddress, hkey, hindex⟩ := DerivedAddress.origin_eq.mp horigin
  obtain ⟨-, hchain, hxpub, hpath⟩ := XpubWallet.identity_eq.mp hsame
  constructor
  · rw [hwallet, h.wallet, hid]
  · rw [hblockchain, h.blockchain, hchain]
  · rw [hindex]
    exact h.start
  · rw [hxpub, hchain, hpath, hindex, haddress, hkey]
    exact h.derived

/-- The columns the table keeps unique. -/
def Clash (a b : DerivedAddress) : Prop :=
  (a.xpubWalletID = b.xpubWalletID ∧ a.derivationIndex = b.derivationIndex) ∨
    (a.blockchain = b.blockchain ∧ a.address = b.address)

theorem Clash.of_origin {a b a' b' : DerivedAddress} (h : Clash a b) (ha : a.origin = a'.origin)
    (hb : b.origin = b'.origin) : Clash a' b' := by
  obtain ⟨hwallet, hblockchain, haddress, -, hindex⟩ := DerivedAddress.origin_eq.mp ha
  obtain ⟨hwallet', hblockchain', haddress', -, hindex'⟩ := DerivedAddress.origin_eq.mp hb
  rcases h with ⟨h₁, h₂⟩ | ⟨h₁, h₂⟩
  · left
    rw [← hwallet, ← hwallet', ← hindex, ← hindex']
    exact ⟨h₁, h₂⟩
  · right
    rw [← hblockchain, ← hblockchain', ← haddress, ← haddress']
    exact ⟨h₁, h₂⟩

theorem Clash.symm {a b : DerivedAddress} (h : Clash a b) : Clash b a := by
  rcases h with ⟨h₁, h₂⟩ | ⟨h₁, h₂⟩
  · exact .inl ⟨h₁.symm, h₂.symm⟩
  · exact .inr ⟨h₁.symm, h₂.symm⟩

structure Consistent (s : KeyLibraries) (names : Int → Int × String × String × String)
    (w : World) : Prop where
  registered : ∀ x ∈ w.xpubWallets.rows, Registered names x
  parsed : ∀ x ∈ w.xpubWallets.rows, ∃ k, s.newKeyFromString x.xpub = .ok k
  merchants : ∀ x ∈ w.xpubWallets.rows, (w.merchants.get x.merchantID).isSome = true
  addresses : ∀ a ∈ w.derivedAddresses.rows, ∃ x ∈ w.xpubWallets.rows, s.HeldBy x a
  unique : ∀ a ∈ w.derivedAddresses.rows, ∀ b ∈ w.derivedAddresses.rows, Clash a b → a = b

theorem not_clash_of_fits {w : World} {id : Int} {p : CreateDerivedAddressParams}
    (h : w.derivedAddressFits id p = true) {a : DerivedAddress} (ha : a ∈ w.derivedAddresses.rows) :
    ¬ Clash a (World.newDerivedAddress id p) := by
  simp only [World.derivedAddressFits, World.indexTaken, Bool.and_eq_true, Bool.not_eq_true',
    List.any_eq_false] at h
  have hfree := h.2 a ha
  simp only [Bool.or_eq_true, Bool.and_eq_true, decide_eq_true_eq] at hfree
  exact hfree

theorem Consistent.effect {names : Int → Int × String × String × String} {st : Stmt} {env : Env}
    {w : World} (h : s.Consistent names w)
    (hoffered : s.Offered (Registered names) (0 ≤ ·) (.stmt .pool st))
    (hserial : ∀ p, st = .createXpubWallet p → Registered names (World.newXpubWallet env.id p)) :
    s.Consistent names (World.effect st env w) := by
  constructor
  · intro x hx
    rcases World.mem_effect_xpubWallets hx with ⟨y, hy, hid, hsame⟩ | ⟨p, rfl, -, rfl⟩
    · rw [Registered, hid, hsame]
      exact h.registered y hy
    · exact hserial p rfl
  · intro x hx
    rcases World.mem_effect_xpubWallets hx with ⟨y, hy, -, hsame⟩ | ⟨p, rfl, -, rfl⟩
    · obtain ⟨-, -, hxpub, -⟩ := XpubWallet.identity_eq.mp hsame
      rw [hxpub]
      exact h.parsed y hy
    · obtain ⟨key, given, autoPath, -, hparsed, -⟩ := hoffered
      exact hparsed
  · intro x hx
    apply World.effect_keeps_merchant
    rcases World.mem_effect_xpubWallets hx with ⟨y, hy, -, hsame⟩ | ⟨p, rfl, hfits, rfl⟩
    · obtain ⟨hmerchant, -, -, -⟩ := XpubWallet.identity_eq.mp hsame
      rw [hmerchant]
      exact h.merchants y hy
    · simp only [World.xpubWalletFits, Bool.and_eq_true] at hfits
      exact hfits.1.2
  · intro a ha
    rcases World.mem_effect_derivedAddresses ha with ⟨b, hb, -, horigin⟩ | ⟨p, rfl, hfits, rfl⟩
    · obtain ⟨x, hx, hheld⟩ := h.addresses b hb
      have hused : w.walletUnreferenced x.id = false := by
        rw [← hheld.wallet]
        simp only [World.walletUnreferenced, List.all_eq_false]
        exact ⟨b, hb, by simp⟩
      obtain ⟨y, hy, hid, hsame⟩ := World.effect_keeps_wallet hx hused
      exact ⟨y, hy, hheld.of_same hid hsame horigin⟩
    · obtain ⟨x, hknown, hwritten⟩ := hoffered
      simp only [World.derivedAddressFits, Bool.and_eq_true] at hfits
      obtain ⟨y, hget⟩ := Option.isSome_iff_exists.mp hfits.1.1.2
      obtain ⟨hy, hid⟩ := Table.get_eq_some hget
      have hregistered := h.registered y hy
      have hsame : y.identity = x.identity := by
        rw [← hregistered, hid, hwritten.wallet]
        exact hknown
      have hheld : s.HeldBy x (World.newDerivedAddress env.id p) :=
        ⟨hwritten.wallet, hwritten.blockchain, hwritten.start, hwritten.derived⟩
      have hwallets : (World.effect (.createDerivedAddress p) env w).xpubWallets =
          w.xpubWallets := by
        simp only [World.effect, apply_ite World.xpubWallets, ite_self]
      rw [hwallets]
      exact ⟨y, hy, hheld.of_same (hid.trans hwritten.wallet) hsame rfl⟩
  · intro a ha b hb hclash
    rcases World.mem_effect_derivedAddresses ha with ⟨a', ha', haid, haorigin⟩ |
      ⟨p, rfl, hfits, rfl⟩
    · rcases World.mem_effect_derivedAddresses hb with ⟨b', hb', hbid, hborigin⟩ |
        ⟨p, rfl, hfits, rfl⟩
      · have hsame := h.unique a' ha' b' hb' (hclash.of_origin haorigin hborigin)
        exact Table.eq_of_key_eq ha hb (by rw [haid, hbid, hsame])
      · exact absurd (hclash.of_origin haorigin rfl) (not_clash_of_fits hfits ha')
    · rcases World.mem_effect_derivedAddresses hb with ⟨b', hb', -, hborigin⟩ |
        ⟨p', hp', -, rfl⟩
      · exact absurd (hclash.symm.of_origin hborigin rfl) (not_clash_of_fits hfits hb')
      · cases hp'
        rfl

theorem le_foldl_max (is : List Int) (b : Int) :
    b ≤ is.foldl max b ∧ ∀ i ∈ is, i ≤ is.foldl max b := by
  induction is generalizing b with
  | nil => exact ⟨le_refl b, fun i hi => by cases hi⟩
  | cons j is ih =>
    obtain ⟨hstart, hrest⟩ := ih (max b j)
    constructor
    · exact (le_max_left b j).trans hstart
    · intro i hi
      rcases List.mem_cons.mp hi with rfl | hi
      · exact (le_max_right b i).trans hstart
      · exact hrest i hi

theorem neg_one_le_max (w : World) (xpub blockchain : String) :
    -1 ≤ w.getMaxDerivedIndexForXpub xpub blockchain := (le_foldl_max _ _).1

abbrev XpubConfig := Config Stmt Reply Env World Empty Err XpubOperation

/-- The wallet that a step inserts, if its row fits. -/
def creating (s : KeyLibraries) (cfg : XpubConfig) (e : Event Env Empty XpubOperation) :
    Option XpubWallet :=
  match s.xpubSystem.executing cfg e with
  | some ⟨_, env, _, .stmt .pool (.createXpubWallet p)⟩ => some (World.newXpubWallet env.id p)
  | _ => none

/-- No wallet is given the id of another one: `names` says whose an id is. -/
def Serial (s : KeyLibraries) (names : Int → Int × String × String × String) (cfg : XpubConfig)
    (e : Event Env Empty XpubOperation) : Prop :=
  ∀ x ∈ s.creating cfg e, Registered names x

instance (s : KeyLibraries) (names : Int → Int × String × String × String) (cfg : XpubConfig)
    (e : Event Env Empty XpubOperation) : Decidable (s.Serial names cfg e) :=
  inferInstanceAs (Decidable (∀ x ∈ s.creating cfg e, names x.id = x.identity))

/-- Wallets and addresses are in order after every run of allowed steps, and so is what
the statements of such a run keep beside them. -/
theorem provides_along (s : KeyLibraries) (names : Int → Int × String × String × String)
    {allowed : XpubConfig → Event Env Empty XpubOperation → Prop} {J : World → Prop}
    (hJ : ∀ cfg i env st, s.Offered (Registered names) (0 ≤ ·) (.stmt .pool st) →
      (∀ p, st = .createXpubWallet p →
        World.newXpubWallet env.id p ∈ s.creating cfg (.exec i env)) →
      allowed cfg (.exec i env) → J cfg.world → J (World.effect st env cfg.world)) :
    ProvidesAlong s.xpubSystem (fun cfg e => s.Serial names cfg e ∧ allowed cfg e)
      (fun w => s.Consistent names w ∧ J w) (s.Offered (Registered names) (0 ≤ ·))
      (Told (Registered names) (0 ≤ ·)) where
  answer c env v hoffered h := by
    obtain ⟨st, rfl⟩ := offered_pool hoffered
    cases st with
    | getXpubWalletByID id =>
      intro x hx
      have hfound := noRows_eq_ok (answered_eq_ok hx).2
      exact h.1.registered x (Table.get_eq_some hfound).1
    | getMaxDerivedIndexForXpub xpub blockchain =>
      intro i hi
      have hmax := (answered_eq_ok hi).2
      cases hmax
      have := neg_one_le_max v.world xpub blockchain
      omega
    | _ => exact trivial
  keeps cfg i env th c k hex hallowed hoffered h := by
    obtain ⟨st, rfl⟩ := offered_pool hoffered
    have hcreating : ∀ p, st = .createXpubWallet p →
        World.newXpubWallet env.id p ∈ s.creating cfg (.exec i env) := by
      rintro p rfl
      rw [creating, hex.executing_eq]
      rfl
    have hserial : ∀ p, st = .createXpubWallet p →
        Registered names (World.newXpubWallet env.id p) :=
      fun p hp => hallowed.1 _ (hcreating p hp)
    by_cases hrefused : env.fate = .refused
    · have hsame : engine.autocommit st env cfg.world = cfg.world := by
        rw [autocommit_eq, if_pos hrefused]
      have hworld : (s.xpubSystem.engine.perform (.stmt .pool st) env (th.view cfg.world)).2.world =
          cfg.world := hsame
      rw [hworld]
      exact h
    · have heffect : engine.autocommit st env cfg.world = World.effect st env cfg.world := by
        rw [autocommit_eq, if_neg hrefused]
      have hworld : (s.xpubSystem.engine.perform (.stmt .pool st) env (th.view cfg.world)).2.world =
          World.effect st env cfg.world := heffect
      rw [hworld]
      exact ⟨h.1.effect hoffered hserial, hJ cfg i env st hoffered hcreating hallowed.2 h.2⟩
  move m := m.elim
  program := program_offers fun _ _ hle hstart => hstart.trans hle

theorem consistent_empty (s : KeyLibraries) (names : Int → Int × String × String × String)
    {w : World} (hwallets : w.xpubWallets = .empty) (haddresses : w.derivedAddresses = .empty) :
    s.Consistent names w := by
  have hnone : ∀ x ∈ w.xpubWallets.rows, False := by
    intro x hx
    rw [hwallets] at hx
    cases hx
  have hnowhere : ∀ a ∈ w.derivedAddresses.rows, False := by
    intro a ha
    rw [haddresses] at ha
    cases ha
  exact ⟨fun x hx => (hnone x hx).elim, fun x hx => (hnone x hx).elim,
    fun x hx => (hnone x hx).elim, fun a ha => (hnowhere a ha).elim,
    fun a ha => (hnowhere a ha).elim⟩

end KeyLibraries

end MerchantAPI

end CryptoLink
