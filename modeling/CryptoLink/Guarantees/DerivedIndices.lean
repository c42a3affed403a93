import CryptoLink.Guarantees.AddressFormats
import CryptoLink.Library.Base58
import Mathlib.Logic.Equiv.List

/-!
# Free indices

The index to derive next is looked for among the wallets with the same key, and
addresses differ over a whole blockchain. Two keys that derive the same chain
are not the same key: a key of depth 3 and its own first child.
-/

namespace CryptoLink

namespace MerchantAPI

open KeyedTables ReadCommitted StatementPrograms System

namespace KeyLibraries

variable (s : KeyLibraries)

/-- The key whose children are the addresses. -/
def receiveChain (xpub : String) : Option ExtendedKey :=
  match s.newKeyFromString xpub with
  | .error _ => none
  | .ok account => if account.depth = 3 then (s.derive account 0).toOption else some account

/-- The address of a child. -/
def childAddress (child : ExtendedKey) (blockchain derivationPath : String) :
    Except Err (String × String) := do
  let compressedPubKey ← wrapErr "failed to extract child public key" (s.ecPubKey child)
  let pubKeyHex := s.encodeToString compressedPubKey
  if blockchain = "BTC" then s.deriveBTCAddress compressedPubKey pubKeyHex derivationPath
  else do
    let addr ← wrapErr "failed to derive default address" (s.mainNetAddress child)
    .ok (addr, pubKeyHex)

/-- Child derivation as it is relied on: it does not fail, and no two children of
chains, or formats, share a public key or an address. -/
structure DerivesApart : Prop where
  derives : ∀ k i, ∃ child, s.derive k i = .ok child
  addressed : ∀ k i child blockchain path, s.derive k i = .ok child →
    ∃ r, s.childAddress child blockchain path = .ok r
  child_injective : ∀ k k' i i' child child', s.derive k i = .ok child →
    s.derive k' i' = .ok child' → child.publicKey = child'.publicKey →
    k.chainCode = k'.chainCode ∧ k.publicKey = k'.publicKey ∧ i = i'
  address_injective : ∀ k k' i i' child child' blockchain path path' address pub pub',
    s.derive k i = .ok child → s.derive k' i' = .ok child' →
    s.childAddress child blockchain path = .ok (address, pub) →
    s.childAddress child' blockchain path' = .ok (address, pub') →
    child.publicKey = child'.publicKey ∧
      derivedFormat blockchain path = derivedFormat blockchain path'

variable {s}

theorem deriveAddressFromXpub_eq {xpub blockchain path : String} {chain : ExtendedKey}
    (h : s.receiveChain xpub = some chain) (index : Int) :
    s.deriveAddressFromXpub xpub blockchain path index =
      (wrapErr "failed to derive child key" (s.derive chain index.toNat)).bind fun child =>
        s.childAddress child blockchain path := by
  cases hparse : s.newKeyFromString xpub with
  | error e => simp [receiveChain, hparse] at h
  | ok account =>
    by_cases hdepth : account.depth = 3
    · cases hchain : s.derive account 0 with
      | error e => simp [receiveChain, hparse, hdepth, hchain, Except.toOption] at h
      | ok c =>
        have hc : c = chain := by
          simpa [receiveChain, hparse, hdepth, hchain, Except.toOption] using h
        subst hc
        simp only [deriveAddressFromXpub, hparse, wrapErr_ok]
        refine (if_pos hdepth).trans ?_
        rw [hchain, wrapErr_ok]
        rfl
    · have hc : account = chain := by simpa [receiveChain, hparse, hdepth] using h
      subst hc
      simp only [deriveAddressFromXpub, hparse, wrapErr_ok]
      exact if_neg hdepth

theorem derived_total (hs : s.DerivesApart) {xpub : String} {chain : ExtendedKey}
    (h : s.receiveChain xpub = some chain) (blockchain path : String) (index : Int) :
    ∃ r, s.deriveAddressFromXpub xpub blockchain path index = .ok r := by
  obtain ⟨child, hchild⟩ := hs.derives chain index.toNat
  obtain ⟨r, hr⟩ := hs.addressed chain index.toNat child blockchain path hchild
  refine ⟨r, ?_⟩
  rw [deriveAddressFromXpub_eq h, hchild, wrapErr_ok]
  exact hr

/-- An address tells its chain, its index and its format. -/
theorem derived_apart (hs : s.DerivesApart) {xpub xpub' blockchain path path' : String}
    {chain chain' : ExtendedKey} {index index' : Int} {address pub pub' : String}
    (h : s.receiveChain xpub = some chain) (h' : s.receiveChain xpub' = some chain')
    (hderived : s.deriveAddressFromXpub xpub blockchain path index = .ok (address, pub))
    (hderived' : s.deriveAddressFromXpub xpub' blockchain path' index' = .ok (address, pub')) :
    (chain.chainCode = chain'.chainCode ∧ chain.publicKey = chain'.publicKey) ∧
      index.toNat = index'.toNat ∧
      derivedFormat blockchain path = derivedFormat blockchain path' := by
  obtain ⟨child, hchild⟩ := hs.derives chain index.toNat
  obtain ⟨child', hchild'⟩ := hs.derives chain' index'.toNat
  rw [deriveAddressFromXpub_eq h, hchild, wrapErr_ok] at hderived
  rw [deriveAddressFromXpub_eq h', hchild', wrapErr_ok] at hderived'
  obtain ⟨hkey, hformat⟩ := hs.address_injective chain chain' _ _ child child' blockchain path path'
    address pub pub' hchild hchild' hderived hderived'
  obtain ⟨hcode, hpublic, hindex⟩ := hs.child_injective _ _ _ _ _ _ hchild hchild' hkey
  exact ⟨⟨hcode, hpublic⟩, hindex, hformat⟩

theorem receiveChain_of_parsed (hs : s.DerivesApart) {xpub : String}
    (h : ∃ k, s.newKeyFromString xpub = .ok k) : ∃ chain, s.receiveChain xpub = some chain := by
  obtain ⟨k, hk⟩ := h
  by_cases hdepth : k.depth = 3
  · obtain ⟨chain, hchain⟩ := hs.derives k 0
    exact ⟨chain, by simp [receiveChain, hk, hdepth, hchain, Except.toOption]⟩
  · exact ⟨k, by simp [receiveChain, hk, hdepth]⟩

/-- Chain code and public key: all that the children depend on. -/
def material (s : KeyLibraries) (xpub : String) : Option (List ℕ × List ℕ) :=
  (s.receiveChain xpub).map fun chain => (chain.chainCode, chain.publicKey)

/-- The two wallets derive the same addresses: one chain, one format. -/
def SameAddresses (s : KeyLibraries) (x y : XpubWallet) : Prop :=
  s.material x.xpub = s.material y.xpub ∧
    derivedFormat x.blockchain x.derivationPath = derivedFormat y.blockchain y.derivationPath

instance (s : KeyLibraries) (x y : XpubWallet) : Decidable (s.SameAddresses x y) :=
  inferInstanceAs (Decidable (_ ∧ _))

/-- Wallets of one blockchain that derive the same addresses have the same key. -/
def Apart (s : KeyLibraries) (w : World) : Prop :=
  ∀ x ∈ w.xpubWallets.rows, ∀ y ∈ w.xpubWallets.rows, x.blockchain = y.blockchain →
    s.SameAddresses x y → x.xpub = y.xpub

/-- The highest index is looked for among all wallets with the key. -/
theorem le_max_of_heldBy {w : World} {x : XpubWallet} {a : DerivedAddress}
    (hx : x ∈ w.xpubWallets.rows) (ha : a ∈ w.derivedAddresses.rows) (h : s.HeldBy x a) :
    a.derivationIndex ≤ w.getMaxDerivedIndexForXpub x.xpub x.blockchain := by
  apply (le_foldl_max _ _).2
  refine List.mem_map_of_mem (List.mem_filter.mpr ⟨ha, ?_⟩)
  rw [h.wallet, Table.get_of_mem hx]
  simp

/-- The index a call of `DeriveAddress` tries first. -/
def nextIndex (w : World) (x : XpubWallet) : Int :=
  max (x.lastDerivedIndex.getD (-1)) (w.getMaxDerivedIndexForXpub x.xpub x.blockchain) + 1

theorem nextIndex_free (hs : s.DerivesApart) {names : Int → Int × String × String × String}
    {w : World} (h : s.Consistent names w) (hapart : s.Apart w) {x : XpubWallet}
    (hx : x ∈ w.xpubWallets.rows) {p : CreateDerivedAddressParams}
    (hp : s.WrittenFor (0 ≤ ·) x p) (hindex : p.derivationIndex = nextIndex w x) :
    w.indexTaken p = false := by
  have hbelow : ∀ a ∈ w.derivedAddresses.rows, ∀ y ∈ w.xpubWallets.rows, s.HeldBy y a →
      y.xpub = x.xpub → y.blockchain = x.blockchain → a.derivationIndex < p.derivationIndex := by
    intro a ha y hy hheld hxpub hblockchain
    have hle := le_max_of_heldBy hy ha hheld
    rw [hxpub, hblockchain] at hle
    rw [hindex, nextIndex]
    omega
  simp only [World.indexTaken, List.any_eq_false, Bool.or_eq_true, Bool.and_eq_true,
    decide_eq_true_eq]
  intro a ha htaken
  obtain ⟨y, hy, hheld⟩ := h.addresses a ha
  rcases htaken with ⟨hwallet, hsame⟩ | ⟨hblockchain, haddress⟩
  · have hyx : y = x := Table.eq_of_key_eq hy hx (by rw [← hheld.wallet, hwallet, hp.wallet])
    subst hyx
    have := hbelow a ha y hy hheld rfl rfl
    omega
  · have hchainOf : y.blockchain = x.blockchain := by
      rw [← hheld.blockchain, hblockchain, hp.blockchain]
    obtain ⟨chain, hchain⟩ := receiveChain_of_parsed hs (h.parsed x hx)
    obtain ⟨chain', hchain'⟩ := receiveChain_of_parsed hs (h.parsed y hy)
    have hderived' := hheld.derived
    rw [hchainOf, haddress] at hderived'
    obtain ⟨hmaterial, hindices, hformat⟩ :=
      derived_apart hs hchain hchain' hp.derived hderived'
    have hsame : s.SameAddresses x y := by
      constructor
      · rw [material, material, hchain, hchain', Option.map_some, Option.map_some, hmaterial.1,
          hmaterial.2]
      · rw [hformat, hchainOf]
    have hxpub := hapart x hx y hy hchainOf.symm hsame
    have hlt := hbelow a ha y hy hheld hxpub.symm hchainOf
    have hstart := hheld.start
    have hstart' := hp.start
    omega

section Alone

variable {w : World} {envs : ℕ → Env} {x : XpubWallet} {address pub : String}

/-- The row that an attempt inserts. -/
def rowFor (x : XpubWallet) (now index : Int) (uuid address pub : String) :
    CreateDerivedAddressParams where
  uuid := uuid
  xpubWalletID := x.id
  merchantID := x.merchantID
  blockchain := x.blockchain
  address := address
  derivationPath := x.derivationPath ++ "/" ++ toString index
  derivationIndex := index
  publicKey := pub
  isUsed := false
  createdAt := now
  updatedAt := now

/-- An attempt whose row is inserted is the last. -/
theorem alone_deriveFrom {now index : Int} {n attempts : ℕ} {entry : DerivedAddress}
    (hderived : s.deriveAddressFromXpub x.xpub x.blockchain x.derivationPath index =
      .ok (address, pub))
    (hcreated : engine.reply (.createDerivedAddress (rowFor x now index (envs n).text address pub))
      (envs (n + 1)) w = .ok entry) :
    engine.alone envs (s.deriveFrom x now index (attempts + 1)) n ⟨w, .idle⟩ =
      (.ok entry, n + 1 + 1 + 1,
        ⟨engine.autocommit (.updateXpubWalletLastIndex x.id index now) (envs (n + 1 + 1))
          (engine.autocommit
            (.createDerivedAddress (rowFor x now index (envs n).text address pub))
            (envs (n + 1)) w),
        .idle⟩) := by
  have huuid : w.answer (envs n) .newUUID = (envs n).text := rfl
  have hquery : engine.alone envs (query (.createDerivedAddress
      (rowFor x now index (envs n).text address pub))) (n + 1) ⟨w, .idle⟩ = _ :=
    Engine.alone_onPool engine envs
      (.createDerivedAddress (rowFor x now index (envs n).text address pub)) (n + 1) w .idle
  rw [hcreated] at hquery
  rw [deriveFrom]
  simp only [Prog.bind_eq, Engine.alone_bind, hderived, wrapErr_ok, succeed,
    Engine.alone_ofExcept]
  rw [alone_read envs (by rfl), huuid]
  rw [rowFor] at hquery ⊢
  dsimp only
  rw [hquery]
  rfl

/-- What comes before the first attempt. -/
theorem alone_deriveAddress (hdone : ∀ n, (envs n).fate = .done) (hx : x ∈ w.xpubWallets.rows) :
    engine.alone envs (s.deriveAddress x.id) 0 ⟨w, .idle⟩ =
      engine.alone envs (s.deriveFrom x (envs 2).now (nextIndex w x) maxDeriveAttempts) 3
        ⟨w, .idle⟩ := by
  simp only [deriveAddress, Prog.bind_eq, Engine.alone_bind]
  rw [alone_read envs (by rfl)]
  simp only [World.answer, answered_done (hdone _), Table.get_of_mem hx, noRows, orNotFound,
    succeed, Engine.alone_ofExcept]
  rw [alone_read envs (by rfl)]
  simp only [World.answer, answered_done (hdone _), wrapErr_ok]
  rw [alone_read envs (by rfl)]
  rfl

end Alone

theorem effect_of_done {env : Env} (h : env.fate = .done) (st : Stmt) (w : World) :
    engine.autocommit st env w = World.effect st env w := by
  rw [autocommit_eq, if_neg]
  rw [h]
  exact fun hrefused => by cases hrefused

/-- In a state in order, with no key's addresses under another key, the first
index is free: the call ends with an address that no other row has. -/
theorem deriveAddress_succeeds (hs : s.DerivesApart)
    {names : Int → Int × String × String × String} {w : World} (h : s.Consistent names w)
    (hapart : s.Apart w) {x : XpubWallet} (hx : x ∈ w.xpubWallets.rows) {envs : ℕ → Env}
    (hdone : ∀ n, (envs n).fate = .done)
    (hid : ∀ n, w.derivedAddresses.get (envs n).id = none)
    (huuid : ∀ n, ∀ a ∈ w.derivedAddresses.rows, a.uuid ≠ (envs n).text) :
    ∃ a n w', engine.alone envs (s.deriveAddress x.id) 0 ⟨w, .idle⟩ = (.ok a, n, ⟨w', .idle⟩) ∧
      a ∈ w'.derivedAddresses.rows ∧ s.HeldBy x a ∧
      ∀ b ∈ w'.derivedAddresses.rows, b.blockchain = a.blockchain → b.address = a.address →
        b = a := by
  obtain ⟨chain, hchain⟩ := receiveChain_of_parsed hs (h.parsed x hx)
  obtain ⟨⟨address, pub⟩, hderived⟩ :=
    derived_total hs hchain x.blockchain x.derivationPath (nextIndex w x)
  have hstart : 0 ≤ nextIndex w x := by
    have := neg_one_le_max w x.xpub x.blockchain
    rw [nextIndex]
    omega
  let p := rowFor x (envs 2).now (nextIndex w x) (envs 3).text address pub
  have hwritten : s.WrittenFor (0 ≤ ·) x p := ⟨rfl, rfl, rfl, hstart, hderived⟩
  have hfree : w.indexTaken p = false := nextIndex_free hs h hapart hx hwritten rfl
  have hfits : w.derivedAddressFits (envs 4).id p = true := by
    have hwallet : (w.xpubWallets.get x.id).isSome = true := by
      rw [Table.get_of_mem hx]
      rfl
    have hother : (w.derivedAddresses.rows.all fun a => a.uuid != p.uuid) = true := by
      rw [List.all_eq_true]
      intro a ha
      exact bne_iff_ne.mpr (huuid 3 a ha)
    simp only [World.derivedAddressFits, hid 4, Option.isNone_none, hfree, Bool.not_false, hother,
      Bool.and_true, Bool.and_eq_true]
    exact ⟨⟨trivial, h.merchants x hx⟩, hwallet⟩
  have hcreated : w.answer (envs 4) (.createDerivedAddress p) =
      .ok (World.newDerivedAddress (envs 4).id p) := by
    simp only [World.answer, answered_done (hdone _), World.createDerivedAddress, hfree,
      fitting, hfits]
    rfl
  have hrun := (alone_deriveAddress hdone hx).trans
    (alone_deriveFrom hderived hcreated)
  rw [effect_of_done (hdone _), effect_of_done (hdone _)] at hrun
  have hafter : s.Consistent names (World.effect
      (.updateXpubWalletLastIndex x.id (nextIndex w x) (envs 2).now) (envs 5)
      (World.effect (.createDerivedAddress p) (envs 4) w)) := by
    have hinserted : s.Consistent names (World.effect (.createDerivedAddress p) (envs 4) w) :=
      h.effect ⟨x, h.registered x hx, hwritten⟩ fun _ hcreate => by cases hcreate
    exact hinserted.effect trivial fun _ hcreate => by cases hcreate
  have hmem : World.newDerivedAddress (envs 4).id p ∈
      (World.effect (.createDerivedAddress p) (envs 4) w).derivedAddresses.rows := by
    have heffect : (World.effect (.createDerivedAddress p) (envs 4) w).derivedAddresses =
        w.derivedAddresses.insert (World.newDerivedAddress (envs 4).id p) := by
      rw [World.effect, if_pos hfits]
    rw [heffect]
    exact (Table.get_eq_some (Table.get_insert_self _ (hid 4))).1
  refine ⟨_, _, _, hrun, hmem, ⟨rfl, rfl, hstart, hderived⟩, ?_⟩
  intro b hb hblockchain haddress
  exact hafter.unique b hb _ hmem (.inr ⟨hblockchain, haddress⟩)

/-- A new wallet derives the addresses of a stored one of its blockchain only if
both have one key. -/
def KeysApart (s : KeyLibraries) (cfg : XpubConfig) (e : Event Env Empty XpubOperation) : Prop :=
  ∀ x ∈ s.creating cfg e, ∀ y ∈ cfg.world.xpubWallets.rows, y.blockchain = x.blockchain →
    s.SameAddresses y x → y.xpub = x.xpub

instance (s : KeyLibraries) (cfg : XpubConfig) (e : Event Env Empty XpubOperation) :
    Decidable (s.KeysApart cfg e) :=
  inferInstanceAs (Decidable (∀ x ∈ s.creating cfg e, ∀ y ∈ cfg.world.xpubWallets.rows,
    y.blockchain = x.blockchain → s.SameAddresses y x → y.xpub = x.xpub))

theorem SameAddresses.of_identity {x y x' y' : XpubWallet} (h : s.SameAddresses x y)
    (hx : x.identity = x'.identity) (hy : y.identity = y'.identity) : s.SameAddresses x' y' := by
  obtain ⟨-, hblockchain, hxpub, hpath⟩ := XpubWallet.identity_eq.mp hx
  obtain ⟨-, hblockchain', hxpub', hpath'⟩ := XpubWallet.identity_eq.mp hy
  rw [SameAddresses, ← hblockchain, ← hblockchain', ← hxpub, ← hxpub', ← hpath, ← hpath']
  exact h

theorem SameAddresses.symm {x y : XpubWallet} (h : s.SameAddresses x y) : s.SameAddresses y x := by
  exact ⟨h.1.symm, h.2.symm⟩

theorem Apart.effect {st : Stmt} {env : Env} {w : World} (h : s.Apart w)
    (hkeys : ∀ p, st = .createXpubWallet p → ∀ y ∈ w.xpubWallets.rows,
      y.blockchain = p.blockchain → s.SameAddresses y (World.newXpubWallet env.id p) →
        y.xpub = p.xpub) : s.Apart (World.effect st env w) := by
  intro x hx y hy hblockchain hsame
  rcases World.mem_effect_xpubWallets hx with ⟨x', hx', -, hidx⟩ | ⟨p, rfl, -, rfl⟩
  · obtain ⟨-, hbx, hxpubx, -⟩ := XpubWallet.identity_eq.mp hidx
    rcases World.mem_effect_xpubWallets hy with ⟨y', hy', -, hidy⟩ | ⟨p, rfl, -, rfl⟩
    · obtain ⟨-, hby, hxpuby, -⟩ := XpubWallet.identity_eq.mp hidy
      rw [hxpubx, hxpuby]
      exact h x' hx' y' hy' (by rw [← hbx, ← hby, hblockchain]) (hsame.of_identity hidx hidy)
    · rw [hxpubx]
      exact hkeys p rfl x' hx' (by rw [← hbx, hblockchain]; rfl) (hsame.of_identity hidx rfl)
  · rcases World.mem_effect_xpubWallets hy with ⟨y', hy', -, hidy⟩ | ⟨p', hp', -, rfl⟩
    · obtain ⟨-, hby, hxpuby, -⟩ := XpubWallet.identity_eq.mp hidy
      rw [hxpuby]
      exact (hkeys p rfl y' hy' (by rw [← hby, ← hblockchain]; rfl)
        (hsame.symm.of_identity hidy rfl)).symm
    · cases hp'
      rfl

/-- Wallets and addresses are in order after every run of allowed steps. -/
theorem provides_order (s : KeyLibraries) (names : Int → Int × String × String × String) :
    ProvidesAlong s.xpubSystem (fun cfg e => s.Serial names cfg e ∧ s.KeysApart cfg e)
      (fun w => s.Consistent names w ∧ s.Apart w) (s.Offered (Registered names) (0 ≤ ·))
      (Told (Registered names) (0 ≤ ·)) :=
  provides_along s names fun _ _ _ _ _ hcreating hkeys hapart =>
    hapart.effect fun p hp => hkeys _ (hcreating p hp)

/-- A call of `DeriveAddress` for any stored wallet, alone and answered, ends with
an address that no other row of the blockchain has; and a wallet has one address
at an index at most. -/
def NeverStuck (s : KeyLibraries) (w : World) : Prop :=
  (∀ x ∈ w.xpubWallets.rows, ∀ envs : ℕ → Env, (∀ n, (envs n).fate = .done) →
    (∀ n, w.derivedAddresses.get (envs n).id = none) →
    (∀ n, ∀ a ∈ w.derivedAddresses.rows, a.uuid ≠ (envs n).text) →
    ∃ a n w', engine.alone envs (s.deriveAddress x.id) 0 ⟨w, .idle⟩ = (.ok a, n, ⟨w', .idle⟩) ∧
      a ∈ w'.derivedAddresses.rows ∧
      ∀ b ∈ w'.derivedAddresses.rows, b.blockchain = a.blockchain → b.address = a.address →
        b = a) ∧
  ∀ a ∈ w.derivedAddresses.rows, ∀ b ∈ w.derivedAddresses.rows,
    a.xpubWalletID = b.xpubWalletID → a.derivationIndex = b.derivationIndex → a = b

/-- In every run in which no wallet is created for a key that derives the addresses
of a stored wallet with another key, derivation never gets stuck. -/
theorem never_stuck_while_keys_apart (s : KeyLibraries) (hs : s.DerivesApart)
    (names : Int → Int × String × String × String) (w : World) (hwallets : w.xpubWallets = .empty)
    (haddresses : w.derivedAddresses = .empty) (es : List (Event Env Empty XpubOperation))
    (hrun : s.xpubSystem.Along (fun cfg e => s.Serial names cfg e ∧ s.KeysApart cfg e)
      ⟨w, []⟩ es) : s.NeverStuck (s.xpubSystem.run ⟨w, []⟩ es).world := by
  have hapart : s.Apart w := by
    intro x hx
    rw [hwallets] at hx
    cases hx
  have hstart := And.intro (consistent_empty s names hwallets haddresses) hapart
  obtain ⟨hconsistent, hapart⟩ := (provides_order s names).run hstart hrun
  constructor
  · intro x hx envs hdone hid huuid
    obtain ⟨a, n, w', hend, hmem, -, hunique⟩ :=
      deriveAddress_succeeds hs hconsistent hapart hx hdone hid huuid
    exact ⟨a, n, w', hend, hmem, hunique⟩
  · intro a ha b hb hwallet hindex
    exact hconsistent.unique a ha b hb (.inl ⟨hwallet, hindex⟩)

end KeyLibraries

namespace SharedChain

open AccountKey KeyLibraries

/-- A function that has some values in a table. -/
def lookup {α β : Type} [DecidableEq α] (table : List (α × β)) (other : α → β) (a : α) : β :=
  match table.find? fun e => e.1 = a with
  | some e => e.2
  | none => other a

theorem lookup_cases {α β : Type} [DecidableEq α] (table : List (α × β)) (other : α → β) (a : α) :
    (∃ e ∈ table, e.1 = a ∧ lookup table other a = e.2) ∨ lookup table other a = other a := by
  cases hfind : table.find? fun e => e.1 = a with
  | none =>
    right
    simp only [lookup, hfind]
  | some e =>
    left
    have hfound := List.find?_some hfind
    refine ⟨e, List.mem_of_find?_eq_some hfind, of_decide_eq_true hfound, ?_⟩
    simp only [lookup, hfind]

theorem lookup_injective {α β γ : Type} [DecidableEq α] {table : List (α × β)} {other : α → β}
    (part : β → γ) (htable : ∀ e ∈ table, ∀ f ∈ table, part e.2 = part f.2 → e.1 = f.1)
    (hother : ∀ a a', part (other a) = part (other a') → a = a')
    (hapart : ∀ e ∈ table, ∀ a, part e.2 ≠ part (other a)) {a a' : α}
    (h : part (lookup table other a) = part (lookup table other a')) : a = a' := by
  rcases lookup_cases table other a with ⟨e, he, hea, hvalue⟩ | hvalue
  · rcases lookup_cases table other a' with ⟨f, hf, hfa, hvalue'⟩ | hvalue'
    · rw [hvalue, hvalue'] at h
      rw [← hea, ← hfa]
      exact htable e he f hf h
    · rw [hvalue, hvalue'] at h
      exact absurd h (hapart e he a')
  · rcases lookup_cases table other a' with ⟨f, hf, -, hvalue'⟩ | hvalue'
    · rw [hvalue, hvalue'] at h
      exact absurd h.symm (hapart f hf a)
    · rw [hvalue, hvalue'] at h
      exact hother a a' h

/-- A key of the chain, the hash of its public key and the checksum of its address. -/
structure Child where
  chainCode : List ℕ
  publicKey : List ℕ
  hash : List ℕ
  checksum : List ℕ

def octets (k n : ℕ) : List ℕ := (List.range k).map fun i => n / 256 ^ (k - 1 - i) % 256

def child (chainCode publicKey hash checksum : ℕ) : Child :=
  ⟨octets 32 chainCode, octets 33 publicKey, octets 20 hash, octets 32 checksum⟩

/-- The children 0 to 19 of the receive chain. -/
def children : List Child := [
  child 0xab52cce8c3dc905c885ff8aa6d3374df3c27a38363acd3d623791b45017577ed
    0x0330d54fd0dd420a6e5f8d3624f5f3482cae350f79d5f0753bf5beef9c2d91af3c
    0xc0cebcd6c3d3ca8c75dc5ec62ebe55330ef910e2
    0xab2edb1a3d423e30ca1248003888301e4681426e8687c2be2d8d926a6fd59814,
  child 0x9f56e82fdb95bfed000402aa8e703150dc9e4d493ed4e9abd3ac6ac694376101
    0x03e775fd51f0dfb8cd865d9ff1cca2a158cf651fe997fdc9fee9c1d3b5e995ea77
    0x9c90f934ea51fa0f6504177043e0908da6929983
    0x621c16d790be03cbbd9d746e5f07ed0e69af34d0ff953e091cf076c2f5dd7135,
  child 0x438aad61633f48227b469cc8bf946c2912e39efd9f6cd30b2b89aaa3e7bf5e3a
    0x038ffea936b2df76bf31220ebd56a34b30c6b86f40d3bd92664e2f5f98488dddfa
    0x0d0a4c5855ee698ae52872a147248c189fdff7c3
    0x76dbfb7b1d14af7c6aebac4cb3526bf93afe9552996fdf1f8050aa553fdbd928,
  child 0x4b5002e192e0f4681566fa8f7ff50b847e2fe158d854e9f2ea86c5a1a04ad5b1
    0x03de7490bcca92a2fb57d782c3fd60548ce3a842cad6f3a8d4e76d1f2ff7fcdb89
    0x47e8cfa1e26ffc460468348a9cb218d0346a3778
    0x1e08f800225c8a62f2847cae1678446b761029f2eb919d26c3c614b6a1070b7f,
  child 0x2546f9cc8a0e26ba2522301d00785bb223f443104da78548abd6b16e7f76330b
    0x03995137c8eb3b223c904259e9b571a8939a0ec99b0717684c3936407ca8538c1b
    0xd97cc009122c6ac9f405852249d8892b5037d07d
    0x56875f78cffa1a011687fd54b6f93654a616324d62ba9e52cff84019ce44fbf3,
  child 0xdfacdb65f430929976b19edb7976abf7a824324a99a143aefdbf3eaa3df2c8de
    0x0284ae0efbe5cb35b24036d48d49d3c55a84fa75552bd162fc3a2a55e2997dd459
    0x984420485959d0da23e7fe902bf315814cc7b64b
    0x3bd585e48a6bcd477f74a337ec3285896d5cd647e07af2522131c087c639d5f2,
  child 0x3610e173dc0a1578aa36b0ebac2b568de13f006626d44063536b9a0e823ae42c
    0x0299b4cb4809f52dac21bbd8c997d8bf052cf4d68bfe966c638c312fbfff636e17
    0x5e56706b0da301b78a49c2767da6046cb8fea8a8
    0x6efaa0f6799f4357fd856295ba663849d1e94a72a0d18f70b43c1f73a46b164d,
  child 0x0b0bfc98babac1145735df994e7ee7bb1afbf7dbfb9c21ab975a26e2da370150
    0x0275ceec11410ac8d730acd0f99e50a530e1c28b1cf89133ec5f798fb675bddc8e
    0xb9902ddb6e60fee67d33a8334f7cca03528386e4
    0xacb383c95c48063567a9d07d468f1bcd146ff24b857732543d301046585134ff,
  child 0x879bb7fdf6e04597d8569d2c3d8645f7a56063734e598cf17b4c1daf0088f6bc
    0x032099986cdbb0a76bd5e1aa88114dd1ee42373941e732dcb5605895ee35bc683f
    0x9e1ab8441b5238e8de505f27e6b74b8e8e5022aa
    0x2aeaa7b44efe048ea85807eccf91223eaa4950da33b20745996363eda63843a6,
  child 0xe0444514ee5b505780ba4f5d72c09e2f2a06329553897fcdc908a52492afc142
    0x0249a46ee1ccc04b3ba244747d5be3f388865b6742b4f88073d574407ca0a91a80
    0x441c190a0040f6a05936496c2005dad554158d02
    0x04c9855aa4754dc5452df5d5eb504338789cf453e6d82e94b05494a3c62d9bd6,
  child 0x52a10193231b5b85385abedf7e9c119d6f5ea4904e6a303bc55954bbe40d5134
    0x02f472754ce00903b9916eef916aa21a98aa70aa026b51cd70a307a838c56a15ec
    0x6c5e2a7699a3e4b419471b17aad4f15835419436
    0x7bcfa53a59854cb538da2b44e756dbc8902a3d4c4d19f453fd52403ab442aab2,
  child 0x25567ca45431c898692fc72117b48d264bb6ad7792dc528ef2914495b3b29cce
    0x0226a07edd0227fa6bc36239c0bd4db83d5e488f8fb1eeb68f89a5be916aad2d60
    0x30ea99599334801bf09d753af38ba546800bea8b
    0x8133404a0662c820c1c3d9e5d54426f4f1cee75d3c195d9a25602a49ff177554,
  child 0xa10f43286fee4bf1606a918b39bd95e6e5ed8e1d261127757f6c25d6a0204d6f
    0x031c34a6bce9676e0b011c93bcf8a2d1007add7ce07f9a502a537f0fee56325944
    0x3accc000f61be77b75761ef28f0bb2ad0418652a
    0xadcf9dc26b193c38e250a026154387b38db4c3c1c039d7d18d8c73cccc4cc0f4,
  child 0x249603498975a2e881a08ac9f46b277f9282a751b97105e9a77b21a35374267b
    0x03f6b67175aab6f80dabb4fdaf71fb3d0e5a63b2da432963e7e9be02e74f387139
    0x40fc98c93c15c39ad2f16cc0634871dfdedcd7ad
    0xd9fb7df0961340fe15b1b9b8705f3e21a26417f1d0d3142bbe49a5a45ba26f34,
  child 0x247d318ed22cd1c5e960c6d1ca7efda173bc09195c25811f2cce4a4e478c4d0c
    0x028c6433a7d168293d7e61238d52a200a60ed9cae7d685f7cae100619b6184f6fa
    0xaa4d0f7eeef3f7e9cfdcd5c10ebd1f22df5a7e14
    0x415ebdcce30d61b7063e452c9703d4230211a9c125c0f77bac18a079cb271892,
  child 0xe0da6eff09b4a20d44316028e4bc0cf067b0183a470ea687489a8091cf5700bf
    0x02b05e67ab098575526f23a7c4f3b69449125604c34a9b34909def7432a792fbf6
    0x42f90a7287eb310a66e10331ffb289d69b3c8a6e
    0xfccb94433020f4b6b47253313719ed889284b28d72d45c39a411d778fc851363,
  child 0x76a9fb55a07c0a43ee557ee878eacd8e335d6ff70ea1d64e55056156b32ac899
    0x03721ae11a20d7dc9cf374a5bf3062bb4f07d1055c68a15c873b74e54b1d7e3030
    0xf598a73848ba85991ce470e4c9859b01159de538
    0xdba9f539f75ebff89717552a9f65edb349e5c0813a91adbbc1aa9fbed81d0378,
  child 0xc7222744f0af6f6207e4cb1a9d1173699788296e9024722735913433740c8f5f
    0x0390d1feb19684674564df87854f3892d9e8a7d3551148c2f299a75d262c950ee0
    0x18abaed50b7c1176308baa094b054383b775f12c
    0x67178c3c5f3e297ab2351611b2f3d235590abd6822df5f4588b47a6c66970e9c,
  child 0x435f47ad8fa695d5ac688834f323d68d6a345c966a68ce6bb7ad2e4a90f21aaa
    0x02d56ba8cc5cb6c4e3995c2b73e7bc934d2456299cd74cb311d1c8612b46add054
    0x4e9fc668b67846369ac1ddcb5e170edd836fbd6f
    0xec01b5dd11e1ee91381859d5d7e3922d6422c73a3a1d458ec6e73fa83df44e79,
  child 0x1f140e48b4c5266ec5acd8411f2e82eb2f1d4114f8a6fbee82746e6056f36c48
    0x03fc8771c531b40e1202f91a779faf0a7955cebceb38bd18924163a99dafaaa647
    0x5788df3047dd2c2545eee12784e6212745916bb7
    0x067eed7b43dba90195bb73b8f8a1c8a21834da8f3d85f0d2288a53c5cf36e8d1]

def chainXpub : String :=
  "xpub6FPnz8nd9KHwrramFPiKretTQ6o7o7JdjjjuVgm9ByvK69i9sfZsTgHSr59PqHcg5E4CmCDbpZ1azNws6XaVNs4Tc9cUwgKQqZmUBoK3xUt"

def chainPayload : List ℕ :=
  receiveChain.version ++ receiveChain.depth :: receiveChain.parent ++ bytes 4 0 ++
    receiveChain.chainCode ++ receiveChain.publicKey

def chainChecksum : List ℕ := bytes 32
  0x35c0d93d586766a4b3357344a20938706ec47cda9b29540958b8eb004abb270c

/-- Chain code, public key and index, with the child's chain code and public key. -/
def childTable : List ((List ℕ × List ℕ × ℕ) × List ℕ × List ℕ) :=
  ((account.chainCode, account.publicKey, 0), receiveChain.chainCode, receiveChain.publicKey) ::
    children.zipIdx.map fun (c, i) =>
      ((receiveChain.chainCode, receiveChain.publicKey, i), c.chainCode, c.publicKey)

def hashTable : List (List ℕ × List ℕ) :=
  (account.publicKey, bytes 20 0xfd13aac9a294188cdfe1331a8d94880bccbef8c1) ::
  (receiveChain.publicKey, bytes 20 0x3b0373d4bf4c72518e47a5e0618bec2d4a35f6f9) ::
    children.map fun c => (c.publicKey, c.hash)

def checksumTable : List (List ℕ × List ℕ) :=
  (xpubPayload, xpubChecksum) :: (chainPayload, chainChecksum) ::
    children.map fun c => (0x00 :: c.hash, c.checksum)

def hash160 : List ℕ → List ℕ := lookup hashTable fun b => 256 :: b

/-- A text of its own for each list. -/
def marked (mark : List Char) (b : List ℕ) : String :=
  String.ofList (mark ++ List.replicate (Encodable.encode b) '1')

def doubleSha256 : List ℕ → List ℕ := lookup checksumTable fun _ => List.replicate 32 0

def base58Encode (b : List ℕ) : String :=
  if ∀ d ∈ b, d < 256 then Base58.encode b else marked ['0'] b

def checkedText (payload : List ℕ) : String :=
  base58Encode (payload ++ (doubleSha256 payload).take 4)

/-- The libraries on the account key, its receive chain and twenty children. -/
def libraries : KeyLibraries where
  base58Decode text :=
    if text = xpub then xpubPayload ++ xpubChecksum.take 4
    else if text = chainXpub then chainPayload ++ chainChecksum.take 4
    else []
  base58Encode := base58Encode
  doubleSha256 := doubleSha256
  hash160 := hash160
  encodeToString b := String.ofList (b.flatMap fun n => [(n / 16).digitChar, (n % 16).digitChar])
  convertBits b := .ok b
  bech32Encode hrp data := .ok (marked (hrp.toList ++ ['0']) data)
  newKeyFromString text :=
    if text = xpub then .ok account
    else if text = chainXpub then .ok receiveChain
    else .error (Err.of .database)
  derive k i :=
    let material := lookup childTable (fun a => ([], [256, Encodable.encode a]))
      (k.chainCode, k.publicKey, i)
    .ok ⟨k.version, k.depth + 1, (hash160 k.publicKey).take 4, i, material.1, material.2⟩
  ecPubKey k := .ok k.publicKey
  mainNetAddress k := .ok (checkedText (0x00 :: hash160 k.publicKey))

theorem hash160_injective {b b' : List ℕ} (h : hash160 b = hash160 b') : b = b' := by
  refine lookup_injective id ?_ ?_ ?_ h
  · decide +kernel
  · intro a a' hsame
    exact List.cons.inj hsame |>.2
  · intro e he a hsame
    have hhead : ∀ e ∈ hashTable, e.2.head? ≠ some 256 := by decide +kernel
    refine hhead e he ?_
    have hvalue : e.2 = 256 :: a := hsame
    rw [hvalue]
    rfl

theorem doubleSha256_length (b : List ℕ) : (doubleSha256 b).length = 32 := by
  have hall : ∀ e ∈ checksumTable, e.2.length = 32 := by decide +kernel
  rcases lookup_cases checksumTable (fun _ => List.replicate 32 0) b with
    ⟨e, he, -, hvalue⟩ | hvalue
  · rw [doubleSha256, hvalue]
    exact hall e he
  · rw [doubleSha256, hvalue]
    exact List.length_replicate

theorem marked_injective {mark : List Char} {b b' : List ℕ} (h : marked mark b = marked mark b') :
    b = b' := by
  have hlist := congrArg String.toList h
  rw [marked, marked, String.toList_ofList, String.toList_ofList] at hlist
  have hones := congrArg List.length (List.append_cancel_left hlist)
  rw [List.length_replicate, List.length_replicate] at hones
  exact Encodable.encode_injective hones

theorem zero_not_mem_encode {b : List ℕ} : '0' ∉ (Base58.encode b).toList := by
  rw [Base58.encode, String.toList_ofList]
  intro hzero
  obtain ⟨d, hd, hletter⟩ := List.mem_map.mp hzero
  have hall : ∀ d < 58, Base58.letter d ≠ '0' := by decide +kernel
  exact hall d (Base58.recode_lt (by omega) hd) hletter

theorem base58Encode_cases (b : List ℕ) :
    ((∀ d ∈ b, d < 256) ∧ base58Encode b = Base58.encode b) ∨ base58Encode b = marked ['0'] b := by
  by_cases hbytes : ∀ d ∈ b, d < 256
  · exact .inl ⟨hbytes, if_pos hbytes⟩
  · exact .inr (if_neg hbytes)

theorem zero_mem_marked {mark : List Char} (h : '0' ∈ mark) (b : List ℕ) :
    '0' ∈ (marked mark b).toList := by
  rw [marked, String.toList_ofList]
  exact List.mem_append_left _ h

theorem base58Encode_injective {b b' : List ℕ} (h : base58Encode b = base58Encode b') :
    b = b' := by
  rcases base58Encode_cases b with ⟨hbytes, hb⟩ | hb
  · rcases base58Encode_cases b' with ⟨hbytes', hb'⟩ | hb'
    · rw [hb, hb'] at h
      rw [← Base58.decode_encode hbytes, h, Base58.decode_encode hbytes']
    · rw [hb, hb'] at h
      exact absurd (h ▸ zero_mem_marked (by simp) b') zero_not_mem_encode
  · rcases base58Encode_cases b' with ⟨hbytes', hb'⟩ | hb'
    · rw [hb, hb'] at h
      exact absurd (h ▸ zero_mem_marked (by simp) b) zero_not_mem_encode
    · rw [hb, hb'] at h
      exact marked_injective h

theorem checkedText_injective {p p' : List ℕ} (h : checkedText p = checkedText p') : p = p' := by
  have hbytes := base58Encode_injective h
  have hlength := congrArg List.length hbytes
  simp only [List.length_append, List.length_take, doubleSha256_length] at hlength
  exact List.append_inj_left hbytes (by omega)

/-- The address of a public key in each format. -/
def addressText (f : AddressFormat) (publicKey : List ℕ) : String :=
  match f with
  | .p2sh => checkedText (0x05 :: hash160 (0x00 :: 0x14 :: hash160 publicKey))
  | .segwit => marked ['b', 'c', '0'] (0x00 :: hash160 publicKey)
  | .p2pkh => checkedText (0x00 :: hash160 publicKey)

theorem checkedText_ne_marked (p b : List ℕ) : checkedText p ≠ marked ['b', 'c', '0'] b := by
  intro h
  rcases base58Encode_cases (p ++ (doubleSha256 p).take 4) with ⟨-, hp⟩ | hp
  · rw [checkedText, hp] at h
    exact absurd (h ▸ zero_mem_marked (by simp) b) zero_not_mem_encode
  · rw [checkedText, hp] at h
    have hlist := congrArg String.toList h
    simp [marked, String.toList_ofList] at hlist

theorem addressText_injective {f f' : AddressFormat} {p p' : List ℕ}
    (h : addressText f p = addressText f' p') : p = p' ∧ f = f' := by
  cases f with
  | p2sh =>
    cases f' with
    | p2sh =>
      have hhash := hash160_injective (List.cons.inj (checkedText_injective h)).2
      exact ⟨hash160_injective (List.cons.inj (List.cons.inj hhash).2).2, rfl⟩
    | segwit => exact absurd h (checkedText_ne_marked _ _)
    | p2pkh => cases (List.cons.inj (checkedText_injective h)).1
  | segwit =>
    cases f' with
    | p2sh => exact absurd h.symm (checkedText_ne_marked _ _)
    | segwit => exact ⟨hash160_injective (List.cons.inj (marked_injective h)).2, rfl⟩
    | p2pkh => exact absurd h.symm (checkedText_ne_marked _ _)
  | p2pkh =>
    cases f' with
    | p2sh => cases (List.cons.inj (checkedText_injective h)).1
    | segwit => exact absurd h (checkedText_ne_marked _ _)
    | p2pkh => exact ⟨hash160_injective (List.cons.inj (checkedText_injective h)).2, rfl⟩

theorem childAddress_eq (child : ExtendedKey) (blockchain path : String) :
    libraries.childAddress child blockchain path =
      .ok (addressText (derivedFormat blockchain path) child.publicKey,
        libraries.encodeToString child.publicKey) := by
  by_cases hbtc : blockchain = "BTC"
  · by_cases hwrapped : contains path "49'" = true
    · simp [childAddress, derivedFormat, hbtc, hwrapped, deriveBTCAddress, addressText]
      rfl
    · by_cases hnative : contains path "84'" = true
      · simp [childAddress, derivedFormat, hbtc, hwrapped, hnative, deriveBTCAddress]
        rfl
      · simp [childAddress, derivedFormat, hbtc, hwrapped, hnative, deriveBTCAddress]
        rfl
  · simp [childAddress, derivedFormat, hbtc]
    rfl

theorem derivesApart : libraries.DerivesApart where
  derives k i := ⟨_, rfl⟩
  addressed k i child blockchain path _ := ⟨_, childAddress_eq child blockchain path⟩
  child_injective k k' i i' child child' hchild hchild' hkey := by
    cases hchild
    cases hchild'
    have htable := lookup_injective Prod.snd (by decide +kernel) ?_ ?_ hkey
    · simp only [Prod.mk.injEq] at htable
      exact ⟨htable.1, htable.2.1, htable.2.2⟩
    · intro a a' hsame
      exact Encodable.encode_injective (List.cons.inj (List.cons.inj hsame).2).1
    · intro e he a hsame
      have hhead : ∀ e ∈ childTable, e.2.2.head? ≠ some 256 := by decide +kernel
      refine hhead e he ?_
      rw [hsame]
      rfl
  address_injective k k' i i' child child' blockchain path path' address pub pub' _ _ h h' := by
    rw [childAddress_eq] at h h'
    simp only [Except.ok.injEq, Prod.mk.injEq] at h h'
    exact addressText_injective (h.1.trans h'.1.symm)

def start : World :=
  { World.empty with
    merchants := ⟨[⟨1, "a", 0, none, "", "", 1, []⟩, ⟨2, "b", 0, none, "", "", 1, []⟩], by decide⟩ }

def wallets (id : Int) : Int × String × String × String :=
  if id = 1 then (1, "BTC", xpub, "m/44'/0'/0'") else (2, "BTC", chainXpub, "m/44'/0'/0'")

/-- An account key with some addresses. -/
def accountEvents (count : ℕ) : List (Event Env Empty XpubOperation) :=
  .start (.createXpubWallet 1 "BTC" xpub "") ::
    List.replicate 4 (.exec 0 { id := 1, text := "first" }) ++
      .start (.deriveAddressBatch 1 count) ::
        (List.range (6 * count)).map fun n => .exec 1 { id := n, text := toString n }

/-- The receive chain of that key as a key of another merchant. -/
def sharedEvents : List (Event Env Empty XpubOperation) :=
  accountEvents 20 ++ .start (.createXpubWallet 2 "BTC" chainXpub "") ::
    List.replicate 4 (.exec 2 { id := 2, text := "second" })

def later : ℕ → Env := fun _ => { id := 1000, text := "later" }

/-- What the longer run leaves: all attempts for the second wallet hit addresses
of the first. -/
theorem shared_run_stuck :
    libraries.xpubSystem.Along (Serial libraries wallets) ⟨start, []⟩ sharedEvents ∧
    ((libraries.xpubSystem.run ⟨start, []⟩ sharedEvents).world.xpubWallets.rows.map fun x =>
      x.id) = [1, 2] ∧
    (libraries.xpubSystem.run ⟨start, []⟩ sharedEvents).world.derivedAddresses.get 1000 = none ∧
    (∀ a ∈ (libraries.xpubSystem.run ⟨start, []⟩ sharedEvents).world.derivedAddresses.rows,
      a.uuid ≠ "later") ∧
    (engine.alone later (libraries.deriveAddress 2) 0
      ⟨(libraries.xpubSystem.run ⟨start, []⟩ sharedEvents).world, .idle⟩).1.isOk = false := by
  decide +kernel

/-- Addresses derived while every key has addresses of its own. -/
theorem account_run_never_stuck :
    (libraries.xpubSystem.run ⟨start, []⟩ (accountEvents 2)).world.derivedAddresses.rows.length =
      2 ∧
    libraries.NeverStuck (libraries.xpubSystem.run ⟨start, []⟩ (accountEvents 2)).world :=
  ⟨by decide +kernel, KeyLibraries.never_stuck_while_keys_apart libraries derivesApart wallets start
    rfl rfl (accountEvents 2) (by decide +kernel)⟩

/-- The receive chain of a stored key, as a key of its own, has no free index. -/
theorem shared_chain_gets_stuck :
    ¬ ∀ s : KeyLibraries, s.DerivesApart → ∀ (names : Int → Int × String × String × String)
      (w : World), w.xpubWallets = .empty → w.derivedAddresses = .empty →
      ∀ es : List (Event Env Empty XpubOperation),
        s.xpubSystem.Along (s.Serial names) ⟨w, []⟩ es →
          s.NeverStuck (s.xpubSystem.run ⟨w, []⟩ es).world := by
  intro h
  obtain ⟨hserial, hwallets, hid, huuid, hstuck⟩ := shared_run_stuck
  have hmem : 2 ∈ (libraries.xpubSystem.run ⟨start, []⟩ sharedEvents).world.xpubWallets.rows.map
      fun x => x.id := by
    rw [hwallets]
    decide
  obtain ⟨x, hx, hxid⟩ := List.mem_map.mp hmem
  obtain ⟨a, n, w', hend, -⟩ :=
    (h libraries derivesApart wallets start rfl rfl sharedEvents hserial).1 x hx later
      (fun _ => rfl) (fun _ => hid) (fun _ => huuid)
  rw [hxid] at hend
  rw [hend] at hstuck
  cases hstuck

end SharedChain

end MerchantAPI

end CryptoLink
