import CryptoLink.Guarantees.WalletCalls

/-!
# The format of derived addresses

A key's version says which addresses belong to it. The version is dropped when
the key is stored, and the path that is kept in its place may be the merchant's:
it has to contain the key's own number, and may contain another as well.
-/

namespace CryptoLink

namespace MerchantAPI

open KeyedTables ReadCommitted StatementPrograms System

inductive AddressFormat where
  | p2pkh
  | p2sh
  | segwit
  deriving DecidableEq, Repr

/-- What an address of the format starts with. -/
def AddressFormat.start : AddressFormat → List Char
  | p2pkh => ['1']
  | p2sh => ['3']
  | segwit => ['b', 'c', '1', 'q']

def AddressFormat.fits (f : AddressFormat) (address : String) : Prop :=
  f.start <+: address.toList

instance (f : AddressFormat) (address : String) : Decidable (f.fits address) :=
  inferInstanceAs (Decidable (f.start <+: address.toList))

/-- The format of a SLIP-0132 version, mainnet and testnet. -/
def formatOf (version : List ℕ) : Option AddressFormat :=
  if version ∈ [[0x04, 0x88, 0xB2, 0x1E], [0x04, 0x35, 0x87, 0xCF]] then some .p2pkh
  else if version ∈ [[0x04, 0x9D, 0x7C, 0xB2], [0x04, 0x4A, 0x52, 0x62]] then some .p2sh
  else if version ∈ [[0x04, 0xB2, 0x47, 0x46], [0x04, 0x5F, 0x1C, 0xF6]] then some .segwit
  else none

/-- The merchant's path, where it is taken, does not point to a format that is
looked for earlier; off Bitcoin every address is of the first format. -/
def AddressFormat.KeptBy (blockchain derivationPath : String) : AddressFormat → Prop
  | p2pkh => blockchain = "BTC" → contains derivationPath "44'" = true →
      contains derivationPath "49'" = false ∧ contains derivationPath "84'" = false
  | p2sh => blockchain = "BTC"
  | segwit => blockchain = "BTC" ∧
      (contains derivationPath "84'" = true → contains derivationPath "49'" = false)

/-- What the libraries document: the version of an address decides how its text
starts. -/
structure KeyLibraries.Documented (s : KeyLibraries) : Prop where
  hash : ∀ b, (s.hash160 b).length = 20
  checksum : ∀ b, 4 ≤ (s.doubleSha256 b).length
  p2pkh : ∀ b, b.length = 24 → AddressFormat.p2pkh.fits (s.base58Encode (0x00 :: b))
  p2sh : ∀ b, b.length = 24 → AddressFormat.p2sh.fits (s.base58Encode (0x05 :: b))
  segwit : ∀ b a, s.bech32Encode "bc" (0x00 :: b) = .ok a → AddressFormat.segwit.fits a
  mainNet : ∀ k a, s.mainNetAddress k = .ok a → AddressFormat.p2pkh.fits a

theorem AddressFormat.fits_unique {f g : AddressFormat} {address : String} (hf : f.fits address)
    (hg : g.fits address) : f = g := by
  obtain ⟨rest, hrest⟩ := hf
  obtain ⟨rest', hrest'⟩ := hg
  rw [← hrest'] at hrest
  cases f with
  | p2pkh =>
    cases g with
    | p2pkh => rfl
    | p2sh => simp [start] at hrest
    | segwit => simp [start] at hrest
  | p2sh =>
    cases g with
    | p2pkh => simp [start] at hrest
    | p2sh => rfl
    | segwit => simp [start] at hrest
  | segwit =>
    cases g with
    | p2pkh => simp [start] at hrest
    | p2sh => simp [start] at hrest
    | segwit => rfl

theorem AddressFormat.fits_iff_of_fits {f g : AddressFormat} {address : String}
    (hg : g.fits address) : f.fits address ↔ f = g := by
  constructor
  · intro hf
    exact fits_unique hf hg
  · rintro rfl
    exact hg

/-- The format that a path leads to. -/
def derivedFormat (blockchain path : String) : AddressFormat :=
  if blockchain = "BTC" then
    if contains path "49'" then .p2sh
    else if contains path "84'" then .segwit
    else .p2pkh
  else .p2pkh

namespace KeyLibraries

variable {s : KeyLibraries}

theorem checked_fits (hs : s.Documented) {version : ℕ} {f : AddressFormat}
    (hf : ∀ b, b.length = 24 → f.fits (s.base58Encode (version :: b))) (b : List ℕ) :
    f.fits (s.checked (version :: s.hash160 b)) := by
  have hlength := hs.hash b
  have hchecksum := hs.checksum (version :: s.hash160 b)
  have hbody : (s.hash160 b ++ (s.doubleSha256 (version :: s.hash160 b)).take 4).length = 24 := by
    rw [List.length_append, List.length_take]
    omega
  exact hf _ hbody

theorem deriveBTCAddress_fits (hs : s.Documented) {key : List ℕ}
    {pubKeyHex path address pub : String}
      (h : s.deriveBTCAddress key pubKeyHex path = .ok (address, pub)) :
    (derivedFormat "BTC" path).fits address := by
  unfold deriveBTCAddress at h
  unfold derivedFormat
  rw [if_pos rfl]
  by_cases hwrapped : contains path "49'" = true
  · rw [if_pos hwrapped] at h ⊢
    cases h
    exact checked_fits hs hs.p2sh _
  · rw [if_neg hwrapped] at h ⊢
    by_cases hnative : contains path "84'" = true
    · rw [if_pos hnative] at h ⊢
      cases hdata : s.convertBits (s.hash160 key) with
      | error e => simp [hdata, wrapErr, Except.mapError, bind, Except.bind] at h
      | ok data =>
        cases hencoded : s.bech32Encode "bc" (0x00 :: data) with
        | error e => simp [hdata, hencoded, wrapErr, Except.mapError, bind, Except.bind] at h
        | ok a =>
          simp only [hdata, hencoded, wrapErr, Except.mapError, bind, Except.bind] at h
          cases h
          exact hs.segwit data _ hencoded
    · rw [if_neg hnative] at h ⊢
      cases h
      exact checked_fits hs hs.p2pkh _

theorem childAddress_fits (hs : s.Documented) {childKey : ExtendedKey}
    {blockchain path address pub : String}
    (h : (do
      let compressedPubKey ← wrapErr "failed to extract child public key" (s.ecPubKey childKey)
      if blockchain = "BTC" then
        s.deriveBTCAddress compressedPubKey (s.encodeToString compressedPubKey) path
      else do
        let addr ← wrapErr "failed to derive default address" (s.mainNetAddress childKey)
        .ok (addr, s.encodeToString compressedPubKey)) = Except.ok (address, pub)) :
    (derivedFormat blockchain path).fits address := by
  obtain ⟨compressed, -, h⟩ := ok_of_bind h
  by_cases hbtc : blockchain = "BTC"
  · simp only [hbtc, if_true] at h
    rw [hbtc]
    exact deriveBTCAddress_fits hs h
  · simp only [hbtc, if_false] at h
    obtain ⟨addr, haddr, h⟩ := ok_of_bind h
    cases h
    rw [derivedFormat, if_neg hbtc]
    cases hmain : s.mainNetAddress childKey with
    | error e => rw [hmain] at haddr; cases haddr
    | ok a =>
      rw [hmain] at haddr
      cases haddr
      exact hs.mainNet childKey _ hmain

/-- Whatever is derived has the format its path leads to. -/
theorem deriveAddressFromXpub_fits (hs : s.Documented) {xpub blockchain path address pub : String}
    {index : Int} (h : s.deriveAddressFromXpub xpub blockchain path index = .ok (address, pub)) :
    (derivedFormat blockchain path).fits address := by
  unfold deriveAddressFromXpub at h
  obtain ⟨account, -, h⟩ := ok_of_bind h
  by_cases hdepth : account.depth = 3
  · simp only [hdepth, if_true] at h
    obtain ⟨key, -, h⟩ := ok_of_bind h
    obtain ⟨childKey, -, h⟩ := ok_of_bind h
    exact childAddress_fits hs h
  · simp only [hdepth, if_false] at h
    obtain ⟨_, -, h⟩ := ok_of_bind h
    obtain ⟨childKey, -, h⟩ := ok_of_bind h
    exact childAddress_fits hs h

end KeyLibraries

/-- The number that stands for a format in a path. -/
def AddressFormat.bip : AddressFormat → String
  | p2pkh => "44'"
  | p2sh => "49'"
  | segwit => "84'"

def AddressFormat.ownPaths : AddressFormat → List String
  | p2pkh => ["m/44'/0'/0'", "m/44'/1'/0'"]
  | p2sh => ["m/49'/0'/0'", "m/49'/1'/0'"]
  | segwit => ["m/84'/0'/0'", "m/84'/1'/0'"]

/-- Both readers of a key's own path, the one that compares and the one that
derives, find the key's format in it. -/
theorem AddressFormat.ownPaths_read (f : AddressFormat) : ∀ path ∈ f.ownPaths,
    ["44'", "49'", "84'"].find? (contains path) = some f.bip ∧ derivedFormat "BTC" path = f := by
  cases f with
  | p2pkh => decide
  | p2sh => decide
  | segwit => decide

theorem AddressFormat.contains_empty (f : AddressFormat) : contains "" f.bip = false := by
  cases f with
  | p2pkh => decide
  | p2sh => decide
  | segwit => decide

theorem AddressFormat.chosenPath_of_own {f : AddressFormat} {autoPath : String}
    (h : autoPath ∈ f.ownPaths) (path : String) :
    chosenPath path autoPath = if contains path f.bip = true then path else autoPath := by
  have hmatches : pathMatchesFormat path autoPath = contains path f.bip := by
    simp only [pathMatchesFormat, (f.ownPaths_read autoPath h).1]
  rw [chosenPath, hmatches]
  by_cases hcontains : contains path f.bip = true
  · have hne : path ≠ "" := by
      rintro rfl
      rw [f.contains_empty] at hcontains
      cases hcontains
    rw [if_pos ⟨hne, hcontains⟩, if_pos hcontains]
  · rw [if_neg fun hboth => hcontains hboth.2, if_neg hcontains]

/-- A merchant's path that names the format keeps it as long as no other number
that it names is looked for earlier. -/
theorem AddressFormat.derivedFormat_of_contains {f : AddressFormat} {path : String}
    (h : contains path f.bip = true) : derivedFormat "BTC" path = f ↔ f.KeptBy "BTC" path := by
  cases f with
  | p2pkh =>
    have h44 : contains path "44'" = true := h
    cases h49 : contains path "49'" with
    | true => simp [derivedFormat, KeptBy, h44, h49]
    | false =>
      cases h84 : contains path "84'" with
      | true => simp [derivedFormat, KeptBy, h44, h49, h84]
      | false => simp [derivedFormat, KeptBy, h49, h84]
  | p2sh =>
    have h49 : contains path "49'" = true := h
    simp [derivedFormat, KeptBy, h49]
  | segwit =>
    have h84 : contains path "84'" = true := h
    cases h49 : contains path "49'" with
    | true => simp [derivedFormat, KeptBy, h84, h49]
    | false => simp [derivedFormat, KeptBy, h84, h49]

theorem AddressFormat.keptBy_of_not_contains {f : AddressFormat} {path : String}
    (h : ¬contains path f.bip = true) : f.KeptBy "BTC" path := by
  cases f with
  | p2pkh => exact fun _ h44 => absurd h44 h
  | p2sh => rfl
  | segwit => exact ⟨rfl, fun h84 => absurd h84 h⟩

theorem AddressFormat.derivedFormat_chosenPath {f : AddressFormat} {autoPath : String}
    (h : autoPath ∈ f.ownPaths) (blockchain path : String) :
    derivedFormat blockchain (chosenPath path autoPath) = f ↔ f.KeptBy blockchain path := by
  by_cases hbtc : blockchain = "BTC"
  · rw [hbtc, chosenPath_of_own h]
    by_cases hcontains : contains path f.bip = true
    · rw [if_pos hcontains]
      exact derivedFormat_of_contains hcontains
    · rw [if_neg hcontains]
      constructor
      · intro _
        exact keptBy_of_not_contains hcontains
      · intro _
        exact (f.ownPaths_read autoPath h).2
  · rw [derivedFormat, if_neg hbtc]
    cases f with
    | p2pkh => exact iff_of_true rfl fun h => absurd h hbtc
    | p2sh => exact iff_of_false (fun h => by cases h) hbtc
    | segwit => exact iff_of_false (fun h => by cases h) fun h => hbtc h.1

theorem knownVersionBytes_format : ∀ v ∈ knownVersionBytes, ∃ f,
    formatOf v.1 = some f ∧ v.2.2 ∈ f.ownPaths := by
  intro v hv
  simp only [knownVersionBytes, List.mem_cons, List.not_mem_nil, or_false] at hv
  rcases hv with rfl | rfl | rfl | rfl | rfl | rfl
  · exact ⟨.p2pkh, by decide, by decide⟩
  · exact ⟨.p2sh, by decide, by decide⟩
  · exact ⟨.segwit, by decide, by decide⟩
  · exact ⟨.p2pkh, by decide, by decide⟩
  · exact ⟨.p2sh, by decide, by decide⟩
  · exact ⟨.segwit, by decide, by decide⟩

namespace KeyLibraries

variable {s : KeyLibraries}

/-- The version of a key as its owner holds it. -/
def version (s : KeyLibraries) (key : String) : List ℕ := (s.base58Decode key).take 4

theorem convertToXpub_format {key xpub autoPath : String}
    (h : s.convertToXpub key = .ok (xpub, autoPath)) :
    ∃ f, formatOf (s.version key) = some f ∧ autoPath ∈ f.ownPaths := by
  obtain ⟨-, -, target, hmem, -⟩ := s.convertToXpub_eq_ok.mp h
  obtain ⟨f, hformat, hown⟩ := knownVersionBytes_format _ hmem
  exact ⟨f, hformat, hown⟩

/-- An address derived from the two stored fields has the format of the key that
they were stored for exactly if the merchant's path has kept it. -/
theorem fits_iff_keptBy (hs : s.Documented) {key given xpub path blockchain address pub : String}
    {index : Int} (hstored : s.StoredAs key given xpub path)
    (h : s.deriveAddressFromXpub xpub blockchain path index = .ok (address, pub)) :
    ∃ f, formatOf (s.version key) = some f ∧ (f.fits address ↔ f.KeptBy blockchain given) := by
  obtain ⟨autoPath, hconverted, -, hpath⟩ := hstored
  obtain ⟨f, hformat, hown⟩ := convertToXpub_format hconverted
  have hfits := deriveAddressFromXpub_fits hs h
  refine ⟨f, hformat, ?_⟩
  rw [AddressFormat.fits_iff_of_fits hfits, ← AddressFormat.derivedFormat_chosenPath hown, hpath]
  exact eq_comm

/-- Some accepted key and path were stored as this wallet. -/
def Stored (s : KeyLibraries) (x : XpubWallet) : Prop :=
  ∃ key given, s.StoredAs key given x.xpub x.derivationPath

theorem stored_effect {st : Stmt} {env : Env} {w : World} {Known : XpubWallet → Prop}
    {Start : Int → Prop} (h : ∀ x ∈ w.xpubWallets.rows, s.Stored x)
    (hoffered : s.Offered Known Start (.stmt .pool st)) :
    ∀ x ∈ (World.effect st env w).xpubWallets.rows, s.Stored x := by
  intro x hx
  rcases World.mem_effect_xpubWallets hx with ⟨y, hy, -, hsame⟩ | ⟨p, rfl, -, rfl⟩
  · obtain ⟨-, -, hxpub, hpath⟩ := XpubWallet.identity_eq.mp hsame
    rw [Stored, hxpub, hpath]
    exact h y hy
  · exact hoffered

theorem provides_stored (s : KeyLibraries) (names : Int → Int × String × String × String) :
    ProvidesAlong s.xpubSystem (fun cfg e => s.Serial names cfg e ∧ True)
      (fun w => s.Consistent names w ∧ ∀ x ∈ w.xpubWallets.rows, s.Stored x)
      (s.Offered (Registered names) (0 ≤ ·)) (Told (Registered names) (0 ≤ ·)) :=
  provides_along s names fun _ _ _ _ hoffered _ _ hstored => stored_effect hstored hoffered

/-- In every run, each derived address belongs to a wallet that is there, the key and
path it was created for were accepted, and the address has the format of the key's
version exactly if the path has kept it. -/
theorem address_format_iff_path_keeps (s : KeyLibraries) (hs : s.Documented) {w : World}
    (hwallets : w.xpubWallets = .empty) (haddresses : w.derivedAddresses = .empty)
    (names : Int → Int × String × String × String) (es : List (Event Env Empty XpubOperation))
    (hserial : s.xpubSystem.Along (s.Serial names) ⟨w, []⟩ es) :
    ∀ a ∈ (s.xpubSystem.run ⟨w, []⟩ es).world.derivedAddresses.rows,
      (∃ x ∈ (s.xpubSystem.run ⟨w, []⟩ es).world.xpubWallets.rows, a.xpubWalletID = x.id) ∧
      ∀ x ∈ (s.xpubSystem.run ⟨w, []⟩ es).world.xpubWallets.rows, a.xpubWalletID = x.id →
        (∃ key given, s.StoredAs key given x.xpub x.derivationPath) ∧
        ∀ key given, s.StoredAs key given x.xpub x.derivationPath →
          ∃ f, formatOf (s.version key) = some f ∧
            (f.fits a.address ↔ f.KeptBy x.blockchain given) := by
  have hnone : ∀ x ∈ w.xpubWallets.rows, s.Stored x := by
    intro x hx
    rw [hwallets] at hx
    cases hx
  obtain ⟨hconsistent, hstored⟩ := (provides_stored s names).run
    ⟨consistent_empty s names hwallets haddresses, hnone⟩
    (Along.mono s.xpubSystem hserial fun _ _ h => ⟨h, trivial⟩)
  intro a ha
  obtain ⟨y, hy, hheld⟩ := hconsistent.addresses a ha
  refine ⟨⟨y, hy, hheld.wallet⟩, ?_⟩
  intro x hx hwallet
  obtain rfl : y = x := Table.eq_of_key_eq hy hx (hheld.wallet.symm.trans hwallet)
  refine ⟨hstored y hy, ?_⟩
  intro key given hkey
  exact fits_iff_keptBy hs hkey hheld.derived

end KeyLibraries

namespace AccountKey

/-- The big-endian bytes of a number. -/
def bytes : ℕ → ℕ → List ℕ
  | 0, _ => []
  | k + 1, n => bytes k (n / 256) ++ [n % 256]

/-- What follows the version. -/
def body : List ℕ :=
  bytes 37 0x037ef32bdb800000004a53a0ab21b9dc95869c4e92a161194e03c0ef3ff5014ac692f433c4 ++
    bytes 37 0x765490fc02707a62fdacc26ea9b63b1c197906f56ee0180d0bcf1966e1a2da34f5f3a09a9b

def zpub : String :=
  "zpub6rFR7y4Q2AijBEqTUquhVz398htDFrtymD9xYYfG1m4wAcvPhXNfE3EfH1r1ADqtfSdVCToUG868RvUUkgDKf31mGDtKsAYz2oz2AGutZYs"

def xpub : String :=
  "xpub6CatWdiZiodmUeTDp8LT5or8nmbKNcuyvz7WyksVFkKB4RHwCD3XyuvPEbvqAQY3rAPshWcMLoP2fMFMKHPJ4ZeZXYVUhLv1VMrjPC7PW6V"

def zpubPayload : List ℕ := [0x04, 0xB2, 0x47, 0x46] ++ body

def xpubPayload : List ℕ := [0x04, 0x88, 0xB2, 0x1E] ++ body

def zpubChecksum : List ℕ := bytes 32
  0x2a96311045d0cc33a797275d102dbab6203c8acc02c2d9fa9a9bae78129d01f4

def xpubChecksum : List ℕ := bytes 32
  0xc632958249c9e5c4e7d54c9f0c2058d83203e6eeac5bba62b5ac06ade7a5eaa7

def account : ExtendedKey where
  version := [0x04, 0x88, 0xB2, 0x1E]
  depth := 3
  parent := bytes 4 0x7ef32bdb
  childNumber := 2147483648
  chainCode := bytes 32 0x4a53a0ab21b9dc95869c4e92a161194e03c0ef3ff5014ac692f433c4765490fc
  publicKey := bytes 33 0x02707a62fdacc26ea9b63b1c197906f56ee0180d0bcf1966e1a2da34f5f3a09a9b

def receiveChain : ExtendedKey where
  version := [0x04, 0x88, 0xB2, 0x1E]
  depth := 4
  parent := bytes 4 0xfd13aac9
  childNumber := 0
  chainCode := bytes 32 0x5fb17f32471143583da296b3af79da1a98f63db12389a0150a67610620925a38
  publicKey := bytes 33 0x02360e9ef11126e1a27808ce81206c264de9326f8fa5a4d2c63bf20f235ecf650b

def firstChild : ExtendedKey where
  version := [0x04, 0x88, 0xB2, 0x1E]
  depth := 5
  parent := bytes 4 0x3b0373d4
  childNumber := 0
  chainCode := bytes 32 0xab52cce8c3dc905c885ff8aa6d3374df3c27a38363acd3d623791b45017577ed
  publicKey := bytes 33 0x0330d54fd0dd420a6e5f8d3624f5f3482cae350f79d5f0753bf5beef9c2d91af3c

def keyHash : List ℕ := bytes 20 0xc0cebcd6c3d3ca8c75dc5ec62ebe55330ef910e2

def scriptHash : List ℕ := bytes 20 0xa6b5888fddc8fa193dd353d10e5cd5a8eeab064e

def scriptChecksum : List ℕ := bytes 32
  0x5ac1f4668a233bdcaf85a96ed1a29746090f30111f7b87b79a0cb377ea6503e7

/-- The libraries on this key and its first address. -/
def libraries : KeyLibraries where
  base58Decode text := if text = zpub then zpubPayload ++ zpubChecksum.take 4 else []
  base58Encode b :=
    if b = xpubPayload ++ xpubChecksum.take 4 then xpub
    else if b = 0x05 :: scriptHash ++ scriptChecksum.take 4 then
      "3GtVZYzsKF6Feikdjd4bDyPdAiyeHANY9b"
    else if b.head? = some 0x05 then "3" else "1"
  doubleSha256 b :=
    if b = zpubPayload then zpubChecksum
    else if b = xpubPayload then xpubChecksum
    else if b = 0x05 :: scriptHash then scriptChecksum
    else List.replicate 32 0
  hash160 b :=
    if b = firstChild.publicKey then keyHash
    else if b = 0x00 :: 0x14 :: keyHash then scriptHash
    else List.replicate 20 0
  encodeToString b := String.ofList (b.flatMap fun n => [(n / 16).digitChar, (n % 16).digitChar])
  convertBits _ := .error (Err.of .database)
  bech32Encode _ _ := .error (Err.of .database)
  newKeyFromString text := if text = xpub then .ok account else .error (Err.of .database)
  derive k i :=
    if k = account ∧ i = 0 then .ok receiveChain
    else if k = receiveChain ∧ i = 0 then .ok firstChild
    else .error (Err.of .database)
  ecPubKey k := .ok k.publicKey
  mainNetAddress _ := .error (Err.of .database)

def start : World :=
  { World.empty with
    merchants := ⟨[⟨1, "", 0, none, "", "", 1, []⟩], List.nodup_singleton _⟩ }

/-- The key of a native SegWit account, with a path that names P2SH as well, and
one address of it. -/
def events : List (Event Env Empty XpubOperation) :=
  .start (.createXpubWallet 1 "BTC" zpub "m/84'/0'/49'") ::
    List.replicate 4 (.exec 0 { id := 1 }) ++
      .start (.deriveAddress 1) :: List.replicate 6 (.exec 1 { id := 1 })

end AccountKey

open AccountKey

theorem AccountKey.documented : libraries.Documented where
  hash b := by
    show (if _ then _ else if _ then _ else _ : List ℕ).length = 20
    split
    · decide
    · split
      · decide
      · decide
  checksum b := by
    show 4 ≤ (if _ then _ else if _ then _ else if _ then _ else _ : List ℕ).length
    split
    · decide
    · split
      · decide
      · split
        · decide
        · decide
  p2pkh b hb := by
    have hlong : 0x00 :: b ≠ xpubPayload ++ xpubChecksum.take 4 := by
      intro h
      have hhead : some 0x00 = some 0x04 := congrArg List.head? h
      cases hhead
    have hscript : 0x00 :: b ≠ 0x05 :: scriptHash ++ scriptChecksum.take 4 := by
      intro h
      cases h
    have hfirst : (0x00 :: b).head? ≠ some 0x05 := by
      intro h
      cases h
    show AddressFormat.p2pkh.fits (if _ then _ else if _ then _ else if _ then _ else _)
    rw [if_neg hlong, if_neg hscript, if_neg hfirst]
    decide
  p2sh b hb := by
    have hlong : 0x05 :: b ≠ xpubPayload ++ xpubChecksum.take 4 := by
      intro h
      have hhead : some 0x05 = some 0x04 := congrArg List.head? h
      cases hhead
    show AddressFormat.p2sh.fits (if _ then _ else if _ then _ else if _ then _ else _)
    rw [if_neg hlong]
    split
    · decide
    · have hfirst : (0x05 :: b).head? = some 0x05 := rfl
      rw [if_pos hfirst]
      decide
  segwit b a h := by cases h
  mainNet k a h := by cases h

/-- What the run leaves. -/
theorem AccountKey.run_rows :
    ((libraries.xpubSystem.run ⟨start, []⟩ events).world.xpubWallets.rows.map fun x =>
        (x.id, x.blockchain, x.xpub, x.derivationPath)) =
      [(1, "BTC", xpub, "m/84'/0'/49'")] ∧
    ((libraries.xpubSystem.run ⟨start, []⟩ events).world.derivedAddresses.rows.map fun a =>
        (a.xpubWalletID, a.address)) = [(1, "3GtVZYzsKF6Feikdjd4bDyPdAiyeHANY9b")] := by
  decide +kernel

theorem AccountKey.stored : libraries.StoredAs zpub "m/84'/0'/49'" xpub "m/84'/0'/49'" :=
  ⟨"m/84'/0'/0'", by decide +kernel, ⟨account, by decide +kernel⟩, by decide +kernel⟩

theorem AccountKey.address_format_sample :
    (libraries.xpubSystem.run ⟨start, []⟩ events).world.derivedAddresses.rows ≠ [] ∧
    ∀ a ∈ (libraries.xpubSystem.run ⟨start, []⟩ events).world.derivedAddresses.rows,
      (∃ x ∈ (libraries.xpubSystem.run ⟨start, []⟩ events).world.xpubWallets.rows,
        a.xpubWalletID = x.id) ∧
      ∀ x ∈ (libraries.xpubSystem.run ⟨start, []⟩ events).world.xpubWallets.rows,
        a.xpubWalletID = x.id →
        (∃ key given, libraries.StoredAs key given x.xpub x.derivationPath) ∧
        ∀ key given, libraries.StoredAs key given x.xpub x.derivationPath →
          ∃ f, formatOf (libraries.version key) = some f ∧
            (f.fits a.address ↔ f.KeptBy x.blockchain given) := by
  constructor
  · intro hnone
    have hrows := run_rows.2
    rw [hnone] at hrows
    cases hrows
  · exact KeyLibraries.address_format_iff_path_keeps libraries documented rfl rfl
      (fun _ => (1, "BTC", xpub, "m/84'/0'/49'")) events (by decide +kernel)

/-- The address of a native SegWit key is a P2SH address. -/
theorem AccountKey.native_key_gives_wrapped_address :
    ¬ ∀ (s : KeyLibraries), s.Documented → ∀ (w : World), w.xpubWallets = .empty →
      w.derivedAddresses = .empty → ∀ (names : Int → Int × String × String × String)
        (es : List (Event Env Empty XpubOperation)),
        s.xpubSystem.Along (s.Serial names) ⟨w, []⟩ es →
        ∀ x ∈ (s.xpubSystem.run ⟨w, []⟩ es).world.xpubWallets.rows,
        ∀ a ∈ (s.xpubSystem.run ⟨w, []⟩ es).world.derivedAddresses.rows, a.xpubWalletID = x.id →
          ∀ key given, s.StoredAs key given x.xpub x.derivationPath →
            ∃ f, formatOf (s.version key) = some f ∧ f.fits a.address := by
  intro h
  obtain ⟨x, hwallets, hx⟩ := List.map_eq_singleton_iff.mp run_rows.1
  obtain ⟨a, haddresses, ha⟩ := List.map_eq_singleton_iff.mp run_rows.2
  simp only [Prod.mk.injEq] at hx ha
  obtain ⟨hid, -, hxpub, hpath⟩ := hx
  obtain ⟨hwallet, haddress⟩ := ha
  have hstored : libraries.StoredAs zpub "m/84'/0'/49'" x.xpub x.derivationPath := by
    rw [hxpub, hpath]
    exact stored
  have hversion : formatOf (libraries.version zpub) = some .segwit := by decide +kernel
  obtain ⟨f, hf, hfits⟩ := h libraries documented start rfl rfl
    (fun _ => (1, "BTC", xpub, "m/84'/0'/49'")) events (by decide +kernel) x
    (hwallets ▸ List.mem_singleton_self x) a (haddresses ▸ List.mem_singleton_self a)
    (hwallet.trans hid.symm) zpub "m/84'/0'/49'" hstored
  rw [hversion] at hf
  cases hf
  rw [haddress] at hfits
  exact absurd hfits (by decide)

end MerchantAPI

end CryptoLink
