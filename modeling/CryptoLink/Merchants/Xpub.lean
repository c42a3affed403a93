import CryptoLink.Library.Interleaving
import CryptoLink.Merchants.Tables

/-!
# Extended public keys

A merchant's key is converted to the plain version and stored with a path; the
path alone says later what kind of address is derived. Keys, curve, hashes and
encodings come from libraries.
-/

namespace CryptoLink

namespace MerchantAPI

open ReadCommitted StatementPrograms

def errXpubNotFound : Cause := .text "xpub wallet not found"

def errXpubAlreadyExists : Cause := .text "xpub wallet already exists for this blockchain"

def errInvalidXpub : Cause := .text "invalid extended key format"

/-- The parts of an extended public key. -/
structure ExtendedKey where
  version : List ℕ
  depth : ℕ
  parent : List ℕ
  childNumber : ℕ
  chainCode : List ℕ
  publicKey : List ℕ
  deriving DecidableEq, Repr

structure KeyLibraries where
  base58Decode : String → List ℕ
  base58Encode : List ℕ → String
  doubleSha256 : List ℕ → List ℕ
  hash160 : List ℕ → List ℕ
  encodeToString : List ℕ → String
  convertBits : List ℕ → Except Err (List ℕ)
  bech32Encode : String → List ℕ → Except Err String
  newKeyFromString : String → Except Err ExtendedKey
  derive : ExtendedKey → ℕ → Except Err ExtendedKey
  ecPubKey : ExtendedKey → Except Err (List ℕ)
  mainNetAddress : ExtendedKey → Except Err String

/-- The version bytes that are known, the ones they are converted to, and the
path they stand for. -/
def knownVersionBytes : List (List ℕ × List ℕ × String) :=
  [([0x04, 0x88, 0xB2, 0x1E], [0x04, 0x88, 0xB2, 0x1E], "m/44'/0'/0'"),
    ([0x04, 0x9D, 0x7C, 0xB2], [0x04, 0x88, 0xB2, 0x1E], "m/49'/0'/0'"),
    ([0x04, 0xB2, 0x47, 0x46], [0x04, 0x88, 0xB2, 0x1E], "m/84'/0'/0'"),
    ([0x04, 0x35, 0x87, 0xCF], [0x04, 0x35, 0x87, 0xCF], "m/44'/1'/0'"),
    ([0x04, 0x4A, 0x52, 0x62], [0x04, 0x35, 0x87, 0xCF], "m/49'/1'/0'"),
    ([0x04, 0x5F, 0x1C, 0xF6], [0x04, 0x35, 0x87, 0xCF], "m/84'/1'/0'")]

/-- `strings.Contains` -/
def contains (text part : String) : Bool := occurs part.toList text.toList
where
  occurs (part : List Char) : List Char → Bool
    | [] => part.isEmpty
    | c :: cs => part.isPrefixOf (c :: cs) || occurs part cs

def pathMatchesFormat (providedPath autoPath : String) : Bool :=
  match ["44'", "49'", "84'"].find? (contains autoPath) with
  | none => false
  | some bip => contains providedPath bip

/-- The merchant's path where it fits the key, or the key's own. -/
def chosenPath (derivationPath autoPath : String) : String :=
  if derivationPath ≠ "" ∧ pathMatchesFormat derivationPath autoPath then derivationPath
  else autoPath

def getXpubWalletByUUID (uuid : String) : TenantCall XpubWallet := do
  let entry ← query (.getXpubWalletByUUID uuid)
  succeed (orNotFound errXpubNotFound entry)

def listXpubWallets (merchantID : Int) : TenantCall (List XpubWallet) := do
  let entries ← query (.listXpubWalletsByMerchantID merchantID)
  succeed entries

def isIndexTakenError (e : Err) : Bool := e.is World.errIndexTaken

def maxDeriveAttempts : ℕ := 20

namespace KeyLibraries

variable (s : KeyLibraries)

def convertToXpub (key : String) : Except Err (String × String) :=
  let decoded := s.base58Decode key
  if decoded.length ≠ 82 then .error (Err.new "invalid extended key length")
  else if decoded.drop 78 ≠ (s.doubleSha256 (decoded.take 78)).take 4 then
    .error (Err.new "invalid checksum")
  else
    match knownVersionBytes.find? fun v => v.1 = decoded.take 4 with
    | none => .error (Err.new "unrecognized extended key prefix")
    | some (version, target, path) =>
      if version = target then .ok (key, path)
      else
        let payload := target ++ (decoded.take 78).drop 4
        .ok (s.base58Encode (payload ++ (s.doubleSha256 payload).take 4), path)

/-- The converted key: the version is replaced where it is not the plain one. -/
def retagged (key : String) (target : List ℕ) : String :=
  if (s.base58Decode key).take 4 = target then key
  else
    let payload := target ++ ((s.base58Decode key).take 78).drop 4
    s.base58Encode (payload ++ (s.doubleSha256 payload).take 4)

theorem convertToXpub_eq_ok {key plain path : String} :
    s.convertToXpub key = .ok (plain, path) ↔
      (s.base58Decode key).length = 82 ∧
      (s.base58Decode key).drop 78 = (s.doubleSha256 ((s.base58Decode key).take 78)).take 4 ∧
      ∃ target, ((s.base58Decode key).take 4, target, path) ∈ knownVersionBytes ∧
        plain = s.retagged key target := by
  have hunique : ∀ v ∈ knownVersionBytes,
      knownVersionBytes.find? (fun u => u.1 = v.1) = some v := by decide
  by_cases hlength : (s.base58Decode key).length = 82
  · by_cases hchecksum : (s.base58Decode key).drop 78 =
        (s.doubleSha256 ((s.base58Decode key).take 78)).take 4
    · cases hfind : knownVersionBytes.find? fun v => v.1 = (s.base58Decode key).take 4 with
      | none =>
        simp only [convertToXpub, hlength, hchecksum, hfind, ne_eq, not_true_eq_false, if_false]
        constructor
        · intro h
          cases h
        · rintro ⟨-, -, target, hmem, -⟩
          rw [hunique _ hmem] at hfind
          cases hfind
      | some v =>
        obtain ⟨version, target, own⟩ := v
        have hfound := List.find?_some hfind
        have hversion : version = (s.base58Decode key).take 4 := of_decide_eq_true hfound
        simp only [convertToXpub, hlength, hchecksum, hfind, ne_eq, not_true_eq_false, if_false,
          true_and]
        subst hversion
        have hmem := List.mem_of_find?_eq_some hfind
        constructor
        · intro h
          by_cases hplain : (s.base58Decode key).take 4 = target
          · simp only [if_pos hplain, Except.ok.injEq, Prod.mk.injEq] at h
            exact ⟨target, h.2 ▸ hmem, by rw [retagged, if_pos hplain, h.1]⟩
          · simp only [if_neg hplain, Except.ok.injEq, Prod.mk.injEq] at h
            exact ⟨target, h.2 ▸ hmem, by rw [retagged, if_neg hplain, h.1]⟩
        · rintro ⟨target', hmem', rfl⟩
          have hsame := hunique _ hmem'
          rw [hfind] at hsame
          cases hsame
          by_cases hplain : (s.base58Decode key).take 4 = target
          · rw [retagged, if_pos hplain, if_pos hplain]
          · rw [retagged, if_neg hplain, if_neg hplain]
    · simp [convertToXpub, hlength, hchecksum]
  · simp [convertToXpub, hlength]

def createXpubWallet (merchantID : Int) (blockchain xpubKey derivationPath : String) :
    TenantCall XpubWallet := do
  let (convertedKey, autoPath) ← succeed
    ((s.convertToXpub xpubKey).mapError fun _ => Err.of errInvalidXpub)
  match s.newKeyFromString convertedKey with
  | .error _ => .fail (Err.of errInvalidXpub)
  | .ok _ =>
    let finalPath := chosenPath derivationPath autoPath
    let existing ← query (.getXpubWalletByMerchantAndBlockchain merchantID blockchain)
    match existing with
    | .ok x =>
        if 0 < x.id then .fail (Err.of errXpubAlreadyExists)
        else create convertedKey finalPath
    | .error e => if e.is .noRows then create convertedKey finalPath else .fail e
where
  create (xpub path : String) : TenantCall XpubWallet := do
    let now ← query .timeNow
    let uuid ← query .newUUID
    let entry ← query (.createXpubWallet {
      uuid := uuid
      merchantID := merchantID
      blockchain := blockchain
      xpub := xpub
      derivationPath := path
      createdAt := now
      updatedAt := now
      lastDerivedIndex := some (-1)
      isActive := true })
    succeed entry

/-- The text of 21 bytes with a checksum behind them. -/
def checked (payload : List ℕ) : String :=
  s.base58Encode (payload ++ (s.doubleSha256 payload).take 4)

def deriveBTCAddress (compressedPubKey : List ℕ) (pubKeyHex derivationPath : String) :
    Except Err (String × String) :=
  let hash160 := s.hash160 compressedPubKey
  if contains derivationPath "49'" then
    -- the script that pushes the hash, hashed itself
    .ok (s.checked (0x05 :: s.hash160 (0x00 :: 0x14 :: hash160)), pubKeyHex)
  else if contains derivationPath "84'" then do
    let data ← wrapErr "failed to convert bits for bech32" (s.convertBits hash160)
    let address ← wrapErr "failed to encode bech32 address" (s.bech32Encode "bc" (0x00 :: data))
    .ok (address, pubKeyHex)
  else .ok (s.checked (0x00 :: hash160), pubKeyHex)

def deriveAddressFromXpub (xpub blockchain derivationPath : String) (index : Int) :
    Except Err (String × String) := do
  let account ← wrapErr "failed to parse xpub" (s.newKeyFromString xpub)
  let key ←
    if account.depth = 3 then
      wrapErr "failed to derive receive chain from account xpub" (s.derive account 0)
    else .ok account
  let childKey ← wrapErr "failed to derive child key" (s.derive key index.toNat)
  let compressedPubKey ← wrapErr "failed to extract child public key" (s.ecPubKey childKey)
  let pubKeyHex := s.encodeToString compressedPubKey
  if blockchain = "BTC" then s.deriveBTCAddress compressedPubKey pubKeyHex derivationPath
  else do
    let addr ← wrapErr "failed to derive default address" (s.mainNetAddress childKey)
    .ok (addr, pubKeyHex)

/-- The attempts that are left, from `nextIndex` on. -/
def deriveFrom (x : XpubWallet) (now nextIndex : Int) : ℕ → TenantCall DerivedAddress
  | 0 => .fail (Err.new "unable to find a free derivation index")
  | attempts + 1 => do
      let (address, pubKey) ← succeed (wrapErr "failed to derive address"
        (s.deriveAddressFromXpub x.xpub x.blockchain x.derivationPath nextIndex))
      let uuid ← query .newUUID
      let created ← query (.createDerivedAddress {
        uuid := uuid
        xpubWalletID := x.id
        merchantID := x.merchantID
        blockchain := x.blockchain
        address := address
        derivationPath := x.derivationPath ++ "/" ++ toString nextIndex
        derivationIndex := nextIndex
        publicKey := pubKey
        isUsed := false
        createdAt := now
        updatedAt := now })
      match created with
      | .error e =>
          if isIndexTakenError e then deriveFrom x now (nextIndex + 1) attempts else .fail e
      | .ok entry => do
          -- a failed update is only logged
          let _ ← query (.updateXpubWalletLastIndex x.id nextIndex now)
          pure entry

def deriveAddress (walletID : Int) : TenantCall DerivedAddress := do
  let found ← query (.getXpubWalletByID walletID)
  let x ← succeed (orNotFound errXpubNotFound found)
  let shared ← query (.getMaxDerivedIndexForXpub x.xpub x.blockchain)
  let sharedIndex ← succeed (wrapErr "failed to read shared xpub derivation index" shared)
  let now ← query .timeNow
  s.deriveFrom x now (max (x.lastDerivedIndex.getD (-1)) sharedIndex + 1) maxDeriveAttempts

def deriveAddressBatch (walletID : Int) : ℕ → TenantCall (List DerivedAddress)
  | 0 => pure []
  | count + 1 => do
      let address ← s.deriveAddress walletID
      let rest ← deriveAddressBatch walletID count
      pure (address :: rest)

def getNextUnusedAddress (walletID : Int) : TenantCall DerivedAddress := do
  let entry ← query (.getNextUnusedAddress walletID)
  match entry with
  | .ok a => pure a
  | .error e => if e.is .noRows then s.deriveAddress walletID else .fail e

end KeyLibraries

def listDerivedAddresses (walletID : Int) : TenantCall (List DerivedAddress) := do
  let entries ← query (.listDerivedAddressesByWalletID walletID)
  succeed entries

/-- The wallet and all its addresses are deleted for good. -/
def deactivateWallet (uuid : String) (merchantID : Int) : TenantCall Unit := do
  let entry ← getXpubWalletByUUID uuid
  if entry.merchantID ≠ merchantID then .fail (Err.of errXpubNotFound)
  else do
    let addresses ← query (.deleteDerivedAddressesByWalletID entry.id)
    succeed (wrapErr "failed to delete derived addresses" addresses)
    let wallet ← query (.hardDeleteXpubWallet entry.id)
    succeed (wrapErr "failed to delete xpub wallet" wallet)

def markAddressAsUsed (addressID paymentID : Int) : TenantCall DerivedAddress := do
  let now ← query .timeNow
  let entry ← query (.markAddressAsUsed addressID paymentID now)
  succeed entry

inductive XpubOperation where
  | createXpubWallet (merchantID : Int) (blockchain xpubKey derivationPath : String)
  | getXpubWalletByUUID (uuid : String)
  | listXpubWallets (merchantID : Int)
  | deriveAddress (walletID : Int)
  | deriveAddressBatch (walletID : Int) (count : ℕ)
  | getNextUnusedAddress (walletID : Int)
  | listDerivedAddresses (walletID : Int)
  | deactivateWallet (uuid : String) (merchantID : Int)
  | markAddressAsUsed (addressID paymentID : Int)

def done {α : Type} (p : TenantCall α) : TenantCall Unit := p.bind fun _ => .ret ()

namespace KeyLibraries

variable (s : KeyLibraries)

def program : XpubOperation → TenantCall Unit
  | .createXpubWallet m blockchain key path => done (s.createXpubWallet m blockchain key path)
  | .getXpubWalletByUUID uuid => done (getXpubWalletByUUID uuid)
  | .listXpubWallets m => done (listXpubWallets m)
  | .deriveAddress id => done (s.deriveAddress id)
  | .deriveAddressBatch id count => done (s.deriveAddressBatch id count)
  | .getNextUnusedAddress id => done (s.getNextUnusedAddress id)
  | .listDerivedAddresses id => done (listDerivedAddresses id)
  | .deactivateWallet uuid m => deactivateWallet uuid m
  | .markAddressAsUsed id paymentID => done (markAddressAsUsed id paymentID)

/-- Calls of the wallet service in every interleaving; nothing else writes its
two tables. -/
def xpubSystem : System Stmt Reply Env World Empty Err XpubOperation Empty where
  engine := engine
  program := s.program
  move m := m.elim

end KeyLibraries

end MerchantAPI

end CryptoLink
