import CryptoLink.Library.Base58
import CryptoLink.Guarantees.AddressFormats

/-!
# Converted keys

Converting a key writes another version in front of the same 74 bytes and signs
them with a new checksum. What is accepted is said by the bytes alone, and the
plain key that comes out belongs to the same network.
-/

namespace CryptoLink

namespace MerchantAPI

inductive Network where
  | mainnet
  | testnet
  deriving DecidableEq, Repr

def mainnetVersions : List (List ℕ) :=
  [[0x04, 0x88, 0xB2, 0x1E], [0x04, 0x9D, 0x7C, 0xB2], [0x04, 0xB2, 0x47, 0x46]]

def testnetVersions : List (List ℕ) :=
  [[0x04, 0x35, 0x87, 0xCF], [0x04, 0x4A, 0x52, 0x62], [0x04, 0x5F, 0x1C, 0xF6]]

/-- The network of a SLIP-0132 version. -/
def networkOf (version : List ℕ) : Option Network :=
  if mainnetVersions.contains version then some .mainnet
  else if testnetVersions.contains version then some .testnet
  else none

/-- xpub and tpub -/
def Network.plainVersion : Network → List ℕ
  | mainnet => [0x04, 0x88, 0xB2, 0x1E]
  | testnet => [0x04, 0x35, 0x87, 0xCF]

namespace Network

theorem length_plainVersion (n : Network) : n.plainVersion.length = 4 := by
  cases n with
  | mainnet => rfl
  | testnet => rfl

theorem plainVersion_lt (n : Network) : ∀ d ∈ n.plainVersion, d < 256 := by
  cases n with
  | mainnet => decide
  | testnet => decide

theorem networkOf_plainVersion (n : Network) : networkOf n.plainVersion = some n := by
  cases n with
  | mainnet => rfl
  | testnet => rfl

end Network

/-- The table sends each version to the plain one of its network. -/
theorem knownVersionBytes_network :
    ∀ v ∈ knownVersionBytes, ∃ n, networkOf v.1 = some n ∧ v.2.1 = n.plainVersion := by
  intro v hv
  simp only [knownVersionBytes, List.mem_cons, List.not_mem_nil, or_false] at hv
  rcases hv with rfl | rfl | rfl | rfl | rfl | rfl
  · exact ⟨.mainnet, rfl, rfl⟩
  · exact ⟨.mainnet, rfl, rfl⟩
  · exact ⟨.mainnet, rfl, rfl⟩
  · exact ⟨.testnet, rfl, rfl⟩
  · exact ⟨.testnet, rfl, rfl⟩
  · exact ⟨.testnet, rfl, rfl⟩

/-- And every version of a network is in the table. -/
theorem known_of_network {version : List ℕ} {n : Network} (h : networkOf version = some n) :
    ∃ path, (version, n.plainVersion, path) ∈ knownVersionBytes := by
  by_cases hmain : mainnetVersions.contains version = true
  · rw [networkOf, if_pos hmain] at h
    cases h
    rw [List.contains_iff_mem] at hmain
    simp only [mainnetVersions, List.mem_cons, List.not_mem_nil, or_false] at hmain
    rcases hmain with rfl | rfl | rfl
    · exact ⟨"m/44'/0'/0'", by decide⟩
    · exact ⟨"m/49'/0'/0'", by decide⟩
    · exact ⟨"m/84'/0'/0'", by decide⟩
  · rw [networkOf, if_neg hmain] at h
    by_cases htest : testnetVersions.contains version = true
    · rw [if_pos htest] at h
      cases h
      rw [List.contains_iff_mem] at htest
      simp only [testnetVersions, List.mem_cons, List.not_mem_nil, or_false] at htest
      rcases htest with rfl | rfl | rfl
      · exact ⟨"m/44'/1'/0'", by decide⟩
      · exact ⟨"m/49'/1'/0'", by decide⟩
      · exact ⟨"m/84'/1'/0'", by decide⟩
    · rw [if_neg htest] at h
      cases h

/-- Bytes 4 to 77: all but the version and the checksum. -/
def keyBody (bytes : List ℕ) : List ℕ := (bytes.take 78).drop 4

/-- 82 bytes, the last four of them the checksum of the others. -/
def HasChecksum (sum256 : List ℕ → List ℕ) (bytes : List ℕ) : Prop :=
  bytes.length = 82 ∧ bytes.drop 78 = (sum256 (sum256 (bytes.take 78))).take 4

/-- A version, a body and their checksum. -/
def assembled (sum256 : List ℕ → List ℕ) (version body : List ℕ) : List ℕ :=
  (version ++ body) ++ (sum256 (sum256 (version ++ body))).take 4

/-- What is relied on: SHA-256 gives 32 bytes, whatever they are, and reading
what was written in base 58 gives the bytes again. -/
structure KeyLibraries.Codecs (s : KeyLibraries) (sum256 : List ℕ → List ℕ) : Prop where
  sum256_length : ∀ b, (sum256 b).length = 32
  sum256_lt : ∀ b, ∀ d ∈ sum256 b, d < 256
  doubleSha256 : ∀ b, s.doubleSha256 b = sum256 (sum256 b)
  decode_lt : ∀ text, ∀ d ∈ s.base58Decode text, d < 256
  decode_encode : ∀ bytes, (∀ d ∈ bytes, d < 256) → s.base58Decode (s.base58Encode bytes) = bytes

theorem length_body {bytes : List ℕ} (h : bytes.length = 82) : (keyBody bytes).length = 74 := by
  rw [keyBody, List.length_drop, List.length_take]
  omega

section Assembled

variable {sum256 : List ℕ → List ℕ} {version tail : List ℕ}

theorem take_assembled (hversion : version.length = 4) (htail : tail.length = 74) :
    (assembled sum256 version tail).take 78 = version ++ tail := by
  have hlength : (version ++ tail).length = 78 := by
    rw [List.length_append]
    omega
  exact List.take_left' hlength

theorem assembled_hasChecksum (hsum : ∀ b, (sum256 b).length = 32) (hversion : version.length = 4)
    (htail : tail.length = 74) : HasChecksum sum256 (assembled sum256 version tail) := by
  have hlength : (version ++ tail).length = 78 := by
    rw [List.length_append]
    omega
  constructor
  · have := hsum (sum256 (version ++ tail))
    rw [assembled, List.length_append, List.length_take, hlength]
    omega
  · rw [take_assembled hversion htail]
    exact List.drop_left' hlength

theorem version_assembled (hversion : version.length = 4) :
    (assembled sum256 version tail).take 4 = version := by
  rw [assembled, List.append_assoc]
  exact List.take_left' hversion

theorem body_assembled (hversion : version.length = 4) (htail : tail.length = 74) :
    keyBody (assembled sum256 version tail) = tail := by
  rw [keyBody, take_assembled hversion htail]
  exact List.drop_left' hversion

theorem assembled_lt (hsum : ∀ b, ∀ d ∈ sum256 b, d < 256) (hversion : ∀ d ∈ version, d < 256)
    (htail : ∀ d ∈ tail, d < 256) : ∀ d ∈ assembled sum256 version tail, d < 256 := by
  intro d hd
  rcases List.mem_append.mp hd with hpayload | hchecksum
  · rcases List.mem_append.mp hpayload with hv | ht
    · exact hversion d hv
    · exact htail d ht
  · exact hsum _ d (List.mem_of_mem_take hchecksum)

end Assembled

namespace KeyLibraries

variable {s : KeyLibraries} {sum256 : List ℕ → List ℕ}

theorem body_lt (hs : s.Codecs sum256) (key : String) :
    ∀ d ∈ keyBody (s.base58Decode key), d < 256 := by
  intro d hd
  exact hs.decode_lt key d (List.mem_of_mem_take (List.mem_of_mem_drop hd))

/-- The bytes of a converted key. -/
theorem decode_retagged (hs : s.Codecs sum256) {key : String} {n : Network}
    (hkey : HasChecksum sum256 (s.base58Decode key)) :
    s.base58Decode (s.retagged key n.plainVersion) =
      assembled sum256 n.plainVersion (keyBody (s.base58Decode key)) := by
  by_cases hplain : (s.base58Decode key).take 4 = n.plainVersion
  · have hpayload : n.plainVersion ++ keyBody
      (s.base58Decode key) = (s.base58Decode key).take 78 := by
      have hfront : ((s.base58Decode key).take 78).take 4 = n.plainVersion := by
        rw [List.take_take, ← hplain]
        rfl
      calc n.plainVersion ++ keyBody (s.base58Decode key)
          = ((s.base58Decode key).take 78).take 4 ++ ((s.base58Decode key).take 78).drop 4 := by
            rw [hfront, keyBody]
        _ = (s.base58Decode key).take 78 := List.take_append_drop 4 _
    rw [retagged, if_pos hplain, assembled, hpayload, ← hkey.2]
    exact (List.take_append_drop 78 _).symm
  · rw [retagged, if_neg hplain]
    simp only [hs.doubleSha256]
    exact hs.decode_encode _ (assembled_lt hs.sum256_lt n.plainVersion_lt (body_lt hs key))

/-- A key is converted if its bytes are sound and its version has a network; the
network then says what comes out. -/
theorem convertToXpub_iff (hs : s.Codecs sum256) {key plain : String} :
    (∃ path, s.convertToXpub key = .ok (plain, path)) ↔
      HasChecksum sum256 (s.base58Decode key) ∧
      ∃ n, networkOf (s.version key) = some n ∧ plain = s.retagged key n.plainVersion := by
  constructor
  · rintro ⟨path, h⟩
    obtain ⟨hlength, hchecksum, target, hmem, hplain⟩ := s.convertToXpub_eq_ok.mp h
    obtain ⟨n, hnetwork, htarget⟩ := knownVersionBytes_network _ hmem
    refine ⟨⟨hlength, ?_⟩, n, hnetwork, ?_⟩
    · rw [hchecksum, hs.doubleSha256]
    · exact hplain.trans (congrArg (s.retagged key) htarget)
  · rintro ⟨⟨hlength, hchecksum⟩, n, hnetwork, hplain⟩
    obtain ⟨path, hmem⟩ := known_of_network hnetwork
    refine ⟨path, s.convertToXpub_eq_ok.mpr ⟨hlength, ?_, n.plainVersion, hmem, hplain⟩⟩
    rw [hs.doubleSha256]
    exact hchecksum

theorem retagged_plain {key : String} {n : Network} (h : s.version key = n.plainVersion) :
    s.retagged key n.plainVersion = key := by
  rw [retagged]
  exact if_pos h

/-- For every key: it is converted exactly if its bytes are sound; the result is
sound, has the same body and the plain version of the same network, and is left
as it is by another conversion; equal results come from equal bodies of one
network. -/
theorem conversion_retags (hs : s.Codecs sum256) :
    (∀ key, (∃ plain path, s.convertToXpub key = .ok (plain, path)) ↔
      HasChecksum sum256 (s.base58Decode key) ∧ ∃ n, networkOf (s.version key) = some n) ∧
    (∀ key plain path, s.convertToXpub key = .ok (plain, path) →
      HasChecksum sum256 (s.base58Decode plain) ∧
      keyBody (s.base58Decode plain) = keyBody (s.base58Decode key) ∧
      (∃ n, networkOf (s.version key) = some n ∧ s.version plain = n.plainVersion) ∧
      ∃ path', s.convertToXpub plain = .ok (plain, path')) ∧
    (∀ key key' plain path path', s.convertToXpub key = .ok (plain, path) →
      s.convertToXpub key' = .ok (plain, path') →
      keyBody (s.base58Decode key) = keyBody (s.base58Decode key') ∧
      networkOf (s.version key) = networkOf (s.version key')) := by
  have hresult : ∀ key plain path, s.convertToXpub key = .ok (plain, path) →
      HasChecksum sum256 (s.base58Decode plain) ∧
      keyBody (s.base58Decode plain) = keyBody (s.base58Decode key) ∧
      ∃ n, networkOf (s.version key) = some n ∧ s.version plain = n.plainVersion := by
    intro key plain path h
    obtain ⟨hkey, n, hnetwork, rfl⟩ := (convertToXpub_iff hs).mp ⟨path, h⟩
    have hbody := length_body hkey.1
    have hbytes := decode_retagged hs (n := n) hkey
    refine ⟨?_, ?_, n, hnetwork, ?_⟩
    · rw [hbytes]
      exact assembled_hasChecksum hs.sum256_length n.length_plainVersion hbody
    · rw [hbytes]
      exact body_assembled n.length_plainVersion hbody
    · rw [version, hbytes]
      exact version_assembled n.length_plainVersion
  refine ⟨?_, ?_, ?_⟩
  · intro key
    constructor
    · rintro ⟨plain, path, h⟩
      obtain ⟨hkey, n, hnetwork, -⟩ := (convertToXpub_iff hs).mp ⟨path, h⟩
      exact ⟨hkey, n, hnetwork⟩
    · rintro ⟨hkey, n, hnetwork⟩
      exact ⟨_, (convertToXpub_iff hs).mpr ⟨hkey, n, hnetwork, rfl⟩⟩
  · intro key plain path h
    obtain ⟨hsound, hbody, n, hnetwork, hversion⟩ := hresult key plain path h
    refine ⟨hsound, hbody, ⟨n, hnetwork, hversion⟩, ?_⟩
    apply (convertToXpub_iff hs).mpr
    refine ⟨hsound, n, ?_, (retagged_plain hversion).symm⟩
    rw [hversion]
    exact n.networkOf_plainVersion
  · intro key key' plain path path' h h'
    obtain ⟨-, hbody, n, hnetwork, hversion⟩ := hresult key plain path h
    obtain ⟨-, hbody', n', hnetwork', hversion'⟩ := hresult key' plain path' h'
    have hsame : n = n' := by
      have hboth := n.networkOf_plainVersion
      rw [← hversion, hversion', n'.networkOf_plainVersion] at hboth
      cases hboth
      rfl
    constructor
    · rw [← hbody, hbody']
    · rw [hnetwork, hnetwork', hsame]

end KeyLibraries

namespace AccountKey

def zpubHash : List ℕ := bytes 32
  0x5b3702a1abe0245fa5b13f55e5e0a6a602e92b85f75946f32a5bb21a9134f51e

def xpubHash : List ℕ := bytes 32
  0xcd39879b3b166485d225ca8b81cd08e87e404337faa08177f83833d33b6ac1e8

/-- SHA-256 on the two payloads of this key. -/
def sum256 (b : List ℕ) : List ℕ :=
  if b = zpubPayload then zpubHash
  else if b = zpubHash then zpubChecksum
  else if b = xpubPayload then xpubHash
  else if b = xpubHash then xpubChecksum
  else List.replicate 32 0

def codecLibraries : KeyLibraries :=
  { libraries with
    base58Decode := Base58.decode
    base58Encode := Base58.encode
    doubleSha256 := fun b => sum256 (sum256 b) }

theorem sum256_cases (b : List ℕ) :
    sum256 b ∈ [zpubHash, zpubChecksum, xpubHash, xpubChecksum, List.replicate 32 0] := by
  unfold sum256
  split
  · simp
  · split
    · simp
    · split
      · simp
      · split
        · simp
        · simp

theorem codecs : codecLibraries.Codecs sum256 where
  sum256_length b := by
    have hall : ∀ h ∈ [zpubHash, zpubChecksum, xpubHash, xpubChecksum, List.replicate 32 0],
        h.length = 32 := by decide +kernel
    exact hall _ (sum256_cases b)
  sum256_lt b := by
    have hall : ∀ h ∈ [zpubHash, zpubChecksum, xpubHash, xpubChecksum, List.replicate 32 0],
        ∀ d ∈ h, d < 256 := by decide +kernel
    exact hall _ (sum256_cases b)
  doubleSha256 _ := rfl
  decode_lt := Base58.decode_lt
  decode_encode _ := Base58.decode_encode

/-- A native SegWit key and the plain key with the same body. -/
theorem zpub_retags :
    codecLibraries.convertToXpub zpub = .ok (xpub, "m/84'/0'/0'") ∧
    keyBody (Base58.decode xpub) = keyBody (Base58.decode zpub) ∧
    (∃ path', codecLibraries.convertToXpub xpub = .ok (xpub, path')) := by
  have hconverted : codecLibraries.convertToXpub zpub = .ok (xpub, "m/84'/0'/0'") := by
    decide +kernel
  obtain ⟨-, hbody, -, hagain⟩ :=
    (KeyLibraries.conversion_retags codecs).2.1 zpub xpub "m/84'/0'/0'" hconverted
  exact ⟨hconverted, hbody, hagain⟩

end AccountKey

end MerchantAPI

end CryptoLink
