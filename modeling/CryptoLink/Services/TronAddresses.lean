import CryptoLink.Library.Base58
import CryptoLink.Library.Hexadecimal

/-!
# TRON addresses

An address is 21 bytes, kept in base 58 with four bytes of checksum behind it
and sent to a node in hexadecimal. Both codecs are of the platform's own
writing but for the base 58 encoder.
-/

namespace CryptoLink

namespace TronAddress

/-- `hex.DecodeString`, the bytes before an error with the error dropped. -/
def hexDecodeString (s : String) : List UInt8 := Hexadecimal.read s.toList

/-- The standard encoding of a byte string. -/
def base58Encode (b : List UInt8) : String := Base58.encode (b.map UInt8.toNat)

/-- `TronHexToBase58` over any digest. -/
def tronHexToBase58 (sha256 : List UInt8 → List UInt8) (address : String) : String :=
  let addressHex := hexDecodeString address
  let hash1 := sha256 (sha256 addressHex)
  let secret := hash1.take 4
  base58Encode (addressHex ++ secret)

def alphabet : String := "123456789ABCDEFGHJKLMNPQRSTUVWXYZabcdefghijkmnopqrstuvwxyz"

/-- `strings.IndexRune`; the alphabet has one byte a letter. -/
def indexRune (s : String) (c : Char) : Option ℕ :=
  if c ∈ s.toList then some (s.toList.idxOf c) else none

/-- The number written in the letters read so far. -/
def readLetters : ℕ → List Char → Option ℕ
  | result, [] => some result
  | result, c :: cs =>
    match indexRune alphabet c with
    | none => none
    | some idx => readLetters (result * 58 + idx) cs

/-- `big.Int.Bytes`: big-endian, with no zero in front. -/
def bigIntBytes (n : ℕ) : List UInt8 := (Base58.digits 256 n).map UInt8.ofNat

def countLeadingOnes : List Char → ℕ
  | [] => 0
  | c :: cs => if c ≠ '1' then 0 else countLeadingOnes cs + 1

/-- `none` is the slice `nil`. -/
def base58Decode (input : String) : Option (List UInt8) :=
  match readLetters 0 input.toList with
  | none => none
  | some result =>
    let bz := bigIntBytes result
    let numLeadingZeros := countLeadingOnes input.toList
    some (List.replicate numLeadingZeros 0 ++ bz)

/-- The verb `%x` on bytes. -/
def formatHex (b : List UInt8) : String := String.ofList (Hexadecimal.write b)

def tronBase58ToHex (base58Addr : String) : String :=
  let decoded := (base58Decode base58Addr).getD []
  if decoded.length < 21 then "" else formatHex (decoded.take 21)

end TronAddress

end CryptoLink
