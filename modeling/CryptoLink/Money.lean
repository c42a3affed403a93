import CryptoLink.Errors
import CryptoLink.Library.LetterCase
import Mathlib.Algebra.Order.Ring.Int
import Mathlib.Algebra.Order.Ring.Rat

/-!
# Money and currencies

Amounts are unbounded integers in the smallest unit of their currency. Two
amounts are compatible when ticker and decimals agree; the type (fiat or
crypto) is carried along and never compared.
-/

namespace CryptoLink

abbrev Blockchain := String

inductive CryptoCurrencyType where
  | coin
  | token
  deriving DecidableEq, Repr

structure CryptoCurrency where
  blockchain : Blockchain
  networkID : String
  testNetworkID : String
  type : CryptoCurrencyType
  ticker : String
  name : String
  decimals : Int
  tokenContractAddress : String
  testTokenContractAddress : String
  aliases : List String
  deprecated : Bool
  deriving DecidableEq, Repr

namespace CryptoCurrency

def chooseNetwork (c : CryptoCurrency) (isTest : Bool) : String :=
  if isTest then c.testNetworkID else c.networkID

def chooseContractAddress (c : CryptoCurrency) (isTest : Bool) : String :=
  if isTest && c.testTokenContractAddress != "" then c.testTokenContractAddress
  else c.tokenContractAddress

def maxDisplayDecimals (c : CryptoCurrency) : Int :=
  if c.decimals ≤ 8 then c.decimals else 8

end CryptoCurrency

/-- `unset` is the type of Go's zero value `Money{}`. -/
inductive MoneyType where
  | unset
  | fiat
  | crypto
  deriving DecidableEq, Repr

structure Money where
  moneyType : MoneyType
  ticker : String
  value : Int
  decimals : Int
  deriving DecidableEq, Repr

namespace Money

def zeroValue : Money := ⟨.unset, "", 0, 0⟩

def compatibleTo (m b : Money) : Bool :=
  m.ticker = b.ticker && m.decimals = b.decimals

def incompatible (m b : Money) : Err :=
  (Err.of .errIncompatibleMoney).wrap
    ("a: \"" ++ m.ticker ++ "\" (" ++ toString m.decimals ++ " dec.), b: \"" ++ b.ticker ++
      "\" (" ++ toString b.decimals ++ " dec.)")

def add (m amount : Money) : Except Err Money :=
  if m.compatibleTo amount then .ok ⟨m.moneyType, m.ticker, m.value + amount.value, m.decimals⟩
  else .error (m.incompatible amount)

/-- Subtraction that allows a negative outcome. -/
def subNegative (m amount : Money) : Except Err Money :=
  if m.compatibleTo amount then .ok ⟨m.moneyType, m.ticker, m.value - amount.value, m.decimals⟩
  else .error (m.incompatible amount)

def isZero (m : Money) : Bool := m.value = 0

def isNegative (m : Money) : Bool := m.value < 0

def sub (m amount : Money) : Except Err Money :=
  match m.subNegative amount with
  | .error e => .error e
  | .ok out => if out.isNegative then .error (Err.of .errNegative) else .ok out

def equals (m b : Money) : Bool := m.compatibleTo b && m.value = b.value

def greaterThan (m b : Money) : Bool := m.compatibleTo b && b.value < m.value

def greaterThanOrEqual (m b : Money) : Bool := m.equals b || m.greaterThan b

def stringRaw (m : Money) : String := toString m.value

def trimRight (c : Char) (s : List Char) : List Char :=
  (s.reverse.dropWhile fun x => x = c).reverse

def string (m : Money) : String :=
  let raw := (toString m.value).toList
  let digits := if m.isNegative then raw.drop 1 else raw
  let l := digits.length
  let d := m.decimals.toNat
  let result :=
    if d < l then digits.take (l - d) ++ ['.'] ++ digits.drop (l - d)
    else ['0', '.'] ++ List.replicate (d - l) '0' ++ digits
  let trimmed :=
    if m.moneyType = .fiat then
      if [ '.', '0', '0'].isSuffixOf result then result.take (result.length - 3) else result
    else trimRight '.' (trimRight '0' result)
  String.ofList (if m.isNegative then '-' :: trimmed else trimmed)

/-- `NewFromBigInt` with the crypto type, for a value that is never nil. -/
def crypto (ticker : String) (value decimals : Int) : Money := ⟨.crypto, ticker, value, decimals⟩

def truncateDecimals (m : Money) (maxDecimals : Int) : Money :=
  if m.decimals ≤ maxDecimals ∨ maxDecimals < 0 then m
  else
    let scale : Int := 10 ^ (m.decimals - maxDecimals).toNat
    ⟨m.moneyType, m.ticker, m.value / scale * scale, m.decimals⟩

def ceilDecimals (m : Money) (maxDecimals : Int) : Money :=
  if m.decimals ≤ maxDecimals ∨ maxDecimals < 0 then m
  else
    let scale : Int := 10 ^ (m.decimals - maxDecimals).toNat
    let quot := m.value.tdiv scale + if 0 < m.value.tmod scale then 1 else 0
    ⟨m.moneyType, m.ticker, quot * scale, m.decimals⟩

/-- `FiatToFloat64`, over exact rationals. -/
def fiatToFloat64 (m : Money) : Except Err ℚ :=
  if m.moneyType = .fiat then .ok ((m.value : ℚ) / 10 ^ m.decimals.toNat)
  else .error (Err.new "money should be fiat")

def digitsToNat (cs : List Char) : Option ℕ :=
  if cs.isEmpty then none
  else cs.foldl (fun acc c => acc.bind fun n =>
    if c.isDigit then some (10 * n + (c.toNat - '0'.toNat)) else none) (some 0)

/-- `big.Int.SetString` in base 10: an optional sign and at least one digit. -/
def setString (s : String) : Option Int :=
  match s.toList with
  | '-' :: cs => (digitsToNat cs).map fun n => -(n : Int)
  | '+' :: cs => (digitsToNat cs).map fun n => (n : Int)
  | cs => (digitsToNat cs).map fun n => (n : Int)

/-- The fold of `digitsToNat` over digits. -/
theorem foldl_digits (cs : List Char) (h : ∀ c ∈ cs, c.isDigit = true) (n : ℕ) :
    cs.foldl (fun acc c => acc.bind fun n =>
      if c.isDigit then some (10 * n + (c.toNat - '0'.toNat)) else none) (some n) =
        some (Nat.ofDigitChars 10 cs n) := by
  induction cs generalizing n with
  | nil => simp
  | cons c cs ih =>
    rw [List.foldl_cons, Option.bind_some, if_pos (h c List.mem_cons_self),
      ih (fun d hd => h d (List.mem_cons_of_mem _ hd)), Nat.ofDigitChars_cons]

theorem digitsToNat_toDigits (n : ℕ) : digitsToNat (Nat.toDigits 10 n) = some n := by
  have hdigits : ∀ c ∈ Nat.toDigits 10 n, c.isDigit = true := fun c hc =>
    Nat.isDigit_of_mem_toDigits (by omega) (by omega) hc
  have hne : (Nat.toDigits 10 n).isEmpty = false := by
    simp [Nat.toDigits_ne_nil]
  unfold digitsToNat
  rw [hne, foldl_digits _ hdigits]
  simp

/-- `SetString` reads back what `String` renders. -/
theorem setString_toString (x : Int) : setString (toString x) = some x := by
  rw [Int.toString_eq_repr, Int.repr_eq_if]
  unfold setString
  by_cases hx : 0 ≤ x
  · rw [if_pos hx, show x.toNat.repr.toList = Nat.toDigits 10 x.toNat by simp [Nat.repr]]
    have hdigits : ∀ c ∈ Nat.toDigits 10 x.toNat, c.isDigit = true := fun c hc =>
      Nat.isDigit_of_mem_toDigits (by omega) (by omega) hc
    split
    · rename_i cs hcs
      exact absurd (hdigits '-' (hcs ▸ List.mem_cons_self)) (by decide)
    · rename_i cs hcs
      exact absurd (hdigits '+' (hcs ▸ List.mem_cons_self)) (by decide)
    · rw [digitsToNat_toDigits]
      exact congrArg some (Int.toNat_of_nonneg hx)
  · rw [if_neg hx, show ("-" ++ (-x).toNat.repr).toList = '-' :: Nat.toDigits 10 (-x).toNat by
      simp [Nat.repr]]
    simp only [digitsToNat_toDigits]
    have hneg : -((-x).toNat : Int) = x := by omega
    exact congrArg some hneg

def clear (s : String) : String := String.ofList (s.toList.filter fun c => c ≠ '_')

def new (moneyType : MoneyType) (ticker value : String) (decimals : Int) : Except Err Money :=
  match setString (clear value) with
  | none => .error (Err.of .errParse)
  | some v => .ok ⟨moneyType, ticker, v, decimals⟩

/-- `strings.Repeat("0", n)`, which panics on a negative count. -/
def zeros (n : Int) : Except Err (List Char) :=
  if n < 0 then .error (Err.of (.panic "strings: negative Repeat count"))
  else .ok (List.replicate n.toNat '0')

/-- `len` of a string: the bytes of its UTF-8 text. -/
def byteLength (cs : List Char) : ℕ := (cs.map Char.utf8Size).sum

def cryptoFromStringFloat (ticker floatString : String) (decimals : Int) : Except Err Money :=
  match floatString.toList.splitOn '.' with
  | [whole] => do
      let pad ← zeros decimals
      new .crypto ticker (String.ofList (whole ++ pad)) decimals
  | [whole, fraction] => do
      let pad ← zeros (decimals - byteLength fraction)
      new .crypto ticker (String.ofList (whole ++ fraction ++ pad)) decimals
  | _ => .error ((Err.of .errParse).wrap "invalid floatString provided")

variable {a b : Money}

theorem compatibleTo_iff : a.compatibleTo b = true ↔ a.ticker = b.ticker ∧
    a.decimals = b.decimals := by
  simp [compatibleTo]

theorem add_eq_ok {c : Money} (h : a.add b = .ok c) :
    a.compatibleTo b = true ∧ c = ⟨a.moneyType, a.ticker, a.value + b.value, a.decimals⟩ := by
  unfold add at h
  split at h
  · exact ⟨‹_›, by cases h; rfl⟩
  · cases h

theorem greaterThanOrEqual_iff :
    a.greaterThanOrEqual b = true ↔ a.compatibleTo b = true ∧ b.value ≤ a.value := by
  simp only [greaterThanOrEqual, equals, greaterThan, Bool.or_eq_true, Bool.and_eq_true,
    decide_eq_true_eq]
  constructor
  · rintro (⟨h, hv⟩ | ⟨h, hv⟩)
    · exact ⟨h, by omega⟩
    · exact ⟨h, by omega⟩
  · rintro ⟨h, hv⟩
    by_cases he : a.value = b.value
    · exact .inl ⟨h, he⟩
    · exact .inr ⟨h, by omega⟩

example : (crypto "ETH" 1500 3).string = "1.5" := by decide
example : (crypto "BTC" (-25) 8).string = "-0.00000025" := by decide
example : cryptoFromStringFloat "ETH" "0.12" 4 = .ok (crypto "ETH" 1200 4) := by decide

end Money

namespace CryptoCurrency

def makeAmountFromBigInt (c : CryptoCurrency) (amount : Int) : Money :=
  Money.crypto c.ticker amount c.decimals

end CryptoCurrency

/-- `strings.ToLower` -/
def lower (s : String) : String := String.ofList (s.toList.map LetterCase.toLower)

/-- `strings.ToUpper` -/
def upper (s : String) : String := String.ofList (s.toList.map LetterCase.toUpper)

/-- The registered currencies in the order `sortCurrencies` gives them; the
tickers are the keys of Go's map. -/
structure Currencies where
  list : List CryptoCurrency
  tickers : (list.map CryptoCurrency.ticker).Nodup

namespace Currencies

variable (r : Currencies)

def getCurrencyByTicker (ticker : String) : Except Err CryptoCurrency :=
  match r.list.find? fun c => c.ticker = upper ticker with
  | some c => .ok c
  | none => .error ((Err.of .errCurrencyNotFound).wrap (upper ticker))

/-- A deprecated currency is not in the index by blockchain. -/
def listBlockchainCurrencies (blockchain : Blockchain) : List CryptoCurrency :=
  r.list.filter fun c => c.blockchain = blockchain && !c.deprecated

def getNativeCoin (chain : Blockchain) : Except Err CryptoCurrency :=
  match (r.listBlockchainCurrencies chain).find? fun c => c.type = .coin with
  | some c => .ok c
  | none => .error (Err.of .errCurrencyNotFound)

def getCurrencyByBlockchainAndContract (bc : Blockchain) (networkID addr : String) :
    Except Err CryptoCurrency :=
  if bc = "" || networkID = "" || addr = "" then
    .error ((Err.of .errCurrencyNotFound).wrap "invalid input")
  else
    match (r.listBlockchainCurrencies bc).find? fun c =>
        c.type = .token &&
          ((if c.networkID = networkID then lower c.tokenContractAddress = lower addr
            else lower c.testTokenContractAddress = lower addr) ||
            c.aliases.contains (lower addr)) with
    | some c => .ok c
    | none => .error (Err.of .errCurrencyNotFound)

end Currencies

end CryptoLink
