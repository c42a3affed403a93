import CryptoLink.FiatPrices
import CryptoLink.Services.PriceFeed
import Mathlib.Data.Nat.Size

/-!
# The convertor

Amounts are converted through a rate of the price feed. Rates are 64-bit floats,
products of an amount and a float are floats with a bit for each bit of the amount,
and what is behind the smallest unit is dropped.
-/

namespace CryptoLink

open BinaryRounding

namespace Money

/-- `Int` of a float: toward zero. -/
def truncated (x : ℚ) : Int := if 0 ≤ x then ⌊x⌋ else ⌈x⌉

/-- The bits of the float that `SetInt` makes. -/
def floatBits (x : Int) : ℕ := max x.natAbs.size 64

/-- The table that `math.Pow10` reads holds the powers up to `10 ^ 31`. -/
def bigPow (i : Int) : ℚ := binary64 (10 ^ i.toNat)

def toFloat64 (i decimals : Int) : ℚ := binary64 (i / bigPow decimals)

def multiplyFloat64 (m : Money) (factor : ℚ) : Except Err Money :=
  if factor ≤ 0 then .error (Err.new "multiplier should be greater than zero")
  else .ok ⟨m.moneyType, m.ticker,
    truncated (toPrecision (floatBits m.value) (m.value * factor)), m.decimals⟩

def cryptoFromFloat64 (ticker : String) (f : ℚ) (decimals : Int) : Except Err Money :=
  if f ≤ 0 then .error ((Err.of .errParse).wrap "crypto value should be more than zero")
  else new .crypto ticker (toString (truncated (binary64 (f * bigPow decimals)))) decimals

/-- What is in front of the first dot. -/
def beforeDot (s : String) : String := String.ofList (s.toList.takeWhile fun c => c ≠ '.')

def cryptoToFiat (crypto : Money) (fiat : String) (exchangeRate : ℚ) : Except Err Money :=
  if crypto.moneyType ≠ .crypto then .error (Err.of .errIncompatibleMoney)
  else do
    let multiplied ← (crypto.multiplyFloat64 (binary64 (exchangeRate * 100))).mapError
      (Err.wrap "unable to multiply crypto")
    new .fiat fiat (beforeDot multiplied.string) 2

end Money

inductive ConversionType where
  | fiatToFiat
  | fiatToCrypto
  | cryptoToFiat
  deriving DecidableEq, Repr

structure ExchangeRate where
  source : String
  target : String
  rate : ℚ
  calculatedAt : Int
  deriving DecidableEq, Repr

structure Conversion where
  type : ConversionType
  rate : ℚ
  source : Money
  target : Money
  deriving DecidableEq, Repr

def normalizations : List (String × String) :=
  [("_USDT", "USDT"), ("_USDC", "USDC"), ("_BUSD", "BUSD")]

def unsupported (source target : String) : String :=
  "unsupported conversion type: \"" ++ source ++ "\" to \"" ++ target ++ "\""

def determineConversionType (source target : String) : Except Err ConversionType :=
  if fiatCurrencies.contains source then
    if fiatCurrencies.contains target then .ok .fiatToFiat else .ok .fiatToCrypto
  else if fiatCurrencies.contains target then .ok .cryptoToFiat
  else .error (Err.new (unsupported source target))

/-- `order` is the order in which a loop over the map of normalizations goes. -/
structure Convertor where
  currencies : Currencies
  parseFloat : String → Option ℚ
  priceFeed : String → String → Except Err PriceFeed.ExchangeRate
  clock : Int
  order : List (String × String)
  order_perm : order.Perm normalizations

namespace Convertor

variable (s : Convertor)

def normalizeTicker (ticker : String) : String :=
  let ticker := upper ticker
  match s.order.find? fun n => n.1.toList <:+: ticker.toList with
  | some n => n.2
  | none => ticker

/-- The private `getExchangeRate`. -/
def feedRate (desired selected : String) : Except Err (ℚ × Int) := do
  let res ← (s.priceFeed desired selected).mapError
    (Err.wrap ("unable to get exchange rate of \"" ++ desired ++ "\" / \"" ++ selected ++ "\""))
  match s.parseFloat res.value with
  | some rate => .ok (rate, res.timestamp)
  | none => .error (Err.new "invalid syntax")

/-- The feed's rates are from crypto to fiat. -/
def getExchangeRate (source target : String) : Except Err ExchangeRate :=
  if source = "" ∨ target = "" then .error (Err.of .errValidation)
  else if source = target then .ok ⟨source, target, 1, s.clock⟩
  else do
    let convType ← determineConversionType source target
    match convType with
    | .fiatToFiat | .cryptoToFiat =>
        let (rate, at_) ← s.feedRate (s.normalizeTicker target) (s.normalizeTicker source)
        pure ⟨source, target, rate, at_⟩
    | .fiatToCrypto =>
        let (rate, at_) ← s.feedRate (s.normalizeTicker source) (s.normalizeTicker target)
        pure ⟨source, target, binary64 (1 / rate), at_⟩

def isNot (kind : String) (m : Money) : Err := (Err.of .errValidation).wrap (m.ticker ++ kind)

def fiatToFiat (source : Money) (target : String) : Except Err Conversion :=
  if source.moneyType ≠ .fiat then .error (isNot " is not fiat" source)
  else do
    let rate ← s.getExchangeRate source.ticker target
    let toValue ← source.multiplyFloat64 rate.rate
    let toMoney ← Money.new .fiat target toValue.stringRaw 2
    pure ⟨.fiatToFiat, rate.rate, source, toMoney⟩

/-- One unit of the currency times the price times the rate. -/
def fiatToCrypto (source : Money) (target : CryptoCurrency) : Except Err Conversion :=
  if source.moneyType ≠ .fiat then .error (isNot " is not fiat" source)
  else if source.isZero then .error (isNot " is zero" source)
  else do
    let rate ← s.getExchangeRate source.ticker target.ticker
    let one ← Money.cryptoFromFloat64 target.ticker 1 target.decimals
    let priced ← one.multiplyFloat64 (Money.toFloat64 source.value source.decimals)
    let cryptoMoney ← priced.multiplyFloat64 rate.rate
    pure ⟨.fiatToCrypto, rate.rate, source, cryptoMoney⟩

def cryptoToFiat (source : Money) (target : String) : Except Err Conversion :=
  if source.moneyType ≠ .crypto then .error (isNot " is not crypto" source)
  else do
    let rate ← s.getExchangeRate source.ticker target
    let fiatMoney ← source.cryptoToFiat target rate.rate
    pure ⟨.cryptoToFiat, rate.rate, source, fiatMoney⟩

/-- The merchant's volatility buffer, of at most 100 percent. -/
def globalFeePercent (raw : String) : ℚ :=
  match s.parseFloat raw with
  | some val => if val ≤ 0 ∨ 100 < val then 0 else val
  | none => 0

/-- The amount of `createIncomingTransaction`: quoted, marked up, and rounded up
to what is displayed. `fee` is the merchant's setting. -/
def cryptoAmount (price : Money) (fee : String) (currency : CryptoCurrency) :
    Except Err Money := do
  let conv ← s.fiatToCrypto price currency
  let feePercent := s.globalFeePercent fee
  let markedUp :=
    if 0 < feePercent then
      (conv.target.multiplyFloat64 (binary64 (1 + binary64 (feePercent / 100)))).toOption.getD
        conv.target
    else conv.target
  pure (markedUp.ceilDecimals currency.maxDisplayDecimals)

end Convertor

end CryptoLink
