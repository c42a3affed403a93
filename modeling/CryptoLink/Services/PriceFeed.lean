import CryptoLink.Library.Interleaving
import CryptoLink.Services.Payments

/-!
# The price feed

Rates come from Binance and CoinGecko and are kept in a cache that all requests
share. The world is the clock, the cache, and a record of what the markets have
answered, which no request reads.
-/

namespace CryptoLink

namespace PriceFeed

open ReadCommitted StatementPrograms

/-- 64-bit floats and their texts; `const` is the float of a literal. -/
structure Floats (F : Type) where
  parseFloat : String → Option F
  formatFloat : F → String
  formatTenths : F → String
  const : ℚ → F
  add : F → F → F
  sub : F → F → F
  mul : F → F → F
  div : F → F → F
  neg : F → F
  lt : F → F → Bool
  le : F → F → Bool
  eq : F → F → Bool

/-- Market data of CoinGecko: by coin, by currency. -/
abbrev GeckoPrices (F : Type) := List (String × List (String × F))

structure Provider (F : Type) extends Floats F where
  toUpper : String → String
  toLower : String → String
  cacheTTLSeconds : Int

structure ExchangeRate where
  value : String
  timestamp : Int
  deriving DecidableEq, Repr

structure CachedRate where
  rate : ExchangeRate
  fetchedAt : Int
  deriving DecidableEq, Repr

/-- A question to a market and what came back. -/
inductive Quote (F : Type) where
  | binance (symbol : String) (answer : Except Err String)
  | coinGecko (id vsCurrency : String) (answer : Except Err (GeckoPrices F))

structure Answered (F : Type) where
  time : Int
  quote : Quote F

structure World (F : Type) where
  clock : Int
  entries : String → Option CachedRate
  answered : List (Answered F)

inductive Stmt where
  | get (key : String)
  | set (key : String) (rate : ExchangeRate)
  | now
  | binance (symbol : String)
  | coinGecko (id vsCurrency : String)
  deriving DecidableEq, Repr

@[reducible] def Reply (F : Type) : Stmt → Type
  | .get _ => Option ExchangeRate
  | .set .. => Unit
  | .now => Int
  | .binance _ => Except Err String
  | .coinGecko .. => Except Err (GeckoPrices F)

structure Env (F : Type) where
  binance : Except Err String := .error (Err.of .remote)
  coinGecko : Except Err (GeckoPrices F) := .error (Err.of .remote)

abbrev Call (F : Type) (α : Type) := Prog (Cmd Stmt) (Answer (Reply F)) Err α

abbrev query {F : Type} := @onPool Stmt (Reply F) Err

def binanceSymbols : List (String × String) :=
  [("ETH", "ETHUSDT"), ("BTC", "BTCUSDT"), ("MATIC", "MATICUSDT"), ("BNB", "BNBUSDT"),
    ("TRX", "TRXUSDT"), ("TRON", "TRXUSDT"), ("AVAX", "AVAXUSDT"), ("USDT", "USDTUSD"),
    ("USDC", "USDCUSDT"), ("ARB", "ARBUSDT"), ("ETH_USDT", "USDTUSD"),
    ("MATIC_USDT", "USDTUSD"), ("BSC_USDT", "USDTUSD"), ("TRON_USDT", "USDTUSD"),
    ("ETH_USDC", "USDCUSDT"), ("MATIC_USDC", "USDCUSDT"), ("BSC_USDC", "USDCUSDT")]

def coinGeckoIDs : List (String × String) :=
  [("ETH", "ethereum"), ("BTC", "bitcoin"), ("MATIC", "matic-network"), ("BNB", "binancecoin"),
    ("TRX", "tron"), ("TRON", "tron"), ("AVAX", "avalanche-2"), ("USDT", "tether"),
    ("USDC", "usd-coin"), ("ARB", "arbitrum")]

def binanceTickerAliases : List (String × String) := [("TRON", "TRX")]

/-- What follows the only underscore. -/
def withoutChain (ticker : String) : Option String :=
  match ticker.toList.splitOn '_' with
  | [_, base] => some (String.ofList base)
  | _ => none

/-- `strings.HasSuffix` -/
def hasSuffix (text suffix : String) : Bool := suffix.toList.isSuffixOf text.toList

structure BinancePair where
  symbol : String
  invert : Bool
  deriving DecidableEq, Repr

/-- USD and what counts as USD. -/
def usdUnits : List String := ["USD", "USDT", "USDC"]

namespace Provider

variable {F : Type} (p : Provider F)

def isStablecoin (ticker : String) : Bool :=
  let t := p.toUpper ticker
  ["USDT", "USDC", "DAI"].contains t || hasSuffix t "_USDT" || hasSuffix t "_USDC" ||
    hasSuffix t "_DAI"

def isFiat (ticker : String) : Bool := fiatCurrencies.contains (p.toUpper ticker)

def stableBase (ticker : String) : String :=
  let t := p.toUpper ticker
  (withoutChain t).getD t

def isNonUSDFiat (desired : String) : Bool :=
  let d := p.toUpper desired
  d != "" && !usdUnits.contains d && p.isFiat d

def resolveBinanceSymbol (selected desired : String) : Option BinancePair :=
  let base := (withoutChain selected).getD selected
  let baseTicker := (binanceTickerAliases.lookup base).getD base
  let nonUSDFiat := desired != "" && !usdUnits.contains desired && p.isFiat desired
  if nonUSDFiat && p.isStablecoin baseTicker then some ⟨desired ++ "USDT", true⟩
  else if nonUSDFiat then some ⟨baseTicker ++ desired, false⟩
  else
    match binanceSymbols.lookup selected with
    | some symbol => some ⟨symbol, false⟩
    | none =>
      if ["USD", "USDT"].contains desired then some ⟨baseTicker ++ "USDT", false⟩ else none

def resolveCoinGeckoID (selected : String) : String :=
  match coinGeckoIDs.lookup selected with
  | some id => id
  | none => ((withoutChain selected).bind fun base => coinGeckoIDs.lookup base).getD ""

def noSymbol (selected desired : String) : Err :=
  Err.new ("no Binance symbol mapping for " ++ selected ++ "/" ++ desired)

/-- The price, or one over it where Binance lists the inverse. -/
def binanceValue (pair : BinancePair) (answer : Except Err String) : Except Err String := do
  let price ← answer
  if pair.invert then
    match p.parseFloat price with
    | none => .error (Err.new ("binance price parse failed for " ++ pair.symbol))
    | some x =>
      if p.eq x (p.const 0) then
        .error (Err.new ("binance returned zero price for " ++ pair.symbol))
      else .ok (p.formatFloat (p.div (p.const 1) x))
  else .ok price

def noCoin (selected : String) : Err := Err.new ("no CoinGecko ID mapping for " ++ selected)

def geckoValue (id vsCurrency : String) (answer : Except Err (GeckoPrices F)) :
    Except Err String := do
  let result ← answer
  match result.lookup id with
  | none => .error (Err.new ("coingecko: no data for " ++ id))
  | some prices =>
    match prices.lookup vsCurrency with
    | none => .error (Err.new ("coingecko: no " ++ vsCurrency ++ " price for " ++ id))
    | some price => .ok (p.formatFloat price)

def validateRate (value : String) : Bool :=
  match p.parseFloat value with
  | none => false
  | some x => p.lt (p.const 0) x && p.lt x (p.const (10 ^ 12))

def rateDivergence (a b : String) : F :=
  match p.parseFloat a, p.parseFloat b with
  | some va, some vb =>
    if p.eq va (p.const 0) || p.eq vb (p.const 0) then p.const 1
    else
      let avg := p.div (p.add va vb) (p.const 2)
      let diff := p.sub va vb
      p.div (if p.lt diff (p.const 0) then p.neg diff else diff) avg
  | _, _ => p.const 1

def diverges (a b : String) : Bool := p.lt (p.const (5 / 100)) (p.rateDivergence a b)

def divergenceError (selected desired a b : String) : Err :=
  Err.new ("price divergence " ++ p.formatTenths (p.mul (p.rateDivergence a b) (p.const 100)) ++
    "% for " ++ selected ++ "/" ++ desired ++ " exceeds 5% threshold (binance=" ++ a ++
    ", coingecko=" ++ b ++ ")")

def getBinanceRate (selected desired : String) : Call F ExchangeRate :=
  match p.resolveBinanceSymbol selected desired with
  | none => .fail (noSymbol selected desired)
  | some pair => do
      let answer ← query (.binance pair.symbol)
      let value ← Prog.ofExcept (p.binanceValue pair answer)
      let timestamp ← query .now
      pure ⟨value, timestamp⟩

def getCoinGeckoRate (selected desired : String) : Call F ExchangeRate :=
  let id := resolveCoinGeckoID selected
  if id = "" then .fail (noCoin selected)
  else do
    let vsCurrency := p.toLower desired
    let answer ← query (.coinGecko id vsCurrency)
    let value ← Prog.ofExcept (p.geckoValue id vsCurrency answer)
    let timestamp ← query .now
    pure ⟨value, timestamp⟩

def cacheKey (selected desired : String) : String := selected ++ "/" ++ desired

def keep (key : String) (rate : ExchangeRate) : Call F ExchangeRate := do
  query (.set key rate)
  pure rate

/-- One to one. -/
def pegged (key : String) : Call F ExchangeRate := do
  let timestamp ← query .now
  keep key ⟨"1.0", timestamp⟩

/-- The rate, if it is there and valid. -/
def validated (x : Except Err ExchangeRate) : Option ExchangeRate :=
  x.toOption.filter fun rate => p.validateRate rate.value

/-- Both markets are asked; the peg is assumed only if neither gives a rate. -/
def marketRate (selected desired : String) : Call F ExchangeRate := do
  let key := cacheKey selected desired
  let fromBinance ← (p.getBinanceRate selected desired).attempt
  let fromGecko ← (p.getCoinGeckoRate selected desired).attempt
  match p.validated fromBinance, p.validated fromGecko with
  | some a, some b =>
      if p.diverges a.value b.value then .fail (p.divergenceError selected desired a.value b.value)
      else keep key a
  | some a, none => keep key a
  | none, some b => keep key b
  | none, none =>
      if p.isStablecoin selected && usdUnits.contains desired then pegged key
      else .fail (Err.new ("unable to get exchange rate for " ++ selected ++ "/" ++ desired ++
        " from any source"))

/-- The product of two rates, unless one of them is not positive. -/
def composedValue (a b : String) : Option String :=
  match p.parseFloat a, p.parseFloat b with
  | some x, some y =>
      if p.le x (p.const 0) || p.le y (p.const 0) then none else some (p.formatFloat (p.mul x y))
  | _, _ => none

/-- `ask` is the function that this one is called by. -/
def composeStablecoinFiatRate (ask : String → String → Call F ExchangeRate)
    (selected desired : String) : Call F (Option ExchangeRate) := do
  let stableToUSDT ← (ask "USDT" selected).attempt
  let usdtToFiat ← (ask desired "USDT").attempt
  match stableToUSDT, usdtToFiat with
  | .ok a, .ok b =>
    match p.composedValue a.value b.value with
    | none => pure none
    | some value => do
        let timestamp ← query .now
        pure (some ⟨value, timestamp⟩)
  | _, _ => pure none

/-- The rate is made of two others. -/
def composes (selected desired : String) : Bool :=
  p.isStablecoin selected && p.stableBase selected != "USDT" && p.isNonUSDFiat desired

def composed (ask : String → String → Call F ExchangeRate) (selected desired : String) :
    Call F (Option ExchangeRate) :=
  if p.composes selected desired then p.composeStablecoinFiatRate ask selected desired
  else pure none

/-- The body of the recursion. -/
def rateBy (ask : String → String → Call F ExchangeRate) (desired selected : String) :
    Call F ExchangeRate := do
  let selected := p.toUpper selected
  let desired := p.toUpper desired
  let key := cacheKey selected desired
  let cached ← query (.get key)
  match cached with
  | some rate => pure rate
  | none =>
    if p.isStablecoin selected && p.stableBase selected == p.stableBase desired then pegged key
    else do
      let made ← p.composed ask selected desired
      match made with
      | some rate => keep key rate
      | none =>
        if p.isFiat selected && p.isFiat desired then pegged key
        else p.marketRate selected desired

def rounds : ℕ → String → String → Call F ExchangeRate
  | 0, _, _ => .fail (Err.new "out of rounds")
  | n + 1, desired, selected => p.rateBy (rounds n) desired selected

/-- The rates that a rate is made of are not made of others. -/
def getExchangeRate (desired selected : String) : Call F ExchangeRate :=
  p.rounds 2 desired selected

/-- `New` sets the default. -/
def ttl : Int := (if p.cacheTTLSeconds ≤ 0 then 30 else p.cacheTTLSeconds) * 10 ^ 9

def lookup (w : World F) (key : String) : Option ExchangeRate :=
  (w.entries key).bind fun e => if p.ttl < w.clock - e.fetchedAt then none else some e.rate

def reply (env : Env F) (w : World F) : (s : Stmt) → Reply F s
  | .get key => p.lookup w key
  | .set .. => ()
  | .now => w.clock / 10 ^ 6
  | .binance _ => env.binance
  | .coinGecko .. => env.coinGecko

end Provider

section

variable {F : Type}

/-- The time is in nanoseconds. -/
def World.stored (w : World F) (key : String) (rate : ExchangeRate) : World F :=
  { w with entries := Function.update w.entries key (some ⟨rate, w.clock⟩) }

theorem World.entries_stored (w : World F) (key : String) (rate : ExchangeRate) :
    (w.stored key rate).entries key = some ⟨rate, w.clock⟩ :=
  Function.update_self _ _ _

theorem World.entries_stored_of_ne (w : World F) {key key' : String} (h : key' ≠ key)
    (rate : ExchangeRate) : (w.stored key rate).entries key' = w.entries key' :=
  Function.update_of_ne h _ _

def World.heard (w : World F) (quote : Quote F) : World F :=
  { w with answered := ⟨w.clock, quote⟩ :: w.answered }

def effect (env : Env F) (w : World F) : Stmt → World F
  | .set key rate => w.stored key rate
  | .binance symbol => w.heard (.binance symbol env.binance)
  | .coinGecko id vsCurrency => w.heard (.coinGecko id vsCurrency env.coinGecko)
  | _ => w

def Provider.engine (p : Provider F) : Engine Stmt (Reply F) (Env F) (World F) Empty where
  reply s env w := p.reply env w s
  effect s env _ w := effect env w s
  lasting _ _ w := w
  locks _ _ _ := []
  opens _ := true
  lands _ := true
  acknowledged _ := true

end

end PriceFeed

end CryptoLink
