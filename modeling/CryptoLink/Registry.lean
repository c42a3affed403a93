import CryptoLink.Money

/-!
# The default registry

`currencies.json`, in the order `sortCurrencies` lists it: by name, then by
ticker.
-/

namespace CryptoLink

namespace Registry

def coin (blockchain networkID testNetworkID ticker name : String) (decimals : Int) :
    CryptoCurrency where
  blockchain := blockchain
  networkID := networkID
  testNetworkID := testNetworkID
  type := .coin
  ticker := ticker
  name := name
  decimals := decimals
  tokenContractAddress := ""
  testTokenContractAddress := ""
  aliases := []
  deprecated := false

def token (blockchain networkID testNetworkID ticker name : String) (decimals : Int)
    (tokenAddress testTokenAddress : String) (aliases : List String) : CryptoCurrency where
  blockchain := blockchain
  networkID := networkID
  testNetworkID := testNetworkID
  type := .token
  ticker := ticker
  name := name
  decimals := decimals
  tokenContractAddress := tokenAddress
  testTokenContractAddress := testTokenAddress
  aliases := aliases
  deprecated := false

/-- `DefaultSetup` -/
def defaultCurrencies : Currencies where
  list := [
    coin "AVAX" "43114" "43113" "AVAX" "AVAX" 18,
    coin "BSC" "56" "97" "BNB" "BNB" 18,
    coin "BTC" "mainnet" "testnet" "BTC" "BTC" 8,
    coin "ARBITRUM" "42161" "421614" "ARB" "ETH" 18,
    coin "ETH" "1" "5" "ETH" "ETH" 18,
    coin "MATIC" "137" "80001" "MATIC" "MATIC" 18,
    coin "TRON" "mainnet" "testnet" "TRON" "TRON" 6,
    token "ARBITRUM" "42161" "421614" "ARBITRUM_USDC" "USDC" 6
      "0xaf88d065e77c8cC2239327C5EDb3A432268e5831" "0x75faf114eafb1BDbe2F0316DF893fd58CE46AA4d" [],
    token "AVAX" "43114" "43113" "AVAX_USDC" "USDC" 6
      "0xB97EF9Ef8734C71904D8002F8b6Bc66Dd9c48a6E" "0x5425890298aed601595a70AB815c96711a31Bc65" [],
    token "ETH" "1" "5" "ETH_USDC" "USDC" 6
      "0xa0b86991c6218b36c1d19d4a2e9eb0ce3606eb48" "" [],
    token "MATIC" "137" "80001" "MATIC_USDC" "USDC" 6
      "0x2791Bca1f2de4661ED88A30C99A7a9449Aa84174" "" [],
    token "ARBITRUM" "42161" "421614" "ARBITRUM_USDT" "USDT" 6
      "0xFd086bC7CD5C481DCC9C85ebE478A1C0b69FCbb9" "0xf6B9F4A7a19cF3b0E23A28Af6A087F4d6E6D1f68" [],
    token "AVAX" "43114" "43113" "AVAX_USDT" "USDT" 6
      "0x9702230A8Ea53601f5cD2dc00fDBc13d4dF4A8c7" "0x134Fae4C533461A83a5c6AC7c7Be8c2c0F7D60f4" [],
    token "BSC" "56" "97" "BSC_USDT" "USDT" 18
      "0x55d398326f99059fF775485246999027B3197955" "0x337610d27c682E347C9cD60BD4b3b107C9d34dDd" [],
    token "ETH" "1" "5" "ETH_USDT" "USDT" 6
      "0xdac17f958d2ee523a2206206994597c13d831ec7" "" [],
    token "MATIC" "137" "80001" "MATIC_USDT" "USDT" 6
      "0xc2132d05d31c914a87c6611c10748aeb04b58e8f" "" [],
    token "TRON" "mainnet" "testnet" "TRON_USDT" "USDT" 6
      "TR7NHqjeKQxGTCi8q8ZY4pL8otSzgjLj6t" "TG3XXyExBkPp9nzdajDZsozEu4BkaSJozs"
      ["usdt_tron"]]
  tickers := by decide

end Registry

end CryptoLink
