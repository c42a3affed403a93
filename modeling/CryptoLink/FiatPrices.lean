import CryptoLink.Library.BinaryRounding
import CryptoLink.Money

/-!
# Prices that arrive as floats

A price in a request is the rational value of a 64-bit float; overflow and the
numbers below the normal ones are out of its range.
-/

namespace CryptoLink

open BinaryRounding

/-- The nearest 64-bit float. -/
def binary64 (x : ℚ) : ℚ := toPrecision 53 x

namespace Money

/-- The float that the constant `0.01` is. -/
def fiatMin : ℚ := binary64 (1 / 100)

def fiatMax : ℚ := 10000000

/-- The text of the whole number of cents reads back as that number. -/
def fiatFromFloat64 (ticker : String) (f : ℚ) : Except Err Money :=
  if f < fiatMin ∨ fiatMax < f then
    .error ((Err.of .errParse).wrap "fiat value should be between 0.01 and 10000000")
  else .ok ⟨.fiat, ticker, ⌊binary64 (f * 100)⌋, 2⟩

end Money

end CryptoLink
