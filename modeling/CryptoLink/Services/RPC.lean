import CryptoLink.Errors
import Mathlib.Logic.Function.Basic

/-!
# RPC endpoints

A provider remembers which endpoints failed it. A dial takes the first endpoint
of a chain's list that is not known to have failed within the last two minutes
and that answers a probe.
-/

namespace CryptoLink

namespace RPC

structure ChainRPC where
  mainnet : String
  testnet : String
  fallback : String
  extra : List String
  deriving DecidableEq, Repr

/-- Times are in nanoseconds; zero stands for the zero time. -/
structure EndpointHealth where
  healthy : Bool
  failedAt : Int
  failCount : Int
  deriving DecidableEq, Repr

abbrev HealthMap := String → Option EndpointHealth

/-- Two minutes. -/
def healthRecoveryInterval : Int := 120000000000

/-- What the clock and the endpoints answer, by how often they were asked before. -/
structure Outside where
  now : ℕ → Int
  dial : ℕ → String → Except Err Unit
  blockNumber : ℕ → String → Except Err Unit

structure Provider where
  health : HealthMap
  asked : ℕ

namespace Provider

def tick (p : Provider) : Provider := { p with asked := p.asked + 1 }

def isHealthy (o : Outside) (p : Provider) (url : String) : Bool :=
  match p.health url with
  | none => true
  | some h =>
    if h.healthy then true
    else decide (healthRecoveryInterval ≤ o.now p.asked - h.failedAt)

def markHealthy (p : Provider) (url : String) : Provider :=
  { p with health := Function.update p.health url (some ⟨true, 0, 0⟩) }

/-- A missing entry counts from zero failures. -/
def markUnhealthy (o : Outside) (p : Provider) (url : String) : Provider :=
  let h := (p.health url).getD ⟨false, 0, 0⟩
  { health := Function.update p.health url (some ⟨false, o.now p.asked, h.failCount + 1⟩)
    asked := p.asked + 1 }

/-- The exported `MarkUnhealthy`. -/
def demote (o : Outside) (p : Provider) (url : String) : Provider :=
  if url = "" then p else p.markUnhealthy o url

end Provider

def ChainRPC.endpoints (chain : ChainRPC) (isTest : Bool) : List String :=
  if isTest then [chain.testnet]
  else [chain.mainnet] ++ (if chain.fallback ≠ "" then [chain.fallback] else []) ++ chain.extra

/-- The loop of `dialWithFailover`; the url stands for the client too. -/
def tryEndpoints (o : Outside) : List String → Option Err → Provider → Except Err String × Provider
  | [], lastErr, p =>
    let lastErr := lastErr.getD (Err.new "no endpoints available")
    (.error (lastErr.wrap "all RPC endpoints exhausted for chain"), p)
  | url :: urls, lastErr, p =>
    if url = "" then tryEndpoints o urls lastErr p
    else if ¬ p.isHealthy o url then tryEndpoints o urls lastErr p.tick
    else
      let p := p.tick
      match o.dial p.asked url with
      | .error err => tryEndpoints o urls (some err) (p.tick.markUnhealthy o url)
      | .ok () =>
        let p := p.tick
        match o.blockNumber p.asked url with
        | .error err => tryEndpoints o urls (some err) (p.tick.markUnhealthy o url)
        | .ok () => (.ok url, p.tick.markHealthy url)

def dialWithFailover (o : Outside) (chain : ChainRPC) (isTest : Bool) (p : Provider) :
    Except Err String × Provider :=
  tryEndpoints o (chain.endpoints isTest) none p

end RPC

end CryptoLink
