import CryptoLink.Contracts.Collector
import CryptoLink.Library.ByteMachine

/-!
# How the factory makes a clone

`_createClone` writes the code of a clone into memory behind the free pointer, in
three words that overlap, and lets it run as the creation of a contract.
-/

namespace CryptoLink.Contracts

open ByteMachine

namespace CryptoLinkCloneFactory

/-- How far memory can be paid for: never to the end of what a word can address. -/
structure Budget where
  size : ℕ
  bounded : size ≤ 2 ^ 256

/-- `mload` -/
def mload (m : Memory) (offset : ℕ) : ℕ := wordOf (m.slice offset 32)

/-- `mstore`, which runs out of gas where memory cannot be paid for. -/
def mstore (budget : Budget) (m : Memory) (offset value : ℕ) : Option Memory :=
  if offset + 32 ≤ budget.size then some (m.store offset (bytesOf 32 value)) else none

/-- `add` -/
def add (x y : ℕ) : ℕ := (x + y) % 2 ^ 256

/-- `bytes20(impl)`: the address stands at the left of its word. -/
def bytes20 (impl : Address) : ℕ := impl.toNat * 2 ^ 96

/-- `_createClone` up to `create`: what is handed to it as the code to run. -/
def createClone (budget : Budget) (memory : Memory) (impl : Address) : Option Bytes := do
  let implBytes := bytes20 impl
  let ptr := mload memory 0x40
  let memory ← mstore budget memory ptr
    0x3d602d80600a3d3981f3363d3d373d3d3d363d73000000000000000000000000
  let memory ← mstore budget memory (add ptr 0x14) implBytes
  let memory ← mstore budget memory (add ptr 0x28)
    0x5af43d82803e903d91602b57fd5bf30000000000000000000000000000000000
  some (memory.slice ptr 0x37)

/-- `363d3d373d3d3d363d73{impl}5af43d82803e903d91602b57fd5bf3` -/
def runtimeCode (impl : Address) : Bytes :=
  bytesOf 10 0x363d3d373d3d3d363d73 ++ (bytesOf 20 impl.toNat ++
    bytesOf 15 0x5af43d82803e903d91602b57fd5bf3)

def creationCode (impl : Address) : Bytes := bytesOf 10 0x3d602d80600a3d3981f3 ++ runtimeCode impl

end CryptoLinkCloneFactory

end CryptoLink.Contracts
