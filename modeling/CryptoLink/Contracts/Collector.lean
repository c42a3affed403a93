import CryptoLink.Library.CallStacks
import Mathlib.Logic.Function.Basic
import Mathlib.Algebra.Ring.Int.Defs
import Mathlib.Algebra.GroupWithZero.Nat

/-!
# The collector contracts

`MerchantCollectorV2`, `CryptoLinkCloneFactory` and the chain they run on, one
step at a time. Every other account does what it likes when it runs; a
collector and the factory do what their code says. A clone runs the code of the
implementation on its own storage.
-/

namespace CryptoLink.Contracts

open CallStacks

abbrev Address := BitVec 160

inductive Calldata where
  | empty
  | initializeOwner (owner : Address)
  | owner
  | withdrawNative
  | withdrawToken (token : Address)
  | withdrawAll (tokens : List Address)
  | deploy (merchantOwner : Address)
  | implementation
  | balanceOf (account : Address)
  | transfer (recipient : Address) (amount : ℕ)
  | other
  deriving DecidableEq, Repr

/-- What a call came back with; `word` is its first 32 bytes, if there are as
many. -/
structure Answer where
  success : Bool
  word : Option ℕ
  deriving DecidableEq, Repr

structure Msg where
  sender : Address
  value : ℕ
  static : Bool
  deriving DecidableEq, Repr

structure Storage where
  owner : Address
  initialized : Bool
  deriving DecidableEq, Repr

structure WithdrewToken where
  token : Address
  recipient : Address
  amount : ℕ
  deriving DecidableEq, Repr

namespace MerchantCollectorV2

/-- Where a function waits; `rest` are the tokens `withdrawAll` still has in
front of it. -/
inductive Todo where
  | enter
  | paid (rest : Option (List Address))
  | asked (token : Address) (rest : Option (List Address))
  | sent (token : Address) (amount : ℕ) (rest : Option (List Address))
  deriving DecidableEq, Repr

inductive Step where
  | revert
  | done (st : Storage) (word : Option ℕ)
  | send (target : Address) (value : ℕ) (input : Calldata) (readOnly : Bool) (todo : Todo)

/-- A function without `payable` refuses value. -/
def nonPayable (msg : Msg) (body : Step) : Step :=
  if msg.value ≠ 0 then .revert else body

def onlyOwner (msg : Msg) (st : Storage) (body : Step) : Step :=
  if msg.sender = st.owner then body else .revert

/-- An event or a write to storage; both fail in a static call. -/
def written (msg : Msg) (next : Step) : Step :=
  if msg.static then .revert else next

def initializeOwner (msg : Msg) (st : Storage) (owner : Address) : Step :=
  nonPayable msg <|
    if st.initialized then .revert
    else if owner = 0 then .revert
    else written msg (.done ⟨owner, true⟩ none)

def receive (msg : Msg) (st : Storage) : Step := written msg (.done st none)

def tokenBalance (self token : Address) (rest : Option (List Address)) : Step :=
  .send token 0 (.balanceOf self) true (.asked token rest)

def safeTransfer (token recipient : Address) (amount : ℕ) (rest : Option (List Address)) : Step :=
  .send token 0 (.transfer recipient amount) false (.sent token amount rest)

/-- The loop of `withdrawAll` up to its next call. -/
def withdrawTokens (self : Address) (st : Storage) : List Address → Step
  | [] => .done st none
  | token :: rest =>
      if token = 0 then withdrawTokens self st rest else tokenBalance self token (some rest)

def withdrawNative (msg : Msg) (st : Storage) (balance : ℕ) : Step :=
  nonPayable msg <| onlyOwner msg st <|
    if 0 < balance then .send st.owner balance .empty false (.paid none) else .revert

def withdrawToken (self : Address) (msg : Msg) (st : Storage) (token : Address) : Step :=
  nonPayable msg <| onlyOwner msg st <|
    if token = 0 then .revert else tokenBalance self token none

def withdrawAll (self : Address) (msg : Msg) (st : Storage) (balance : ℕ)
    (tokens : List Address) : Step :=
  nonPayable msg <| onlyOwner msg st <|
    if 0 < balance then .send st.owner balance .empty false (.paid (some tokens))
    else withdrawTokens self st tokens

/-- On with the loop, or at the end of a single withdrawal. -/
def proceed (self : Address) (st : Storage) : Option (List Address) → Step
  | none => .done st none
  | some tokens => withdrawTokens self st tokens

def afterPayment (self : Address) (msg : Msg) (st : Storage) (rest : Option (List Address))
    (answer : Answer) : Step :=
  if answer.success then written msg (proceed self st rest) else .revert

def afterBalance (self : Address) (st : Storage) (token : Address)
    (rest : Option (List Address)) (answer : Answer) : Step :=
  let bal := if answer.success then answer.word.getD 0 else 0
  if 0 < bal then safeTransfer token st.owner bal rest
  else match rest with
    | none => .revert
    | some tokens => withdrawTokens self st tokens

def afterTransfer (self : Address) (msg : Msg) (st : Storage) (rest : Option (List Address))
    (answer : Answer) : Step :=
  if answer.success then written msg (proceed self st rest) else .revert

/-- Up to the next call, or to the end. -/
def step (self : Address) (msg : Msg) (data : Calldata) (st : Storage) (balance : ℕ)
    (todo : Todo) (answer : Answer) : Step :=
  match todo with
  | .enter =>
      match data with
      | .empty => receive msg st
      | .initializeOwner owner => initializeOwner msg st owner
      | .owner => nonPayable msg (.done st (some st.owner.toNat))
      | .withdrawNative => withdrawNative msg st balance
      | .withdrawToken token => withdrawToken self msg st token
      | .withdrawAll tokens => withdrawAll self msg st balance tokens
      | _ => .revert
  | .paid rest => afterPayment self msg st rest answer
  | .asked token rest => afterBalance self st token rest answer
  | .sent _ _ rest => afterTransfer self msg st rest answer

/-- The withdrawal a step announces, if it does not revert. -/
def emitted (st : Storage) (todo : Todo) (answer : Answer) : List WithdrewToken :=
  match todo with
  | .sent token amount _ => if answer.success then [⟨token, st.owner, amount⟩] else []
  | _ => []

end MerchantCollectorV2

/-- `occupied` is an account with code or a nonce: `create` fails there. `clones`
counts what the factory has created, and `deployed` is for whom: no contract
can read it. -/
structure Chain where
  balance : Address → ℕ
  collectors : Address → Option Storage
  occupied : Address → Bool
  clones : ℕ
  deployed : Address → Option Address

def Chain.pay (w : Chain) (sender target : Address) (value : ℕ) : Chain :=
  let paid := Function.update w.balance sender (w.balance sender - value)
  { w with balance := Function.update paid target (paid target + value) }

/-- Where the factory is, which implementation it clones, and where its next
clone comes to be. -/
structure Deployment where
  factory : Address
  implementation : Address
  cloneAddress : ℕ → Address

/-- What runs: any other account, a collector between two calls, or `deploy`. -/
inductive Code where
  | account (self : Address) (static : Bool)
  | collector (self : Address) (msg : Msg) (data : Calldata) (todo : MerchantCollectorV2.Todo)
      (answer : Answer)
  | factory (msg : Msg) (data : Calldata) (clone : Option Address)

/-- A call a collector makes: inside which function, called by whom, and for
whom the clone was deployed. -/
structure Outgoing where
  collector : Address
  sender : Address
  function : Calldata
  target : Address
  value : ℕ
  input : Calldata
  merchant : Option Address
  deriving DecidableEq, Repr

structure Execution where
  world : Chain
  stack : List (Frame Code Chain)
  calls : List Outgoing

inductive Event where
  | transaction (origin : Address)
  | call (target : Address) (value : ℕ) (data : Calldata)
  | staticcall (target : Address) (data : Calldata)
  | create (address : Address) (value : ℕ)
  | selfdestruct (target : Address)
  | finish (word : Option ℕ)
  | revert
  | go
  | mint (target : Address) (amount : ℕ)
  deriving DecidableEq, Repr

namespace Execution

variable (P : Deployment)

/-- An account may look at the answer or not; a collector waits for it. -/
def tell (answer : Answer) : List (Frame Code Chain) → List (Frame Code Chain)
  | ⟨.collector self msg data todo _, saved⟩ :: rest =>
      ⟨.collector self msg data todo answer, saved⟩ :: rest
  | stack => stack

def push (x : Execution) (code : Code) (world : Chain) : Execution :=
  { x with world := world, stack := ⟨code, x.world⟩ :: x.stack }

/-- A call by `sender`, which is on top of the stack. -/
def enter (x : Execution) (sender target : Address) (value : ℕ) (data : Calldata) (static : Bool) :
    Execution :=
  if x.world.balance sender < value ∨ static = true ∧ value ≠ 0 then
    { x with stack := tell ⟨false, none⟩ x.stack }
  else if (x.world.collectors target).isSome then
    x.push (.collector target ⟨sender, value, static⟩ data .enter ⟨true, none⟩)
      (x.world.pay sender target value)
  else if target = P.factory then
    x.push (.factory ⟨sender, value, static⟩ data none) (x.world.pay sender target value)
  else if x.world.occupied target then
    x.push (.account target static) (x.world.pay sender target value)
  else
    { x with world := x.world.pay sender target value, stack := tell ⟨true, none⟩ x.stack }

/-- The end of the call on top; a failed one leaves nothing behind. -/
def leave (x : Execution) (success : Bool) (word : Option ℕ) : Execution :=
  match x.stack with
  | [] => x
  | f :: rest =>
      { x with
        world := if success then x.world else f.saved
        stack := tell ⟨success, word⟩ rest }

/-- `deploy`: first the clone, then its `initialize`, which calls nobody. -/
def deployStep (x : Execution) (msg : Msg) (data : Calldata) (clone : Option Address)
    (saved : Chain) (rest : List (Frame Code Chain)) : Execution :=
  match data, clone with
  | .deploy merchantOwner, none =>
      let address := P.cloneAddress x.world.clones
      if msg.value ≠ 0 ∨ merchantOwner = 0 ∨ msg.static = true ∨
          x.world.occupied address = true then
        x.leave false none
      else
        { x with
          world := { x.world with
            collectors := Function.update x.world.collectors address (some ⟨0, false⟩)
            occupied := Function.update x.world.occupied address true
            clones := x.world.clones + 1 }
          stack := ⟨.factory msg data (some address), saved⟩ :: rest }
  | .deploy merchantOwner, some clone =>
      match x.world.collectors clone with
      | none => x.leave false none
      | some st =>
        match MerchantCollectorV2.initializeOwner ⟨P.factory, 0, false⟩ st merchantOwner with
        | .done st' _ =>
            { x with
              world := { x.world with
                collectors := Function.update x.world.collectors clone (some st')
                deployed := Function.update x.world.deployed clone (some merchantOwner) }
            : Execution }.leave true (some clone.toNat)
        | _ => x.leave false none
  | .implementation, _ =>
      if msg.value ≠ 0 then x.leave false none else x.leave true (some P.implementation.toNat)
  | _, _ => x.leave false none

/-- The collector on top of the stack runs to its next call or to its end. -/
def collectorStep (x : Execution) (self : Address) (msg : Msg) (data : Calldata)
    (todo : MerchantCollectorV2.Todo) (answer : Answer) (saved : Chain)
    (rest : List (Frame Code Chain)) : Execution :=
  match x.world.collectors self with
  | none => x.leave false none
  | some st =>
    match MerchantCollectorV2.step self msg data st (x.world.balance self) todo answer with
    | .revert => x.leave false none
    | .done st' word =>
        { x with
          world := { x.world with
            collectors := Function.update x.world.collectors self (some st') }
        : Execution }.leave true word
    | .send target value input readOnly todo' =>
        { x with
          stack := ⟨.collector self msg data todo' answer, saved⟩ :: rest
          calls := x.calls ++ [⟨self, msg.sender, data, target, value, input,
            x.world.deployed self⟩]
        : Execution }.enter P self target value input (msg.static || readOnly)

/-- The running account is free in what it does; code that is running may also
fail at any moment, for lack of gas. An event that does not fit does nothing. -/
def step (x : Execution) : Event → Execution
  | .transaction origin =>
      if x.stack = [] ∧ (x.world.collectors origin).isNone ∧ origin ≠ P.factory then
        let started := { x with
          world := { x.world with occupied := Function.update x.world.occupied origin true } }
        started.push (.account origin false) started.world
      else x
  | .mint target amount =>
      if x.stack = [] then
        { x with world := { x.world with
          balance := Function.update x.world.balance target (x.world.balance target + amount) } }
      else x
  | e =>
    match x.stack with
    | [] => x
    | ⟨.account self static, _⟩ :: _ =>
      match e with
      | .call target value data => x.enter P self target value data static
      | .staticcall target data => x.enter P self target 0 data true
      | .create address value =>
          if static = true ∨ x.world.occupied address = true ∨ x.world.balance self < value then x
          else
            x.push (.account address false)
              { x.world.pay self address value with
                occupied := Function.update x.world.occupied address true }
      | .selfdestruct target =>
          if static then x else { x with world := x.world.pay self target (x.world.balance self) }
      | .finish word => x.leave true word
      | .revert => x.leave false none
      | _ => x
    | ⟨.collector self msg data todo answer, saved⟩ :: rest =>
      match e with
      | .go => x.collectorStep P self msg data todo answer saved rest
      | .revert => x.leave false none
      | _ => x
    | ⟨.factory msg data clone, saved⟩ :: rest =>
      match e with
      | .go => x.deployStep P msg data clone saved rest
      | .revert => x.leave false none
      | _ => x

def run (x : Execution) (events : List Event) : Execution := events.foldl (step P) x

end Execution

end CryptoLink.Contracts
