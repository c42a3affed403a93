import CryptoLink.Contracts.Collector

/-!
# Tokens under a collector

One call of a collector, and what it does to the tokens it sends. A token moves
the amount, answers false, or reverts; older tokens move it without a word. The
owner does what he likes while he is paid.
-/

namespace CryptoLink.Contracts

open MerchantCollectorV2

/-- What each account has of each token. -/
abbrev Ledger := Address → Address → ℕ

def Ledger.move (l : Ledger) (token sender recipient : Address) (amount : ℕ) : Ledger :=
  let paid := Function.update (l token) sender (l token sender - amount)
  Function.update l token (Function.update paid recipient (paid recipient + amount))

/-- What a token makes of a `transfer`; an older one does not answer true. -/
inductive Verdict where
  | moves (answersTrue : Bool)
  | refuses
  | reverts
  deriving DecidableEq, Repr

/-- Nobody moves more than he has. -/
def Verdict.settle (v : Verdict) (l : Ledger) (token sender recipient : Address) (amount : ℕ) :
    Answer × Ledger :=
  match v with
  | .moves answersTrue =>
      if amount ≤ l token sender then
        (⟨true, if answersTrue then some 1 else none⟩, l.move token sender recipient amount)
      else (⟨false, none⟩, l)
  | .refuses => (⟨true, some 0⟩, l)
  | .reverts => (⟨false, none⟩, l)

/-- How one call of the collector is answered. A payment leaves the ledger the
owner makes of it, and the events of the withdrawals made meanwhile. -/
structure Response where
  answer : Answer
  ledger : Ledger
  nested : List WithdrewToken
  verdict : Verdict

/-- The answer, the ledger, and what was announced meanwhile. -/
def Response.settle (r : Response) (self target : Address) (input : Calldata) (l : Ledger) :
    Answer × Ledger × List WithdrewToken :=
  match input with
  | .transfer recipient amount =>
      let settled := r.verdict.settle l target self recipient amount
      (settled.1, settled.2, [])
  | .empty => (r.answer, r.ledger, r.nested)
  | _ => (r.answer, l, [])

/-- A call the collector made, and the ledger it was made on. -/
structure Exchange where
  target : Address
  input : Calldata
  before : Ledger
  response : Response

structure Outcome where
  ledger : Ledger
  events : List WithdrewToken
  exchanges : List Exchange

inductive Result where
  | reverted
  | returned (o : Outcome)
  | waiting

def Result.after (events : List WithdrewToken) (e : Exchange) : Result → Result
  | .returned o => .returned ⟨o.ledger, events ++ o.events, e :: o.exchanges⟩
  | result => result

/-- A call of a collector that is not its own: it calls nobody but its owner and
the tokens, and these with nothing its functions answer to. -/
structure Visit where
  self : Address
  msg : Msg
  input : Calldata
  storage : Storage
  balance : ℕ
  outside : msg.sender ≠ self

namespace Visit

variable (c : Visit)

/-- From `todo` on, as long as there are responses. -/
def resume (responses : List Response) (todo : Todo) (answer : Answer) (l : Ledger) : Result :=
  match step c.self c.msg c.input c.storage c.balance todo answer with
  | .revert => .reverted
  | .done _ _ => .returned ⟨l, emitted c.storage todo answer, []⟩
  | .send target _ input _ todo' =>
      match responses with
      | [] => .waiting
      | r :: responses =>
          let settled := r.settle c.self target input l
          (resume responses todo' settled.1 settled.2.1).after
            (emitted c.storage todo answer ++ settled.2.2) ⟨target, input, l, r⟩

def run (responses : List Response) (l : Ledger) : Result :=
  c.resume responses .enter ⟨true, none⟩ l

end Visit

end CryptoLink.Contracts
