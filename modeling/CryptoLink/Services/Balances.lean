import CryptoLink.Repository.Statements

/-!
# Balances

The part of the wallet service that moves money between ledger rows. Every
change of an amount is followed, in the same transaction, by one row of the
audit log.
-/

namespace CryptoLink

open ReadCommitted StatementPrograms

/-- A piece of service code: the statements it runs and the outside calls it
makes. -/
abbrev Call (α : Type) := Prog (Cmd Stmt) (Answer Reply) Err α

def ask (q : Conn) (s : Stmt) : Call (Reply s) := Prog.ask (C := Cmd Stmt) (Cmd.stmt q s)

/-- `time.Now` -/
def timeNow : Call Int := ask .pool .timeNow

/-- `store.RunTransaction` -/
def runTx {α : Type} (body : Call α) : Call α :=
  runTransaction (Err.of .database) (Err.of .database) body

def wrapErr {α : Type} (message : String) (x : Except Err α) : Except Err α :=
  x.mapError (Err.wrap message)

@[simp] theorem wrapErr_ok {α : Type} (message : String) (a : α) :
    wrapErr message (.ok a) = .ok a := rfl

@[simp] theorem wrapErr_error {α : Type} (message : String) (e : Err) :
    wrapErr message (.error e : Except Err α) = .error (e.wrap message) := rfl

@[simp] theorem wrapErr_eq_ok {α : Type} {message : String} {x : Except Err α} {a : α} :
    wrapErr message x = .ok a ↔ x = .ok a := by
  cases x <;> simp

/-- `errors.Is(err, pgx.ErrNoRows)` turned into the service's own error. -/
def orNotFound {α : Type} (c : Cause) : Except Err α → Except Err α
  | .ok a => .ok a
  | .error e => .error (if e.is .noRows then Err.of c else e)

/-- What the processes are set up with. -/
structure Service where
  currencies : Currencies
  evmCollector : Bool
  subscriptions : Bool
  defaultServiceFee : Bool

structure Balance where
  id : BalanceKey
  currencyType : CryptoCurrencyType
  amount : Money
  deriving DecidableEq, Repr

/-- A text in the source; `other` is any that is neither of the two. -/
inductive BalanceOperation where
  | increment
  | decrement
  | other (operation : String)
  deriving DecidableEq, Repr

namespace BalanceOperation

def string : BalanceOperation → String
  | increment => "increment"
  | decrement => "decrement"
  | other operation => operation

def isValid : BalanceOperation → Bool
  | increment | decrement => true
  | other _ => false

/-- `MoneyToNumeric`, or `MoneyToNegNumeric` for a decrement. -/
def signed (o : BalanceOperation) (m : Money) : Int :=
  match o with
  | decrement => -m.value
  | _ => m.value

end BalanceOperation

def entryToBalance (b : BalanceRow) : Balance where
  id := b.key
  currencyType := b.currencyType
  amount := Money.crypto b.key.currency b.amount b.decimals

/-- The key no stored row has: the id of a balance that was never read. -/
def noBalance : BalanceKey := ⟨.unset, 0, "", "", ""⟩

def auditMetaData (metaData : MetaData) (operation : BalanceOperation) (amount : Money) :
    MetaData :=
  ((metaData.set "operation" operation.string).set "amountRaw" amount.stringRaw).set
    "amountFormatted" amount.string

/-- What the audit log adds hides no other key. -/
theorem auditMetaData_find {m : MetaData} {op : BalanceOperation} {amount : Money} {k : String}
    (hop : k ≠ "operation") (hraw : k ≠ "amountRaw") (hformatted : k ≠ "amountFormatted") :
    ((auditMetaData m op amount).toJSONB.getD []).find k = m.find k := by
  rw [MetaData.find_toJSONB, auditMetaData, MetaData.find_set_of_ne hformatted,
    MetaData.find_set_of_ne hraw, MetaData.find_set_of_ne hop]

def writeAuditLog (q : Conn) (balanceID : BalanceKey) (operation : BalanceOperation)
    (amount : Money) (comment : String) (metaData : MetaData) : Call Unit := do
  let now ← timeNow
  let r ← ask q (.insertBalanceAuditLog
    ⟨now, balanceID, comment, (auditMetaData metaData operation amount).toJSONB⟩)
  succeed r

structure UpdateBalanceQuery where
  entityID : Int
  entityType : EntityType
  operation : BalanceOperation
  currency : CryptoCurrency
  amount : Money
  comment : String
  metaData : MetaData
  isTest : Bool

def UpdateBalanceQuery.validate (p : UpdateBalanceQuery) : Except Err Unit :=
  if p.entityID = 0 ∨ p.entityType = .unset then
    .error (Err.new "invalid entity data provided")
  else if p.currency.ticker = "" then .error (Err.new "invalid currency provided")
  else if p.amount.ticker = "" then .error (Err.new "invalid amount provided")
  else if p.operation.isValid then .ok ()
  else .error (Err.new "invalid operation")

theorem UpdateBalanceQuery.operation_isValid {p : UpdateBalanceQuery} {u : Unit}
    (h : p.validate = .ok u) : p.operation.isValid = true := by
  unfold UpdateBalanceQuery.validate at h
  split_ifs at h with _ _ _ hvalid
  exact hvalid

def UpdateBalanceQuery.filter (p : UpdateBalanceQuery) : BalanceFilter :=
  ⟨p.entityID, p.entityType, p.currency.chooseNetwork p.isTest, p.currency.ticker⟩

def UpdateBalanceQuery.create (p : UpdateBalanceQuery) (now : Int) : CreateBalanceParams where
  key := ⟨p.entityType, p.entityID, p.currency.blockchain, p.currency.chooseNetwork p.isTest,
    p.amount.ticker⟩
  createdAt := now
  updatedAt := now
  currencyType := p.currency.type
  decimals := p.amount.decimals
  amount := p.operation.signed p.amount

/-- A missing row is created. After any other failed lookup the source goes on
to update the balance it did not find. -/
def upsertBalance (q : Conn) (p : UpdateBalanceQuery) (now : Int) :
    Except Err BalanceRow → Call (Except Err BalanceRow)
  | .ok b => ask q (.updateBalanceByID ⟨b.key, now, p.operation.signed p.amount⟩)
  | .error e =>
      if e.is .noRows then ask q (.createBalance (p.create now))
      else ask q (.updateBalanceByID ⟨noBalance, now, p.operation.signed p.amount⟩)

/-- `wallet.UpdateBalance`: meant for use inside a transaction only. -/
def updateBalance (q : Conn) (p : UpdateBalanceQuery) : Call Balance := do
  succeed p.validate
  let found ← ask q (.getBalanceByFilterWithLock p.filter)
  let now ← timeNow
  let changed ← upsertBalance q p now found
  let balance ← succeed (wrapErr ("unable to " ++ p.operation.string ++ " balance") changed)
  (writeAuditLog q balance.key p.operation p.amount p.comment p.metaData).mapError
    (Err.wrap "unable to write balance audit log")
  pure (entryToBalance balance)

structure UpdateBalanceByIDQuery where
  operation : BalanceOperation
  amount : Money
  comment : String
  metaData : MetaData

def UpdateBalanceByIDQuery.validate (q : UpdateBalanceByIDQuery) : Except Err Unit :=
  if q.operation.isValid then
    if q.amount.isZero then .error (Err.new "invalid amount provided") else .ok ()
  else .error (Err.new "invalid operation")

theorem UpdateBalanceByIDQuery.operation_isValid {q : UpdateBalanceByIDQuery} {u : Unit}
    (h : q.validate = .ok u) : q.operation.isValid = true := by
  unfold UpdateBalanceByIDQuery.validate at h
  split_ifs at h with hvalid
  exact hvalid

/-- The unexported `updateBalanceByID`. Balances of another currency are turned
away with a nil error, which the source wraps and which stays nil. -/
def changeBalanceByID (q : Conn) (id : BalanceKey) (p : UpdateBalanceByIDQuery) :
    Call (Option Balance) := do
  succeed p.validate
  let locked ← ask q (.getBalanceByIDWithLock id)
  let b ← succeed (wrapErr "unable to get balance by id" locked)
  if (entryToBalance b).amount.compatibleTo p.amount then do
    let now ← timeNow
    let changed ← ask q (.updateBalanceByID ⟨b.key, now, p.operation.signed p.amount⟩)
    let balance ← succeed (wrapErr "unable to update balance by id" changed)
    (writeAuditLog q balance.key p.operation p.amount p.comment p.metaData).mapError
      (Err.wrap "unable to write balance audit log")
    pure (some (entryToBalance balance))
  else pure none

/-- `wallet.Service.UpdateBalanceByID` -/
def updateBalanceByID (id : BalanceKey) (p : UpdateBalanceByIDQuery) : Call (Option Balance) := do
  succeed p.validate
  runTx (changeBalanceByID .tx id p)

/-- The wallet's and the merchant's balance are in one currency. -/
def Balance.compatibleTo (b a : Balance) : Bool :=
  b.id.currency = a.id.currency && b.id.networkID = a.id.networkID

structure UpdateBalancesForWithdrawal where
  operation : BalanceOperation
  transactionID : Int
  system : Option Balance
  merchant : Option Balance
  amount : Money
  serviceFee : Money
  comment : String

/-- The system balance and the merchant's, if both are there and fit. -/
def UpdateBalancesForWithdrawal.validate (p : UpdateBalancesForWithdrawal) :
    Except Err (Balance × Balance) :=
  match p.system, p.merchant with
  | some system, some merchant =>
      if 0 < p.transactionID ∧ system.compatibleTo merchant = true ∧
          system.id.entityType = .wallet ∧ merchant.id.entityType = .merchant then
        if p.amount.compatibleTo p.serviceFee then .ok (system, merchant)
        else .error (Err.of .errIncompatibleMoney)
      else .error (Err.new "invalid input")
  | _, _ => .error (Err.new "invalid input")

/-- `ErrInsufficienceMerchantBalance` -/
def errInsufficienceMerchantBalance : Err := (Err.new "insufficient balance").wrap "merchant"

/-- A failure that is quoted in front of another error. -/
def quoted (e quote : Err) : Err := ⟨e.cause, quote.context ++ e.context⟩

/-- `wallet.Service.UpdateBalancesForWithdrawal`. An invalid request is dropped
without an error. -/
def updateBalancesForWithdrawal (p : UpdateBalancesForWithdrawal) : Call Unit :=
  match p.validate with
  | .error _ => pure ()
  | .ok (system, merchant) => do
      let merchantAmountDelta ← succeed (p.amount.add p.serviceFee)
      let metaData : MetaData :=
        [("transactionID", toString p.transactionID),
         ("senderWallerID", toString system.id.entityID)]
      runTx do
        let _ ← (changeBalanceByID .tx merchant.id
          ⟨p.operation, merchantAmountDelta, p.comment, metaData⟩).mapError
            (quoted errInsufficienceMerchantBalance)
        let _ ← (changeBalanceByID .tx system.id
          ⟨p.operation, p.amount, p.comment, metaData⟩).mapError
            (Err.wrap "unable to update outbound wallet's balance")
        pure ()

def ensureBalance (entityType : EntityType) (entityID : Int) (currency : CryptoCurrency)
    (isTest : Bool) : Call Balance := do
  let found ← ask .pool (.getBalanceByFilter
    ⟨entityID, entityType, currency.chooseNetwork isTest, currency.ticker⟩)
  match found with
  | .ok b => pure (entryToBalance b)
  | .error e =>
      if e.is .noRows then do
        let now ← timeNow
        let created ← ask .pool (.createBalance {
          key := ⟨entityType, entityID, currency.blockchain, currency.chooseNetwork isTest,
            currency.ticker⟩
          createdAt := now
          updatedAt := now
          currencyType := currency.type
          decimals := currency.decimals
          amount := 0 })
        let b ← succeed created
        pure (entryToBalance b)
      else .fail e

end CryptoLink
