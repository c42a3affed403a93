import CryptoLink.Services.Balances

/-!
# System balances

What the operator owns has no rows of its own. It is computed from the balances
of the wallets and those of the merchants whenever somebody asks for it.
-/

namespace CryptoLink

open KeyedTables StatementPrograms

/-- The key of a balance in the map of system balances. -/
def keyFunc (b : Balance) : String :=
  b.id.currency ++ "/" ++ b.id.network ++ "/" ++ b.id.networkID

abbrev BalancesMap := Table String Balance keyFunc

namespace BalancesMap

def setAmount (balancesMap : BalancesMap) (key : String) (total : Money) : BalancesMap :=
  balancesMap.modify key (fun b => { b with amount := total }) fun _ => rfl

def addWallet (balancesMap : BalancesMap) (w : Balance) : Except Err BalancesMap :=
  match balancesMap.get (keyFunc w) with
  | none => .ok (balancesMap.insert {
      id := ⟨.system, 0, w.id.network, w.id.networkID, w.id.currency⟩
      currencyType := w.currencyType
      amount := w.amount })
  | some systemBalance => do
      let total ← wrapErr "unable to add wallet's amount" (systemBalance.amount.add w.amount)
      .ok (balancesMap.setAmount (keyFunc w) total)

/-- A system balance may become negative, but it has to be there. -/
def subtractMerchant (balancesMap : BalancesMap) (w : Balance) : Except Err BalancesMap :=
  match balancesMap.get (keyFunc w) with
  | none => .error (Err.new ("unable to find balance " ++ keyFunc w))
  | some systemBalance => do
      let total ← wrapErr ("unable to subtract merchant's amount " ++ keyFunc w)
        (systemBalance.amount.subNegative w.amount)
      .ok (balancesMap.setAmount (keyFunc w) total)

end BalancesMap

def composeSystemBalances (merchants wallets : List Balance) : Except Err (List Balance) := do
  let added ← wallets.foldlM BalancesMap.addWallet Table.empty
  let balancesMap ← merchants.foldlM BalancesMap.subtractMerchant added
  .ok (balancesMap.rows.insertionSort fun a b => keyFunc a ≤ keyFunc b)

structure Balances where
  merchant : List Balance
  wallet : List Balance
  system : List Balance := []

structure ListAllBalancesOpts where
  withSystemBalances : Bool := false
  hideEmpty : Bool := false

/-- The two listings are two statements: a ledger that changes in between is
listed half before and half after the change. -/
def listAllBalances (opts : ListAllBalancesOpts) : Call Balances := do
  let res ← ask .pool (.listAllBalancesByType .merchant opts.hideEmpty)
  let merchants ← succeed (wrapErr "unable to list merchant balances" res)
  let res ← ask .pool (.listAllBalancesByType .wallet opts.hideEmpty)
  let wallets ← succeed (wrapErr "unable to list wallet balances" res)
  let merchantBalances := merchants.map entryToBalance
  let walletBalances := wallets.map entryToBalance
  if opts.withSystemBalances then do
    let systemBalances ← succeed (wrapErr "unable to compose system balances"
      (composeSystemBalances merchantBalances walletBalances))
    pure ⟨merchantBalances, walletBalances, systemBalances⟩
  else pure ⟨merchantBalances, walletBalances, []⟩

/-- Nothing, if the balance covers the amount. -/
def Balance.covers (b : Balance) (amount : Money) : Except Err Unit :=
  (b.amount.sub amount).map fun _ => ()

def getMerchantBalance (merchantID : Int) (currency networkID : String) : Call Balance := do
  let r ← ask .pool (.getBalanceByFilter ⟨merchantID, .merchant, networkID, currency⟩)
  succeed ((orNotFound .errBalanceNotFound r).map entryToBalance)

end CryptoLink
