import CryptoLink.Library.OwnSteps
import CryptoLink.Repository.Statements

/-!
# What a call adds to a balance

The balances move with every call of a run. What one call adds to one of them is
the sum of the differences that its own statements made.
-/

namespace CryptoLink

open ReadCommitted

/-- What the ledger holds under a key. -/
def World.amountAt (w : World) (k : BalanceKey) : Int :=
  match w.balances.get k with
  | none => 0
  | some b => b.amount

/-- What a call added to a balance. -/
def gain (k : BalanceKey) (own : Deeds World) : Int :=
  (own.map fun d => d.2.amountAt k - d.1.amountAt k).sum

@[simp] theorem gain_nil (k : BalanceKey) : gain k [] = 0 := rfl

@[simp] theorem gain_append (k : BalanceKey) (own own' : Deeds World) :
    gain k (own ++ own') = gain k own + gain k own' := by
  simp [gain]

@[simp] theorem gain_single (k : BalanceKey) (d : World × World) :
    gain k [d] = d.2.amountAt k - d.1.amountAt k := by
  simp [gain]

theorem amountAt_congr {w w' : World} (h : w'.balances = w.balances) (k : BalanceKey) :
    w'.amountAt k = w.amountAt k := by
  rw [World.amountAt, World.amountAt, h]

theorem gain_eq_zero {k : BalanceKey} {own : Deeds World}
    (h : ∀ d ∈ own, d.2.amountAt k = d.1.amountAt k) : gain k own = 0 := by
  induction own with
  | nil => rfl
  | cons d own ih =>
    have hfirst := h d List.mem_cons_self
    have hrest := ih fun d' hd' => h d' (List.mem_cons_of_mem _ hd')
    rw [← List.singleton_append, gain_append, gain_single, hrest]
    omega

end CryptoLink
