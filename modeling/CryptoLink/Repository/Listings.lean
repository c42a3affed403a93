import CryptoLink.Library.RankedListings
import CryptoLink.Repository.Frames

/-!
# What a filtered listing shows

`getTransactionsByFilter` shows the newest rows first and stops at its limit.
-/

namespace CryptoLink

open KeyedTables RankedListings

namespace World

/-- The `where` clause of `getTransactionsByFilter`. -/
def matchesFilter (p : GetTransactionsByFilterParams) (r : TransactionRow) : Bool :=
  (p.recipientWalletID.isNone || r.recipientWalletID = p.recipientWalletID) &&
    (p.networkID.isNone || r.networkID = p.networkID) &&
    (p.currency.isNone || some r.currency = p.currency) &&
    (match p.types with | none => true | some ts => ts.contains r.type) &&
    (match p.statuses with | none => true | some ss => ss.contains r.status) &&
    (!p.filterEmptyHash || r.transactionHash.isNone) &&
    (p.recipientAddress.isNone || some r.recipientAddress = p.recipientAddress)

theorem getTransactionsByFilter_eq (w : World) (p : GetTransactionsByFilterParams) :
    w.getTransactionsByFilter p =
      (ranked TransactionRow.id (w.transactions.rows.filter (matchesFilter p))).take p.limit := rfl

theorem ids_filter_nodup (w : World) (q : TransactionRow → Bool) :
    ((w.transactions.rows.filter q).map TransactionRow.id).Nodup :=
  w.transactions.nodup.sublist (List.filter_sublist.map _)

/-- A matching row is listed unless as many newer ones fill the limit. -/
theorem mem_getTransactionsByFilter {w : World} {p : GetTransactionsByFilterParams}
    {r : TransactionRow} :
    r ∈ w.getTransactionsByFilter p ↔
      (r ∈ w.transactions.rows ∧ matchesFilter p r = true) ∧
        above TransactionRow.id r (w.transactions.rows.filter (matchesFilter p)) < p.limit := by
  rw [getTransactionsByFilter_eq, mem_take_ranked (w.ids_filter_nodup _), List.mem_filter]

/-- Rows are named by their ids. -/
theorem row_unique {w : World} {r r' : TransactionRow} (h : r ∈ w.transactions.rows)
    (h' : r' ∈ w.transactions.rows) (hid : r.id = r'.id) : r = r' := by
  have hr := Table.get_of_mem h
  have hr' := Table.get_of_mem h'
  rw [hid, hr'] at hr
  exact (Option.some.inj hr).symm

end World

end CryptoLink
