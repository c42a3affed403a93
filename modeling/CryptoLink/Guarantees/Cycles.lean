import CryptoLink.Guarantees.OpenInvoices
import CryptoLink.Repository.Listings
import CryptoLink.Watcher.Polling

/-!
# The rows of a cycle

A cycle reads the newest two hundred open invoices, whatever chain they are on,
and resolves all of them or none.
-/

namespace CryptoLink

open KeyedTables ReadCommitted RankedListings

namespace Service

variable {s : Service} {w : World}

/-- The rows of a cycle. -/
def cycleRows (w : World) : List TransactionRow :=
  (ranked TransactionRow.id (w.transactions.rows.filter Books.isOpen)).take pendingLimit

theorem pendingTransactions_eq (s : Service) (w : World) :
    s.pendingTransactions w = (cycleRows w).mapM s.entryToTransaction := by
  unfold pendingTransactions cycleRows
  rw [World.getTransactionsByFilter_eq]
  have hfilter : w.transactions.rows.filter
      (World.matchesFilter (pendingIncoming.toRepo pendingLimit)) =
        w.transactions.rows.filter Books.isOpen := by
    refine List.filter_congr fun row _ => ?_
    simp [World.matchesFilter, Filter.toRepo, pendingIncoming, stringToNullable, Books.isOpen,
      Bool.and_assoc]
  rw [hfilter]
  rfl

theorem mem_cycleRows {row : TransactionRow} (h : row ∈ cycleRows w) :
    row ∈ w.transactions.rows ∧ Books.isOpen row = true :=
  List.mem_filter.mp (mem_ranked.mp (List.mem_of_mem_take h))

theorem nodup_cycleRows (w : World) : ((cycleRows w).map TransactionRow.id).Nodup :=
  (nodup_ranked (w.ids_filter_nodup Books.isOpen)).sublist ((List.take_sublist _ _).map _)

/-- A transaction of the cycle is read off a row of it. -/
theorem row_of_pending {txs : List Transaction} {t : Transaction}
    (h : s.pendingTransactions w = .ok txs) (ht : t ∈ txs) :
    ∃ row ∈ cycleRows w, s.entryToTransaction row = .ok t := by
  rw [pendingTransactions_eq] at h
  exact row_of_mapM h ht

theorem nodup_pending {txs : List Transaction} (h : s.pendingTransactions w = .ok txs) :
    (txs.map Transaction.id).Nodup := by
  rw [pendingTransactions_eq] at h
  rw [ids_of_mapM h]
  exact nodup_cycleRows w

/-- The query at the top of a cycle. -/
def listPending (s : Service) (listing : Env) (w : World) : Except Err (List Transaction) :=
  outcome (s.listByFilter pendingIncoming pendingLimit) (fun _ => listing) w

theorem pending_of_listPending {listing : Env} {txs : List Transaction}
    (h : s.listPending listing w = .ok txs) : s.pendingTransactions w = .ok txs := by
  unfold listPending outcome at h
  rw [alone_listByFilter] at h
  have hreply : engine.reply
    (.getTransactionsByFilter (pendingIncoming.toRepo pendingLimit)) listing
      w = answered listing.fate .database (.ok (w.getTransactionsByFilter
        (pendingIncoming.toRepo pendingLimit))) := rfl
  simp only [hreply, answered] at h
  split at h
  · exact h
  · cases h

end Service

end CryptoLink
