import CryptoLink.Watcher.Detection
import CryptoLink.Watcher.Matching

/-!
# Handing on a transfer

What the scanners of all chains share: a transfer takes the slot of the invoice
it is matched to as soon as the callback reports no error.
-/

namespace CryptoLink

/-- The callback, and what is behind it: whether it returned without an error,
and the state it left. -/
abbrev OnDetected (σ : Type) := DetectedTransfer → σ → Bool × σ

/-- What a scan carries along: the slots still open, its two results, and the
state behind the callback. -/
structure Scan (σ : Type) where
  pending : List PendingInfo
  detected : Int
  failedIDs : List Int
  state : σ

variable {σ : Type}

namespace Scan

def start (pending : List PendingInfo) (state : σ) : Scan σ := ⟨pending, 0, [], state⟩

/-- The callback runs on a matched transfer, and its slot is gone unless it
returned an error. -/
def handOn (onDetected : OnDetected σ) (bestIdx : ℕ) (info : PendingInfo) (d : DetectedTransfer)
    (x : Scan σ) : Scan σ :=
  let result := onDetected d x.state
  if result.1 then
    { x with
      pending := removePending x.pending bestIdx
      detected := x.detected + 1
      state := result.2 }
  else { x with failedIDs := x.failedIDs ++ [info.tx.id], state := result.2 }

variable {onDetected : OnDetected σ} {bestIdx : ℕ} {info : PendingInfo} {d : DetectedTransfer}
  {x : Scan σ}

theorem state_handOn : (x.handOn onDetected bestIdx info d).state = (onDetected d x.state).2 := by
  simp only [handOn]
  split
  · rfl
  · rfl

theorem mem_of_mem_handOn {i : PendingInfo} (h : i ∈ (x.handOn onDetected bestIdx info d).pending) :
    i ∈ x.pending := by
  simp only [handOn] at h
  split at h
  · exact mem_of_removePending h
  · exact h

end Scan

/-- The detection of a transfer matched to an invoice. -/
def invoiceDetection (isTest : Bool) (info : PendingInfo) (txHash sender recipient : String)
    (amount : Int) : DetectedTransfer where
  txHash := txHash
  senderAddress := sender
  recipientAddress := recipient
  target := .invoice info.tx (Money.crypto info.tx.currency.ticker amount info.tx.currency.decimals)
    info.tx.currency (info.tx.currency.chooseNetwork isTest)

end CryptoLink
