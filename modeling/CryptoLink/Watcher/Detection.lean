import CryptoLink.Processing.CrossCurrency

/-!
# Detected transfers

What a scanner hands on, the deduplication in front of the callback, and the
callback itself.
-/

namespace CryptoLink

open ReadCommitted StatementPrograms

/-- A transfer is matched to a pending invoice, or arrived at a collector in a
currency no invoice there waits for. -/
inductive DetectionTarget where
  | invoice (pendingTx : Transaction) (amount : Money) (currency : CryptoCurrency)
      (networkID : String)
  | unmatched (blockchain : Blockchain) (isTest isNative : Bool) (tokenContract rawAmount : String)
  deriving DecidableEq, Repr

structure DetectedTransfer where
  txHash : String
  senderAddress : String
  recipientAddress : String
  target : DetectionTarget
  deriving DecidableEq, Repr

namespace DetectedTransfer

def pendingTx (d : DetectedTransfer) : Option Transaction :=
  match d.target with
  | .invoice tx .. => some tx
  | .unmatched .. => none

/-- Left empty on the unmatched path. -/
def networkID (d : DetectedTransfer) : String :=
  match d.target with
  | .invoice _ _ _ networkID => networkID
  | .unmatched .. => ""

def recipient (d : DetectedTransfer) : String :=
  if d.recipientAddress = "" then
    match d.pendingTx with
    | some tx => tx.recipientAddress
    | none => ""
  else d.recipientAddress

end DetectedTransfer

namespace Service

variable (s : Service)

/-- The callback of `WatchPendingAddresses`. -/
def onDetected (d : DetectedTransfer) : Call Unit :=
  match d.target with
  | .invoice tx amount currency networkID =>
      s.processInboundTransaction tx {
        currency := currency
        amount := amount
        senderAddress := d.senderAddress
        transactionID := d.txHash
        networkID := networkID }
  | .unmatched blockchain isTest isNative tokenContract rawAmount =>
      s.resolveUnmatchedCollectorPayment {
        collectorAddress := d.recipientAddress
        blockchain := blockchain
        isTest := isTest
        isNative := isNative
        tokenContract := tokenContract
        rawAmount := rawAmount
        txHash := d.txHash
        senderAddress := d.senderAddress }

/-- Two plain reads; a failed read counts as nothing found. -/
def dedupOnDetected (d : DetectedTransfer) : Call Unit := do
  let existing ← (s.getByHashAndRecipient d.networkID d.txHash d.recipient).attempt
  match existing with
  | .ok _ => pure ()
  | .error _ => do
      let fillExists ← (fillExistsByHashAndRecipient d.networkID d.txHash d.recipient).attempt
      match fillExists with
      | .ok true => pure ()
      | _ => s.onDetected d

/-- What `dedupOnDetected` decides of a transfer: the transaction and the input
it hands to `ProcessInboundTransaction`, or none. -/
def detectedSelection (d : DetectedTransfer) : Call (Option (Transaction × Input)) := do
  let existing ← (s.getByHashAndRecipient d.networkID d.txHash d.recipient).attempt
  match existing with
  | .ok _ => pure none
  | .error _ => do
      let fillExists ← (fillExistsByHashAndRecipient d.networkID d.txHash d.recipient).attempt
      match fillExists with
      | .ok true => pure none
      | _ =>
        match d.target with
        | .unmatched blockchain isTest isNative tokenContract rawAmount =>
            s.unmatchedSelection {
              collectorAddress := d.recipientAddress
              blockchain := blockchain
              isTest := isTest
              isNative := isNative
              tokenContract := tokenContract
              rawAmount := rawAmount
              txHash := d.txHash
              senderAddress := d.senderAddress }
        | .invoice tx amount currency networkID =>
            pure (some (tx, {
              currency := currency
              amount := amount
              senderAddress := d.senderAddress
              transactionID := d.txHash
              networkID := networkID }))

/-- A transfer is selected for first and then processed. -/
theorem dedupOnDetected_eq (d : DetectedTransfer) :
    s.dedupOnDetected d = (s.detectedSelection d).bind s.processSelected := by
  unfold dedupOnDetected detectedSelection onDetected
  simp only [Prog.bind_eq, Prog.bind_assoc]
  congr 1
  funext existing
  cases existing with
  | ok found => rfl
  | error e =>
    simp only [Prog.bind_assoc]
    congr 1
    funext fillExists
    cases d.target with
    | unmatched blockchain isTest isNative tokenContract rawAmount =>
      split
      · rfl
      · exact s.resolveUnmatchedCollectorPayment_eq _
    | invoice tx amount currency networkID =>
      split
      · rfl
      · rfl

end Service

end CryptoLink
