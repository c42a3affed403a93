import CryptoLink.Alone
import CryptoLink.Watcher.Tron

/-!
# Transfers that come again

TronGrid lists bound transfers along with new ones. The callback skips a bound
transfer without an error, which the scan takes for a binding: the slot is gone.
-/

namespace CryptoLink

open ReadCommitted StatementPrograms KeyedTables Tron

namespace Service

variable (s : Service)

/-- The deduplicating callback with nothing beside it; the steps of each
detection are answered as `answers` says. -/
def onDetectedAlone (answers : DetectedTransfer → ℕ → Env) : OnDetected World := fun d w =>
  ((outcome (s.dedupOnDetected d) (answers d) w).isOk,
    worldAfter (s.dedupOnDetected d) (answers d) w)

/-- What the two reads of `dedupOnDetected` recognise. -/
def alreadyBound (w : World) (d : DetectedTransfer) : Bool :=
  (match w.getTransactionByHashNetworkAndRecipient (stringToNullable d.txHash)
      (stringToNullable d.networkID) d.recipient with
    | none => false
    | some row => (s.entryToTransaction row).isOk) ||
  w.fillExistsByHashAndRecipient d.networkID d.txHash d.recipient

/-- The two answers `dedupOnDetected` looks at. -/
theorem alreadyBound_eq (w : World) (d : DetectedTransfer) :
    s.alreadyBound w d =
      ((s.toTransaction (noRows (w.getTransactionByHashNetworkAndRecipient
        (stringToNullable d.txHash) (stringToNullable d.networkID) d.recipient))).isOk ||
          w.fillExistsByHashAndRecipient d.networkID d.txHash d.recipient) := by
  unfold alreadyBound
  cases w.getTransactionByHashNetworkAndRecipient (stringToNullable d.txHash)
      (stringToNullable d.networkID) d.recipient with
  | none => rfl
  | some row => rfl

/-- The callback returns nil for a recognised transfer and leaves everything as
it is. -/
theorem onDetected_of_alreadyBound {answers : DetectedTransfer → ℕ → Env} {w : World}
    {d : DetectedTransfer} (h : s.alreadyBound w d = true)
    (hanswered : ∀ n, (answers d n).fate = .done) : s.onDetectedAlone answers d w = (true, w) := by
  have hfirst := alone_getByHashAndRecipient (s := s) hanswered d.networkID d.txHash d.recipient 0 w
    (.idle : Session Stmt Env World LockKey)
  have hsecond := alone_fillExistsByHashAndRecipient hanswered d.networkID d.txHash d.recipient 1 w
    (.idle : Session Stmt Env World LockKey)
  rw [alreadyBound_eq] at h
  unfold onDetectedAlone outcome worldAfter dedupOnDetected
  simp only [Prog.bind_eq, Engine.alone_bind, Engine.alone_attempt, hfirst]
  -- bound to a row, or else recorded as a fill
  cases hrow : s.toTransaction (noRows (w.getTransactionByHashNetworkAndRecipient
      (stringToNullable d.txHash) (stringToNullable d.networkID) d.recipient)) with
  | ok tx => rfl
  | error e =>
    have hfill : w.fillExistsByHashAndRecipient d.networkID d.txHash d.recipient = true := by
      rw [hrow] at h
      exact h
    simp only [Engine.alone_bind, Engine.alone_attempt, hsecond, hfill]
    rfl

/-- Native transfers or token transfers of one address. -/
def pollTRONForAddress (kind : CryptoCurrencyType) (answers : DetectedTransfer → ℕ → Env)
    (isTest : Bool) (addr : String) (recentTxs : List AccountTransaction)
    (pending : List PendingInfo) (w : World) : Scan World :=
  match kind with
  | .coin => pollTRONNativeForAddress isTest addr (s.onDetectedAlone answers) (.ok recentTxs)
      (.start pending w)
  | .token => pollTRONTokenForAddress isTest addr (s.onDetectedAlone answers) (.ok recentTxs)
      (.start pending w)

/-- How a transfer is matched. -/
def matching (kind : CryptoCurrencyType) (isTest : Bool) (addr : String) :
    List PendingInfo → AccountTransaction → Option (ℕ × PendingInfo × Int) :=
  match kind with
  | .coin => nativeMatch addr
  | .token => tokenMatch isTest addr

/-- Recognised as bound, whichever of the open invoices it is matched to. -/
def isDuplicate (isTest : Bool) (addr : String) (pending : List PendingInfo) (w : World)
    (rtx : AccountTransaction) : Bool :=
  pending.all fun info =>
    s.alreadyBound w (invoiceDetection isTest info rtx.txID rtx.sender addr rtx.amount)

/-- The (transfer, invoice) pairs that are bound. -/
def boundPairs (w : World) : List (String × Int) :=
  w.fills.rows.map fun f => (f.key.transactionHash, f.key.transactionID)

/-- Whether the cycle binds the same pairs with the duplicates filtered out. -/
def DuplicatesDoNotMatter (kind : CryptoCurrencyType) (answers : DetectedTransfer → ℕ → Env)
    (isTest : Bool) (addr : String) (recentTxs : List AccountTransaction)
    (pending : List PendingInfo) (w : World) : Prop :=
  boundPairs (s.pollTRONForAddress kind answers isTest addr recentTxs pending w).state =
    boundPairs (s.pollTRONForAddress kind answers isTest addr
      (recentTxs.filter fun rtx => !s.isDuplicate isTest addr pending w rtx) pending w).state

/-- The slots and the database `x` let a transfer pass: it fits no invoice, or
the callback refuses it and writes nothing. -/
def LetsPass {σ : Type} (found : List PendingInfo → AccountTransaction →
      Option (ℕ × PendingInfo × Int)) (isTest : Bool) (addr : String) (onDetected : OnDetected σ)
    (x : Scan σ) (rtx : AccountTransaction) : Prop :=
  ∀ i info amount, found x.pending rtx = some (i, info, amount) →
    onDetected (invoiceDetection isTest info rtx.txID rtx.sender addr amount) x.state =
      (false, x.state)

/-- Every transfer in `dup` is let pass by what the others listed before it
leave. -/
def DuplicatesPass {σ : Type} (found : List PendingInfo → AccountTransaction →
      Option (ℕ × PendingInfo × Int)) (isTest : Bool) (addr : String) (onDetected : OnDetected σ)
    (dup : AccountTransaction → Bool) (txs : List AccountTransaction) (x : Scan σ) : Prop :=
  ∀ before rtx after, txs = before ++ rtx :: after → dup rtx = true →
    LetsPass found isTest addr onDetected
      (pollTransfers isTest addr found onDetected (before.filter fun r => !dup r) x) rtx

section

variable {σ : Type} {found : List PendingInfo → AccountTransaction → Option (ℕ × PendingInfo × Int)}
  {isTest : Bool} {addr : String} {onDetected : OnDetected σ} {dup : AccountTransaction → Bool}

/-- The same slots are open, over the same database. -/
def SameSlots (x y : Scan σ) : Prop := x.pending = y.pending ∧ x.state = y.state

theorem SameSlots.handOn {x y : Scan σ} (h : SameSlots x y) (i : ℕ) (info : PendingInfo)
    (d : DetectedTransfer) : SameSlots (x.handOn onDetected i info d)
      (y.handOn onDetected i info d) := by
  obtain ⟨hpending, hstate⟩ := h
  simp only [Scan.handOn, hpending, hstate]
  split
  · exact ⟨rfl, rfl⟩
  · exact ⟨rfl, rfl⟩

theorem SameSlots.pollTransfers {txs : List AccountTransaction} {x y : Scan σ}
    (h : SameSlots x y) : SameSlots (pollTransfers isTest addr found onDetected txs x)
      (pollTransfers isTest addr found onDetected txs y) := by
  induction txs generalizing x y with
  | nil => exact h
  | cons rtx rest ih =>
    simp only [Tron.pollTransfers, h.1]
    split
    · exact h
    · cases found y.pending rtx with
      | none => exact ih h
      | some best => exact ih (h.handOn best.1 best.2.1 _)

theorem pollTransfers_of_empty {txs : List AccountTransaction} {x : Scan σ} (h : x.pending = []) :
    pollTransfers isTest addr found onDetected txs x = x := by
  cases txs with
  | nil => rfl
  | cons rtx rest => simp [pollTransfers, h]

/-- One transfer, and then the rest from what it leaves. -/
theorem pollTransfers_cons {rtx : AccountTransaction} {rest : List AccountTransaction}
    {x : Scan σ} : pollTransfers isTest addr found onDetected (rtx :: rest) x =
      pollTransfers isTest addr found onDetected rest
        (pollTransfers isTest addr found onDetected [rtx] x) := by
  simp only [pollTransfers]
  by_cases hempty : x.pending.isEmpty = true
  · rw [if_pos hempty, if_pos hempty]
    exact (pollTransfers_of_empty (List.isEmpty_iff.mp hempty)).symm
  · rw [if_neg hempty, if_neg hempty]
    cases found x.pending rtx with
    | none => rfl
    | some best => rfl

theorem LetsPass.same {x : Scan σ} {rtx : AccountTransaction}
    (h : LetsPass found isTest addr onDetected x rtx) :
    SameSlots (pollTransfers isTest addr found onDetected [rtx] x) x := by
  simp only [pollTransfers]
  split
  · exact ⟨rfl, rfl⟩
  · cases hfound : found x.pending rtx with
    | none => exact ⟨rfl, rfl⟩
    | some best =>
      obtain ⟨i, info, amount⟩ := best
      have hrefused := h i info amount hfound
      simp only [Scan.handOn, hrefused]
      exact ⟨rfl, rfl⟩

/-- Transfers that are let pass may as well not be listed. -/
theorem pollTransfers_filter {txs : List AccountTransaction} {x y : Scan σ}
    (hxy : SameSlots x y) (h : DuplicatesPass found isTest addr onDetected dup txs y) :
    SameSlots (pollTransfers isTest addr found onDetected txs x)
      (pollTransfers isTest addr found onDetected (txs.filter fun rtx => !dup rtx) y) := by
  induction txs generalizing x y with
  | nil => exact hxy
  | cons rtx rest ih =>
    rw [pollTransfers_cons]
    by_cases hdup : dup rtx = true
    · rw [List.filter_cons_of_neg (by simp [hdup])]
      have hpass : LetsPass found isTest addr onDetected y rtx := h [] rtx rest rfl hdup
      have hstep : SameSlots (pollTransfers isTest addr found onDetected [rtx] x) y := by
        have hboth : SameSlots (pollTransfers isTest addr found onDetected [rtx] x)
            (pollTransfers isTest addr found onDetected [rtx] y) := hxy.pollTransfers
        exact ⟨hboth.1.trans hpass.same.1, hboth.2.trans hpass.same.2⟩
      refine ih hstep fun before r after hsplit hr => ?_
      have hlater := h (rtx :: before) r after (by rw [hsplit]; rfl) hr
      rwa [List.filter_cons_of_neg (by simp [hdup])] at hlater
    · have hkeep : ∀ txs : List AccountTransaction,
          pollTransfers isTest addr found onDetected ((rtx :: txs).filter fun r => !dup r) y =
            pollTransfers isTest addr found onDetected (txs.filter fun r => !dup r)
              (pollTransfers isTest addr found onDetected [rtx] y) := by
        intro txs
        rw [List.filter_cons_of_pos (by simp [hdup])]
        exact pollTransfers_cons
      rw [hkeep]
      refine ih hxy.pollTransfers fun before r after hsplit hr => ?_
      have hlater := h (rtx :: before) r after (by rw [hsplit]; rfl) hr
      rwa [hkeep] at hlater

end

/-- A recognised transfer that is not let pass takes the slot of an open invoice,
and nothing else happens. -/
theorem takes_slot {found : List PendingInfo → AccountTransaction → Option (ℕ × PendingInfo × Int)}
    {isTest : Bool} {addr : String} {answers : DetectedTransfer → ℕ → Env} {x : Scan World}
    {rtx : AccountTransaction} (hanswered : ∀ d n, (answers d n).fate = .done)
    (hbound : ∀ info amount, s.alreadyBound x.state
      (invoiceDetection isTest info rtx.txID rtx.sender addr amount) = true)
    (hopen : x.pending ≠ [])
    (h : ¬ LetsPass found isTest addr (s.onDetectedAlone answers) x rtx) :
    ∃ i info amount, found x.pending rtx = some (i, info, amount) ∧
      pollTransfers isTest addr found (s.onDetectedAlone answers) [rtx] x =
        { x with pending := removePending x.pending i, detected := x.detected + 1 } := by
  have hsome : ∃ i info amount, found x.pending rtx = some (i, info, amount) := by
    by_contra hnone
    exact h fun i info amount hfound => absurd ⟨i, info, amount, hfound⟩ hnone
  obtain ⟨i, info, amount, hfound⟩ := hsome
  refine ⟨i, info, amount, hfound, ?_⟩
  have hskipped := s.onDetected_of_alreadyBound (hbound info amount) (hanswered _)
  have hslots : ¬ x.pending.isEmpty = true := fun hnil => hopen (List.isEmpty_iff.mp hnil)
  simp only [pollTransfers, if_neg hslots, hfound, Scan.handOn, hskipped, if_true]

theorem pollTRONForAddress_eq (kind : CryptoCurrencyType) (answers : DetectedTransfer → ℕ → Env)
    (isTest : Bool) (addr : String) (recentTxs : List AccountTransaction)
    (pending : List PendingInfo) (w : World) :
    s.pollTRONForAddress kind answers isTest addr recentTxs pending w =
      pollTransfers isTest addr (matching kind isTest addr) (s.onDetectedAlone answers) recentTxs
        (.start pending w) := by
  cases kind <;> rfl

/-- For every address, invoices, listing and database: as long as every transfer
that is already bound fits none of the invoices the new transfers before it have
left open, or is refused, the cycle binds the same pairs with and without
them. -/
theorem duplicates_do_not_matter (kind : CryptoCurrencyType)
    (answers : DetectedTransfer → ℕ → Env) (isTest : Bool) (addr : String)
    (recentTxs : List AccountTransaction) (pending : List PendingInfo) (w : World)
    (h : DuplicatesPass (matching kind isTest addr) isTest addr (s.onDetectedAlone answers)
      (s.isDuplicate isTest addr pending w) recentTxs (.start pending w)) :
    s.DuplicatesDoNotMatter kind answers isTest addr recentTxs pending w := by
  unfold DuplicatesDoNotMatter
  simp only [pollTRONForAddress_eq]
  rw [(pollTransfers_filter ⟨rfl, rfl⟩ h).2]

end Service

open Sample

namespace Sample

def tron : CryptoCurrency :=
  { ether with
    blockchain := "TRON"
    networkID := "mainnet"
    testNetworkID := "testnet"
    ticker := "TRON"
    name := "TRON" }

def tronService : Service := { service with currencies := ⟨[tron], by decide⟩ }

/-- An invoice of a hundred to the TRON collector. -/
def tronInvoice (id : Int) (status : Transaction.Status) (hash : Option String) : TransactionRow :=
  { invoice status hash none none with
    id := id
    blockchain := "TRON"
    currency := "TRON"
    networkID := some "mainnet" }

/-- Invoice 1 is paid by transfer b, invoice 2 is open. -/
def onePaid : World :=
  { noMoney with
    transactions := (noMoney.transactions.insert (tronInvoice 1 .completed (some "b"))).insert
      (tronInvoice 2 .pending none)
    payments := noMoney.payments.insert (purchase .locked) }

def openSlot : PendingInfo :=
    ⟨Service.transactionOf (tronInvoice 2 .pending none) tron none, none, none⟩

def sent (txID : String) (amount : Int) : AccountTransaction :=
  ⟨txID, "payer", "collector", amount, true, 0, "TransferContract", "", ""⟩

end Sample

/-- A bound transfer of five is dust to the open invoice, and one of a hundred
comes after the new transfer that pays it. -/
theorem duplicates_do_not_matter_sample :
    tronService.DuplicatesDoNotMatter .coin (fun _ _ => {}) false "collector"
      [sent "b" 5, sent "a" 100, sent "b" 100] [openSlot] onePaid := by
  refine tronService.duplicates_do_not_matter .coin (fun _ _ => {}) false "collector"
    [sent "b" 5, sent "a" 100, sent "b" 100] [openSlot] onePaid fun before rtx after hsplit hdup =>
      ?_
  rcases before with - | ⟨first, - | ⟨second, - | ⟨third, before⟩⟩⟩
  · obtain ⟨rfl, -⟩ := List.cons.inj hsplit
    have hnone : nativeMatch "collector" [openSlot] (sent "b" 5) = none := by decide +kernel
    intro i info amount hfound
    exact absurd (hnone.symm.trans hfound) (Option.some_ne_none _).symm
  · obtain ⟨rfl, hrest⟩ := List.cons.inj hsplit
    obtain ⟨rfl, -⟩ := List.cons.inj hrest
    have hnew : tronService.isDuplicate false "collector" [openSlot] onePaid (sent "a" 100) =
        false := by decide +kernel
    rw [hnew] at hdup
    cases hdup
  · obtain ⟨rfl, hrest⟩ := List.cons.inj hsplit
    obtain ⟨rfl, hlast⟩ := List.cons.inj hrest
    obtain ⟨rfl, -⟩ := List.cons.inj hlast
    have htaken : nativeMatch "collector" (pollTransfers false "collector" (nativeMatch "collector")
        (tronService.onDetectedAlone fun _ _ => {}) ([sent "b" 5, sent "a" 100].filter fun r =>
          !tronService.isDuplicate false "collector" [openSlot] onePaid r)
            (.start [openSlot] onePaid)).pending (sent "b" 100) = none := by decide +kernel
    intro i info amount hfound
    exact absurd (htaken.symm.trans hfound) (Option.some_ne_none _).symm
  · obtain ⟨-, hrest⟩ := List.cons.inj hsplit
    obtain ⟨-, hlast⟩ := List.cons.inj hrest
    obtain ⟨-, hnil⟩ := List.cons.inj hlast
    exact absurd hnil (by simp)

/-- A bound transfer of a hundred, listed before a new one: the new one is not
bound. -/
theorem duplicate_takes_open_slot :
    ¬ ∀ (s : Service) (kind : CryptoCurrencyType) (answers : DetectedTransfer → ℕ → Env)
      (isTest : Bool) (addr : String) (recentTxs : List AccountTransaction)
      (pending : List PendingInfo) (w : World),
        s.DuplicatesDoNotMatter kind answers isTest addr recentTxs pending w := by
  intro h
  have hsame := h tronService .coin (fun _ _ => {}) false "collector"
    [sent "b" 100, sent "a" 100] [openSlot] onePaid
  revert hsame
  unfold Service.DuplicatesDoNotMatter
  decide +kernel

end CryptoLink
