import CryptoLink.Guarantees.Duplicates
import CryptoLink.Guarantees.Idempotence
import CryptoLink.Guarantees.Cycles
import CryptoLink.Watcher.Btc

/-!
# Deposits at a bitcoin address

The balance a poll remembers has to stay in step with what is credited. A
restart forgets it, a failed callback leaves it ahead of the credit, and a
history that lags behind the balance books a deposit under an old hash.
-/

namespace CryptoLink

open ReadCommitted StatementPrograms KeyedTables RankedListings

/-- A confirmed payment to the address. -/
structure Deposit where
  hash : String
  amount : Int
  deriving DecidableEq, Repr

def Deposit.balance (deposits : List Deposit) : Int := (deposits.map Deposit.amount).sum

theorem Deposit.balance_append (xs ys : List Deposit) :
    balance (xs ++ ys) = balance xs + balance ys := by
  simp [balance]

theorem Deposit.balance_nonneg {deposits : List Deposit} (h : ∀ d ∈ deposits, 0 < d.amount) :
    0 ≤ balance deposits :=
  List.sum_nonneg (by
    intro a ha
    obtain ⟨d, hd, rfl⟩ := List.mem_map.mp ha
    exact (h d hd).le)

/-- Deposits of nothing in all are no deposits. -/
theorem Deposit.eq_nil_of_balance {deposits : List Deposit} (h : ∀ d ∈ deposits, 0 < d.amount)
    (hzero : balance deposits ≤ 0) : deposits = [] := by
  cases deposits with
  | nil => rfl
  | cons d rest =>
    have hd := h d List.mem_cons_self
    have hrest := balance_nonneg fun d' hd' => h d' (List.mem_cons_of_mem d hd')
    simp only [balance, List.map_cons, List.sum_cons] at hzero hrest
    omega

/-- The database, the process, and the chain with its newest deposit first. -/
structure BtcWatch where
  world : World
  lastBTCBalance : String → Option Int
  deposits : List Deposit

/-- `listing` answers the query at the top of a cycle, `answers` what is asked
while a detection is processed. -/
inductive BtcEvent where
  | deposit (d : Deposit)
  | poll (listing : Env) (provider : Btc.Provider) (answers : DetectedTransfer → ℕ → Env)
  | restart

namespace Service

variable (s : Service)

/-- The bitcoin part of a cycle. -/
def pollBtc (isTest : Bool) (listing : Env) (provider : Btc.Provider)
    (answers : DetectedTransfer → ℕ → Env) (x : BtcWatch) : Except Err (Btc.BalanceScan World) :=
  (s.listPending listing x.world).map fun txs =>
    Btc.pollBTCTransactions isTest provider (s.onDetectedAlone answers)
      (chainTransactions "BTC" isTest txs) x.lastBTCBalance x.world

def btcStep (isTest : Bool) (x : BtcWatch) : BtcEvent → BtcWatch
  | .deposit d => { x with deposits := d :: x.deposits }
  | .poll listing provider answers =>
      match s.pollBtc isTest listing provider answers x with
      | .error _ => x
      | .ok y => { x with world := y.state, lastBTCBalance := y.lastBTCBalance }
  | .restart => { x with lastBTCBalance := fun _ => none }

def btcRun (isTest : Bool) (x : BtcWatch) (events : List BtcEvent) : BtcWatch :=
  events.foldl (s.btcStep isTest) x

/-- A poll that lists the invoices and reports none of them as failed. -/
def PollSucceeds (isTest : Bool) (x : BtcWatch) : BtcEvent → Prop
  | .poll listing provider answers =>
      ∃ y, s.pollBtc isTest listing provider answers x = .ok y ∧ y.failedIDs = []
  | _ => False

end Service

/-- The fact amount once there is one, the confirmed fills until then. -/
def World.credited (w : World) (id : Int) : Int :=
  match (w.transactions.get id).bind TransactionRow.factAmount with
  | some fact => fact
  | none => w.sumConfirmedFillsForTx id

namespace BtcWatch

variable (row : TransactionRow) (x : BtcWatch)

def credited : Int := x.world.credited row.id

/-- The balance the process remembers. -/
def seen : Int :=
  (x.lastBTCBalance (Btc.cacheKey row.recipientAddress row.isTest)).getD 0

def IsOpen : Prop :=
  ∃ r, x.world.transactions.get row.id = some r ∧ Books.isOpen r = true

/-- What a grown balance is booked as. -/
def grownBy (tx : Transaction) (provider : Btc.Provider) : DetectedTransfer :=
  Btc.grownBy row.isTest tx row.recipientAddress (provider.transfer row.recipientAddress).1
    (provider.transfer row.recipientAddress).2 (Deposit.balance x.deposits - x.seen row)

end BtcWatch

/-- From the sum of the fills on, everything a callback asks for before its
fill is answered, and the fill is written. -/
def Recorded (envs : ℕ → Env) (expected combined : Int) : Prop :=
  (envs 2).fate = .done ∧
    if expected ≤ combined then (envs 4).fate ≠ .refused
    else (envs 3).fate = .done ∧
      if expected ≤ combined + (envs 3).number then
        (envs 4).fate = .done ∧ (envs 6).fate ≠ .refused
      else (envs 5).fate ≠ .refused

instance (envs : ℕ → Env) (expected combined : Int) : Decidable (Recorded envs expected combined) :=
  inferInstanceAs (Decidable (_ ∧ ite _ _ _))

/-- The deposit at the top of the history is recorded, or recognised if it is
recorded already. -/
def Booked (row : TransactionRow) (tx : Transaction) (provider : Btc.Provider)
    (answers : DetectedTransfer → ℕ → Env) (x : BtcWatch) : Prop :=
  let d := x.grownBy row tx provider
  if x.world.fillExistsByHashAndRecipient tx.networkID d.txHash row.recipientAddress then
    (answers d 1).fate = .done
  else
    Recorded (answers d) tx.amount.value
        (x.credited row + (Deposit.balance x.deposits - x.seen row)) ∧
      varchar 128 d.txHash = true ∧ varchar 128 d.senderAddress = true

instance (row : TransactionRow) (tx : Transaction) (provider : Btc.Provider)
    (answers : DetectedTransfer → ℕ → Env) (x : BtcWatch) :
    Decidable (Booked row tx provider answers x) :=
  inferInstanceAs (Decidable (ite _ _ _))

/-- What a poll of an open invoice needs: the true balance, a place in the
listing, and a history that begins with the latest deposit. Only when all is
credited may it miss the listing or find no history. -/
structure PollMeets (s : Service) (row : TransactionRow) (tx : Transaction) (listing : Env)
    (provider : Btc.Provider) (answers : DetectedTransfer → ℕ → Env) (x : BtcWatch) : Prop where
  truthful : ∀ b, provider.addressInfo row.recipientAddress = .ok b → b = Deposit.balance x.deposits
  listed : x.credited row = Deposit.balance x.deposits ∨
    ∀ txs, s.listPending listing x.world = .ok txs → ∃ t ∈ txs, t.id = row.id
  history : x.seen row < Deposit.balance x.deposits →
    (provider.transfer row.recipientAddress).1 = "" ∧
        x.credited row = Deposit.balance x.deposits ∨
      ((provider.transfer row.recipientAddress).1 = (x.deposits.head?.map Deposit.hash).getD "" ∧
        Booked row tx provider answers x)

/-- The conditions on one event. A deposit is a new transaction and comes while
the invoice is open, not between a restart that forgot a credited balance and
the next poll; a restart forgets nothing, or a balance all of which was seen. -/
def EventMeets (s : Service) (row : TransactionRow) (tx : Transaction) (x : BtcWatch) :
    BtcEvent → Prop
  | .deposit d =>
      (0 < d.amount ∧ d.hash ≠ "" ∧ d.hash ∉ x.deposits.map Deposit.hash) ∧
        x.IsOpen row ∧ (x.seen row = 0 → x.credited row = 0)
  | .poll listing provider answers =>
      x.IsOpen row → PollMeets s row tx listing provider answers x
  | .restart => x.IsOpen row → x.seen row = 0 ∨ x.seen row = Deposit.balance x.deposits

def RunMeets (s : Service) (row : TransactionRow) (tx : Transaction) :
    BtcWatch → List BtcEvent → Prop
  | _, [] => True
  | x, e :: rest =>
      EventMeets s row tx x e ∧ RunMeets s row tx (s.btcStep row.isTest x e) rest

/-- No other row is at the address, however it is spelled. -/
def SoleInvoice (row : TransactionRow) (w : World) : Prop :=
  ∀ id r, w.transactions.get id = some r →
    lower r.recipientAddress = lower row.recipientAddress → id = row.id

/-- An open invoice, in a currency of the chain, as the service reads it. -/
structure BtcInvoice (s : Service) (row : TransactionRow) (tx : Transaction) : Prop where
  resolved : s.entryToTransaction row = .ok tx
  isOpen : Books.isOpen row = true
  chain : tx.currency.blockchain = "BTC"
  amounts : row.currency = tx.currency.ticker ∧ row.decimals = tx.currency.decimals
  named : tx.currency.ticker ≠ "" ∧ tx.networkID ≠ "" ∧ varchar 16 tx.networkID = true
  address : row.recipientAddress ≠ ""
  unpaid : row.factAmount = none

/-- The invoice was just created, and nothing was ever paid to its address. -/
structure JustCreated (s : Service) (row : TransactionRow) (tx : Transaction) (x : BtcWatch) : Prop
    extends BtcInvoice s row tx where
  stored : x.world.transactions.get row.id = some row
  sole : SoleInvoice row x.world
  noFills : x.world.fillsOf row.id = []
  noDeposits : x.deposits = [] ∧ x.seen row = 0

section Callback

variable {s : Service} {row : TransactionRow} {tx : Transaction} {envs : ℕ → Env} {w : World}

theorem alone_crossesExpected (envs : ℕ → Env) (w : World) {received : Money}
    (hticker : tx.amount.ticker = tx.currency.ticker)
    (hdecimals : tx.amount.decimals = tx.currency.decimals)
    (hcompatible : received.compatibleTo tx.amount = true) (n : ℕ)
    (x : Session Stmt Env World LockKey) :
    engine.alone envs (Service.crossesExpected tx received) n ⟨w, x⟩ =
      if tx.amount.value ≤ received.value then (.ok true, n, ⟨w, x⟩)
      else if (envs n).fate = .done then
        (.ok (decide (tx.amount.value ≤ received.value + (envs n).number)), n + 1, ⟨w, x⟩)
      else (.error (Err.of .remote), n + 1, ⟨w, x⟩) := by
  have hsame := hcompatible
  simp only [Money.compatibleTo, Bool.and_eq_true, decide_eq_true_eq] at hsame
  have hge : received.greaterThanOrEqual tx.amount = decide (tx.amount.value ≤ received.value) := by
    rw [Bool.eq_iff_iff]
    simp only [Money.greaterThanOrEqual, Money.equals, Money.greaterThan, hcompatible,
      Bool.true_and, Bool.or_eq_true, decide_eq_true_eq]
    omega
  unfold Service.crossesExpected
  by_cases hle : tx.amount.value ≤ received.value
  · simp only [hge, hle, decide_true, if_true]
    rfl
  · simp only [hge, hle, decide_false, Bool.false_eq_true, if_false, Prog.bind_eq,
      Engine.alone_bind]
    rw [alone_read (.fiatToCrypto tenCents tx.currency) rfl]
    have hreply : engine.reply (.fiatToCrypto tenCents tx.currency) (envs n) w =
        if (envs n).fate = .done then
          .ok (Money.crypto tx.currency.ticker (envs n).number tx.currency.decimals)
        else .error (Err.of .remote) := rfl
    rw [hreply]
    by_cases hdone : (envs n).fate = .done
    · have hadd : received.add (Money.crypto tx.currency.ticker (envs n).number
          tx.currency.decimals) =
            .ok ⟨received.moneyType, received.ticker, received.value + (envs n).number,
              received.decimals⟩ := by
        have hcoin : received.compatibleTo (Money.crypto tx.currency.ticker (envs n).number
            tx.currency.decimals) = true := by
          simp [Money.compatibleTo, Money.crypto, hsame.1, hsame.2, hticker, hdecimals]
        rw [Money.add, if_pos hcoin]
        rfl
      have hend : (⟨received.moneyType, received.ticker, received.value + (envs n).number,
          received.decimals⟩ : Money).greaterThanOrEqual tx.amount =
            decide (tx.amount.value ≤ received.value + (envs n).number) := by
        rw [Bool.eq_iff_iff]
        simp only [Money.greaterThanOrEqual, Money.equals, Money.greaterThan, Money.compatibleTo,
          hsame, Bool.or_eq_true, decide_eq_true_eq]
        simp
        omega
      simp only [hdone, if_true, succeed, Engine.alone_ofExcept, hadd]
      rw [← hend]
      rfl
    · simp only [hdone, if_false]
      rfl

/-- A determination asks once more for the tolerance. -/
theorem alone_determine {combined : Money} (hticker : tx.amount.ticker = tx.currency.ticker)
    (hdecimals : tx.amount.decimals = tx.currency.decimals)
    (hcompatible : combined.compatibleTo tx.amount = true) (n : ℕ)
    (x : Session Stmt Env World LockKey)
    (hasked : tx.amount.value ≤ combined.value ∨ (envs n).fate = .done) :
    ∃ determined, engine.alone envs (Service.determineIncomingStatusFromCombined tx combined) n
      ⟨w, x⟩ = (.ok determined, if tx.amount.value ≤ combined.value then n else n + 1, ⟨w, x⟩) := by
  have hcross := alone_crossesExpected envs w hticker hdecimals hcompatible n x
  have hgreater : combined.greaterThan tx.amount =
      decide (tx.amount.value < combined.value) := by
    simp [Money.greaterThan, hcompatible]
  have hequal : combined.equals tx.amount = decide (combined.value = tx.amount.value) := by
    simp [Money.equals, hcompatible]
  unfold Service.determineIncomingStatusFromCombined
  rw [hgreater, hequal]
  by_cases hlt : tx.amount.value < combined.value
  · rw [if_pos (decide_eq_true hlt), if_pos hlt.le]
    exact ⟨_, rfl⟩
  · rw [if_neg (by simpa using hlt)]
    by_cases heq : combined.value = tx.amount.value
    · rw [if_pos (decide_eq_true heq), if_pos heq.ge]
      exact ⟨_, rfl⟩
    · have hnot : ¬ tx.amount.value ≤ combined.value := by omega
      have hdone : (envs n).fate = .done := hasked.resolve_left hnot
      rw [if_neg (by simpa using heq), if_neg hnot, Prog.bind_eq, Engine.alone_bind, hcross,
        if_neg hnot, if_pos hdone]
      simp only
      by_cases hle : tx.amount.value ≤ combined.value + (envs n).number
      · rw [decide_eq_true hle]
        exact ⟨_, rfl⟩
      · rw [decide_eq_false hle]
        exact ⟨_, rfl⟩

/-- What an inbound transfer inserts. -/
def fillParams (tx : Transaction) (input : Input) (now : Int) : InsertTransactionFillParams where
  key := ⟨tx.id, input.networkID, input.transactionID, 0⟩
  amount := input.amount.value
  senderAddress := stringToNullable input.senderAddress
  blockNumber := none
  confirmations := 1
  status := .confirmed
  observedAt := now

/-- A record that suits the invoice runs its insert, and nothing else, whatever is
answered. -/
theorem alone_recordInput_view {input : Input}
    (hcompatible : tx.amount.compatibleTo input.amount = true) (n : ℕ)
    (x : Session Stmt Env World LockKey) :
    (engine.alone envs (Service.recordInput tx input) n ⟨w, x⟩).2.2 =
      ⟨engine.autocommit (.insertTransactionFill (fillParams tx input (envs n).clock))
        (envs (n + 1)) w, x⟩ := by
  unfold Service.recordInput Service.recordFill
  rw [if_pos hcompatible, Prog.bind_eq, alone_timeNow, Prog.bind_eq, Engine.alone_bind]
  show (engine.alone envs ((succeed (wrapErr "unable to insert transaction fill" (engine.reply
    (.insertTransactionFill (fillParams tx input (envs n).clock)) (envs (n + 1)) w))).bind
      fun r => pure (Service.fillFromRepo tx r)) (n + 2) ⟨engine.autocommit (.insertTransactionFill
        (fillParams tx input (envs n).clock)) (envs (n + 1)) w, x⟩).2.2 = _
  rw [Engine.alone_bind, succeed, Engine.alone_ofExcept]
  cases wrapErr "unable to insert transaction fill" (engine.reply
    (.insertTransactionFill (fillParams tx input (envs n).clock)) (envs (n + 1)) w) with
  | ok r => rfl
  | error e => rfl

/-- Once the insert is not refused, the fill is there. -/
theorem alone_recordInput {input : Input} (hcompatible : tx.amount.compatibleTo input.amount = true)
    (n : ℕ) (hfits : w.fillFits (fillParams tx input (envs n).clock) = true)
    (hfree : w.fills.get (fillParams tx input (envs n).clock).key = none)
    (hrun : (envs (n + 1)).fate ≠ .refused) (x : Session Stmt Env World LockKey) :
    (engine.alone envs (Service.recordInput tx input) n ⟨w, x⟩).2.2 =
      ⟨{ w with fills := w.fills.insert (World.newFill (fillParams tx input
        (envs n).clock)) }, x⟩ := by
  have heffect : engine.autocommit (.insertTransactionFill (fillParams tx input (envs n).clock))
      (envs (n + 1)) w = { w with fills := w.fills.insert (World.newFill (fillParams tx input
        (envs n).clock)) } := by
    simp only [Engine.autocommit, engine_effect, engine_lasting, if_neg hrun, World.lasting,
      World.effect, hfits, if_true, hfree]
  rw [alone_recordInput_view hcompatible, heffect]

/-- What is written once the fill is there. -/
def settleWrites (tx : Transaction) (combined : Money) (_ : Conn) : Stmt → Prop
  | .updateTransaction p =>
      p.id = tx.id ∧ p.factAmount = some combined.value ∧
        (p.status = .inProgress ∨ p.status = .inProgressInvalid)
  | .extendPaymentExpiry _ => True
  | .updatePayment _ => True
  | _ => False

/-- `w` after such writes: the fills are those of `w₀`, and row `id` at most got
the fact amount. -/
structure Settled (id fact : Int) (w₀ w : World) : Prop where
  fills : w.fills = w₀.fills
  others : ∀ k, k ≠ id → w.transactions.get k = w₀.transactions.get k
  own : w.transactions.get id = w₀.transactions.get id ∨
    ∃ r, w.transactions.get id = some r ∧ r.status ≠ .pending ∧ r.factAmount = some fact

theorem Settled.effect {combined : Money} {w₀ : World} {q : Conn} {st : Stmt}
    (hst : settleWrites tx combined q st) (env : Env) (seen : World)
    (h : Settled tx.id combined.value w₀ w) :
    Settled tx.id combined.value w₀ (World.effect st env seen w) := by
  have hfills : st.changes ≠ some .fills := by
    intro hchanges
    cases st <;> simp only [settleWrites] at hst <;> cases hchanges
  refine ⟨(World.effect_fills hfills).trans h.fills, ?_, ?_⟩
  · intro k hk
    rcases World.transaction_effect_cases st env seen w k with hsame | ⟨p, rfl, hid, -, -⟩ |
      ⟨p, rfl, -, -, -⟩ | ⟨p, rfl, -, -, -, -⟩
    · exact hsame.trans (h.others k hk)
    · exact absurd (hid.symm.trans hst.1) hk
    · exact hst.elim
    · exact hst.elim
  · rcases World.transaction_effect_cases st env seen w tx.id with hsame | ⟨p, rfl, -, -, hget⟩ |
      ⟨p, rfl, -, -, -⟩ | ⟨p, rfl, -, -, -, -⟩
    · rw [hsame]
      exact h.own
    · obtain ⟨-, hfact, hstatus⟩ := hst
      cases hrow : w.transactions.get tx.id with
      | none =>
        left
        rw [hget, hrow]
        rcases h.own with hown | ⟨r, hr, -⟩
        · exact hrow.symm.trans hown
        · rw [hrow] at hr
          cases hr
      | some r =>
        refine .inr ⟨World.updatedTransaction p r, by rw [hget, hrow]; rfl, ?_, hfact⟩
        show p.status ≠ .pending
        rcases hstatus with hs | hs
        · simp [hs]
        · simp [hs]
    · exact hst.elim
    · exact hst.elim

theorem settled_alone {α : Type} {combined : Money} {w₀ : World} {p : Call α}
    (hp : OnlyWrites (settleWrites tx combined) p) (n : ℕ)
    (h : Settled tx.id combined.value w₀ w) :
    Settled tx.id combined.value w₀ (engine.alone envs p n ⟨w, .idle⟩).2.2.world :=
  (hp.alone_keeps (fun _ _ _ _ _ hst hw => hw.effect hst _ _)
    (fun _ st w hst hw => by
      refine ⟨?_, ?_, ?_⟩
      · rw [lasting_fills]
        exact hw.fills
      · rw [lasting_transactions]
        exact hw.others
      · rw [lasting_transactions]
        exact hw.own) envs (Engine.within_idle h)).world

/-- After the fill nothing but the payment and the fact amount is written. -/
theorem settled_after_fill {α β : Type} {combined : Money} {input : Input} {p : Call α}
    {f : α → Call β} (hf : ∀ a, OnlyWrites (settleWrites tx combined) (f a)) {n : ℕ}
    {now : Int} (hp : (engine.alone envs p n ⟨w, .idle⟩).2.2 =
      ⟨{ w with fills := w.fills.insert (World.newFill (fillParams tx input now)) }, .idle⟩) :
    Settled tx.id combined.value
      { w with fills := w.fills.insert (World.newFill (fillParams tx input now)) }
      (engine.alone envs (p.bind f) n ⟨w, .idle⟩).2.2.world := by
  have hstart : Settled tx.id combined.value
      { w with fills := w.fills.insert (World.newFill (fillParams tx input now)) }
      { w with fills := w.fills.insert (World.newFill (fillParams tx input now)) } :=
    ⟨rfl, fun _ _ => rfl, .inl rfl⟩
  rw [Engine.alone_bind]
  rcases hrun : engine.alone envs p n ⟨w, .idle⟩ with ⟨res, m, v⟩
  rw [hrun] at hp
  obtain rfl : v = _ := hp
  cases res with
  | error e => exact hstart
  | ok a => exact settled_alone (hf a) m hstart

theorem recordPartialFill_rest (combined : Money) :
    OnlyWrites (settleWrites tx combined) (do
      let _ ← (Service.markPartial tx.merchantID tx.entityID).mapError
        (Err.wrap "unable to mark payment partial")
      pure ()) :=
  .bind (.mapError _ (Service.markPartial_writes fun _ _ _ _ => trivial)) fun _ => .ret _

theorem promoteFromPartial_rest (combined : Money) (input : Input)
    (determined : Transaction.Status × MetaData) :
    OnlyWrites (settleWrites tx combined) (do
      let received ← (s.receive tx.merchantID tx.id {
        status := determined.1
        senderAddress := input.senderAddress
        transactionHash := input.transactionID
        factAmount := combined
        metaData := determined.2 }).mapError (Err.wrap "unable to update transaction")
      if received.status = .inProgress then do
        let pt ← (Service.getPaymentByID received.merchantID received.entityID).mapError
          (Err.wrap "unable to get payment")
        let _ ← (Service.updatePayment received.merchantID pt.id .inProgress).mapError
          (Err.wrap "unable to update payment")
        pure ()
      else pure ()) := by
  refine .bind (.mapError _ (Service.receive_writes fun hs now md => ⟨rfl, rfl, hs⟩))
    fun received => ?_
  split
  · refine .bind (.mapError _ Service.getPaymentByID_writes) fun pt => ?_
    exact .bind (.mapError _ (Service.updatePayment_writes fun _ _ _ _ => trivial)) fun _ => .ret _
  · exact .ret _

theorem alone_cumulativeAmount {input : Input} (hvalid : input.validate = .ok ())
    (hcompatible : tx.amount.compatibleTo input.amount = true) (n : ℕ)
    (hdone : (envs n).fate = .done) (x : Session Stmt Env World LockKey) :
    engine.alone envs (Service.cumulativeAmount tx input) n ⟨w, x⟩ =
      (.ok (Money.crypto tx.amount.ticker
        (w.sumConfirmedFillsForTx tx.id + input.amount.value) tx.amount.decimals), n + 1,
        ⟨w, x⟩) := by
  have hreply : engine.reply (.sumConfirmedFillsForTx tx.id) (envs n) w =
      .ok (w.sumConfirmedFillsForTx tx.id) := by
    show answered (envs n).fate Err.database _ = _
    rw [answered, if_pos hdone]
  have hadd : (Service.numericToCrypto (w.sumConfirmedFillsForTx tx.id) tx.amount).add
    input.amount =
      .ok (Money.crypto tx.amount.ticker
        (w.sumConfirmedFillsForTx tx.id + input.amount.value) tx.amount.decimals) := by
    have hsame : (Service.numericToCrypto (w.sumConfirmedFillsForTx tx.id)
        tx.amount).compatibleTo input.amount = true := hcompatible
    rw [Money.add, if_pos hsame]
    rfl
  simp only [Service.cumulativeAmount, Service.sumConfirmedFills, hvalid, Prog.bind_eq, succeed,
    Engine.alone_bind, Engine.alone_ofExcept, Engine.alone_mapError,
    alone_read (.sumConfirmedFillsForTx tx.id) rfl, hreply, wrapErr_ok, Prog.pure_eq,
    Engine.alone_ret, Except.mapError, hadd]

/-- A callback that gets as far as its fill: the fill is there, the row is as
before or promoted with the sum. -/
theorem processInbound_records {input : Input}
    (hticker : tx.amount.ticker = tx.currency.ticker)
    (hdecimals : tx.amount.decimals = tx.currency.decimals)
    (hcompatible : tx.amount.compatibleTo input.amount = true) (hvalid : input.validate = .ok ())
    (hfits : ∀ now, w.fillFits (fillParams tx input now) = true)
    (hfree : w.fills.get ⟨tx.id, input.networkID, input.transactionID, 0⟩ = none)
    (hrecorded : Recorded envs tx.amount.value
      (w.sumConfirmedFillsForTx tx.id + input.amount.value)) :
    ∃ now, Settled tx.id (w.sumConfirmedFillsForTx tx.id + input.amount.value)
      { w with fills := w.fills.insert (World.newFill (fillParams tx input now)) }
      (engine.alone envs (s.processInboundTransaction tx input) 2 ⟨w, .idle⟩).2.2.world := by
  let combined := Money.crypto tx.amount.ticker
    (w.sumConfirmedFillsForTx tx.id + input.amount.value) tx.amount.decimals
  obtain ⟨hdone, hrest⟩ : Recorded envs tx.amount.value combined.value := hrecorded
  have hsame : combined.compatibleTo tx.amount = true := by
    simp [combined, Money.compatibleTo, Money.crypto]
  rw [Service.processInboundTransaction_eq, Engine.alone_bind,
    alone_cumulativeAmount hvalid hcompatible 2 hdone .idle]
  simp only [Engine.alone_bind, Engine.alone_mapError]
  rw [alone_crossesExpected envs w hticker hdecimals hsame 3 .idle]
  have hinsert : ∀ n, (envs (n + 1)).fate ≠ .refused →
      (engine.alone envs (Service.recordInput tx input) n ⟨w, .idle⟩).2.2 =
        ⟨{ w with fills := w.fills.insert (World.newFill (fillParams tx input
          (envs n).clock)) }, .idle⟩ :=
    fun n hn => alone_recordInput hcompatible n (hfits _) hfree hn .idle
  have hpromote : ∀ n, (tx.amount.value ≤ combined.value ∨ (envs n).fate = .done) →
      (envs ((if tx.amount.value ≤ combined.value then n else n + 1) + 1)).fate ≠ .refused →
      ∃ now, Settled tx.id combined.value
        { w with fills := w.fills.insert (World.newFill (fillParams tx input now)) }
        (engine.alone envs (s.promoteFromPartial tx input combined) n ⟨w, .idle⟩).2.2.world := by
    intro n hasked hlanded
    obtain ⟨determined, hdetermined⟩ :=
      alone_determine (w := w) hticker hdecimals hsame n .idle hasked
    have hfill := hinsert _ hlanded
    refine ⟨(envs (if tx.amount.value ≤ combined.value then n else n + 1)).clock, ?_⟩
    unfold Service.promoteFromPartial
    rw [Prog.bind_eq, Engine.alone_bind, hdetermined]
    refine settled_after_fill (fun _ => promoteFromPartial_rest combined input determined) ?_
    rw [Engine.alone_mapError]
    exact hfill
  by_cases hreached : tx.amount.value ≤ combined.value
  · have hlanded : (envs 4).fate ≠ .refused := by
      rw [if_pos hreached] at hrest
      exact hrest
    rw [if_pos hreached]
    exact hpromote 3 (.inl hreached) (by rw [if_pos hreached]; exact hlanded)
  · rw [if_neg hreached] at hrest
    obtain ⟨hasked, hrest⟩ := hrest
    rw [if_neg hreached, if_pos hasked]
    by_cases hnear : tx.amount.value ≤ combined.value + (envs 3).number
    · obtain ⟨hagain, hlanded⟩ : (envs 4).fate = .done ∧ (envs 6).fate ≠ .refused := by
        rw [if_pos hnear] at hrest
        exact hrest
      simp only [Except.mapError, hnear, decide_true, if_true]
      exact hpromote 4 (.inr hagain) (by rw [if_neg hreached]; exact hlanded)
    · have hlanded : (envs 5).fate ≠ .refused := by
        rw [if_neg hnear] at hrest
        exact hrest
      simp only [Except.mapError, hnear, decide_false, Bool.false_eq_true, if_false]
      unfold Service.recordPartialFill
      refine ⟨(envs 4).clock, settled_after_fill (fun _ => recordPartialFill_rest combined) ?_⟩
      rw [Engine.alone_mapError]
      exact hinsert 4 hlanded

/-- The two reads of the deduplication; a failed one counts as nothing found. -/
theorem alone_dedupOnDetected_eq (s : Service) (d : DetectedTransfer) (envs : ℕ → Env) (w : World) :
    engine.alone envs (s.dedupOnDetected d) 0 ⟨w, .idle⟩ =
      if (s.toTransaction (engine.reply (.getTransactionByHashNetworkAndRecipient
          (stringToNullable d.txHash) (stringToNullable d.networkID) d.recipient) (envs 0)
          w)).isOk = true then (.ok (), 1, ⟨w, .idle⟩)
      else if (envs 1).fate = .done ∧
          w.fillExistsByHashAndRecipient d.networkID d.txHash d.recipient then
        (.ok (), 2, ⟨w, .idle⟩)
      else engine.alone envs (s.onDetected d) 2 ⟨w, .idle⟩ := by
  have hfirst : engine.alone envs (s.getByHashAndRecipient d.networkID d.txHash d.recipient) 0
      (⟨w, .idle⟩ : View Stmt Env World LockKey) = (s.toTransaction (engine.reply
        (.getTransactionByHashNetworkAndRecipient (stringToNullable d.txHash)
          (stringToNullable d.networkID) d.recipient) (envs 0) w), 1, ⟨w, .idle⟩) :=
    alone_read_then (.getTransactionByHashNetworkAndRecipient (stringToNullable d.txHash)
      (stringToNullable d.networkID) d.recipient) rfl s.toTransaction envs 0 w .idle
  have hsecond : engine.alone envs (Service.fillExistsByHashAndRecipient d.networkID d.txHash
      d.recipient) 1 ⟨w, .idle⟩ =
        (answered (envs 1).fate .database (.ok (w.fillExistsByHashAndRecipient d.networkID d.txHash
          d.recipient)), 2, ⟨w, .idle⟩) :=
    alone_read_then (.fillExistsByHashAndRecipient d.networkID d.txHash d.recipient) rfl id envs 1 w
      .idle
  unfold Service.dedupOnDetected
  simp only [Prog.bind_eq, Engine.alone_bind, Engine.alone_attempt, hfirst]
  cases s.toTransaction (engine.reply (.getTransactionByHashNetworkAndRecipient
      (stringToNullable d.txHash) (stringToNullable d.networkID) d.recipient) (envs 0) w) with
  | ok tx => rfl
  | error e =>
    simp only [Engine.alone_bind, Engine.alone_attempt, hsecond, answered]
    by_cases hdone : (envs 1).fate = .done
    · by_cases hfill : w.fillExistsByHashAndRecipient d.networkID d.txHash d.recipient = true
      · simp only [hdone, hfill, and_self, if_true]
        rfl
      · simp [hdone, hfill, Except.isOk, Except.toBool]
    · simp [hdone, Except.isOk, Except.toBool]

/-- No transaction of that hash to be found. -/
theorem alone_dedupOnDetected {d : DetectedTransfer}
    (hnone : w.getTransactionByHashNetworkAndRecipient (stringToNullable d.txHash)
      (stringToNullable d.networkID) d.recipient = none) :
    engine.alone envs (s.dedupOnDetected d) 0 ⟨w, .idle⟩ =
      if (envs 1).fate = .done ∧
        w.fillExistsByHashAndRecipient d.networkID d.txHash d.recipient then
        (.ok (), 2, ⟨w, .idle⟩)
      else engine.alone envs (s.onDetected d) 2 ⟨w, .idle⟩ := by
  have hreply : ∃ e, engine.reply (.getTransactionByHashNetworkAndRecipient
      (stringToNullable d.txHash) (stringToNullable d.networkID) d.recipient) (envs 0) w =
        .error e := by
    show ∃ e, answered (envs 0).fate .database (noRows _) = .error e
    rw [hnone, answered]
    split
    · exact ⟨_, rfl⟩
    · exact ⟨_, rfl⟩
  obtain ⟨e, he⟩ := hreply
  have hfirst : ¬ (s.toTransaction (engine.reply (.getTransactionByHashNetworkAndRecipient
      (stringToNullable d.txHash) (stringToNullable d.networkID) d.recipient) (envs 0)
      w)).isOk = true := by
    rw [he]
    exact Bool.false_ne_true
  rw [alone_dedupOnDetected_eq, if_neg hfirst]

end Callback

/-- The fills of an invoice that is still open are the deposits in `old`: under
their hashes, the newest among them, and with their sum. -/
structure OpenLedger (row : TransactionRow) (networkID : String) (w : World) (old : List Deposit) :
    Prop where
  stored : w.transactions.get row.id = some row
  fills : ∀ f ∈ w.fillsOf row.id, f.key.networkID = networkID ∧ f.status = .confirmed ∧
    f.key.transactionHash ∈ old.map Deposit.hash
  newest : ∀ d ∈ old.head?, ∃ f ∈ w.fillsOf row.id, f.key.transactionHash = d.hash
  sum : w.sumConfirmedFillsForTx row.id = Deposit.balance old

def Promoted (row : TransactionRow) (w : World) (fact : Int) : Prop :=
  ∃ r, w.transactions.get row.id = some r ∧ r.status ≠ .pending ∧ r.factAmount = some fact

/-- The invoice and its fills are as before. -/
structure Untouched (row : TransactionRow) (w w' : World) : Prop where
  stored : w'.transactions.get row.id = w.transactions.get row.id
  fills : w'.fillsOf row.id = w.fillsOf row.id
  sole : SoleInvoice row w → SoleInvoice row w'

section Ledger

variable {s : Service} {row : TransactionRow} {tx : Transaction} {envs : ℕ → Env} {w w' : World}
  {old fresh : List Deposit}

theorem Untouched.refl (row : TransactionRow) (w : World) : Untouched row w w := ⟨rfl, rfl, id⟩

theorem Untouched.trans {w'' : World} (h : Untouched row w w') (h' : Untouched row w' w'') :
    Untouched row w w'' :=
  ⟨h'.stored.trans h.stored, h'.fills.trans h.fills, fun hw => h'.sole (h.sole hw)⟩

theorem Untouched.openLedger {networkID : String} (h : Untouched row w w')
    (hopen : OpenLedger row networkID w old) : OpenLedger row networkID w' old := by
  refine ⟨h.stored.trans hopen.stored, ?_, ?_, ?_⟩
  · rw [h.fills]
    exact hopen.fills
  · rw [h.fills]
    exact hopen.newest
  · rw [World.sumConfirmedFillsForTx, h.fills]
    exact hopen.sum

theorem Untouched.promoted {fact : Int} (h : Untouched row w w') (hp : Promoted row w fact) :
    Promoted row w' fact := by
  obtain ⟨r, hr, hrest⟩ := hp
  exact ⟨r, h.stored.trans hr, hrest⟩

/-- A fill of another invoice. -/
theorem fillsOf_effect {p : InsertTransactionFillParams} (env : Env) (seen : World) {id : Int}
    (h : p.key.transactionID ≠ id) :
    (World.effect (.insertTransactionFill p) env seen w).fillsOf id = w.fillsOf id := by
  simp only [World.effect]
  split
  · cases hget : w.fills.get p.key with
    | none =>
      simp only [World.fillsOf, Table.rows_insert]
      split
      · rfl
      · simp [World.newFill, h]
    | some r =>
      simp only [World.fillsOf, Table.rows_modify, List.filter_map]
      have hkey : (fun f : FillRow => decide (f.key.transactionID = id)) ∘ (fun f : FillRow =>
          if f.key = p.key then World.conflictingFill p env.clock f else f) =
            fun f => decide (f.key.transactionID = id) := by
        funext f
        by_cases hf : f.key = p.key
        · simp [hf, World.conflictingFill_key]
        · simp [hf]
      rw [hkey]
      refine (List.map_congr_left ?_).trans (List.map_id _)
      intro f hf
      have hid : f.key.transactionID = id := by simpa using (List.mem_filter.mp hf).2
      have hne : f.key ≠ p.key := by
        intro he
        exact h (he ▸ hid)
      simp [hne]
  · rfl

/-- A callback for another invoice leaves this one alone. -/
theorem untouched_inbound {p : Call Unit} {t : Transaction} {input : Input}
    (hp : OnlyWrites (Service.inboundWrites t input) p) (hid : t.id ≠ row.id) (envs : ℕ → Env)
    (w : World) : Untouched row w (worldAfter p envs w) := by
  refine (hp.alone_keeps (J := Untouched row w) (fun q st env seen w' hst hw' => hw'.trans ?_)
    (fun q st w' _ hw' => hw'.trans ?_) envs (Engine.within_idle (.refl row w))).world
  · refine ⟨?_, ?_, ?_⟩
    · rcases World.transaction_effect_cases st env seen w' row.id with hsame | ⟨q, rfl, hq, -, -⟩ |
        ⟨q, rfl, -⟩ | ⟨q, rfl, -⟩
      · exact hsame
      · exact absurd (hst.2.1.symm.trans hq) hid
      · exact hst.elim
      · exact hst.elim
    · by_cases hfills : st.changes = some .fills
      · obtain ⟨q', rfl⟩ : ∃ q', st = .insertTransactionFill q' := by
          cases st <;> first | exact ⟨_, rfl⟩ | exact hst.elim | cases hfills
        exact fillsOf_effect env seen (by rw [hst.2.1]; exact hid)
      · rw [World.fillsOf, World.effect_fills hfills, World.fillsOf]
    · intro hsole k r hr hat
      rcases World.transaction_effect_cases st env seen w' k with hsame | ⟨q, rfl, hq, -, hget⟩ |
        ⟨q, rfl, -⟩ | ⟨q, rfl, -⟩
      · exact hsole k r (hsame ▸ hr) hat
      · rw [hget] at hr
        obtain ⟨r₀, hr₀, rfl⟩ := Option.map_eq_some_iff.mp hr
        exact hsole k r₀ hr₀ hat
      · exact hst.elim
      · exact hst.elim
  · refine ⟨?_, ?_, ?_⟩
    · rw [lasting_transactions]
    · rw [World.fillsOf, lasting_fills, World.fillsOf]
    · intro hsole k r hr
      rw [lasting_transactions] at hr
      exact hsole k r hr

theorem BtcInvoice.reads (h : BtcInvoice s row tx) :
    tx.id = row.id ∧ tx.recipientAddress = row.recipientAddress ∧ tx.isTest = row.isTest ∧
      tx.amount = Money.crypto tx.currency.ticker row.amount tx.currency.decimals := by
  obtain ⟨currency, fee, -, -, rfl⟩ := s.entryToTransaction_eq_ok h.resolved
  refine ⟨rfl, rfl, rfl, ?_⟩
  show Money.crypto row.currency row.amount row.decimals = _
  rw [h.amounts.1, h.amounts.2]

/-- An open row has no hash yet, so it is not found by one. -/
theorem not_found_by_hash (hi : Books.isOpen row = true)
    (hstored : w.transactions.get row.id = some row) (hsole : SoleInvoice row w)
    (hash networkID : Option String) :
    w.getTransactionByHashNetworkAndRecipient hash networkID row.recipientAddress = none := by
  unfold World.getTransactionByHashNetworkAndRecipient
  rw [List.find?_eq_none]
  intro r hr hmatch
  simp only [Bool.and_eq_true, decide_eq_true_eq] at hmatch
  obtain ⟨⟨⟨⟨hsome, hhash⟩, -⟩, -⟩, hat⟩ := hmatch
  have hid : r.id = row.id := hsole r.id r (Table.get_of_mem hr) hat
  have hget := Table.get_of_mem hr
  rw [hid, hstored] at hget
  obtain rfl : row = r := Option.some.inj hget
  have hnone : row.transactionHash = none := by
    simp only [Books.isOpen, Bool.and_eq_true, Option.isNone_iff_eq_none] at hi
    exact hi.2
  rw [← hhash, hnone] at hsome
  cases hsome

/-- A fill at the address is a fill of the invoice. -/
theorem fillExists_iff (hstored : w.transactions.get row.id = some row)
    (hsole : SoleInvoice row w) (networkID hash : String) :
    w.fillExistsByHashAndRecipient networkID hash row.recipientAddress = true ↔
      ∃ f ∈ w.fillsOf row.id, f.key.networkID = networkID ∧ f.key.transactionHash = hash := by
  simp only [World.fillExistsByHashAndRecipient, World.fillsOf, List.any_eq_true, Bool.and_eq_true,
    decide_eq_true_eq, List.mem_filter]
  constructor
  · rintro ⟨f, hf, ⟨hnetwork, hhash⟩, hat⟩
    cases hget : w.transactions.get f.key.transactionID with
    | none =>
      rw [hget] at hat
      cases hat
    | some r =>
      rw [hget] at hat
      exact ⟨f, ⟨hf, hsole _ r hget (by simpa using hat)⟩, hnetwork, hhash⟩
  · rintro ⟨f, ⟨hf, hid⟩, hnetwork, hhash⟩
    refine ⟨f, hf, ⟨hnetwork, hhash⟩, ?_⟩
    rw [hid, hstored]
    simp

/-- A new fill next to the others. -/
theorem fillsOf_settled {fact : Int} {p : InsertTransactionFillParams}
    (hfree : w.fills.get p.key = none)
    (h : Settled p.key.transactionID fact { w with fills := w.fills.insert (World.newFill p) } w') :
    w'.fillsOf p.key.transactionID = w.fillsOf p.key.transactionID ++ [World.newFill p] := by
  have hrows : w'.fills.rows = w.fills.rows ++ [World.newFill p] := by
    rw [h.fills]
    exact (Table.rows_insert _ _).trans (if_neg (Table.get_eq_none_iff.mp hfree))
  rw [World.fillsOf, hrows, List.filter_append]
  simp [World.fillsOf, World.newFill]

theorem Settled.soleInvoice {fact : Int} {w₀ : World} (h : Settled row.id fact w₀ w)
    (hsole : SoleInvoice row w₀) : SoleInvoice row w := by
  intro k r hr hat
  by_contra hne
  rw [h.others k hne] at hr
  exact hne (hsole k r hr hat)

/-- The callback for deposits that are not recorded yet, under the hash of the
latest of them. -/
theorem own_callback (hi : BtcInvoice s row tx) (hopen : OpenLedger row tx.networkID w old)
    (hsole : SoleInvoice row w) {d : Deposit} (hnamed : d.hash ≠ "")
    (hnew : d.hash ∉ old.map Deposit.hash) {sender : String}
    (hrecorded : Recorded envs tx.amount.value
      (Deposit.balance old + Deposit.balance (d :: fresh)))
    (hhash : varchar 128 d.hash = true) (hsender : varchar 128 (Btc.senderOr sender) = true)
    (hw' : (engine.alone envs (s.dedupOnDetected (Btc.grownBy row.isTest tx row.recipientAddress
      d.hash sender (Deposit.balance (d :: fresh)))) 0 ⟨w, .idle⟩).2.2.world = w') :
    SoleInvoice row w' ∧ (OpenLedger row tx.networkID w' (d :: fresh ++ old) ∨
      Promoted row w' (Deposit.balance (d :: fresh ++ old))) := by
  obtain ⟨hid, haddr, htest, hamount⟩ := hi.reads
  have hrecipient : (Btc.grownBy row.isTest tx row.recipientAddress d.hash sender
      (Deposit.balance (d :: fresh))).recipient = row.recipientAddress := if_neg hi.address
  have hnot : ¬ w.fillExistsByHashAndRecipient tx.networkID d.hash row.recipientAddress = true := by
    rw [fillExists_iff hopen.stored hsole]
    rintro ⟨f, hf, -, hfhash⟩
    exact hnew (hfhash ▸ (hopen.fills f hf).2.2)
  let input : Input :=
    { currency := tx.currency
      amount := Money.crypto tx.currency.ticker (Deposit.balance (d :: fresh)) tx.currency.decimals
      senderAddress := Btc.senderOr sender
      transactionID := d.hash
      networkID := tx.networkID }
  have hcall : w' = (engine.alone envs (s.processInboundTransaction tx input) 2
      ⟨w, .idle⟩).2.2.world := by
    rw [← hw', alone_dedupOnDetected (by
      rw [hrecipient]; exact not_found_by_hash hi.isOpen hopen.stored hsole _ _), hrecipient]
    rw [if_neg (fun h => hnot (by rw [Transaction.networkID, htest]; exact h.2))]
    simp only [input, Transaction.networkID, htest]
    rfl
  have hfree : w.fills.get ⟨tx.id, tx.networkID, d.hash, 0⟩ = none := by
    cases hget : w.fills.get ⟨tx.id, tx.networkID, d.hash, 0⟩ with
    | none => rfl
    | some f =>
      obtain ⟨hf, hkey⟩ := Table.get_eq_some hget
      have hown : f ∈ w.fillsOf row.id := List.mem_filter.mpr ⟨hf, by simp [hkey, hid]⟩
      have hknown := (hopen.fills f hown).2.2
      rw [hkey] at hknown
      exact absurd hknown hnew
  have hfits : ∀ now, w.fillFits (fillParams tx input now) = true := by
    intro now
    have hstored : (w.transactions.get tx.id).isSome = true := by
      rw [hid, hopen.stored]
      rfl
    have hnull : varcharNull 128 (stringToNullable (Btc.senderOr sender)) = true := by
      unfold stringToNullable
      split
      · rfl
      · exact hsender
    simp [World.fillFits, fillParams, input, hstored, hi.named.2.2, hhash, hnull]
  have hvalid : input.validate = .ok () := by
    have hsender : Btc.senderOr sender ≠ "" := by
      unfold Btc.senderOr
      split
      · decide
      · assumption
    simp [Input.validate, input, Money.crypto, hi.named.1, hi.named.2.1, hsender, hnamed]
  have hcompatible : tx.amount.compatibleTo input.amount = true := by
    rw [hamount]
    simp [Money.compatibleTo, Money.crypto, input]
  have hticker : tx.amount.ticker = tx.currency.ticker := by
    rw [hamount]
    rfl
  have hdecimals : tx.amount.decimals = tx.currency.decimals := by
    rw [hamount]
    rfl
  have hsum : w.sumConfirmedFillsForTx tx.id + input.amount.value =
      Deposit.balance (d :: fresh ++ old) := by
    rw [hid, hopen.sum, Deposit.balance_append, Int.add_comm]
    rfl
  obtain ⟨now, hsettled⟩ := processInbound_records (s := s) hticker hdecimals hcompatible hvalid
    hfits hfree (by rw [hsum, Deposit.balance_append, Int.add_comm]; exact hrecorded)
  rw [hsum, ← hcall] at hsettled
  have hfills := fillsOf_settled (p := fillParams tx input now) hfree hsettled
  have hkey : (fillParams tx input now).key.transactionID = row.id := hid
  rw [hkey] at hfills
  rw [hid] at hsettled
  refine ⟨hsettled.soleInvoice hsole, ?_⟩
  rcases hsettled.own with hsame | ⟨r, hr⟩
  · left
    refine ⟨hsame.trans hopen.stored, ?_, ?_, ?_⟩
    · intro f hf
      rw [hfills, List.mem_append, List.mem_singleton] at hf
      rcases hf with hf | rfl
      · obtain ⟨hnetwork, hstatus, hknown⟩ := hopen.fills f hf
        exact ⟨hnetwork, hstatus, by simp [hknown]⟩
      · exact ⟨rfl, rfl, by simp [World.newFill, fillParams, input]⟩
    · intro d' hd'
      obtain rfl : d = d' := by simpa using hd'
      exact ⟨_, by rw [hfills]; exact List.mem_append_right _ (List.mem_singleton_self _), rfl⟩
    · rw [World.sumConfirmedFillsForTx, hfills, List.filter_append, List.map_append,
        List.sum_append, ← World.sumConfirmedFillsForTx, ← hsum, hid]
      simp [World.newFill, fillParams]
  · exact .inr ⟨r, hr⟩

end Ledger

section Poll

variable {s : Service} {row : TransactionRow} {tx : Transaction} {isTest : Bool}
  {provider : Btc.Provider} {answers : DetectedTransfer → ℕ → Env} {listing : Env}

/-- Another invoice, at another address. -/
def Foreign (row : TransactionRow) (t : Transaction) : Prop :=
  t.id ≠ row.id ∧ t.recipientAddress ≠ row.recipientAddress

/-- What a poll of other invoices leaves of this one. -/
structure PassedBy (row : TransactionRow) (isTest : Bool) (x y : Btc.BalanceScan World) : Prop where
  balance : y.lastBTCBalance (Btc.cacheKey row.recipientAddress isTest) =
    x.lastBTCBalance (Btc.cacheKey row.recipientAddress isTest)
  untouched : Untouched row x.state y.state
  failed : y.failedIDs = [] → x.failedIDs = []

theorem PassedBy.trans {x y z : Btc.BalanceScan World} (h : PassedBy row isTest x y)
    (h' : PassedBy row isTest y z) : PassedBy row isTest x z :=
  ⟨h'.balance.trans h.balance, h.untouched.trans h'.untouched, fun hz => h.failed (h'.failed hz)⟩

theorem passedBy_pollAddress {t : Transaction} (h : Foreign row t) (x : Btc.BalanceScan World) :
    PassedBy row isTest x (Btc.pollAddress isTest provider (s.onDetectedAlone answers) x t) := by
  have hself : PassedBy row isTest x x := ⟨rfl, .refl row _, id⟩
  by_cases haddr : t.recipientAddress = ""
  · simp only [Btc.pollAddress, Evm.getRecipientAddress, if_pos haddr]
    exact hself
  · have hkey : Btc.cacheKey row.recipientAddress isTest ≠
        Btc.cacheKey t.recipientAddress isTest :=
      fun he => h.2 (Btc.cacheKey_inj he).symm
    have hstore : ∀ y b, PassedBy row isTest y
        (y.store (Btc.cacheKey t.recipientAddress isTest) b) :=
      fun y b => ⟨if_neg hkey, .refl row _, id⟩
    cases hinfo : provider.addressInfo t.recipientAddress with
    | error e =>
      rw [Btc.pollAddress_unreachable haddr hinfo]
      exact ⟨rfl, .refl row _, fun hfail => by simp [Btc.BalanceScan.fail] at hfail⟩
    | ok current =>
      rw [Btc.pollAddress_answered haddr hinfo]
      split
      · exact hstore _ _
      · split
        · exact (hstore _ _).trans (hstore _ _)
        · refine (hstore x current).trans ?_
          simp only [Btc.BalanceScan.handOn]
          split
          · exact ⟨rfl, untouched_inbound (Service.dedupOnDetected_writes_invoice rfl) h.1 _ _, id⟩
          · exact ⟨rfl, untouched_inbound (Service.dedupOnDetected_writes_invoice rfl) h.1 _ _,
              fun hfail => by simp at hfail⟩

theorem passedBy_foldl {txs : List Transaction} (h : ∀ t ∈ txs, Foreign row t)
    (x : Btc.BalanceScan World) :
    PassedBy row isTest x
      (txs.foldl (Btc.pollAddress isTest provider (s.onDetectedAlone answers)) x) := by
  induction txs generalizing x with
  | nil => exact ⟨rfl, .refl row _, id⟩
  | cons t txs ih =>
    exact (passedBy_pollAddress (h t List.mem_cons_self) x).trans
      (ih (fun t' ht' => h t' (List.mem_cons_of_mem t ht')) _)

/-- The ledger and the remembered balance: the deposits in `fresh` are neither
credited nor seen, or a restart has forgotten a balance that is all credited. -/
def Agrees (row : TransactionRow) (networkID : String) (w : World) (deposits : List Deposit)
    (seen : Int) : Prop :=
  (∃ fresh old, deposits = fresh ++ old ∧ OpenLedger row networkID w old ∧
    (seen = Deposit.balance old ∨ seen = 0 ∧ fresh = [])) ∨
  Promoted row w (Deposit.balance deposits)

theorem Untouched.agrees {networkID : String} {w w' : World} {deposits : List Deposit} {seen : Int}
    (h : Untouched row w w') (hagrees : Agrees row networkID w deposits seen) :
    Agrees row networkID w' deposits seen := by
  rcases hagrees with ⟨fresh, old, hsplit, hopen, hseen⟩ | hpromoted
  · exact .inl ⟨fresh, old, hsplit, h.openLedger hopen, hseen⟩
  · exact .inr (h.promoted hpromoted)

theorem Untouched.credited {w w' : World} (h : Untouched row w w') :
    w'.credited row.id = w.credited row.id := by
  rw [World.credited, World.credited, World.sumConfirmedFillsForTx, World.sumConfirmedFillsForTx,
    h.stored, h.fills]

theorem OpenLedger.credited {networkID : String} {w : World} {old : List Deposit}
    (h : OpenLedger row networkID w old) (hunpaid : row.factAmount = none) :
    w.credited row.id = Deposit.balance old := by
  rw [World.credited, h.stored, Option.bind_some, hunpaid]
  exact h.sum

theorem Promoted.credited {w : World} {fact : Int} (h : Promoted row w fact) :
    w.credited row.id = fact := by
  obtain ⟨r, hr, -, hfact⟩ := h
  rw [World.credited, hr, Option.bind_some, hfact]

section Booked

variable {x : BtcWatch} {old more : List Deposit} {d : Deposit}

/-- With nothing new at the address, the latest deposit is a fill already. -/
theorem Booked.recognised (h : Booked row tx provider answers x)
    (hopen : OpenLedger row tx.networkID x.world x.deposits) (hsole : SoleInvoice row x.world)
    (hnew : d ∈ x.deposits.head?)
    (hhash : (provider.transfer row.recipientAddress).1 = d.hash) :
    (answers (x.grownBy row tx provider) 1).fate = .done := by
  obtain ⟨f, hf, hfhash⟩ := hopen.newest d hnew
  have hfound : x.world.fillExistsByHashAndRecipient tx.networkID
      (x.grownBy row tx provider).txHash row.recipientAddress = true :=
    (fillExists_iff hopen.stored hsole _ _).mpr
      ⟨f, hf, (hopen.fills f hf).1, hfhash.trans hhash.symm⟩
  rw [Booked] at h
  simp only [hfound, if_true] at h
  exact h

/-- Under a new hash nothing is found, and the fill is written. -/
theorem Booked.recorded (h : Booked row tx provider answers x) (hi : BtcInvoice s row tx)
    (hopen : OpenLedger row tx.networkID x.world old) (hsole : SoleInvoice row x.world)
    (hsplit : x.deposits = d :: more ++ old) (hseen : x.seen row = Deposit.balance old)
    (hnew : d.hash ∉ old.map Deposit.hash)
    (hhash : (provider.transfer row.recipientAddress).1 = d.hash) :
    Recorded (answers (x.grownBy row tx provider)) tx.amount.value
        (Deposit.balance old + Deposit.balance (d :: more)) ∧
      varchar 128 d.hash = true ∧
      varchar 128 (Btc.senderOr (provider.transfer row.recipientAddress).2) = true := by
  have hnot : x.world.fillExistsByHashAndRecipient tx.networkID
      (x.grownBy row tx provider).txHash row.recipientAddress = false := by
    rw [Bool.eq_false_iff]
    intro hfound
    obtain ⟨f, hf, -, hfhash⟩ := (fillExists_iff hopen.stored hsole _ _).mp hfound
    have hknown := (hopen.fills f hf).2.2
    rw [hfhash] at hknown
    exact hnew (hhash ▸ hknown)
  have hdelta : Deposit.balance x.deposits - x.seen row = Deposit.balance (d :: more) := by
    rw [hsplit, hseen, Deposit.balance_append]
    omega
  rw [Booked] at h
  simp only [hnot, Bool.false_eq_true, if_false] at h
  rw [hdelta, BtcWatch.credited, hopen.credited hi.unpaid] at h
  refine ⟨h.1, ?_, h.2.2⟩
  rw [← hhash]
  exact h.2.1

end Booked

/-- What is known of the deposits: no two have the same hash, none is of
nothing. -/
def WellFormed (deposits : List Deposit) : Prop :=
  (∀ d ∈ deposits, 0 < d.amount ∧ d.hash ≠ "") ∧ (deposits.map Deposit.hash).Nodup

/-- What holds of the scan once the invoice was polled. -/
structure PolledOwn (row : TransactionRow) (networkID : String) (deposits : List Deposit)
    (y : Btc.BalanceScan World) : Prop where
  sole : SoleInvoice row y.state
  agrees : Agrees row networkID y.state deposits
    (y.lastBalance (Btc.cacheKey row.recipientAddress row.isTest))
  credited : y.failedIDs = [] → y.state.credited row.id = Deposit.balance deposits

theorem PolledOwn.passedBy {networkID : String} {deposits : List Deposit}
    {y z : Btc.BalanceScan World} (h : PolledOwn row networkID deposits y)
    (hz : PassedBy row row.isTest y z) : PolledOwn row networkID deposits z := by
  refine ⟨hz.untouched.sole h.sole, ?_, ?_⟩
  · rw [Btc.BalanceScan.lastBalance, hz.balance]
    exact hz.untouched.agrees h.agrees
  · intro hfailed
    rw [hz.untouched.credited]
    exact h.credited (hz.failed hfailed)

/-- A transfer whose fill is there is skipped. -/
theorem recognised_callback {x : BtcWatch} {w : World} {deposits : List Deposit} {d : Deposit}
    (hi : BtcInvoice s row tx) (hopen : OpenLedger row tx.networkID w deposits)
    (hsole : SoleInvoice row w) (hnew : d ∈ deposits.head?)
    (hhash : (provider.transfer row.recipientAddress).1 = d.hash)
    (hanswered : (answers (x.grownBy row tx provider) 1).fate = .done) :
    (s.onDetectedAlone answers (x.grownBy row tx provider) w).2 = w := by
  obtain ⟨-, -, htest, -⟩ := hi.reads
  have hrecipient : (x.grownBy row tx provider).recipient = row.recipientAddress :=
    if_neg hi.address
  have hnetwork : (x.grownBy row tx provider).networkID = tx.networkID := by
    rw [Transaction.networkID, htest]
    rfl
  obtain ⟨f, hf, hfhash⟩ := hopen.newest d hnew
  have hfound : w.fillExistsByHashAndRecipient tx.networkID (x.grownBy row tx provider).txHash
      row.recipientAddress = true :=
    (fillExists_iff hopen.stored hsole _ _).mpr
      ⟨f, hf, (hopen.fills f hf).1, hfhash.trans hhash.symm⟩
  show (engine.alone (answers (x.grownBy row tx provider))
    (s.dedupOnDetected (x.grownBy row tx provider)) 0 ⟨w, .idle⟩).2.2.world = w
  rw [alone_dedupOnDetected (by
    rw [hrecipient]; exact not_found_by_hash hi.isOpen hopen.stored hsole _ _), hrecipient,
    hnetwork, if_pos ⟨hanswered, hfound⟩]

section Own

variable {x : BtcWatch} {z : Btc.BalanceScan World} {old fresh : List Deposit}

/-- Everything is credited already; the balance may have been forgotten. -/
theorem polledOwn_of_credited (hi : BtcInvoice s row tx)
    (hmeets : PollMeets s row tx listing provider answers x) (hsole : SoleInvoice row z.state)
    (hopen : OpenLedger row tx.networkID z.state x.deposits)
    (hfirst : OpenLedger row tx.networkID x.world x.deposits) (hx : SoleInvoice row x.world)
    (hsame : z.lastBalance (Btc.cacheKey row.recipientAddress row.isTest) = x.seen row)
    (hseen : x.seen row = Deposit.balance x.deposits ∨ x.seen row = 0) :
    PolledOwn row tx.networkID x.deposits
      (Btc.pollAddress row.isTest provider (s.onDetectedAlone answers) z tx) := by
  obtain ⟨hid, haddr, htest, -⟩ := hi.reads
  have hne : tx.recipientAddress ≠ "" := by
    rw [haddr]
    exact hi.address
  have hcredited := hopen.credited hi.unpaid
  have hkept : ∀ b, (b = Deposit.balance x.deposits ∨ b = 0) →
      Agrees row tx.networkID z.state x.deposits b := by
    intro b hb
    refine .inl ⟨[], x.deposits, rfl, hopen, ?_⟩
    rcases hb with hb | hb
    · exact .inl hb
    · exact .inr ⟨hb, rfl⟩
  cases hinfo : provider.addressInfo tx.recipientAddress with
  | error e =>
    rw [Btc.pollAddress_unreachable hne hinfo]
    refine ⟨hsole, ?_, fun _ => hcredited⟩
    show Agrees row tx.networkID z.state x.deposits
      (z.lastBalance (Btc.cacheKey row.recipientAddress row.isTest))
    rw [hsame]
    exact hkept _ hseen
  | ok current =>
    obtain rfl : current = Deposit.balance x.deposits :=
      hmeets.truthful current (haddr ▸ hinfo)
    rw [Btc.pollAddress_answered hne hinfo]
    rw [haddr, hsame]
    split
    · refine ⟨hsole, ?_, fun _ => hcredited⟩
      rw [Btc.BalanceScan.lastBalance_store]
      exact hkept _ (.inl rfl)
    · rename_i hgrown
      split
      · refine ⟨hsole, ?_, fun _ => hcredited⟩
        rw [Btc.BalanceScan.lastBalance_store]
        exact hkept _ hseen
      · rename_i hhash
        rcases hmeets.history (by omega) with ⟨hempty, -⟩ | ⟨hlatest, hbooked⟩
        · exact absurd hempty hhash
        · -- the latest deposit is found among the fills, and nothing happens
          obtain ⟨d, hd⟩ : ∃ d, x.deposits.head? = some d := by
            cases hhead : x.deposits.head? with
            | none =>
              rw [hhead] at hlatest
              exact absurd hlatest hhash
            | some d => exact ⟨d, rfl⟩
          have hlatest : (provider.transfer row.recipientAddress).1 = d.hash := by
            rw [hlatest, hd]
            rfl
          have hanswered := hbooked.recognised hfirst hx hd hlatest
          have hkeep : (s.onDetectedAlone answers (x.grownBy row tx provider)
            z.state).2 = z.state :=
            recognised_callback hi hopen hsole hd hlatest hanswered
          refine ⟨?_, ?_, ?_⟩
          · rw [Btc.BalanceScan.state_handOn, Btc.BalanceScan.state_store]
            show SoleInvoice row (s.onDetectedAlone answers (x.grownBy row tx provider) z.state).2
            rw [hkeep]
            exact hsole
          · rw [Btc.BalanceScan.state_handOn, Btc.BalanceScan.state_store,
              Btc.BalanceScan.lastBalance_handOn, Btc.BalanceScan.lastBalance_store]
            show Agrees row tx.networkID
              (s.onDetectedAlone answers (x.grownBy row tx provider) z.state).2 _ _
            rw [hkeep]
            exact hkept _ (.inl rfl)
          · intro _
            rw [Btc.BalanceScan.state_handOn, Btc.BalanceScan.state_store]
            show World.credited
              (s.onDetectedAlone answers (x.grownBy row tx provider) z.state).2 _ = _
            rw [hkeep]
            exact hcredited

/-- There are new deposits: all of them are recorded, or the poll fails. -/
theorem polledOwn_of_fresh {d : Deposit} {more : List Deposit} (hi : BtcInvoice s row tx)
    (hmeets : PollMeets s row tx listing provider answers x) (hsole : SoleInvoice row z.state)
    (hopen : OpenLedger row tx.networkID z.state old)
    (hfirst : OpenLedger row tx.networkID x.world old) (hx : SoleInvoice row x.world)
    (hsplit : x.deposits = d :: more ++ old) (hchain : WellFormed x.deposits)
    (hsame : z.lastBalance (Btc.cacheKey row.recipientAddress row.isTest) = x.seen row)
    (hseen : x.seen row = Deposit.balance old) :
    PolledOwn row tx.networkID x.deposits
      (Btc.pollAddress row.isTest provider (s.onDetectedAlone answers) z tx) := by
  obtain ⟨hid, haddr, htest, -⟩ := hi.reads
  have hne : tx.recipientAddress ≠ "" := by
    rw [haddr]
    exact hi.address
  obtain ⟨hpositive, hnodup⟩ := hchain
  have hgrows : 0 < Deposit.balance (d :: more) := by
    by_contra hnot
    have hnil : d :: more = [] := Deposit.eq_nil_of_balance
      (fun d' hd' => (hpositive d' (by rw [hsplit]; exact List.mem_append_left old hd')).1)
      (by omega)
    cases hnil
  have htotal : Deposit.balance x.deposits =
      Deposit.balance (d :: more) + Deposit.balance old := by
    rw [hsplit, Deposit.balance_append]
  cases hinfo : provider.addressInfo tx.recipientAddress with
  | error e =>
    rw [Btc.pollAddress_unreachable hne hinfo]
    refine ⟨hsole, .inl ⟨d :: more, old, hsplit, hopen, .inl ?_⟩, ?_⟩
    · exact hsame.trans hseen
    · intro hfailed
      simp [Btc.BalanceScan.fail] at hfailed
  | ok current =>
    obtain rfl : current = Deposit.balance x.deposits :=
      hmeets.truthful current (haddr ▸ hinfo)
    have hgrown : x.seen row < Deposit.balance x.deposits := by omega
    have hnotall : ¬ x.credited row = Deposit.balance x.deposits := by
      rw [BtcWatch.credited, hfirst.credited hi.unpaid]
      omega
    obtain ⟨hlatest, hbooked⟩ : (provider.transfer row.recipientAddress).1 = d.hash ∧
        Booked row tx provider answers x := by
      rcases hmeets.history hgrown with ⟨-, hall⟩ | ⟨hlatest, hbooked⟩
      · exact absurd hall hnotall
      · rw [hsplit] at hlatest
        exact ⟨hlatest, hbooked⟩
    have hnamed : d.hash ≠ "" := (hpositive d (by rw [hsplit]; simp)).2
    have hnew : d.hash ∉ old.map Deposit.hash := by
      rw [hsplit, List.cons_append, List.map_cons, List.map_append, List.nodup_cons] at hnodup
      exact fun hmem => hnodup.1 (List.mem_append_right _ hmem)
    obtain ⟨hrecorded, hhash, hsender⟩ :=
      hbooked.recorded hi hfirst hx hsplit hseen hnew hlatest
    rw [Btc.pollAddress_answered hne hinfo, haddr, hsame, if_neg (by omega), hlatest,
      if_neg hnamed]
    have hdelta : Deposit.balance x.deposits - x.seen row = Deposit.balance (d :: more) := by
      omega
    rw [hdelta]
    have hdetection : x.grownBy row tx provider = Btc.grownBy row.isTest tx row.recipientAddress
        d.hash (provider.transfer row.recipientAddress).2 (Deposit.balance (d :: more)) := by
      rw [BtcWatch.grownBy, hlatest, hdelta]
    rw [hdetection] at hrecorded
    obtain ⟨hsole', hrest⟩ := own_callback hi hopen hsole hnamed hnew hrecorded hhash hsender rfl
    have hagrees : Agrees row tx.networkID (s.onDetectedAlone answers (Btc.grownBy row.isTest tx
        row.recipientAddress d.hash (provider.transfer row.recipientAddress).2
        (Deposit.balance (d :: more))) z.state).2 x.deposits (Deposit.balance x.deposits) := by
      rcases hrest with hledger | hpromoted
      · exact .inl ⟨[], x.deposits, rfl, hsplit ▸ hledger, .inl rfl⟩
      · exact .inr (hsplit ▸ hpromoted)
    refine ⟨?_, ?_, ?_⟩
    · rw [Btc.BalanceScan.state_handOn]
      exact hsole'
    · rw [Btc.BalanceScan.state_handOn, Btc.BalanceScan.lastBalance_handOn,
        Btc.BalanceScan.lastBalance_store]
      exact hagrees
    · intro _
      rw [Btc.BalanceScan.state_handOn]
      rcases hrest with hledger | hpromoted
      · rw [hsplit]
        exact hledger.credited hi.unpaid
      · rw [hsplit]
        exact hpromoted.credited

end Own

/-- The address belongs to the invoice, so what else is pending is elsewhere. -/
theorem foreign_of_pending {w : World} {txs : List Transaction} {t : Transaction}
    (hsole : SoleInvoice row w) (hpending : s.pendingTransactions w = .ok txs) (ht : t ∈ txs)
    (hid : t.id ≠ row.id) : Foreign row t := by
  refine ⟨hid, ?_⟩
  intro haddr
  obtain ⟨r, hr, hread⟩ := Service.row_of_pending hpending ht
  obtain ⟨currency, fee, -, -, rfl⟩ := s.entryToTransaction_eq_ok hread
  have hget := Table.get_of_mem (Service.mem_cycleRows hr).1
  exact hid (hsole r.id r hget (congrArg lower haddr))

/-- Rows are read the same way every time. -/
theorem eq_of_pending {w : World} {txs : List Transaction} {t : Transaction}
    (hi : BtcInvoice s row tx) (hstored : w.transactions.get row.id = some row)
    (hpending : s.pendingTransactions w = .ok txs) (ht : t ∈ txs) (hid : t.id = row.id) :
    t = tx := by
  obtain ⟨r, hr, hread⟩ := Service.row_of_pending hpending ht
  have hget := Table.get_of_mem (Service.mem_cycleRows hr).1
  rw [← Service.entryToTransaction_id hread, hid, hstored] at hget
  obtain rfl : row = r := Option.some.inj hget
  exact Except.ok.inj (hread.symm.trans hi.resolved)

/-- A promoted invoice is not pending. -/
theorem not_pending_of_promoted {w : World} {fact : Int} {txs : List Transaction} {t : Transaction}
    (h : Promoted row w fact) (hpending : s.pendingTransactions w = .ok txs) (ht : t ∈ txs) :
    t.id ≠ row.id := by
  intro hid
  obtain ⟨r, hr, hread⟩ := Service.row_of_pending hpending ht
  obtain ⟨hmem, hopen⟩ := Service.mem_cycleRows hr
  have hget := Table.get_of_mem hmem
  obtain ⟨r', hr', hstatus, -⟩ := h
  rw [← Service.entryToTransaction_id hread, hid, hr'] at hget
  obtain rfl : r' = r := Option.some.inj hget
  simp only [Books.isOpen, Bool.and_eq_true, decide_eq_true_eq] at hopen
  exact hstatus hopen.1.2

end Poll

/-- The invariant of a run. -/
structure Ledger (row : TransactionRow) (tx : Transaction) (x : BtcWatch) : Prop where
  sole : SoleInvoice row x.world
  chain : WellFormed x.deposits
  agrees : Agrees row tx.networkID x.world x.deposits (x.seen row)

section Runs

variable {s : Service} {row : TransactionRow} {tx : Transaction} {x : BtcWatch}

section

variable {listing : Env} {provider : Btc.Provider} {answers : DetectedTransfer → ℕ → Env}

/-- The scan a poll starts with. -/
def BtcWatch.start (x : BtcWatch) : Btc.BalanceScan World := ⟨x.lastBTCBalance, 0, [], x.world⟩

/-- The invoice is polled once, among others. -/
theorem polledOwn_of_listed {before after : List Transaction} (hi : BtcInvoice s row tx)
    (h : Ledger row tx x) (hmeets : PollMeets s row tx listing provider answers x)
    (hopen : ∃ fresh old, x.deposits = fresh ++ old ∧ OpenLedger row tx.networkID x.world old ∧
      (x.seen row = Deposit.balance old ∨ x.seen row = 0 ∧ fresh = []))
    (hbefore : ∀ t ∈ before, Foreign row t) (hafter : ∀ t ∈ after, Foreign row t) :
    PolledOwn row tx.networkID x.deposits
      ((before ++ tx :: after).foldl
        (Btc.pollAddress row.isTest provider (s.onDetectedAlone answers)) x.start) := by
  rw [List.foldl_append, List.foldl_cons]
  have hpast : PassedBy row row.isTest x.start
      (before.foldl (Btc.pollAddress row.isTest provider (s.onDetectedAlone answers)) x.start) :=
    passedBy_foldl hbefore _
  refine PolledOwn.passedBy ?_ (passedBy_foldl hafter _)
  have hsame : (before.foldl (Btc.pollAddress row.isTest provider (s.onDetectedAlone answers))
      x.start).lastBalance (Btc.cacheKey row.recipientAddress row.isTest) = x.seen row := by
    rw [Btc.BalanceScan.lastBalance, hpast.balance]
    rfl
  have hsole := hpast.untouched.sole h.sole
  obtain ⟨fresh, old, hsplit, hopen, hseen⟩ := hopen
  cases fresh with
  | nil =>
    rw [List.nil_append] at hsplit
    subst hsplit
    exact polledOwn_of_credited hi hmeets hsole (hpast.untouched.openLedger hopen) hopen h.sole
      hsame (hseen.imp id And.left)
  | cons d more =>
    have hseen : x.seen row = Deposit.balance old := by
      rcases hseen with hseen | ⟨-, hnil⟩
      · exact hseen
      · cases hnil
    exact polledOwn_of_fresh hi hmeets hsole (hpast.untouched.openLedger hopen) hopen h.sole hsplit
      h.chain hsame hseen

/-- A poll that does not list the invoice passes it by. -/
theorem polledOwn_of_unlisted {group : List Transaction} (h : Ledger row tx x)
    (hforeign : ∀ t ∈ group, Foreign row t)
    (hcredited : x.credited row = Deposit.balance x.deposits) :
    PolledOwn row tx.networkID x.deposits
      (group.foldl (Btc.pollAddress row.isTest provider (s.onDetectedAlone answers)) x.start) := by
  have hstart : PolledOwn row tx.networkID x.deposits x.start :=
    ⟨h.sole, h.agrees, fun _ => hcredited⟩
  exact hstart.passedBy (passedBy_foldl hforeign _)

/-- No other transaction has the id of the invoice. -/
theorem foreign_of_nodup {txs before after : List Transaction}
    (hsole : SoleInvoice row x.world) (hpending : s.pendingTransactions x.world = .ok txs)
    (hparts : chainTransactions "BTC" row.isTest txs = before ++ tx :: after)
    (hid : tx.id = row.id) : ∀ t ∈ before ++ after, Foreign row t := by
  intro t ht
  have hin : t ∈ chainTransactions "BTC" row.isTest txs := by
    rw [hparts]
    rcases List.mem_append.mp ht with hb | ha
    · exact List.mem_append_left _ hb
    · exact List.mem_append_right _ (List.mem_cons_of_mem _ ha)
  have hnodup : ((chainTransactions "BTC" row.isTest txs).map Transaction.id).Nodup :=
    (Service.nodup_pending hpending).sublist (List.filter_sublist.map _)
  rw [hparts, List.map_append, List.map_cons] at hnodup
  have hmid := List.nodup_middle.mp hnodup
  rw [List.nodup_cons, ← List.map_append] at hmid
  refine foreign_of_pending hsole hpending (List.mem_filter.mp hin).1 ?_
  intro hsame
  exact hmid.1 (List.mem_map.mpr ⟨t, ht, hsame.trans hid.symm⟩)

theorem Ledger.poll {y : Btc.BalanceScan World} (hi : BtcInvoice s row tx) (h : Ledger row tx x)
    (hmeets : x.IsOpen row → PollMeets s row tx listing provider answers x)
    (hy : s.pollBtc row.isTest listing provider answers x = .ok y) :
    PolledOwn row tx.networkID x.deposits y := by
  unfold Service.pollBtc at hy
  cases hlist : s.listPending listing x.world with
  | error e =>
    rw [hlist] at hy
    cases hy
  | ok txs =>
    rw [hlist] at hy
    have hend : y = (chainTransactions "BTC" row.isTest txs).foldl
        (Btc.pollAddress row.isTest provider (s.onDetectedAlone answers)) x.start :=
      (Except.ok.inj hy).symm
    rw [hend]
    have hpending := Service.pending_of_listPending hlist
    have hother : (∀ t ∈ txs, t.id ≠ row.id) →
        ∀ t ∈ chainTransactions "BTC" row.isTest txs, Foreign row t := by
      intro hids t ht
      have hmem := (List.mem_filter.mp ht).1
      exact foreign_of_pending h.sole hpending hmem (hids t hmem)
    rcases h.agrees with hopen | hpromoted
    · have hstored := hopen.choose_spec.choose_spec.2.1.stored
      have hmeets := hmeets ⟨row, hstored, hi.isOpen⟩
      by_cases hlisted : ∃ t ∈ txs, t.id = row.id
      · obtain ⟨t, ht, hid⟩ := hlisted
        obtain rfl := eq_of_pending hi hstored hpending ht hid
        have hmem : t ∈ chainTransactions "BTC" row.isTest txs :=
          List.mem_filter.mpr ⟨ht, by simp [hi.chain, hi.reads.2.2.1]⟩
        obtain ⟨before, after, hparts⟩ := List.append_of_mem hmem
        have hforeign := foreign_of_nodup h.sole hpending hparts hid
        rw [hparts]
        exact polledOwn_of_listed hi h hmeets hopen
          (fun t' ht' => hforeign t' (List.mem_append_left _ ht'))
          (fun t' ht' => hforeign t' (List.mem_append_right _ ht'))
      · have hcredited := hmeets.listed.resolve_right fun hall => hlisted (hall txs hlist)
        exact polledOwn_of_unlisted h (hother fun t ht hid => hlisted ⟨t, ht, hid⟩) hcredited
    · exact polledOwn_of_unlisted h
        (hother fun t ht => not_pending_of_promoted hpromoted hpending ht) hpromoted.credited

end

theorem Ledger.deposit {d : Deposit} (hi : BtcInvoice s row tx) (h : Ledger row tx x)
    (hmeets : EventMeets s row tx x (.deposit d)) :
    Ledger row tx { x with deposits := d :: x.deposits } := by
  obtain ⟨⟨hpositive, hnamed, hnew⟩, ⟨r, hr, hropen⟩, hforgotten⟩ := hmeets
  refine ⟨h.sole, ⟨?_, ?_⟩, ?_⟩
  · intro d' hd'
    rcases List.mem_cons.mp hd' with rfl | hold
    · exact ⟨hpositive, hnamed⟩
    · exact h.chain.1 d' hold
  · exact List.nodup_cons.mpr ⟨hnew, h.chain.2⟩
  · rcases h.agrees with ⟨fresh, old, hsplit, hopen, hseen⟩ | ⟨r', hr', hstatus, -⟩
    · refine .inl ⟨d :: fresh, old, congrArg (d :: ·) hsplit, hopen, .inl ?_⟩
      rcases hseen with hseen | ⟨hzero, hnil⟩
      · exact hseen
      · -- forgotten, so nothing was credited
        have hcredited := hforgotten hzero
        rw [BtcWatch.credited, hopen.credited hi.unpaid] at hcredited
        exact hzero.trans hcredited.symm
    · rw [hr] at hr'
      obtain rfl : r = r' := Option.some.inj hr'
      simp only [Books.isOpen, Bool.and_eq_true, decide_eq_true_eq] at hropen
      exact absurd hropen.1.2 hstatus

theorem Ledger.restart (hi : BtcInvoice s row tx) (h : Ledger row tx x)
    (hmeets : EventMeets s row tx x .restart) :
    Ledger row tx { x with lastBTCBalance := fun _ => none } := by
  refine ⟨h.sole, h.chain, ?_⟩
  rcases h.agrees with ⟨fresh, old, hsplit, hopen, hseen⟩ | hpromoted
  · refine .inl ⟨fresh, old, hsplit, hopen, ?_⟩
    show (0 : Int) = _ ∨ (0 : Int) = 0 ∧ fresh = []
    rcases hseen with hseen | ⟨-, hnil⟩
    · rcases hmeets ⟨row, hopen.stored, hi.isOpen⟩ with hzero | hall
      · exact .inl (hzero.symm.trans hseen)
      · -- all of it was seen, so nothing is new
        right
        refine ⟨rfl, Deposit.eq_nil_of_balance (fun d hd => (h.chain.1 d ?_).1) ?_⟩
        · rw [hsplit]
          exact List.mem_append_left _ hd
        · have hboth := Deposit.balance_append fresh old
          rw [← hsplit] at hboth
          omega
    · exact .inr ⟨rfl, hnil⟩
  · exact .inr hpromoted

theorem Ledger.step {e : BtcEvent} (hi : BtcInvoice s row tx) (h : Ledger row tx x)
    (hmeets : EventMeets s row tx x e) : Ledger row tx (s.btcStep row.isTest x e) := by
  cases e with
  | deposit d => exact h.deposit hi hmeets
  | restart => exact h.restart hi hmeets
  | poll listing provider answers =>
    cases hy : s.pollBtc row.isTest listing provider answers x with
    | error e =>
      simp only [Service.btcStep, hy]
      exact h
    | ok y =>
      simp only [Service.btcStep, hy]
      have hpolled := h.poll hi hmeets hy
      exact ⟨hpolled.sole, h.chain, hpolled.agrees⟩

theorem Ledger.run {events : List BtcEvent} (hi : BtcInvoice s row tx) (h : Ledger row tx x)
    (hmeets : RunMeets s row tx x events) : Ledger row tx (s.btcRun row.isTest x events) := by
  induction events generalizing x with
  | nil => exact h
  | cons e rest ih => exact ih (h.step hi hmeets.1) hmeets.2

theorem JustCreated.ledger (h : JustCreated s row tx x) : Ledger row tx x := by
  obtain ⟨hnone, hseen⟩ := h.noDeposits
  refine ⟨h.sole, ?_, .inl ⟨[], [], hnone, ⟨h.stored, ?_, ?_, ?_⟩, .inl hseen⟩⟩
  · rw [hnone]
    exact ⟨by simp, List.nodup_nil⟩
  · intro f hf
    rw [h.noFills] at hf
    cases hf
  · intro d hd
    cases hd
  · rw [World.sumConfirmedFillsForTx, h.noFills]
    rfl

theorem runMeets_append {events rest : List BtcEvent} :
    RunMeets s row tx x (events ++ rest) ↔
      RunMeets s row tx x events ∧ RunMeets s row tx (s.btcRun row.isTest x events) rest := by
  induction events generalizing x with
  | nil =>
    constructor
    · exact fun h => ⟨trivial, h⟩
    · exact And.right
  | cons e events ih =>
    rw [List.cons_append, RunMeets, ih, RunMeets, and_assoc]
    rfl

theorem btcRun_append (events rest : List BtcEvent) :
    s.btcRun row.isTest x (events ++ rest) =
      s.btcRun row.isTest (s.btcRun row.isTest x events) rest :=
  List.foldl_append

end Runs

/-- For every run whose events meet the conditions: after a poll that reports no
failure, what is credited is what was received. -/
theorem deposits_credited (s : Service) (row : TransactionRow) (tx : Transaction) (x : BtcWatch)
    (hcreated : JustCreated s row tx x) (events : List BtcEvent) (listing : Env)
    (provider : Btc.Provider) (answers : DetectedTransfer → ℕ → Env)
    (hmeets : RunMeets s row tx x (events ++ [.poll listing provider answers]))
    (hsucceeds : s.PollSucceeds row.isTest (s.btcRun row.isTest x events)
      (.poll listing provider answers)) :
    (s.btcRun row.isTest x (events ++ [.poll listing provider answers])).credited row =
      Deposit.balance
        (s.btcRun row.isTest x (events ++ [.poll listing provider answers])).deposits := by
  obtain ⟨hbefore, hpoll, -⟩ := runMeets_append.mp hmeets
  have hi := hcreated.toBtcInvoice
  have hledger := hcreated.ledger.run hi hbefore
  obtain ⟨y, hy, hnone⟩ := hsucceeds
  have hpolled := hledger.poll hi hpoll hy
  rw [btcRun_append]
  have hstep : s.btcRun row.isTest (s.btcRun row.isTest x events)
      [.poll listing provider answers] =
        { s.btcRun row.isTest x events with
          world := y.state
          lastBTCBalance := y.lastBTCBalance } := by
    show s.btcStep row.isTest (s.btcRun row.isTest x events) (.poll listing provider answers) = _
    simp only [Service.btcStep, hy]
  rw [hstep]
  exact hpolled.credited hnone

/-- What the chain and the node give in any case: new transactions, the true
balance, and the latest deposit first in the history. -/
def Honest (row : TransactionRow) (x : BtcWatch) : BtcEvent → Prop
  | .deposit d => 0 < d.amount ∧ d.hash ≠ "" ∧ d.hash ∉ x.deposits.map Deposit.hash
  | .poll _ provider _ =>
      provider.addressInfo row.recipientAddress = .ok (Deposit.balance x.deposits) ∧
        (provider.transfer row.recipientAddress).1 =
          (x.deposits.head?.map Deposit.hash).getD ""
  | .restart => True

instance (row : TransactionRow) (x : BtcWatch) : (e : BtcEvent) → Decidable (Honest row x e)
  | .deposit _ => inferInstanceAs (Decidable (_ ∧ _ ∧ _))
  | .poll .. => inferInstanceAs (Decidable (_ ∧ _))
  | .restart => inferInstanceAs (Decidable True)

def RunHonest (s : Service) (row : TransactionRow) : BtcWatch → List BtcEvent → Prop
  | _, [] => True
  | x, e :: rest => Honest row x e ∧ RunHonest s row (s.btcStep row.isTest x e) rest

open Sample

namespace Sample

def bitcoin : CryptoCurrency :=
  { ether with
    blockchain := "BTC"
    networkID := "mainnet"
    testNetworkID := "testnet"
    ticker := "BTC"
    name := "Bitcoin" }

def btcService : Service := { service with currencies := ⟨[bitcoin], by decide⟩ }

/-- An invoice of a hundred satoshi. -/
def btcInvoice : TransactionRow :=
  { invoice .pending none none none with
    recipientAddress := "bc1q"
    blockchain := "BTC"
    currency := "BTC"
    networkID := some "mainnet" }

def btcTransaction : Transaction := Service.transactionOf btcInvoice bitcoin none

def btcWatch : BtcWatch := ⟨Sample.world btcInvoice .locked [] [], fun _ => none, []⟩

/-- A node that knows of `deposits`. -/
def node (deposits : List Deposit) : Btc.Provider where
  addressInfo _ := .ok (Deposit.balance deposits)
  recentTransactions _ :=
    .ok (deposits.map fun d => ⟨d.hash, true, [⟨"payer", d.amount⟩], [⟨"bc1q", d.amount⟩]⟩)

def polled (deposits : List Deposit) : BtcEvent := .poll {} (node deposits) fun _ _ => {}

/-- The database refuses every statement of the callback. -/
def failing (deposits : List Deposit) : BtcEvent :=
  .poll {} (node deposits) fun _ _ => { fate := .refused }

end Sample

theorem justCreated_sample : JustCreated btcService btcInvoice btcTransaction btcWatch where
  resolved := rfl
  isOpen := rfl
  chain := rfl
  amounts := ⟨rfl, rfl⟩
  named := by decide
  address := by decide
  unpaid := rfl
  stored := rfl
  sole := by
    intro id r hr _
    obtain ⟨hmem, rfl⟩ := Table.get_eq_some hr
    have hrow : r = btcInvoice := List.mem_singleton.mp hmem
    rw [hrow]
  noFills := rfl
  noDeposits := ⟨rfl, rfl⟩

/-- A poll whose statements are all answered meets the conditions. -/
theorem polled_meets {x : BtcWatch} {d : Deposit} {rest : List Deposit}
    (hdeposits : x.deposits = d :: rest) (hnamed : d.hash ≠ "" ∧ 0 < d.amount)
    (hlisted : (btcService.listPending {} x.world).map (List.map Transaction.id) = .ok [1])
    (hbooked : Booked btcInvoice btcTransaction (node (d :: rest)) (fun _ _ => {}) x) :
    PollMeets btcService btcInvoice btcTransaction {} (node (d :: rest)) (fun _ _ => {}) x where
  truthful b hb := by
    rw [hdeposits]
    exact (Except.ok.inj hb).symm
  listed := by
    right
    intro txs htxs
    rw [htxs] at hlisted
    have hid : (1 : Int) ∈ txs.map Transaction.id := by
      rw [Except.ok.inj hlisted]
      exact List.mem_singleton_self 1
    obtain ⟨t, ht, hone⟩ := List.mem_map.mp hid
    exact ⟨t, ht, hone⟩
  history := by
    intro _
    refine .inr ⟨?_, hbooked⟩
    rw [hdeposits]
    simp [Btc.Provider.transfer, node, Btc.findTransfer, btcInvoice, hnamed.1, hnamed.2]

/-- Sixty, then forty: after the second poll a hundred are credited. -/
theorem deposits_credited_sample :
    (btcService.btcRun false btcWatch
      ([.deposit ⟨"a", 60⟩, polled [⟨"a", 60⟩], .restart, polled [⟨"a", 60⟩], .deposit ⟨"b", 40⟩] ++
        [polled [⟨"b", 40⟩, ⟨"a", 60⟩]])).credited btcInvoice = 100 := by
  refine deposits_credited btcService btcInvoice btcTransaction btcWatch justCreated_sample
    [.deposit ⟨"a", 60⟩, polled [⟨"a", 60⟩], .restart, polled [⟨"a", 60⟩], .deposit ⟨"b", 40⟩] {}
    (node [⟨"b", 40⟩, ⟨"a", 60⟩]) (fun _ _ => {}) ⟨?_, ?_, ?_, ?_, ?_, ?_, trivial⟩
    ⟨_, rfl, by decide +kernel⟩
  · exact ⟨by decide, ⟨btcInvoice, rfl, rfl⟩, fun _ => by decide +kernel⟩
  · exact fun _ => polled_meets rfl (by decide) (by decide +kernel) (by decide +kernel)
  · exact fun _ => .inr (by decide +kernel)
  · exact fun _ => polled_meets rfl (by decide) (by decide +kernel) (by decide +kernel)
  · exact ⟨by decide +kernel, ⟨btcInvoice, by decide +kernel, rfl⟩,
      fun h => absurd h (by decide +kernel)⟩
  · exact fun _ => polled_meets rfl (by decide) (by decide +kernel) (by decide +kernel)

/-- The poll fails on the database, and the next one finds nothing new. -/
theorem failed_deposit_is_never_credited :
    ¬ ∀ (s : Service) (row : TransactionRow) (tx : Transaction) (x : BtcWatch),
      JustCreated s row tx x → ∀ (events : List BtcEvent) (listing : Env) (provider : Btc.Provider)
        (answers : DetectedTransfer → ℕ → Env),
        RunHonest s row x (events ++ [.poll listing provider answers]) →
        s.PollSucceeds row.isTest (s.btcRun row.isTest x events)
          (.poll listing provider answers) →
        (s.btcRun row.isTest x (events ++ [.poll listing provider answers])).credited row =
          Deposit.balance
            (s.btcRun row.isTest x (events ++ [.poll listing provider answers])).deposits := by
  intro h
  have hcredited := h btcService btcInvoice btcTransaction btcWatch justCreated_sample
    [.deposit ⟨"a", 60⟩, failing [⟨"a", 60⟩]] {} (node [⟨"a", 60⟩]) (fun _ _ => {})
    ⟨by decide, by decide +kernel, by decide +kernel, trivial⟩ ⟨_, rfl, by decide +kernel⟩
  revert hcredited
  decide +kernel

end CryptoLink
