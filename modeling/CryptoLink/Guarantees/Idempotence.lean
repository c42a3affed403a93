import CryptoLink.Alone
import Mathlib.Data.List.Pairwise

/-!
# One transfer, delivered again

The fill is inserted once for each hash, but the sum is taken before the insert
and the amount at hand is added on top. So a delivery counts a transfer that is
already there a second time, unless it brings nothing or is turned away.
-/

namespace CryptoLink

open ReadCommitted StatementPrograms KeyedTables

structure Transfer where
  networkID : String
  hash : String
  amount : Int
  deriving DecidableEq, Repr

namespace Transfer

def differs (a b : Transfer) : Prop := ¬ (a.networkID = b.networkID ∧ a.hash = b.hash)

instance : DecidableRel differs := fun _ _ => inferInstanceAs (Decidable (¬ _))

def ofFill (f : FillRow) : Transfer := ⟨f.key.networkID, f.key.transactionHash, f.amount⟩

def ofInput (i : Input) : Transfer := ⟨i.networkID, i.transactionID, i.amount.value⟩

end Transfer

def confirmedTransfers (w : World) (txID : Int) : List Transfer :=
  ((w.fillsOf txID).filter fun f => f.status = .confirmed).map Transfer.ofFill

/-- The different transfers seen once `input` has arrived. -/
def seenTransfers (w : World) (txID : Int) (input : Input) : List Transfer :=
  (Transfer.ofInput input :: confirmedTransfers w txID).pwFilter Transfer.differs

def seenAmount (w : World) (txID : Int) (input : Input) : Int :=
  ((seenTransfers w txID input).map Transfer.amount).sum

def alreadyConfirmed (w : World) (txID : Int) (input : Input) : Prop :=
  ∃ t ∈ confirmedTransfers w txID, ¬ (Transfer.ofInput input).differs t

/-- Every fill of the transaction is at output 0, as all that are written. -/
def OutputZero (txID : Int) (w : World) : Prop :=
  ∀ key, key.transactionID = txID → (w.fills.get key).isSome → key.voutOrLogIdx = 0

theorem sum_confirmedTransfers (w : World) (txID : Int) :
    ((confirmedTransfers w txID).map Transfer.amount).sum = w.sumConfirmedFillsForTx txID := by
  simp only [confirmedTransfers, List.map_map, World.sumConfirmedFillsForTx]
  rfl

theorem confirmedTransfers_pairwise {w : World} {txID : Int} (h : OutputZero txID w) :
    (confirmedTransfers w txID).Pairwise Transfer.differs := by
  have hkeys : w.fills.rows.Pairwise fun a b => a.key ≠ b.key := List.pairwise_map.mp w.fills.nodup
  have hconfirmed := (hkeys.filter fun f => f.key.transactionID = txID).filter
    fun f => f.status = .confirmed
  refine List.pairwise_map.mpr (hconfirmed.imp_of_mem ?_)
  have hfill : ∀ f ∈ (w.fillsOf txID).filter fun f => f.status = .confirmed,
      f.key.transactionID = txID ∧ f.key.voutOrLogIdx = 0 := by
    intro f hf
    have hmem := List.mem_filter.mp (List.mem_of_mem_filter hf)
    have htx : f.key.transactionID = txID := by simpa using hmem.2
    refine ⟨htx, h f.key htx ?_⟩
    rw [Table.get_of_mem hmem.1]
    rfl
  rintro a b ha hb hne ⟨hnetwork, hhash⟩
  obtain ⟨hta, hva⟩ := hfill a ha
  obtain ⟨htb, hvb⟩ := hfill b hb
  apply hne
  cases hka : a.key
  cases hkb : b.key
  simp_all [Transfer.ofFill]

/-- A transfer that is already confirmed adds nothing. -/
theorem seenAmount_of_confirmed {w : World} {txID : Int} {input : Input} (h : OutputZero txID w)
    (hold : alreadyConfirmed w txID input) :
    seenAmount w txID input = w.sumConfirmedFillsForTx txID := by
  have hsame := List.pwFilter_eq_self.mpr (confirmedTransfers_pairwise h)
  obtain ⟨t, hmem, hnot⟩ := hold
  have hdrop : seenTransfers w txID input = confirmedTransfers w txID := by
    rw [seenTransfers, List.pwFilter_cons_of_neg, hsame]
    rw [hsame]
    exact fun hall => hnot (hall t hmem)
  rw [seenAmount, hdrop, sum_confirmedTransfers]

theorem seenAmount_of_new {w : World} {txID : Int} {input : Input} (h : OutputZero txID w)
    (hnew : ¬ alreadyConfirmed w txID input) :
    seenAmount w txID input = w.sumConfirmedFillsForTx txID + input.amount.value := by
  have hsame := List.pwFilter_eq_self.mpr (confirmedTransfers_pairwise h)
  have hkeep : seenTransfers w txID input =
      Transfer.ofInput input :: confirmedTransfers w txID := by
    rw [seenTransfers, List.pwFilter_cons_of_pos, hsame]
    rw [hsame]
    intro t hmem
    by_contra hnot
    exact hnew ⟨t, hmem, hnot⟩
  rw [seenAmount, hkeep, List.map_cons, List.sum_cons, sum_confirmedTransfers]
  exact Int.add_comm _ _

/-- A call with what its steps are answered. -/
structure Delivery where
  input : Input
  envs : ℕ → Env

namespace Service

variable (s : Service)

/-- The first part of `processInboundTransaction`: the amount it compares. -/
def cumulativeAmount (tx : Transaction) (input : Input) : Call Money := do
  succeed input.validate
  let prevConfirmed ← (sumConfirmedFills tx).mapError (Err.wrap "unable to sum confirmed fills")
  succeed (wrapErr "unable to combine fills" (prevConfirmed.add input.amount))

/-- Its second part: whether that amount promotes the transaction. -/
def promotes (tx : Transaction) (input : Input) : Call Bool := do
  let combined ← cumulativeAmount tx input
  (crossesExpected tx combined).mapError (Err.wrap "unable to evaluate combined amount vs expected")

theorem processInboundTransaction_eq (tx : Transaction) (input : Input) :
    s.processInboundTransaction tx input = (cumulativeAmount tx input).bind fun combined =>
      ((crossesExpected tx combined).mapError
        (Err.wrap "unable to evaluate combined amount vs expected")).bind fun crosses =>
          if crosses then s.promoteFromPartial tx input combined
          else recordPartialFill tx input := by
  simp only [processInboundTransaction, cumulativeAmount, Prog.bind_eq, Prog.bind_assoc]

variable {s} {tx : Transaction} {input : Input} {envs : ℕ → Env} {w : World}

/-- What `crossesExpected` answers, as a function of the price feed's answer. -/
def crosses (env : Env) (w : World) (tx : Transaction) (received : Money) : Except Err Bool :=
  if received.greaterThanOrEqual tx.amount then .ok true
  else do
    let tolerance ← engine.reply (.fiatToCrypto tenCents tx.currency) env w
    let withTolerance ← received.add tolerance
    .ok (withTolerance.greaterThanOrEqual tx.amount)

def combinedAmount (w : World) (tx : Transaction) (input : Input) : Except Err Money :=
  (numericToCrypto (w.sumConfirmedFillsForTx tx.id) tx.amount).add input.amount

/-- The comparison is reached by a valid input of the right currency whose sum
is answered, and made on the sum plus the amount at hand. -/
theorem alone_cumulativeAmount {m : Money} {n : ℕ} {v : View Stmt Env World LockKey} :
    engine.alone envs (cumulativeAmount tx input) 0 ⟨w, .idle⟩ = (.ok m, n, v) ↔
      n = 1 ∧ v = ⟨w, .idle⟩ ∧ input.validate = .ok () ∧ (envs 0).fate = .done ∧
        combinedAmount w tx input = .ok m := by
  have hsum : engine.reply (.sumConfirmedFillsForTx tx.id) (envs 0) w =
      answered (envs 0).fate .database (.ok (w.sumConfirmedFillsForTx tx.id)) := rfl
  simp only [cumulativeAmount, Prog.bind_eq, succeed, Engine.alone_bind, Engine.alone_ofExcept,
    Engine.alone_mapError, sumConfirmedFills, combinedAmount]
  cases hvalid : input.validate with
  | error e => simp
  | ok u =>
    simp only [alone_read (.sumConfirmedFillsForTx tx.id) rfl, hsum, answered]
    by_cases hdone : (envs 0).fate = .done
    · simp only [hdone, if_true, wrapErr_ok, Prog.pure_eq, Engine.alone_ret, Except.mapError,
        Prod.mk.injEq, wrapErr_eq_ok, true_and]
      constructor
      · rintro ⟨hm, rfl, rfl⟩
        exact ⟨rfl, rfl, hm⟩
      · rintro ⟨rfl, rfl, hm⟩
        exact ⟨hm, rfl, rfl⟩
    · simp [hdone, Except.mapError]

/-- The price feed is asked only below the expected amount. -/
def priceSteps (tx : Transaction) (received : Money) : ℕ :=
  if received.greaterThanOrEqual tx.amount then 0 else 1

theorem alone_crossesExpected (tx : Transaction) (envs : ℕ → Env) (w : World) (m : Money) (n : ℕ) :
    engine.alone envs (crossesExpected tx m) n ⟨w, .idle⟩ =
      (crosses (envs n) w tx m, n + priceSteps tx m, ⟨w, .idle⟩) := by
  unfold crossesExpected crosses priceSteps
  split
  · rfl
  · simp only [Prog.bind_eq, succeed, Engine.alone_bind, Engine.alone_ofExcept,
      alone_read (.fiatToCrypto tenCents tx.currency) rfl]
    cases engine.reply (.fiatToCrypto tenCents tx.currency) (envs n) w with
    | error e => rfl
    | ok tolerance =>
      cases hadd : m.add tolerance with
      | error e => simp [hadd, bind, Except.bind]
      | ok total => simp [hadd, bind, Except.bind]

/-- The three ways a call can go: it ends before the decision, or it decides
and goes on with one of the two branches, nothing changed so far. -/
theorem alone_processInbound (s : Service) (tx : Transaction) (input : Input) (envs : ℕ → Env)
    (w : World) :
    worldAfter (s.processInboundTransaction tx input) envs w = w ∨
    ∃ m b n, input.validate = .ok () ∧ (envs 0).fate = .done ∧ combinedAmount w tx input = .ok m ∧
      crosses (envs 1) w tx m = .ok b ∧
      worldAfter (s.processInboundTransaction tx input) envs w =
        (engine.alone envs (if b = true then s.promoteFromPartial tx input m
          else recordPartialFill tx input) n ⟨w, .idle⟩).2.2.world := by
  have hcumulative : OnlyWrites (fun _ _ => False) (cumulativeAmount tx input) :=
    .bind (.checked _) fun _ => .bind (.mapError _ sumConfirmedFills_writes) fun _ => .checked _
  have hsame := hcumulative.alone_of_reads envs 0 w
  unfold worldAfter
  rw [processInboundTransaction_eq, Engine.alone_bind]
  rcases hrun : engine.alone envs (cumulativeAmount tx input) 0 ⟨w, .idle⟩ with ⟨e | m, n, v⟩
  · left
    rw [hrun] at hsame
    exact hsame
  · obtain ⟨rfl, rfl, hvalid, hdone, hcombined⟩ := alone_cumulativeAmount.mp hrun
    have hdecide := alone_crossesExpected tx envs w m 1
    simp only [Engine.alone_bind, Engine.alone_mapError, hdecide]
    cases hcross : crosses (envs 1) w tx m with
    | error e => exact .inl rfl
    | ok b => exact .inr ⟨m, b, _, hvalid, hdone, hcombined, hcross, rfl⟩

/-- What the decision says. -/
theorem outcome_promotes {b : Bool} :
    outcome (promotes tx input) envs w = .ok b ↔ input.validate = .ok () ∧ (envs 0).fate = .done ∧
      ∃ m, combinedAmount w tx input = .ok m ∧ crosses (envs 1) w tx m = .ok b := by
  unfold outcome promotes
  rw [Prog.bind_eq, Engine.alone_bind]
  rcases hrun : engine.alone envs (cumulativeAmount tx input) 0 ⟨w, .idle⟩ with ⟨e | m, n, v⟩
  · constructor
    · intro h
      cases h
    · rintro ⟨hvalid, hdone, m, hm, -⟩
      have hok := alone_cumulativeAmount.mpr ⟨rfl, rfl, hvalid, hdone, hm⟩
      rw [hrun] at hok
      cases hok
  · obtain ⟨rfl, rfl, hvalid, hdone, hcombined⟩ := alone_cumulativeAmount.mp hrun
    have hdecide := alone_crossesExpected tx envs w m 1
    simp only [Engine.alone_mapError, hdecide]
    constructor
    · intro h
      refine ⟨hvalid, hdone, m, hcombined, ?_⟩
      cases hcross : crosses (envs 1) w tx m with
      | error e => simp [hcross, Except.mapError] at h
      | ok b' => simpa [hcross, Except.mapError] using h
    · rintro ⟨-, -, m', hm', hcross⟩
      obtain rfl : m = m' := by simpa [hcombined] using hm'
      simp [hcross, Except.mapError]

theorem recordPartialFill_keeps_row (n : ℕ) (id : Int) :
    transactionRow id (engine.alone envs (recordPartialFill tx input) n ⟨w, .idle⟩).2.2.world =
      transactionRow id w := by
  have hwrites : OnlyWrites (fun _ st => st.changes ≠ some .transactions)
      (recordPartialFill tx input) := by
    refine .bind (.mapError _ (recordInput_writes fun p _ _ _ => (fun h => by cases h))) fun _ => ?_
    exact .bind (.mapError _ (markPartial_writes fun p _ _ _ => (fun h => by cases h)))
      fun _ => .ret _
  refine (hwrites.alone_keeps (J := fun w' => transactionRow id w' = transactionRow id w)
    (fun q st env seen w' hst hw' => ?_) (fun q st w' _ hw' => ?_) envs
    (Engine.within_idle rfl)).world
  · rw [transactionRow, World.effect_transactions hst]
    exact hw'
  · rw [transactionRow, lasting_transactions]
    exact hw'

/-- The amount a row has received is the old one or `a`. -/
def Received (id : Int) (before : World) (a : Int) (w : World) : Prop :=
  ∀ r ∈ transactionRow id w, r.factAmount = some a ∨
    ∃ r₀ ∈ transactionRow id before, r.factAmount = r₀.factAmount

theorem promoteFromPartial_received (m : Money) (n : ℕ) (id : Int) :
    Received id w m.value
      (engine.alone envs (s.promoteFromPartial tx input m) n ⟨w, .idle⟩).2.2.world := by
  have hwrites : OnlyWrites (fun _ st => st.changes ≠ some .transactions ∨
      ∃ p, st = .updateTransaction p ∧ p.factAmount = some m.value)
      (s.promoteFromPartial tx input m) := by
    refine .bind determineIncomingStatusFromCombined_writes fun determined => ?_
    refine .bind (.mapError _ (recordInput_writes fun p _ _ _ => .inl (fun h => by cases h)))
      fun _ => ?_
    refine .bind (.mapError _ (receive_writes fun _ now md => .inr ⟨_, rfl, rfl⟩))
      fun received => ?_
    split
    · refine .bind (.mapError _ getPaymentByID_writes) fun pt => ?_
      exact .bind (.mapError _ (updatePayment_writes fun p _ _ _ => .inl (fun h => by cases h)))
        fun _ => .ret _
    · exact .ret _
  refine (hwrites.alone_keeps (J := Received id w m.value) (fun q st env seen w' hst hw' => ?_)
    (fun q st w' _ hw' => ?_) envs (Engine.within_idle fun r hr => .inr ⟨r, hr, rfl⟩)).world
  · rcases hst with hst | ⟨p, rfl, hp⟩
    · simpa only [Received, transactionRow, World.effect_transactions hst] using hw'
    · intro r hr
      rcases World.transaction_effect_cases (.updateTransaction p) env seen w' id with hsame |
        ⟨p', hp', -, -, hnew⟩ | ⟨p', hp', -⟩ | ⟨p', hp', -⟩
      · rw [transactionRow, hsame] at hr
        exact hw' r hr
      · cases hp'
        rw [transactionRow, hnew] at hr
        obtain ⟨r', -, rfl⟩ := Option.map_eq_some_iff.mp hr
        exact .inl hp
      · cases hp'
      · cases hp'
  · simpa only [Received, transactionRow, lasting_transactions] using hw'

def after (s : Service) (tx : Transaction) (w : World) (d : Delivery) : World :=
  worldAfter (s.processInboundTransaction tx d.input) d.envs w

/-- A delivery compares and stores the sum of the different transfers seen so
far, and one that is already confirmed promotes nothing. -/
structure Idempotent (s : Service) (tx : Transaction) (w : World) (d : Delivery) : Prop where
  compared : ∀ m, outcome (cumulativeAmount tx d.input) d.envs w = .ok m →
    m.value = seenAmount w tx.id d.input
  stored : Received tx.id w (seenAmount w tx.id d.input) (s.after tx w d)
  repeated : alreadyConfirmed w tx.id d.input → outcome (promotes tx d.input) d.envs w ≠ .ok true ∧
    transactionRow tx.id (s.after tx w d) = transactionRow tx.id w

/-- A confirmed transfer comes again, is let through, and counts: it brings
something, or the confirmed fills already reach the expected amount. -/
def Recounts (tx : Transaction) (w : World) (d : Delivery) : Prop :=
  alreadyConfirmed w tx.id d.input ∧ d.input.validate = .ok () ∧ (d.envs 0).fate = .done ∧
    ∃ m, combinedAmount w tx d.input = .ok m ∧
      (d.input.amount.value ≠ 0 ∨ crosses (d.envs 1) w tx m = .ok true)

theorem value_of_combinedAmount {m : Money} (h : combinedAmount w tx input = .ok m) :
    m.value = w.sumConfirmedFillsForTx tx.id + input.amount.value := by
  obtain ⟨-, rfl⟩ := Money.add_eq_ok h
  rfl

theorem outcome_cumulativeAmount {m : Money} :
    outcome (cumulativeAmount tx input) envs w = .ok m ↔
      input.validate = .ok () ∧ (envs 0).fate = .done ∧ combinedAmount w tx input = .ok m := by
  constructor
  · intro h
    rcases hrun : engine.alone envs (cumulativeAmount tx input) 0 ⟨w, .idle⟩ with ⟨x, n, v⟩
    rw [outcome, hrun] at h
    cases h
    exact (alone_cumulativeAmount.mp hrun).2.2
  · intro h
    have hrun := alone_cumulativeAmount.mpr ⟨rfl, rfl, h⟩
    rw [outcome, hrun]

/-- What a call that does not recount compares is what has been seen. -/
theorem combined_of_not_recounts {d : Delivery} {m : Money} (h : OutputZero tx.id w)
    (hnot : ¬ Recounts tx w d) (hvalid : d.input.validate = .ok ())
      (hdone : (d.envs 0).fate = .done)
    (hm : combinedAmount w tx d.input = .ok m) : m.value = seenAmount w tx.id d.input := by
  rw [value_of_combinedAmount hm]
  by_cases hold : alreadyConfirmed w tx.id d.input
  · have hzero : d.input.amount.value = 0 := by
      by_contra hne
      exact hnot ⟨hold, hvalid, hdone, m, hm, .inl hne⟩
    rw [seenAmount_of_confirmed h hold]
    omega
  · rw [seenAmount_of_new h hold]

theorem idempotent_iff {d : Delivery} (h : OutputZero tx.id w) :
    s.Idempotent tx w d ↔ ¬ Recounts tx w d := by
  constructor
  · rintro hidem ⟨hold, hvalid, hdone, m, hm, hcounts⟩
    have hcompared := hidem.compared m (outcome_cumulativeAmount.mpr ⟨hvalid, hdone, hm⟩)
    rw [value_of_combinedAmount hm, seenAmount_of_confirmed h hold] at hcompared
    rcases hcounts with hne | hcross
    · omega
    · exact (hidem.repeated hold).1 (outcome_promotes.mpr ⟨hvalid, hdone, m, hm, hcross⟩)
  · intro hnot
    refine ⟨fun m hm => ?_, ?_, fun hold => ⟨fun hpromotes => ?_, ?_⟩⟩
    · obtain ⟨hvalid, hdone, hm⟩ := outcome_cumulativeAmount.mp hm
      exact combined_of_not_recounts h hnot hvalid hdone hm
    · rcases alone_processInbound s tx d.input d.envs w with hsame |
        ⟨m, b, n, hvalid, hdone, hm, -, hrest⟩
      · rw [after, hsame]
        exact fun r hr => .inr ⟨r, hr, rfl⟩
      · rw [after, hrest]
        cases b with
        | false =>
          intro r hr
          rw [if_neg (by simp), recordPartialFill_keeps_row] at hr
          exact .inr ⟨r, hr, rfl⟩
        | true =>
          rw [← combined_of_not_recounts h hnot hvalid hdone hm]
          exact promoteFromPartial_received m n tx.id
    · obtain ⟨hvalid, hdone, m, hm, hcross⟩ := outcome_promotes.mp hpromotes
      exact hnot ⟨hold, hvalid, hdone, m, hm, .inr hcross⟩
    · rcases alone_processInbound s tx d.input d.envs w with hsame |
        ⟨m, b, n, hvalid, hdone, hm, hcross, hrest⟩
      · rw [after, hsame]
      · cases b with
        | true => exact absurd ⟨hold, hvalid, hdone, m, hm, .inr hcross⟩ hnot
        | false =>
          rw [after, hrest, if_neg (by simp)]
          exact recordPartialFill_keeps_row n tx.id

theorem outputZero_after {id : Int} {d : Delivery} (h : OutputZero id w) :
    OutputZero id (s.after tx w d) := by
  refine (processInboundTransaction_writes.alone_keeps (J := OutputZero id)
    (fun q st env seen w' hst hw' => ?_) (fun q st w' _ hw' => ?_) d.envs
    (Engine.within_idle h)).world
  · intro key hkey hsome
    rcases World.fill_effect_cases st env seen w' key with hsame | ⟨p, rfl, rfl, -⟩ |
      ⟨p, r, rfl, rfl, -⟩ | ⟨rfl, -⟩
    · rw [hsame] at hsome
      exact hw' key hkey hsome
    · rw [hst.2.1]
    · rw [hst.2.1]
    · exact hst.elim
  · simpa only [OutputZero, lasting_fills] using hw'

/-- `P` holds of every delivery of the list in the world it finds. -/
def Throughout (s : Service) (tx : Transaction) (P : World → Delivery → Prop) :
    World → List Delivery → Prop
  | _, [] => True
  | w, d :: ds => P w d ∧ s.Throughout tx P (s.after tx w d) ds

/-- Inbound processing is idempotent along a list of deliveries exactly if none
of them recounts. -/
theorem inbound_idempotent_iff (s : Service) (tx : Transaction) (w : World) (ds : List Delivery)
    (h : OutputZero tx.id w) :
    s.Throughout tx (s.Idempotent tx) w ds ↔
      s.Throughout tx (fun w d => ¬ Recounts tx w d) w ds := by
  induction ds generalizing w with
  | nil => exact Iff.rfl
  | cons d ds ih =>
    have hrest := ih (s.after tx w d) (outputZero_after h)
    exact and_congr (idempotent_iff h) hrest

end Service

open Sample

/-- The invoice of the small deployment, as a watcher read it. -/
def unpaidInvoice : Transaction :=
  Service.transactionOf (invoice .pending none none none) ether none

def unpaid : World := Sample.world (invoice .pending none none none) .locked [] []

def transferOf (hash : String) (amount : Int) : Input :=
  ⟨ether, Money.crypto "ETH" amount 0, "payer", hash, "1"⟩

def delivery (hash : String) (amount : Int) : Delivery := ⟨transferOf hash amount, fun _ => {}⟩

theorem outputZero_unpaid : OutputZero 1 unpaid := by
  intro key _ hsome
  simp [unpaid, Sample.world, noMoney, Table.get, Table.empty] at hsome

/-- Sixty, and then another forty. -/
theorem inbound_idempotent_iff_sample :
    service.Throughout unpaidInvoice (service.Idempotent unpaidInvoice) unpaid
        [delivery "0xa" 60, delivery "0xb" 40] ↔
      service.Throughout unpaidInvoice (fun w d => ¬ Service.Recounts unpaidInvoice w d) unpaid
        [delivery "0xa" 60, delivery "0xb" 40] :=
  Service.inbound_idempotent_iff service unpaidInvoice unpaid _ outputZero_unpaid

/-- Sixty of a hundred, delivered twice: the second delivery promotes. -/
theorem inbound_counts_a_transfer_twice :
    ¬ ∀ (s : Service) (tx : Transaction) (w : World) (ds : List Delivery), OutputZero tx.id w →
      s.Throughout tx (s.Idempotent tx) w ds := by
  intro h
  obtain ⟨-, hsecond, -⟩ := h service unpaidInvoice unpaid
    [delivery "0xa" 60, delivery "0xa" 60] outputZero_unpaid
  have hcompared := hsecond.compared (Money.crypto "ETH" 120 0) (by rfl)
  revert hcompared
  decide +kernel

end CryptoLink
