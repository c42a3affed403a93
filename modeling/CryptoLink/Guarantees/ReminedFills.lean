import CryptoLink.Guarantees.Deposits
import CryptoLink.Guarantees.Recheck

/-!
# A reorged fill that is mined again

The insert of a fill would restore a reorged row, but the deduplication in front
of it asks for fills of any status. It is reached only when that query fails.
-/

namespace CryptoLink

open ReadCommitted StatementPrograms KeyedTables

/-- The fill is among the confirmed ones, with the amount of `f`. -/
def Counted (w : World) (f : FillRow) : Prop :=
  ∃ f' ∈ w.fillsOf f.key.transactionID, f'.key = f.key ∧ f'.status = .confirmed ∧
    f'.amount = f.amount

/-- A reorged fill of a pending invoice, whose transaction a scanner hands on
again at the address of the invoice. -/
structure Reobserves (w : World) (d : DetectedTransfer) (f : FillRow) : Prop where
  stored : f ∈ w.fills.rows
  reorged : f.status = .reorged
  network : d.networkID = f.key.networkID
  hash : d.txHash = f.key.transactionHash
  invoice : ∃ row, w.transactions.get f.key.transactionID = some row ∧ row.status = .pending ∧
    lower row.recipientAddress = lower d.recipient
  matched : d.pendingTx.isSome

inductive FillEvent where
  | detection (d : DetectedTransfer) (envs : ℕ → Env)
  | recheck (envs : ℕ → Env)
  | other (change : World → World)

/-- The invoice of a matched detection and what is handed on with it. -/
def DetectedTransfer.matchedInput (d : DetectedTransfer) : Option (Transaction × Input) :=
  match d.target with
  | .unmatched .. => none
  | .invoice tx amount currency networkID => some (tx, {
      currency := currency
      amount := amount
      senderAddress := d.senderAddress
      transactionID := d.txHash
      networkID := networkID })

namespace Service

variable (s : Service)

def fillStep (w : World) : FillEvent → World
  | .detection d envs => worldAfter (s.dedupOnDetected d) envs w
  | .recheck envs => s.afterRecheck w envs
  | .other change => change w

/-- `P` holds of every detection of the run in the world it finds. -/
def EachDetection (P : World → DetectedTransfer → (ℕ → Env) → Prop) : World → List FillEvent → Prop
  | _, [] => True
  | w, e :: rest => (∀ d envs, e = .detection d envs → P w d envs) ∧
      EachDetection P (s.fillStep w e) rest

/-- The step at which a promotion records its fill, if the status before it is
determined. -/
def promotionRecords (tx : Transaction) (combined : Money) (envs : ℕ → Env) (w : World) (n : ℕ) :
    Option ℕ :=
  if combined.greaterThan tx.amount || combined.equals tx.amount then some n
  else match crosses (envs n) w tx combined with
    | .error _ => none
    | .ok _ => some (n + priceSteps tx combined)

/-- The step at which `ProcessInboundTransaction`, run from step 2 on, records the
transfer; none if it returns before that. -/
def recordStep (tx : Transaction) (input : Input) (envs : ℕ → Env) (w : World) : Option ℕ :=
  if input.validate = .ok () ∧ (envs 2).fate = .done then
    match combinedAmount w tx input with
    | .error _ => none
    | .ok combined =>
      match crosses (envs 3) w tx combined with
      | .error _ => none
      | .ok true => promotionRecords tx combined envs w (3 + priceSteps tx combined)
      | .ok false => some (3 + priceSteps tx combined)
  else none

/-- No transaction is found for the hash, the query for fills fails, and the
transfer, matched to the invoice of `f` again, gets as far as its insert. -/
def LetThrough (w : World) (d : DetectedTransfer) (envs : ℕ → Env) (f : FillRow) : Prop :=
  (s.toTransaction (engine.reply (.getTransactionByHashNetworkAndRecipient
      (stringToNullable d.txHash) (stringToNullable d.networkID) d.recipient) (envs 0) w)).isOk =
    false ∧
  (envs 1).fate ≠ .done ∧
  ∃ tx input n, d.matchedInput = some (tx, input) ∧
    f.key = ⟨tx.id, input.networkID, input.transactionID, 0⟩ ∧ f.confirmations ≤ 1 ∧
    recordStep tx input envs w = some n ∧ (envs (n + 1)).fate ≠ .refused ∧
    w.fillFits (fillParams tx input (envs n).clock) = true

variable {s} {tx : Transaction} {input : Input} {envs : ℕ → Env} {w : World}

theorem alone_keeps_fills {α : Type} {p : Call α}
    (hp : OnlyWrites (fun _ st => st.changes ≠ some .fills) p) (n : ℕ) :
    (engine.alone envs p n ⟨w, .idle⟩).2.2.world.fills = w.fills := by
  refine (hp.alone_keeps (J := fun w' => w'.fills = w.fills) ?_ ?_ envs
    (Engine.within_idle rfl)).world
  · intro q st env seen w' hst hw'
    rw [World.effect_fills hst]
    exact hw'
  · intro q st w' _ hw'
    rw [lasting_fills]
    exact hw'

theorem writesNoFills_of_settle {α : Type} {combined : Money} {p : Call α}
    (hp : OnlyWrites (settleWrites tx combined) p) :
    OnlyWrites (fun _ st => st.changes ≠ some .fills) p := by
  refine hp.mono fun q st hst hchanges => ?_
  cases st <;> simp only [settleWrites] at hst <;> cases hchanges

/-- Nothing after the insert of a fill touches the fills. -/
theorem fills_after_record {α : Type} {f : Fill → Call α} (rename : Err → Err)
    (hf : ∀ a, OnlyWrites (fun _ st => st.changes ≠ some .fills) (f a))
    (hcompatible : tx.amount.compatibleTo input.amount = true) (n : ℕ) :
    (engine.alone envs (((recordInput tx input).mapError rename).bind f) n
      ⟨w, .idle⟩).2.2.world.fills =
      (engine.autocommit (.insertTransactionFill (fillParams tx input (envs n).clock))
        (envs (n + 1)) w).fills := by
  have hview : (engine.alone envs (recordInput tx input) n ⟨w, .idle⟩).2.2 = _ :=
    alone_recordInput_view hcompatible n .idle
  rw [Engine.alone_bind, Engine.alone_mapError]
  rcases hrun : engine.alone envs (recordInput tx input) n ⟨w, .idle⟩ with ⟨result, m, v⟩
  rw [hrun] at hview
  obtain rfl : v = _ := hview
  cases result with
  | error e => rfl
  | ok a => exact alone_keeps_fills (hf a) m

theorem fills_after_partial (hcompatible : tx.amount.compatibleTo input.amount = true) (n : ℕ) :
    (engine.alone envs (recordPartialFill tx input) n ⟨w, .idle⟩).2.2.world.fills =
      (engine.autocommit (.insertTransactionFill (fillParams tx input (envs n).clock))
        (envs (n + 1)) w).fills :=
  fills_after_record _ (fun _ => writesNoFills_of_settle (@recordPartialFill_rest tx
    (Money.crypto "" 0 0))) hcompatible n

/-- The status of a promotion, and the step after it. -/
theorem alone_determineStatus (tx : Transaction) (combined : Money) (envs : ℕ → Env) (w : World)
    (n : ℕ) :
    match promotionRecords tx combined envs w n with
    | none => ∃ e k, engine.alone envs (determineIncomingStatusFromCombined tx combined) n
        ⟨w, .idle⟩ = (.error e, k, ⟨w, .idle⟩)
    | some k => ∃ determined, engine.alone envs (determineIncomingStatusFromCombined tx combined) n
        ⟨w, .idle⟩ = (.ok determined, k, ⟨w, .idle⟩) := by
  unfold promotionRecords determineIncomingStatusFromCombined
  by_cases hgreater : combined.greaterThan tx.amount = true
  · simp only [hgreater, if_true, Bool.true_or]
    exact ⟨_, rfl⟩
  · by_cases hequal : combined.equals tx.amount = true
    · simp only [hgreater, hequal, if_true, Bool.or_true, Bool.false_eq_true, if_false]
      exact ⟨_, rfl⟩
    · -- below the expected amount the tolerance is asked for once more
      have hcross := alone_crossesExpected tx envs w combined n
      simp only [hgreater, hequal, Bool.false_eq_true, if_false, Bool.or_self, Prog.bind_eq,
        Engine.alone_bind, hcross]
      cases hanswer : crosses (envs n) w tx combined with
      | error e => exact ⟨_, _, rfl⟩
      | ok b =>
        cases b with
        | true => exact ⟨_, rfl⟩
        | false => exact ⟨_, rfl⟩

/-- A promotion that can tell its status records its fill. -/
theorem fills_after_promotion {combined : Money}
    (hcompatible : tx.amount.compatibleTo input.amount = true) (n : ℕ) :
    (engine.alone envs (s.promoteFromPartial tx input combined) n ⟨w, .idle⟩).2.2.world.fills =
      match promotionRecords tx combined envs w n with
      | none => w.fills
      | some k => (engine.autocommit (.insertTransactionFill (fillParams tx input (envs k).clock))
          (envs (k + 1)) w).fills := by
  have hstatus := alone_determineStatus tx combined envs w n
  unfold promoteFromPartial
  rw [Prog.bind_eq, Engine.alone_bind]
  cases hrecords : promotionRecords tx combined envs w n with
  | none =>
    rw [hrecords] at hstatus
    obtain ⟨e, k, hrun⟩ := hstatus
    rw [hrun]
  | some k =>
    rw [hrecords] at hstatus
    obtain ⟨determined, hrun⟩ := hstatus
    rw [hrun]
    exact fills_after_record _ (fun _ =>
      writesNoFills_of_settle (promoteFromPartial_rest combined input determined)) hcompatible k

theorem compatible_of_combined {combined : Money} (h : combinedAmount w tx input = .ok combined) :
    tx.amount.compatibleTo input.amount = true := by
  obtain ⟨hsame, -⟩ := Money.add_eq_ok h
  exact hsame

/-- What a call from step 2 on leaves of the fills. -/
theorem fills_after_inbound :
    (engine.alone envs (s.processInboundTransaction tx input) 2 ⟨w, .idle⟩).2.2.world.fills =
      match recordStep tx input envs w with
      | none => w.fills
      | some n => (engine.autocommit (.insertTransactionFill (fillParams tx input (envs n).clock))
          (envs (n + 1)) w).fills := by
  have hsum : engine.reply (.sumConfirmedFillsForTx tx.id) (envs 2) w =
      answered (envs 2).fate .database (.ok (w.sumConfirmedFillsForTx tx.id)) := rfl
  rw [processInboundTransaction_eq]
  unfold cumulativeAmount recordStep
  simp only [Prog.bind_eq, succeed, Engine.alone_bind, Engine.alone_ofExcept,
    Engine.alone_mapError, sumConfirmedFills]
  cases hvalid : input.validate with
  | error e => simp
  | ok u =>
    simp only [alone_read (.sumConfirmedFillsForTx tx.id) rfl, hsum, answered]
    by_cases hdone : (envs 2).fate = .done
    · simp only [hdone, if_true, wrapErr_ok, Prog.pure_eq, Engine.alone_ret, Except.mapError,
        and_self]
      cases hcombined : combinedAmount w tx input with
      | error e =>
        have hadd : (numericToCrypto (w.sumConfirmedFillsForTx tx.id) tx.amount).add input.amount =
            .error e := hcombined
        simp [hadd, wrapErr, Except.mapError]
      | ok combined =>
        have hadd : (numericToCrypto (w.sumConfirmedFillsForTx tx.id) tx.amount).add input.amount =
            .ok combined := hcombined
        have hcompatible := compatible_of_combined hcombined
        simp only [hadd, wrapErr_ok, alone_crossesExpected]
        cases hcross : crosses (envs 3) w tx combined with
        | error e => rfl
        | ok b =>
          cases b with
          | true => exact fills_after_promotion hcompatible _
          | false => exact fills_after_partial hcompatible _
    · simp [hdone, Except.mapError]

theorem fillExists_of_reobserves {d : DetectedTransfer} {f : FillRow} (h : Reobserves w d f) :
    w.fillExistsByHashAndRecipient d.networkID d.txHash d.recipient = true := by
  obtain ⟨row, hrow, -, haddress⟩ := h.invoice
  refine List.any_eq_true.mpr ⟨f, h.stored, ?_⟩
  simp [h.network, h.hash, hrow, haddress]

theorem onDetected_of_matched {d : DetectedTransfer} (h : d.matchedInput = some (tx, input)) :
    s.onDetected d = s.processInboundTransaction tx input := by
  unfold DetectedTransfer.matchedInput at h
  unfold onDetected
  cases htarget : d.target with
  | unmatched blockchain isTest isNative tokenContract rawAmount =>
    rw [htarget] at h
    cases h
  | invoice tx' amount currency networkID =>
    rw [htarget] at h
    obtain ⟨rfl, rfl⟩ := Prod.mk.inj (Option.some.inj h)
    rfl

theorem matchedInput_isSome {d : DetectedTransfer} (h : d.pendingTx.isSome) :
    ∃ tx input, d.matchedInput = some (tx, input) := by
  unfold DetectedTransfer.matchedInput
  unfold DetectedTransfer.pendingTx at h
  cases htarget : d.target with
  | unmatched blockchain isTest isNative tokenContract rawAmount =>
    rw [htarget] at h
    cases h
  | invoice tx amount currency networkID => exact ⟨_, _, rfl⟩

theorem counted_iff {w' : World} {f : FillRow} :
    Counted w' f ↔ ∃ f', w'.fills.get f.key = some f' ∧ f'.status = .confirmed ∧
      f'.amount = f.amount := by
  constructor
  · rintro ⟨f', hmem, hkey, hrest⟩
    have hget := Table.get_of_mem (List.mem_filter.mp hmem).1
    rw [hkey] at hget
    exact ⟨f', hget, hrest⟩
  · rintro ⟨f', hget, hrest⟩
    obtain ⟨hmem, hkey⟩ := Table.get_eq_some hget
    refine ⟨f', List.mem_filter.mpr ⟨hmem, ?_⟩, hkey, hrest⟩
    exact decide_eq_true (congrArg FillKey.transactionID hkey)

/-- A counted fill is a summand of the confirmed sum. -/
theorem sum_of_counted {w' : World} {f : FillRow} (h : Counted w' f) :
    ∃ others : List FillRow, w'.sumConfirmedFillsForTx f.key.transactionID =
      f.amount + (others.map FillRow.amount).sum := by
  obtain ⟨f', hmem, -, hstatus, hamount⟩ := h
  have hconfirmed : f' ∈ (w'.fillsOf f.key.transactionID).filter
      fun f => f.status = .confirmed :=
    List.mem_filter.mpr ⟨hmem, decide_eq_true hstatus⟩
  obtain ⟨front, back, hsplit⟩ := List.append_of_mem hconfirmed
  refine ⟨front ++ back, ?_⟩
  rw [World.sumConfirmedFillsForTx, hsplit]
  simp only [List.map_append, List.map_cons, List.sum_append, List.sum_cons, hamount]
  omega

theorem not_counted_of_same {w' : World} {f : FillRow} (hstored : w.fills.get f.key = some f)
    (hreorged : f.status = .reorged) (hsame : w'.fills = w.fills) : ¬ Counted w' f := by
  intro hcounted
  obtain ⟨f', hget, hconfirmed, -⟩ := counted_iff.mp hcounted
  rw [hsame, hstored] at hget
  rw [← Option.some.inj hget, hreorged] at hconfirmed
  cases hconfirmed

/-- An insert restores a reorged row of its key: it is not refused, its columns fit,
and the row did not have more confirmations. -/
theorem counted_after_insert {w' : World} {f : FillRow}
    {p : InsertTransactionFillParams} {env : Env}
    (hstored : w.fills.get f.key = some f) (hreorged : f.status = .reorged)
    (hstatus : p.status = .confirmed)
    (hfills : w'.fills = (engine.autocommit (.insertTransactionFill p) env w).fills) :
    Counted w' f ↔ f.key = p.key ∧ f.confirmations ≤ p.confirmations ∧ env.fate ≠ .refused ∧
      w.fillFits p = true := by
  have hlasting : engine.lasting (.insertTransactionFill p) env w = w := by
    rw [engine_lasting]
    split
    · rfl
    · rfl
  have hinsert : w'.fills = if env.fate = .refused then w.fills
      else (World.effect (.insertTransactionFill p) env w w).fills := by
    rw [hfills, Engine.autocommit, hlasting, engine_effect]
    split
    · rfl
    · rfl
  by_cases hrefused : env.fate = .refused
  · rw [if_pos hrefused] at hinsert
    constructor
    · intro hcounted
      exact absurd hcounted (not_counted_of_same hstored hreorged hinsert)
    · rintro ⟨-, -, hran, -⟩
      exact absurd hrefused hran
  · rw [if_neg hrefused] at hinsert
    rw [counted_iff, hinsert]
    constructor
    · rintro ⟨f', hget, hconfirmed, -⟩
      rcases World.fill_effect_cases (.insertTransactionFill p) env w w f.key with hsame |
        ⟨p', hp', -, -, hnone, -⟩ | ⟨p', r, hp', hkey, hfits, hr, hnew⟩ | ⟨hp', -, -⟩
      · rw [hsame, hstored] at hget
        rw [← Option.some.inj hget, hreorged] at hconfirmed
        cases hconfirmed
      · rw [hstored] at hnone
        cases hnone
      · cases hp'
        obtain rfl := Option.some.inj (hstored.symm.trans hr)
        rw [hnew] at hget
        rw [← Option.some.inj hget] at hconfirmed
        refine ⟨hkey.symm, ?_, hrefused, hfits⟩
        by_contra hmore
        simp only [World.conflictingFill, hmore, false_and, if_false, hreorged] at hconfirmed
        cases hconfirmed
      · cases hp'
    · rintro ⟨hkey, hdeep, -, hfits⟩
      rw [hkey] at hstored ⊢
      refine ⟨World.conflictingFill p env.clock f, ?_, ?_, rfl⟩
      · simp only [World.effect, hfits, if_true, hstored]
        exact (Table.get_modify_self _ _ _ _).trans (by rw [hstored]; rfl)
      · simp only [World.conflictingFill, hdeep, hstatus, and_self, if_true]

/-- One re-observation: the fill counts again exactly if it is let through. -/
theorem counted_iff_letThrough {d : DetectedTransfer} {f : FillRow} (h : Reobserves w d f) :
    Counted (worldAfter (s.dedupOnDetected d) envs w) f ↔ s.LetThrough w d envs f := by
  have hstored : w.fills.get f.key = some f := Table.get_of_mem h.stored
  have hexists := fillExists_of_reobserves h
  obtain ⟨tx, input, hinput⟩ := matchedInput_isSome h.matched
  unfold worldAfter LetThrough
  rw [alone_dedupOnDetected_eq]
  cases hbound : (s.toTransaction (engine.reply (.getTransactionByHashNetworkAndRecipient
      (stringToNullable d.txHash) (stringToNullable d.networkID) d.recipient) (envs 0) w)).isOk with
  | true =>
    simp only [if_true]
    constructor
    · intro hcounted
      exact absurd hcounted (not_counted_of_same hstored h.reorged rfl)
    · rintro ⟨hnone, -⟩
      cases hnone
  | false =>
    by_cases hanswered : (envs 1).fate = .done
    · simp only [hanswered, hexists, and_self, if_true, Bool.false_eq_true, if_false]
      constructor
      · intro hcounted
        exact absurd hcounted (not_counted_of_same hstored h.reorged rfl)
      · rintro ⟨-, hfailed, -⟩
        exact absurd rfl hfailed
    · have hfills : (engine.alone envs (s.processInboundTransaction tx input) 2
          ⟨w, .idle⟩).2.2.world.fills = _ := fills_after_inbound
      rw [← onDetected_of_matched hinput] at hfills
      simp only [hanswered, false_and, if_false, Bool.false_eq_true, ne_eq, not_false_eq_true,
        true_and]
      cases hstep : recordStep tx input envs w with
      | none =>
        rw [hstep] at hfills
        constructor
        · intro hcounted
          exact absurd hcounted (not_counted_of_same hstored h.reorged hfills)
        · rintro ⟨tx', input', n, hinput', -, -, hrecorded, -⟩
          obtain ⟨rfl, rfl⟩ := Prod.mk.inj (Option.some.inj (hinput.symm.trans hinput'))
          rw [hstep] at hrecorded
          cases hrecorded
      | some n =>
        rw [hstep] at hfills
        rw [counted_after_insert hstored h.reorged rfl hfills]
        constructor
        · rintro ⟨hkey, hdeep, hran, hfits⟩
          exact ⟨tx, input, n, hinput, hkey, hdeep, hstep, hran, hfits⟩
        · rintro ⟨tx', input', n', hinput', hkey, hdeep, hrecorded, hran, hfits⟩
          obtain ⟨rfl, rfl⟩ := Prod.mk.inj (Option.some.inj (hinput.symm.trans hinput'))
          obtain rfl := Option.some.inj (hstep.symm.trans hrecorded)
          exact ⟨hkey, hdeep, hran, hfits⟩

/-- For every run of detections, rechecks and whatever comes between them: each
time the transaction of a reorged fill is handed on again, the fill counts again
exactly if it is let through. -/
theorem remined_fill_counts_iff (s : Service) (w : World) (events : List FillEvent) :
    s.EachDetection (fun w d envs => ∀ f, Reobserves w d f →
      (Counted (worldAfter (s.dedupOnDetected d) envs w) f ↔ s.LetThrough w d envs f))
        w events := by
  induction events generalizing w with
  | nil => exact trivial
  | cons e rest ih =>
    refine ⟨?_, ih _⟩
    rintro d envs - f h
    exact counted_iff_letThrough h

end Service

open Sample

namespace Sample

/-- The fill of `partlyPaid`, found once more by a scan of its address. -/
def foundAgain : DetectedTransfer :=
  invoiceDetection false ⟨Service.transactionOf (invoice .pending none none none) ether none, none,
    none⟩ "0xa" "payer" "collector" 60

/-- The transaction drops out of the chain, the recheck notices, and the
transaction is mined again. -/
def reorgAndBack : List FillEvent :=
  [.other fun w => { w with chain := [] }, .recheck fun _ => { clock := World.hour },
    .other fun w => { w with chain := [mined "0xa" 60 true] }, .detection foundAgain fun _ => {}]

/-- The database when the transfer is found again. -/
def afterReorg : World := (reorgAndBack.take 3).foldl service.fillStep partlyPaid

def lostFill : FillRow := { fill "0xa" 60 0 .confirmed with status := .reorged }

end Sample

/-- With everything answered, the fill of sixty does not come back. -/
theorem remined_fill_is_lost :
    ¬ ∀ (s : Service) (w : World) (events : List FillEvent),
      s.EachDetection (fun w d envs => ∀ f, Reobserves w d f →
        Counted (worldAfter (s.dedupOnDetected d) envs w) f) w events := by
  intro h
  have hrows : afterReorg.fills.rows = [lostFill] := by decide +kernel
  have hobserved : Reobserves afterReorg foundAgain lostFill := by
    refine ⟨?_, rfl, rfl, rfl, ⟨invoice .pending none none none, ?_, rfl, rfl⟩, rfl⟩
    · rw [hrows]
      exact List.mem_singleton.mpr rfl
    · decide +kernel
  have hcounted : Counted (worldAfter (service.dedupOnDetected foundAgain) (fun _ => {})
      afterReorg) lostFill :=
    (h service partlyPaid reorgAndBack).2.2.2.1 foundAgain (fun _ => {}) rfl lostFill hobserved
  obtain ⟨f, hmem, -, hconfirmed, -⟩ := hcounted
  have hafter : (worldAfter (service.dedupOnDetected foundAgain) (fun _ => {})
      afterReorg).fills.rows = [lostFill] := by decide +kernel
  have hrow := (List.mem_filter.mp hmem).1
  rw [hafter] at hrow
  rw [List.mem_singleton.mp hrow] at hconfirmed
  cases hconfirmed

end CryptoLink
