import CryptoLink.Atomic
import CryptoLink.Guarantees.BestMatch
import CryptoLink.Guarantees.DisplayedAmounts
import CryptoLink.Guarantees.Idempotence
import CryptoLink.Library.Landings
import CryptoLink.Processing.PaymentPage
import CryptoLink.Repository.Replies
import CryptoLink.Watcher.Polling

/-!
# Paying the displayed remainder

The page shows what is left of a partly paid invoice rounded down. What is lost
by that is less than one displayed unit: too little for the matcher to take the
payment for dust, and covered by the tolerance of the promotion.
-/

namespace CryptoLink

open ReadCommitted StatementPrograms DecimalText System

/-- No fill is only observed. -/
def FillsSettled (w : World) : Prop :=
  ∀ f ∈ w.fills.rows, f.status ≠ .observed

instance (w : World) : Decidable (FillsSettled w) :=
  inferInstanceAs (Decidable (∀ f ∈ w.fills.rows, f.status ≠ .observed))

/-- A fill is written as confirmed. -/
def confirmedWrites : Stmt → Prop
  | .insertTransactionFill p => p.status = .confirmed
  | _ => True

theorem confirmedWrites_of_changes {st : Stmt} (h : st.changes ≠ some .fills) :
    confirmedWrites st := by
  cases st <;> first | exact trivial | exact absurd rfl h

theorem confirmedWrites_of_inbound {q : Conn} {st : Stmt} (h : Service.anyInboundWrites q st) :
    confirmedWrites st := by
  obtain ⟨tx, input, h⟩ := h
  cases st <;> first | exact trivial | exact h.2.2.2

theorem confirmedWrites_of_crossCurrency {q : Conn} {st : Stmt}
    (h : Service.crossCurrencyWrites q st) :
    confirmedWrites st := by
  rcases h with h | h
  · cases st <;> first | exact trivial | exact h.elim
  · exact confirmedWrites_of_inbound h

theorem issues_of_confirmed {α : Type} {p : Call α}
    (hp : OnlyWrites (fun _ st => confirmedWrites st) p) :
    Issues (fun c => ∀ q st, c = Cmd.stmt q st → confirmedWrites st) p := by
  refine Issues.mono ?_ hp
  intro c hc q st he
  by_cases hread : st.changes = none
  · apply confirmedWrites_of_changes
    rw [hread]
    intro h
    cases h
  · exact hc q st he hread

theorem fillsSettled_effect {st : Stmt} (hst : confirmedWrites st) (env : Env) (seen : World)
    {w : World} (h : FillsSettled w) : FillsSettled (World.effect st env seen w) := by
  intro f hf
  have hget := KeyedTables.Table.get_of_mem hf
  have hold : ∀ r, w.fills.get f.key = some r → r.status ≠ .observed := fun r hr =>
    h r (KeyedTables.Table.get_eq_some hr).1
  rcases World.fill_effect_cases st env seen w f.key with hsame | ⟨p, rfl, -, -, -, hnew⟩ |
    ⟨p, r, rfl, -, -, hr, hnew⟩ | ⟨rfl, -, hnew⟩
  · exact hold f (hsame.symm.trans hget)
  · obtain rfl : f = World.newFill p := Option.some.inj (hget.symm.trans hnew)
    have hp : p.status = .confirmed := hst
    show p.status ≠ .observed
    rw [hp]
    intro h
    cases h
  · obtain rfl : f = World.conflictingFill p env.clock r := Option.some.inj (hget.symm.trans hnew)
    have hr' := hold r hr
    simp only [World.conflictingFill]
    split
    · intro h
      cases h
    · exact hr'
  · obtain ⟨r, -, rfl⟩ := Option.map_eq_some_iff.mp (hnew.symm.trans hget)
    intro h
    cases h

namespace Service

variable {s : Service}

theorem program_confirms (op : Operation) :
    OnlyWrites (fun _ st => confirmedWrites st) (s.program op) := by
  cases op with
  | receive m id params => exact .discard (receive_writes fun _ _ _ => trivial)
  | confirm m id params =>
    exact .discard (confirm_writes (fun _ _ _ => trivial) fun _ =>
      ⟨⟨fun _ => trivial, fun _ => trivial⟩, fun _ _ _ _ _ _ _ => trivial⟩)
  | cancel tx status reason => exact cancel_writes fun _ _ _ => trivial
  | processInbound tx input =>
    exact processInboundTransaction_writes_any.mono fun _ _ => confirmedWrites_of_inbound
  | adminReconcileFill id hash raw sender =>
    exact adminReconcileFill_writes.mono fun _ _ => confirmedWrites_of_inbound
  | checkIncoming id =>
    refine checkIncomingTransaction_writes.mono fun _ st h => ?_
    rcases h with h | h
    · cases st <;> first | exact trivial | exact h.elim
    · cases st <;> first | exact trivial | exact h.elim
  | expirePayment id =>
    refine expirePayment_writes.mono fun _ st h => ?_
    cases st <;> first | exact trivial | exact h.elim
  | recheckPartialFills =>
    refine recheckPartialFills_writes.mono fun _ st h => ?_
    cases st <;> first | exact trivial | exact h.elim
  | lockPaymentOptions m id => exact lockPaymentOptions_writes fun _ _ _ _ => trivial
  | setPaymentMethod p ticker =>
    exact .discard (setPaymentMethod_writes.mono
      fun _ _ h => confirmedWrites_of_crossCurrency (.inl h))
  | changePaymentMethod p fee tx currency =>
    exact .discard (changePaymentMethod_writes.mono
      fun _ _ h => confirmedWrites_of_crossCurrency (.inl h))
  | resolvePayment m id =>
    exact .discard (resolvePayment_writes (fun _ _ _ => trivial)
      ⟨fun _ => trivial, fun _ => trivial⟩ ⟨fun _ => trivial, fun _ => trivial⟩
      fun _ _ _ _ => trivial)
  | declinePayment m id => exact .discard (declinePayment_writes fun _ _ _ => trivial)
  | receiveWebhook n wallet body signature wh =>
    exact receiveWebhook_writes.mono fun _ _ => confirmedWrites_of_inbound
  | detected d => exact dedupOnDetected_writes.mono fun _ _ => confirmedWrites_of_crossCurrency
  | autoAcceptCrossCurrency inv currency amount n p =>
    exact autoAcceptCrossCurrency_writes.mono fun _ _ => confirmedWrites_of_crossCurrency

theorem fills_keeper (s : Service) :
    Keeper s.system confirmedWrites (fun _ _ => True)
      (fun w w' => FillsSettled w → FillsSettled w') where
  refl _ h := h
  trans h h' hw := h' (h hw)
  program op := issues_of_confirmed (program_confirms op)
  effect e w hst _ := by
    show FillsSettled w → FillsSettled (engine.effect e.stmt e.env e.seen w)
    rw [engine_effect]
    split
    · exact id
    · exact fillsSettled_effect hst e.env e.seen
  lasting st env w _ := by
    show FillsSettled w → FillsSettled (engine.lasting st env w)
    rw [engine_lasting]
    split
    · exact id
    · intro h f hf
      rw [lasting_fills] at hf
      exact h f hf
  move m w h f hf := by
    rw [show (s.system.move m w).fills = w.fills from m.apply_fills w] at hf
    exact h f hf

/-- In every run: whatever fills there are, are confirmed or reorged. -/
theorem fillsSettled_run {w : World} (h : FillsSettled w) (es : Run) :
    FillsSettled (s.system.run ⟨w, []⟩ es).world :=
  ((fills_keeper s).run_always (issued_of_no_threads confirmedWrites w) es).2 h

end Service

/-- Then what the page counts as received is what is confirmed. -/
theorem sumAllFills_of_settled {w : World} (h : FillsSettled w) (id : Int) :
    w.sumAllFillsForTx id = w.sumConfirmedFillsForTx id := by
  unfold World.sumAllFillsForTx World.sumConfirmedFillsForTx
  congr 2
  refine List.filter_congr fun f hf => ?_
  have hf' := h f (List.mem_of_mem_filter hf)
  cases hs : f.status with
  | observed => exact absurd hs hf'
  | confirmed => rfl
  | reorged => rfl

/-- The amount of an invoice is an amount of its currency. -/
structure Denominated (tx : Transaction) : Prop where
  amount : tx.amount = tx.currency.makeAmountFromBigInt tx.amount.value
  decimals : 0 ≤ tx.currency.decimals

def CryptoCurrency.displayUnit (c : CryptoCurrency) : Int :=
  10 ^ (c.decimals - c.maxDisplayDecimals).toNat

/-- What is not confirmed yet. -/
def World.unpaid (w : World) (tx : Transaction) : Int :=
  tx.amount.value - w.sumConfirmedFillsForTx tx.id

/-- The same as it is displayed. -/
def World.remainder (w : World) (tx : Transaction) : Money :=
  (tx.currency.makeAmountFromBigInt (w.unpaid tx)).truncateDecimals tx.currency.maxDisplayDecimals

theorem displayUnit_pos (c : CryptoCurrency) : 0 < c.displayUnit := by
  unfold CryptoCurrency.displayUnit
  positivity

/-- Rounding down takes off less than a unit. -/
theorem truncateDecimals_near (c : CryptoCurrency) (x : Int) :
    ∃ q, (c.makeAmountFromBigInt x).truncateDecimals c.maxDisplayDecimals =
        c.makeAmountFromBigInt q ∧ q ≤ x ∧ x < q + c.displayUnit ∧
      (c.displayUnit ≤ x → c.displayUnit ≤ q) := by
  have hpos := displayUnit_pos c
  unfold Money.truncateDecimals
  split
  · exact ⟨x, rfl, le_rfl, by omega, id⟩
  · refine ⟨x / c.displayUnit * c.displayUnit, rfl, ?_, ?_, ?_⟩
    · exact Int.ediv_mul_le x hpos.ne'
    · have hdivide := Int.mul_ediv_add_emod x c.displayUnit
      have hbelow := Int.emod_lt_of_pos x hpos
      rw [Int.mul_comm (x / c.displayUnit)]
      omega
    · intro hle
      have hone : 1 ≤ x / c.displayUnit := (Int.le_ediv_iff_mul_le hpos).mpr (by omega)
      calc c.displayUnit = 1 * c.displayUnit := (Int.one_mul _).symm
        _ ≤ x / c.displayUnit * c.displayUnit := Int.mul_le_mul_of_nonneg_right hone hpos.le

section

variable {w : World} {tx : Transaction}

/-- At least a unit is left: the remainder is something, no more than what is
left and less than a unit short of it. -/
theorem remainder_near (hleft : tx.currency.displayUnit ≤ w.unpaid tx) :
    ∃ q, w.remainder tx = tx.currency.makeAmountFromBigInt q ∧ 0 < q ∧ q ≤ w.unpaid tx ∧
      w.unpaid tx - q ≤ tx.currency.displayUnit - 1 ∧ w.unpaid tx < 2 * q := by
  have hpos := displayUnit_pos tx.currency
  obtain ⟨q, hq, hle, hnear, hunit⟩ := truncateDecimals_near tx.currency (w.unpaid tx)
  have hlarge := hunit hleft
  exact ⟨q, hq, by omega, hle, by omega, by omega⟩

theorem effectiveExpected_unpaid (hleft : 0 < w.unpaid tx) :
    (pendingInfo (confirmedFillSums w) tx).effectiveExpected = w.unpaid tx := by
  unfold World.unpaid at hleft ⊢
  unfold pendingInfo computeRemaining confirmedFillSums PendingInfo.effectiveExpected
  by_cases hzero : w.sumConfirmedFillsForTx tx.id = 0
  · simp only [hzero, if_true]
    omega
  · have hnot : ¬ tx.amount.value - w.sumConfirmedFillsForTx tx.id ≤ 0 := by omega
    simp only [hzero, if_false, hnot, hleft, if_true]

/-- Alone at its address, the invoice takes what is more than half of what it
expects. -/
theorem bestMatchByAmount_alone {info : PendingInfo} {amount : Int}
    (hexpected : info.effectiveExpected < 2 * amount) :
    bestMatchByAmount [info] amount = some (0, info, true) := by
  obtain ⟨i, p, fits, hbest⟩ := bestMatchByAmount_isSome amount
    (List.cons_ne_nil info [])
  obtain ⟨-, hp, hfits⟩ := bestMatchByAmount_eq_some hbest
  obtain ⟨hi, hmem⟩ := List.getElem?_eq_some_iff.mp hp
  obtain rfl : i = 0 := by
    rw [List.length_singleton] at hi
    omega
  obtain rfl : info = p := hmem
  have hdust : isDust amount info.effectiveExpected = false := by
    unfold isDust dustThresholdBps
    simp only [Bool.and_eq_false_iff, decide_eq_false_iff_not]
    omega
  rw [hbest, hfits, hdust]
  rfl

end

/-- What stands behind the last `=` of a link. -/
def amountText (link : String) : String :=
  String.ofList (link.toList.reverse.takeWhile fun c => c ≠ '=').reverse

/-- What a wallet reads off a link: smallest units behind `ethereum:`, a decimal
amount otherwise. -/
def requestedAmount (currency : CryptoCurrency) (link : String) : Except Err Money :=
  if "ethereum:".toList.isPrefixOf link.toList then
    Money.new .crypto currency.ticker (amountText link) currency.decimals
  else Money.cryptoFromStringFloat currency.ticker (amountText link) currency.decimals

theorem amountText_append {before text : String} (h : '=' ∉ text.toList) :
    amountText (before ++ "=" ++ text) = text := by
  have hall : ∀ c ∈ text.toList.reverse, decide (c ≠ '=') = true := by
    intro c hc
    rw [decide_eq_true_eq]
    rintro rfl
    exact h (List.mem_reverse.mp hc)
  have hlist : (before ++ "=" ++ text).toList.reverse =
      text.toList.reverse ++ '=' :: before.toList.reverse := by
    simp
  rw [amountText, hlist, List.takeWhile_append_of_pos hall, List.takeWhile_cons_of_neg (by simp),
    List.append_nil, List.reverse_reverse, String.ofList_toList]

section

variable {c : CryptoCurrency} {q : Int}

theorem not_mem_stringRaw (c : CryptoCurrency) (q : Int) :
    '=' ∉ (c.makeAmountFromBigInt q).stringRaw.toList := by
  have hsigned : IsSigned (toString q).toList (Money.signOf q) (Nat.toDigits 10 q.natAbs) :=
    ⟨Money.toString_toList q, isDigits_toDigits _⟩
  exact hsigned.not_mem (by decide) (by decide) (by decide)

theorem not_mem_string (c : CryptoCurrency) (q : Int) :
    '=' ∉ (c.makeAmountFromBigInt q).string.toList := by
  obtain ⟨n, htext, -⟩ := Money.string_numeral (m := c.makeAmountFromBigInt q) rfl
  rw [← htext]
  exact n.not_mem_text (by decide) (by decide) (by decide) (by decide)

/-- Smallest units read back. -/
theorem new_stringRaw (c : CryptoCurrency) (q : Int) :
    Money.new .crypto c.ticker (c.makeAmountFromBigInt q).stringRaw c.decimals =
      .ok (c.makeAmountFromBigInt q) :=
  Money.new_toString c.ticker q c.decimals

/-- The displayed text reads back. -/
theorem cryptoFromStringFloat_display (hd : 0 ≤ c.decimals) :
    Money.cryptoFromStringFloat c.ticker (c.makeAmountFromBigInt q).string c.decimals =
      .ok (c.makeAmountFromBigInt q) :=
  Money.cryptoFromStringFloat_string hd

/-- A link of another scheme asks for a decimal amount. -/
theorem requestedAmount_decimal (hd : 0 ≤ c.decimals) {link before : String}
    (hsplit : link = before ++ "=" ++ (c.makeAmountFromBigInt q).string)
    (hscheme : "ethereum:".toList.isPrefixOf link.toList = false) :
    requestedAmount c link = .ok (c.makeAmountFromBigInt q) := by
  rw [requestedAmount, hscheme, hsplit, amountText_append (not_mem_string c q)]
  exact cryptoFromStringFloat_display hd

theorem requestedAmount_bitcoin (hd : 0 ≤ c.decimals) (addr : String) :
    requestedAmount c (bitcoinPaymentLink addr (c.makeAmountFromBigInt q)) =
      .ok (c.makeAmountFromBigInt q) := by
  have hsplit : bitcoinPaymentLink addr (c.makeAmountFromBigInt q) =
      ("bitcoin:" ++ addr ++ "?amount") ++ "=" ++ (c.makeAmountFromBigInt q).string := by
    apply String.toList_injective
    simp [bitcoinPaymentLink]
  apply requestedAmount_decimal hd hsplit
  simp only [bitcoinPaymentLink, String.toList_append, List.append_assoc]
  rfl

theorem requestedAmount_tron (hd : 0 ≤ c.decimals) (addr : String) :
    requestedAmount c (tronPaymentLink addr (c.makeAmountFromBigInt q)) =
      .ok (c.makeAmountFromBigInt q) := by
  have hsplit : tronPaymentLink addr (c.makeAmountFromBigInt q) =
      ("tron:" ++ addr ++ "?amount") ++ "=" ++ (c.makeAmountFromBigInt q).string := by
    apply String.toList_injective
    simp [tronPaymentLink]
  apply requestedAmount_decimal hd hsplit
  simp only [tronPaymentLink, String.toList_append, List.append_assoc]
  rfl

theorem requestedAmount_eth (addr : String) (isTest : Bool) :
    requestedAmount c (ethPaymentLink addr c (c.makeAmountFromBigInt q) isTest) =
      .ok (c.makeAmountFromBigInt q) := by
  have hsplit : ∃ before, ethPaymentLink addr c (c.makeAmountFromBigInt q) isTest =
      ("ethereum:" ++ before) ++ "=" ++ (c.makeAmountFromBigInt q).stringRaw := by
    cases htype : c.type with
    | coin =>
      refine ⟨addr ++ "@" ++ c.chooseNetwork isTest ++ "?value", ?_⟩
      apply String.toList_injective
      simp [ethPaymentLink, htype]
    | token =>
      refine ⟨c.chooseContractAddress isTest ++ "@" ++ c.chooseNetwork isTest ++
        "/transfer?address=" ++ addr ++ "&uint256", ?_⟩
      apply String.toList_injective
      simp [ethPaymentLink, htype]
  obtain ⟨before, hsplit⟩ := hsplit
  have hscheme : "ethereum:".toList.isPrefixOf (("ethereum:" ++ before) ++ "=" ++
      (c.makeAmountFromBigInt q).stringRaw).toList = true := by
    simp
  rw [hsplit, requestedAmount, hscheme, amountText_append (not_mem_stringRaw c q)]
  exact new_stringRaw c q

/-- The chains a link can be built for. -/
def Linked (c : CryptoCurrency) : Prop :=
  c.blockchain = "BTC" ∨ c.blockchain ∈ ethLinked ∨ c.blockchain = "TRON"

theorem createPaymentLink_of_linked (hc : Linked c) (addr : String) (amount : Money)
    (isTest : Bool) : ∃ link, createPaymentLink addr c amount isTest = .ok link := by
  unfold createPaymentLink
  split
  · exact ⟨_, rfl⟩
  · split
    · exact ⟨_, rfl⟩
    · split
      · exact ⟨_, rfl⟩
      · rcases hc with h | h | h <;> contradiction

theorem createPaymentLink_requests (hc : Linked c) (hd : 0 ≤ c.decimals)
    (addr : String) (isTest : Bool) :
    ∃ link, createPaymentLink addr c (c.makeAmountFromBigInt q) isTest = .ok link ∧
      requestedAmount c link = .ok (c.makeAmountFromBigInt q) := by
  unfold createPaymentLink
  by_cases hbtc : c.blockchain = "BTC"
  · rw [if_pos hbtc]
    exact ⟨_, rfl, requestedAmount_bitcoin hd addr⟩
  · rw [if_neg hbtc]
    by_cases heth : c.blockchain ∈ ethLinked
    · rw [if_pos heth]
      exact ⟨_, rfl, requestedAmount_eth addr isTest⟩
    · have htron : c.blockchain = "TRON" := by
        rcases hc with h | h | h
        · exact absurd h hbtc
        · exact absurd h heth
        · exact h
      rw [if_neg heth, if_pos htron]
      exact ⟨_, rfl, requestedAmount_tron hd addr⟩

end

namespace Service

variable {s : Service} {tx : Transaction} {w : World} {envs : ℕ → Env} {x y : Int}

/-- The tolerance is known and covers what the display takes off. -/
structure Tolerates (tx : Transaction) (env : Env) : Prop where
  answered : env.fate = .done
  covers : tx.currency.displayUnit - 1 ≤ env.number

theorem add_amounts (c : CryptoCurrency) (x y : Int) :
    (c.makeAmountFromBigInt x).add (c.makeAmountFromBigInt y) =
      .ok (c.makeAmountFromBigInt (x + y)) := by
  have hsame : (c.makeAmountFromBigInt x).compatibleTo (c.makeAmountFromBigInt y) = true :=
    Money.compatibleTo_iff.mpr ⟨rfl, rfl⟩
  rw [Money.add, if_pos hsame]
  rfl

theorem greaterThanOrEqual_amount (h : Denominated tx) :
    (tx.currency.makeAmountFromBigInt x).greaterThanOrEqual tx.amount = true ↔
      tx.amount.value ≤ x := by
  rw [Money.greaterThanOrEqual_iff, h.amount]
  have hsame : (tx.currency.makeAmountFromBigInt x).compatibleTo
      (tx.currency.makeAmountFromBigInt tx.amount.value) = true :=
    Money.compatibleTo_iff.mpr ⟨rfl, rfl⟩
  exact and_iff_right hsame

/-- A sum that misses less than a displayed unit crosses. -/
theorem crosses_of_near (h : Denominated tx)
    (hnear : tx.amount.value - x ≤ tx.currency.displayUnit - 1) {env : Env}
    (htolerates : Tolerates tx env) (w : World) :
    crosses env w tx (tx.currency.makeAmountFromBigInt x) = .ok true := by
  unfold crosses
  split
  · rfl
  · have hreply : engine.reply (.fiatToCrypto tenCents tx.currency) env w =
        .ok (tx.currency.makeAmountFromBigInt env.number) := by
      show answered env.fate Err.remote _ = _
      rw [answered, if_pos htolerates.answered]
      rfl
    have hcovers := htolerates.covers
    have hreached := (greaterThanOrEqual_amount (x := x + env.number) h).mpr (by omega)
    simp only [hreply, add_amounts, bind, Except.bind, hreached]

theorem crossesExpected_of_near (h : Denominated tx)
    (hnear : tx.amount.value - x ≤ tx.currency.displayUnit - 1)
    (htolerates : Tolerates tx (envs 0)) (w : World) :
    outcome (crossesExpected tx (tx.currency.makeAmountFromBigInt x)) envs w = .ok true := by
  rw [outcome, alone_crossesExpected]
  exact crosses_of_near h hnear htolerates w

/-- The amount a call compares for such a transfer. -/
theorem combinedAmount_of_amount (h : Denominated tx) {input : Input}
    (hamount : input.amount = tx.currency.makeAmountFromBigInt y) :
    combinedAmount w tx input = .ok (tx.currency.makeAmountFromBigInt
      (w.sumConfirmedFillsForTx tx.id + y)) := by
  rw [combinedAmount, hamount, numericToCrypto, h.amount]
  exact add_amounts tx.currency _ y

/-- A transfer that leaves less than a displayed unit is promoted. -/
theorem processInbound_promotes (h : Denominated tx) {input : Input}
    (hamount : input.amount = tx.currency.makeAmountFromBigInt y)
    (hvalid : input.validate = .ok ()) (hsum : (envs 0).fate = .done)
    (hnear : w.unpaid tx - y ≤ tx.currency.displayUnit - 1) (htolerates : Tolerates tx (envs 1)) :
    ∃ n, engine.alone envs (s.processInboundTransaction tx input) 0 ⟨w, .idle⟩ =
      engine.alone envs (s.promoteFromPartial tx input (tx.currency.makeAmountFromBigInt
        (w.sumConfirmedFillsForTx tx.id + y))) n ⟨w, .idle⟩ := by
  have hcumulative := alone_cumulativeAmount.mpr
    ⟨rfl, rfl, hvalid, hsum, combinedAmount_of_amount (w := w) h hamount⟩
  have hcrosses := crosses_of_near h (x := w.sumConfirmedFillsForTx tx.id + y)
    (by unfold World.unpaid at hnear; omega) htolerates w
  rw [processInboundTransaction_eq, Engine.alone_bind, hcumulative]
  simp only [Engine.alone_bind, Engine.alone_mapError, alone_crossesExpected, hcrosses,
    Except.mapError, if_true]
  exact ⟨_, rfl⟩

/-- The status a promotion of such a sum hands on, if the price feed answers
again. -/
theorem determine_of_near (h : Denominated tx)
    (hnear : tx.amount.value - x ≤ tx.currency.displayUnit - 1)
    (htolerates : ∀ n, Tolerates tx (envs n)) (n : ℕ) :
    ∃ md k, engine.alone envs (determineIncomingStatusFromCombined tx
      (tx.currency.makeAmountFromBigInt x)) n ⟨w, .idle⟩ =
        (.ok (.inProgress, md), k, ⟨w, .idle⟩) := by
  unfold determineIncomingStatusFromCombined
  split
  · exact ⟨_, _, rfl⟩
  · split
    · exact ⟨_, _, rfl⟩
    · simp only [Prog.bind_eq, Engine.alone_bind, alone_crossesExpected,
        crosses_of_near h hnear (htolerates n) w, if_true]
      exact ⟨_, _, rfl⟩

/-- The row with its new status and what it received. -/
def Stored (id : Int) (status : Transaction.Status) (fact : Int) (w : World) : Prop :=
  ∃ r ∈ transactionRow id w, r.status = status ∧ r.factAmount = some fact

theorem receiveOn_stores (m id : Int) (params : ReceiveTransaction) :
    InTransaction w (fun w' => w' = w) (s.receiveOn .tx m id params) fun received w' =>
      received.status = params.status ∧ Stored id params.status params.factAmount.value w' := by
  refine .bind (M := fun _ _ => True) ?_ fun tx => .bind (M := fun _ _ => True) ?_ fun now => ?_
  · exact .bind (M := fun _ _ => True) (.read rfl fun _ _ _ => trivial) fun _ =>
      .checked fun _ _ _ _ => trivial
  · exact .weaken .timeNow (fun _ _ => trivial) fun _ _ _ => trivial
  · refine .bind (M := fun entry w' => ∀ row, entry = .ok row → row.status = params.status ∧
      Stored id params.status params.factAmount.value w') ?_ fun entry => .checked ?_
    · refine .statement (fun _ => (fun h => by cases h)) fun env w' _ row hrow => ?_
      obtain ⟨hdone, r, htarget, rfl⟩ := reply_updateTransaction hrow
      exact ⟨rfl, World.updatedTransaction (params.toRepo m id now
        (tx.metaData.merge params.metaData)) r, effect_updateTransaction hdone htarget, rfl, rfl⟩
    · intro received hreceived w' hw'
      obtain ⟨row, rfl, hentry⟩ := s.toTransaction_eq_ok hreceived
      obtain ⟨currency, fee, -, -, rfl⟩ := s.entryToTransaction_eq_ok hentry
      exact hw' row rfl

theorem receive_stores {m id : Int} {params : ReceiveTransaction} :
    engine.Triple (Engine.AtRest fun _ => True) (s.receive m id params)
      (fun _ => Engine.AtRest (Stored id params.status params.factAmount.value))
      (Engine.AtRest fun _ => True) := by
  refine .bind (M := fun _ => Engine.AtRest fun _ => True)
    (.ofExcept (fun _ _ _ hv => hv) fun _ hv => hv) fun _ => ?_
  rintro envs n ⟨w, x⟩ ⟨rfl, -⟩
  have h := (receiveOn_stores (s := s) (w := w) m id params).runTx envs n
  generalize engine.alone envs (runTx (s.receiveOn .tx m id params)) n ⟨w, .idle⟩ = run at h ⊢
  obtain ⟨e | received, k, v⟩ := run
  · exact ⟨h.1, trivial⟩
  · exact ⟨h.1, h.2.2⟩

theorem recordInput_atRest {input : Input} :
    engine.Triple (Engine.AtRest fun _ => True) (recordInput tx input)
      (fun _ => Engine.AtRest fun _ => True) (Engine.AtRest fun _ => True) := by
  have hpool : ∀ st : Stmt, engine.Triple (ε := Err) (Engine.AtRest fun _ => True) (ask .pool st)
      (fun _ => Engine.AtRest fun _ => True) (Engine.AtRest fun _ => True) :=
    fun st => .ask fun env v hv => hv
  unfold recordInput recordFill
  split
  · refine .bind (hpool .timeNow) fun now => .bind (hpool _) fun r => ?_
    exact .bind (M := fun _ => Engine.AtRest fun _ => True)
      (.ofExcept (fun _ _ _ hv => hv) fun _ hv => hv) fun row => .ret fun _ hv => hv
  · exact .fail fun _ hv => hv

/-- What changes no transaction keeps the row. -/
theorem alone_keeps_stored {α : Type} {p : Call α} (envs : ℕ → Env) {id fact : Int}
    {status : Transaction.Status}
    (hp : OnlyWrites (fun _ st => st.changes ≠ some .transactions) p)
    (h : Stored id status fact w) (n : ℕ) :
    Stored id status fact (engine.alone envs p n ⟨w, .idle⟩).2.2.world := by
  refine (hp.alone_keeps (fun _ st env seen w' hst hw' => ?_) (fun _ st w' _ hw' => ?_) envs
    (Engine.within_idle h)).world
  · rw [Stored, transactionRow, World.effect_transactions hst]
    exact hw'
  · rw [Stored, transactionRow, lasting_transactions]
    exact hw'

/-- A promotion that ends well leaves the transaction in progress. -/
theorem promoteFromPartial_stores (h : Denominated tx) {input : Input}
    (hnear : tx.amount.value - x ≤ tx.currency.displayUnit - 1)
    (htolerates : ∀ n, Tolerates tx (envs n)) (n : ℕ)
    (hok : (engine.alone envs (s.promoteFromPartial tx input (tx.currency.makeAmountFromBigInt x)) n
      ⟨w, .idle⟩).1 = .ok ()) :
    Stored tx.id .inProgress x (engine.alone envs (s.promoteFromPartial tx input
      (tx.currency.makeAmountFromBigInt x)) n ⟨w, .idle⟩).2.2.world := by
  obtain ⟨md, k, hdetermined⟩ := determine_of_near (w := w) h hnear htolerates n
  have hrest : ∀ p : Call Unit, engine.Triple (Engine.AtRest fun _ => True) p
      (fun _ v => Stored tx.id .inProgress x v.world) (fun _ => True) →
      (engine.alone envs p k ⟨w, .idle⟩).1 = .ok () →
      Stored tx.id .inProgress x (engine.alone envs p k ⟨w, .idle⟩).2.2.world := by
    intro p hp hended
    have hends := hp envs k ⟨w, .idle⟩ ⟨rfl, trivial⟩
    rw [hended] at hends
    exact hends
  unfold promoteFromPartial at hok ⊢
  rw [Prog.bind_eq, Engine.alone_bind, hdetermined] at hok ⊢
  refine hrest _ ?_ hok
  refine .bind (.mapError (recordInput_atRest.failing fun _ _ => trivial)) fun _ => ?_
  refine .bind (.mapError (receive_stores.failing fun _ _ => trivial)) fun received => ?_
  rintro envs' n' ⟨w', y⟩ ⟨hidle, hstored⟩
  obtain rfl : y = .idle := hidle
  generalize hp : (if received.status = .inProgress then _ else _ : Call Unit) = p
  have hwrites : OnlyWrites (fun _ st => st.changes ≠ some .transactions) p := by
    rw [← hp]
    split
    · refine .bind (.mapError _ getPaymentByID_writes) fun pt => ?_
      exact .bind (.mapError _ (updatePayment_writes fun _ _ _ _ => (fun h => by cases h)))
        fun _ => .ret _
    · exact .ret _
  have hkept := alone_keeps_stored envs' hwrites hstored n'
  generalize engine.alone envs' p n' ⟨w', .idle⟩ = run at hkept ⊢
  obtain ⟨e | u, k', v⟩ := run
  · trivial
  · exact hkept

/-- What the page shows of a payment that received something. -/
theorem remainingInfo_of_settled (h : Denominated tx) (hfills : FillsSettled w) {pt : Payment}
    (hpartly : pt.status = .partialPaid ∨ pt.status = .underpaid) {link : String}
    (hlink : createPaymentLink tx.recipientAddress tx.currency (w.remainder tx) tx.isTest =
      .ok link) :
    ∃ received, remainingInfo pt tx (.ok (w.sumAllFillsForTx tx.id)) =
      .ok (received, (w.remainder tx).string, link) := by
  have hsub : tx.amount.subNegative (numericToCrypto (w.sumConfirmedFillsForTx tx.id) tx.amount) =
      .ok (tx.currency.makeAmountFromBigInt (w.unpaid tx)) := by
    have hsame : tx.amount.compatibleTo
        (numericToCrypto (w.sumConfirmedFillsForTx tx.id) tx.amount) = true :=
      Money.compatibleTo_iff.mpr ⟨rfl, rfl⟩
    rw [Money.subNegative, if_pos hsame, h.amount]
    rfl
  refine ⟨displayAmount tx (numericToCrypto (w.sumConfirmedFillsForTx tx.id) tx.amount), ?_⟩
  rw [remainingInfo, if_pos hpartly, sumAllFills_of_settled hfills]
  simp only [sumAllFills, wrapErr_ok, bind, Except.bind, hsub]
  unfold World.remainder at hlink ⊢
  rw [hlink]

/-- What follows if the customer of an invoice pays `q`. -/
structure CompletedBy (s : Service) (w : World) (tx : Transaction) (q : Money) : Prop where
  positive : 0 < q.value
  shown : ∀ details : DetailedPayment, details.paymentMethod = some tx →
    details.payment.status = .partialPaid ∨ details.payment.status = .underpaid →
    Linked tx.currency → ∃ info,
      paymentInfo details (.ok (w.sumAllFillsForTx tx.id)) = .ok (some info) ∧
        info.remainingAmount = q.string ∧
        requestedAmount tx.currency info.remainingPaymentLink = .ok q
  text : Money.cryptoFromStringFloat tx.currency.ticker q.string tx.currency.decimals = .ok q
  links : Linked tx.currency → ∀ addr isTest, ∃ link,
    createPaymentLink addr tx.currency q isTest = .ok link ∧
      requestedAmount tx.currency link = .ok q
  matched : bestMatchByAmount [pendingInfo (confirmedFillSums w) tx] q.value =
    some (0, pendingInfo (confirmedFillSums w) tx, true)
  crosses : ∀ envs, Tolerates tx (envs 0) →
    outcome (crossesExpected tx (tx.currency.makeAmountFromBigInt
      (w.sumConfirmedFillsForTx tx.id + q.value))) envs w = .ok true
  promoted : ∀ (input : Input) (envs : ℕ → Env), input.amount = q → input.validate = .ok () →
    (envs 0).fate = .done → Tolerates tx (envs 1) →
      ∃ n, engine.alone envs (s.processInboundTransaction tx input) 0 ⟨w, .idle⟩ =
        engine.alone envs (s.promoteFromPartial tx input (tx.currency.makeAmountFromBigInt
          (w.sumConfirmedFillsForTx tx.id + q.value))) n ⟨w, .idle⟩
  stored : ∀ (input : Input) (envs : ℕ → Env), input.amount = q → (∀ n, Tolerates tx (envs n)) →
    outcome (s.processInboundTransaction tx input) envs w = .ok () →
      Stored tx.id .inProgress (w.sumConfirmedFillsForTx tx.id + q.value)
        (worldAfter (s.processInboundTransaction tx input) envs w)

theorem completedBy_remainder (s : Service) (hfills : FillsSettled w) (h : Denominated tx)
    (hleft : tx.currency.displayUnit ≤ w.unpaid tx) : CompletedBy s w tx (w.remainder tx) := by
  obtain ⟨q, hq, hpos, hle, hnear, hhalf⟩ := remainder_near hleft
  have hmissing : tx.amount.value - (w.sumConfirmedFillsForTx tx.id + q) ≤
      tx.currency.displayUnit - 1 := by
    unfold World.unpaid at hnear
    omega
  have hpromoted : ∀ (input : Input) (envs : ℕ → Env), input.amount = w.remainder tx →
      input.validate = .ok () → (envs 0).fate = .done → Tolerates tx (envs 1) →
      ∃ n, engine.alone envs (s.processInboundTransaction tx input) 0 ⟨w, .idle⟩ =
        engine.alone envs (s.promoteFromPartial tx input (tx.currency.makeAmountFromBigInt
          (w.sumConfirmedFillsForTx tx.id + q))) n ⟨w, .idle⟩ :=
    fun input envs hamount hvalid hsum htolerates =>
      processInbound_promotes h (hamount.trans hq) hvalid hsum hnear htolerates
  constructor
  · rw [hq]
    exact hpos
  · intro details hmethod hpartly hlinked
    obtain ⟨link, hlink, hrequested⟩ := createPaymentLink_requests hlinked h.decimals
      tx.recipientAddress tx.isTest
    rw [← hq] at hlink hrequested
    obtain ⟨received, hremaining⟩ := remainingInfo_of_settled h hfills hpartly hlink
    obtain ⟨whole, hwhole⟩ : ∃ whole, tx.paymentLink = .ok whole :=
      createPaymentLink_of_linked hlinked _ _ _
    have hfinal : details.payment.isEditable = false := by
      rw [Payment.isEditable]
      rcases hpartly with hs | hs
      · rw [hs]
        rfl
      · rw [hs]
        rfl
    rw [paymentInfo, hmethod]
    simp only [hfinal, Bool.false_eq_true, if_false, hwhole, hremaining, bind, Except.bind]
    exact ⟨_, rfl, rfl, hrequested⟩
  · rw [hq]
    exact cryptoFromStringFloat_display h.decimals
  · intro hlinked addr isTest
    rw [hq]
    exact createPaymentLink_requests hlinked h.decimals addr isTest
  · apply bestMatchByAmount_alone
    rw [effectiveExpected_unpaid (by omega), hq]
    exact hhalf
  · intro envs htolerates
    rw [hq]
    exact crossesExpected_of_near h hmissing htolerates w
  · rw [hq] at hpromoted ⊢
    exact hpromoted
  · intro input envs hamount htolerates hok
    have hvalid : input.validate = .ok () := by
      cases hvalidate : input.validate with
      | ok u => rfl
      | error e =>
        unfold processInboundTransaction at hok
        rw [hvalidate] at hok
        cases hok
    obtain ⟨n, hrun⟩ := hpromoted input envs hamount hvalid (htolerates 0).answered (htolerates 1)
    rw [outcome, hrun] at hok
    rw [worldAfter, hrun, hq]
    exact promoteFromPartial_stores h hmissing htolerates n hok

/-- In every run: whoever has a unit or more left to pay of an invoice and pays
what the page shows has paid it. -/
theorem displayed_remainder_completes (s : Service) (w₀ : World) (hw₀ : FillsSettled w₀) (es : Run)
    (tx : Transaction) (htx : Denominated tx)
    (hleft : tx.currency.displayUnit ≤ (s.system.run ⟨w₀, []⟩ es).world.unpaid tx) :
    CompletedBy s (s.system.run ⟨w₀, []⟩ es).world tx
      ((s.system.run ⟨w₀, []⟩ es).world.remainder tx) :=
  completedBy_remainder s (fillsSettled_run hw₀ es) htx hleft

end Service

open Sample

namespace Sample

/-- One ether, of which 0.6 and one wei have come in. -/
def wei : CryptoCurrency := { ether with decimals := 18 }

def oneEther : Transaction :=
  Service.transactionOf { invoice .pending none none none with amount := 10 ^ 18, decimals := 18 }
    wei none

def sixTenths : World :=
  world { invoice .pending none none none with amount := 10 ^ 18, decimals := 18 } .partialPaid
    [fill "0xa" (6 * 10 ^ 17 + 1) 0 .confirmed] []

end Sample

/-- The page shows 0.39999999 ether. -/
theorem displayed_remainder_completes_sample :
    (sixTenths.remainder oneEther).string = "0.39999999" ∧
      Service.CompletedBy service sixTenths oneEther (sixTenths.remainder oneEther) :=
  ⟨by decide +kernel, Service.displayed_remainder_completes service sixTenths (by decide +kernel) []
    oneEther ⟨rfl, by decide⟩ (by decide +kernel)⟩

end CryptoLink
