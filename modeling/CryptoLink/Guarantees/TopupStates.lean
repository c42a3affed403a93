import CryptoLink.Guarantees.TopupBooks

/-!
# How far a topup has come

Nothing is paid until the credit, and what a call ends with is judged by its
payment and its transaction. One lemma for each statement that takes it further.
-/

namespace CryptoLink

open KeyedTables ReadCommitted StatementPrograms System

/-- The row of the transaction, as far as the ledger is told of it. -/
structure TopupRow (l : TopupCall) (p : Int) (row : TransactionRow) : Prop where
  type : row.type = .virtual
  entityID : row.entityID = some p
  merchantID : row.merchantID = l.merchantID
  currency : row.currency = l.input.currency.ticker
  isTest : row.isTest = l.input.isTest

/-- Nothing has been paid yet. The call has made the payment `q` and the
transaction `r`, if any; those it can rely on are as it has left them. -/
structure Unpaid (l : TopupCall) (mine : Prop) (p t : Int) (q r : Option Int) (own : Deeds World)
    (w : World) : Prop where
  books : CallBooks q r own
  nothing : ∀ k, gain k own = 0
  payment : mine → q = some p → ∃ row, w.payments.get p = some row ∧ row.status = .success ∧
    row.merchantID = l.merchantID
  transaction : mine → q = some p → r = some t → ∃ row, w.transactions.get t = some row ∧
    TopupRow l p row

/-- What a call that has come to its end has to show for itself. -/
structure Reckons (s : Service) (l : TopupCall) (mine : Prop) (p t : Int) (own : Deeds World)
    (w : World) : Prop where
  ids : (∃ k, gain k own ≠ 0) → ∃ q r, Made (HasPayment q) own ∧ Made (HasTransaction r) own
  whole : mine → Made (HasPayment p) own → Made (HasTransaction t) own →
    HasPayment p w ∧ HasTransaction t w ∧ (Pair p t w → Grown s l own) ∧
      (¬ Pair p t w → ∀ k, gain k own = 0)

variable {s : Service} {l : TopupCall} {mine : Prop} {p t : Int} {own own' : Deeds World}
  {w w' : World}

/-- While its rows stay, a pair stays what it is. -/
theorem pair_of_rel (hrel : (topupSurroundings mine p t).rel w w') (hmine : mine)
    (hpayment : HasPayment p w) (htransaction : HasTransaction t w) :
    Pair p t w' ↔ Pair p t w := by
  obtain ⟨prow, hprow⟩ := Option.isSome_iff_exists.mp hpayment
  obtain ⟨trow, htrow⟩ := Option.isSome_iff_exists.mp htransaction
  have hprow' := (hrel hmine).1 prow hprow
  have htrow' := (hrel hmine).2 trow htrow
  constructor
  · rintro ⟨⟨row, hrow, hstatus⟩, row', hrow', hrest⟩
    rw [hprow', ← hprow] at hrow
    rw [htrow', ← htrow] at hrow'
    exact ⟨⟨row, hrow, hstatus⟩, row', hrow', hrest⟩
  · rintro ⟨⟨row, hrow, hstatus⟩, row', hrow', hrest⟩
    rw [hprow, ← hprow'] at hrow
    rw [htrow, ← htrow'] at hrow'
    exact ⟨⟨row, hrow, hstatus⟩, row', hrow', hrest⟩

theorem Pair.completed (h : Pair p t w) : HasCompleted p w := by
  obtain ⟨row, hrow, htype, hentity, hstatus⟩ := h.transaction
  exact ⟨row, (Table.get_eq_some hrow).1, htype, hentity, hstatus⟩

namespace Reckons

theorem stable (h : Reckons s l mine p t own w) (hrel : (topupSurroundings mine p t).rel w w') :
    Reckons s l mine p t own w' := by
  refine ⟨h.ids, ?_⟩
  intro hmine hpaid htransacted
  obtain ⟨hpayment, htransaction, hgrown, hnothing⟩ := h.whole hmine hpaid htransacted
  have hpair := pair_of_rel hrel hmine hpayment htransaction
  obtain ⟨prow, hprow⟩ := Option.isSome_iff_exists.mp hpayment
  obtain ⟨trow, htrow⟩ := Option.isSome_iff_exists.mp htransaction
  have hpayment' : HasPayment p w' :=
    Option.isSome_iff_exists.mpr ⟨prow, (hrel hmine).1 prow hprow⟩
  have htransaction' : HasTransaction t w' :=
    Option.isSome_iff_exists.mpr ⟨trow, (hrel hmine).2 trow htrow⟩
  exact ⟨hpayment', htransaction', fun h' => hgrown (hpair.mp h'), fun h' k =>
    hnothing (fun h'' => h' (hpair.mpr h'')) k⟩

theorem rests (h : Reckons s l mine p t own w) (hrests : Rests own own') :
    Reckons s l mine p t own' w := by
  constructor
  · rintro ⟨k, hk⟩
    rw [hrests.gain] at hk
    obtain ⟨q, r, hq, hr⟩ := h.ids ⟨k, hk⟩
    exact ⟨q, r, hrests.made.mpr hq, hrests.made.mpr hr⟩
  · intro hmine hpaid htransacted
    obtain ⟨hpayment, htransaction, hgrown, hnothing⟩ :=
      h.whole hmine (hrests.made.mp hpaid) (hrests.made.mp htransacted)
    refine ⟨hpayment, htransaction, ?_, ?_⟩
    · intro hpair
      obtain ⟨hpositive, k, hkey, hgain, hothers⟩ := hgrown hpair
      refine ⟨hpositive, k, hkey, (hrests.gain k).trans hgain, ?_⟩
      intro k' hk'
      exact (hrests.gain k').trans (hothers k' hk')
    · intro hpair k
      exact (hrests.gain k).trans (hnothing hpair k)

/-- The call has made its rows elsewhere, or not both of them. -/
theorem elsewhere {q r : Option Int} (hbooks : CallBooks q r own)
    (hmade : (∃ k, gain k own ≠ 0) → q.isSome = true ∧ r.isSome = true)
    (hother : ¬ (mine ∧ q = some p ∧ r = some t)) : Reckons s l mine p t own w := by
  constructor
  · intro hgain
    obtain ⟨hq, hr⟩ := hmade hgain
    obtain ⟨q, rfl⟩ := Option.isSome_iff_exists.mp hq
    obtain ⟨r, rfl⟩ := Option.isSome_iff_exists.mp hr
    exact ⟨q, r, (hbooks.payment q).mpr rfl, (hbooks.transaction r).mpr rfl⟩
  · intro hmine hpaid htransacted
    exact absurd ⟨hmine, (hbooks.payment p).mp hpaid, (hbooks.transaction t).mp htransacted⟩ hother

end Reckons

namespace Unpaid

variable {q r : Option Int}

theorem stable (h : Unpaid l mine p t q r own w) (hrel : (topupSurroundings mine p t).rel w w') :
    Unpaid l mine p t q r own w' where
  books := h.books
  nothing := h.nothing
  payment hmine hq := by
    obtain ⟨row, hrow, hrest⟩ := h.payment hmine hq
    exact ⟨row, (hrel hmine).1 row hrow, hrest⟩
  transaction hmine hq hr := by
    obtain ⟨row, hrow, hrest⟩ := h.transaction hmine hq hr
    exact ⟨row, (hrel hmine).2 row hrow, hrest⟩

theorem rests (h : Unpaid l mine p t q r own w) (hrests : Rests own own') :
    Unpaid l mine p t q r own' w where
  books := hrests.books h.books
  nothing k := (hrests.gain k).trans (h.nothing k)
  payment := h.payment
  transaction := h.transaction

/-- What reads and what the others do leave it so. -/
theorem after (h : Unpaid l mine p t q r own w) (hrel : (topupSurroundings mine p t).rel w w')
    (hrests : Rests own own') : Unpaid l mine p t q r own' w' :=
  (h.stable hrel).rests hrests

/-- A statement that writes neither of the call's rows and no balance. -/
theorem keep (h : Unpaid l mine p t q r own w) (hpayments : w'.payments = w.payments)
    (htransactions : w'.transactions = w.transactions) (hbalances : w'.balances = w.balances) :
    Unpaid l mine p t q r (own ++ [(w, w')]) w' where
  books := by
    apply h.books.keep
    · intro id hid
      rw [HasPayment, hpayments] at hid
      exact hid
    · intro id hid
      rw [HasTransaction, htransactions] at hid
      exact hid
  nothing k := by
    rw [gain_append, h.nothing, gain_single]
    dsimp only
    rw [amountAt_congr hbalances]
    omega
  payment hmine hq := by
    rw [hpayments]
    exact h.payment hmine hq
  transaction hmine hq hr := by
    rw [htransactions]
    exact h.transaction hmine hq hr

/-- The payment is created, or it is not; if the creation is answered, it is the
payment the answer speaks of. -/
theorem pay (params : CreatePaymentParams) (env : Env)
    (h : Unpaid l mine p t none none own w) (hstatus : params.status = .success)
    (hmerchant : params.merchantID = l.merchantID) :
    ∃ q, Unpaid l mine p t q none (own ++ [(w, engine.autocommit (.createPayment params) env w)])
        (engine.autocommit (.createPayment params) env w) ∧
      ∀ row, engine.reply (.createPayment params) env w = .ok row →
        q = some row.id ∧ row.merchantID = l.merchantID := by
  by_cases hlands : env.fate ≠ .refused ∧ World.paymentFits params = true
  · obtain ⟨hrefused, hfits⟩ := hlands
    have hhas := createPayment_has (w := w) hrefused hfits
    refine ⟨some w.nextPaymentID, ?_, ?_⟩
    · constructor
      · apply h.books.pay (nextPaymentID_free w)
        · intro id
          constructor
          · intro hid
            rcases hasPayment_autocommit hid with hbefore | ⟨_, -, -, hnew, -⟩
            · exact .inl hbefore
            · exact .inr hnew.symm
          · rintro (hbefore | rfl)
            · have hne : id ≠ (w.newPayment params).id := by
                rintro rfl
                exact nextPaymentID_free w hbefore
              rw [HasPayment, createPayment_lands hrefused hfits, Table.get_insert_of_ne _ hne]
              exact hbefore
            · rw [HasPayment, hhas]
              rfl
        · intro id hid
          rw [HasTransaction, autocommit_transactions (fun hfalse => by cases hfalse)] at hid
          exact hid
      · intro k
        rw [gain_append, h.nothing, gain_single]
        dsimp only
        rw [amountAt_congr (autocommit_balances (fun hfalse => by cases hfalse))]
        omega
      · intro _ hq
        cases hq
        exact ⟨_, hhas, hstatus, hmerchant⟩
      · intro _ _ hr
        cases hr
    · intro row hrow
      obtain ⟨-, hok⟩ := answered_eq_ok hrow
      rw [if_pos hfits] at hok
      cases hok
      exact ⟨rfl, hmerchant⟩
  · have hsame : engine.autocommit (.createPayment params) env w = w := by
      by_cases hrefused : env.fate = .refused
      · exact engine_autocommit_refused hrefused
      · have hfits : ¬ World.paymentFits params = true := fun hfits => hlands ⟨hrefused, hfits⟩
        rw [engine_autocommit_landed hrefused]
        simp only [World.effect, World.lasting, if_neg hfits]
    refine ⟨none, ?_, ?_⟩
    · rw [hsame]
      exact h.keep rfl rfl rfl
    · intro row hrow
      obtain ⟨hdone, hok⟩ := answered_eq_ok hrow
      have hfits : ¬ World.paymentFits params = true := by
        intro hfits
        exact hlands ⟨by rw [hdone]; decide, hfits⟩
      rw [if_neg hfits] at hok
      cases hok

/-- So is the transaction. -/
theorem transact {q : Int} {params : CreateTransactionParams} (env : Env)
    (h : Unpaid l mine p t (some q) none own w)
    (hrow : q = p → TopupRow l p (w.newTransaction params)) :
    ∃ r, Unpaid l mine p t (some q) r
        (own ++ [(w, engine.autocommit (.createTransaction params) env w)])
        (engine.autocommit (.createTransaction params) env w) ∧
      ∀ row, engine.reply (.createTransaction params) env w = .ok row →
        r = some row.id ∧ row.factAmount = params.factAmount := by
  have hpayments : (engine.autocommit (.createTransaction params) env w).payments = w.payments :=
    autocommit_payments (fun hfalse => by cases hfalse)
  by_cases hlands : env.fate ≠ .refused ∧ w.createFits params = true
  · obtain ⟨hrefused, hfits⟩ := hlands
    obtain ⟨hfree, hhas⟩ := createTransaction_has (w := w) hrefused hfits
    refine ⟨some w.nextTransactionID, ?_, ?_⟩
    · constructor
      · apply h.books.transact hfree
        · intro id hid
          rw [HasPayment, hpayments] at hid
          exact hid
        · intro id
          constructor
          · intro hid
            rcases hasTransaction_autocommit hid with hbefore | ⟨_, -, -, hnew, -⟩
            · exact .inl hbefore
            · exact .inr hnew.symm
          · rintro (hbefore | rfl)
            · have hne : id ≠ (w.newTransaction params).id := by
                rintro rfl
                exact hfree hbefore
              rw [HasTransaction, createTransaction_lands hrefused hfits,
                Table.get_insert_of_ne _ hne]
              exact hbefore
            · rw [HasTransaction, hhas]
              rfl
      · intro k
        rw [gain_append, h.nothing, gain_single]
        dsimp only
        rw [amountAt_congr (autocommit_balances (fun hfalse => by cases hfalse))]
        omega
      · intro hmine hq
        rw [hpayments]
        exact h.payment hmine hq
      · intro _ hq hr
        cases hq
        cases hr
        exact ⟨_, hhas, hrow rfl⟩
    · intro row hrow
      obtain ⟨-, hok⟩ := answered_eq_ok hrow
      rw [if_pos hfits] at hok
      cases hok
      exact ⟨rfl, rfl⟩
  · have hsame : (engine.autocommit (.createTransaction params) env w).transactions =
        w.transactions := by
      by_cases hrefused : env.fate = .refused
      · rw [engine_autocommit_refused hrefused]
      · have hfits : ¬ w.createFits params = true := fun hfits => hlands ⟨hrefused, hfits⟩
        rw [engine_autocommit_landed hrefused]
        simp only [World.effect, World.lasting, if_neg hfits]
    refine ⟨none, h.keep hpayments hsame (autocommit_balances (fun hfalse => by cases hfalse)), ?_⟩
    intro row hrow
    obtain ⟨hdone, hok⟩ := answered_eq_ok hrow
    have hfits : ¬ w.createFits params = true := by
      intro hfits
      exact hlands ⟨by rw [hdone]; decide, hfits⟩
    rw [if_neg hfits] at hok
    cases hok

end Unpaid

/-- The money is on the merchant's balance, and the payment has its completed
transaction. -/
structure Paid (s : Service) (l : TopupCall) (p t : Int) (own : Deeds World) (w : World) :
    Prop where
  books : CallBooks (some p) (some t) own
  grown : Grown s l own
  pair : Pair p t w

/-- A credit of the amount to the merchant. -/
structure Credits (s : Service) (l : TopupCall) (q : UpdateBalanceQuery) : Prop where
  entityID : q.entityID = l.merchantID
  entityType : q.entityType = .merchant
  operation : q.operation = .increment
  currency : s.currencies.getCurrencyByTicker l.input.currency.ticker = .ok q.currency
  isTest : q.isTest = l.input.isTest
  ticker : q.amount.ticker = l.input.currency.ticker
  value : q.amount.value = l.input.amount.value
  positive : 0 < q.amount.value

theorem Pair.has (h : Pair p t w) : HasPayment p w ∧ HasTransaction t w := by
  obtain ⟨prow, hprow, -⟩ := h.payment
  obtain ⟨trow, htrow, -⟩ := h.transaction
  exact ⟨Option.isSome_iff_exists.mpr ⟨prow, hprow⟩, Option.isSome_iff_exists.mpr ⟨trow, htrow⟩⟩

theorem Pair.stable (h : Pair p t w) (hrel : (topupSurroundings mine p t).rel w w')
    (hmine : mine) : Pair p t w' :=
  (pair_of_rel hrel hmine h.has.1 h.has.2).mpr h

theorem Pair.keep (h : Pair p t w) (hpayments : w'.payments = w.payments)
    (htransactions : w'.transactions = w.transactions) : Pair p t w' := by
  constructor
  · rw [hpayments]
    exact h.payment
  · rw [htransactions]
    exact h.transaction

namespace Paid

theorem after (h : Paid s l p t own w) (hrel : (topupSurroundings mine p t).rel w w')
    (hmine : mine) (hrests : Rests own own') : Paid s l p t own' w' := by
  refine ⟨hrests.books h.books, ?_, h.pair.stable hrel hmine⟩
  obtain ⟨hpositive, k, hkey, hgain, hothers⟩ := h.grown
  refine ⟨hpositive, k, hkey, (hrests.gain k).trans hgain, ?_⟩
  intro k' hk'
  exact (hrests.gain k').trans (hothers k' hk')

/-- A statement that writes neither of the call's rows and no balance. -/
theorem keep (st : Stmt) (env : Env) (h : Paid s l p t own w)
    (hpayments : st.changes ≠ some .payments) (htransactions : st.changes ≠ some .transactions)
    (hbalances : st.changes ≠ some .balances) :
    Paid s l p t (own ++ [(w, engine.autocommit st env w)]) (engine.autocommit st env w) := by
  have hsame : (engine.autocommit st env w).payments = w.payments := autocommit_payments hpayments
  have hsame' : (engine.autocommit st env w).transactions = w.transactions :=
    autocommit_transactions htransactions
  have hgain : ∀ k, gain k (own ++ [(w, engine.autocommit st env w)]) = gain k own := by
    intro k
    rw [gain_append, gain_single]
    dsimp only
    rw [amountAt_congr (autocommit_balances hbalances)]
    omega
  refine ⟨?_, ?_, h.pair.keep hsame hsame'⟩
  · apply h.books.keep
    · intro id hid
      rw [HasPayment, hsame] at hid
      exact hid
    · intro id hid
      rw [HasTransaction, hsame'] at hid
      exact hid
  · obtain ⟨hpositive, k, hkey, hmoved, hothers⟩ := h.grown
    refine ⟨hpositive, k, hkey, (hgain k).trans hmoved, ?_⟩
    intro k' hk'
    exact (hgain k').trans (hothers k' hk')

theorem reckons (h : Paid s l p t own w) : Reckons s l mine p t own w := by
  constructor
  · intro _
    exact ⟨p, t, (h.books.payment p).mpr rfl, (h.books.transaction t).mpr rfl⟩
  · intro _ _ _
    exact ⟨h.pair.has.1, h.pair.has.2, fun _ => h.grown, fun hnot => absurd h.pair hnot⟩

end Paid

/-- The statement that moves the money. -/
theorem Unpaid.credit {st : Stmt} (env : Env) {k : BalanceKey}
    (h : Unpaid l mine p t (some p) (some t) own w) (hpair : Pair p t w)
    (hst : st.changes = some .balances) (hkey : TopupKey s l k)
    (hpositive : 0 < l.input.amount.value)
    (hmoved : ∀ k', (engine.autocommit st env w).amountAt k' =
      w.amountAt k' + if k' = k then l.input.amount.value else 0) :
    Paid s l p t (own ++ [(w, engine.autocommit st env w)]) (engine.autocommit st env w) := by
  have hpayments : (engine.autocommit st env w).payments = w.payments :=
    autocommit_payments (by rw [hst]; decide)
  have htransactions : (engine.autocommit st env w).transactions = w.transactions :=
    autocommit_transactions (by rw [hst]; decide)
  have hgain : ∀ k', gain k' (own ++ [(w, engine.autocommit st env w)]) =
      if k' = k then l.input.amount.value else 0 := by
    intro k'
    rw [gain_append, h.nothing, gain_single]
    dsimp only
    rw [hmoved]
    omega
  refine ⟨?_, ⟨hpositive, k, hkey, ?_, ?_⟩, hpair.keep hpayments htransactions⟩
  · apply h.books.keep
    · intro id hid
      rw [HasPayment, hpayments] at hid
      exact hid
    · intro id hid
      rw [HasTransaction, htransactions] at hid
      exact hid
  · rw [hgain, if_pos rfl]
  · intro k' hk'
    rw [hgain, if_neg hk']

/-- The row is completed, or it stays as it is. -/
theorem Unpaid.complete (m : Money) (env : Env) (now : Int) (metaData : MetaData) (hmine : mine)
    (h : Unpaid l mine p t (some p) (some t) own w) :
    let params := (Service.topupConfirmation m).toRepo l.merchantID t now metaData
    Unpaid l mine p t (some p) (some t)
        (own ++ [(w, engine.autocommit (.updateTransaction params) env w)])
        (engine.autocommit (.updateTransaction params) env w) ∧
      ∀ row, engine.reply (.updateTransaction params) env w = .ok row →
        TopupRow l p row ∧ row.status = .completed ∧ row.factAmount = some m.value ∧
          Pair p t (engine.autocommit (.updateTransaction params) env w) := by
  intro params
  obtain ⟨old, hold, hrow⟩ := h.transaction hmine rfl rfl
  have hpayments : (engine.autocommit (.updateTransaction params) env w).payments = w.payments :=
    autocommit_payments (fun hfalse => by cases hfalse)
  have hupdated : TopupRow l p (World.updatedTransaction params old) :=
    ⟨hrow.type, hrow.entityID, hrow.merchantID, hrow.currency, hrow.isTest⟩
  have hafter : (engine.autocommit (.updateTransaction params) env w).transactions.get t =
      if env.fate ≠ .refused ∧ (w.updateTarget params).isSome = true then
        some (World.updatedTransaction params old) else some old := by
    by_cases hrefused : env.fate = .refused
    · rw [engine_autocommit_refused hrefused, if_neg fun hand => hand.1 hrefused]
      exact hold
    · rw [engine_autocommit_landed hrefused]
      cases htarget : w.updateTarget params with
      | none =>
        rw [if_neg fun hand => by cases hand.2]
        simp only [World.effect, htarget, World.lasting]
        exact hold
      | some r =>
        rw [if_pos ⟨hrefused, rfl⟩]
        simp only [World.effect, htarget, World.lasting]
        refine (Table.get_modify_self _ _ _ _).trans ?_
        rw [show params.id = t from rfl, hold]
        rfl
  constructor
  · constructor
    · apply h.books.keep
      · intro id hid
        rw [HasPayment, hpayments] at hid
        exact hid
      · intro id hid
        rcases hasTransaction_autocommit hid with hbefore | ⟨_, hfalse, -⟩
        · exact hbefore
        · cases hfalse
    · intro k
      rw [gain_append, h.nothing, gain_single]
      dsimp only
      rw [amountAt_congr (autocommit_balances (fun hfalse => by cases hfalse))]
      omega
    · intro _ _
      rw [hpayments]
      exact h.payment hmine rfl
    · intro _ _ _
      rw [hafter]
      split
      · exact ⟨_, rfl, hupdated⟩
      · exact ⟨_, rfl, hrow⟩
  · intro row hanswer
    obtain ⟨hdone, r, htarget, rfl⟩ := reply_updateTransaction hanswer
    obtain ⟨-, hget, -⟩ := updateTarget_eq_some htarget
    rw [show params.id = t from rfl, hold] at hget
    cases hget
    rw [if_pos ⟨by rw [hdone]; decide, by rw [htarget]; rfl⟩] at hafter
    obtain ⟨prow, hprow, hsuccess, -⟩ := h.payment hmine rfl
    refine ⟨hupdated, rfl, rfl, ⟨prow, ?_, hsuccess⟩, _, hafter, hupdated.type, hupdated.entityID,
      rfl⟩
    rw [hpayments]
    exact hprow

/-- A failed payment is no success; where it could not be failed, its
transaction is not completed. -/
theorem Unpaid.fail {params : UpdatePaymentParams} {env : Env} (hmine : mine)
    (h : Unpaid l mine p t (some p) (some t) own w) (hid : params.id = p)
    (hmerchant : params.merchantID = l.merchantID) (hstatus : params.status = .failed)
    (hsettled : HasCompleted params.id w → env.fate ≠ .refused) :
    Reckons s l mine p t (own ++ [(w, engine.autocommit (.updatePayment params) env w)])
      (engine.autocommit (.updatePayment params) env w) := by
  obtain ⟨prow, hprow, -, howner⟩ := h.payment hmine rfl
  obtain ⟨trow, htrow, -⟩ := h.transaction hmine rfl rfl
  have htransactions : (engine.autocommit (.updatePayment params) env w).transactions =
      w.transactions := autocommit_transactions (fun hfalse => by cases hfalse)
  have hnothing : ∀ k, gain k (own ++ [(w, engine.autocommit (.updatePayment params) env w)]) =
      0 := by
    intro k
    rw [gain_append, h.nothing, gain_single]
    dsimp only
    rw [amountAt_congr (autocommit_balances (fun hfalse => by cases hfalse))]
    omega
  have htransaction : HasTransaction t (engine.autocommit (.updatePayment params) env w) := by
    rw [HasTransaction, htransactions, htrow]
    rfl
  have hends : HasPayment p (engine.autocommit (.updatePayment params) env w) ∧
      ¬ Pair p t (engine.autocommit (.updatePayment params) env w) := by
    by_cases hrefused : env.fate = .refused
    · rw [engine_autocommit_refused hrefused]
      constructor
      · rw [HasPayment, hprow]
        rfl
      · intro hpair
        exact hsettled (hid ▸ hpair.completed) hrefused
    · have htarget : w.paymentTarget params.id params.merchantID = some prow := by
        rw [World.paymentTarget, hid, hprow, Option.filter_some,
          if_pos (decide_eq_true (howner.trans hmerchant.symm))]
      have hafter : (engine.autocommit (.updatePayment params) env w).payments.get p =
          some (World.updatedPayment params prow) := by
        rw [engine_autocommit_landed hrefused]
        simp only [World.effect, World.lasting, htarget]
        rw [← hid]
        refine (Table.get_modify_self _ _ _ _).trans ?_
        rw [hid, hprow]
        rfl
      constructor
      · rw [HasPayment, hafter]
        rfl
      · rintro ⟨⟨row, hrow, hsuccess⟩, -⟩
        rw [hafter] at hrow
        cases hrow
        rw [World.updatedPayment, hstatus] at hsuccess
        cases hsuccess
  constructor
  · rintro ⟨k, hk⟩
    exact absurd (hnothing k) hk
  · intro _ _ _
    exact ⟨hends.1, htransaction, fun hpair => absurd hpair hends.2, fun _ => hnothing⟩

end CryptoLink
